import Quest.LaptopRestore

/-! The headset-mode loop of `stream_main`. It polls whether a client is connected and has
`quest-laptop-display` switch the physical displays. Clock readings, in nanoseconds, and the
helper's exit codes are carried by the actions. -/
namespace Quest.HeadsetMode

def offDelay : Nat := 1500000000
def onDelay : Nat := 4000000000

inductive Command where
  | off
  | on
  deriving DecidableEq, Repr

def Command.delay : Command → Nat
  | .off => offDelay
  | .on => onDelay

/-- The locals of the loop and the last reading of its clock. The displays that are still off
because of an `off` of this loop are `dark`; the source does not know them. -/
structure State where
  laptopOff : Bool
  lastConnected : Bool
  changed : Nat
  clock : Nat
  finished : Bool
  dark : List String
  deriving DecidableEq, Repr

def State.initial (start : Nat) : State := ⟨false, false, start, start, false, []⟩

/-- What one turn of the loop reads: the client, the clock for `changed` and then for
`stable`, and what a call of the helper returns and disables. -/
structure Poll where
  connected : Bool
  changedAt : Nat
  now : Nat
  code : Int
  disabled : List String
  deriving DecidableEq, Repr

/-- `relight` is somebody else's: those displays are on again. -/
inductive Action where
  | poll (p : Poll)
  | relight (displays : List String)
  | finish (code : Int)

inductive Event where
  | polled (connected : Bool) (now : Nat)
  | issued (command : Command) (now : Nat)
  | final
  deriving DecidableEq, Repr

namespace State

/-- `setLaptop`. A helper that exits with another code than 0 changes nothing. -/
def setLaptop (s : State) (command : Command) (code : Int) (disabled : List String) : State :=
  match command with
  | .off => { s with laptopOff := true, dark := if code = 0 then s.dark ++ disabled else s.dark }
  | .on => { s with laptopOff := false, dark := if code = 0 then [] else s.dark }

def note (s : State) (p : Poll) : State :=
  if p.connected ≠ s.lastConnected then
    { s with lastConnected := p.connected, changed := p.changedAt, clock := p.now }
  else { s with clock := p.now }

/-- The two tests of the loop; they exclude each other. -/
def command (s : State) (p : Poll) : Option Command :=
  let stable := p.now - s.changed
  if p.connected = true ∧ s.laptopOff = false ∧ offDelay < stable then some .off
  else if p.connected = false ∧ s.laptopOff = true ∧ onDelay < stable then some .on
  else none

end State

def pollStep (s : State) (p : Poll) : State × List Event :=
  let noted := s.note p
  match noted.command p with
  | none => (noted, [.polled p.connected p.now])
  | some c => (noted.setLaptop c p.code p.disabled, [.polled p.connected p.now, .issued c p.now])

def finishStep (s : State) (code : Int) : State × List Event :=
  let ended := { s with finished := true }
  if s.laptopOff then (ended.setLaptop .on code [], [.final]) else (ended, [])

def step : Machine.Step State Action Event := fun s a =>
  match a with
  | .poll p =>
    if s.finished = false ∧ s.clock ≤ p.changedAt ∧ p.changedAt ≤ p.now then some (pollStep s p)
    else none
  | .relight displays => some ({ s with dark := s.dark.filter (· ∉ displays) }, [])
  | .finish code => if s.finished = false then some (finishStep s code) else none

def Event.command : Event → Option Command
  | .polled _ _ => none
  | .issued c _ => some c
  | .final => some .on

def commands (trace : List Event) : List Command := trace.filterMap Event.command

def turns : Nat → List Command
  | 0 => []
  | n + 1 => turns n ++ [.off, .on]

@[simp] theorem commands_append (first rest : List Event) :
    commands (first ++ rest) = commands first ++ commands rest := List.filterMap_append

structure Tracked (s : State) (trace : List Event) : Prop where
  changed : s.changed ≤ s.clock
  past : ∀ c now, .polled c now ∈ trace → now ≤ s.clock ∧ (s.changed < now → c = s.lastConnected)
  recent : ∀ before c now after, trace = before ++ .polled c now :: after →
    (∀ d later, .polled d later ∈ after → d = c) → s.lastConnected = c ∧ s.changed ≤ now
  turns : ∃ n, commands trace = turns n ++ if s.laptopOff then [.off] else []
  finished : s.finished = true → s.laptopOff = false

theorem initial_tracked (start : Nat) : Tracked (.initial start) [] where
  changed := Nat.le_refl start
  past := by simp
  recent := by intro before c now after empty; simp at empty
  turns := ⟨0, rfl⟩
  finished := by simp [State.initial]

theorem note_connected (s : State) (p : Poll) : (s.note p).lastConnected = p.connected := by
  simp only [State.note]
  split
  · rfl
  · rename_i same
    exact (not_not.mp same).symm

theorem note_changed (s : State) (p : Poll) : (s.note p).changed =
    if p.connected = s.lastConnected then s.changed else p.changedAt := by
  simp only [State.note]
  by_cases same : p.connected = s.lastConnected <;> simp [same]

theorem note_kept (s : State) (p : Poll) : (s.note p).clock = p.now ∧
    (s.note p).laptopOff = s.laptopOff ∧ (s.note p).finished = s.finished ∧
      (s.note p).dark = s.dark := by
  simp only [State.note]
  split <;> exact ⟨rfl, rfl, rfl, rfl⟩

theorem setLaptop_kept (s : State) (c : Command) (code : Int) (disabled : List String) :
    (s.setLaptop c code disabled).changed = s.changed ∧
      (s.setLaptop c code disabled).clock = s.clock ∧
      (s.setLaptop c code disabled).lastConnected = s.lastConnected ∧
      (s.setLaptop c code disabled).finished = s.finished ∧
      (s.setLaptop c code disabled).laptopOff = decide (c = .off) := by
  cases c <;> exact ⟨rfl, rfl, rfl, rfl, rfl⟩

/-- A poll. -/
theorem Tracked.note {s : State} {trace : List Event} (tracked : Tracked s trace) {p : Poll}
    (read : s.clock ≤ p.changedAt) (later : p.changedAt ≤ p.now) :
    Tracked (s.note p) (trace ++ [.polled p.connected p.now]) := by
  have old := tracked.changed
  obtain ⟨clock, off, finished, _⟩ := note_kept s p
  have changed := note_changed s p
  refine ⟨?_, ?_, ?_, ?_, by rw [off, finished]; exact tracked.finished⟩
  · rw [changed, clock]
    split <;> omega
  · intro c now member
    rw [clock, changed, note_connected]
    rcases List.mem_append.mp member with earlier | this
    · obtain ⟨before, settled⟩ := tracked.past c now earlier
      refine ⟨by omega, fun after => ?_⟩
      by_cases same : p.connected = s.lastConnected
      · rw [if_pos same] at after
        rw [same]
        exact settled after
      · rw [if_neg same] at after
        omega
    · cases List.mem_singleton.mp this
      exact ⟨Nat.le_refl _, fun _ => rfl⟩
  · intro before c now after split alike
    rw [changed, note_connected]
    rcases Machine.snoc_split split with ⟨_, same, _⟩ | ⟨rest, rfl, rfl⟩
    · cases same
      refine ⟨rfl, ?_⟩
      split <;> omega
    · have last : p.connected = c := alike _ p.now (by simp)
      obtain ⟨connected, since⟩ := tracked.recent before c now rest rfl
        fun d at_ member => alike d at_ (List.mem_append_left _ member)
      rw [if_pos (last.trans connected.symm)]
      exact ⟨last, since⟩
  · obtain ⟨n, issued⟩ := tracked.turns
    refine ⟨n, ?_⟩
    rw [off, commands_append, issued]
    simp [commands, Event.command]

/-- What a command does to the turns. -/
theorem turns_issue {n : Nat} {c : Command} {off : Bool} (other : off = decide (c = .on)) :
    ∃ m, (turns n ++ if off then [.off] else []) ++ [c] =
      turns m ++ if decide (c = .off) then [.off] else [] := by
  cases c with
  | off => exact ⟨n, by simp [other]⟩
  | on => exact ⟨n + 1, by simp [other, turns]⟩

/-- A command in turn leaves the record of the polls alone. -/
theorem Tracked.issue {s next : State} {trace : List Event} (tracked : Tracked s trace) {e : Event}
    {c : Command} (command : e.command = some c) (other : s.laptopOff = decide (c = .on))
    (changed : next.changed = s.changed) (clock : next.clock = s.clock)
    (connected : next.lastConnected = s.lastConnected)
    (off : next.laptopOff = decide (c = .off))
    (finished : next.finished = true → next.laptopOff = false) : Tracked next (trace ++ [e]) := by
  have unpolled : ∀ d now, e ≠ .polled d now := by
    rintro d now rfl
    simp [Event.command] at command
  refine ⟨by rw [changed, clock]; exact tracked.changed, ?_, ?_, ?_, finished⟩
  · intro d now member
    rw [changed, clock, connected]
    rcases List.mem_append.mp member with earlier | this
    · exact tracked.past d now earlier
    · exact absurd (List.mem_singleton.mp this).symm (unpolled d now)
  · intro before d now after split alike
    rw [changed, connected]
    rcases Machine.snoc_split split with ⟨_, same, _⟩ | ⟨rest, rfl, rfl⟩
    · exact absurd same (unpolled d now)
    · exact tracked.recent before d now rest rfl
        fun f at_ member => alike f at_ (List.mem_append_left _ member)
  · obtain ⟨n, issued⟩ := tracked.turns
    obtain ⟨m, next_⟩ := turns_issue (n := n) other
    refine ⟨m, ?_⟩
    rw [off, commands_append, issued, ← next_]
    simp [commands, command]

theorem command_some {s : State} {p : Poll} {c : Command} (issued : s.command p = some c) :
    p.connected = decide (c = .off) ∧ s.laptopOff = decide (c = .on) ∧
      s.changed + c.delay < p.now := by
  simp only [State.command] at issued
  split at issued
  · rename_i ready
    cases issued
    exact ⟨ready.1, ready.2.1, Nat.add_lt_of_lt_sub' ready.2.2⟩
  · split at issued <;> cases issued
    rename_i ready
    exact ⟨ready.1, ready.2.1, Nat.add_lt_of_lt_sub' ready.2.2⟩

theorem step_tracked {s next : State} {a : Action} {trace events : List Event}
    (tracked : Tracked s trace) (taken : step s a = some (next, events)) :
    Tracked next (trace ++ events) := by
  cases a with
  | poll p =>
    simp only [step, Option.ite_none_right_eq_some] at taken
    obtain ⟨⟨running, read, later⟩, result⟩ := taken
    have noted := tracked.note read later
    simp only [pollStep] at result
    split at result <;> cases result
    · exact noted
    · rename_i c issued
      obtain ⟨changed, clock, connected, finished, off⟩ :=
        setLaptop_kept (s.note p) c p.code p.disabled
      rw [List.append_cons]
      apply noted.issue rfl (command_some issued).2.1 changed clock connected off
      intro ended
      rw [finished, (note_kept s p).2.2.1, running] at ended
      contradiction
  | relight displays =>
    cases taken
    rw [List.append_nil]
    exact ⟨tracked.changed, tracked.past, tracked.recent, tracked.turns, tracked.finished⟩
  | finish code =>
    simp only [step, Option.ite_none_right_eq_some] at taken
    obtain ⟨running, result⟩ := taken
    simp only [finishStep, Option.some.injEq] at result
    split at result <;> cases result
    · rename_i off
      exact tracked.issue (c := .on) rfl off rfl rfl rfl rfl fun _ => rfl
    · rename_i lit
      rw [List.append_nil]
      exact ⟨tracked.changed, tracked.past, tracked.recent, tracked.turns,
        fun _ => Bool.eq_false_iff.mpr lit⟩

theorem reachable_tracked {start : Nat} {actions : List Action} {s : State} {trace : List Event}
    (run : Machine.exec step actions (.initial start) = some (s, trace)) : Tracked s trace :=
  Machine.history Tracked (initial_tracked start)
    (fun _ _ _ _ _ tracked taken => step_tracked tracked taken) run

/-- A command of the loop comes at a poll that saw the client as all polls did that were not
longer ago than its delay. -/
def Debounced (past : List Event) : Event → Prop
  | .issued c now => .polled (decide (c = .off)) now ∈ past ∧
      ∀ connected at_, .polled connected at_ ∈ past → now ≤ at_ + c.delay →
        connected = decide (c = .off)
  | _ => True

theorem step_debounced {s next : State} {a : Action} {trace events : List Event}
    (tracked : Tracked s trace) (taken : step s a = some (next, events)) :
    Machine.Each (fun past => Debounced (trace ++ past)) events := by
  cases a with
  | poll p =>
    simp only [step, Option.ite_none_right_eq_some] at taken
    obtain ⟨⟨running, read, later⟩, result⟩ := taken
    have noted := tracked.note read later
    simp only [pollStep] at result
    split at result <;> cases result
    · exact Machine.each_cons_iff.mpr ⟨trivial, Machine.each_nil _⟩
    · rename_i c issued
      obtain ⟨connected, _, settled⟩ := command_some issued
      refine Machine.each_cons_iff.mpr ⟨trivial, Machine.each_cons_iff.mpr ⟨?_, Machine.each_nil _⟩⟩
      refine ⟨by rw [← connected]; simp, fun d at_ member recent => ?_⟩
      obtain ⟨_, same⟩ := noted.past d at_ member
      rw [same (by omega), note_connected]
      exact connected
  | relight displays => cases taken; apply Machine.each_nil
  | finish code =>
    simp only [step, Option.ite_none_right_eq_some] at taken
    obtain ⟨_, result⟩ := taken
    simp only [finishStep, Option.some.injEq] at result
    split at result <;> cases result
    · exact Machine.each_cons_iff.mpr ⟨trivial, Machine.each_nil _⟩
    · apply Machine.each_nil

/-- The helper's commands alternate, from `off` to a last `on`, and those of the loop are
debounced. -/
theorem commands_debounced {start : Nat} {actions : List Action} {s : State} {trace : List Event}
    (run : Machine.exec step actions (.initial start) = some (s, trace)) :
    Machine.Each Debounced trace ∧ (s.finished = true → ∃ n, commands trace = turns n) := by
  have kept := Machine.history (fun s trace => Tracked s trace ∧ Machine.Each Debounced trace)
    ⟨initial_tracked start, Machine.each_nil _⟩
    (by
      rintro s trace a next events ⟨tracked, each⟩ taken
      exact ⟨step_tracked tracked taken,
        Machine.each_append_iff.mpr ⟨each, step_debounced tracked taken⟩⟩) run
  obtain ⟨tracked, each⟩ := kept
  refine ⟨each, fun finished => ?_⟩
  obtain ⟨n, issued⟩ := tracked.turns
  rw [tracked.finished finished] at issued
  exact ⟨n, by simpa using issued⟩

/-- A client comes and goes; the displays are switched off at 2 s and on again at 7 s. -/
def visit (code : Int) : List Action := [
  .poll ⟨true, 0, 0, 0, []⟩, .poll ⟨true, 2000000000, 2000000000, 0, ["eDP-1"]⟩,
  .poll ⟨false, 2500000000, 2500000000, 0, []⟩, .poll ⟨false, 7000000000, 7000000000, code, []⟩]

theorem commands_debounced_sample :
    ∃ s trace, Machine.exec step (visit 0 ++ [.finish 0]) (.initial 0) = some (s, trace) ∧
      (∃ n, commands trace = turns n) ∧ commands trace = [.off, .on] := by
  have reached : (Machine.exec step (visit 0 ++ [.finish 0]) (.initial 0)).map
      (fun r => (r.1.finished, commands r.2)) = some (true, [.off, .on]) := by
    decide
  obtain ⟨⟨s, trace⟩, run, result⟩ := Option.map_eq_some_iff.mp reached
  obtain ⟨finished, issued⟩ := Prod.mk.inj result
  exact ⟨s, trace, run, (commands_debounced run).2 finished, issued⟩

open LaptopDisplay (Desktop Query Output union physicalNames mem_union)

/-- A complete run of the helper, while nobody else runs it. -/
def Command.invoke (c : Command) (d : Desktop) (query : Query)
    (code : Nat) : Desktop × Nat :=
  match c with
  | .off => d.off query code
  | .on => d.on query code

/-- The displays that the loop keeps dark are those that an `off` has disabled on the desktop, and
the next `on` knows them all. -/
structure Mirrors (s : State) (d : Desktop) : Prop where
  dark : ∀ name, name ∈ s.dark ↔ ∃ o ∈ d.outputs, o.darkened = true ∧ o.name = name
  listed : ∀ o ∈ d.outputs, o.darkened = true → o.name ∈ d.saved

theorem mirrors_disabled {s : State} {d : Desktop} (mirrors : Mirrors s d) {names : List String}
    (there : ∀ name ∈ names, ∃ o ∈ d.outputs, o.name = name) :
    Mirrors (s.setLaptop .off 0 names)
      ({ d with file := some (union d.saved names) }.kscreen names false 0) where
  dark := by
    intro name
    simp only [State.setLaptop, if_true, List.mem_append, Desktop.kscreen, List.mem_map]
    constructor
    · rintro (dark | named)
      · obtain ⟨o, member, was, rfl⟩ := (mirrors.dark name).mp dark
        refine ⟨_, ⟨o, member, rfl⟩, ?_, Desktop.switch_name o names false⟩
        simp only [Output.switch]
        split
        · rfl
        · exact was
      · obtain ⟨o, member, rfl⟩ := there name named
        exact ⟨_, ⟨o, member, rfl⟩, by simp [Output.switch, named], Desktop.switch_name o names false⟩
    · rintro ⟨_, ⟨o, member, rfl⟩, dark, rfl⟩
      rw [Desktop.switch_name]
      by_cases named : o.name ∈ names
      · exact .inr named
      · simp only [Output.switch, if_neg named] at dark
        exact .inl ((mirrors.dark o.name).mpr ⟨o, member, dark, rfl⟩)
  listed := by
    simp only [Desktop.kscreen, if_true]
    rintro _ member dark
    obtain ⟨o, present, rfl⟩ := List.mem_map.mp member
    rw [Desktop.switch_name]
    by_cases named : o.name ∈ names
    · exact mem_union.mpr (.inr named)
    · simp only [Output.switch, if_neg named] at dark
      exact mem_union.mpr (.inl (mirrors.listed o present dark))

theorem off_mirrors {s : State} {d : Desktop} (mirrors : Mirrors s d)
    (query : Query) (code : Nat) :
    ∃ disabled, Mirrors (s.setLaptop .off (d.off query code).2 disabled) (d.off query code).1 := by
  have nothing (status : Int) : Mirrors (s.setLaptop .off status []) d := by
    refine ⟨fun name => ?_, mirrors.listed⟩
    rw [← mirrors.dark]
    simp [State.setLaptop]
  simp only [Desktop.off]
  split
  · exact ⟨[], nothing 1⟩
  next current answered =>
  split
  · exact ⟨[], nothing 1⟩
  split
  · exact ⟨[], nothing 0⟩
  by_cases applied : code = 0
  · subst applied
    refine ⟨physicalNames current, mirrors_disabled mirrors fun name named => ?_⟩
    obtain ⟨o, member, _, same⟩ := Desktop.mem_physicalNames.mp named
    cases query with
    | answered => cases answered; exact ⟨o, member, same⟩
    | failed => cases answered; simp at member
    | timedOut => contradiction
  · rw [Desktop.kscreen_failed _ _ _ applied]
    obtain ⟨dark, listed⟩ := nothing code
    exact ⟨[], dark, fun o member was => mem_union.mpr (.inl (listed o member was))⟩

/-- An `on` that exits 0 leaves no display dark. -/
theorem on_relights {s : State} {d : Desktop} (mirrors : Mirrors s d) {query : Query} {code : Nat}
    (restored : (d.on query code).2 = 0) :
    ∀ o ∈ (d.on query code).1.outputs, o.darkened = false := by
  rcases d.on_cases query code with ⟨same, empty⟩ | ⟨applied, _⟩
  · rw [same]
    intro o member
    by_contra dark
    have listed := mirrors.listed o member (Bool.eq_true_of_not_eq_false dark)
    rw [empty restored] at listed
    contradiction
  · rw [applied]
    simp only [Desktop.kscreen, if_true]
    intro _ member
    obtain ⟨o, present, rfl⟩ := List.mem_map.mp member
    by_cases named : o.name ∈ d.saved
    · simp [Output.switch, named]
    · simp only [Output.switch, if_neg named]
      exact Bool.eq_false_iff.mpr fun dark => named (mirrors.listed o present dark)

theorem on_mirrors {s : State} {d : Desktop} (mirrors : Mirrors s d)
    (query : Query) (code : Nat) :
    Mirrors (s.setLaptop .on (d.on query code).2 []) (d.on query code).1 := by
  by_cases restored : (d.on query code).2 = 0
  · have lit := on_relights mirrors restored
    refine ⟨fun name => ?_, fun o member dark => ?_⟩
    · refine iff_of_false (by simp [State.setLaptop, restored]) ?_
      rintro ⟨o, member, dark, _⟩
      simp [lit o member] at dark
    · simp [lit o member] at dark
  · have same : s.setLaptop .on (d.on query code).2 [] = { s with laptopOff := false } := by
      simp [State.setLaptop, restored]
    rw [same, d.on_failed restored]
    exact ⟨mirrors.dark, mirrors.listed⟩

/-- `setLaptop` follows the helper: one that exits 0 has switched as it was told, any other one
has left the displays as they were. -/
theorem setLaptop_mirrors {s : State} {d : Desktop} (mirrors : Mirrors s d)
    (c : Command) (query : Query) (code : Nat) :
    ∃ disabled, Mirrors (s.setLaptop c (c.invoke d query code).2 disabled)
      (c.invoke d query code).1 := by
  cases c with
  | off => exact off_mirrors mirrors query code
  | on => exact ⟨[], on_mirrors mirrors query code⟩

/-- All polls of more than the last four seconds saw no client. -/
def Gone (past : List Event) (now : Nat) : Prop :=
  ∃ before since after, past = before ++ .polled false since :: after ∧
    (∀ connected at_, .polled connected at_ ∈ after → connected = false) ∧ since + onDelay < now

/-- A restore of displays that are still off succeeds. -/
def Restored (s : State) : Action → Prop
  | .poll p => (s.note p).command p = some .on → s.dark ≠ [] → p.code = 0
  | _ => True

theorem step_believed {s next : State} {a : Action} {events : List Event}
    (believed : s.finished = false → s.laptopOff = false → s.dark = []) (met : Restored s a)
    (taken : step s a = some (next, events)) :
    next.finished = false → next.laptopOff = false → next.dark = [] := by
  cases a with
  | poll p =>
    simp only [step, Option.ite_none_right_eq_some] at taken
    obtain ⟨⟨running, _, _⟩, result⟩ := taken
    obtain ⟨_, off, _, dark⟩ := note_kept s p
    simp only [pollStep] at result
    split at result <;> cases result
    · intro _ lit
      rw [dark]
      exact believed running (off ▸ lit)
    · rename_i c issued
      cases c with
      | off => intro _ lit; contradiction
      | on =>
        intro _ _
        simp only [State.setLaptop, dark]
        by_cases left : s.dark = []
        · simp [left]
        · rw [if_pos (met issued left)]
  | relight displays =>
    cases taken
    intro running lit
    simp [believed running lit]
  | finish code =>
    simp only [step, Option.ite_none_right_eq_some] at taken
    obtain ⟨_, result⟩ := taken
    simp only [finishStep, Option.some.injEq] at result
    split at result <;> cases result
    · intro running _; contradiction
    · intro running _; contradiction

/-- The loop restores what it has switched off once the client has gone for long. -/
theorem gone_restored {s next : State} {p : Poll} {past events : List Event}
    (tracked : Tracked s past) (off : s.laptopOff = true)
    (taken : step s (.poll p) = some (next, events)) (absent : p.connected = false)
    (gone : Gone past p.now) : .issued .on p.now ∈ events := by
  simp only [step, Option.ite_none_right_eq_some] at taken
  obtain ⟨_, result⟩ := taken
  obtain ⟨before, since, after, rfl, alike, long⟩ := gone
  obtain ⟨last, changed⟩ := tracked.recent before false since after rfl alike
  have issued : (s.note p).command p = some .on := by
    have stable : onDelay < p.now - (s.note p).changed := by
      rw [note_changed, if_pos (absent.trans last.symm)]
      omega
    simp [State.command, absent, (note_kept s p).2.1, off, stable]
  simp only [pollStep, issued] at result
  cases result
  simp

/-- The loop's belief is right in every state of a run, and the displays are restored at
every poll that finds the client long gone, exactly when every restore of displays that are
still off succeeds. -/
theorem belief_matches_displays {start : Nat} {actions : List Action} {s : State}
    {trace : List Event}
    (run : Machine.exec step actions (.initial start) = some (s, trace)) :
    Machine.Along step Restored actions (.initial start) ↔
      (∀ first rest t past, actions = first ++ rest →
        Machine.exec step first (.initial start) = some (t, past) →
          t.finished = false → t.laptopOff = false → t.dark = []) ∧
      ∀ first p rest t past next events, actions = first ++ .poll p :: rest →
        Machine.exec step first (.initial start) = some (t, past) →
        step t (.poll p) = some (next, events) →
          p.connected = false → Gone past p.now → t.dark ≠ [] → .issued .on p.now ∈ events := by
  constructor
  · intro along
    have believed (first rest t past) (split : actions = first ++ rest)
        (reached : Machine.exec step first (.initial start) = some (t, past)) :
        t.finished = false → t.laptopOff = false → t.dark = [] := by
      subst split
      exact Machine.guarded_invariant
        (fun s => s.finished = false → s.laptopOff = false → s.dark = [])
        (fun _ _ _ _ believed met taken => step_believed believed met taken) (fun _ _ => rfl)
        along.of_append reached
    refine ⟨believed, ?_⟩
    intro first p rest t past next events split reached taken absent gone dark
    have running : t.finished = false := by
      simp only [step, Option.ite_none_right_eq_some] at taken
      exact taken.1.1
    have off : t.laptopOff = true := by
      by_contra lit
      exact dark (believed first _ t past split reached running (Bool.eq_false_iff.mpr lit))
    exact gone_restored (reachable_tracked reached) off taken absent gone
  · rintro ⟨believed, _⟩
    refine Machine.along_iff_prefixes.mpr fun first a rest t past split reached => ?_
    cases a with
    | poll p =>
      intro issued dark
      by_contra failed
      subst split
      obtain ⟨middle, before, after, left, right, _⟩ := Machine.exec_append_iff.mp run
      obtain ⟨rfl, rfl⟩ := Prod.mk.inj (Option.some.inj (reached.symm.trans left))
      obtain ⟨next, emitted, _, taken, _, _⟩ := Machine.exec_cons_iff.mp right
      have visited := Machine.exec_append reached (Machine.exec_single taken)
      simp only [step, Option.ite_none_right_eq_some] at taken
      obtain ⟨⟨running, _, _⟩, result⟩ := taken
      simp only [pollStep, issued, Option.some.injEq, Prod.mk.injEq] at result
      obtain ⟨rfl, _⟩ := result
      obtain ⟨_, _, finished, still⟩ := note_kept t p
      -- The failed restore is taken for a restore.
      have lit := believed (first ++ [.poll p]) rest ((t.note p).setLaptop .on p.code p.disabled) _
        (by simp) visited (finished.trans running) rfl
      simp only [State.setLaptop, if_neg failed, still] at lit
      exact dark lit
    | relight displays => trivial
    | finish code => trivial

theorem displays_left_dark :
    ∃ s trace, Machine.exec step (visit 1) (.initial 0) = some (s, trace) ∧
      s.finished = false ∧ s.laptopOff = false ∧ s.dark = ["eDP-1"] :=
  ⟨_, _, rfl, rfl, rfl, rfl⟩

theorem belief_matches_displays_sample :
    ∃ s trace, Machine.exec step (visit 0) (.initial 0) = some (s, trace) ∧
      Machine.Along step Restored (visit 0) (.initial 0) ∧
      (s.finished = false → s.laptopOff = false → s.dark = []) := by
  have along : Machine.Along step Restored (visit 0) (.initial 0) := by
    apply Machine.along_of_forall
    intro a member t
    simp only [visit, List.mem_cons, List.not_mem_nil, or_false] at member
    rcases member with rfl | rfl | rfl | rfl <;> exact fun _ _ => rfl
  exact ⟨_, _, rfl, along,
    ((belief_matches_displays rfl).mp along).1 (visit 0) [] _ _ (by simp) rfl⟩

end Quest.HeadsetMode
