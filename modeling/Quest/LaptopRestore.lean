import Quest.LaptopDisplay
import Quest.Library.Loan

/-! Complete invocations of `laptop-display.py`, one after the other. The outputs that are on
and the names in the state file together are the outputs that were on before. -/
namespace Quest.LaptopDisplay

/-- What the query `kscreen-doctor -j` comes to. A timeout ends the invocation. -/
inductive Query where
  | answered
  | failed
  | timedOut
  deriving DecidableEq, Repr

structure Desktop where
  outputs : List Output
  file : Option (List String)
  deriving DecidableEq, Repr

namespace Desktop

def saved (d : Desktop) : List String := d.file.getD []

/-- `outputs()`, unless it raises. -/
def query (d : Desktop) : Query → Option (List Output)
  | .answered => some d.outputs
  | .failed => some []
  | .timedOut => none

/-- A command that exits 0 is applied as a whole, any other one changes nothing. -/
def kscreen (d : Desktop) (names : List String) (enabled : Bool) (code : Nat) : Desktop :=
  if code = 0 then { d with outputs := d.outputs.map fun o => o.switch names enabled } else d

/-- The new state and the exit code, 1 for an exception. -/
def off (d : Desktop) (query : Query) (code : Nat) : Desktop × Nat :=
  match d.query query with
  | none => (d, 1)
  | some current =>
    if ¬current.any fun o => isQuest o && o.enabled then (d, 1)
    else if physicalNames current = [] then (d, 0)
    else
      ({ d with file := some (union d.saved (physicalNames current)) }.kscreen
        (physicalNames current) false code, code)

/-- The positions in the command concern the layout only. -/
def on (d : Desktop) (query : Query) (code : Nat) : Desktop × Nat :=
  if d.saved = [] then (d, 0)
  else
    match d.query query with
    | none => (d, 1)
    | some _ =>
      if code = 0 then ({ d.kscreen d.saved true code with file := none }, code) else (d, code)

/-- No command is run when `positions` has no output to place. -/
def layout (d : Desktop) (query : Query) (code : Nat) : Desktop × Nat :=
  match d.query query with
  | none => (d, 1)
  | some current => if current.any Output.enabled then (d, code) else (d, 0)

def names (d : Desktop) : List String := d.outputs.map Output.name

def enabledNames (d : Desktop) : List String := (d.outputs.filter Output.enabled).map Output.name

def plug (d : Desktop) (name : String) (connected : Bool) : Desktop :=
  { d with outputs := d.outputs.map fun o =>
      if o.name = name then { o with connected := connected } else o }

end Desktop

/-- One invocation with what its query and its command come to, or a plug pulled or put in
that leaves every output as enabled as it was. -/
inductive Invocation where
  | off (query : Query) (code : Nat)
  | on (query : Query) (code : Nat)
  | layout (query : Query) (code : Nat)
  | plug (name : String) (connected : Bool)
  deriving DecidableEq, Repr

/-- A finished invocation: the enabled outputs when it began, before the first `off` since the
last successful `on`, and when it ended. -/
structure Report where
  invocation : Invocation
  code : Nat
  began : List String
  before : Option (List String)
  ended : List String
  deriving DecidableEq, Repr

/-- An `on` that exits 0 leaves the outputs enabled that were enabled before the first `off`,
and those it finds if there was none. -/
def Report.Restores (r : Report) : Prop :=
  ∀ query code, r.invocation = .on query code → r.code = 0 → r.ended = r.before.getD r.began

structure Session where
  desktop : Desktop
  before : Option (List String)
  deriving DecidableEq, Repr

namespace Session

def start (outputs : List Output) : Session := ⟨⟨outputs, none⟩, none⟩

def step : Machine.Step Session Invocation Report := fun s i =>
  let d := s.desktop
  match i with
  | .off query code =>
    let before := s.before.getD d.enabledNames
    let (next, status) := d.off query code
    some (⟨next, some before⟩, [⟨i, status, d.enabledNames, some before, next.enabledNames⟩])
  | .on query code =>
    let (next, status) := d.on query code
    some (⟨next, if status = 0 then none else s.before⟩,
      [⟨i, status, d.enabledNames, s.before, next.enabledNames⟩])
  | .layout query code =>
    let (next, status) := d.layout query code
    some (⟨next, s.before⟩, [⟨i, status, d.enabledNames, s.before, next.enabledNames⟩])
  | .plug name connected => some ({ s with desktop := d.plug name connected }, [])

end Session

namespace Desktop

theorem mem_enabledNames {d : Desktop} {name : String} :
    name ∈ d.enabledNames ↔ ∃ o ∈ d.outputs, o.enabled = true ∧ o.name = name := by
  simp [enabledNames, and_assoc]

/-- Where names are distinct, the set of enabled names determines their list. -/
theorem enabledNames_eq_filter {d : Desktop} (distinct : d.names.Nodup) :
    d.enabledNames = d.names.filter (· ∈ d.enabledNames) := by
  rw [names, List.filter_map, enabledNames]
  congr 1
  apply List.filter_congr
  intro o member
  apply Bool.eq_iff_iff.mpr
  simp only [Function.comp_apply, decide_eq_true_eq]
  constructor
  · intro enabled
    exact mem_enabledNames.mpr ⟨o, member, enabled, rfl⟩
  · intro named
    obtain ⟨other, present, enabled, same⟩ := mem_enabledNames.mp named
    exact List.inj_on_of_nodup_map distinct present member same ▸ enabled

@[simp] theorem kscreen_saved (d : Desktop) (names : List String) (enabled : Bool) (code : Nat) :
    (d.kscreen names enabled code).saved = d.saved := by
  simp only [kscreen]
  split <;> rfl

theorem switch_name (o : Output) (names : List String) (enabled : Bool) :
    (o.switch names enabled).name = o.name := by
  simp only [Output.switch]
  split <;> rfl

@[simp] theorem kscreen_names (d : Desktop) (names : List String) (enabled : Bool) (code : Nat) :
    (d.kscreen names enabled code).names = d.names := by
  simp only [kscreen, Desktop.names]
  split
  · simp [switch_name]
  · rfl

theorem kscreen_failed (d : Desktop) (names : List String) (enabled : Bool) {code : Nat}
    (failed : code ≠ 0) : d.kscreen names enabled code = d := if_neg failed

theorem mem_disabled {d : Desktop} {names : List String} {name : String} :
    name ∈ (d.kscreen names false 0).enabledNames ↔ name ∈ d.enabledNames ∧ name ∉ names := by
  simp only [mem_enabledNames, kscreen, if_true, List.mem_map, Output.switch]
  constructor
  · rintro ⟨_, ⟨o, member, rfl⟩, enabled, rfl⟩
    split at enabled
    · contradiction
    · rename_i unnamed
      rw [if_neg unnamed]
      exact ⟨⟨o, member, enabled, rfl⟩, unnamed⟩
  · rintro ⟨⟨o, member, enabled, rfl⟩, unnamed⟩
    exact ⟨_, ⟨o, member, rfl⟩, by rwa [if_neg unnamed], by rw [if_neg unnamed]⟩

theorem mem_restored {d : Desktop} {names : List String} {name : String} :
    name ∈ (d.kscreen names true 0).enabledNames ↔
      name ∈ d.enabledNames ∨ name ∈ names ∧ name ∈ d.names := by
  simp only [mem_enabledNames, kscreen, if_true, List.mem_map, Output.switch, Desktop.names]
  constructor
  · rintro ⟨_, ⟨o, member, rfl⟩, enabled, rfl⟩
    by_cases named : o.name ∈ names
    · simp only [if_pos named]
      exact .inr ⟨named, o, member, rfl⟩
    · simp only [if_neg named] at enabled ⊢
      exact .inl ⟨o, member, enabled, rfl⟩
  · rintro (⟨o, member, enabled, rfl⟩ | ⟨named, o, member, rfl⟩)
    · refine ⟨_, ⟨o, member, rfl⟩, ?_⟩
      split
      · exact ⟨rfl, rfl⟩
      · exact ⟨enabled, rfl⟩
    · exact ⟨_, ⟨o, member, rfl⟩, by rw [if_pos named], by rw [if_pos named]⟩

theorem plug_output (o : Output) (name : String) (connected : Bool) :
    let plugged := if o.name = name then { o with connected := connected } else o
    plugged.name = o.name ∧ plugged.enabled = o.enabled := by
  dsimp only
  split <;> exact ⟨rfl, rfl⟩

@[simp] theorem plug_names (d : Desktop) (name : String) (connected : Bool) :
    (d.plug name connected).names = d.names := by
  simp only [plug, names, List.map_map]
  apply List.map_congr_left
  intro o _
  exact (plug_output o name connected).1

@[simp] theorem plug_enabledNames (d : Desktop) (name : String) (connected : Bool) :
    (d.plug name connected).enabledNames = d.enabledNames := by
  simp only [plug, enabledNames, List.filter_map, List.map_map]
  have enabled : Output.enabled ∘ (fun o =>
      if o.name = name then { o with connected := connected } else o) = Output.enabled :=
    funext fun o => (plug_output o name connected).2
  rw [enabled]
  apply List.map_congr_left
  intro o _
  exact (plug_output o name connected).1

theorem mem_physicalNames {current : List Output} {name : String} :
    name ∈ physicalNames current ↔
      ∃ o ∈ current, (isQuest o = false ∧ o.connected = true ∧ o.enabled = true) ∧ o.name = name := by
  simp [physicalNames, and_assoc]

/-- What `off` can do: nothing, note the physical outputs that are on, or disable them too. -/
theorem off_cases (d : Desktop) (query : Query) (code : Nat) :
    (d.off query code).1 = d ∨
      (d.off query code).1 =
        { d with file := some (union d.saved (physicalNames d.outputs)) }.kscreen
          (physicalNames d.outputs) false code := by
  simp only [off]
  cases query with
  | timedOut => exact .inl rfl
  | failed => exact .inl rfl
  | answered =>
    simp only [Desktop.query]
    split
    · exact .inl rfl
    split
    · exact .inl rfl
    · exact .inr rfl

/-- What `on` can do: nothing, or enable everything noted and forget it. -/
theorem on_cases (d : Desktop) (query : Query) (code : Nat) :
    (d.on query code).1 = d ∧ ((d.on query code).2 = 0 → d.saved = []) ∨
      (d.on query code).1 = { d.kscreen d.saved true 0 with file := none } ∧
        (d.on query code).2 = 0 := by
  simp only [on]
  split
  · exact .inl ⟨rfl, fun _ => ‹_›⟩
  split
  · exact .inl ⟨rfl, by simp⟩
  split
  · rename_i applied
    exact .inr ⟨by rw [applied], applied⟩
  · rename_i failed
    exact .inl ⟨rfl, fun code => absurd code failed⟩

theorem layout_same (d : Desktop) (query : Query) (code : Nat) : (d.layout query code).1 = d := by
  simp only [layout]
  split
  · rfl
  · split <;> rfl

/-- An `on` that fails leaves the outputs and the file to the next one. -/
theorem on_failed (d : Desktop) {query : Query} {code : Nat} (failed : (d.on query code).2 ≠ 0) :
    (d.on query code).1 = d := by
  rcases d.on_cases query code with ⟨same, _⟩ | ⟨_, status⟩
  · exact same
  · exact absurd status failed

section Steps

variable {ι : Type*} [DecidableEq ι]

def idle (d : Desktop) : State ι := ⟨d.outputs, d.file, fun _ => .idle⟩

omit [DecidableEq ι] in
@[simp] theorem idle_processes (d : Desktop) (p : ι) : (d.idle (ι := ι)).processes p = .idle := rfl

omit [DecidableEq ι] in
theorem switch_reached (s : State ι) (d : Desktop) (names : List String) (enabled : Bool)
    (code : Nat) (same : s.outputs = d.outputs) :
    (s.switch (Outcome.reached ⟨code, []⟩ names) enabled).outputs =
      (d.kscreen names enabled code).outputs := by
  by_cases applied : code = 0
  · simp [State.switch, Outcome.reached, kscreen, applied, same]
  · simp [State.switch, Outcome.reached, kscreen, applied, same, Output.switch]

theorem kscreen_file (d : Desktop) (names : List String) (enabled : Bool) (code : Nat) :
    (d.kscreen names enabled code).file = d.file := by
  simp only [kscreen]
  split <;> rfl

omit [DecidableEq ι] in
theorem state_ext {s t : State ι} (outputs : s.outputs = t.outputs) (file : s.file = t.file)
    (processes : s.processes = t.processes) : s = t := by
  cases s
  cases t
  simp_all

/-- A process that ends leaves nothing running. -/
theorem idle_again (d : Desktop) (p : ι) (process : Process) :
    Function.update (Function.update (d.idle (ι := ι)).processes p process) p .idle =
      fun _ => .idle := by
  rw [Function.update_idem]
  exact Function.update_eq_self p _

/-- A complete `off` is a run of the interleaved model in which nobody else moves. -/
theorem off_exec (d : Desktop) (p : ι) {query : Query} (code : Nat) (ends : query ≠ .timedOut) :
    ∃ actions, Machine.exec LaptopDisplay.step actions d.idle =
      some ((d.off query code).1.idle, [.returned p (d.off query code).2]) := by
  have current : d.query query = some (State.current (ι := ι) d.idle (query == .answered)) := by
    cases query with
    | answered => rfl
    | failed => rfl
    | timedOut => contradiction
  simp only [off, current]
  generalize shown : State.current (ι := ι) d.idle (query == .answered) = outputs
  by_cases screen : outputs.any fun o => isQuest o && o.enabled
  · by_cases physical : physicalNames outputs = []
    · refine ⟨[.off p (query == .answered)], Machine.exec_single ?_⟩
      simp [LaptopDisplay.step, shown, screen, physical]
    · refine ⟨[.off p (query == .answered), .offSaved p, .offWrite p, .offDisable p ⟨code, []⟩],
        ?_⟩
      simp only [Machine.exec, LaptopDisplay.step, idle_processes, shown, screen, physical,
        State.put, not_true_eq_false, if_false, Option.map_some, List.append_nil,
        Prod.mk.eta, Option.bind_fun_some, Option.map_bind,
        Function.comp_apply, Option.map_map, Option.bind_some, Function.update_self,
        Function.update_idem, List.nil_append, Option.some.injEq, Prod.mk.injEq, and_true]
      apply state_ext
      · exact switch_reached _ { d with file := some (union d.saved (physicalNames outputs)) } _ _
          code rfl
      · exact (kscreen_file { d with file := some (union d.saved (physicalNames outputs)) } ..).symm
      · exact d.idle_again p _
  · refine ⟨[.off p (query == .answered)], Machine.exec_single ?_⟩
    simp [LaptopDisplay.step, shown, screen]

/-- So is a complete `on`. -/
theorem on_exec (d : Desktop) (p : ι) {query : Query} (code : Nat) (ends : query ≠ .timedOut) :
    ∃ actions, Machine.exec LaptopDisplay.step actions d.idle =
      some ((d.on query code).1.idle, [.returned p (d.on query code).2]) := by
  obtain ⟨current, answered⟩ : ∃ current, d.query query = some current := by
    cases query with
    | answered => exact ⟨_, rfl⟩
    | failed => exact ⟨_, rfl⟩
    | timedOut => contradiction
  have same : State.saved (d.idle (ι := ι)) = d.saved := rfl
  simp only [on, answered]
  by_cases nothing : d.saved = []
  · refine ⟨[.on p], Machine.exec_single ?_⟩
    simp [LaptopDisplay.step, same, nothing]
  · by_cases applied : code = 0
    · refine ⟨[.on p, .onOutputs p, .onEnable p ⟨code, []⟩, .onDelete p], ?_⟩
      simp only [Machine.exec, LaptopDisplay.step, idle_processes, same, nothing, applied,
        State.put, State.switch, if_true, if_false, Option.map_some, List.append_nil,
        Prod.mk.eta, Option.bind_fun_some, Option.map_bind,
        Function.comp_apply, Option.map_map, Option.bind_some, Function.update_self,
        Function.update_idem, List.nil_append, Option.some.injEq, Prod.mk.injEq, and_true]
      apply state_ext
      · simp [idle, kscreen]
      · rfl
      · exact Function.update_eq_self p _
    · refine ⟨[.on p, .onOutputs p, .onEnable p ⟨code, []⟩], ?_⟩
      simp only [Machine.exec, LaptopDisplay.step, idle_processes, same, nothing, applied,
        State.put, if_false, Option.map_some, List.append_nil,
        Prod.mk.eta, Option.bind_fun_some, Option.map_bind,
        Function.comp_apply, Option.map_map, Option.bind_some, Function.update_self,
        Function.update_idem, List.nil_append, Option.some.injEq, Prod.mk.injEq, and_true]
      apply state_ext
      · rw [switch_reached _ d _ _ code rfl, kscreen_failed _ _ _ applied]
        rfl
      · rfl
      · exact d.idle_again p _

end Steps

/-- The outputs that are on, and those that are noted as switched off. -/
def loan (d : Desktop) : Loan String := ⟨{name | name ∈ d.enabledNames}, {name | name ∈ d.saved}⟩

theorem note_moves (d : Desktop) {names : List String} (there : names ⊆ d.enabledNames) :
    Loan.Moves d.loan (loan { d with file := some (union d.saved names) }) := by
  have written : loan { d with file := some (union d.saved names) } =
      ⟨d.loan.present, d.loan.noted ∪ {name | name ∈ names}⟩ := by
    simp only [loan, Loan.mk.injEq]
    refine ⟨rfl, ?_⟩
    ext name
    exact mem_union
  rw [written]
  exact .note _ fun name member => there member

theorem disable_moves (d : Desktop) {names : List String} (noted : names ⊆ d.saved) :
    Loan.Moves d.loan (d.kscreen names false 0).loan := by
  have disabled : (d.kscreen names false 0).loan =
      ⟨d.loan.present \ {name | name ∈ names}, d.loan.noted⟩ := by
    simp only [loan, Loan.mk.injEq, kscreen_saved, and_true]
    ext name
    exact mem_disabled
  rw [disabled]
  exact .take _ fun name member => noted member

theorem off_moves (d : Desktop) (query : Query) (code : Nat) :
    Relation.ReflTransGen Loan.Moves d.loan (d.off query code).1.loan := by
  rcases off_cases d query code with same | noted
  · rw [same]
  · rw [noted]
    have there : physicalNames d.outputs ⊆ d.enabledNames := by
      intro name member
      obtain ⟨o, present, ⟨_, _, enabled⟩, rfl⟩ := mem_physicalNames.mp member
      exact mem_enabledNames.mpr ⟨o, present, enabled, rfl⟩
    have noting := Relation.ReflTransGen.single (d.note_moves there)
    by_cases applied : code = 0
    · subst applied
      exact noting.tail (disable_moves _ fun name member => mem_union.mpr (.inr member))
    · rw [kscreen_failed _ _ _ applied]
      exact noting

/-- Everything noted is given back. -/
theorem mem_on {d : Desktop} (known : d.saved ⊆ d.names) {name : String} :
    name ∈ (d.kscreen d.saved true 0).enabledNames ↔ name ∈ d.loan.present ∪ d.loan.noted := by
  rw [mem_restored]
  constructor
  · rintro (enabled | ⟨noted, _⟩)
    · exact .inl enabled
    · exact .inr noted
  · rintro (enabled | noted)
    · exact .inl enabled
    · exact .inr ⟨noted, known noted⟩

end Desktop

namespace Session

variable {outputs : List Output}

/-- What is on and what is noted came from the outputs that were on before the first `off`. -/
structure Kept (outputs : List Output) (s : Session) : Prop where
  names : s.desktop.names = outputs.map Output.name
  settled : s.before = none → s.desktop.saved = []
  moved : ∀ before, s.before = some before →
    Relation.ReflTransGen Loan.Moves ⟨{name | name ∈ before}, ∅⟩ s.desktop.loan
  listed : ∀ before, s.before = some before →
    before = (outputs.map Output.name).filter (· ∈ before)
  screens : ∀ o ∈ outputs, isQuest o = true → o.enabled = true → o.name ∈ s.desktop.enabledNames

theorem start_kept (outputs : List Output) : Kept outputs (start outputs) where
  names := rfl
  settled _ := rfl
  moved := by simp [start]
  listed := by simp [start]
  screens o member _ enabled := Desktop.mem_enabledNames.mpr ⟨o, member, enabled, rfl⟩

theorem Kept.whole {s : Session} (kept : Kept outputs s) {before : List String}
    (known : s.before = some before) :
    s.desktop.loan.present ∪ s.desktop.loan.noted = {name | name ∈ before} :=
  Loan.restored (kept.moved before known) rfl

/-- What is noted is the name of an output. -/
theorem Kept.saved {s : Session} (kept : Kept outputs s) : s.desktop.saved ⊆ s.desktop.names := by
  intro name noted
  cases known : s.before with
  | none => simp [kept.settled known] at noted
  | some before =>
    have member : name ∈ before := by
      have whole : name ∈ {name | name ∈ before} := kept.whole known ▸ .inr noted
      exact whole
    rw [kept.listed before known] at member
    rw [kept.names]
    exact List.mem_of_mem_filter member

/-- A name alone says whether an output is one of the headset's. -/
theorem isQuest_of_name {o other : Output} (same : o.name = other.name) :
    isQuest o = isQuest other := by
  rw [isQuest, isQuest, same]

theorem Kept.off_screens {s : Session} (kept : Kept outputs s) (query : Query) (code : Nat)
    {o : Output} (member : o ∈ outputs) (screen : isQuest o = true) (enabled : o.enabled = true) :
    o.name ∈ (s.desktop.off query code).1.enabledNames := by
  have shown := kept.screens o member screen enabled
  rcases s.desktop.off_cases query code with same | noted
  · rwa [same]
  · rw [noted]
    by_cases applied : code = 0
    · subst applied
      refine Desktop.mem_disabled.mpr ⟨shown, fun named => ?_⟩
      obtain ⟨other, _, ⟨physical, _⟩, same⟩ := Desktop.mem_physicalNames.mp named
      rw [isQuest_of_name same, screen] at physical
      contradiction
    · rw [Desktop.kscreen_failed _ _ _ applied]
      exact shown

theorem Kept.off {s : Session} (distinct : (outputs.map Output.name).Nodup)
    (kept : Kept outputs s) (query : Query) (code : Nat) :
    Kept outputs ⟨(s.desktop.off query code).1, some (s.before.getD s.desktop.enabledNames)⟩ where
  names := by
    rw [← kept.names]
    rcases s.desktop.off_cases query code with same | noted
    · rw [same]
    · simp only [noted, Desktop.kscreen_names]
      rfl
  settled := by simp
  moved := by
    rintro _ ⟨⟩
    refine Relation.ReflTransGen.trans ?_ (s.desktop.off_moves query code)
    cases known : s.before with
    | none =>
      have nothing : s.desktop.loan.noted = ∅ := by
        simp [Desktop.loan, kept.settled known]
      rw [Option.getD_none, ← nothing]
      exact .refl
    | some before => exact kept.moved before known
  listed := by
    rintro _ ⟨⟩
    cases known : s.before with
    | none =>
      rw [Option.getD_none, ← kept.names]
      exact Desktop.enabledNames_eq_filter (kept.names ▸ distinct)
    | some before => exact kept.listed before known
  screens _ member screen enabled := kept.off_screens query code member screen enabled

theorem Kept.on {s : Session} (kept : Kept outputs s) (query : Query) (code : Nat) :
    Kept outputs ⟨(s.desktop.on query code).1,
      if (s.desktop.on query code).2 = 0 then none else s.before⟩ := by
  rcases s.desktop.on_cases query code with ⟨same, nothing⟩ | ⟨restored, status⟩
  · rw [same]
    split
    · rename_i status
      exact ⟨kept.names, fun _ => nothing status, by simp, by simp, kept.screens⟩
    · exact ⟨kept.names, kept.settled, kept.moved, kept.listed, kept.screens⟩
  · rw [restored, if_pos status]
    refine ⟨?_, fun _ => rfl, by simp, by simp, fun o member screen enabled => ?_⟩
    · rw [← kept.names]
      exact Desktop.kscreen_names ..
    · exact Desktop.mem_restored.mpr (.inl (kept.screens o member screen enabled))

theorem step_kept {s next : Session} {i : Invocation} {reports : List Report}
    (distinct : (outputs.map Output.name).Nodup) (kept : Kept outputs s)
    (taken : step s i = some (next, reports)) : Kept outputs next := by
  cases i with
  | off query code =>
    cases taken
    exact kept.off distinct query code
  | on query code =>
    cases taken
    exact kept.on query code
  | layout query code =>
    cases taken
    change Kept outputs ⟨(s.desktop.layout query code).1, s.before⟩
    rw [Desktop.layout_same]
    exact kept
  | plug name connected =>
    cases taken
    have same : (s.desktop.plug name connected).loan = s.desktop.loan := by
      simp only [Desktop.loan, Desktop.plug_enabledNames]
      rfl
    refine ⟨?_, kept.settled, ?_, kept.listed, ?_⟩
    · simpa using kept.names
    · simpa [same] using kept.moved
    · simpa using kept.screens

/-- Outputs of which exactly the present and the noted ones are on are those of before. -/
theorem Kept.restores {s : Session} (distinct : (outputs.map Output.name).Nodup)
    (kept : Kept outputs s) {d : Desktop} (names : d.names = s.desktop.names)
    (all : ∀ name, name ∈ d.enabledNames ↔
      name ∈ s.desktop.loan.present ∪ s.desktop.loan.noted) :
    d.enabledNames = s.before.getD s.desktop.enabledNames := by
  have distinct : s.desktop.names.Nodup := kept.names ▸ distinct
  have shown := Desktop.enabledNames_eq_filter (names ▸ distinct)
  have equal {before : List String} (listed : before = s.desktop.names.filter (· ∈ before))
      (same : ∀ name, name ∈ d.enabledNames ↔ name ∈ before) : d.enabledNames = before := by
    rw [shown, listed, names]
    apply List.filter_congr
    intro name _
    simp [same]
  cases known : s.before with
  | none =>
    refine equal (Desktop.enabledNames_eq_filter distinct) fun name => ?_
    rw [all]
    simp [Desktop.loan, kept.settled known]
  | some before =>
    refine equal (kept.names ▸ kept.listed before known) fun name => ?_
    rw [all, kept.whole known]
    exact Iff.rfl

theorem Kept.on_restores {s : Session} (distinct : (outputs.map Output.name).Nodup)
    (kept : Kept outputs s) {query : Query} {code : Nat} (status : (s.desktop.on query code).2 = 0) :
    (s.desktop.on query code).1.enabledNames = s.before.getD s.desktop.enabledNames := by
  rcases s.desktop.on_cases query code with ⟨same, nothing⟩ | ⟨restored, _⟩
  · rw [same]
    refine kept.restores distinct rfl fun name => ?_
    simp [Desktop.loan, nothing status]
  · rw [restored]
    apply kept.restores distinct (Desktop.kscreen_names ..)
    intro name
    exact Desktop.mem_on kept.saved

theorem step_restores {s next : Session} {i : Invocation} {reports : List Report}
    (distinct : (outputs.map Output.name).Nodup) (kept : Kept outputs s)
    (taken : step s i = some (next, reports)) : ∀ r ∈ reports, r.Restores := by
  cases i with
  | off query code => cases taken; simp [Report.Restores]
  | layout query code => cases taken; simp [Report.Restores]
  | plug name connected => cases taken; simp
  | on query code =>
    cases taken
    intro r member
    obtain rfl := List.mem_singleton.mp member
    intro _ _ _ status
    exact kept.on_restores distinct status

/-- In every run of complete invocations an `on` that exits 0 leaves exactly those outputs
enabled that were enabled before the first `off` since the last such `on`, whatever failed in
between; the headset's outputs stay enabled, so that one always is. -/
theorem on_restores_off {invocations : List Invocation} {s : Session} {trace : List Report}
    (distinct : (outputs.map Output.name).Nodup)
    (screen : ∃ o ∈ outputs, isQuest o = true ∧ o.enabled = true)
    (run : Machine.exec step invocations (start outputs) = some (s, trace)) :
    (∀ r ∈ trace, r.Restores) ∧
    (∃ o ∈ s.desktop.outputs, o.enabled = true) ∧
    (∀ o ∈ outputs, isQuest o = true → o.enabled = true → o.name ∈ s.desktop.enabledNames) ∧
    ∀ query code, (s.desktop.on query code).2 ≠ 0 → (s.desktop.on query code).1 = s.desktop := by
  have history := Machine.history
    (fun s trace => Kept outputs s ∧ ∀ r ∈ trace, Report.Restores r)
    ⟨start_kept outputs, by simp⟩
    (fun s trace i next reports past taken => ⟨step_kept distinct past.1 taken,
      List.forall_mem_append.mpr ⟨past.2, step_restores distinct past.1 taken⟩⟩) run
  obtain ⟨kept, restores⟩ := history
  refine ⟨restores, ?_, kept.screens, fun _ _ failed => s.desktop.on_failed failed⟩
  obtain ⟨o, member, quest, enabled⟩ := screen
  obtain ⟨shown, present, lit, _⟩ :=
    Desktop.mem_enabledNames.mp (kept.screens o member quest enabled)
  exact ⟨shown, present, lit⟩

/-- Two `off` commands of which the first fails, an `on` that fails and one that does not. -/
def evening : List Invocation :=
  [.off .answered 1, .off .answered 0, .on .failed 1, .off .failed 0, .on .answered 0]

def desk : List Output := [⟨"DP-1", true, false, false⟩, ⟨"eDP-1", true, true, false⟩,
  ⟨"Virtual-QUEST-1", true, true, false⟩]

theorem on_restores_off_sample :
    ∃ s trace, Machine.exec step evening (start desk) = some (s, trace) ∧
      s.desktop.enabledNames = ["eDP-1", "Virtual-QUEST-1"] ∧
      (∀ r ∈ trace, r.Restores) ∧ "Virtual-QUEST-1" ∈ s.desktop.enabledNames := by
  obtain ⟨s, trace, run⟩ : ∃ s trace,
      Machine.exec step evening (start desk) = some (s, trace) := ⟨_, _, rfl⟩
  have reached : (Machine.exec step evening (start desk)).map (fun r => r.1.desktop.enabledNames) =
      some ["eDP-1", "Virtual-QUEST-1"] := by decide +kernel
  rw [run, Option.map_some, Option.some.injEq] at reached
  have distinct : (desk.map Output.name).Nodup := by decide
  obtain ⟨restores, _, screens, _⟩ := on_restores_off distinct
    ⟨⟨"Virtual-QUEST-1", true, true, false⟩, by simp [desk], by decide +kernel, rfl⟩ run
  exact ⟨s, trace, run, reached, restores,
    screens ⟨"Virtual-QUEST-1", true, true, false⟩ (by simp [desk]) (by decide +kernel) rfl⟩

end Session

end Quest.LaptopDisplay
