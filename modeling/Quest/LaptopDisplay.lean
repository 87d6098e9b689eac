import Mathlib.Data.Fintype.Basic
import Mathlib.Data.List.Dedup
import Mathlib.Data.List.Sort
import Quest.Library.Machine

/-! Concurrent invocations of `laptop-display.py`, one step for each access to the
compositor or to the state file. What `positions` adds to the enable command concerns the
layout only and is left out. -/
namespace Quest.LaptopDisplay

/-- An output of the compositor. `darkened` records that an `off` has disabled it and that
nothing has enabled it since. -/
structure Output where
  name : String
  connected : Bool
  enabled : Bool
  darkened : Bool
  deriving DecidableEq, Repr

def isQuest (o : Output) : Bool := (o.name.dropPrefix "Virtual-").startsWith "QUEST-"

/-- The result of a `kscreen-doctor` command. A failed one may have been applied in part. -/
structure Outcome where
  code : Nat
  applied : List String
  deriving DecidableEq, Repr

def Outcome.reached (outcome : Outcome) (names : List String) : List String :=
  if outcome.code = 0 then names else names.filter (· ∈ outcome.applied)

inductive Process where
  | idle
  | offOutputs (physical : List String)
  | offSaved (physical names : List String)
  | offWritten (physical : List String)
  | onSaved (names : List String)
  | onOutputs (names : List String)
  | onEnabled (names : List String)
  deriving DecidableEq, Repr

structure State (ι : Type*) where
  outputs : List Output
  file : Option (List String)
  processes : ι → Process

def State.start (outputs : List Output) (file : Option (List String)) : State ι :=
  ⟨outputs.map fun o => { o with darkened := false }, file, fun _ => .idle⟩

inductive Action (ι : Type*) where
  | off (process : ι) (answered : Bool)
  | offSaved (process : ι)
  | offWrite (process : ι)
  | offDisable (process : ι) (outcome : Outcome)
  | on (process : ι)
  | onOutputs (process : ι)
  | onEnable (process : ι) (outcome : Outcome)
  | onDelete (process : ι)
  | die (process : ι)
  | external (name : String) (connected enabled : Bool)

inductive Event (ι : Type*) where
  | returned (process : ι) (code : Nat)
  deriving DecidableEq, Repr

def State.saved (s : State ι) : List String := s.file.getD []

/-- `outputs()`; a command that fails or answers nonsense counts as no outputs. -/
def State.current (s : State ι) (answered : Bool) : List Output :=
  if answered then s.outputs else []

def physicalNames (current : List Output) : List String :=
  (current.filter fun o => !isQuest o && o.connected && o.enabled).map Output.name

/-- `sorted(set(saved) | set(physical))`. -/
def union (names physical : List String) : List String :=
  (names ++ physical).dedup.insertionSort (· ≤ ·)

def Output.switch (o : Output) (names : List String) (enabled : Bool) : Output :=
  if o.name ∈ names then { o with enabled := enabled, darkened := !enabled } else o

def State.switch (s : State ι) (names : List String) (enabled : Bool) : State ι :=
  { s with outputs := s.outputs.map fun o => o.switch names enabled }

/-- Anyone else plugging, unplugging or switching an output. -/
def State.external (s : State ι) (name : String) (connected enabled : Bool) : State ι :=
  if name ∈ s.outputs.map Output.name then
    { s with outputs := s.outputs.map fun o =>
        if o.name = name then
          { o with connected := connected, enabled := enabled, darkened := o.darkened && !enabled }
        else o }
  else { s with outputs := s.outputs ++ [⟨name, connected, enabled, false⟩] }

variable [DecidableEq ι]

def State.put (s : State ι) (p : ι) (process : Process) : State ι :=
  { s with processes := Function.update s.processes p process }

def step : Machine.Step (State ι) (Action ι) (Event ι) := fun s a =>
  match a with
  | .off p answered =>
    match s.processes p with
    | .idle =>
      if ¬(s.current answered).any fun o => isQuest o && o.enabled then
        some (s, [.returned p 1])
      else if physicalNames (s.current answered) = [] then some (s, [.returned p 0])
      else some (s.put p (.offOutputs (physicalNames (s.current answered))), [])
    | _ => none
  | .offSaved p =>
    match s.processes p with
    | .offOutputs physical => some (s.put p (.offSaved physical s.saved), [])
    | _ => none
  | .offWrite p =>
    match s.processes p with
    | .offSaved physical names =>
      some ({ s with file := some (union names physical) }.put p (.offWritten physical), [])
    | _ => none
  | .offDisable p outcome =>
    match s.processes p with
    | .offWritten physical =>
      some ((s.switch (outcome.reached physical) false).put p .idle, [.returned p outcome.code])
    | _ => none
  | .on p =>
    match s.processes p with
    | .idle =>
      if s.saved = [] then some (s, [.returned p 0]) else some (s.put p (.onSaved s.saved), [])
    | _ => none
  | .onOutputs p =>
    match s.processes p with
    | .onSaved names => some (s.put p (.onOutputs names), [])
    | _ => none
  | .onEnable p outcome =>
    match s.processes p with
    | .onOutputs names =>
      if outcome.code = 0 then some ((s.switch names true).put p (.onEnabled names), [])
      else
        some ((s.switch (outcome.reached names) true).put p .idle, [.returned p outcome.code])
    | _ => none
  | .onDelete p =>
    match s.processes p with
    | .onEnabled _ => some ({ s with file := none }.put p .idle, [.returned p 0])
    | _ => none
  -- Killed, or ended by an exception such as that of a command which has timed out.
  | .die p => some (s.put p .idle, [])
  | .external name connected enabled => some (s.external name connected enabled, [])

inductive Stepped (s : State ι) : Action ι → State ι → Prop where
  | offReturned (answered : Bool) : Stepped s (.off p answered) s
  | offOutputs (answered : Bool) (physical : List String) :
      Stepped s (.off p answered) (s.put p (.offOutputs physical))
  | offSaved : s.processes p = .offOutputs physical →
      Stepped s (.offSaved p) (s.put p (.offSaved physical s.saved))
  | offWritten : s.processes p = .offSaved physical names →
      Stepped s (.offWrite p)
        ({ s with file := some (union names physical) }.put p (.offWritten physical))
  | offDisabled (outcome : Outcome) : s.processes p = .offWritten physical →
      Stepped s (.offDisable p outcome)
        ((s.switch (outcome.reached physical) false).put p .idle)
  | onReturned : Stepped s (.on p) s
  | onSaved : Stepped s (.on p) (s.put p (.onSaved s.saved))
  | onOutputs : s.processes p = .onSaved names →
      Stepped s (.onOutputs p) (s.put p (.onOutputs names))
  | onEnabled (outcome : Outcome) : s.processes p = .onOutputs names →
      Stepped s (.onEnable p outcome) ((s.switch names true).put p (.onEnabled names))
  | onFailed (outcome : Outcome) : s.processes p = .onOutputs names →
      Stepped s (.onEnable p outcome) ((s.switch (outcome.reached names) true).put p .idle)
  | onDeleted : s.processes p = .onEnabled names →
      Stepped s (.onDelete p) ({ s with file := none }.put p .idle)
  | died : Stepped s (.die p) (s.put p .idle)
  | external (name : String) (connected enabled : Bool) :
      Stepped s (.external name connected enabled) (s.external name connected enabled)

theorem step_stepped {s next : State ι} {a : Action ι} {events : List (Event ι)}
    (taken : step s a = some (next, events)) : Stepped s a next := by
  unfold step at taken
  split at taken
  next p answered =>
    split at taken
    · split at taken
      · cases taken; exact .offReturned answered
      · split at taken
        · cases taken; exact .offReturned answered
        · cases taken; exact .offOutputs answered _
    · contradiction
  next p =>
    split at taken
    · cases taken; exact .offSaved ‹_›
    · contradiction
  next p =>
    split at taken
    · cases taken; exact .offWritten ‹_›
    · contradiction
  next p outcome =>
    split at taken
    · cases taken; exact .offDisabled outcome ‹_›
    · contradiction
  next p =>
    split at taken
    · split at taken
      · cases taken; exact .onReturned
      · cases taken; exact .onSaved
    · contradiction
  next p =>
    split at taken
    · cases taken; exact .onOutputs ‹_›
    · contradiction
  next p outcome =>
    split at taken
    · split at taken
      · cases taken; exact .onEnabled outcome ‹_›
      · cases taken; exact .onFailed outcome ‹_›
    · contradiction
  next p =>
    split at taken
    · cases taken; exact .onDeleted ‹_›
    · contradiction
  next p => cases taken; exact .died
  next name connected enabled => cases taken; exact .external name connected enabled

/-- Every output that an `off` has disabled and nothing has enabled since is in the file. -/
def Listed (s : State ι) : Prop := ∀ o ∈ s.outputs, o.darkened = true → o.name ∈ s.saved

/-- What keeps invocations from undoing each other's bookkeeping: a write drops no entry of
the file, no output is disabled between the enable command of an `on` and its deletion, and
a deletion meets no entry that its `on` did not read and no `off` that has yet to disable
what it wrote. -/
def Orderly (s : State ι) (a : Action ι) : Prop :=
  match a with
  | .offWrite p => ∀ physical names, s.processes p = .offSaved physical names →
      ∀ name ∈ s.saved, name ∈ names ∨ name ∈ physical
  | .offDisable _ _ => ∀ q names, s.processes q ≠ .onEnabled names
  | .onDelete p => (∀ names, s.processes p = .onEnabled names → s.saved ⊆ names) ∧
      ∀ q physical, s.processes q ≠ .offWritten physical
  | _ => True

def Process.saved : Process → Option (List String × List String)
  | .offSaved physical names => some (physical, names)
  | _ => none

def Process.written : Process → Option (List String)
  | .offWritten physical => some physical
  | _ => none

def Process.enabled : Process → Option (List String)
  | .onEnabled names => some names
  | _ => none

@[simp] theorem Process.saved_eq_some {process : Process} {physical names : List String} :
    process.saved = some (physical, names) ↔ process = .offSaved physical names := by
  cases process <;> simp [Process.saved]

@[simp] theorem Process.written_eq_some {process : Process} {physical : List String} :
    process.written = some physical ↔ process = .offWritten physical := by
  cases process <;> simp [Process.written]

@[simp] theorem Process.enabled_eq_some {process : Process} {names : List String} :
    process.enabled = some names ↔ process = .onEnabled names := by
  cases process <;> simp [Process.enabled]

instance [Fintype ι] (s : State ι) : DecidablePred (Orderly s)
  | .offWrite p => decidable_of_iff
      (∀ locals ∈ (s.processes p).saved, ∀ name ∈ s.saved, name ∈ locals.2 ∨ name ∈ locals.1)
      (by simp [Orderly])
  | .offDisable _ _ => decidable_of_iff (∀ q, (s.processes q).enabled = none)
      (by simp [Orderly, Option.eq_none_iff_forall_ne_some])
  | .onDelete p => decidable_of_iff
      ((∀ names ∈ (s.processes p).enabled, s.saved ⊆ names) ∧
        ∀ q, (s.processes q).written = none)
      (by simp [Orderly, Option.eq_none_iff_forall_ne_some])
  | .off _ _ | .offSaved _ | .on _ | .onOutputs _ | .onEnable _ _ | .die _ | .external _ _ _ =>
    isTrue trivial

omit [DecidableEq ι] in
theorem mem_union {name : String} {names physical : List String} :
    name ∈ union names physical ↔ name ∈ names ∨ name ∈ physical := by
  simp [union]

/-- While an `off` has yet to disable its outputs they are listed; between its enable
command and its deletion an `on` has left nothing dark that it read. -/
structure Invariant (s : State ι) : Prop where
  listed : Listed s
  pending : ∀ p physical, s.processes p = .offWritten physical → physical ⊆ s.saved
  enabled : ∀ p names, s.processes p = .onEnabled names →
    ∀ o ∈ s.outputs, o.darkened = true → o.name ∉ names

omit [DecidableEq ι] in
theorem start_invariant (outputs : List Output) (file : Option (List String)) :
    Invariant (State.start (ι := ι) outputs file) := by
  refine ⟨?_, ?_, ?_⟩ <;> simp [State.start, Listed]

theorem reached_subset (outcome : Outcome) (names : List String) :
    outcome.reached names ⊆ names := by
  unfold Outcome.reached
  split
  · exact List.Subset.refl _
  · exact List.filter_subset_self _

omit [DecidableEq ι] in
/-- An output that is dark after a switch was dark before or has just been disabled. -/
theorem darkened_switch {s : State ι} {names : List String} {enabled : Bool} {o : Output}
    (member : o ∈ (s.switch names enabled).outputs) (dark : o.darkened = true) :
    (enabled = false ∧ o.name ∈ names) ∨
      (o.name ∉ names ∧ ∃ before ∈ s.outputs, before.name = o.name ∧ before.darkened = true) := by
  obtain ⟨before, present, rfl⟩ := List.mem_map.mp member
  unfold Output.switch at dark ⊢
  by_cases named : before.name ∈ names
  · rw [if_pos named] at dark ⊢
    exact .inl ⟨by simpa using dark, named⟩
  · rw [if_neg named] at dark ⊢
    exact .inr ⟨named, before, present, rfl, dark⟩

omit [DecidableEq ι] in
/-- Nobody else disables an output in the name of an `off`. -/
theorem darkened_external {s : State ι} {name : String} {connected enabled : Bool} {o : Output}
    (member : o ∈ (s.external name connected enabled).outputs) (dark : o.darkened = true) :
    ∃ before ∈ s.outputs, before.name = o.name ∧ before.darkened = true := by
  unfold State.external at member
  split at member
  · obtain ⟨before, present, rfl⟩ := List.mem_map.mp member
    refine ⟨before, present, ?_⟩
    split at dark
    · rename_i same
      rw [if_pos same]
      exact ⟨rfl, by simp_all⟩
    · rename_i other
      rw [if_neg other]
      exact ⟨rfl, dark⟩
  · rcases List.mem_append.mp member with member | member
    · exact ⟨o, member, rfl, dark⟩
    · rw [List.mem_singleton.mp member] at dark
      simp at dark

omit [DecidableEq ι] in
theorem external_kept (s : State ι) (name : String) (connected enabled : Bool) :
    (s.external name connected enabled).file = s.file ∧
      (s.external name connected enabled).processes = s.processes := by
  unfold State.external
  split <;> exact ⟨rfl, rfl⟩

/-- The invariant speaks of a process only while it stands after its write or its enable
command. -/
theorem Invariant.put {s : State ι} (valid : Invariant s) (p : ι) {process : Process}
    (pending : ∀ physical, process = .offWritten physical → physical ⊆ s.saved)
    (enabled : ∀ names, process = .onEnabled names →
      ∀ o ∈ s.outputs, o.darkened = true → o.name ∉ names) : Invariant (s.put p process) where
  listed := valid.listed
  pending := by
    intro q physical at_
    by_cases same : q = p
    · exact pending physical (by simpa [State.put, same] using at_)
    · exact valid.pending q physical (by simpa [State.put, same] using at_)
  enabled := by
    intro q names at_
    by_cases same : q = p
    · exact enabled names (by simpa [State.put, same] using at_)
    · exact valid.enabled q names (by simpa [State.put, same] using at_)

omit [DecidableEq ι] in
theorem Invariant.fewer {s next : State ι} (valid : Invariant s)
    (dark : ∀ o ∈ next.outputs, o.darkened = true →
      ∃ before ∈ s.outputs, before.name = o.name ∧ before.darkened = true)
    (file : next.file = s.file) (processes : next.processes = s.processes) : Invariant next where
  listed := by
    intro o member darkened
    obtain ⟨before, present, name, was⟩ := dark o member darkened
    have listed := valid.listed before present was
    rwa [name, State.saved, ← file] at listed
  pending := by
    intro p physical at_
    have listed := valid.pending p physical (by rwa [← processes])
    rwa [State.saved, ← file] at listed
  enabled := by
    intro p names at_ o member darkened
    obtain ⟨before, present, name, was⟩ := dark o member darkened
    exact name ▸ valid.enabled p names (by rwa [← processes]) before present was

theorem write_invariant {s : State ι} (valid : Invariant s) {p : ι} {names physical : List String}
    (kept : ∀ name ∈ s.saved, name ∈ names ∨ name ∈ physical) :
    Invariant ({ s with file := some (union names physical) }.put p (.offWritten physical)) := by
  have grown : s.saved ⊆ union names physical := fun name member => mem_union.mpr (kept name member)
  have written : Invariant { s with file := some (union names physical) } :=
    ⟨fun o member dark => grown (valid.listed o member dark),
      fun q other at_ => List.Subset.trans (valid.pending q other at_) grown, valid.enabled⟩
  refine written.put p ?_ (by simp)
  rintro _ ⟨⟩ name member
  exact mem_union.mpr (.inr member)

theorem disable_invariant {s : State ι} (valid : Invariant s) {p : ι} {physical : List String}
    (at_ : s.processes p = .offWritten physical) (outcome : Outcome)
    (alone : ∀ q names, s.processes q ≠ .onEnabled names) :
    Invariant ((s.switch (outcome.reached physical) false).put p .idle) := by
  suffices switched : Invariant (s.switch (outcome.reached physical) false) from
    switched.put p (by simp) (by simp)
  refine ⟨fun o member dark => ?_, valid.pending,
    fun q names present => absurd present (alone q names)⟩
  rcases darkened_switch member dark with ⟨_, named⟩ | ⟨_, before, present, name, was⟩
  · exact valid.pending p physical at_ (reached_subset outcome physical named)
  · exact name ▸ valid.listed before present was

theorem delete_invariant {s : State ι} (valid : Invariant s) {p : ι} {names : List String}
    (at_ : s.processes p = .onEnabled names) (read : s.saved ⊆ names)
    (settled : ∀ q physical, s.processes q ≠ .offWritten physical) :
    Invariant ({ s with file := none }.put p .idle) := by
  suffices deleted : Invariant { s with file := none } from deleted.put p (by simp) (by simp)
  refine ⟨fun o member dark => ?_, fun q physical present => absurd present (settled q physical),
    valid.enabled⟩
  exact absurd (read (valid.listed o member dark)) (valid.enabled p names at_ o member dark)

omit [DecidableEq ι] in
theorem enable_invariant {s : State ι} (valid : Invariant s) (names : List String) :
    Invariant (s.switch names true) := by
  refine valid.fewer (fun o member dark => ?_) rfl rfl
  rcases darkened_switch member dark with ⟨impossible, _⟩ | ⟨_, was⟩
  · simp at impossible
  · exact was

theorem step_invariant {s next : State ι} {a : Action ι} {events : List (Event ι)}
    (valid : Invariant s) (orderly : Orderly s a) (taken : step s a = some (next, events)) :
    Invariant next := by
  cases step_stepped taken with
  | offReturned => exact valid
  | offOutputs => exact valid.put _ (by simp) (by simp)
  | offSaved => exact valid.put _ (by simp) (by simp)
  | offWritten at_ => exact write_invariant valid (orderly _ _ at_)
  | offDisabled outcome at_ => exact disable_invariant valid at_ outcome orderly
  | onReturned => exact valid
  | onSaved => exact valid.put _ (by simp) (by simp)
  | onOutputs => exact valid.put _ (by simp) (by simp)
  | onEnabled =>
    apply (enable_invariant valid _).put _ (by simp)
    rintro _ ⟨⟩ o member dark
    rcases darkened_switch member dark with ⟨impossible, _⟩ | ⟨unnamed, _⟩
    · simp at impossible
    · exact unnamed
  | onFailed => exact (enable_invariant valid _).put _ (by simp) (by simp)
  | onDeleted at_ => exact delete_invariant valid at_ (orderly.1 _ at_) orderly.2
  | died => exact valid.put _ (by simp) (by simp)
  | external name connected enabled =>
    obtain ⟨file, processes⟩ := external_kept s name connected enabled
    exact valid.fewer (fun o member dark => darkened_external member dark) file processes

/-- In every run whose steps are orderly, every output that an `off` has disabled and
nothing has enabled since is in the state file. -/
theorem displays_restorable {actions : List (Action ι)} {outputs : List Output}
    {file : Option (List String)} {s : State ι} {events : List (Event ι)}
    (orderly : Machine.Along step Orderly actions (.start outputs file))
    (run : Machine.exec step actions (.start outputs file) = some (s, events)) : Listed s :=
  (Machine.guarded_invariant Invariant
    (fun _ _ _ _ valid orderly taken => step_invariant valid orderly taken)
    (start_invariant outputs file) orderly run).listed

/-- What a process has read is what the file still holds, when nobody else runs. -/
def Process.Fresh (file : List String) : Process → Prop
  | .offSaved _ names | .onSaved names | .onOutputs names | .onEnabled names => names = file
  | _ => True

section Alone

variable [Subsingleton ι]

theorem put_fresh {s : State ι} {p : ι} {process : Process} (fresh : process.Fresh s.saved) (q : ι) :
    ((s.put p process).processes q).Fresh (s.put p process).saved := by
  obtain rfl := Subsingleton.elim p q
  have same : (s.put p process).saved = s.saved := rfl
  rw [same]
  simpa [State.put] using fresh

theorem step_fresh {s next : State ι} {a : Action ι} {events : List (Event ι)}
    (fresh : ∀ p, (s.processes p).Fresh s.saved) (taken : step s a = some (next, events)) :
    ∀ p, (next.processes p).Fresh next.saved := by
  cases step_stepped taken with
  | offReturned => exact fresh
  | offOutputs => exact put_fresh trivial
  | offSaved => exact put_fresh rfl
  | offWritten => exact put_fresh trivial
  | offDisabled => exact put_fresh trivial
  | onReturned => exact fresh
  | onSaved => exact put_fresh rfl
  | @onOutputs p names at_ =>
    have read := fresh p
    rw [at_] at read
    exact put_fresh read
  | @onEnabled p names outcome at_ =>
    have read := fresh p
    rw [at_] at read
    exact put_fresh read
  | onFailed => exact put_fresh trivial
  | onDeleted => exact put_fresh trivial
  | died => exact put_fresh trivial
  | external name connected enabled =>
    obtain ⟨file, processes⟩ := external_kept s name connected enabled
    rw [processes, State.saved, file]
    exact fresh

theorem step_orderly {s next : State ι} {a : Action ι} {events : List (Event ι)}
    (fresh : ∀ p, (s.processes p).Fresh s.saved) (taken : step s a = some (next, events)) :
    Orderly s a := by
  cases a with
  | offWrite p =>
    intro physical names at_ name member
    have read := fresh p
    rw [at_] at read
    exact .inl (read ▸ member)
  | offDisable p outcome =>
    intro q names at_
    obtain rfl := Subsingleton.elim p q
    simp [step, at_] at taken
  | onDelete p =>
    refine ⟨fun names at_ => ?_, fun q physical at_ => ?_⟩
    · have read := fresh p
      rw [at_] at read
      exact read ▸ List.Subset.refl _
    · obtain rfl := Subsingleton.elim p q
      simp [step, at_] at taken
  | _ => trivial

/-- Invocations that do not overlap are orderly. -/
theorem alone_orderly {actions : List (Action ι)} {outputs : List Output}
    {file : Option (List String)} {s : State ι} {events : List (Event ι)}
    (run : Machine.exec step actions (.start outputs file) = some (s, events)) :
    Machine.Along step Orderly actions (.start outputs file) :=
  Machine.along_of_invariant (fun s => ∀ p, (s.processes p).Fresh s.saved)
    (fun _ _ _ _ fresh taken => step_fresh fresh taken)
    (fun _ _ _ _ fresh taken => step_orderly fresh taken) (fun _ => trivial) run

end Alone

def laptop : List Output :=
  [⟨"eDP-1", true, true, false⟩, ⟨"Virtual-QUEST-1", true, true, false⟩]

/-- Two `off`s overlap; an `on` dies after its enable command, and the next `off` meets its file. -/
def overlapping : List (Action Bool) := [
  .off false true, .off true true, .offSaved false, .offWrite false, .offSaved true,
  .offDisable false ⟨0, []⟩, .offWrite true, .on false, .offDisable true ⟨0, []⟩, .onOutputs false,
  .onEnable false ⟨0, []⟩, .die false, .off true true, .offSaved true, .offWrite true,
  .offDisable true ⟨0, []⟩]

theorem displays_restorable_sample :
    ∃ s events, Machine.exec step overlapping (.start laptop none) = some (s, events) ∧
      (⟨"eDP-1", true, false, true⟩ : Output) ∈ s.outputs ∧ Listed s := by
  have reached : (Machine.exec step overlapping (.start laptop none)).map (fun r => r.1.outputs) =
      some [⟨"eDP-1", true, false, true⟩, ⟨"Virtual-QUEST-1", true, true, false⟩] := by
    decide +kernel
  obtain ⟨⟨s, events⟩, run, outputs⟩ := Option.map_eq_some_iff.mp reached
  have outputs : s.outputs = _ := outputs
  have orderly : Machine.Along step Orderly overlapping (.start laptop none) := by decide +kernel
  exact ⟨s, events, run, by simp [outputs], displays_restorable orderly run⟩

/-- The stop hook's `on` finds the entry that the headset mode's `off` has just written,
enables the output that is still on, and deletes the file after the `off` has disabled it. -/
def race : List (Action (Fin 2)) := [
  .off 0 true, .offSaved 0, .offWrite 0, .on 1, .onOutputs 1, .onEnable 1 ⟨0, []⟩,
  .offDisable 0 ⟨0, []⟩, .onDelete 1]

theorem displays_lost :
    ¬∀ (actions : List (Action (Fin 2))) (s : State (Fin 2)) (events : List (Event (Fin 2))),
      Machine.exec step actions (.start laptop none) = some (s, events) → Listed s := by
  intro restorable
  have reached : (Machine.exec step race (.start laptop none)).map
      (fun r => (r.1.outputs, r.1.file)) =
        some ([⟨"eDP-1", true, false, true⟩, ⟨"Virtual-QUEST-1", true, true, false⟩], none) := by
    decide +kernel
  obtain ⟨⟨s, events⟩, run, result⟩ := Option.map_eq_some_iff.mp reached
  obtain ⟨outputs, file⟩ : s.outputs = _ ∧ s.file = none := Prod.mk.inj result
  have listed := restorable race s events run ⟨"eDP-1", true, false, true⟩ (by simp [outputs]) rfl
  simp [State.saved, file] at listed

end Quest.LaptopDisplay
