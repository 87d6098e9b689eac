import Quest.LaptopRestore

/-! Outputs that come and go between an `off` and the `on` after it. The command that `on`
builds from the saved names fails as a whole when one of them is gone. -/
namespace Quest.LaptopDisplay

/-- What happens to the desktop, with the answer that an invocation gets to its query. -/
inductive Change where
  | off (query : Query)
  | on (query : Query)
  | plugged (o : Output)
  | unplugged (name : String)
  deriving DecidableEq, Repr

structure Recovery where
  saved : List String
  present : List String
  enabled : List String
  deriving DecidableEq, Repr

def Recovery.Complete (r : Recovery) : Prop :=
  ∀ name ∈ r.saved, name ∈ r.present → name ∈ r.enabled

namespace Desktop

/-- `kscreen-doctor` fails when its command names an output that does not exist. -/
def exitCode (d : Desktop) (names : List String) : Nat :=
  if ∀ name ∈ names, name ∈ d.names then 0 else 1

def change : Machine.Step Desktop Change Recovery := fun d c =>
  match c with
  | .off query => some ((d.off query (d.exitCode (physicalNames d.outputs))).1, [])
  | .on query =>
    let next := (d.on query (d.exitCode d.saved)).1
    some (next, if query = .answered then [⟨d.saved, d.names, next.enabledNames⟩] else [])
  | .plugged o =>
    if o.name ∈ d.names then none else some ({ d with outputs := d.outputs ++ [o] }, [])
  | .unplugged name => some ({ d with outputs := d.outputs.filter (·.name ≠ name) }, [])

/-- Every saved output is there, or those that are there are on already. -/
def Recoverable (d : Desktop) : Change → Prop
  | .on .answered =>
    (∀ name ∈ d.saved, name ∈ d.names) ∨ ∀ name ∈ d.saved, name ∈ d.names → name ∈ d.enabledNames
  | _ => True

theorem exitCode_eq_zero {d : Desktop} {names : List String} :
    d.exitCode names = 0 ↔ ∀ name ∈ names, name ∈ d.names := by
  simp [exitCode]

theorem on_complete_iff (d : Desktop) :
    Recovery.Complete ⟨d.saved, d.names,
        (d.on .answered (d.exitCode d.saved)).1.enabledNames⟩ ↔ d.Recoverable (.on .answered) := by
  by_cases nothing : d.saved = []
  · simp [Recovery.Complete, Recoverable, nothing]
  by_cases whole : ∀ name ∈ d.saved, name ∈ d.names
  · have applied : (d.on .answered (d.exitCode d.saved)).1 =
        { d.kscreen d.saved true 0 with file := none } := by
      simp [on, nothing, exitCode_eq_zero.mpr whole, query]
    rw [applied]
    refine iff_of_true (fun name noted present => ?_) (.inl whole)
    exact mem_restored.mpr (.inr ⟨noted, present⟩)
  · have failed : (d.on .answered (d.exitCode d.saved)).1 = d := by
      have code : d.exitCode d.saved ≠ 0 := mt exitCode_eq_zero.mp whole
      apply on_failed
      simp [on, nothing, query, code]
    rw [failed]
    exact (or_iff_right whole).symm

theorem change_complete_iff {d next : Desktop} {c : Change} {recoveries : List Recovery}
    (taken : change d c = some (next, recoveries)) :
    d.Recoverable c ↔ ∀ r ∈ recoveries, r.Complete := by
  cases c with
  | off query =>
    cases taken
    simp [Recoverable]
  | on query =>
    obtain ⟨rfl, rfl⟩ := Prod.mk.inj (Option.some.inj taken)
    cases query with
    | answered => simp [on_complete_iff]
    | failed => simp [Recoverable]
    | timedOut => simp [Recoverable]
  | plugged o =>
    simp only [change] at taken
    split at taken <;> cases taken
    simp [Recoverable]
  | unplugged name =>
    cases taken
    simp [Recoverable]

/-- Over any run: each `on` restores what is left of the saved outputs exactly when none is
missing, or nothing was to be restored. -/
theorem recovery_complete_iff {changes : List Change} {d final : Desktop}
    {recoveries : List Recovery} (run : Machine.exec change changes d = some (final, recoveries)) :
    Machine.Along change Recoverable changes d ↔ ∀ r ∈ recoveries, r.Complete :=
  Machine.along_iff_emitted (fun _ => True) (fun _ _ _ _ _ _ => trivial)
    (fun _ _ _ _ _ taken => change_complete_iff taken) trivial run

def dock : Desktop := ⟨[⟨"eDP-1", true, true, false⟩, ⟨"HDMI-1", true, true, false⟩,
  ⟨"Virtual-QUEST-1", true, true, false⟩], none⟩

def replugged : List Change :=
  [.off .answered, .unplugged "HDMI-1", .plugged ⟨"HDMI-1", true, false, true⟩, .on .answered]

theorem recovery_complete_replugged :
    ∃ final recoveries, Machine.exec change replugged dock = some (final, recoveries) ∧
      recoveries = [⟨["HDMI-1", "eDP-1"], ["eDP-1", "Virtual-QUEST-1", "HDMI-1"],
        ["eDP-1", "Virtual-QUEST-1", "HDMI-1"]⟩] ∧
      Machine.Along change Recoverable replugged dock := by
  have reached : (Machine.exec change replugged dock).map Prod.snd =
      some [⟨["HDMI-1", "eDP-1"], ["eDP-1", "Virtual-QUEST-1", "HDMI-1"],
        ["eDP-1", "Virtual-QUEST-1", "HDMI-1"]⟩] := by decide +kernel
  obtain ⟨⟨final, recoveries⟩, run, rfl⟩ := Option.map_eq_some_iff.mp reached
  refine ⟨final, _, run, rfl, (recovery_complete_iff run).mpr ?_⟩
  simp [Recovery.Complete]

/-- The panel of the laptop stays off because the display that was left at the dock is named. -/
theorem missing_output_blocks_recovery :
    ¬∀ (changes : List Change) (d final : Desktop) (recoveries : List Recovery),
      Machine.exec change changes d = some (final, recoveries) → ∀ r ∈ recoveries, r.Complete := by
  intro complete
  have reached : (Machine.exec change [.off .answered, .unplugged "HDMI-1", .on .answered] dock).map
      Prod.snd = some [⟨["HDMI-1", "eDP-1"], ["eDP-1", "Virtual-QUEST-1"], ["Virtual-QUEST-1"]⟩] := by
    decide +kernel
  obtain ⟨⟨final, recoveries⟩, run, same⟩ := Option.map_eq_some_iff.mp reached
  obtain rfl : recoveries = _ := same
  have panel := complete _ _ _ _ run _ List.mem_cons_self "eDP-1" (by simp) (by simp)
  simp at panel

end Desktop

end Quest.LaptopDisplay
