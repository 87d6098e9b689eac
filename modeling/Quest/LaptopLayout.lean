import Mathlib.Algebra.Order.Group.Int
import Mathlib.Algebra.Ring.Int.Defs
import Mathlib.Algebra.Ring.Rat
import Mathlib.Data.Rat.Defs
import Quest.LaptopDisplay
import Quest.Library.Spans

/-! The positions that `laptop-display.py` gives the outputs: physical ones first, each at the
sum of the logical widths before it. The division of floating-point numbers is a parameter. -/
namespace Quest.LaptopDisplay

/-- A field that the JSON does not have is `none`. -/
structure Mode where
  id : Option String
  width : Option Int
  deriving DecidableEq, Repr

structure Screen extends Output where
  modes : List Mode
  currentModeId : Option String
  width : Option Int
  scale : Option Rat
  deriving DecidableEq, Repr

/-- `str` of an identifier; an identifier that is missing on both sides matches. -/
def idText (id : Option String) : String := id.getD "None"

/-- Python's `or` between numbers. -/
def orElse {α : Type*} [DecidableEq α] [Zero α] (first : Option α) (second : α) : α :=
  (first.filter (· ≠ 0)).getD second

/-- Python's `round`, which rounds halves to even. -/
def roundHalfEven (q : Rat) : Int :=
  if q - q.floor < 1 / 2 then q.floor
  else if 1 / 2 < q - q.floor then q.floor + 1
  else if q.floor % 2 = 0 then q.floor
  else q.floor + 1

def logicalWidth (divide : Int → Rat → Rat) (o : Screen) : Int :=
  let mode := o.modes.find? fun m => idText m.id == idText o.currentModeId
  roundHalfEven (divide (orElse (mode.bind Mode.width) (o.width.getD 0)) (orElse o.scale 1))

def shown (current : List Screen) (extraEnabled : List String) : List Screen :=
  current.filter fun o => o.enabled || o.name ∈ extraEnabled

def byName (screens : List Screen) : List Screen :=
  screens.insertionSort fun a b => a.name ≤ b.name

def ordered (current : List Screen) (extraEnabled : List String) : List Screen :=
  byName ((shown current extraEnabled).filter fun o => !isQuest o.toOutput) ++
    byName ((shown current extraEnabled).filter fun o => isQuest o.toOutput)

/-- The loop of `positions` from `x` on. -/
def placeFrom (width : Screen → Int) : Int → List Screen → List (Screen × Int)
  | _, [] => []
  | x, o :: rest => (o, x) :: placeFrom width (x + width o) rest

def placed (divide : Int → Rat → Rat) (current : List Screen) (extraEnabled : List String) :
    List (Screen × Int) :=
  placeFrom (logicalWidth divide) 0 (ordered current extraEnabled)

def positions (divide : Int → Rat → Rat) (current : List Screen) (extraEnabled : List String) :
    List String :=
  (placed divide current extraEnabled).map fun (o, x) => s!"output.{o.name}.position.{x},0"

theorem placeFrom_screens (width : Screen → Int) (x : Int) (screens : List Screen) :
    (placeFrom width x screens).map Prod.fst = screens := by
  induction screens generalizing x with
  | nil => rfl
  | cons o rest ih => rw [placeFrom, List.map_cons, ih]

theorem placeFrom_spans (width : Screen → Int) (x : Int) (screens : List Screen) :
    (placeFrom width x screens).map (fun (o, x) => (x, width o)) =
      Spans.place x (screens.map width) := by
  induction screens generalizing x with
  | nil => rfl
  | cons o rest ih => rw [placeFrom, List.map_cons, ih, List.map_cons, Spans.place]

theorem mem_byName {screens : List Screen} {o : Screen} : o ∈ byName screens ↔ o ∈ screens :=
  List.mem_insertionSort _

theorem ordered_perm (current : List Screen) (extraEnabled : List String) :
    (ordered current extraEnabled).Perm (shown current extraEnabled) :=
  ((List.perm_insertionSort _ _).append (List.perm_insertionSort _ _)).trans
    (List.perm_append_comm.trans (List.filter_append_perm _ _))

theorem ordered_physical_first (current : List Screen) (extraEnabled : List String) :
    (ordered current extraEnabled).Pairwise fun a b =>
      isQuest a.toOutput = true → isQuest b.toOutput = true := by
  have physical (o) (member : o ∈ byName ((shown current extraEnabled).filter
      fun o => !isQuest o.toOutput)) : isQuest o.toOutput = false := by
    simpa using (List.mem_filter.mp (mem_byName.mp member)).2
  have quest (o) (member : o ∈ byName ((shown current extraEnabled).filter
      fun o => isQuest o.toOutput)) : isQuest o.toOutput = true :=
    (List.mem_filter.mp (mem_byName.mp member)).2
  refine List.pairwise_append.mpr ⟨?_, ?_, fun _ _ b member _ => quest b member⟩
  · refine List.pairwise_of_forall_mem_list fun a member _ _ isIt => ?_
    simp [physical a member] at isIt
  · exact List.pairwise_of_forall_mem_list fun _ _ b member _ => quest b member

/-- Every shown output has one position, physical ones first, and no two outputs share their
origin or any x that both span. -/
structure Separates (width : Screen → Int) (shown : List Screen) (placed : List (Screen × Int)) :
    Prop where
  each : (placed.map Prod.fst).Perm shown
  named : (placed.map (·.1.name)).Nodup
  physicalFirst : placed.Pairwise fun a b =>
    isQuest a.1.toOutput = true → isQuest b.1.toOutput = true
  origins : placed.Pairwise fun a b => a.2 ≠ b.2
  spans : placed.Pairwise fun a b =>
    Disjoint (Spans.span a.2 (width a.1)) (Spans.span b.2 (width b.1))

/-- The outputs are kept apart exactly when each but the last has a width, and no width is
negative where another one is positive. -/
theorem placed_separates_iff (divide : Int → Rat → Rat) {current : List Screen}
    (extraEnabled : List String) (distinct : (current.map fun o => o.name).Nodup) :
    Separates (logicalWidth divide) (shown current extraEnabled)
        (placed divide current extraEnabled) ↔
      (∀ o ∈ (ordered current extraEnabled).dropLast, logicalWidth divide o ≠ 0) ∧
        Spans.OneWay ((shown current extraEnabled).map (logicalWidth divide)) := by
  have screens := placeFrom_screens (logicalWidth divide) 0 (ordered current extraEnabled)
  have perm := ordered_perm current extraEnabled
  have apart : ((placed divide current extraEnabled).Pairwise fun a b => Spans.Apart
      (a.2, logicalWidth divide a.1) (b.2, logicalWidth divide b.1)) ↔
        (∀ o ∈ (ordered current extraEnabled).dropLast, logicalWidth divide o ≠ 0) ∧
          Spans.OneWay ((shown current extraEnabled).map (logicalWidth divide)) := by
    have spans := Spans.pairwise_apart_iff 0
      ((ordered current extraEnabled).map (logicalWidth divide))
    rw [← placeFrom_spans, List.pairwise_map, ← List.map_dropLast, List.forall_mem_map] at spans
    rw [placed, spans]
    refine and_congr_right fun _ => ?_
    simp only [Spans.OneWay, List.forall_mem_map, perm.mem_iff]
  rw [← apart]
  constructor
  · rintro ⟨_, _, _, origins, spans⟩
    exact origins.and spans
  · intro apart
    refine ⟨?_, ?_, ?_, apart.imp And.left, apart.imp And.right⟩
    · rw [placed, screens]
      exact perm
    · have names := congrArg (List.map fun o => o.name) screens
      rw [List.map_map] at names
      exact names ▸ (perm.map _).nodup_iff.mpr (distinct.sublist (List.filter_sublist.map _))
    · have first := ordered_physical_first current extraEnabled
      rw [← screens, List.pairwise_map] at first
      exact first

/-- The quotient where no rounding is needed. -/
def exactly (width : Int) (scale : Rat) : Rat := width / scale

def docked (panelMode : Option String) : List Screen := [
  { name := "eDP-1", connected := true, enabled := false, darkened := true,
    modes := [⟨some "1", some 2880⟩], currentModeId := panelMode, width := none, scale := some 2 },
  { name := "Virtual-QUEST-1", connected := true, enabled := true, darkened := false,
    modes := [⟨some "1", some 2560⟩], currentModeId := some "1", width := some 2560, scale := none }]

theorem placed_separates_docked :
    Separates (logicalWidth exactly) (shown (docked (some "1")) ["eDP-1"])
      (placed exactly (docked (some "1")) ["eDP-1"]) := by
  apply (placed_separates_iff exactly ["eDP-1"] (by decide)).mpr
  refine ⟨by decide +kernel, .inl ?_⟩
  decide +kernel

/-- Without a current mode the panel has no width, and the headset screen gets its origin. -/
theorem origin_shared :
    ¬∀ (current : List Screen) (extraEnabled : List String),
      (current.map fun o => o.name).Nodup →
        Separates (logicalWidth exactly) (shown current extraEnabled)
          (placed exactly current extraEnabled) := by
  intro separates
  have origins := (separates (docked none) ["eDP-1"] (by decide)).origins
  revert origins
  decide +kernel

example : positions exactly (docked none) ["eDP-1"] =
    ["output.eDP-1.position.0,0", "output.Virtual-QUEST-1.position.0,0"] := by
  decide +kernel

end Quest.LaptopDisplay
