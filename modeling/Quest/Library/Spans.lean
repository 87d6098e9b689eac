import Mathlib.Algebra.Order.Group.Defs
import Mathlib.Order.CompletePartialOrder
import Mathlib.Order.Interval.Set.Disjoint

/-! Spans laid end to end from a starting point by the running sum of their widths. They have
distinct origins and do not overlap exactly when every width but the last moves on and no
width turns back. -/
namespace Spans

variable {α : Type*} [AddCommGroup α] [LinearOrder α]

/-- The points between an origin and the end of its width, which may lie below it. -/
def span (origin width : α) : Set α :=
  Set.Ico (min origin (origin + width)) (max origin (origin + width))

def place : α → List α → List (α × α)
  | _, [] => []
  | x, width :: rest => (x, width) :: place (x + width) rest

def Apart (a b : α × α) : Prop := a.1 ≠ b.1 ∧ Disjoint (span a.1 a.2) (span b.1 b.2)

/-- No two widths have opposite signs. -/
def OneWay (widths : List α) : Prop := (∀ w ∈ widths, 0 ≤ w) ∨ ∀ w ∈ widths, w ≤ 0

variable [IsOrderedAddMonoid α]

theorem span_of_nonneg (x : α) {w : α} (forward : 0 ≤ w) : span x w = Set.Ico x (x + w) := by
  have below : x ≤ x + w := le_add_of_nonneg_right forward
  rw [span, min_eq_left below, max_eq_right below]

theorem span_of_nonpos (x : α) {w : α} (backward : w ≤ 0) : span x w = Set.Ico (x + w) x := by
  have below : x + w ≤ x := add_le_of_nonpos_right backward
  rw [span, min_eq_right below, max_eq_left below]

theorem mem_place_nonneg {widths : List α} (forward : ∀ w ∈ widths, 0 ≤ w) {x : α} {b : α × α}
    (member : b ∈ place x widths) : x ≤ b.1 ∧ 0 ≤ b.2 := by
  induction widths generalizing x with
  | nil => cases member
  | cons w rest ih =>
    obtain ⟨first, rest⟩ := List.forall_mem_cons.mp forward
    rcases List.mem_cons.mp member with rfl | member
    · exact ⟨le_rfl, first⟩
    · obtain ⟨above, width⟩ := ih rest member
      exact ⟨(le_add_of_nonneg_right first).trans above, width⟩

theorem mem_place_nonpos {widths : List α} (backward : ∀ w ∈ widths, w ≤ 0) {x : α} {b : α × α}
    (member : b ∈ place x widths) : b.1 ≤ x ∧ b.2 ≤ 0 := by
  induction widths generalizing x with
  | nil => cases member
  | cons w rest ih =>
    obtain ⟨first, rest⟩ := List.forall_mem_cons.mp backward
    rcases List.mem_cons.mp member with rfl | member
    · exact ⟨le_rfl, first⟩
    · obtain ⟨below, width⟩ := ih rest member
      exact ⟨below.trans (add_le_of_nonpos_right first), width⟩

theorem apart_of_pos {x w : α} {b : α × α} (forward : 0 < w) (behind : x + w ≤ b.1)
    (width : 0 ≤ b.2) : Apart (x, w) b := by
  refine ⟨((lt_add_of_pos_right x forward).trans_le behind).ne, ?_⟩
  rw [span_of_nonneg x forward.le, span_of_nonneg b.1 width]
  exact Set.Ico_disjoint_Ico.mpr ((min_le_left _ _).trans (behind.trans (le_max_right _ _)))

theorem apart_of_neg {x w : α} {b : α × α} (backward : w < 0) (ahead : b.1 ≤ x + w)
    (width : b.2 ≤ 0) : Apart (x, w) b := by
  refine ⟨(ahead.trans_lt (add_lt_of_neg_right x backward)).ne', ?_⟩
  rw [span_of_nonpos x backward.le, span_of_nonpos b.1 width]
  exact Set.Ico_disjoint_Ico.mpr ((min_le_right _ _).trans (ahead.trans (le_max_left _ _)))

/-- A span and the next one: the width moves on, and the next does not turn back. -/
theorem Apart.next {x w v : α} (apart : Apart (x, w) (x + w, v)) :
    w ≠ 0 ∧ (0 < w → 0 ≤ v) ∧ (w < 0 → v ≤ 0) := by
  obtain ⟨distinct, disjoint⟩ := apart
  refine ⟨?_, fun forward => ?_, fun backward => ?_⟩
  · rintro rfl
    simp at distinct
  · by_contra! turns
    rw [span_of_nonneg x forward.le, span_of_nonpos (x + w) turns.le] at disjoint
    have short : max x (x + w + v) < x + w :=
      max_lt (lt_add_of_pos_right x forward) (add_lt_of_neg_right (x + w) turns)
    have inside : max x (x + w + v) ∈ Set.Ico x (x + w) := ⟨le_max_left _ _, short⟩
    exact Set.disjoint_left.mp disjoint inside ⟨le_max_right _ _, short⟩
  · by_contra! turns
    rw [span_of_nonpos x backward.le, span_of_nonneg (x + w) turns.le] at disjoint
    have inside : x + w ∈ Set.Ico (x + w) x := ⟨le_rfl, add_lt_of_neg_right x backward⟩
    exact Set.disjoint_left.mp disjoint inside ⟨le_rfl, lt_add_of_pos_right (x + w) turns⟩

theorem pairwise_apart {x : α} {widths : List α} (moves : ∀ w ∈ widths.dropLast, w ≠ 0)
    (oneWay : OneWay widths) : (place x widths).Pairwise Apart := by
  induction widths generalizing x with
  | nil => exact .nil
  | cons w rest ih =>
    cases rest with
    | nil => exact List.pairwise_singleton _ _
    | cons v rest =>
      obtain ⟨first, moves⟩ := List.forall_mem_cons.mp moves
      have later : OneWay (v :: rest) := oneWay.imp (fun all => (List.forall_mem_cons.mp all).2)
        fun all => (List.forall_mem_cons.mp all).2
      refine List.pairwise_cons.mpr ⟨fun b member => ?_, ih moves later⟩
      rcases oneWay with all | all
      · obtain ⟨forward, all⟩ := List.forall_mem_cons.mp all
        obtain ⟨behind, width⟩ := mem_place_nonneg all member
        exact apart_of_pos (lt_of_le_of_ne forward (Ne.symm first)) behind width
      · obtain ⟨backward, all⟩ := List.forall_mem_cons.mp all
        obtain ⟨ahead, width⟩ := mem_place_nonpos all member
        exact apart_of_neg (lt_of_le_of_ne backward first) ahead width

theorem moves_oneWay {x : α} {widths : List α} (apart : (place x widths).Pairwise Apart) :
    (∀ w ∈ widths.dropLast, w ≠ 0) ∧ OneWay widths := by
  induction widths generalizing x with
  | nil => exact ⟨by simp, .inl (by simp)⟩
  | cons w rest ih =>
    cases rest with
    | nil =>
      refine ⟨by simp, ?_⟩
      rw [OneWay, List.forall_mem_singleton, List.forall_mem_singleton]
      exact le_total 0 w
    | cons v rest =>
      obtain ⟨here, later⟩ := List.pairwise_cons.mp apart
      obtain ⟨moves, oneWay⟩ := ih later
      obtain ⟨first, forward, backward⟩ := (here _ List.mem_cons_self).next
      refine ⟨List.forall_mem_cons.mpr ⟨first, moves⟩, ?_⟩
      -- A next width of zero has no sign, but is then the last one.
      have last (zero : v = 0) : rest = [] := by
        by_contra more
        rw [List.dropLast_cons_of_ne_nil more] at moves
        exact moves v List.mem_cons_self zero
      rcases lt_or_gt_of_ne first with negative | positive
      · refine .inr (List.forall_mem_cons.mpr ⟨negative.le, ?_⟩)
        refine oneWay.elim (fun all => ?_) id
        have zero := le_antisymm (backward negative) (all v List.mem_cons_self)
        simp [last zero, zero]
      · refine .inl (List.forall_mem_cons.mpr ⟨positive.le, ?_⟩)
        refine oneWay.elim id fun all => ?_
        have zero := le_antisymm (all v List.mem_cons_self) (forward positive)
        simp [last zero, zero]

theorem pairwise_apart_iff (x : α) (widths : List α) :
    (place x widths).Pairwise Apart ↔ (∀ w ∈ widths.dropLast, w ≠ 0) ∧ OneWay widths :=
  ⟨moves_oneWay, fun ⟨moves, oneWay⟩ => pairwise_apart moves oneWay⟩

end Spans
