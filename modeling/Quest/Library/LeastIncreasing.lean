import Mathlib.Data.List.Chain
import Mathlib.Data.List.Forall2
import Mathlib.Order.SuccPred.Basic

/-! The greedy repair of a sequence of requests: each value is the request where that lies
above the value before it, and the successor of that one elsewhere. It is the pointwise least
strictly increasing sequence that reaches every request. -/
namespace LeastIncreasing

open Order

variable {α : Type*} [LinearOrder α]

structure Meets (last : α) (requests values : List α) : Prop where
  increasing : (last :: values).IsChain (· < ·)
  reaches : List.Forall₂ (· ≤ ·) requests values

theorem Meets.nil (last : α) : Meets last [] [] := ⟨.singleton last, .nil⟩

theorem meets_cons {last request value : α} {requests values : List α} :
    Meets last (request :: requests) (value :: values) ↔
      last < value ∧ request ≤ value ∧ Meets value requests values := by
  constructor
  · rintro ⟨increasing, reaches⟩
    obtain ⟨above, increasing⟩ := List.isChain_cons_cons.mp increasing
    obtain ⟨reached, reaches⟩ := List.forall₂_cons.mp reaches
    exact ⟨above, reached, increasing, reaches⟩
  · rintro ⟨above, reached, increasing, reaches⟩
    exact ⟨List.isChain_cons_cons.mpr ⟨above, increasing⟩, .cons reached reaches⟩

variable [SuccOrder α]

def repair (last : α) : List α → List α
  | [] => []
  | request :: rest => max request (succ last) :: repair (max request (succ last)) rest

theorem repair_meets [NoMaxOrder α] (last : α) (requests : List α) :
    Meets last requests (repair last requests) := by
  induction requests generalizing last with
  | nil => exact .nil last
  | cons request rest ih =>
    exact meets_cons.mpr ⟨lt_max_of_lt_right (lt_succ last), le_max_left _ _, ih _⟩

/-- A lower start leaves room for lower values. -/
theorem repair_le {low last : α} (below : low ≤ last) {requests values : List α}
    (meets : Meets last requests values) : List.Forall₂ (· ≤ ·) (repair low requests) values := by
  induction requests generalizing low last values with
  | nil =>
    obtain rfl := List.forall₂_nil_left_iff.mp meets.reaches
    exact .nil
  | cons request rest ih =>
    cases values with
    | nil => cases meets.reaches
    | cons value values =>
      obtain ⟨above, reached, meets⟩ := meets_cons.mp meets
      have least : max request (succ low) ≤ value :=
        max_le reached (succ_le_of_lt (below.trans_lt above))
      exact .cons least (ih least meets)

def IsLeast (last : α) (requests values : List α) : Prop :=
  Meets last requests values ∧
    ∀ other, Meets last requests other → List.Forall₂ (· ≤ ·) values other

theorem repair_isLeast [NoMaxOrder α] (last : α) (requests : List α) :
    IsLeast last requests (repair last requests) :=
  ⟨repair_meets last requests, fun _ => repair_le le_rfl⟩

end LeastIncreasing
