import Mathlib.Data.Set.Basic
import Mathlib.Logic.Relation

/-! A set from which parts are taken away and given back. Whoever takes a part has noted it
before, so that what is there and what is noted make up the whole at any time, and giving
back all that is noted restores it. -/

structure Loan (α : Type*) where
  present : Set α
  noted : Set α

namespace Loan

variable {α : Type*}

def whole (l : Loan α) : Set α := l.present ∪ l.noted

/-- A part is noted while it is there, taken when it is noted, and given back, all of it or
only some. -/
inductive Moves (l : Loan α) : Loan α → Prop where
  | note (part : Set α) : part ⊆ l.present → Moves l ⟨l.present, l.noted ∪ part⟩
  | take (part : Set α) : part ⊆ l.noted → Moves l ⟨l.present \ part, l.noted⟩
  | giveBack (part : Set α) : part ⊆ l.noted → Moves l ⟨l.present ∪ part, l.noted⟩

variable {l m : Loan α}

theorem Moves.whole_eq (moves : Moves l m) : m.whole = l.whole := by
  cases moves with
  | note part within =>
    change l.present ∪ (l.noted ∪ part) = l.present ∪ l.noted
    rw [← Set.union_assoc]
    exact Set.union_eq_left.mpr (within.trans Set.subset_union_left)
  | take part within =>
    change l.present \ part ∪ l.noted = l.present ∪ l.noted
    ext a
    by_cases member : a ∈ part
    · simp [within member]
    · simp [member]
  | giveBack part within =>
    change l.present ∪ part ∪ l.noted = l.present ∪ l.noted
    rw [Set.union_assoc, Set.union_eq_right.mpr within]

theorem whole_of_moves (moved : Relation.ReflTransGen Moves l m) : m.whole = l.whole := by
  induction moved with
  | refl => rfl
  | tail _ last ih => rw [last.whole_eq, ih]

/-- What is there after everything noted has been given back. -/
theorem restored (moved : Relation.ReflTransGen Moves l m) (settled : l.noted = ∅) :
    m.present ∪ m.noted = l.present := by
  have same := whole_of_moves moved
  rw [whole, whole, settled, Set.union_empty] at same
  exact same

end Loan
