import Mathlib.Data.List.Basic

/-! Lists that grow at the end and whose marked elements form one unbroken run. -/
namespace Segment

variable {α : Type*} {mark first : α → Prop}

def Unmarked (mark : α → Prop) (l : List α) : Prop := ∀ x ∈ l, ¬mark x

/-- The marked elements are contiguous, and the earliest of them satisfies `first`. -/
def Contiguous (mark first : α → Prop) (l : List α) : Prop :=
  ∃ before segment after, l = before ++ segment ++ after ∧ Unmarked mark before ∧
    Unmarked mark after ∧ (∀ x ∈ segment, mark x) ∧ ∀ x, segment.head? = some x → first x

def Growing (mark first : α → Prop) (l : List α) : Prop :=
  ∃ before start segment, l = before ++ start :: segment ∧ Unmarked mark before ∧
    (∀ x ∈ start :: segment, mark x) ∧ first start

theorem unmarked_nil : Unmarked mark [] := by simp [Unmarked]

theorem Unmarked.append {l rest : List α} (left : Unmarked mark l) (right : Unmarked mark rest) :
    Unmarked mark (l ++ rest) := by
  intro x member
  exact (List.mem_append.mp member).elim (left x) (right x)

theorem Unmarked.contiguous {l : List α} (unmarked : Unmarked mark l) :
    Contiguous mark first l :=
  ⟨l, [], [], by simp, unmarked, unmarked_nil, by simp, by simp⟩

theorem Growing.contiguous {l : List α} (growing : Growing mark first l) :
    Contiguous mark first l := by
  obtain ⟨before, start, segment, rfl, unmarked, marked, starts⟩ := growing
  refine ⟨before, start :: segment, [], by simp, unmarked, unmarked_nil, marked, ?_⟩
  rintro x ⟨⟩
  exact starts

theorem Unmarked.start {l : List α} {x : α} (unmarked : Unmarked mark l) (marked : mark x)
    (starts : first x) : Growing mark first (l ++ [x]) :=
  ⟨l, x, [], rfl, unmarked, by simpa using marked, starts⟩

theorem Growing.grow {l : List α} {x : α} (growing : Growing mark first l) (fresh : mark x) :
    Growing mark first (l ++ [x]) := by
  obtain ⟨before, start, segment, rfl, unmarked, marked, starts⟩ := growing
  refine ⟨before, start, segment ++ [x], by simp, unmarked, ?_, starts⟩
  intro y member
  rw [← List.cons_append, List.mem_append, List.mem_singleton] at member
  rcases member with member | rfl
  · exact marked y member
  · exact fresh

theorem Contiguous.append {l rest : List α} (contiguous : Contiguous mark first l)
    (unmarked : Unmarked mark rest) : Contiguous mark first (l ++ rest) := by
  obtain ⟨before, segment, after, rfl, left, right, marked, starts⟩ := contiguous
  exact ⟨before, segment, after ++ rest, by simp, left, right.append unmarked, marked, starts⟩

/-- The run is what filtering for the marks leaves. -/
theorem filter_run [DecidablePred mark] {before segment after : List α}
    (left : Unmarked mark before) (right : Unmarked mark after) (marked : ∀ x ∈ segment, mark x) :
    (before ++ segment ++ after).filter mark = segment := by
  have drops {l : List α} (unmarked : Unmarked mark l) : l.filter mark = [] :=
    List.filter_eq_nil_iff.mpr fun x member => by simpa using unmarked x member
  rw [List.filter_append, List.filter_append, drops left, drops right,
    List.filter_eq_self.mpr fun x member => by simpa using marked x member]
  simp

end Segment
