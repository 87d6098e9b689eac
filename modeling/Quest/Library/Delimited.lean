import Mathlib.Data.List.Basic
import Mathlib.Data.Set.Basic

/-! Lists cut into units by start codes. A list that begins with a code and in which no
code is followed directly by another one or by the end is a sequence of filled units. -/
namespace Delimited

variable {α : Type*} {codes : Set (List α)}

def Begins (codes : Set (List α)) (l : List α) : Prop := ∃ code ∈ codes, code <+: l

/-- No code begins within the body, also not one that reaches into what follows. -/
def Inside (codes : Set (List α)) (body rest : List α) : Prop :=
  ∀ k < body.length, ¬Begins codes ((body ++ rest).drop k)

/-- A code and a filled body, then nothing or the next unit. -/
inductive Units (codes : Set (List α)) : List α → Prop
  | last {code body : List α} (known : code ∈ codes) (filled : body ≠ [])
      (inside : Inside codes body []) : Units codes (code ++ body)
  | more {code body rest : List α} (known : code ∈ codes) (filled : body ≠ [])
      (inside : Inside codes body rest) (units : Units codes rest) :
      Units codes (code ++ (body ++ rest))

def HasEmpty (codes : Set (List α)) (l : List α) : Prop :=
  ∃ before code after, l = before ++ (code ++ after) ∧ code ∈ codes ∧
    (after = [] ∨ Begins codes after)

theorem HasEmpty.prepend {l : List α} (empty : HasEmpty codes l) (front : List α) :
    HasEmpty codes (front ++ l) := by
  obtain ⟨before, code, after, rfl, known, ends⟩ := empty
  exact ⟨front ++ before, code, after, by rw [List.append_assoc], known, ends⟩

/-- Every list runs up to its first code. -/
theorem exists_inside (codes : Set (List α)) (l : List α) :
    ∃ body rest, l = body ++ rest ∧ Inside codes body rest ∧ (rest = [] ∨ Begins codes rest) := by
  induction l with
  | nil => exact ⟨[], [], rfl, by simp [Inside], .inl rfl⟩
  | cons a l ih =>
    by_cases here : Begins codes (a :: l)
    · exact ⟨[], a :: l, rfl, by simp [Inside], .inr here⟩
    · obtain ⟨body, rest, rfl, inside, ends⟩ := ih
      refine ⟨a :: body, rest, rfl, ?_, ends⟩
      intro k below
      cases k with
      | zero => exact here
      | succ k => exact inside k (by simpa using below)

theorem units_of_begins (filled : ∀ code ∈ codes, code ≠ []) {l : List α}
    (begins : Begins codes l) (full : ¬HasEmpty codes l) : Units codes l := by
  induction long : l.length using Nat.strong_induction_on generalizing l with
  | h n ih =>
    obtain ⟨code, known, l, rfl⟩ := begins
    obtain ⟨body, rest, rfl, inside, ends⟩ := exists_inside codes l
    have bodyFilled : body ≠ [] := by
      rintro rfl
      exact full ⟨[], code, rest, rfl, known, ends⟩
    rcases ends with rfl | begins
    · rw [List.append_nil]
      exact .last known bodyFilled inside
    · have shorter : rest.length < n := by
        have := List.length_pos_of_ne_nil (filled code known)
        simp only [List.length_append] at long
        omega
      refine .more known bodyFilled inside (ih _ shorter begins (fun empty => full ?_) rfl)
      rw [← List.append_assoc]
      exact empty.prepend _

end Delimited
