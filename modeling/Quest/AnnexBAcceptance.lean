import Quest.AnnexBRepair
import Quest.Library.Delimited

/-! Which byte vectors `prepareAnnexB` takes for Annex-B. Emptiness is tested against the
end of the vector only, and only behind a start code of four bytes. -/
namespace Quest

open Delimited (Begins HasEmpty Units)

def startCodes : Set (List UInt8) := {[0, 0, 1], [0, 0, 0, 1]}

theorem mem_startCodes {code : List UInt8} :
    code ∈ startCodes ↔ code = [0, 0, 1] ∨ code = [0, 0, 0, 1] := Iff.rfl

theorem NalUnit.code_mem (u : NalUnit) : u.code ∈ startCodes := by
  rw [mem_startCodes]
  cases long : u.long
  · exact .inl (by simp [NalUnit.code, long])
  · exact .inr (by simp [NalUnit.code, long])

theorem StartsAnnexB.begins {au : List UInt8} (starts : StartsAnnexB au) :
    Begins startCodes au := by
  obtain ⟨u, rest, _, rfl⟩ := starts
  exact ⟨u.code, u.code_mem, List.prefix_append _ _⟩

/-- The scan throws where the vector ends in a code of four bytes, which no earlier code
can hide from it. -/
theorem findNals_error_iff (i : Nat) (l : List UInt8) :
    findNals i l = .error "Empty H264 NAL" ↔ [0, 0, 0, 1] <:+ l := by
  fun_induction findNals i l with
  | case1 i a b c d rest short ih =>
    obtain ⟨rfl, rfl, rfl⟩ := short
    have later : [0, 0, 0, 1] <:+ 0 :: 0 :: 1 :: d :: rest ↔ [0, 0, 0, 1] <:+ d :: rest := by
      constructor
      · simp only [List.suffix_cons_iff]
        simp
      · exact fun ends => ends.trans (List.suffix_append [0, 0, 1] _)
    rw [later, ← ih]
    cases findNals (i + 3) (d :: rest) <;> simp [Except.map]
  | case2 i a b c d _ long =>
    obtain ⟨rfl, rfl, rfl, rfl⟩ := long
    simp
  | case3 i a b c d rest _ long filled ih =>
    obtain ⟨rfl, rfl, rfl, rfl⟩ := long
    have later : [0, 0, 0, 1] <:+ 0 :: 0 :: 0 :: 1 :: rest ↔ [0, 0, 0, 1] <:+ rest := by
      constructor
      · simp only [List.suffix_cons_iff]
        simp [Ne.symm filled]
      · exact fun ends => ends.trans (List.suffix_append [0, 0, 0, 1] _)
    rw [later, ← ih]
    cases findNals (i + 4) rest <;> simp [Except.map]
  | case4 i a b c d rest short long ih =>
    rw [ih, List.suffix_cons_iff (a := a)]
    refine (or_iff_right ?_).symm
    rintro ⟨⟩
    simp at long
  | case5 l i short =>
    have below := length_lt_four short
    refine iff_of_false (by simp) fun ends => ?_
    have := ends.length_le
    simp at this
    omega

theorem prepareAnnexB_empty_iff (au : List UInt8) (sets : ParameterSets) :
    (prepareAnnexB au sets).2 = .error "Empty H264 NAL" ↔ [0, 0, 0, 1] <:+ au := by
  rw [← findNals_error_iff 0]
  simp only [prepareAnnexB]
  cases found : findNals 0 au with
  | error message => simp
  | ok nals =>
    dsimp only
    split
    · simp
    split
    · simp
    split
    · simp
    split <;> simp

theorem prepareAnnexB_ok_starts {au : List UInt8} {sets : ParameterSets} {result : Bool × List UInt8}
    (returned : (prepareAnnexB au sets).2 = .ok result) : StartsAnnexB au := by
  simp only [prepareAnnexB] at returned
  cases found : findNals 0 au with
  | error message => simp [found] at returned
  | ok nals =>
    rw [found] at returned
    by_cases starts : nals.head?.map Nal.start = some 0
    · exact (findNals_starts found).mp starts
    · simp [starts] at returned

/-- What is returned consists of filled units, and an empty unit is reported as such. -/
def AcceptsAnnexB (au : List UInt8) (sets : ParameterSets) : Prop :=
  ((∃ result, (prepareAnnexB au sets).2 = .ok result) → Units startCodes au) ∧
    (HasEmpty startCodes au → (prepareAnnexB au sets).2 = .error "Empty H264 NAL")

/-- An empty unit is noticed exactly when a code of four bytes ends the vector. -/
theorem acceptsAnnexB_iff (au : List UInt8) (sets : ParameterSets) :
    AcceptsAnnexB au sets ↔ (HasEmpty startCodes au → [0, 0, 0, 1] <:+ au) := by
  rw [AcceptsAnnexB, prepareAnnexB_empty_iff, and_iff_right_iff_imp]
  rintro noticed ⟨result, returned⟩
  refine Delimited.units_of_begins ?_ (prepareAnnexB_ok_starts returned).begins ?_
  · rintro code (rfl | rfl) <;> simp
  · intro empty
    have thrown := (prepareAnnexB_empty_iff au sets).mpr (noticed empty)
    simp [thrown] at returned

/-- Two codes of three bytes follow each other directly, and the slice behind them is
returned. -/
theorem empty_unit_accepted :
    ¬∀ (au : List UInt8) (sets : ParameterSets), AcceptsAnnexB au sets := by
  intro accepts
  have empty : HasEmpty startCodes [0, 0, 1, 0, 0, 1, 0x41, 42] :=
    ⟨[], [0, 0, 1], [0, 0, 1, 0x41, 42], rfl, .inl rfl, .inr ⟨[0, 0, 1], .inl rfl, by simp⟩⟩
  have rejected := (accepts [0, 0, 1, 0, 0, 1, 0x41, 42] ⟨[], []⟩).2 empty
  revert rejected
  decide

end Quest
