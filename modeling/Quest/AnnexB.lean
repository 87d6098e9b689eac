import Mathlib.Data.List.Basic
import Mathlib.Data.UInt

/-! `prepareAnnexB`: the start-code scan, the parameter-set cache and the repair of
access units whose IDR came without SPS or PPS. An accepted access unit is a sequence
of units none of which contains a start code of its own. -/
namespace Quest

/-- Positions of a start code and of the byte after it. -/
structure Nal where
  start : Nat
  header : Nat
  deriving DecidableEq, Repr

/-- The scan from position `i`. It looks at four bytes at a time, so that it ends before
the last three. -/
def findNals : Nat → List UInt8 → Except String (List Nal)
  | i, a :: b :: c :: d :: rest =>
    if a = 0 ∧ b = 0 ∧ c = 1 then (findNals (i + 3) (d :: rest)).map (⟨i, i + 3⟩ :: ·)
    else if a = 0 ∧ b = 0 ∧ c = 0 ∧ d = 1 then
      if rest = [] then .error "Empty H264 NAL"
      else (findNals (i + 4) rest).map (⟨i, i + 4⟩ :: ·)
    else findNals (i + 1) (b :: c :: d :: rest)
  | _, _ => .ok []

structure ParameterSets where
  sps : List UInt8
  pps : List UInt8
  deriving DecidableEq, Repr

structure Contents where
  sets : ParameterSets
  idr : Bool
  hasSps : Bool
  hasPps : Bool
  vcl : Bool
  deriving DecidableEq, Repr

def Contents.add (c : Contents) (type : UInt8) (bytes : List UInt8) : Contents where
  sets := if type = 7 then { c.sets with sps := bytes }
    else if type = 8 then { c.sets with pps := bytes } else c.sets
  idr := c.idr || type == 5
  hasSps := c.hasSps || type == 7
  hasPps := c.hasPps || type == 8
  vcl := c.vcl || type == 1 || type == 5

def Contents.fresh (sets : ParameterSets) : Contents := ⟨sets, false, false, false, false⟩

def slice (au : List UInt8) (start stop : Nat) : List UInt8 := (au.drop start).take (stop - start)

/-- A unit ends where the next one starts, the last one with the access unit. -/
def readNals (au : List UInt8) : List Nal → Contents → Contents
  | [], c => c
  | nal :: rest, c =>
    readNals au rest (c.add (au.getD nal.header 0 &&& 31)
      (slice au nal.start (rest.head?.elim au.length Nal.start)))

/-- The caches are updated also when the access unit is rejected afterwards. -/
def prepareAnnexB (au : List UInt8) (sets : ParameterSets) :
    ParameterSets × Except String (Bool × List UInt8) :=
  match findNals 0 au with
  | .error message => (sets, .error message)
  | .ok nals =>
    if nals.head?.map Nal.start ≠ some 0 then
      (sets, .error "Hardware encoder did not emit Annex-B")
    else
      let c := readNals au nals (.fresh sets)
      if c.vcl = false then (c.sets, .error "Hardware packet contains no H264 picture")
      else if c.idr = false then (c.sets, .ok (false, au))
      else if c.sets.sps = [] ∨ c.sets.pps = [] then (c.sets, .error "IDR lacks SPS/PPS")
      else
        (c.sets, .ok (true, (if c.hasSps then [] else c.sets.sps) ++
          (if c.hasPps then [] else c.sets.pps) ++ au))

def IsIdr (data : List UInt8) : Prop :=
  ∃ nals, findNals 0 data = .ok nals ∧ ∃ nal ∈ nals, data.getD nal.header 0 &&& 31 = 5

instance (data : List UInt8) : Decidable (IsIdr data) :=
  match found : findNals 0 data with
  | .error _ => isFalse (by simp [IsIdr, found])
  | .ok nals => decidable_of_iff (∃ nal ∈ nals, data.getD nal.header 0 &&& 31 = 5)
      (by simp [IsIdr, found])

/-- A start code with at least one byte after its first three. -/
def StartsCode : List UInt8 → Prop
  | a :: b :: c :: d :: _ => a = 0 ∧ b = 0 ∧ c = 1 ∨ a = 0 ∧ b = 0 ∧ c = 0 ∧ d = 1
  | _ => False

/-- No start code begins inside, whatever the bytes of the list. -/
def Quiet : List UInt8 → Prop
  | [] => True
  | a :: rest => ¬StartsCode (a :: rest) ∧ Quiet rest

/-- A start code of either length and the bytes up to the next one. -/
structure NalUnit where
  long : Bool
  body : List UInt8
  quiet : Quiet body

namespace NalUnit

def code (u : NalUnit) : List UInt8 := if u.long then [0, 0, 0, 1] else [0, 0, 1]

def bytes (u : NalUnit) : List UInt8 := u.code ++ u.body

/-- The header byte of an empty unit is the first byte of the next start code. -/
def type (u : NalUnit) : UInt8 := u.body.headD 0 &&& 31

def all (units : List NalUnit) : List UInt8 := units.flatMap bytes

@[simp] theorem all_nil : all [] = [] := rfl

@[simp] theorem all_cons (u : NalUnit) (units : List NalUnit) :
    all (u :: units) = u.code ++ (u.body ++ all units) := by
  simp [all, bytes]

theorem all_append (first rest : List NalUnit) : all (first ++ rest) = all first ++ all rest :=
  List.flatMap_append

def positions : Nat → List NalUnit → List Nal
  | _, [] => []
  | i, u :: rest => ⟨i, i + u.code.length⟩ :: positions (i + u.bytes.length) rest

theorem head_code (u : NalUnit) (rest : List UInt8) : (u.code ++ rest).headD 0 = 0 := by
  cases long : u.long <;> simp [code, long]

theorem head_all (units : List NalUnit) : (all units).headD 0 = 0 := by
  cases units with
  | nil => rfl
  | cons u rest => rw [all_cons, head_code]

end NalUnit

open NalUnit

theorem Quiet.cons {a b c d : UInt8} {rest tail body : List UInt8}
    (quiet : Quiet body) (whole : b :: c :: d :: rest = body ++ tail)
    (short : ¬(a = 0 ∧ b = 0 ∧ c = 1)) (long : ¬(a = 0 ∧ b = 0 ∧ c = 0 ∧ d = 1)) :
    Quiet (a :: body) := by
  refine ⟨?_, quiet⟩
  rcases body with _ | ⟨b', _ | ⟨c', _ | ⟨d', body⟩⟩⟩
  · simp [StartsCode]
  · simp [StartsCode]
  · simp [StartsCode]
  · simp only [List.cons_append, List.cons.injEq] at whole
    obtain ⟨rfl, rfl, rfl, _⟩ := whole
    simp only [StartsCode]
    tauto

theorem quiet_of_short {l : List UInt8} (short : l.length < 4) : Quiet l := by
  rcases l with _ | ⟨a, _ | ⟨b, _ | ⟨c, _ | ⟨d, l⟩⟩⟩⟩
  · simp [Quiet]
  · simp [Quiet, StartsCode]
  · simp [Quiet, StartsCode]
  · simp [Quiet, StartsCode]
  · simp only [List.length_cons] at short; omega

/-- A list is shorter than the scan's window if it does not begin with four bytes. -/
theorem length_lt_four {l : List UInt8}
    (short : ∀ a b c d rest, l = a :: b :: c :: d :: rest → False) : l.length < 4 := by
  rcases l with _ | ⟨a, _ | ⟨b, _ | ⟨c, _ | ⟨d, l⟩⟩⟩⟩
  · simp
  · simp
  · simp
  · simp
  · exact absurd rfl (short a b c d l)

/-- The scan splits its input at the start codes. -/
theorem findNals_units {i : Nat} {l : List UInt8} {nals : List Nal}
    (found : findNals i l = .ok nals) :
    ∃ skipped units, Quiet skipped ∧ l = skipped ++ all units ∧
      nals = positions (i + skipped.length) units := by
  fun_induction findNals i l generalizing nals with
  | case1 i a b c d rest short ih =>
    obtain ⟨rfl, rfl, rfl⟩ := short
    cases later : findNals (i + 3) (d :: rest) with
    | error message => simp [later, Except.map] at found
    | ok nals' =>
      obtain ⟨body, units, quiet, whole, rfl⟩ := ih later
      simp only [later, Except.map, Except.ok.injEq] at found
      refine ⟨[], ⟨false, body, quiet⟩ :: units, trivial, ?_, ?_⟩
      · simp [NalUnit.code, whole]
      · simp [← found, positions, NalUnit.code, NalUnit.bytes, Nat.add_assoc, Nat.add_comm 3]
  | case2 i a b c d _ long => simp at found
  | case3 i a b c d rest _ long _ ih =>
    obtain ⟨rfl, rfl, rfl, rfl⟩ := long
    cases later : findNals (i + 4) rest with
    | error message => simp [later, Except.map] at found
    | ok nals' =>
      obtain ⟨body, units, quiet, whole, rfl⟩ := ih later
      simp only [later, Except.map, Except.ok.injEq] at found
      refine ⟨[], ⟨true, body, quiet⟩ :: units, trivial, ?_, ?_⟩
      · simp [NalUnit.code, whole]
      · simp [← found, positions, NalUnit.code, NalUnit.bytes, Nat.add_assoc, Nat.add_comm 4]
  | case4 i a b c d rest short long ih =>
    obtain ⟨body, units, quiet, whole, rfl⟩ := ih found
    refine ⟨a :: body, units, quiet.cons whole short long, by simp [← whole], ?_⟩
    simp only [List.length_cons]
    congr 1
    omega
  | case5 l i short =>
    cases found
    exact ⟨l, [], quiet_of_short (length_lt_four short), by simp, rfl⟩

theorem getD_append_head (before rest : List UInt8) :
    (before ++ rest).getD before.length 0 = rest.headD 0 := by
  rw [List.getD_eq_getElem?_getD, List.getElem?_append_right le_rfl, Nat.sub_self,
    List.headD_eq_head?_getD, List.head?_eq_getElem?]

theorem header_type {au before : List UInt8} {u : NalUnit} {rest : List NalUnit}
    (whole : au = before ++ all (u :: rest)) :
    au.getD (before.length + u.code.length) 0 &&& 31 = u.type := by
  have header : au.getD (before.length + u.code.length) 0 = (u.body ++ all rest).headD 0 := by
    rw [whole, all_cons, ← List.append_assoc, ← List.length_append]
    apply getD_append_head
  rw [header, NalUnit.type]
  cases u.body with
  | nil => rw [List.nil_append, head_all]; rfl
  | cons h body => rfl

theorem unit_slice {au before : List UInt8} {u : NalUnit} {rest : List NalUnit}
    (whole : au = before ++ all (u :: rest)) :
    slice au before.length
      ((positions (before.length + u.bytes.length) rest).head?.elim au.length Nal.start) =
        u.bytes := by
  have stop : (positions (before.length + u.bytes.length) rest).head?.elim au.length Nal.start =
      before.length + u.bytes.length := by
    cases rest with
    | nil => simp [whole, positions, NalUnit.bytes]
    | cons v rest => rfl
  rw [stop, slice, Nat.add_sub_cancel_left, whole, List.drop_left, all_cons, ← List.append_assoc]
  exact List.take_left

def Contents.addAll (c : Contents) (units : List NalUnit) : Contents :=
  units.foldl (fun c u => c.add u.type u.bytes) c

/-- The second loop sees each unit with its type and its bytes. -/
theorem readNals_units {au before : List UInt8} {units : List NalUnit} (c : Contents)
    (whole : au = before ++ all units) :
    readNals au (positions before.length units) c = c.addAll units := by
  induction units generalizing before c with
  | nil => rfl
  | cons u rest ih =>
    rw [positions, readNals, header_type whole, unit_slice whole, ← List.length_append]
    exact ih _ (by rw [whole, all_cons, NalUnit.bytes]; simp)

/-- A cached parameter set is empty or one unit of its type. -/
def CachedSet (type : UInt8) (set : List UInt8) : Prop :=
  set = [] ∨ ∃ u : NalUnit, u.type = type ∧ set = u.bytes

structure ParameterSets.Valid (sets : ParameterSets) : Prop where
  sps : CachedSet 7 sets.sps
  pps : CachedSet 8 sets.pps

structure Contents.Reports (c : Contents) (units : List NalUnit) : Prop where
  valid : c.sets.Valid
  idr : c.idr = true → ∃ u ∈ units, u.type = 5
  sps : c.hasSps = true → ∃ u ∈ units, u.type = 7
  pps : c.hasPps = true → ∃ u ∈ units, u.type = 8

theorem Contents.Reports.add {c : Contents} {seen : List NalUnit} (reports : c.Reports seen)
    (u : NalUnit) : (c.add u.type u.bytes).Reports (seen ++ [u]) where
  valid := by
    obtain ⟨sps, pps⟩ := reports.valid
    unfold Contents.add
    dsimp only
    split
    · exact ⟨.inr ⟨u, ‹_›, rfl⟩, pps⟩
    · split
      · exact ⟨sps, .inr ⟨u, ‹_›, rfl⟩⟩
      · exact ⟨sps, pps⟩
  idr := by
    intro found
    rcases Bool.or_eq_true_iff.mp found with before | here
    · obtain ⟨v, member, type⟩ := reports.idr before
      exact ⟨v, List.mem_append_left _ member, type⟩
    · exact ⟨u, by simp, by simpa using here⟩
  sps := by
    intro found
    rcases Bool.or_eq_true_iff.mp found with before | here
    · obtain ⟨v, member, type⟩ := reports.sps before
      exact ⟨v, List.mem_append_left _ member, type⟩
    · exact ⟨u, by simp, by simpa using here⟩
  pps := by
    intro found
    rcases Bool.or_eq_true_iff.mp found with before | here
    · obtain ⟨v, member, type⟩ := reports.pps before
      exact ⟨v, List.mem_append_left _ member, type⟩
    · exact ⟨u, by simp, by simpa using here⟩

theorem Contents.Reports.addAll {c : Contents} {seen : List NalUnit} (reports : c.Reports seen)
    (units : List NalUnit) : (c.addAll units).Reports (seen ++ units) := by
  induction units generalizing c seen with
  | nil => simpa [Contents.addAll] using reports
  | cons u rest ih => simpa [Contents.addAll] using ih (reports.add u)

theorem Contents.fresh_reports {sets : ParameterSets} (valid : sets.Valid) :
    (Contents.fresh sets).Reports [] :=
  ⟨valid, by simp [Contents.fresh], by simp [Contents.fresh], by simp [Contents.fresh]⟩

/-- Units of every type a decoder needs to start. -/
def Startable (units : List NalUnit) : Prop := ∀ type ∈ [5, 7, 8], ∃ u ∈ units, u.type = type

theorem CachedSet.repair {type : UInt8} {set : List UInt8} {units : List NalUnit} {has : Bool}
    (cached : CachedSet type set) (filled : set ≠ [])
    (reported : has = true → ∃ u ∈ units, u.type = type) :
    ∃ added : List NalUnit, (if has then [] else set) = all added ∧
      ∃ u ∈ added ++ units, u.type = type := by
  cases present : has with
  | true =>
    exact ⟨[], rfl, reported present⟩
  | false =>
    obtain ⟨u, same, rfl⟩ := cached.resolve_left filled
    exact ⟨[u], by simp [NalUnit.bytes], u, by simp, same⟩

/-- The cache stays valid, and an access unit returned as a keyframe can start a decoder. -/
theorem prepareAnnexB_spec (au : List UInt8) {sets : ParameterSets} (valid : sets.Valid) :
    (prepareAnnexB au sets).1.Valid ∧
      ∀ bytes, (prepareAnnexB au sets).2 = .ok (true, bytes) →
        ∃ units, bytes = all units ∧ Startable units := by
  unfold prepareAnnexB
  cases found : findNals 0 au with
  | error message => exact ⟨valid, by simp⟩
  | ok nals =>
    dsimp only
    split
    · exact ⟨valid, by simp⟩
    rename_i starts
    obtain ⟨skipped, units, _, whole, rfl⟩ := findNals_units found
    obtain rfl : skipped = [] := by
      cases units with
      | nil => simp [positions] at starts
      | cons u rest => simpa [positions] using starts
    have reports := (Contents.fresh_reports valid).addAll units
    have loop := readNals_units (.fresh sets) whole
    rw [Nat.zero_add, loop]
    generalize (Contents.fresh sets).addAll units = c at reports
    rw [List.nil_append] at reports whole
    split
    · exact ⟨reports.valid, by simp⟩
    split
    · exact ⟨reports.valid, by simp⟩
    rename_i idr
    split
    · exact ⟨reports.valid, by simp⟩
    rename_i filled
    obtain ⟨sps_filled, pps_filled⟩ := not_or.mp filled
    refine ⟨reports.valid, fun bytes result => ?_⟩
    obtain ⟨first, sps, firstType⟩ := reports.valid.sps.repair sps_filled reports.sps
    obtain ⟨second, pps, secondType⟩ := reports.valid.pps.repair pps_filled reports.pps
    obtain ⟨intra, member, type⟩ := reports.idr (by simpa using idr)
    refine ⟨first ++ second ++ units, ?_, ?_⟩
    · rw [all_append, all_append, ← sps, ← pps, ← whole]
      simp only [Except.ok.injEq, Prod.mk.injEq, true_and] at result
      exact result.symm
    · intro wanted which
      rw [List.append_assoc]
      simp only [List.mem_cons, List.not_mem_nil, or_false] at which
      rcases which with rfl | rfl | rfl
      · exact ⟨intra, by simp [member], type⟩
      · obtain ⟨u, present, same⟩ := firstType
        exact ⟨u, by simp only [List.mem_append] at present ⊢; tauto, same⟩
      · obtain ⟨u, present, same⟩ := secondType
        exact ⟨u, by simp only [List.mem_append] at present ⊢; tauto, same⟩

theorem readNals_idr {au : List UInt8} {nals : List Nal} {c : Contents}
    (found : c.idr = true ∨ ∃ nal ∈ nals, au.getD nal.header 0 &&& 31 = 5) :
    (readNals au nals c).idr = true := by
  induction nals generalizing c with
  | nil => simpa [readNals] using found
  | cons nal rest ih =>
    apply ih
    rcases found with before | ⟨other, member, type⟩
    · exact .inl (by simp [Contents.add, before])
    · rcases List.mem_cons.mp member with rfl | member
      · exact .inl (by rw [type]; simp [Contents.add])
      · exact .inr ⟨other, member, type⟩

/-- An access unit with an IDR picture is returned as a keyframe or not at all. -/
theorem prepareAnnexB_idr {au bytes : List UInt8} {sets : ParameterSets} {keyframe : Bool}
    (idr : IsIdr au) (prepared : (prepareAnnexB au sets).2 = .ok (keyframe, bytes)) :
    keyframe = true := by
  obtain ⟨nals, found, intra⟩ := idr
  have reported := readNals_idr (c := .fresh sets) (.inr intra)
  unfold prepareAnnexB at prepared
  simp only [found] at prepared
  split at prepared
  · contradiction
  split at prepared
  · contradiction
  rw [if_neg (by simp [reported])] at prepared
  split at prepared
  · contradiction
  · simp only [Except.ok.injEq, Prod.mk.injEq] at prepared
    exact prepared.1.symm

end Quest
