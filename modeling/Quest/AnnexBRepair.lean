import Quest.AnnexB
import Quest.Receiver

/-! What `prepareAnnexB` makes of a keyframe. Scanning the bytes behind a spliced parameter
set finds the same headers again, and at most a zero header where the set ended in a start
code of its own. -/
namespace Quest

open NalUnit

/-- The types of the units that the scan finds, none where it throws. -/
def nalTypes (au : List UInt8) : List UInt8 :=
  match findNals 0 au with
  | .error _ => []
  | .ok nals => nals.map fun nal => au.getD nal.header 0 &&& 31

/-- The scan as it reads a header at once, without positions. -/
def scanTypes : List UInt8 → Except String (List UInt8)
  | a :: b :: c :: d :: rest =>
    if a = 0 ∧ b = 0 ∧ c = 1 then (scanTypes (d :: rest)).map ((d &&& 31) :: ·)
    else if a = 0 ∧ b = 0 ∧ c = 0 ∧ d = 1 then
      if rest = [] then .error "Empty H264 NAL"
      else (scanTypes rest).map ((rest.headD 0 &&& 31) :: ·)
    else scanTypes (b :: c :: d :: rest)
  | _ => .ok []

theorem findNals_short (i : Nat) {l : List UInt8} (short : l.length < 4) :
    findNals i l = .ok [] := by
  match l, short with
  | [], _ | [_], _ | [_, _], _ | [_, _, _], _ => rfl

theorem annexbTypes_short {l : List UInt8} (short : l.length < 4) :
    Receiver.annexbTypes l = [] := by
  match l, short with
  | [], _ | [_], _ | [_, _], _ | [_, _, _], _ => rfl

/-- Reading at the recorded positions gives what the scan saw there. -/
theorem findNals_types {au before l : List UInt8} (whole : au = before ++ l) :
    (findNals before.length l).map (fun nals => nals.map fun nal =>
      au.getD nal.header 0 &&& 31) = scanTypes l := by
  fun_induction scanTypes l generalizing before with
  | case1 a b c d rest short ih =>
    have later := ih (show au = (before ++ [a, b, c]) ++ d :: rest by simp [whole])
    have header : au.getD (before.length + 3) 0 = d := by
      simp [whole]
    simp only [List.length_append, List.length_cons, List.length_nil, Nat.zero_add] at later
    rw [findNals, if_pos short, ← later]
    cases findNals (before.length + 3) (d :: rest) with
    | error message => rfl
    | ok nals => simp only [Except.map, List.map_cons, header]
  | case2 a b c d short long =>
    rw [findNals, if_neg short, if_pos long, if_pos rfl]
    rfl
  | case3 a b c d rest short long filled ih =>
    have later := ih (show au = (before ++ [a, b, c, d]) ++ rest by simp [whole])
    have header : au.getD (before.length + 4) 0 = rest.headD 0 := by
      rw [whole]
      simpa using getD_append_head (before ++ [a, b, c, d]) rest
    simp only [List.length_append, List.length_cons, List.length_nil, Nat.zero_add] at later
    rw [findNals, if_neg short, if_pos long, if_neg filled, ← later]
    cases findNals (before.length + 4) rest with
    | error message => rfl
    | ok nals => simp only [Except.map, List.map_cons, header]
  | case4 a b c d rest short long ih =>
    have later := ih (show au = (before ++ [a]) ++ b :: c :: d :: rest by simp [whole])
    rw [findNals, if_neg short, if_neg long, ← later]
    simp
  | case5 l short =>
    rw [findNals_short before.length (length_lt_four short)]
    rfl

theorem findNals_scan (au : List UInt8) :
    (findNals 0 au).map (fun nals => nals.map fun nal => au.getD nal.header 0 &&& 31) =
      scanTypes au :=
  findNals_types (show au = [] ++ au from rfl)

theorem nalTypes_eq {au types : List UInt8} (seen : scanTypes au = .ok types) :
    nalTypes au = types := by
  have same := findNals_scan au
  rw [seen] at same
  unfold nalTypes
  cases found : findNals 0 au with
  | error message => simp [found, Except.map] at same
  | ok nals => simpa [found, Except.map] using same

/-- The regex of the receiver reads the headers that the scan reads. -/
theorem annexbTypes_eq {l types : List UInt8} (seen : scanTypes l = .ok types) :
    Receiver.annexbTypes l = types.map UInt8.toNat := by
  fun_induction scanTypes l generalizing types with
  | case1 a b c d rest short ih =>
    obtain ⟨rfl, rfl, rfl⟩ := short
    cases later : scanTypes (d :: rest) with
    | error message => simp [later, Except.map] at seen
    | ok found =>
      simp only [later, Except.map, Except.ok.injEq] at seen
      simp [Receiver.annexbTypes, ih later, ← seen]
  | case2 a b c d _ long => simp at seen
  | case3 a b c d rest _ long filled ih =>
    obtain ⟨rfl, rfl, rfl, rfl⟩ := long
    cases later : scanTypes rest with
    | error message => simp [later, Except.map] at seen
    | ok found =>
      simp only [later, Except.map, Except.ok.injEq] at seen
      cases rest with
      | nil => contradiction
      | cons h rest => simp [Receiver.annexbTypes, ih later, ← seen]
  | case4 a b c d rest short long ih =>
    rw [Receiver.annexbTypes.eq_def]
    simp only [if_neg short, if_neg long]
    exact ih seen
  | case5 l short =>
    cases seen
    exact annexbTypes_short (length_lt_four short)

/-- Only zeros are seen besides: what a start code of the next unit is read as. -/
def ZerosOnly (types : List UInt8) : Prop := ∀ type ∈ types, type = 0

theorem scanTypes_skip {a : UInt8} {rest : List UInt8} (quiet : ¬StartsCode (a :: rest)) :
    scanTypes (a :: rest) = scanTypes rest := by
  rcases rest with _ | ⟨b, _ | ⟨c, _ | ⟨d, rest⟩⟩⟩
  · rfl
  · rfl
  · rfl
  · obtain ⟨short, long⟩ := not_or.mp quiet
    rw [scanTypes, if_neg short, if_neg long]

theorem code_append_ne_nil (u : NalUnit) (rest : List UInt8) : u.code ++ rest ≠ [] := by
  cases long : u.long <;> simp [code, long]

theorem scanTypes_code (u : NalUnit) {rest : List UInt8} (filled : rest ≠ []) :
    scanTypes (u.code ++ rest) = (scanTypes rest).map ((rest.headD 0 &&& 31) :: ·) := by
  cases rest with
  | nil => contradiction
  | cons h rest => cases long : u.long <;> simp [code, long, scanTypes]

/-- The bytes of a unit hide no start code behind them. Its last zero may lengthen the next
code, and a code in its last three bytes ends where the next one starts. -/
theorem scanTypes_body {body : List UInt8} (quiet : Quiet body) (u : NalUnit)
    {rest : List UInt8} (filled : rest ≠ []) :
    ∃ extra, ZerosOnly extra ∧
      scanTypes (body ++ (u.code ++ rest)) = (scanTypes (u.code ++ rest)).map (extra ++ ·) := by
  have same : (scanTypes (u.code ++ rest)).map ([] ++ ·) = scanTypes (u.code ++ rest) := by
    cases scanTypes (u.code ++ rest) <;> rfl
  induction body with
  | nil => exact ⟨[], by simp [ZerosOnly], same.symm⟩
  | cons a body ih =>
    by_cases starts : StartsCode (a :: (body ++ (u.code ++ rest)))
    · rcases body with _ | ⟨b, _ | ⟨c, _ | ⟨d, body⟩⟩⟩
      · obtain ⟨rfl, short⟩ : a = 0 ∧ u.long = false := by
          cases long : u.long <;> simp_all [StartsCode, code]
        refine ⟨[], by simp [ZerosOnly], ?_⟩
        rw [same, scanTypes_code u filled]
        simpa [code, short] using scanTypes_code ⟨true, [], trivial⟩ filled
      · cases long : u.long <;> simp [StartsCode, code, long] at starts
      · obtain ⟨rfl, rfl, rfl⟩ : a = 0 ∧ b = 0 ∧ c = 1 := by
          cases long : u.long <;> simpa [StartsCode, code, long] using starts
        refine ⟨[0], by simp [ZerosOnly], ?_⟩
        have read := scanTypes_code ⟨false, [], trivial⟩ (code_append_ne_nil u rest)
        rw [head_code] at read
        exact read
      · exact absurd starts quiet.1
    · obtain ⟨extra, zeros, seen⟩ := ih quiet.2
      refine ⟨extra, zeros, ?_⟩
      rw [List.cons_append, scanTypes_skip starts]
      exact seen

def StartsAnnexB (au : List UInt8) : Prop :=
  ∃ (u : NalUnit) (rest : List UInt8), rest ≠ [] ∧ au = u.code ++ rest

theorem findNals_code (i : Nat) (u : NalUnit) {rest : List UInt8} (filled : rest ≠ []) :
    findNals i (u.code ++ rest) =
      (findNals (i + u.code.length) rest).map (⟨i, i + u.code.length⟩ :: ·) := by
  cases rest with
  | nil => contradiction
  | cons h rest => cases long : u.long <;> simp [code, long, findNals]

theorem findNals_starts {au : List UInt8} {nals : List Nal} (found : findNals 0 au = .ok nals) :
    nals.head?.map Nal.start = some 0 ↔ StartsAnnexB au := by
  constructor
  · intro starts
    obtain ⟨skipped, units, _, whole, rfl⟩ := findNals_units found
    cases units with
    | nil => simp [positions] at starts
    | cons u units =>
      obtain rfl : skipped = [] := by simpa [positions] using starts
      rw [List.nil_append, all_cons] at whole
      refine ⟨u, u.body ++ all units, fun nothing => ?_, whole⟩
      rw [whole, nothing] at found
      cases long : u.long <;> simp [code, long, findNals, positions] at found
  · rintro ⟨u, rest, filled, rfl⟩
    rw [findNals_code 0 u filled] at found
    cases later : findNals (0 + u.code.length) rest with
    | error message => simp only [later, Except.map, reduceCtorEq] at found
    | ok nals =>
      simp only [later, Except.map, Except.ok.injEq] at found
      simp [← found]

theorem bytes_ne_nil (u : NalUnit) : u.bytes ≠ [] := code_append_ne_nil u u.body

namespace Contents

structure Sees (start c : Contents) (types : List UInt8) : Prop where
  idr : c.idr = true ↔ start.idr = true ∨ 5 ∈ types
  hasSps : c.hasSps = true ↔ start.hasSps = true ∨ 7 ∈ types
  hasPps : c.hasPps = true ↔ start.hasPps = true ∨ 8 ∈ types
  vcl : c.vcl = true ↔ start.vcl = true ∨ 1 ∈ types ∨ 5 ∈ types
  sps : if 7 ∈ types then c.sets.sps ≠ [] else c.sets.sps = start.sets.sps
  pps : if 8 ∈ types then c.sets.pps ≠ [] else c.sets.pps = start.sets.pps

theorem sees_add (c : Contents) (u : NalUnit) : Sees c (c.add u.type u.bytes) [u.type] where
  idr := by simp [add, eq_comm (b := u.type)]
  hasSps := by simp [add, eq_comm (b := u.type)]
  hasPps := by simp [add, eq_comm (b := u.type)]
  vcl := by simp [add, eq_comm (b := u.type), or_assoc]
  sps := by
    by_cases type : u.type = 7
    · simp [add, type, bytes_ne_nil]
    · have other : 7 ∉ [u.type] := by simpa using Ne.symm type
      simp only [add, if_neg type, if_neg other]
      split <;> rfl
  pps := by
    by_cases type : u.type = 8
    · simp [add, type, bytes_ne_nil]
    · have other : 8 ∉ [u.type] := by simpa using Ne.symm type
      simp only [add, if_neg type, if_neg other]
      split <;> rfl

theorem Sees.trans {a b c : Contents} {first second : List UInt8} (before : Sees a b first)
    (after : Sees b c second) : Sees a c (first ++ second) where
  idr := by rw [after.idr, before.idr, List.mem_append, or_assoc]
  hasSps := by rw [after.hasSps, before.hasSps, List.mem_append, or_assoc]
  hasPps := by rw [after.hasPps, before.hasPps, List.mem_append, or_assoc]
  vcl := by
    rw [after.vcl, before.vcl, List.mem_append, List.mem_append]
    tauto
  sps := by
    have before := before.sps
    have after := after.sps
    by_cases late : 7 ∈ second
    · simpa [late] using after
    · rw [if_neg late] at after
      simpa [late, after] using before
  pps := by
    have before := before.pps
    have after := after.pps
    by_cases late : 8 ∈ second
    · simpa [late] using after
    · rw [if_neg late] at after
      simpa [late, after] using before

theorem sees_addAll (c : Contents) (units : List NalUnit) :
    Sees c (c.addAll units) (units.map NalUnit.type) := by
  induction units generalizing c with
  | nil => constructor <;> simp [addAll]
  | cons u units ih => exact (sees_add c u).trans (ih _)

end Contents

theorem positions_types {au before : List UInt8} {units : List NalUnit}
    (whole : au = before ++ all units) :
    (positions before.length units).map (fun nal => au.getD nal.header 0 &&& 31) =
      units.map NalUnit.type := by
  induction units generalizing before with
  | nil => rfl
  | cons u rest ih =>
    rw [positions, List.map_cons, List.map_cons, header_type whole, ← List.length_append]
    rw [ih (by rw [whole, all_cons, NalUnit.bytes]; simp)]

theorem readNals_sees {au : List UInt8} {nals : List Nal} (c : Contents)
    (found : findNals 0 au = .ok nals) :
    ∃ types, scanTypes au = .ok types ∧ c.Sees (readNals au nals c) types := by
  have seen := findNals_scan au
  rw [found] at seen
  obtain ⟨skipped, units, _, whole, rfl⟩ := findNals_units found
  refine ⟨units.map NalUnit.type, ?_, ?_⟩
  · rw [← seen, Nat.zero_add, Except.map, positions_types whole]
  · rw [Nat.zero_add, readNals_units c whole]
    exact c.sees_addAll units

theorem filled_iff {type : UInt8} {types set cached : List UInt8}
    (kept : if type ∈ types then set ≠ [] else set = cached) :
    set ≠ [] ↔ type ∈ types ∨ cached ≠ [] := by
  by_cases present : type ∈ types
  · simpa [present] using kept
  · rw [if_neg present] at kept
    simp [present, kept]

theorem restored_eq {type : UInt8} {types set cached : List UInt8} {has : Bool}
    (flag : has = true ↔ type ∈ types)
    (kept : if type ∈ types then set ≠ [] else set = cached) :
    (if has then [] else set) = if type ∈ types then [] else cached := by
  by_cases present : type ∈ types
  · rw [if_pos (flag.mpr present), if_pos present]
  · rw [if_neg present] at kept
    rw [if_neg (mt flag.mp present), if_neg present, kept]

def repaired (types : List UInt8) (sets : ParameterSets) (au : List UInt8) : List UInt8 :=
  (if 7 ∈ types then [] else sets.sps) ++ (if 8 ∈ types then [] else sets.pps) ++ au

/-- A keyframe is returned when each parameter set is in the access unit or in its cache. -/
theorem prepareAnnexB_keyframe {au bytes : List UInt8} {sets : ParameterSets} :
    (prepareAnnexB au sets).2 = .ok (true, bytes) ↔
      StartsAnnexB au ∧ ∃ types, scanTypes au = .ok types ∧ 5 ∈ types ∧
        (7 ∈ types ∨ sets.sps ≠ []) ∧ (8 ∈ types ∨ sets.pps ≠ []) ∧
        bytes = repaired types sets au := by
  simp only [prepareAnnexB]
  cases found : findNals 0 au with
  | error message =>
    have seen := findNals_scan au
    rw [found] at seen
    simp [← seen, Except.map]
  | ok nals =>
    obtain ⟨types, seen, idr, hasSps, hasPps, vcl, sps, pps⟩ := readNals_sees (.fresh sets) found
    dsimp only
    generalize readNals au nals (.fresh sets) = c at idr hasSps hasPps vcl sps pps ⊢
    simp only [Contents.fresh, Bool.false_eq_true, false_or] at idr hasSps hasPps vcl sps pps
    by_cases starts : StartsAnnexB au
    · rw [if_neg (not_not.mpr ((findNals_starts found).mpr starts))]
      by_cases intra : 5 ∈ types
      · rw [if_neg (by simp [vcl, intra]), if_neg (by simp [idr, intra])]
        have spsFilled := filled_iff sps
        have ppsFilled := filled_iff pps
        have same := congrArg₂ (· ++ · ++ au) (restored_eq hasSps sps) (restored_eq hasPps pps)
        by_cases filled : c.sets.sps = [] ∨ c.sets.pps = []
        · rw [if_pos filled]
          simp only [seen, reduceCtorEq, false_iff]
          rintro ⟨_, _, ⟨⟩, _, first, second, _⟩
          rcases filled with nothing | nothing
          · exact spsFilled.mpr first nothing
          · exact ppsFilled.mpr second nothing
        · rw [if_neg filled]
          obtain ⟨first, second⟩ := not_or.mp filled
          simp only [Except.ok.injEq, Prod.mk.injEq, true_and, seen, exists_eq_left', starts,
            intra, spsFilled.mp first, ppsFilled.mp second, repaired, ← same, eq_comm]
      · have predictive : c.idr = false := by simpa [intra] using idr
        rw [if_pos predictive]
        split <;> simp [seen, intra]
    · rw [if_pos (mt (findNals_starts found).mp starts)]
      simp [starts]

theorem prepareAnnexB_unchanged {au bytes : List UInt8} {sets : ParameterSets}
    (returned : (prepareAnnexB au sets).2 = .ok (false, bytes)) : bytes = au := by
  simp only [prepareAnnexB] at returned
  split at returned
  · contradiction
  split at returned
  · contradiction
  split at returned
  · contradiction
  split at returned
  · simp only [Except.ok.injEq, Prod.mk.injEq, true_and] at returned
    exact returned.symm
  split at returned
  · contradiction
  · simp at returned

def cachesAfter (earlier : List (List UInt8)) : ParameterSets :=
  earlier.foldl (fun sets au => (prepareAnnexB au sets).1) ⟨[], []⟩

theorem cachesAfter_valid (earlier : List (List UInt8)) : (cachesAfter earlier).Valid := by
  have calls (sets : ParameterSets) (valid : sets.Valid) :
      (earlier.foldl (fun sets au => (prepareAnnexB au sets).1) sets).Valid := by
    induction earlier generalizing sets with
    | nil => exact valid
    | cons au rest ih => exact ih _ (prepareAnnexB_spec au valid).1
  exact calls _ ⟨.inl rfl, .inl rfl⟩

theorem CachedSet.splice {type : UInt8} {set au types : List UInt8}
    (cached : CachedSet type set) (filled : set ≠ []) (starts : StartsAnnexB au)
    (seen : scanTypes au = .ok types) :
    StartsAnnexB (set ++ au) ∧
      ∃ extra, ZerosOnly extra ∧ scanTypes (set ++ au) = .ok (type :: extra ++ types) := by
  obtain ⟨v, rfl, rfl⟩ := cached.resolve_left filled
  obtain ⟨u, rest, more, rfl⟩ := starts
  have behind : v.body ++ (u.code ++ rest) ≠ [] := by
    simp [code_append_ne_nil u rest]
  have header : (v.body ++ (u.code ++ rest)).headD 0 &&& 31 = v.type := by
    rw [NalUnit.type]
    cases v.body with
    | nil => rw [List.nil_append, head_code]; rfl
    | cons h body => rfl
  have parts : v.bytes ++ (u.code ++ rest) = v.code ++ (v.body ++ (u.code ++ rest)) := by
    rw [NalUnit.bytes, List.append_assoc]
  obtain ⟨extra, zeros, through⟩ := scanTypes_body v.quiet u more
  refine ⟨⟨v, _, behind, parts⟩, extra, zeros, ?_⟩
  rw [parts, scanTypes_code v behind, header, through, seen]
  rfl

/-- What the scan sees of a parameter set that was spliced in where it was missing. -/
def Restored (present : Prop) (type : UInt8) (added : List UInt8) : Prop :=
  present ∧ added = [] ∨ ¬present ∧ ∃ extra, ZerosOnly extra ∧ added = type :: extra

theorem CachedSet.restore {type : UInt8} {set au types : List UInt8} {present : Prop}
    [Decidable present] (cached : CachedSet type set) (kept : present ∨ set ≠ [])
    (starts : StartsAnnexB au) (seen : scanTypes au = .ok types) :
    StartsAnnexB ((if present then [] else set) ++ au) ∧
      ∃ added, Restored present type added ∧
        scanTypes ((if present then [] else set) ++ au) = .ok (added ++ types) := by
  by_cases there : present
  · rw [if_pos there]
    exact ⟨starts, [], .inl ⟨there, rfl⟩, seen⟩
  · rw [if_neg there]
    obtain ⟨begins, extra, zeros, spliced⟩ := cached.splice (kept.resolve_left there) starts seen
    exact ⟨begins, type :: extra, .inr ⟨there, extra, zeros, rfl⟩, spliced⟩

theorem repaired_scan {sets : ParameterSets} (valid : sets.Valid) {au types : List UInt8}
    (starts : StartsAnnexB au) (seen : scanTypes au = .ok types)
    (sps : 7 ∈ types ∨ sets.sps ≠ []) (pps : 8 ∈ types ∨ sets.pps ≠ []) :
    StartsAnnexB (repaired types sets au) ∧
      ∃ first second, Restored (7 ∈ types) 7 first ∧ Restored (8 ∈ types) 8 second ∧
        scanTypes (repaired types sets au) = .ok (first ++ (second ++ types)) := by
  obtain ⟨begins, second, restored, spliced⟩ := valid.pps.restore pps starts seen
  obtain ⟨result, first, restoredFirst, whole⟩ := valid.sps.restore sps begins spliced
  rw [repaired, List.append_assoc]
  exact ⟨result, first, second, restoredFirst, restored, whole⟩

theorem Restored.type_mem {present : Prop} {type : UInt8} {added types : List UInt8}
    (restored : Restored present type added) (there : present → type ∈ types) :
    type ∈ added ++ types := by
  rcases restored with ⟨present, rfl⟩ | ⟨_, extra, _, rfl⟩
  · exact there present
  · simp

/-- The repair touches nothing but what it puts in front of a keyframe, and repairing again
changes nothing. The receiver reads the types that the host reads. -/
theorem keyframes_self_contained :
    (∀ (earlier : List (List UInt8)) (au bytes : List UInt8) (keyframe : Bool),
      (prepareAnnexB au (cachesAfter earlier)).2 = .ok (keyframe, bytes) →
        if keyframe then
          au <:+ bytes ∧ ∀ sets, (prepareAnnexB bytes sets).2 = .ok (true, bytes)
        else bytes = au) ∧
    ∀ (au : List UInt8) (nals : List Nal), findNals 0 au = .ok nals → ∀ type,
      type ∈ Receiver.annexbTypes au ↔
        ∃ nal ∈ nals, (au.getD nal.header 0 &&& 31).toNat = type := by
  refine ⟨fun earlier au bytes keyframe returned => ?_, fun au nals found type => ?_⟩
  · cases keyframe with
    | true =>
      obtain ⟨starts, types, seen, idr, sps, pps, rfl⟩ := prepareAnnexB_keyframe.mp returned
      obtain ⟨begins, first, second, restoredFirst, restored, whole⟩ :=
        repaired_scan (cachesAfter_valid earlier) starts seen sps pps
      refine ⟨List.suffix_append _ au, fun sets => ?_⟩
      have pps : 8 ∈ first ++ (second ++ types) :=
        List.mem_append_right _ (restored.type_mem id)
      have sps : 7 ∈ first ++ (second ++ types) :=
        restoredFirst.type_mem (List.mem_append_right _)
      apply prepareAnnexB_keyframe.mpr
      refine ⟨begins, _, whole, by simp [idr], .inl sps, .inl pps, ?_⟩
      rw [repaired.eq_def _ sets, if_pos sps, if_pos pps]
      rfl
    | false => exact prepareAnnexB_unchanged returned
  · have seen := findNals_scan au
    rw [found] at seen
    rw [annexbTypes_eq seen.symm]
    simp

/-- The access units of a first connection and of a reconnection whose IDR comes alone. -/
theorem keyframes_self_contained_sample :
    let first := [0, 0, 0, 1, 0x67, 42, 0, 0, 1, 0x68, 42, 0, 0, 1, 0x65, 42]
    let bytes := [0, 0, 0, 1, 0x67, 42, 0, 0, 1, 0x68, 42, 0, 0, 1, 0x65, 43]
    (prepareAnnexB [0, 0, 1, 0x65, 43] (cachesAfter [first])).2 = .ok (true, bytes) ∧
      (prepareAnnexB bytes ⟨[], []⟩).2 = .ok (true, bytes) ∧ 8 ∈ Receiver.annexbTypes bytes := by
  have returned : (prepareAnnexB [0, 0, 1, 0x65, 43] (cachesAfter
      [[0, 0, 0, 1, 0x67, 42, 0, 0, 1, 0x68, 42, 0, 0, 1, 0x65, 42]])).2 =
        .ok (true, [0, 0, 0, 1, 0x67, 42, 0, 0, 1, 0x68, 42, 0, 0, 1, 0x65, 43]) := by decide
  obtain ⟨_, again⟩ := keyframes_self_contained.1 _ _ _ _ returned
  refine ⟨returned, again ⟨[], []⟩, ?_⟩
  apply (keyframes_self_contained.2 _ [⟨0, 4⟩, ⟨6, 9⟩, ⟨11, 14⟩] (by decide) 8).mpr
  decide

/-- Before the first IDR slice stands a PPS and before that an SPS. -/
def DecodableInOrder (au : List UInt8) : Prop :=
  List.Sublist [7, 8] ((nalTypes au).takeWhile (· ≠ 5))

instance (au : List UInt8) : Decidable (DecodableInOrder au) :=
  inferInstanceAs (Decidable (List.Sublist _ _))

/-- The encoder left the SPS to the cache together with the PPS, or alone with the PPS ahead
of the IDR slice, or put both in order itself. -/
def LeavesOrder (au : List UInt8) : Prop :=
  7 ∉ nalTypes au ∧ 8 ∉ nalTypes au ∨
    7 ∉ nalTypes au ∧ 8 ∈ (nalTypes au).takeWhile (· ≠ 5) ∨ DecodableInOrder au

instance (au : List UInt8) : Decidable (LeavesOrder au) :=
  inferInstanceAs (Decidable (_ ∨ _ ∨ _))

theorem ZerosOnly.takeWhile {extra : List UInt8} (zeros : ZerosOnly extra) (types : List UInt8) :
    (extra ++ types).takeWhile (· ≠ 5) = extra ++ types.takeWhile (· ≠ 5) := by
  apply List.takeWhile_append_of_pos
  intro type member
  rw [zeros type member]
  decide

theorem ZerosOnly.mem_append {extra types : List UInt8} {type : UInt8} (zeros : ZerosOnly extra)
    (known : type ≠ 0) : type ∈ extra ++ types ↔ type ∈ types := by
  rw [List.mem_append, or_iff_right]
  exact fun member => known (zeros type member)

theorem Restored.takeWhile {present : Prop} {type : UInt8} {added : List UInt8}
    (restored : Restored present type added) (other : type ≠ 5) (types : List UInt8) :
    (added ++ types).takeWhile (· ≠ 5) = added ++ types.takeWhile (· ≠ 5) := by
  rcases restored with ⟨_, rfl⟩ | ⟨_, extra, zeros, rfl⟩
  · rfl
  · rw [List.cons_append, List.takeWhile_cons_of_pos (by simpa using other), zeros.takeWhile]
    rfl

/-- What a repair puts in front orders the sets except where only the PPS was missing. -/
theorem restored_order {types first second : List UInt8}
    (restoredFirst : Restored (7 ∈ types) 7 first)
    (restored : Restored (8 ∈ types) 8 second) :
    List.Sublist [7, 8] (first ++ (second ++ types.takeWhile (· ≠ 5))) ↔
      7 ∉ types ∧ 8 ∉ types ∨ 7 ∉ types ∧ 8 ∈ types.takeWhile (· ≠ 5) ∨
        List.Sublist [7, 8] (types.takeWhile (· ≠ 5)) := by
  have within {type : UInt8} (member : type ∈ types.takeWhile (· ≠ 5)) : type ∈ types :=
    (List.takeWhile_sublist _).mem member
  rcases restoredFirst with ⟨sps, rfl⟩ | ⟨noSps, extra, zeros, rfl⟩
  · rcases restored with ⟨pps, rfl⟩ | ⟨noPps, extra, zeros, rfl⟩
    · simp [sps]
    · -- The access unit's own SPS comes behind the only PPS.
      apply iff_of_false
      · intro ordered
        rcases List.sublist_cons_iff.mp ordered with later | ⟨rest, same, _⟩
        · have pps : 8 ∈ extra ++ types.takeWhile (· ≠ 5) := later.mem (by simp)
          exact noPps (within ((zeros.mem_append (by decide)).mp pps))
        · simp at same
      · rintro (⟨noSps, _⟩ | ⟨noSps, _⟩ | ordered)
        · exact noSps sps
        · exact noSps sps
        · exact noPps (within (ordered.mem (by simp)))
  · rcases restored with ⟨pps, rfl⟩ | ⟨noPps, others, _, rfl⟩
    · rw [List.nil_append, List.cons_append, List.cons_sublist_cons, List.singleton_sublist,
        zeros.mem_append (by decide)]
      constructor
      · intro ahead
        exact .inr (.inl ⟨noSps, ahead⟩)
      · rintro (⟨_, noPps⟩ | ⟨_, ahead⟩ | ordered)
        · exact absurd pps noPps
        · exact ahead
        · exact absurd (within (ordered.mem (by simp))) noSps
    · apply iff_of_true _ (.inl ⟨noSps, noPps⟩)
      rw [List.cons_append, List.cons_sublist_cons, List.singleton_sublist]
      simp

/-- A returned keyframe has its sets in order exactly when the splice could not disturb it. -/
theorem keyframe_decodable_in_order (earlier : List (List UInt8)) {au bytes : List UInt8}
    (returned : (prepareAnnexB au (cachesAfter earlier)).2 = .ok (true, bytes)) :
    DecodableInOrder bytes ↔ LeavesOrder au := by
  obtain ⟨starts, types, seen, idr, sps, pps, rfl⟩ := prepareAnnexB_keyframe.mp returned
  obtain ⟨_, first, second, restoredFirst, restored, whole⟩ :=
    repaired_scan (cachesAfter_valid earlier) starts seen sps pps
  rw [DecodableInOrder, LeavesOrder, DecodableInOrder, nalTypes_eq whole, nalTypes_eq seen,
    restoredFirst.takeWhile (by decide), restored.takeWhile (by decide)]
  exact restored_order restoredFirst restored

theorem keyframe_decodable_in_order_sample :
    let first := [0, 0, 0, 1, 0x67, 42, 0, 0, 1, 0x68, 42, 0, 0, 1, 0x65, 42]
    let bytes := [0, 0, 0, 1, 0x67, 42, 0, 0, 1, 0x68, 42, 0, 0, 1, 0x65, 43]
    (prepareAnnexB [0, 0, 1, 0x65, 43] (cachesAfter [first])).2 = .ok (true, bytes) ∧
      DecodableInOrder bytes := by
  have returned : (prepareAnnexB [0, 0, 1, 0x65, 43] (cachesAfter
      [[0, 0, 0, 1, 0x67, 42, 0, 0, 1, 0x68, 42, 0, 0, 1, 0x65, 42]])).2 =
        .ok (true, [0, 0, 0, 1, 0x67, 42, 0, 0, 1, 0x68, 42, 0, 0, 1, 0x65, 43]) := by decide
  exact ⟨returned, (keyframe_decodable_in_order _ returned).mpr (by decide)⟩

/-- The encoder repeats the SPS and not the PPS, which is restored ahead of it. -/
theorem restored_pps_before_sps :
    ¬∀ (earlier : List (List UInt8)) (au bytes : List UInt8),
      (prepareAnnexB au (cachesAfter earlier)).2 = .ok (true, bytes) → DecodableInOrder bytes := by
  intro ordered
  have wrong := ordered [[0, 0, 0, 1, 0x67, 42, 0, 0, 1, 0x68, 42, 0, 0, 1, 0x65, 42]]
    [0, 0, 1, 0x67, 42, 0, 0, 1, 0x65, 43]
    [0, 0, 1, 0x68, 42, 0, 0, 1, 0x67, 42, 0, 0, 1, 0x65, 43] (by decide)
  revert wrong
  decide

end Quest
