import Quest.Converter
import Quest.Library.Machine

/-! What `import` tells VAAPI about a DMA-BUF plane. With each imported buffer goes the size
that was found for its object and the descriptor that its surface was made from; when the
buffer is imported again the answer comes without either. -/
namespace Quest

/-- What `import` sets of a `VADRMPRIMESurfaceDescriptor` of one object and one plane. -/
structure Descriptor where
  fourcc : String
  width : UInt32
  height : UInt32
  fd : Int32
  size : UInt32
  modifier : UInt64
  drmFormat : UInt32
  offset : UInt32
  pitch : UInt32
  deriving DecidableEq, Repr

def describe (d : SpaData) (chunk : Chunk) (modifier : UInt64) (alpha : Bool) (size : Int64) :
    Descriptor where
  fourcc := if alpha then "BGRA" else "BGRX"
  width := 2560
  height := 1440
  fd := Int32.ofInt d.fd
  size := size.toUInt64.toUInt32
  modifier := modifier
  drmFormat := if alpha then 0x34325241 else 0x34325258
  offset := chunk.offset
  pitch := chunk.stride.toUInt32

/-- `checkSize` in the source's 64 bits, where a stride is extended by its sign. -/
def checkObject (chunk : Chunk) (modifier : UInt64) (size : Int64) : Except String Unit :=
  if size ≤ 0 ∨ 4294967295 < size.toUInt64 then .error "Cannot determine DMA-BUF object size"
  else if size.toUInt64 ≤ chunk.offset.toUInt64 ∨ (modifier = 0 ∧ size.toUInt64 <
      chunk.offset.toUInt64 + chunk.stride.toInt64.toUInt64 * 1439 + 2560 * 4) then
    .error "DMA-BUF plane exceeds object size"
  else .ok ()

theorem size_toNat {size : Int64} (nonneg : 0 ≤ size.toInt) :
    (size.toUInt64.toNat : Int) = size.toInt := by
  rw [Int64.toNat_toUInt64_of_le (Int64.le_iff_toInt_le.mpr nonneg)]
  exact Int.toNat_of_nonneg nonneg

theorem pitch_toNat {stride : Int32} (nonneg : 0 ≤ stride.toInt) :
    (stride.toUInt32.toNat : Int) = stride.toInt := by
  rw [Int32.toNat_toUInt32_of_le (Int32.le_iff_toInt_le.mpr nonneg)]
  exact Int.toNat_of_nonneg nonneg

/-- With a stride that has come this far, no sum of the checks leaves 64 bits. -/
theorem checkObject_eq {chunk : Chunk} (pitch : 10240 ≤ chunk.stride.toInt) (modifier : UInt64)
    (size : Int64) : checkObject chunk modifier size = checkSize chunk modifier size.toInt := by
  have offset := chunk.offset.toNat_lt
  have widest := chunk.stride.toInt_lt
  have distance : (chunk.stride.toInt64.toUInt64.toNat : Int) = chunk.stride.toInt := by
    rw [size_toNat (by rw [Int32.toInt_toInt64]; omega), Int32.toInt_toInt64]
  have sum : (chunk.offset.toUInt64 + chunk.stride.toInt64.toUInt64 * 1439 + 2560 * 4).toNat =
      chunk.offset.toNat + chunk.stride.toInt64.toUInt64.toNat * 1439 + 10240 := by
    simp only [UInt64.toNat_add, UInt64.toNat_mul, UInt32.toNat_toUInt64, UInt64.reduceToNat]
    omega
  have unmeasured : (size ≤ 0 ∨ 4294967295 < size.toUInt64) ↔
      (size.toInt ≤ 0 ∨ 4294967296 ≤ size.toInt) := by
    rw [Int64.le_iff_toInt_le, UInt64.lt_iff_toNat_lt]
    change (size.toInt ≤ 0 ∨ 4294967295 < size.toUInt64.toNat) ↔ _
    by_cases positive : size.toInt ≤ 0
    · simp [positive]
    · have measured := @size_toNat size (by omega)
      omega
  simp only [checkObject, checkSize, unmeasured]
  by_cases refused : size.toInt ≤ 0 ∨ 4294967296 ≤ size.toInt
  · rw [if_pos refused, if_pos refused]
  · have measured := @size_toNat size (by omega)
    have exceeds : (size.toUInt64 ≤ chunk.offset.toUInt64 ∨ (modifier = 0 ∧ size.toUInt64 <
        chunk.offset.toUInt64 + chunk.stride.toInt64.toUInt64 * 1439 + 2560 * 4)) ↔
        (size.toInt ≤ chunk.offset.toNat ∨
          (modifier = 0 ∧ size.toInt < chunk.offset.toNat + chunk.stride.toInt * 1439 + 2560 * 4)) := by
      rw [UInt64.le_iff_toNat_le, UInt64.lt_iff_toNat_lt, sum, UInt32.toNat_toUInt64]
      refine or_congr (by omega) (and_congr_right fun _ => by omega)
    simp only [if_neg refused, exceeds]

structure Object where
  size : Int64
  descriptor : Descriptor
  deriving DecidableEq, Repr

structure Accepted where
  chunk : Chunk
  modifier : UInt64
  object : Object
  deriving DecidableEq, Repr

/-- The last byte of row 1439 of a linear plane is in the object, and VAAPI was told the
plane's own numbers. -/
structure Accepted.Exact (a : Accepted) : Prop where
  inside : a.modifier = 0 →
    a.chunk.offset.toNat + a.chunk.stride.toInt * 1439 + 10239 < a.object.size.toInt
  offset : a.object.descriptor.offset.toNat = a.chunk.offset.toNat
  pitch : (a.object.descriptor.pitch.toNat : Int) = a.chunk.stride.toInt
  size : (a.object.descriptor.size.toNat : Int) = a.object.size.toInt

structure Vaapi (φ : Type*) where
  converter : Converter φ
  objects : Buffer → Option Object

/-- The calls that `IntelVaapi` takes from its users, and the GPU's progress. -/
inductive VaapiCall (φ : Type*) where
  | importBuffer (b : Buffer) (buffer : SpaBuffer) (modifier : UInt64) (alpha : Bool) (size : Int64)
      (created : Except String Surface)
  | convert (b : Buffer) (output : φ) (processed : Processed)
  | settle
  | remove (b : Buffer)
  | upload (begun : Bool)
  | finish (finished : Conversion φ → Bool)

namespace Vaapi

def initial : Vaapi φ := ⟨.initial, fun _ => none⟩

def importBuffer (v : Vaapi φ) (b : Buffer) (buffer : SpaBuffer) (modifier : UInt64) (alpha : Bool)
    (size : Int64) (created : Except String Surface) : Vaapi φ × List Accepted :=
  match importablePlane buffer,
      v.converter.importBuffer b buffer modifier alpha size.toInt created with
  | .ok (d, chunk), .ok converter =>
    let object := (v.objects b).getD ⟨size, describe d chunk modifier alpha size⟩
    (⟨converter, Function.update v.objects b (some object)⟩, [⟨chunk, modifier, object⟩])
  | _, _ => (v, [])

def step [DecidableEq φ] : Machine.Step (Vaapi φ) (VaapiCall φ) Accepted := fun v call =>
  match call with
  | .importBuffer b buffer modifier alpha size created =>
    some (v.importBuffer b buffer modifier alpha size created)
  | .convert b output processed =>
    some ({ v with converter := (v.converter.convert b output processed).1 }, [])
  | .settle => some ({ v with converter := v.converter.settle }, [])
  | .remove b => some (⟨v.converter.remove b, Function.update v.objects b none⟩, [])
  | .upload begun => some ({ v with converter := v.converter.upload begun }, [])
  | .finish finished => some ({ v with converter := v.converter.finish finished }, [])

end Vaapi

structure Faithful (i : Import) (o : Object) : Prop where
  pitched : 10240 ≤ i.stride.toInt
  measured : 0 < o.size.toInt ∧ o.size.toInt < 4294967296
  inside : i.modifier = 0 → i.offset.toNat + i.stride.toInt * 1439 + 10240 ≤ o.size.toInt
  offset : o.descriptor.offset = i.offset
  pitch : o.descriptor.pitch = i.stride.toUInt32
  size : o.descriptor.size = o.size.toUInt64.toUInt32

def Vaapi.Valid (v : Vaapi φ) : Prop :=
  ∀ b, Option.Rel Faithful (v.converter.imports b) (v.objects b)

theorem Faithful.exact {i : Import} {o : Object} (faithful : Faithful i o) {d : SpaData}
    {chunk : Chunk} {modifier : UInt64} {alpha : Bool} (same : i.Matches d chunk modifier alpha) :
    Accepted.Exact ⟨chunk, modifier, o⟩ where
  inside linear := by
    have fits := faithful.inside (same.modifier.trans linear)
    rw [same.offset, same.stride] at fits
    dsimp only
    omega
  offset := by simp [faithful.offset, same.offset]
  pitch := by
    have pitched := faithful.pitched
    simp only [faithful.pitch, ← same.stride]
    exact pitch_toNat (by omega)
  size := by
    obtain ⟨positive, narrow⟩ := faithful.measured
    have measured := size_toNat (Int.le_of_lt positive)
    simp only [faithful.size, UInt64.toNat_toUInt32]
    omega

theorem describe_faithful {i : Import} {d : SpaData} {chunk : Chunk} {modifier : UInt64}
    {alpha : Bool} {size : Int64} (same : i.Matches d chunk modifier alpha)
    (pitched : 10240 ≤ chunk.stride.toInt) (checked : checkSize chunk modifier size.toInt = .ok ()) :
    Faithful i ⟨size, describe d chunk modifier alpha size⟩ := by
  obtain ⟨measured, inside⟩ := checkSize_ok checked
  constructor
  all_goals simp only [same.stride, same.offset, same.modifier]
  · exact pitched
  · exact measured
  · exact inside
  · rfl
  · rfl
  · rfl

namespace Vaapi

theorem Valid.keep {v : Vaapi φ} (valid : v.Valid) {converter : Converter φ}
    (kept : converter.imports = v.converter.imports) : Valid { v with converter := converter } := by
  intro b
  rw [kept]
  exact valid b

/-- The entry of one buffer is replaced, on both sides. -/
theorem Valid.update {v : Vaapi φ} (valid : v.Valid) (b : Buffer) {i : Option Import}
    {o : Option Object} (entry : Option.Rel Faithful i o) {converter : Converter φ}
    (updated : converter.imports = Function.update v.converter.imports b i) :
    Valid ⟨converter, Function.update v.objects b o⟩ := by
  intro other
  rw [updated]
  by_cases same : other = b
  · subst same
    simpa using entry
  · simpa [Function.update_of_ne same] using valid other

theorem importBuffer_valid {v : Vaapi φ} (valid : v.Valid) (b : Buffer) (buffer : SpaBuffer)
    (modifier : UInt64) (alpha : Bool) (size : Int64) (created : Except String Surface) :
    (v.importBuffer b buffer modifier alpha size created).1.Valid ∧
      ∀ a ∈ (v.importBuffer b buffer modifier alpha size created).2, a.Exact := by
  simp only [importBuffer]
  split
  next d chunk converter importable imported =>
    have entry := valid b
    obtain ⟨_, _, i, again, same, made⟩ := Converter.importBuffer_cases imported
    obtain ⟨rfl, rfl⟩ := Prod.mk.inj (Except.ok.inj (importable.symm.trans again))
    rcases made with ⟨present, rfl⟩ | ⟨absent, checked, rfl⟩
    · rw [present] at entry
      generalize known : v.objects b = object at entry
      cases entry with
      | some faithful =>
        refine ⟨valid.update b (i := some i) (.some faithful) ?_, ?_⟩
        · rw [← present, Function.update_eq_self]
        · simpa using faithful.exact same
    · rw [absent] at entry
      generalize known : v.objects b = object at entry
      cases entry
      have faithful := describe_faithful same (importablePlane_ok importable) checked
      refine ⟨valid.update b (.some faithful) rfl, ?_⟩
      simpa using faithful.exact same
  · exact ⟨valid, by simp⟩

theorem step_valid [DecidableEq φ] {v next : Vaapi φ} {call : VaapiCall φ}
    {accepted : List Accepted} (valid : v.Valid) (taken : step v call = some (next, accepted)) :
    next.Valid ∧ ∀ a ∈ accepted, a.Exact := by
  cases call with
  | importBuffer b buffer modifier alpha size created =>
    obtain ⟨rfl, rfl⟩ := Prod.mk.inj (Option.some.inj taken)
    exact importBuffer_valid valid b buffer modifier alpha size created
  | remove b =>
    cases taken
    exact ⟨valid.update b .none (by simp [Converter.remove]), by simp⟩
  | _ =>
    -- No other call touches the imports.
    cases taken
    exact ⟨valid.keep (by simp [Converter.finish]), by simp⟩

/-- In every run of calls each accepted plane is imported by its own numbers. -/
theorem accepted_exact [DecidableEq φ] {calls : List (VaapiCall φ)} {v : Vaapi φ}
    {accepted : List Accepted} (run : Machine.exec step calls initial = some (v, accepted)) :
    ∀ a ∈ accepted, a.Exact := by
  have history := Machine.history (fun (v : Vaapi φ) past => v.Valid ∧ ∀ a ∈ past, a.Exact)
    ⟨fun _ => .none, by simp⟩ (fun v past call next emitted valid taken => ?_) run
  · exact history.2
  · obtain ⟨after, exact_⟩ := step_valid valid.1 taken
    exact ⟨after, fun a member => (List.mem_append.mp member).elim (valid.2 a) (exact_ a)⟩

end Vaapi

end Quest
