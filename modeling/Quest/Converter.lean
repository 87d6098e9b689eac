import Mathlib.Logic.Function.Basic

/-! The converter of `IntelVaapi`, one definition for each section under its mutex, with
producer buffers known by number. Answers of the kernel and of VAAPI are arguments; a VAAPI
failure is its status text. Each submitted conversion is kept, with the buffer that it reads
and the surface that it writes, until the GPU has finished it. -/
namespace Quest

def Width : Nat := 2560
def Height : Nat := 1440

inductive MemoryType where
  | memPtr
  | memFd
  | dmaBuf
  | other
  deriving DecidableEq, Repr

/-- `spa_chunk`; of its flags only `SPA_CHUNK_FLAG_CORRUPTED` is read. -/
structure Chunk where
  offset : UInt32
  size : UInt32
  stride : Int32
  corrupted : Bool
  deriving DecidableEq, Repr

/-- `spa_data`; of the mapping only its presence matters here. -/
structure SpaData where
  type : MemoryType
  fd : Int
  mapped : Bool
  maxsize : UInt32
  chunk : Option Chunk
  deriving DecidableEq, Repr

/-- `spa_buffer`, with the timestamp of its `spa_meta_header` if it has one. -/
structure SpaBuffer where
  datas : List SpaData
  pts : Option Int
  deriving DecidableEq, Repr

abbrev Buffer := Nat
abbrev Surface := Nat

structure Import where
  surface : Surface
  fd : Int
  offset : UInt32
  stride : Int32
  modifier : UInt64
  alpha : Bool
  deriving DecidableEq, Repr

/-- What `import` compares with a plane before it answers from its entry. -/
structure Import.Matches (i : Import) (d : SpaData) (chunk : Chunk) (modifier : UInt64)
    (alpha : Bool) : Prop where
  fd : i.fd = d.fd
  offset : i.offset = chunk.offset
  stride : i.stride = chunk.stride
  modifier : i.modifier = modifier
  alpha : i.alpha = alpha

structure Conversion (φ : Type*) where
  input : Buffer
  output : φ
  deriving DecidableEq, Repr

/-- The members of `IntelVaapi` that the capture session uses, for output surfaces `φ`. -/
structure Converter (φ : Type*) where
  imports : Buffer → Option Import
  pending : Option φ
  inFlight : List (Conversion φ)

/-- How `process` ends: the call that fails with its status, or completion. A failing
render or end may have submitted the conversion all the same. -/
inductive Processed where
  | mapFailed (status : String)
  | unmapFailed (status : String)
  | beginFailed (status : String)
  | renderFailed (status : String) (submitted : Bool)
  | endFailed (status : String) (submitted : Bool)
  | syncFailed (status : String)
  | completed
  deriving DecidableEq, Repr

/-- `vaCheck`. -/
def vaError (name status : String) : String := name ++ ": " ++ status

theorem vaError_ne (name status : String) : vaError name status ≠ "" := by
  intro empty
  have lengths := congrArg String.length empty
  simp [vaError] at lengths

def importablePlane (buffer : SpaBuffer) : Except String (SpaData × Chunk) :=
  match buffer.datas with
  | [d] =>
    if d.type ≠ .dmaBuf then .error "Intel RGB DMA-BUF requires one packed plane/object" else
      match d.chunk with
      | none => .error "Invalid DMA-BUF plane metadata"
      | some chunk =>
        if d.fd < 0 ∨ chunk.stride.toInt < 2560 * 4 then .error "Invalid DMA-BUF plane metadata"
        else .ok (d, chunk)
  | _ => .error "Intel RGB DMA-BUF requires one packed plane/object"

/-- The size checks on a plane that has not been imported yet. -/
def checkSize (chunk : Chunk) (modifier : UInt64) (size : Int) : Except String Unit :=
  if size ≤ 0 ∨ 4294967296 ≤ size then .error "Cannot determine DMA-BUF object size"
  else if size ≤ chunk.offset.toNat ∨
      (modifier = 0 ∧ size < chunk.offset.toNat + chunk.stride.toInt * 1439 + 2560 * 4) then
    .error "DMA-BUF plane exceeds object size"
  else .ok ()

theorem importablePlane_ok {buffer : SpaBuffer} {d : SpaData} {chunk : Chunk}
    (importable : importablePlane buffer = .ok (d, chunk)) : 10240 ≤ chunk.stride.toInt := by
  simp only [importablePlane] at importable
  split at importable
  · split at importable
    · contradiction
    split at importable
    · contradiction
    split at importable
    · contradiction
    next wide =>
      obtain ⟨rfl, rfl⟩ := Prod.mk.inj (Except.ok.inj importable)
      omega
  · contradiction

theorem checkSize_ok {chunk : Chunk} {modifier : UInt64} {size : Int}
    (checked : checkSize chunk modifier size = .ok ()) :
    (0 < size ∧ size < 4294967296) ∧
      (modifier = 0 → chunk.offset.toNat + chunk.stride.toInt * 1439 + 10240 ≤ size) := by
  simp only [checkSize] at checked
  split at checked
  · contradiction
  next measured =>
    split at checked
    · contradiction
    next fits =>
      simp only [not_or, not_and, Int.not_lt] at measured fits
      refine ⟨by omega, fun linear => ?_⟩
      have inside := fits.2 linear
      omega

namespace Converter

def initial : Converter φ := ⟨fun _ => none, none, []⟩

/-- `import`, given the object size that `lseek` finds and the surface that VAAPI makes. -/
def importBuffer (c : Converter φ) (b : Buffer) (buffer : SpaBuffer) (modifier : UInt64) (alpha : Bool)
    (size : Int) (created : Except String Surface) : Except String (Converter φ) :=
  match importablePlane buffer with
  | .error message => .error message
  | .ok (d, chunk) =>
    match c.imports b with
    | some i =>
      if i.fd ≠ d.fd ∨ i.offset ≠ chunk.offset ∨ i.stride ≠ chunk.stride ∨
          i.modifier ≠ modifier ∨ i.alpha ≠ alpha then
        .error "DMA-BUF layout changed without buffer replacement"
      else .ok c
    | none =>
      match checkSize chunk modifier size with
      | .error message => .error message
      | .ok () =>
        match created with
        | .error status => .error (vaError "Import RGB DMA-BUF into Intel" status)
        | .ok surface =>
          let made := ⟨surface, d.fd, chunk.offset, chunk.stride, modifier, alpha⟩
          .ok { c with imports := Function.update c.imports b (some made) }

/-- The GPU has been given the conversion of `b` into `output`. -/
def submit (c : Converter φ) (b : Buffer) (output : φ) (submitted : Bool) : Converter φ :=
  { c with
    pending := some output
    inFlight := if submitted then c.inFlight ++ [⟨b, output⟩] else c.inFlight }

/-- `vaSyncSurface` on the pending surface, if there is one. -/
def settle [DecidableEq φ] (c : Converter φ) : Converter φ :=
  match c.pending with
  | none => c
  | some surface =>
    { c with
      pending := none
      inFlight := c.inFlight.filter fun conversion => conversion.output ≠ surface }

/-- `convert`, with its wait of at most 2 ms. -/
def convert [DecidableEq φ] (c : Converter φ) (b : Buffer) (output : φ) (processed : Processed) :
    Converter φ × Option String :=
  match c.imports b with
  | none => (c, some "map::at")
  | some _ =>
    match processed with
    | .mapFailed status => (c, some (vaError "Map VPP parameters" status))
    | .unmapFailed status => (c, some (vaError "Unmap VPP parameters" status))
    | .beginFailed status => (c.submit b output false, some (vaError "Begin Intel VPP" status))
    | .renderFailed status submitted =>
      (c.submit b output submitted, some (vaError "Intel VPP conversion" status))
    | .endFailed status submitted =>
      (c.submit b output submitted, some (vaError "End Intel VPP" status))
    | .syncFailed status =>
      (c.submit b output true, some (vaError
        "Intel VPP completion (use capture_memory=cpu if DMA-BUF times out)" status))
    | .completed => ((c.submit b output true).settle, none)

def remove [DecidableEq φ] (c : Converter φ) (b : Buffer) : Converter φ :=
  { c.settle with imports := Function.update c.imports b none }

/-- `upload` for the encoder of the same device. It settles what it leaves pending, which
is another surface's conversion only if it fails before its own begins. -/
def upload [DecidableEq φ] (c : Converter φ) (begun : Bool) : Converter φ :=
  if begun then { c with pending := none } else c.settle

/-- The GPU finishes some of its work. -/
def finish (c : Converter φ) (finished : Conversion φ → Bool) : Converter φ :=
  { c with inFlight := c.inFlight.filter fun conversion => !finished conversion }

/-- What the converter still has to do with a producer buffer. -/
def Imported (c : Converter φ) (b : Buffer) : Bool := (c.imports b).isSome

def Reads (c : Converter φ) (b : Buffer) : Bool :=
  c.inFlight.any fun conversion => conversion.input = b

/-- Everything inside the GPU is covered by the pending surface, and reads buffers whose
imports are alive. -/
structure Covered (c : Converter φ) : Prop where
  output : ∀ conversion ∈ c.inFlight, c.pending = some conversion.output
  input : ∀ conversion ∈ c.inFlight, c.Imported conversion.input

theorem initial_covered : Covered (initial : Converter φ) := ⟨by simp [initial], by simp [initial]⟩

/-- An import is either answered from the one that is there, or checked and made. -/
theorem importBuffer_cases {c next : Converter φ} {b : Buffer} {buffer : SpaBuffer}
    {modifier : UInt64} {alpha : Bool} {size : Int} {created : Except String Surface}
    (imported : c.importBuffer b buffer modifier alpha size created = .ok next) :
    ∃ d chunk i, importablePlane buffer = .ok (d, chunk) ∧ i.Matches d chunk modifier alpha ∧
      (c.imports b = some i ∧ next = c ∨
        c.imports b = none ∧ checkSize chunk modifier size = .ok () ∧
          next = { c with imports := Function.update c.imports b (some i) }) := by
  simp only [importBuffer] at imported
  split at imported
  · contradiction
  next d chunk importable =>
    split at imported
    next i present =>
      split at imported
      · contradiction
      next same =>
        cases imported
        simp only [not_or, not_not] at same
        obtain ⟨fd, offset, stride, modifier, alpha⟩ := same
        exact ⟨d, chunk, i, importable, ⟨fd, offset, stride, modifier, alpha⟩, .inl ⟨present, rfl⟩⟩
    next absent =>
      split at imported
      · contradiction
      next checked =>
        split at imported
        · contradiction
        · cases imported
          exact ⟨d, chunk, _, importable, ⟨rfl, rfl, rfl, rfl, rfl⟩, .inr ⟨absent, checked, rfl⟩⟩

theorem importBuffer_ok {c next : Converter φ} {b : Buffer} {buffer : SpaBuffer} {modifier : UInt64}
    {alpha : Bool} {size : Int} {created : Except String Surface}
    (imported : c.importBuffer b buffer modifier alpha size created = .ok next) :
    next.pending = c.pending ∧ next.inFlight = c.inFlight ∧
      (∀ other, c.Imported other → next.Imported other) := by
  obtain ⟨d, chunk, i, _, _, ⟨_, rfl⟩ | ⟨_, _, rfl⟩⟩ := importBuffer_cases imported
  · exact ⟨rfl, rfl, fun _ kept => kept⟩
  · refine ⟨rfl, rfl, fun other kept => ?_⟩
    by_cases same : other = b
    · simp [Imported, same]
    · simpa [Imported, Function.update_of_ne same] using kept

theorem importablePlane_error {buffer : SpaBuffer} {message : String}
    (refused : importablePlane buffer = .error message) : message ≠ "" := by
  simp only [importablePlane] at refused
  split at refused
  · split at refused
    · cases refused; decide
    · split at refused
      · cases refused; decide
      · split at refused <;> cases refused
        decide
  · cases refused; decide

theorem checkSize_error {chunk : Chunk} {modifier : UInt64} {size : Int} {message : String}
    (refused : checkSize chunk modifier size = .error message) : message ≠ "" := by
  simp only [checkSize] at refused
  split at refused
  · cases refused; decide
  · split at refused <;> cases refused
    decide

/-- Every error of `import` has a text. -/
theorem importBuffer_error {c : Converter φ} {b : Buffer} {buffer : SpaBuffer} {modifier : UInt64}
    {alpha : Bool} {size : Int} {created : Except String Surface} {message : String}
    (refused : c.importBuffer b buffer modifier alpha size created = .error message) :
    message ≠ "" := by
  simp only [importBuffer] at refused
  split at refused
  next plane => cases refused; exact importablePlane_error plane
  split at refused
  · split at refused <;> cases refused
    decide
  split at refused
  next checked => cases refused; exact checkSize_error checked
  split at refused
  · cases refused; apply vaError_ne
  · contradiction

theorem importBuffer_covered {c next : Converter φ} {b : Buffer} {buffer : SpaBuffer}
    {modifier : UInt64} {alpha : Bool} {size : Int} {created : Except String Surface}
    (covered : c.Covered) (imported : c.importBuffer b buffer modifier alpha size created = .ok next) :
    next.Covered := by
  obtain ⟨pending, inFlight, kept⟩ := importBuffer_ok imported
  exact ⟨by rw [pending, inFlight]; exact covered.output,
    by rw [inFlight]; exact fun _ member => kept _ (covered.input _ member)⟩

theorem finish_covered {c : Converter φ} (covered : c.Covered) (finished : Conversion φ → Bool) :
    (c.finish finished).Covered :=
  ⟨fun _ member => covered.output _ ((List.mem_filter.mp member).1),
    fun _ member => covered.input _ ((List.mem_filter.mp member).1)⟩

theorem covered_clear {c : Converter φ} (covered : c.Covered) (clear : c.pending = none) :
    c.inFlight = [] :=
  List.eq_nil_iff_forall_not_mem.mpr fun conversion member => by
    have same := covered.output conversion member
    rw [clear] at same
    contradiction

theorem submit_covered {c : Converter φ} (covered : c.Covered) (clear : c.pending = none)
    {b : Buffer} (imported : c.Imported b) (output : φ) (submitted : Bool) :
    (c.submit b output submitted).Covered := by
  have empty := covered_clear covered clear
  cases submitted
  · constructor <;> simp [submit, empty]
  · refine ⟨?_, ?_⟩ <;> simp [submit, empty]
    exact imported

variable [DecidableEq φ]

@[simp] theorem settle_pending (c : Converter φ) : c.settle.pending = none := by
  unfold settle; split <;> simp_all

@[simp] theorem settle_imports (c : Converter φ) : c.settle.imports = c.imports := by
  unfold settle; split <;> rfl

@[simp] theorem upload_imports (c : Converter φ) (begun : Bool) :
    (c.upload begun).imports = c.imports := by
  cases begun
  · exact c.settle_imports
  · rfl

@[simp] theorem convert_imports (c : Converter φ) (b : Buffer) (output : φ)
    (processed : Processed) : (c.convert b output processed).1.imports = c.imports := by
  simp only [convert]
  split
  · rfl
  · cases processed <;> simp [submit]

/-- A settled converter has no conversion left in the GPU. -/
theorem settle_inFlight {c : Converter φ} (covered : c.Covered) : c.settle.inFlight = [] := by
  have none_left (conversion) (member : conversion ∈ c.inFlight) := covered.output _ member
  unfold settle
  split
  · rename_i clear
    refine List.eq_nil_iff_forall_not_mem.mpr fun conversion member => ?_
    simp [clear] at none_left
    exact none_left conversion member
  · rename_i surface pending
    refine List.filter_eq_nil_iff.mpr fun conversion member => ?_
    have same := none_left conversion member
    rw [pending] at same
    simpa using (Option.some.inj same).symm

theorem settle_covered {c : Converter φ} (covered : c.Covered) : c.settle.Covered := by
  constructor <;> simp [settle_inFlight covered]

theorem remove_inFlight {c : Converter φ} (covered : c.Covered) (b : Buffer) :
    (c.remove b).inFlight = [] := settle_inFlight covered

theorem remove_covered {c : Converter φ} (covered : c.Covered) (b : Buffer) :
    (c.remove b).Covered := by
  constructor <;> simp [remove_inFlight covered]

@[simp] theorem remove_pending (c : Converter φ) (b : Buffer) : (c.remove b).pending = none :=
  settle_pending c

/-- A conversion begins only when nothing is pending, so whatever it leaves behind is
covered by the surface that it makes pending. -/
theorem convert_covered {c : Converter φ} (covered : c.Covered) (clear : c.pending = none)
    (b : Buffer) (output : φ) (processed : Processed) :
    (c.convert b output processed).1.Covered := by
  unfold convert
  split
  · exact covered
  · rename_i entry present
    have imported : c.Imported b = true := by simp [Imported, present]
    cases processed with
    | mapFailed status => exact covered
    | unmapFailed status => exact covered
    | beginFailed status => exact submit_covered covered clear imported _ _
    | renderFailed status submitted => exact submit_covered covered clear imported _ _
    | endFailed status submitted => exact submit_covered covered clear imported _ _
    | syncFailed status => exact submit_covered covered clear imported _ _
    | completed => exact settle_covered (submit_covered covered clear imported _ _)

/-- Every error of `convert` has a text. -/
theorem convert_error {c after : Converter φ} {b : Buffer} {output : φ} {processed : Processed}
    {message : String} (failed : c.convert b output processed = (after, some message)) :
    message ≠ "" := by
  simp only [convert] at failed
  split at failed
  · cases failed; decide
  · cases processed <;> cases failed <;> apply vaError_ne

theorem convert_ok {c : Converter φ} {b : Buffer} {output : φ} {processed : Processed}
    (clear : c.pending = none) (ok : (c.convert b output processed).2 = none) :
    (c.convert b output processed).1.pending = none := by
  unfold convert at ok ⊢
  split
  · exact clear
  · rename_i entry present
    rw [present] at ok
    cases processed <;> simp_all

theorem upload_clear {c : Converter φ} (clear : c.pending = none) (begun : Bool) :
    c.upload begun = c := by
  cases begun
  · simp [upload, settle, clear]
  · rw [upload, if_pos rfl, ← clear]

end Converter

end Quest
