import Quest.CaptureTarget
import Quest.Library.BlockCopy
import Quest.PlaneImport

/-! How `consume` addresses the rows of a mapped buffer: a size check in 64 bits and, for a
buffer that passes it, 1440 copies whose row offsets are computed in 32 bits. The mapped
memory is addressed from `d.data`, the frame from its first pixel. -/
namespace Quest.Capture

open BlockCopy (Cells copy copies)

def stride (chunk : Chunk) : UInt32 :=
  if 0 < chunk.stride then chunk.stride.toUInt32 else 10240

def tooSmall (d : SpaData) (chunk : Chunk) : Bool :=
  stride chunk < 10240 ||
    d.maxsize.toUInt64 < chunk.offset.toUInt64 + (stride chunk).toUInt64 * 1439 + 10240

structure Copied where
  pixels : Cells UInt8
  reads : List (Nat × Nat)

/-- `source + y * stride`, whose product has 32 bits. -/
def rowSource (chunk : Chunk) (y : Nat) : Nat :=
  chunk.offset.toNat + (UInt32.ofNat y * stride chunk).toNat

/-- One round of the copy loop. -/
def copyRow (chunk : Chunk) (data : Cells UInt8) (y : Nat) (c : Copied) : Copied :=
  ⟨copy c.pixels data (y * 10240) (rowSource chunk y) 10240,
    c.reads ++ [(rowSource chunk y, 10240)]⟩

def copyRows (chunk : Chunk) (data : Cells UInt8) : Nat → Copied → Copied
  | 0, c => c
  | y + 1, c => copyRow chunk data y (copyRows chunk data y c)

/-- What `consume` does with a plane in mapped memory once it has a frame for it. -/
def copyPlane (d : SpaData) (chunk : Chunk) (data pixels : Cells UInt8) : Copied :=
  if tooSmall d chunk then ⟨pixels, []⟩ else copyRows chunk data 1440 ⟨pixels, []⟩

theorem stride_toNat (chunk : Chunk) : (stride chunk).toNat = rowStride chunk := by
  simp only [stride, rowStride, Int32.lt_iff_toInt_lt, Int32.toInt_zero]
  by_cases positive : 0 < chunk.stride.toInt
  · rw [if_pos positive, if_pos positive, Int32.toNat_toUInt32_of_le]
    · rfl
    · exact Int32.le_iff_toInt_le.mpr (Int.le_of_lt positive)
  · rw [if_neg positive, if_neg positive]
    rfl

/-- The sum of the check cannot leave 64 bits. -/
theorem tooSmall_iff (d : SpaData) (chunk : Chunk) :
    tooSmall d chunk = true ↔ TooSmall d chunk := by
  have offset := chunk.offset.toNat_lt
  have distance := (stride chunk).toNat_lt
  have sum : (chunk.offset.toUInt64 + (stride chunk).toUInt64 * 1439 + 10240).toNat =
      chunk.offset.toNat + (stride chunk).toNat * 1439 + 10240 := by
    simp only [UInt64.toNat_add, UInt64.toNat_mul, UInt32.toNat_toUInt64, UInt64.reduceToNat]
    omega
  simp only [tooSmall, TooSmall, Bool.or_eq_true, decide_eq_true_eq, UInt32.lt_iff_toNat_lt,
    UInt64.lt_iff_toNat_lt, sum, stride_toNat, UInt32.toNat_toUInt64]
  rfl

/-- A plane that passes the check holds its last row. -/
theorem admitted_fits {d : SpaData} {chunk : Chunk} (admitted : tooSmall d chunk = false) :
    chunk.offset.toNat + 1439 * (stride chunk).toNat + 10240 ≤ d.maxsize.toNat := by
  have fits := mt (tooSmall_iff d chunk).mpr (by simp [admitted])
  simp only [TooSmall, not_or, not_lt, ← stride_toNat, Width, Height] at fits
  omega

theorem row_inside {d : SpaData} {chunk : Chunk} {y : Nat} (admitted : tooSmall d chunk = false)
    (row : y < 1440) :
    chunk.offset.toNat + y * (stride chunk).toNat + 10240 ≤ d.maxsize.toNat := by
  have fits := admitted_fits admitted
  have product : y * (stride chunk).toNat ≤ 1439 * (stride chunk).toNat :=
    Nat.mul_le_mul_right _ (by omega)
  omega

/-- As `maxsize` has 32 bits, so has the product. -/
theorem product_toNat {d : SpaData} {chunk : Chunk} {y : Nat} (admitted : tooSmall d chunk = false)
    (row : y < 1440) :
    (UInt32.ofNat y * stride chunk).toNat = y * (stride chunk).toNat := by
  have inside := row_inside admitted row
  have maxsize := d.maxsize.toNat_lt
  rw [UInt32.toNat_mul, UInt32.toNat_ofNat', Nat.mod_eq_of_lt (show y < 2 ^ 32 by omega)]
  exact Nat.mod_eq_of_lt (by omega)

theorem rowSource_eq {d : SpaData} {chunk : Chunk} {y : Nat} (admitted : tooSmall d chunk = false)
    (row : y < 1440) : rowSource chunk y = chunk.offset.toNat + y * (stride chunk).toNat := by
  rw [rowSource, product_toNat admitted row]

theorem copyRows_eq (chunk : Chunk) (data : Cells UInt8) (count : Nat) (c : Copied) :
    copyRows chunk data count c =
      ⟨copies c.pixels data (· * 10240) (rowSource chunk) 10240 count,
        c.reads ++ (List.range count).map (rowSource chunk · , 10240)⟩ := by
  induction count with
  | zero => simp [copyRows, copies]
  | succ count ih => simp [copyRows, copyRow, ih, copies, List.range_succ]

structure RowExact (d : SpaData) (chunk : Chunk) (data : Cells UInt8) (c : Copied) (y : Nat) :
    Prop where
  product : (UInt32.ofNat y * stride chunk).toNat = y * (stride chunk).toNat
  inside : chunk.offset.toNat + y * (stride chunk).toNat + 10240 ≤ d.maxsize.toNat
  row : ∀ x < 10240,
    c.pixels (y * 10240 + x) = data (chunk.offset.toNat + y * (stride chunk).toNat + x)

theorem copyPlane_row {d : SpaData} {chunk : Chunk} {y : Nat} (data pixels : Cells UInt8)
    (admitted : tooSmall d chunk = false) (row : y < 1440) :
    RowExact d chunk data (copyPlane d chunk data pixels) y where
  product := product_toNat admitted row
  inside := row_inside admitted row
  row x inside := by
    have separate : ∀ i j, i < j → i * 10240 + 10240 ≤ j * 10240 := by omega
    simp only [copyPlane, admitted, Bool.false_eq_true, if_false, copyRows_eq]
    rw [BlockCopy.copies_block separate row inside, rowSource_eq admitted row]

theorem copyPlane_reads {d : SpaData} {chunk : Chunk} (data pixels : Cells UInt8)
    (admitted : tooSmall d chunk = false) :
    (copyPlane d chunk data pixels).reads =
      (List.range 1440).map fun y => (chunk.offset.toNat + y * (stride chunk).toNat, 10240) := by
  simp only [copyPlane, admitted, Bool.false_eq_true, if_false, copyRows_eq, List.nil_append]
  refine List.map_congr_left fun y member => ?_
  rw [rowSource_eq admitted (List.mem_range.mp member)]

/-- Nothing beyond the last row of the frame is written. -/
theorem copyPlane_frame (d : SpaData) (chunk : Chunk) (data pixels : Cells UInt8) {address : Nat}
    (beyond : 14745600 ≤ address) :
    (copyPlane d chunk data pixels).pixels address = pixels address := by
  simp only [copyPlane]
  split
  · rfl
  · rw [copyRows_eq]
    exact BlockCopy.copies_outside fun y row => .inr (by omega)

/-- A copy of all rows, each of them exact, that touches nothing else. -/
structure CopyExact (d : SpaData) (chunk : Chunk) (data pixels : Cells UInt8) (c : Copied) :
    Prop where
  rows : ∀ y < 1440, RowExact d chunk data c y
  reads : c.reads =
    (List.range 1440).map fun y => (chunk.offset.toNat + y * (stride chunk).toNat, 10240)
  frame : ∀ address, 14745600 ≤ address → c.pixels address = pixels address

theorem copyPlane_exact {d : SpaData} {chunk : Chunk} (data pixels : Cells UInt8)
    (admitted : tooSmall d chunk = false) :
    CopyExact d chunk data pixels (copyPlane d chunk data pixels) where
  rows _ row := copyPlane_row data pixels admitted row
  reads := copyPlane_reads data pixels admitted
  frame _ beyond := copyPlane_frame d chunk data pixels beyond

def plane (buffer : SpaBuffer) : Option (SpaData × Chunk) :=
  buffer.datas.head?.bind fun d => d.chunk.map (d, ·)

theorem examine_plane {dma : Bool} {buffer : SpaBuffer} {d : SpaData} {chunk : Chunk}
    (seen : examine dma buffer = .seen d chunk) : plane buffer = some (d, chunk) := by
  simp only [examine] at seen
  split at seen
  · contradiction
  next datas =>
    split at seen
    · contradiction
    next present =>
      split at seen
      · contradiction
      split at seen
      · contradiction
      split at seen
      · contradiction
      · obtain ⟨rfl, rfl⟩ := Examined.seen.inj seen
        simp [plane, datas, present]

def Process.checked : Process → Option SpaBuffer
  | .scanning _ buffer _ | .chosen _ buffer _ => some buffer
  | _ => none

/-- What lets `consume` go on with a buffer in mapped memory. -/
def Admitted (s : State) : Prop :=
  s.session.dma = false → ∀ buffer, s.process.checked = some buffer →
    ∃ d chunk, plane buffer = some (d, chunk) ∧ tooSmall d chunk = false

theorem consume_admitted (s : State) (b : Buffer) (buffer : SpaBuffer) :
    Admitted (consume s b buffer) := by
  intro cpu checked found
  simp only [consume] at cpu found
  split at found
  · contradiction
  · contradiction
  next d chunk seen =>
    simp only [seen] at cpu
    by_cases small : s.session.dma = false ∧ TooSmall d chunk
    · rw [if_pos small] at found
      contradiction
    · rw [if_neg small] at found cpu
      cases found
      refine ⟨d, chunk, examine_plane seen, Bool.eq_false_iff.mpr fun rejected => small ?_⟩
      exact ⟨s.session.log_target.dma.symm.trans cpu, (tooSmall_iff d chunk).mp rejected⟩

theorem Admitted.keep {s next : State} (admitted : Admitted s)
    (dma : next.session.dma = s.session.dma)
    (checked : next.process.checked = s.process.checked) : Admitted next := by
  intro cpu buffer found
  exact admitted (dma.symm.trans cpu) buffer (checked.symm.trans found)

theorem process_admitted {s next : State} {a : ProcessAction} {events : List Event}
    (admitted : Admitted s) (taken : processStep s a = some (next, events)) : Admitted next := by
  cases processStep_moved taken with
  | @admitted b buffer at_ =>
    cases a with
    | consume buffer =>
      simp only [processStep, at_, Option.some.injEq, Prod.mk.injEq] at taken
      exact taken.1 ▸ consume_admitted s b buffer
    | _ => simp [processStep, at_, Process.guarded, State.goto] at taken
  | chose at_ => exact admitted.keep rfl (by rw [at_]; rfl)
  | passed at_ => exact admitted.keep rfl (by rw [at_]; rfl)
  | unchanged => exact admitted
  | _ =>
    intro _ _ found
    contradiction

theorem control_admitted {s next : State} {a : ControlAction} {events : List Event}
    (valid : Invariant s) (admitted : Admitted s) (moved : ControlMoved s a next events) :
    Admitted next := by
  have stays := control_process moved
  rcases control_target moved with ⟨target, _⟩ | ⟨now, _⟩
  · exact admitted.keep target.dma (by rw [stays])
  · -- A notification that is negotiated comes before any buffer has been looked at.
    intro _ buffer found
    have logged := valid.logged
    cases a with
    | paramChanged info refused =>
      rw [stays] at found
      cases at_ : s.process <;> simp_all [Process.checked, Process.admitted, Negotiation,
        Session.Negotiates]
    | _ => contradiction

theorem Bystander.admitted {s next : State} (bystander : Bystander s next)
    (admitted : Admitted s) : Admitted next :=
  admitted.keep bystander.target.dma (by rw [bystander.process])

theorem step_admitted {s next : State} {a : Action} {events : List Event} (valid : Invariant s)
    (admitted : Admitted s) (taken : step s a = some (next, events)) : Admitted next := by
  rcases step_bystander taken with ⟨p, rfl, _⟩ | ⟨c, rfl, moved⟩ | ⟨_, bystander⟩
  · exact process_admitted admitted taken
  · exact control_admitted valid admitted moved
  · exact bystander.admitted admitted

/-- In every run a buffer about to be copied has passed the size check. -/
theorem reachable_admitted {intel : Bool} {memory : Memory} {actions : List Action} {s : State}
    {trace : List Event}
    (run : Machine.exec step actions (.initial intel memory) = some (s, trace)) : Admitted s := by
  have both := Machine.invariant (fun s => Invariant s ∧ Admitted s)
    ⟨initial_invariant intel memory, fun _ buffer found => by simp [State.initial, Process.checked] at found⟩
    (fun _ _ _ _ valid taken => ⟨step_invariant valid.1 taken, step_admitted valid.1 valid.2 taken⟩)
    run
  exact both.2

/-- A plane that passes the check is copied exactly and no other is read; a session copies
from no other. A plane accepted for import is imported by its own numbers, for which the check
in 64 bits decides as the exact one. -/
theorem row_addressing_exact :
    (∀ (d : SpaData) (chunk : Chunk) (data pixels : Cells UInt8),
      (tooSmall d chunk = false →
        CopyExact d chunk data pixels (copyPlane d chunk data pixels)) ∧
      (tooSmall d chunk = true → copyPlane d chunk data pixels = ⟨pixels, []⟩)) ∧
    (∀ (intel : Bool) (memory : Memory) (actions : List Action) (s : State) (trace : List Event),
      Machine.exec step actions (.initial intel memory) = some (s, trace) → Admitted s) ∧
    (∀ (calls : List (VaapiCall (Fin PoolSize))) (v : Vaapi (Fin PoolSize))
      (accepted : List Accepted),
      Machine.exec Vaapi.step calls .initial = some (v, accepted) → ∀ a ∈ accepted, a.Exact) ∧
    ∀ (buffer : SpaBuffer) (d : SpaData) (chunk : Chunk) (modifier : UInt64) (size : Int64),
      importablePlane buffer = .ok (d, chunk) →
        checkObject chunk modifier size = checkSize chunk modifier size.toInt := by
  refine ⟨fun d chunk data pixels => ⟨copyPlane_exact data pixels, fun rejected => ?_⟩, ?_, ?_, ?_⟩
  · rw [copyPlane, if_pos rejected]
  · intro intel memory actions s trace run
    exact reachable_admitted run
  · intro calls v accepted run
    exact Vaapi.accepted_exact run
  · intro buffer d chunk modifier size importable
    exact checkObject_eq (importablePlane_ok importable) modifier size

/-- A linear DMA-BUF that ends with its last row, imported twice. -/
def importTwice : List (VaapiCall (Fin PoolSize)) :=
  [.importBuffer 7 screen 0 false 14745600 (.ok 3), .importBuffer 7 screen 0 false 1 (.ok 4)]

/-- A plane with a negative stride, a session about to copy `mappedScreen`, and a DMA-BUF. -/
theorem row_addressing_exact_screen :
    (∀ data pixels, CopyExact ⟨.memFd, 9, true, 14745601, none⟩ ⟨1, 1, -1, false⟩ data pixels
      (copyPlane ⟨.memFd, 9, true, 14745601, none⟩ ⟨1, 1, -1, false⟩ data pixels)) ∧
    (∃ s trace, Machine.exec step (reachCopy cpuFormat) (.initial true .auto) = some (s, trace) ∧
      s.process = .chosen 7 mappedScreen 0 ∧ Admitted s) ∧
    (∃ v first second, Machine.exec Vaapi.step importTwice .initial = some (v, [first, second]) ∧
      first.Exact ∧ second.Exact) ∧
    checkObject ⟨0, 14745600, 10240, false⟩ 0 14745599 =
      checkSize ⟨0, 14745600, 10240, false⟩ 0 14745599 := by
  obtain ⟨copies_, sessions, imports, checks⟩ := row_addressing_exact
  refine ⟨fun data pixels => (copies_ _ _ data pixels).1 (by decide), ?_, ?_, ?_⟩
  · have reached : (Machine.exec step (reachCopy cpuFormat) (.initial true .auto)).map
        (fun r => r.1.process) = some (.chosen 7 mappedScreen 0) := by
      decide +kernel
    obtain ⟨⟨s, trace⟩, run, at_⟩ := Option.map_eq_some_iff.mp reached
    exact ⟨s, trace, run, at_, sessions _ _ _ s trace run⟩
  · have run : Machine.exec Vaapi.step importTwice .initial = some (_, [_, _]) := rfl
    have exact_ := imports _ _ _ run
    exact ⟨_, _, _, run, exact_ _ (by simp), exact_ _ (by simp)⟩
  · exact checks screen _ _ 0 14745599 rfl

end Quest.Capture
