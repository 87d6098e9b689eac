import Mathlib.Data.List.Count
import Quest.Converter
import Quest.Library.Machine

/-! A `CaptureSession` with the three threads that use it: PipeWire's data thread inside
`onProcess`, its control loop inside the other callbacks, and the stream worker, which takes
samples, encodes them and at last destroys the session. A step is one access to state that
another thread uses; what PipeWire, the GPU, the encoder and the clocks do is carried by the
actions. -/
namespace Quest.Capture

abbrev PoolSize : Nat := 5

def formatUnexpected : String := "Unexpected capture format (requires 2560x1440 BGRx)"
def memoryRefused : String :=
  "Producer negotiated CPU memory despite required DMA-BUF (stop other consumers before retrying)"
def formatChanged : String := "Capture format changed; restart capture"
def memoryUnexpected : String := "Negotiated DMA-BUF but received another memory type"
def bufferTooSmall : String := "Captured buffer is smaller than 2560x1440 BGRx"
def memoryChanged : String := "Capture memory type changed; restart capture"
def badAlloc : String := "std::bad_alloc"

/-- A frame of the pool: the size of its pixels, whether it has a surface, and the arrival
whose image it holds. -/
structure Frame where
  pixels : Nat
  hardware : Bool
  ptsUs : Int
  image : Nat
  deriving DecidableEq, Repr

structure Session where
  converter : Option (Converter (Fin PoolSize))
  stopping : Bool
  dma : Bool
  alpha : Bool
  requireDma : Bool
  logged : Bool
  receivedDma : Bool
  modifier : UInt64
  streamed : Bool
  pool : Fin PoolSize → Frame
  queue : List (Fin PoolSize)
  error : String
  arrivals : Nat
  drops : Nat

namespace Session

def fail (s : Session) (message : String) : Session :=
  if s.error = "" then { s with error := message } else s

def stop (s : Session) : Session := { s with stopping := true }

def drop (s : Session) : Session := { s with drops := s.drops + 1 }

def setConverter (s : Session) (c : Converter (Fin PoolSize)) : Session :=
  { s with converter := some c }

end Session

inductive StreamState where
  | streaming
  | error
  | unconnected
  | other
  deriving DecidableEq, Repr

def onStateChanged (s : Session) (state : StreamState) (message : Option String) : Session :=
  match state with
  | .streaming => { s with streamed := true }
  | .error => s.fail (message.getD "PipeWire stream error")
  | .unconnected => if s.streamed then s.fail "PipeWire stream ended" else s
  | .other => s

inductive PixelFormat where
  | bgrx
  | bgra
  | other
  deriving DecidableEq, Repr

/-- A format notification as it is parsed; `hasModifier` tells whether the property is
there. -/
structure Format where
  parsed : Bool
  width : Nat
  height : Nat
  format : PixelFormat
  hasModifier : Bool
  modifier : UInt64
  deriving DecidableEq, Repr

def Format.Supported (info : Format) : Prop :=
  info.parsed = true ∧ info.width = Width ∧ info.height = Height ∧ info.format ≠ .other

instance (info : Format) : Decidable info.Supported := by
  unfold Format.Supported; infer_instance

def Frame.useMemory (frame : Frame) : Frame :=
  { frame with pixels := Width * 4 * Height, hardware := false }

/-- Frames get pixels in place of their surfaces, up to the one whose allocation fails. -/
def Session.useMemory (s : Session) (refused : Option (Fin PoolSize)) : Session :=
  match refused with
  | none => { s with pool := fun f => (s.pool f).useMemory }
  | some first =>
    let pool (f : Fin PoolSize) := if f < first then (s.pool f).useMemory else s.pool f
    ({ s with pool := pool }.fail badAlloc).stop

/-- A format notification; of others the session takes no notice. -/
def onParamChanged (s : Session) (info : Format) (refused : Option (Fin PoolSize)) : Session :=
  let dma := s.converter.isSome && info.hasModifier
  let alpha := info.format == .bgra
  if ¬info.Supported then s.fail formatUnexpected
  else if s.requireDma = true ∧ dma = false then (s.fail memoryRefused).stop
  else if s.logged = true then
    if dma ≠ s.dma ∨ info.modifier ≠ s.modifier ∨ alpha ≠ s.alpha then (s.fail formatChanged).stop
    else s
  else
    let negotiated := { s with dma := dma, modifier := info.modifier, alpha := alpha }
    if dma then negotiated else negotiated.useMemory refused

/-- What `consume` finds before it logs the memory type. -/
inductive Examined where
  | dropped
  | threw (message : String)
  | seen (d : SpaData) (chunk : Chunk)

def examine (dma : Bool) (buffer : SpaBuffer) : Examined :=
  match buffer.datas with
  | [] => .dropped
  | d :: _ =>
    match d.chunk with
    | none => .dropped
    | some chunk =>
      if chunk.corrupted then .dropped
      else if dma = true ∧ d.type ≠ .dmaBuf then .threw memoryUnexpected
      else if dma = false ∧ (d.mapped = false ∨ chunk.size = 0) then .dropped
      else .seen d chunk

def Session.log (s : Session) : Session :=
  if s.logged then s else { s with receivedDma := s.dma, logged := true }

def rowStride (chunk : Chunk) : Nat :=
  if 0 < chunk.stride.toInt then chunk.stride.toInt.toNat else Width * 4

def TooSmall (d : SpaData) (chunk : Chunk) : Prop :=
  rowStride chunk < Width * 4 ∨
    d.maxsize.toNat < chunk.offset.toNat + rowStride chunk * (Height - 1) + Width * 4

instance (d : SpaData) (chunk : Chunk) : Decidable (TooSmall d chunk) := by
  unfold TooSmall; infer_instance

/-- The header's timestamp, or the steady clock's in microseconds. -/
def framePts (buffer : SpaBuffer) (now : Int) : Int :=
  match buffer.pts with
  | some pts => if 0 ≤ pts then pts / 1000 else now
  | none => now

/-- The locked section at the end of `consume`. -/
def Session.push (s : Session) (f : Fin PoolSize) : Session :=
  if s.queue.length = 2 then { s with queue := s.queue.tail ++ [f], drops := s.drops + 1 }
  else { s with queue := s.queue ++ [f] }

def Session.write (s : Session) (f : Fin PoolSize) (change : Frame → Frame) : Session :=
  { s with pool := Function.update s.pool f (change (s.pool f)) }

def takeLatest (s : Session) : Session × Option (Fin PoolSize) :=
  if s.queue = [] then (s, none)
  else ({ s with queue := [], drops := s.drops + (s.queue.length - 1) }, s.queue.getLast?)

/-- Where the data thread stands in `onProcess`, with the buffer it has dequeued; from
`consuming` on it is inside `consume`. -/
inductive Process where
  | idle
  | entered
  | locked
  | draining (latest : Option Buffer)
  | consuming (b : Buffer)
  | scanning (b : Buffer) (buffer : SpaBuffer) (candidate : Nat)
  | chosen (b : Buffer) (buffer : SpaBuffer) (f : Fin PoolSize)
  | imported (b : Buffer) (buffer : SpaBuffer) (f : Fin PoolSize)
  | written (b : Buffer) (buffer : SpaBuffer) (f : Fin PoolSize)
  | failing (b : Buffer) (message : String)
  | returning (b : Buffer)
  deriving DecidableEq, Repr

namespace Process

def buffer : Process → Option Buffer
  | .idle | .entered | .locked => none
  | .draining latest => latest
  | .consuming b | .scanning b _ _ | .chosen b _ _ | .imported b _ _ | .written b _ _
  | .failing b _ | .returning b => some b

def frame : Process → Option (Fin PoolSize)
  | .chosen _ _ f | .imported _ _ f | .written _ _ f => some f
  | _ => none

/-- The buffer whose exception the handler of `onProcess` would catch. -/
def guarded : Process → Option Buffer
  | .consuming b | .scanning b _ _ | .chosen b _ _ | .imported b _ _ | .written b _ _ => some b
  | _ => none

end Process

inductive Control where
  | idle
  | adding (b : Buffer) (buffer : SpaBuffer)
  | failing (message : String)
  | removing (b : Buffer)
  deriving DecidableEq, Repr

inductive Teardown where
  | alive
  | stopping
  | loopLocked
  | processingLocked
  | settled
  | destroyed
  deriving DecidableEq, Repr

/-- Where the stream worker stands in its loop: `referencing` and `encoding` are inside
`encode`, before and after it references the frame; in `left` the loop is over. -/
inductive Phase where
  | head
  | waiting
  | taken
  | referencing
  | encoding
  | encoded
  | left
  deriving DecidableEq, Repr

/-- A reference of the encoder: to the surface of a frame, or to the frame itself. -/
inductive Ref where
  | surface (f : Fin PoolSize)
  | owner (f : Fin PoolSize)
  deriving DecidableEq, Repr

def Ref.frame : Ref → Fin PoolSize
  | .surface f | .owner f => f

structure Worker where
  intel : Bool
  phase : Phase
  sample : Option (Fin PoolSize)
  lastSample : Option (Fin PoolSize)
  mapped : Option (Fin PoolSize)
  refs : List Ref
  deriving DecidableEq, Repr

structure State where
  session : Session
  process : Process
  withheld : Option Buffer
  control : Control
  teardown : Teardown
  worker : Worker

inductive Memory where
  | auto
  | cpu
  | dmabuf
  deriving DecidableEq, Repr

/-- A session made by a worker whose encoder is Intel's or NVENC. -/
def State.initial (intel : Bool) (memory : Memory) : State :=
  let converting := intel && memory != .cpu
  { session := {
      converter := if converting then some .initial else none
      stopping := false
      dma := false
      alpha := false
      requireDma := memory == .dmabuf
      logged := false
      receivedDma := false
      modifier := 0
      streamed := false
      pool := fun _ => ⟨if converting then 0 else Width * 4 * Height, converting, 0, 0⟩
      queue := []
      error := ""
      arrivals := 0
      drops := 0 }
    process := .idle
    withheld := none
    control := .idle
    teardown := .alive
    worker := ⟨intel, .head, none, none, none, []⟩ }

inductive Event where
  | dequeued (b : Buffer)
  | requeued (b : Buffer)
  | caught (b : Buffer) (dma : Bool)
  | withheld (b : Buffer)
  | returned
  | starved
  | queued (image : Nat)
  | delivered (image : Nat)
  | removed (b : Buffer) (imported reads : Bool)
  | settled
  | destroyed
  deriving DecidableEq, Repr

namespace State

def setSession (s : State) (session : Session) : State := { s with session := session }

def goto (s : State) (process : Process) : State := { s with process := process }

/-- Owners of a pool frame, the pool itself among them. -/
def useCount (s : State) (f : Fin PoolSize) : Nat :=
  1 + s.session.queue.count f + [s.worker.sample, s.worker.lastSample, s.worker.mapped,
    s.process.frame].count (some f) + s.worker.refs.count (.owner f)

/-- The test of the pool loop: a single owner, and a writable surface if there is one. -/
def free (s : State) (f : Fin PoolSize) : Bool :=
  s.useCount f = 1 && (!(s.session.pool f).hardware || .surface f ∉ s.worker.refs)

/-- PipeWire hands out only buffers that are not dequeued already. -/
def available (s : State) (b : Buffer) : Bool :=
  s.process.buffer ≠ some b && s.withheld ≠ some b

end State

inductive ProcessAction where
  | enter
  | lock
  | recheck
  | dequeue (next : Option Buffer)
  | consume (buffer : SpaBuffer)
  | scan
  | importBuffer (size : Int) (created : Except String Surface)
  | convert (processed : Processed)
  | copy
  | push (now : Int)
  | raise (message : String)
  | handle
  | requeue

def finishProcess (s : State) : Option (State × List Event) := some (s.goto .idle, [.returned])

/-- `consume` from its first line to the pool loop. -/
def consume (s : State) (b : Buffer) (buffer : SpaBuffer) : State :=
  match examine s.session.dma buffer with
  | .dropped => (s.setSession s.session.drop).goto (.returning b)
  | .threw message => s.goto (.failing b message)
  | .seen d chunk =>
    let logged := s.setSession s.session.log
    if s.session.dma = false ∧ TooSmall d chunk then
      (s.setSession (s.session.log.fail bufferTooSmall)).goto (.returning b)
    else logged.goto (.scanning b buffer 0)

/-- The DMA-BUF path of `consume` up to the conversion. -/
def importStep (s : State) (b : Buffer) (buffer : SpaBuffer) (f : Fin PoolSize) (size : Int)
    (created : Except String Surface) : Option (State × List Event) :=
  if s.session.dma = false then none
  else if (s.session.pool f).hardware = false then some (s.goto (.failing b memoryChanged), [])
  else
    match s.session.converter with
    | none => none
    | some c =>
      match c.importBuffer b buffer s.session.modifier s.session.alpha size created with
      | .error message => some (s.goto (.failing b message), [])
      | .ok c => some ((s.setSession (s.session.setConverter c)).goto (.imported b buffer f), [])

def handle (s : State) (b : Buffer) (message : String) : State × List Event :=
  let failed := s.setSession (s.session.stop.fail message)
  if s.session.dma then
    ({ failed with withheld := some b }.goto .idle, [.caught b true, .withheld b, .returned])
  else (failed.goto (.returning b), [.caught b false])

def processStep (s : State) (a : ProcessAction) : Option (State × List Event) :=
  match a, s.process with
  | .enter, .idle =>
    if s.teardown = .destroyed then none
    else if s.session.stopping then finishProcess s
    else some (s.goto .entered, [])
  | .lock, .entered =>
    match s.teardown with
    | .alive | .stopping | .loopLocked => some (s.goto .locked, [])
    | .processingLocked | .settled | .destroyed => finishProcess s
  | .recheck, .locked =>
    if s.session.stopping then finishProcess s else some (s.goto (.draining none), [])
  | .dequeue none, .draining none => finishProcess s
  | .dequeue none, .draining (some b) => some (s.goto (.consuming b), [])
  | .dequeue (some next), .draining latest =>
    if s.available next then
      let arrived := { s.session with arrivals := s.session.arrivals + 1 }
      match latest with
      | none => some ((s.setSession arrived).goto (.draining (some next)), [.dequeued next])
      | some b =>
        some ((s.setSession arrived.drop).goto (.draining (some next)),
          [.dequeued next, .requeued b])
    else none
  | .consume buffer, .consuming b => some (consume s b buffer, [])
  | .scan, .scanning b buffer candidate =>
    -- One candidate at a time: the worker runs between two of them.
    if inside : candidate < PoolSize then
      if s.free ⟨candidate, inside⟩ then some (s.goto (.chosen b buffer ⟨candidate, inside⟩), [])
      else some (s.goto (.scanning b buffer (candidate + 1)), [])
    else some ((s.setSession s.session.drop).goto (.returning b), [.starved])
  | .importBuffer size created, .chosen b buffer f => importStep s b buffer f size created
  | .convert processed, .imported b buffer f =>
    match s.session.converter with
    | none => none
    | some c =>
      match c.convert b f processed with
      | (c, none) =>
        let wrote := (s.session.setConverter c).write f ({ · with image := s.session.arrivals })
        some ((s.setSession wrote).goto (.written b buffer f), [])
      | (c, some message) =>
        some ((s.setSession (s.session.setConverter c)).goto (.failing b message), [])
  | .copy, .chosen b buffer f =>
    if s.session.dma then none
    else
      let wrote := s.session.write f ({ · with image := s.session.arrivals })
      some ((s.setSession wrote).goto (.written b buffer f), [])
  | .push now, .written b buffer f =>
    let stamped := s.session.write f ({ · with ptsUs := framePts buffer now })
    some ((s.setSession (stamped.push f)).goto (.returning b), [.queued (s.session.pool f).image])
  | .raise message, process =>
    -- No exception has an empty text.
    if message = "" then none
    else process.guarded.map fun b => (s.goto (.failing b message), [])
  | .handle, .failing b message => some (handle s b message)
  | .requeue, .returning b => some (s.goto .idle, [.requeued b, .returned])
  | _, _ => none

inductive ControlAction where
  | stateChanged (state : StreamState) (message : Option String)
  | paramChanged (info : Format) (refused : Option (Fin PoolSize))
  | addBuffer (b : Buffer) (buffer : SpaBuffer)
  | importBuffer (size : Int) (created : Except String Surface)
  | handle
  | removeBuffer (b : Buffer)
  | remove

def ControlAction.starts : ControlAction → Teardown → Bool
  | .stateChanged _ _, .settled | .removeBuffer _, .settled => true
  | _, .alive | _, .stopping => true
  | _, _ => false

def Importable (s : Session) (buffer : SpaBuffer) : Prop :=
  s.dma = true ∧ ∃ d ∈ buffer.datas.head?, ∃ chunk ∈ d.chunk, 0 < chunk.stride.toInt

instance (s : Session) (buffer : SpaBuffer) : Decidable (Importable s buffer) := by
  unfold Importable; infer_instance

/-- The return of `remove_buffer`, and what the converter then still has of the buffer. -/
def removedEvent (s : Session) (b : Buffer) : Event :=
  match s.converter with
  | none => .removed b false false
  | some c => .removed b (c.Imported b) (c.Reads b)

def controlStep (s : State) (a : ControlAction) : Option (State × List Event) :=
  match a, s.control with
  | .importBuffer size created, .adding b buffer =>
    match s.session.converter with
    | none => none
    | some c =>
      match c.importBuffer b buffer s.session.modifier s.session.alpha size created with
      | .error message => some ({ s with control := .failing message }, [])
      | .ok c => some ({ s.setSession (s.session.setConverter c) with control := .idle }, [])
  | .handle, .failing message =>
    some ({ s.setSession (s.session.fail message).stop with control := .idle }, [])
  | .remove, .removing b =>
    match s.session.converter with
    | none => none
    | some c =>
      let after := s.session.setConverter (c.remove b)
      some ({ s.setSession after with control := .idle }, [removedEvent after b])
  | a, .idle =>
    if a.starts s.teardown then
      match a with
      | .stateChanged state message =>
        some (s.setSession (onStateChanged s.session state message), [])
      | .paramChanged info refused => some (s.setSession (onParamChanged s.session info refused), [])
      | .addBuffer b buffer =>
        if Importable s.session buffer then some ({ s with control := .adding b buffer }, [])
        else some (s, [])
      | .removeBuffer b =>
        -- The flag is read here; the buffer is released in a later step.
        if s.session.converter.isSome = true ∧ s.session.stopping = false then
          some ({ s with control := .removing b }, [])
        else some (s, [removedEvent s.session b])
      | _ => none
    else none
  | _, _ => none

inductive WorkerAction where
  | check
  | take
  | map (repeating : Bool)
  | reference (upload : Option Bool)
  | forget (kept : Ref → Bool)
  | encoded
  | move
  | unmap
  | raise
  | leave
  | unwind

/-- The new sample, or the last one if it is to be repeated. -/
def Worker.source (w : Worker) (repeating : Bool) : Option (Fin PoolSize) :=
  match w.sample with
  | some f => some f
  | none => if repeating then w.lastSample else none

def State.setWorker (s : State) (w : Worker) : State := { s with worker := w }

/-- `encode` references the surface of a frame that has one and uploads one that has none;
NVENC references the frame itself. -/
def reference (s : State) (f : Fin PoolSize) (upload : Option Bool) : State :=
  let w := s.worker
  match w.intel, (s.session.pool f).hardware with
  | true, true => s.setWorker { w with refs := .surface f :: w.refs, phase := .encoding }
  | true, false =>
    match upload with
    | none => s.setWorker { w with phase := .left }
    | some begun =>
      let session := { s.session with converter := s.session.converter.map (·.upload begun) }
      (s.setSession session).setWorker { w with phase := if begun then .encoding else .left }
  | false, true => s.setWorker { w with phase := .left }
  | false, false => s.setWorker { w with refs := .owner f :: w.refs, phase := .encoding }

/-- The locals of the loop go in the reverse of their order. -/
def Worker.unwind (w : Worker) : Worker :=
  if w.mapped ≠ none then { w with mapped := none }
  else if w.sample ≠ none then { w with sample := none }
  else { w with lastSample := none }

def workerStep (s : State) (a : WorkerAction) : Option (State × List Event) :=
  let w := s.worker
  match a, w.phase with
  | .check, .head =>
    some (s.setWorker { w with phase := if s.session.error = "" then .waiting else .left }, [])
  | .take, .waiting =>
    let (session, sample) := takeLatest s.session
    some ((s.setSession session).setWorker { w with sample := sample, phase := .taken },
      sample.toList.map fun f => .delivered (session.pool f).image)
  | .map repeating, .taken =>
    match w.source repeating with
    | none => some (s.setWorker { w with phase := .head }, [])
    | some f => some (s.setWorker { w with mapped := some f, phase := .referencing }, [])
  | .reference upload, .referencing => w.mapped.map fun f => (reference s f upload, [])
  | .forget kept, _ => some (s.setWorker { w with refs := w.refs.filter kept }, [])
  | .encoded, .encoding =>
    -- The encoder returns without a reference to any earlier frame.
    if ∀ ref ∈ w.refs, w.mapped = some ref.frame then
      some (s.setWorker { w with phase := .encoded }, [])
    else none
  | .move, .encoded =>
    if w.sample = none then none
    else some (s.setWorker { w with lastSample := w.sample, sample := none }, [])
  | .unmap, .encoded =>
    if w.sample = none then some (s.setWorker { w with mapped := none, phase := .head }, [])
    else none
  | .raise, .waiting => none
  | .raise, _ => some (s.setWorker { w with phase := .left }, [])
  | .leave, .head => some (s.setWorker { w with phase := .left }, [])
  | .unwind, .left => some (s.setWorker w.unwind, [])
  | _, _ => none

/-- The next statement of the destructor, when its lock is free. -/
def teardownStep (s : State) : Option (State × List Event) :=
  match s.teardown with
  | .alive =>
    if s.worker.phase = .left then
      some ({ s.setSession s.session.stop with teardown := .stopping }, [])
    else none
  | .stopping => if s.control = .idle then some ({ s with teardown := .loopLocked }, []) else none
  | .loopLocked =>
    if s.process = .idle ∨ s.process = .entered then
      some ({ s with teardown := .processingLocked }, [])
    else none
  | .processingLocked =>
    let session := { s.session with converter := s.session.converter.map Converter.settle }
    some ({ s.setSession session with teardown := .settled }, [.settled])
  | .settled =>
    if s.control = .idle then
      some ({ s with teardown := .destroyed, withheld := none }, [.destroyed])
    else none
  | .destroyed => none

inductive Action where
  | process (a : ProcessAction)
  | control (a : ControlAction)
  | worker (a : WorkerAction)
  | teardown
  | gpu (finished : Conversion (Fin PoolSize) → Bool)

def gpuStep (s : State) (finished : Conversion (Fin PoolSize) → Bool) : State :=
  s.setSession { s.session with converter := s.session.converter.map (·.finish finished) }

def step : Machine.Step State Action Event := fun s a =>
  match a with
  | .process a => processStep s a
  | .control a => controlStep s a
  | .worker a => workerStep s a
  | .teardown => teardownStep s
  | .gpu finished => some (gpuStep s finished, [])

def screen : SpaBuffer :=
  ⟨[⟨.dmaBuf, 9, false, 0, some ⟨0, 14745600, 10240, false⟩⟩], some 16000000⟩

def dmaFormat : Format := ⟨true, 2560, 1440, .bgrx, true, 1⟩

def convertScreen (processed : Processed) : List Action := [
  .control (.paramChanged dmaFormat none), .process .enter, .process .lock, .process .recheck,
  .process (.dequeue (some 7)), .process (.dequeue none), .process (.consume screen), .process .scan,
  .process (.importBuffer 16000000 (.ok 3)), .process (.convert processed)]

end Quest.Capture
