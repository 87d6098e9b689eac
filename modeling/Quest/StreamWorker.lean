import Quest.TransportTrace
import Quest.VideoEncoder

/-! The stream workers of `stream_main` over the transport: one loop per stream that takes
a sample and a keyframe request, encodes, and hands every packet to `publish`. Samples,
failures and the readings of the clock are carried by the actions. -/
namespace Quest.Host

open Transport (Server Publisher WorkerAction Event Result takeKeyframeRequest)

/-- The outcome of `capture->next`; a recovered failure is one after which the CPU capture
session could be made. -/
inductive Next where
  | sample (ptsUs : Int64)
  | empty
  | failed (recovered : Bool)
  deriving DecidableEq, Repr

/-- Where a worker stands in its loop. In `draining` it is inside `encode`, in `flushing`
inside `flush`. -/
inductive Phase where
  | head
  | taking
  | deciding
  | draining
  | flushing
  | finished
  | failed
  deriving DecidableEq, Repr

/-- The locals of one worker; samples are known by their source timestamps. `handing` is
the frame whose packet the sink is handing to `publish`. -/
structure StreamWorker where
  encoder : VideoEncoder
  phase : Phase
  sample : Option Int64
  lastSample : Option Int64
  forcePending : Bool
  consumed : Nat
  canRetry : Bool
  handing : Option Submission
  deriving DecidableEq, Repr

def StreamWorker.initial (stream : Fin MonitorCount) (canRetry : Bool) : StreamWorker :=
  ⟨.initial (.ofNat stream), .head, none, none, false, 0, canRetry, none⟩

def StreamWorker.Running (w : StreamWorker) : Prop := w.phase ≠ .finished ∧ w.phase ≠ .failed

inductive StreamAction where
  | next (outcome : Next)
  | take
  | encode (elapsed : Bool) (presentationUs : Int64) (sent : Bool)
  | skip (late : Bool)
  | receive (data : List UInt8) (written : Bool)
  | drained
  | leave (sent : Bool)
  | raise
  deriving DecidableEq, Repr

/-- `next`, with the retry that falls back to CPU capture once. -/
def StreamWorker.next (w : StreamWorker) : Next → StreamWorker
  | .sample ptsUs => { w with sample := some ptsUs, phase := .taking }
  | .empty => { w with sample := none, phase := .taking }
  | .failed recovered =>
    if w.canRetry = true ∧ recovered = true then
      { w with canRetry := false, lastSample := none, forcePending := true, consumed := 0 }
    else { w with phase := .failed }

/-- The frame to encode: the new sample, or the last one when a keyframe is wanted or it
has stood for a second. -/
def StreamWorker.source (w : StreamWorker) (elapsed : Bool) : Option Int64 :=
  match w.sample with
  | some ptsUs => some ptsUs
  | none => if w.forcePending || elapsed then w.lastSample else none

/-- `encode` up to its drain. -/
def StreamWorker.encode (w : StreamWorker) (ptsUs presentationUs : Int64) (sent : Bool) :
    StreamWorker :=
  if sent then
    { w with
      encoder := w.encoder.submit ptsUs w.forcePending presentationUs
      phase := .draining }
  else { w with encoder := w.encoder.countAdjustment ptsUs presentationUs, phase := .failed }

/-- The rest of the loop body once `encode` has returned. -/
def StreamWorker.encoded (w : StreamWorker) : StreamWorker :=
  match w.sample with
  | some ptsUs =>
    { w with
      forcePending := false
      consumed := w.consumed + 1
      lastSample := some ptsUs
      sample := none
      phase := .head }
  | none => { w with forcePending := false, phase := .head }

structure State where
  transport : Transport.State (Fin MonitorCount)
  streams : Fin MonitorCount → StreamWorker

def State.initial (canRetry : Bool) : State := ⟨.initial, fun i => .initial i canRetry⟩

inductive Action where
  | server (a : WorkerAction)
  | shutdown
  | check (stream : Fin MonitorCount)
  | frame (stream : Fin MonitorCount)
  | enqueue (stream : Fin MonitorCount)
  | stream (stream : Fin MonitorCount) (a : StreamAction)

def State.put (s : State) (stream : Fin MonitorCount) (w : StreamWorker) : State :=
  { s with streams := Function.update s.streams stream w }

def serverStep (s : State) (a : Transport.Action (Fin MonitorCount)) : Option State :=
  (Transport.step s.transport a).map fun taken => { s with transport := taken.1 }

/-- One packet out of the encoder, through the sink into `publish`. FFmpeg answers a forced
frame with an IDR picture. -/
def receive (s : State) (stream : Fin MonitorCount) (data : List UInt8) (written : Bool) :
    Option State :=
  let w := s.streams stream
  match w.encoder.receive data with
  | none => none
  | some (encoder, frame, result) =>
    if frame.forced = true ∧ ¬IsIdr data then none else
      match result with
      | .error _ => some (s.put stream { w with encoder := encoder, phase := .failed })
      | .ok packet =>
        if written then
          (serverStep s (.call stream packet)).map fun next =>
            next.put stream { w with encoder := encoder, handing := some frame }
        else some (s.put stream { w with encoder := encoder, phase := .failed })

/-- One step of a stream worker's own loop, between its calls of `publish`. What throws
outside the modelled calls is the action `raise`. -/
def streamStep (s : State) (stream : Fin MonitorCount) (a : StreamAction) : Option State :=
  let w := s.streams stream
  match a, w.phase with
  | .next outcome, .head => some (s.put stream (w.next outcome))
  | .take, .taking =>
    let (server, requested) := takeKeyframeRequest s.transport.server stream
    some ({ s with transport := { s.transport with server := server } }.put stream
      { w with forcePending := w.forcePending || requested, phase := .deciding })
  | .encode elapsed presentationUs sent, .deciding =>
    (w.source elapsed).map fun ptsUs => s.put stream (w.encode ptsUs presentationUs sent)
  | .skip late, .deciding =>
    if w.source false = none then
      some (s.put stream { w with phase := if w.consumed = 0 ∧ late = true then .failed else .head })
    else none
  | .receive data written, .draining => receive s stream data written
  | .receive data written, .flushing => receive s stream data written
  | .drained, .draining => some (s.put stream w.encoded)
  | .drained, .flushing => some (s.put stream { w with phase := .finished })
  | .leave sent, .head =>
    some (s.put stream { w with phase := if sent then .flushing else .failed })
  | .raise, _ => some (s.put stream { w with phase := .failed })
  | _, _ => none

def thrown (events : List (Event (Fin MonitorCount))) : Bool :=
  events.any fun
    | .published _ _ result => result.thrown
    | .worker _ => false

/-- A step inside `publish`; an exception of the call ends the stream's worker. -/
def publishStep (s : State) (stream : Fin MonitorCount)
    (a : Transport.Action (Fin MonitorCount)) : Option State :=
  (Transport.step s.transport a).map fun (transport, events) =>
    let w := s.streams stream
    { s with transport := transport }.put stream
      (if thrown events then { w with phase := .failed } else w)

/-- A worker acts in its loop only while its publisher is idle. -/
def act (s : State) : Action → Option State
  | .server a => serverStep s (.worker a)
  | .shutdown => serverStep s .shutdown
  | .check stream => publishStep s stream (.check stream)
  | .frame stream => publishStep s stream (.frame stream)
  | .enqueue stream => publishStep s stream (.enqueue stream)
  | .stream stream a =>
    if s.transport.publishers stream = .idle ∧ (s.streams stream).phase ≠ .finished then
      streamStep s stream a
    else none

def step : Machine.Step State Action Empty := fun s a => (act s a).map fun next => (next, [])

end Quest.Host
