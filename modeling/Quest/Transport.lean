import Mathlib.Logic.Function.Basic
import Quest.Library.Machine
import Quest.Packet

/-! `TransportServer` at the granularity of its mutex-protected sections. Publishers run
`publish` as check, framing and enqueue; one worker runs the loop of `run`. Poll, accept,
recv and send results, clock readings and the schedule are carried by the actions. -/
namespace Quest.Transport

def queuePackets : Nat := 12
def queueBytes : Nat := 16 * 1024 * 1024
/-- Two seconds on the steady clock, in nanoseconds. -/
def stallLimit : Nat := 2000000000

/-- The members of the server. A connection is named by the value that its acceptance
gives to `accepted`. -/
structure Server where
  connected : Bool
  disconnect : Bool
  waitingForKeyframe : Fin MonitorCount → Bool
  queue : List (List UInt8)
  queuedBytes : Nat
  forceKeyframe : Fin MonitorCount → Bool
  accepted : Nat
  dropped : Nat
  slow : Nat
  stopping : Bool

def Server.initial : Server :=
  ⟨false, false, fun _ => false, [], 0, fun _ => false, 0, 0, 0, false⟩

/-- Subtraction of `size_t` values wraps around. -/
def sizeSub (a b : Nat) : Nat := (a + 2 ^ 64 - b) % 2 ^ 64

inductive Result where
  | unserved
  | dropped
  | queued (connection : Nat)
  | overflow
  | threw (message : String)
  deriving DecidableEq, Repr

/-- First locked section of `publish`; no result means that framing comes next. -/
def publishCheck (s : Server) (p : EncodedPacket) : Server × Option Result :=
  if s.connected = false ∨ s.disconnect = true then (s, some .unserved) else
    match streamIndex p.monitorId with
    | none => (s, some (.threw "array::at"))
    | some stream =>
      if s.waitingForKeyframe stream = true ∧ p.keyframe = false then
        ({ s with dropped := s.dropped + 1 }, some .dropped)
      else (s, none)

def Server.clearWaiting (s : Server) (stream : Fin MonitorCount) : Server :=
  { s with waitingForKeyframe := Function.update s.waitingForKeyframe stream false }

/-- The queue bound, tested after the keyframe flag has been settled. -/
def pushFramed (s : Server) (framed : List UInt8) : Server × Result :=
  if queuePackets ≤ s.queue.length ∨ queueBytes < s.queuedBytes + framed.length then
    ({ s with
      dropped := s.dropped + (s.queue.length + 1)
      queue := []
      queuedBytes := 0
      disconnect := true
      slow := s.slow + 1 }, .overflow)
  else
    ({ s with
      queuedBytes := s.queuedBytes + framed.length
      queue := s.queue ++ [framed] }, .queued s.accepted)

/-- Second locked section of `publish`. -/
def publishEnqueue (s : Server) (p : EncodedPacket) (framed : List UInt8) : Server × Result :=
  if s.connected = false ∨ s.disconnect = true then (s, .unserved) else
    match streamIndex p.monitorId with
    | none => (s, .threw "array::at")
    | some stream =>
      if s.waitingForKeyframe stream = true then
        if p.keyframe = false then ({ s with dropped := s.dropped + 1 }, .dropped)
        else pushFramed (s.clearWaiting stream) framed
      else pushFramed s framed

def takeKeyframeRequest (s : Server) (stream : Fin MonitorCount) : Server × Bool :=
  ({ s with forceKeyframe := Function.update s.forceKeyframe stream false }, s.forceKeyframe stream)

def clientConnected (s : Server) : Bool := s.connected && !s.disconnect

/-- The locked section of `closeClient`. -/
def closeShared (s : Server) : Server :=
  { s with
    connected := false
    disconnect := false
    queue := []
    queuedBytes := 0
    waitingForKeyframe := fun _ => true }

/-- The locked section after a successful accept. -/
def acceptShared (s : Server) : Server :=
  { s with
    connected := true
    waitingForKeyframe := fun _ => true
    forceKeyframe := fun _ => true
    accepted := s.accepted + 1 }

/-- `revents` of the listener and of the client. -/
structure Ready where
  listener : Bool
  failure : Bool
  input : Bool
  output : Bool
  deriving DecidableEq, Repr

/-- Where the worker continues after `closeClient`. -/
inductive Resume where
  | polling
  | head
  | stopped
  deriving DecidableEq, Repr

inductive Phase where
  | head
  | polling
  | accepting (fds : Ready)
  | serving (fds : Ready)
  | closing (resume : Resume)
  | stopped
  deriving DecidableEq, Repr

/-- The locals of `run`; `progress` is a reading of the steady clock. -/
structure Worker where
  client : Option Nat
  pending : List UInt8
  offset : Nat
  progress : Nat
  phase : Phase
  deriving DecidableEq, Repr

def Worker.initial : Worker := ⟨none, [], 0, 0, .head⟩

inductive Recv where
  | ended
  | data
  | again
  | failed
  deriving DecidableEq, Repr

inductive Send where
  | took (count : Nat)
  | again
  | failed
  deriving DecidableEq, Repr

inductive Publisher where
  | idle
  | calling (p : EncodedPacket)
  | framing (p : EncodedPacket)
  | framed (p : EncodedPacket) (bytes : List UInt8)
  deriving DecidableEq, Repr

inductive WorkerAction where
  | stop
  | head (now : Nat)
  | pollFailed (interrupted : Bool)
  | polled (fds : Ready) (acceptable : Bool)
  | accept
  | serve (recv : Recv) (send : Send) (sentAt now : Nat)
  | close
  deriving DecidableEq, Repr

inductive WorkerEvent where
  | accepted (connection : Nat)
  | refused (connection : Nat)
  | sent (connection : Nat) (bytes : List UInt8)
  | closed (connection : Nat)
  deriving DecidableEq, Repr

inductive Event (ι : Type*) where
  | published (publisher : ι) (p : EncodedPacket) (result : Result)
  | worker (event : WorkerEvent)

/-- The part of `closeClient` before its lock. -/
def closeClient (w : Worker) (resume : Resume) : Worker × List WorkerEvent :=
  ({ w with client := none, pending := [], offset := 0, phase := .closing resume },
    w.client.toList.map .closed)

/-- Descriptor -1 reports nothing, and POLLOUT is requested only for a pending packet. -/
def Ready.mask (fds : Ready) (w : Worker) : Ready where
  listener := fds.listener
  failure := fds.failure && w.client.isSome
  input := fds.input && w.client.isSome
  output := fds.output && w.client.isSome && !w.pending.isEmpty

def Worker.advance (w : Worker) (count now : Nat) : Worker :=
  if w.offset + count = w.pending.length then
    { w with pending := [], offset := 0, progress := now }
  else { w with offset := w.offset + count, progress := now }

/-- The stall test at the end of the loop body. -/
def stallCheck (s : Server) (w : Worker) (now : Nat) : Server × Worker × List WorkerEvent :=
  if w.pending ≠ [] ∧ stallLimit < now - w.progress then
    ({ s with slow := s.slow + 1 }, closeClient w .head)
  else (s, { w with phase := .head }, [])

/-- The loop body after the accept block. A send takes at most what it is given. -/
def serve (s : Server) (w : Worker) (fds : Ready) (recv : Recv) (send : Send) (sentAt now : Nat) :
    Option (Server × Worker × List WorkerEvent) :=
  match w.client with
  | none => some (s, { w with phase := .head }, [])
  | some connection =>
    if fds.failure then some (s, closeClient w .head)
    else if fds.input = true ∧ recv ≠ .again then some (s, closeClient w .head)
    else if w.pending ≠ [] ∧ fds.output = true then
      match send with
      | .failed => some (s, closeClient w .head)
      | .again => some (stallCheck s w now)
      | .took count =>
        if w.pending.length - w.offset < count then none
        else if count = 0 then some (stallCheck s w now)
        else
          let checked := stallCheck s (w.advance count sentAt) now
          some (checked.1, checked.2.1,
            .sent connection ((w.pending.drop w.offset).take count) :: checked.2.2)
    else some (stallCheck s w now)

/-- The locked section at the head of the loop body. -/
def head (s : Server) (w : Worker) (now : Nat) : Server × Worker × List WorkerEvent :=
  if s.disconnect then (s, closeClient w .polling)
  else if w.pending = [] then
    match s.queue with
    | [] => (s, { w with phase := .polling }, [])
    | front :: rest =>
      ({ s with queue := rest, queuedBytes := sizeSub s.queuedBytes front.length },
        { w with pending := front, offset := 0, progress := now, phase := .polling }, [])
  else (s, { w with phase := .polling }, [])

/-- Poll and, when the listener is readable, `accept4`. -/
def polled (s : Server) (w : Worker) (fds : Ready) (acceptable : Bool) :
    Worker × List WorkerEvent :=
  if fds.listener = true ∧ acceptable = true then
    match w.client with
    | some connection => ({ w with phase := .serving (fds.mask w) }, [.refused connection])
    | none => ({ w with client := some (s.accepted + 1), phase := .accepting (fds.mask w) }, [])
  else ({ w with phase := .serving (fds.mask w) }, [])

def Resume.phase : Resume → Phase
  | .polling => .polling
  | .head => .head
  | .stopped => .stopped

/-- The stopping flag may be set between its test and the head section, so the head
section is enabled whatever the flag is by then. -/
def workerStep (s : Server) (w : Worker) (a : WorkerAction) :
    Option (Server × Worker × List WorkerEvent) :=
  match a, w.phase with
  | .stop, .head => if s.stopping then some (s, closeClient w .stopped) else none
  | .head now, .head => some (head s w now)
  | .pollFailed interrupted, .polling =>
    if interrupted then some (s, { w with phase := .head }, [])
    else some (s, closeClient w .stopped)
  | .polled fds acceptable, .polling => some (s, polled s w fds acceptable)
  | .accept, .accepting fds =>
    some (acceptShared s, { w with phase := .serving fds }, [.accepted (s.accepted + 1)])
  | .serve recv send sentAt now, .serving fds => serve s w fds recv send sentAt now
  | .close, .closing resume => some (closeShared s, { w with phase := resume.phase }, [])
  | _, _ => none

inductive Action (ι : Type*) where
  | call (publisher : ι) (p : EncodedPacket)
  | check (publisher : ι)
  | frame (publisher : ι)
  | enqueue (publisher : ι)
  | worker (a : WorkerAction)
  | take (stream : Fin MonitorCount)
  | shutdown

structure State (ι : Type*) where
  server : Server
  worker : Worker
  publishers : ι → Publisher

def State.initial : State ι := ⟨.initial, .initial, fun _ => .idle⟩

variable [DecidableEq ι]

def State.place (s : State ι) (t : ι) (position : Publisher) : State ι :=
  { s with publishers := Function.update s.publishers t position }

def step : Machine.Step (State ι) (Action ι) (Event ι) := fun s a =>
  match a with
  | .call t p =>
    match s.publishers t with
    | .idle => some (s.place t (.calling p), [])
    | _ => none
  | .check t =>
    match s.publishers t with
    | .calling p =>
      let (server, result) := publishCheck s.server p
      match result with
      | none => some ({ s with server := server }.place t (.framing p), [])
      | some result => some ({ s with server := server }.place t .idle, [.published t p result])
    | _ => none
  | .frame t =>
    match s.publishers t with
    | .framing p =>
      match framePacket p with
      | .ok bytes => some (s.place t (.framed p bytes), [])
      | .error message => some (s.place t .idle, [.published t p (.threw message)])
    | _ => none
  | .enqueue t =>
    match s.publishers t with
    | .framed p bytes =>
      let (server, result) := publishEnqueue s.server p bytes
      some ({ s with server := server }.place t .idle, [.published t p result])
    | _ => none
  | .worker a =>
    (workerStep s.server s.worker a).map fun (server, worker, events) =>
      ({ s with server := server, worker := worker }, events.map .worker)
  | .take stream => some ({ s with server := (takeKeyframeRequest s.server stream).1 }, [])
  | .shutdown => some ({ s with server := { s.server with stopping := true } }, [])

end Quest.Transport
