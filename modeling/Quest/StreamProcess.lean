import Quest.HeadsetMode
import Quest.HostDelivery
import Quest.StreamOptions

/-! The process of `stream_main`: a thread for each selected stream, the main thread with its
headset-mode loop, and the flags and reports that they share. Inside their loops the stream
threads are those of the host model. -/
namespace Quest.StreamProcess

/-- Which monitors the loop over the discovered ones does not skip. -/
def selects (selection : String) (i : Fin MonitorCount) : Bool :=
  selection = "all" || selection = toString i.val

inductive Report where
  | done (encodedFrames bytes timestampAdjustments : Nat)
  | error (what : String)
  deriving DecidableEq, Repr

/-- Where the thread of a stream stands. In `ending` it has flushed its encoder; in `blamed` its
handler has set `failed` and not yet written its report. -/
inductive Thread where
  | absent
  | setup
  | streaming
  | ending
  | caught
  | blamed
  | reported
  | returned
  deriving DecidableEq, Repr

def Thread.active (t : Thread) : Bool := t ≠ .absent ∧ t ≠ .returned

inductive MainThread where
  | starting (rest : List (Fin MonitorCount))
  | watching
  | polling
  | joining
  | exited (saved : Bool) (code : Nat)
  deriving DecidableEq, Repr

structure Process where
  settings : StreamSettings
  host : Host.State
  threads : Fin MonitorCount → Thread
  activeWorkers : Nat
  interrupted : Bool
  failed : Bool
  reports : Fin MonitorCount → Option Report
  main : MainThread
  headset : Option HeadsetMode.State

def Process.initial (settings : StreamSettings) : Process :=
  ⟨settings, .initial true, fun _ => .absent, 0, false, false, fun _ => none,
    .starting (List.finRange MonitorCount), none⟩

inductive Publish where
  | check
  | frame
  | enqueue

def Publish.action (stream : Fin MonitorCount) : Publish → Host.Action
  | .check => .check stream
  | .frame => .frame stream
  | .enqueue => .enqueue stream

inductive Action where
  | signal
  | start (now : Nat)
  | turn (code : Int)
  | poll (p : HeadsetMode.Poll)
  | relight (displays : List String)
  | exit (saved : Bool)
  | server (a : Transport.WorkerAction)
  | setup (stream : Fin MonitorCount) (converter : Option Bool)
  | loop (stream : Fin MonitorCount) (a : Host.StreamAction) (expired : Bool)
  | publish (stream : Fin MonitorCount) (a : Publish)
  | conclude (stream : Fin MonitorCount) (flushed : Bool)
  | blame (stream : Fin MonitorCount)
  | report (stream : Fin MonitorCount) (what : String)
  | leave (stream : Fin MonitorCount)

inductive Observation where
  | host (event : Host.Observation)
  | headset (event : HeadsetMode.Event)
  | iterated (stream : Fin MonitorCount)
  | signalled
  | failed (stream : Fin MonitorCount)
  | exited (code : Nat)

namespace Process

def place (s : Process) (i : Fin MonitorCount) (t : Thread) : Process :=
  { s with threads := Function.update s.threads i t }

@[simp] theorem place_host (s : Process) (i : Fin MonitorCount) (t : Thread) :
    (s.place i t).host = s.host := rfl

@[simp] theorem place_thread (s : Process) (i : Fin MonitorCount) (t : Thread) :
    (s.place i t).threads i = t := by simp [place]

def write (s : Process) (i : Fin MonitorCount) (report : Report) : Process :=
  { s with reports := Function.update s.reports i (some report) }

/-- The negation of the loop condition; `expired` is its comparison of the clock. -/
def stops (s : Process) (expired : Bool) : Bool :=
  s.interrupted || s.failed || (s.settings.seconds ≠ 0 && expired)

/-- What the loop condition and the options leave of the host's steps: an iteration begins with
`next` and the loop is left for `flush` only as its condition says, and without recording no
write can fail. -/
def Permits (s : Process) (expired : Bool) : Host.StreamAction → Prop
  | .next _ => s.stops expired = false
  | .leave _ => s.stops expired = true
  | .receive _ written => s.settings.record = true ∨ written = true
  | _ => True

instance (s : Process) (expired : Bool) (a : Host.StreamAction) : Decidable (s.Permits expired a) := by
  unfold Permits; split <;> infer_instance

def after (host : Host.State) (i : Fin MonitorCount) : Thread :=
  match (host.streams i).phase with
  | .failed => .caught
  | .finished => .ending
  | _ => .streaming

/-- Without a transport no packet goes on from the sink to `publish`. -/
def keep (s : Process) (next : Host.State) : Host.State :=
  if s.settings.port = 0 then { next with transport := s.host.transport } else next

def work (s : Process) (i : Fin MonitorCount) (a : Host.Action) :
    Option (Process × List Observation) :=
  (Host.act s.host a).map fun next =>
    ({ s with host := s.keep next }.place i (after next i), (Host.observe s.host a).map .host)

/-- The constructors before the loop. The automatic mode can fall back to CPU capture once, if
the encoder has a converter. -/
def prepare (s : Process) (i : Fin MonitorCount) : Option Bool → Process
  | none => s.place i .caught
  | some converter =>
    if s.settings.memory = "dmabuf" ∧ converter = false then s.place i .caught
    else
      { s with
        host := s.host.put i { s.host.streams i with
          canRetry := s.settings.memory = "auto" && converter } }.place i .streaming

/-- After the flush of the encoder: a recording is flushed, at least one frame must have been
consumed, and the report is written. -/
def conclude (s : Process) (i : Fin MonitorCount) (flushed : Bool) : Process :=
  let w := s.host.streams i
  let e := w.encoder
  if (s.settings.record = true ∧ flushed = false) ∨ w.consumed = 0 then s.place i .caught
  else (s.write i (.done e.frames e.bytes e.timestampAdjustments)).place i .reported

/-- The main thread starts the next selected stream, and after the last one watches the client
if it was asked to. -/
def start (s : Process) (now : Nat) : List (Fin MonitorCount) → Process
  | i :: rest =>
    if selects s.settings.selection i then
      { s with activeWorkers := s.activeWorkers + 1, main := .starting rest }.place i .setup
    else { s with main := .starting rest }
  | [] =>
    if s.settings.port ≠ 0 ∧ s.settings.laptopOff = true then
      { s with main := .watching, headset := some (.initial now) }
    else { s with main := .joining }

def watch (s : Process) (main : MainThread) (a : HeadsetMode.Action) :
    Option (Process × List Observation) :=
  s.headset.bind fun h => (HeadsetMode.step h a).map fun (next, events) =>
    ({ s with headset := some next, main := main }, events.map .headset)

end Process

def Process.statistics (s : Process) : List (Fin MonitorCount × Report) :=
  (List.finRange MonitorCount).filterMap fun i => (s.reports i).map (i, ·)

/-- One step of the process. Only with a port is there a transport, whose worker runs and which
the sinks call. -/
def step : Machine.Step Process Action Observation := fun s a =>
  match a with
  | .signal => some ({ s with interrupted := true }, [.signalled])
  | .start now =>
    match s.main with
    | .starting rest => some (s.start now rest, [])
    | _ => none
  | .turn code =>
    if s.main = .watching then
      if 0 < s.activeWorkers then some ({ s with main := .polling }, [])
      else s.watch .joining (.finish code)
    else none
  | .poll p =>
    if s.main = .polling ∧ p.connected = Transport.clientConnected s.host.transport.server then
      s.watch .watching (.poll p)
    else none
  | .relight displays => s.watch s.main (.relight displays)
  | .exit saved =>
    if s.main = .joining ∧ ∀ i, (s.threads i).active = false then
      let code := if saved = true ∧ s.failed = false then 0 else 1
      some ({ s with main := .exited saved code }, [.exited code])
    else none
  | .server a =>
    if s.settings.port ≠ 0 then
      (Host.act s.host (.server a)).map fun next =>
        ({ s with host := next }, (Host.observe s.host (.server a)).map .host)
    else none
  | .setup i converter =>
    if s.threads i = .setup then some (s.prepare i converter, []) else none
  | .loop i a expired =>
    if s.threads i = .streaming ∧ s.Permits expired a then
      (s.work i (.stream i a)).map fun (next, seen) =>
        (next, (match a with | .next _ => [.iterated i] | _ => []) ++ seen)
    else none
  | .publish i a =>
    if s.threads i = .streaming ∧ s.settings.port ≠ 0 then s.work i (a.action i) else none
  | .conclude i flushed =>
    if s.threads i = .ending then some (s.conclude i flushed, []) else none
  | .blame i =>
    if s.threads i = .caught then some ({ s with failed := true }.place i .blamed, [.failed i])
    else none
  | .report i what =>
    if s.threads i = .blamed then some ((s.write i (.error what)).place i .reported, []) else none
  | .leave i =>
    if s.threads i = .reported then
      some ({ s with activeWorkers := s.activeWorkers - 1 }.place i .returned, [])
    else none

end Quest.StreamProcess
