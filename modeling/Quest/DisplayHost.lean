import Quest.Library.Machine
import Quest.StateAgreement

/-! `quest-displays` as processes of one user that run `main` side by side over one runtime
directory. They share the lock file and the state file; what the session, Wayland and KScreen
answer, which file operations fail, and the schedule are carried by the actions. -/
namespace Quest.Displays

/-- What one dispatch of queued events calls: listeners, perhaps the callback of `sync`, and
whether it succeeds. -/
structure Dispatch where
  events : List Event
  synced : Bool
  ok : Bool
  deriving DecidableEq, Repr

inductive Flush where
  | done
  | again
  | failed
  deriving DecidableEq, Repr

/-- The result of `poll`; without a ready descriptor neither flag is set. -/
inductive Poll where
  | failed (interrupted : Bool)
  | returned (input broken : Bool)
  deriving DecidableEq, Repr

/-- The results of the calls inside one `pump`. `refused` has a dispatch for every
`wl_display_prepare_read` that finds events in the queue. -/
structure PumpCalls where
  refused : List Dispatch
  flush : Flush
  poll : Poll
  read : Bool
  dispatched : Dispatch
  deriving DecidableEq, Repr

structure Heard where
  manager : VirtualDisplayManager
  synced : Bool

def Heard.hear (h : Heard) (d : Dispatch) : Heard :=
  ⟨d.events.foldl VirtualDisplayManager.receive h.manager, h.synced || d.synced⟩

def connectionLost : String := "Wayland connection lost or protocol error"

def dispatchPending (h : Heard) (d : Dispatch) : Heard × Option String :=
  (h.hear d, if d.ok then none else some connectionLost)

/-- The loop around `wl_display_prepare_read`. -/
def prepareRead : List Dispatch → Heard → Heard × Option String
  | [], h => (h, none)
  | d :: rest, h =>
    match dispatchPending h d with
    | (h, none) => prepareRead rest h
    | (h, some message) => (h, some message)

/-- `pump`, with the text of what it throws. -/
def pump (c : PumpCalls) (h : Heard) : Heard × Option String :=
  match prepareRead c.refused h with
  | (h, some message) => (h, some message)
  | (h, none) =>
    if c.flush = .failed then (h, some connectionLost) else
      match c.poll with
      | .failed interrupted => (h, if interrupted then none else some "Wayland poll failed")
      | .returned input broken =>
        if (input = true ∧ c.read = false) ∨ broken = true then (h, some connectionLost)
        else dispatchPending h c.dispatched

/-- What `kscreen-doctor -j` did, and what its output parses to. -/
inductive KScreen where
  | unfinished
  | finished (normal : Bool) (exitCode : Int) (json : Option Json)
  deriving DecidableEq

def inventoryName (entry : Json) : List Char :=
  let name := (entry.value "name").toText.toList
  if "Virtual-".toList <+: name then name.drop 8 else name

def Foreign (entry : Json) : Prop := "QUEST-".toList <+: inventoryName entry

instance (entry : Json) : Decidable (Foreign entry) := by unfold Foreign; infer_instance

/-- `checkExistingKScreenOutputs`: the entries that it has looked at, or what it throws. -/
def checkExistingKScreenOutputs : KScreen → Except String (List Json)
  | .unfinished => .error
      "KScreen inspection failed or timed out; refusing to create potentially duplicate outputs"
  | .finished normal exitCode json =>
    match normal, exitCode, json.map fun j => j.value "outputs" with
    | true, 0, some (Json.array outputs) =>
      match outputs.find? (Foreign ·) with
      | some entry => .error ("KScreen already has " ++ String.ofList (inventoryName entry) ++
          "; stop its owner before starting this host")
      | none => .ok outputs
    | _, _, _ => .error
        "KScreen returned no valid output inventory; run kscreen-doctor -j in Plasma Wayland"

namespace VirtualDisplayManager

def checkStreamErrors (m : VirtualDisplayManager) : Option String :=
  (List.finRange MonitorCount).findSome? fun i =>
    if (m.streams i).error = "" then none
    else some ((m.streams i).name ++ ": " ++ (m.streams i).error)

/-- The search of `create` for outputs that exist already. -/
def checkAbsent (m : VirtualDisplayManager) : List (Fin MonitorCount) → Except String Unit
  | [] => .ok ()
  | i :: rest =>
    match m.findOutput (m.streams i).name with
    | .error message => .error message
    | .ok (some _) => .error ("Output already exists: " ++ (m.streams i).name ++
        ". Stop its owning process before starting this host.")
    | .ok none => m.checkAbsent rest

/-- The part of `create` before its first request. -/
def checkCreate (m : VirtualDisplayManager) : Except String Unit :=
  if m.manager = false ∨ m.advertisedVersion < 2 then
    .error ("KWin virtual-output protocol unavailable. Use Plasma Wayland and run " ++
      "tools/register-desktop.py for this exact executable.")
  else m.checkAbsent (List.finRange MonitorCount)

end VirtualDisplayManager

/-- Where a process stands in `main`. In `leaving` the state file is to be removed next, after
which only the destructors are left. -/
inductive Phase where
  | starting
  | locking
  | clearing
  | connecting
  | syncing (second synced : Bool)
  | probing
  | inspecting
  | creating
  | awaiting
  | running (last : Option Json)
  | pumping (last : Option Json)
  | leaving (failure : Option String)
  | returning (code : Nat)
  | exited (code : Nat)
  | killed
  deriving DecidableEq

structure Process where
  run : Bool
  pid : Int32
  waylandDisplay : String
  sessionType : String
  runtimeDir : Bool
  statePath : Bool
  stopping : Bool
  manager : VirtualDisplayManager
  phase : Phase

def Process.initial (run : Bool) (pid : Int32) (waylandDisplay sessionType : String)
    (runtimeDir : Bool) : Process :=
  ⟨run, pid, waylandDisplay, sessionType, runtimeDir, false, false, .initial, .starting⟩

def Process.host (p : Process) (kwinRunning : Bool) : Host :=
  ⟨p.pid, p.waylandDisplay, p.sessionType, kwinRunning⟩

def Process.fail (p : Process) (message : String) : Process :=
  { p with phase := .leaving (some message) }

/-- The session checks of `main` and its runtime directory. -/
def Process.begin (p : Process) (kwinRunning mkpath : Bool) : Process :=
  if p.run = false then { p with phase := .connecting }
  else if p.sessionType ≠ "wayland" ∨ kwinRunning = false then
    p.fail ("A live Plasma/KWin Wayland session is required. Save work and select Plasma " ++
      "(Wayland) at login; no displays were changed.")
  else if p.runtimeDir = false then p.fail "XDG_RUNTIME_DIR is missing"
  else if mkpath = false then p.fail "Cannot create runtime directory"
  else { p with phase := .locking }

/-- One round of a loop around `pump`: what the manager has heard goes on to `next`. -/
def Process.pumped (p : Process) (c : PumpCalls) (synced : Bool)
    (next : Process → Bool → Process) : Process :=
  match pump c ⟨p.manager, synced⟩ with
  | (h, some message) => { p with manager := h.manager }.fail message
  | (h, none) => next { p with manager := h.manager } h.synced

/-- One round of the loop in `sync`. -/
def Process.sync (p : Process) (second synced late : Bool) (c : PumpCalls) : Process :=
  if synced then
    if second then { p with phase := if p.run then .inspecting else .probing }
    else { p with phase := .syncing true false }
  else if p.stopping = true ∨ late = true then p.fail "Wayland registry timed out"
  else p.pumped c false fun p synced => { p with phase := .syncing second synced }

/-- What one round of the loop in `create` makes of what was heard. -/
def Process.awaited (p : Process) : Process :=
  match p.manager.checkStreamErrors with
  | some message => p.fail message
  | none =>
    match p.manager.complete with
    | .error message => p.fail message
    | .ok true => { p with phase := .running none }
    | .ok false => { p with phase := .awaiting }

/-- One round of the loop in `create`. -/
def Process.await (p : Process) (late : Bool) (c : PumpCalls) : Process :=
  if p.stopping then p.fail "Startup interrupted"
  else if late then
    p.fail ("Timed out waiting for the named 2560x1440 Quest outputs and PipeWire nodes; " ++
      "rolling back")
  else p.pumped c false fun p _ => p.awaited

/-- The body of the main loop up to `saveState`: the state to be in the file. -/
def Process.state (p : Process) (kwinRunning : Bool) : Except String Json :=
  match p.manager.checkStreamErrors with
  | some message => .error message
  | none =>
    match p.manager.complete with
    | .error message => .error message
    | .ok false =>
      .error "An owned output disappeared or changed its mode; stopping all outputs"
    | .ok true => p.manager.snapshot (p.host kwinRunning) true

/-- The calls of a process with what they return; `connect` has what `strerror` says of it. -/
inductive ProcessAction where
  | begin (kwinRunning mkpath : Bool)
  | lock (able : Bool)
  | clear (removed : Bool)
  | connect (error : Option String)
  | sync (late : Bool) (c : PumpCalls)
  | probe (kwinRunning : Bool)
  | inspect (k : KScreen)
  | create (failing : Option (Fin MonitorCount))
  | await (late : Bool) (c : PumpCalls)
  | turn (kwinRunning saved : Bool)
  | pump (c : PumpCalls)
  | leave (removed : Bool)
  | finish
  | signal
  | kill

/-- What can be seen of a process. A request names the outputs that it has found on Wayland. -/
inductive Observation (ι : Type*) where
  | locked (t : ι)
  | inspected (t : ι) (outputs : List Json)
  | requested (t : ι) (i : Fin MonitorCount) (outputs : List Output)
  | printed (t : ι) (state : Json)
  | wrote (t : ι) (state : Json)
  | removed (t : ι) (done : Bool)
  | exited (t : ι) (code : Nat)
  | killed (t : ι)
  deriving DecidableEq

/-- The lock file, by its live owner; a lock whose owner is gone does not hinder `tryLock`.
The state file is replaced as a whole. -/
structure System (ι : Type*) where
  lock : Option ι
  file : Option Json
  processes : ι → Process

variable {ι : Type*} [DecidableEq ι]

def System.put (s : System ι) (t : ι) (p : Process) : System ι :=
  { s with processes := Function.update s.processes t p }

def System.unlock (s : System ι) (t : ι) : System ι :=
  if s.lock = some t then { s with lock := none } else s

/-- The streams whose requests `create` makes before one cannot be allocated. -/
def allocated : Option (Fin MonitorCount) → List (Fin MonitorCount)
  | none => List.finRange MonitorCount
  | some i => (List.finRange MonitorCount).takeWhile (· ≠ i)

def System.lockStep (s : System ι) (t : ι) (able : Bool) : System ι × List (Observation ι) :=
  if able = true ∧ s.lock = none then
    ({ s with lock := some t }.put t { s.processes t with statePath := true, phase := .clearing },
      [.locked t])
  else
    (s.put t ((s.processes t).fail "Another quest-displays instance holds the runtime lock"), [])

def System.createStep (s : System ι) (t : ι) (failing : Option (Fin MonitorCount)) :
    System ι × List (Observation ι) :=
  match (s.processes t).manager.checkCreate with
  | .error message => (s.put t ((s.processes t).fail message), [])
  | .ok () =>
    (s.put t (if failing = none then { s.processes t with phase := .awaiting }
        else (s.processes t).fail "Could not allocate screencast stream"),
      (allocated failing).map (.requested t · (s.processes t).manager.entries))

/-- The body of the main loop up to `pump`. -/
def System.turnStep (s : System ι) (t : ι) (last : Option Json) (kwinRunning saved : Bool) :
    System ι × List (Observation ι) :=
  if (s.processes t).stopping then (s.put t { s.processes t with phase := .leaving none }, [])
  else
    match (s.processes t).state kwinRunning with
    | .error message => (s.put t ((s.processes t).fail message), [])
    | .ok state =>
      if some state = last then (s.put t { s.processes t with phase := .pumping last }, [])
      else if saved then
        ({ s with file := some state }.put t { s.processes t with phase := .pumping (some state) },
          [.wrote t state])
      else (s.put t ((s.processes t).fail "Could not atomically write runtime state"), [])

def System.remove (s : System ι) (t : ι) (removed : Bool) (p : Process) :
    System ι × List (Observation ι) :=
  ({ s with file := if removed then none else s.file }.put t p, [.removed t removed])

def exitCode : Option String → Nat
  | none => 0
  | some _ => 1

def System.act (s : System ι) (t : ι) (a : ProcessAction) :
    Option (System ι × List (Observation ι)) :=
  let p := s.processes t
  match a, p.phase with
  | .begin kwinRunning mkpath, .starting => some (s.put t (p.begin kwinRunning mkpath), [])
  | .lock able, .locking => some (s.lockStep t able)
  | .clear removed, .clearing => some (s.remove t removed { p with phase := .connecting })
  | .connect error, .connecting =>
    some (s.put t (match error with
      | none => { p with phase := .syncing false false }
      | some error => p.fail ("Cannot connect to Wayland: " ++ error)), [])
  | .sync late c, .syncing second synced => some (s.put t (p.sync second synced late c), [])
  | .probe kwinRunning, .probing =>
    match p.manager.snapshot (p.host kwinRunning) false with
    | .error message => some (s.put t (p.fail message), [])
    | .ok state => some (s.put t { p with phase := .returning 0 }, [.printed t state])
  | .inspect k, .inspecting =>
    match checkExistingKScreenOutputs k with
    | .error message => some (s.put t (p.fail message), [])
    | .ok outputs => some (s.put t { p with phase := .creating }, [.inspected t outputs])
  | .create failing, .creating => some (s.createStep t failing)
  | .await late c, .awaiting => some (s.put t (p.await late c), [])
  | .turn kwinRunning saved, .running last => some (s.turnStep t last kwinRunning saved)
  | .pump c, .pumping last =>
    some (s.put t (p.pumped c false fun p _ => { p with phase := .running last }), [])
  | .leave removed, .leaving failure =>
    -- Nothing is removed before the path is known, which is after the lock is held.
    if p.statePath then some (s.remove t removed { p with phase := .returning (exitCode failure) })
    else some (s.put t { p with phase := .returning (exitCode failure) }, [])
  | .finish, .returning code =>
    some ((s.unlock t).put t { p with phase := .exited code }, [.exited t code])
  | .signal, _ => some (s.put t { p with stopping := true }, [])
  | .kill, .exited _ => none
  | .kill, .killed => none
  | .kill, _ => some ((s.unlock t).put t { p with phase := .killed }, [.killed t])
  | _, _ => none

def System.step : Machine.Step (System ι) (ι × ProcessAction) (Observation ι) :=
  fun s (t, a) => s.act t a

def System.Fresh (s : System ι) : Prop :=
  s.lock = none ∧ s.file = none ∧ ∀ t, ∃ run pid waylandDisplay sessionType runtimeDir,
    s.processes t = .initial run pid waylandDisplay sessionType runtimeDir

end Quest.Displays
