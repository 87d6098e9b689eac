import Quest.Library.Json
import Quest.Packet

/-! `VirtualDisplayManager`: what Wayland's registry, its outputs and the screencast streams
have told the display host, in whatever order their events came, and the state that it writes
for other programs. -/
namespace Quest.Displays

def Width : Int := 2560
def Height : Int := 1440

structure Output where
  global : UInt32
  name : String
  description : String
  width : Int
  height : Int
  refresh : Int
  scale : Int
  x : Int
  y : Int
  done : Bool
  deriving DecidableEq, Repr

def Output.initial (global : UInt32) : Output := ⟨global, "", "", 0, 0, 0, 1, 0, 0, false⟩

structure Stream where
  id : Int
  name : String
  node : UInt32
  ready : Bool
  error : String
  deriving DecidableEq, Repr

def streamName (id : Int) : String := "QUEST-" ++ toString (id + 1)

/-- Its members, but for the proxies; of the screencast global only whether it is bound. -/
structure VirtualDisplayManager where
  manager : Bool
  managerGlobal : UInt32
  advertisedVersion : UInt32
  boundVersion : UInt32
  outputs : Std.TreeMap UInt32 Output
  streams : Fin MonitorCount → Stream

inductive OutputEvent where
  | geometry (x y : Int)
  | mode (flags : UInt32) (width height refresh : Int)
  | done
  | scale (scale : Int)
  | name (name : String)
  | description (description : String)
  deriving DecidableEq, Repr

inductive StreamEvent where
  | closed
  | created (node : UInt32)
  | failed (error : String)
  deriving DecidableEq, Repr

inductive Event where
  | globalAdded (name : UInt32) (interface : String) (version : UInt32)
  | globalRemoved (name : UInt32)
  | output (global : UInt32) (event : OutputEvent)
  | stream (i : Fin MonitorCount) (event : StreamEvent)
  deriving DecidableEq, Repr

/-- The listener of `wl_output`. -/
def Output.receive (o : Output) : OutputEvent → Output
  | .geometry x y => { o with x := x, y := y }
  | .mode flags width height refresh =>
    -- WL_OUTPUT_MODE_CURRENT
    if flags &&& 1 ≠ 0 then { o with width := width, height := height, refresh := refresh } else o
  | .done => { o with done := true }
  | .scale scale => { o with scale := scale }
  | .name name => { o with name := name }
  | .description description => { o with description := description }

def Stream.receive (s : Stream) : StreamEvent → Stream
  | .closed => { s with error := "KWin closed the stream" }
  | .created node => { s with node := node, ready := true }
  | .failed error => { s with error := error }

namespace VirtualDisplayManager

def initial : VirtualDisplayManager where
  manager := false
  managerGlobal := 0
  advertisedVersion := 0
  boundVersion := 0
  outputs := {}
  streams i := ⟨i.val, streamName i.val, 0, false, ""⟩

def globalAdded (m : VirtualDisplayManager) (name : UInt32) (interface : String)
    (version : UInt32) : VirtualDisplayManager :=
  if interface = "zkde_screencast_unstable_v1" then
    { m with
      manager := true
      managerGlobal := name
      advertisedVersion := version
      boundVersion := min version 3 }
  else if interface = "wl_output" ∧ 4 ≤ version then
    { m with outputs := m.outputs.insertIfNew name (.initial name) }
  else m

def globalRemoved (m : VirtualDisplayManager) (name : UInt32) : VirtualDisplayManager :=
  let streams (i : Fin MonitorCount) : Stream :=
    if name = m.managerGlobal then { m.streams i with error := "Screencast global removed" }
    else m.streams i
  { m with outputs := m.outputs.erase name, streams := streams }

/-- An output hears nothing once it is removed. -/
def receive (m : VirtualDisplayManager) : Event → VirtualDisplayManager
  | .globalAdded name interface version => m.globalAdded name interface version
  | .globalRemoved name => m.globalRemoved name
  | .output global event => { m with outputs := m.outputs.modify global (·.receive event) }
  | .stream i event =>
    { m with streams := Function.update m.streams i ((m.streams i).receive event) }

def after (events : List Event) : VirtualDisplayManager := events.foldl receive initial

end VirtualDisplayManager

def Admissible (stream output : String) : Prop := output = stream ∨ output = "Virtual-" ++ stream

instance (stream output : String) : Decidable (Admissible stream output) := by
  unfold Admissible; infer_instance

/-- The loop of `findOutput`, with what it has found so far. -/
def search (name : String) : Option Output → List Output → Except String (Option Output)
  | found, [] => .ok found
  | found, o :: rest =>
    if Admissible name o.name then
      if found.isSome then .error ("Ambiguous duplicate output name: " ++ name)
      else search name (some o) rest
    else search name found rest

/-- The test of `complete`, for a stream that is ready. -/
def Output.Usable (o : Output) : Prop :=
  o.done = true ∧ o.width = Width ∧ o.height = Height ∧ 59000 ≤ o.refresh ∧ o.refresh ≤ 61000

instance (o : Output) : Decidable o.Usable := by
  unfold Output.Usable; infer_instance

def Output.toJson (o : Output) : Json := .object [
  ("name", .string o.name), ("description", .string o.description),
  ("wayland_global", .number o.global.toInt32.toInt), ("width", .number o.width),
  ("height", .number o.height), ("refresh_millihz", .number o.refresh),
  ("scale", .number o.scale), ("x", .number o.x), ("y", .number o.y)]

def feed (s : Stream) (o : Option Output) : Json := .object [
  ("id", .number s.id), ("name", .string s.name),
  ("output_name", .string (o.elim "" (·.name))),
  ("wayland_global", .number (o.elim 0 (·.global.toInt32.toInt))),
  ("pipewire_node", .number s.node.toNat), ("width", .number Width), ("height", .number Height),
  ("target_fps", .number 60)]

structure Host where
  pid : Int32
  waylandDisplay : String
  sessionType : String
  kwinRunning : Bool
  deriving DecidableEq, Repr

namespace VirtualDisplayManager

/-- The outputs in the order of the map. -/
def entries (m : VirtualDisplayManager) : List Output := m.outputs.toList.map (·.2)

def findOutput (m : VirtualDisplayManager) (name : String) : Except String (Option Output) :=
  search name none m.entries

/-- `complete`, from some stream on. -/
def completeFrom (m : VirtualDisplayManager) : List (Fin MonitorCount) → Except String Bool
  | [] => .ok true
  | i :: rest =>
    match m.findOutput (m.streams i).name with
    | .error message => .error message
    | .ok none => .ok false
    | .ok (some o) =>
      if (m.streams i).ready = true ∧ o.Usable then m.completeFrom rest else .ok false

def complete (m : VirtualDisplayManager) : Except String Bool :=
  m.completeFrom (List.finRange MonitorCount)

/-- The entries of `monitors`, from some stream on. -/
def feedsFrom (m : VirtualDisplayManager) : List (Fin MonitorCount) → Except String (List Json)
  | [] => .ok []
  | i :: rest =>
    if (m.streams i).ready then
      match m.findOutput (m.streams i).name with
      | .error message => .error message
      | .ok o => (m.feedsFrom rest).map (feed (m.streams i) o :: ·)
    else m.feedsFrom rest

/-- The object that `snapshot` returns, around the entries of `monitors`. -/
def state (m : VirtualDisplayManager) (host : Host) (ready : Bool) (feeds : List Json) : Json :=
  .object [
    ("schema_version", .number 1), ("pid", .number host.pid.toInt),
    ("wayland_display", .string host.waylandDisplay), ("session_type", .string host.sessionType),
    ("kwin_running", .bool host.kwinRunning),
    ("screencast_advertised_version", .number m.advertisedVersion.toInt32.toInt),
    ("screencast_bound_version", .number m.boundVersion.toInt32.toInt), ("ready", .bool ready),
    ("outputs", .array (m.entries.map Output.toJson)), ("monitors", .array feeds)]

def snapshot (m : VirtualDisplayManager) (host : Host) (ready : Bool) : Except String Json :=
  (m.feedsFrom (List.finRange MonitorCount)).map (m.state host ready)

structure Wired (m : VirtualDisplayManager) : Prop where
  id : ∀ i, (m.streams i).id = i.val
  name : ∀ i, (m.streams i).name = streamName i.val
  keyed : ∀ (key : UInt32) (o : Output), m.outputs[key]? = some o → o.global = key

theorem initial_wired : Wired initial where
  id _ := rfl
  name _ := rfl
  keyed _ _ known := by simp [initial] at known

end VirtualDisplayManager

@[simp] theorem Output.receive_global (o : Output) (event : OutputEvent) :
    (o.receive event).global = o.global := by
  cases event with
  | mode flags width height refresh =>
    simp only [receive]
    split <;> rfl
  | _ => rfl

theorem Stream.receive_fixed (s : Stream) (event : StreamEvent) :
    (s.receive event).id = s.id ∧ (s.receive event).name = s.name := by
  cases event <;> exact ⟨rfl, rfl⟩

namespace VirtualDisplayManager

theorem globalAdded_wired {m : VirtualDisplayManager} (wired : m.Wired) (name : UInt32)
    (interface : String) (version : UInt32) : (m.globalAdded name interface version).Wired := by
  simp only [globalAdded]
  split
  · exact ⟨wired.id, wired.name, wired.keyed⟩
  split
  · refine ⟨wired.id, wired.name, fun key o known => ?_⟩
    simp only [Std.TreeMap.getElem?_insertIfNew] at known
    split at known
    next added =>
      cases known
      exact Std.LawfulEqCmp.eq_of_compare added.1
    next => exact wired.keyed key o known
  · exact wired

theorem globalRemoved_wired {m : VirtualDisplayManager} (wired : m.Wired) (name : UInt32) :
    (m.globalRemoved name).Wired := by
  simp only [globalRemoved]
  refine ⟨fun i => ?_, fun i => ?_, fun key o known => ?_⟩
  · dsimp only
    split <;> exact wired.id i
  · dsimp only
    split <;> exact wired.name i
  · simp only [Std.TreeMap.getElem?_erase] at known
    split at known
    · contradiction
    · exact wired.keyed key o known

theorem receive_wired {m : VirtualDisplayManager} (wired : m.Wired) (event : Event) :
    (m.receive event).Wired := by
  cases event with
  | globalAdded name interface version => exact globalAdded_wired wired name interface version
  | globalRemoved name => exact globalRemoved_wired wired name
  | output global event =>
    refine ⟨wired.id, wired.name, fun other o known => ?_⟩
    simp only [receive, Std.TreeMap.getElem?_modify] at known
    split at known
    next same =>
      obtain ⟨before, there, rfl⟩ := Option.map_eq_some_iff.mp known
      rw [Output.receive_global, wired.keyed global before there]
      exact Std.LawfulEqCmp.eq_of_compare same
    next => exact wired.keyed other o known
  | stream i event =>
    refine ⟨fun j => ?_, fun j => ?_, wired.keyed⟩
    all_goals
      by_cases same : j = i
      · subst same
        simp [receive, Stream.receive_fixed, wired.id, wired.name]
      · simp [receive, Function.update_of_ne same, wired.id, wired.name]

theorem after_wired (events : List Event) : (after events).Wired :=
  List.foldlRecOn events receive initial_wired fun _ wired event _ => receive_wired wired event

/-- `findOutput` returns the only output with an admissible name, if there is no other. -/
theorem search_eq (name : String) (found : Option Output) (l : List Output) :
    search name found l =
      match found.toList ++ l.filter (fun o => Admissible name o.name) with
      | [] => .ok none
      | [o] => .ok (some o)
      | _ => .error ("Ambiguous duplicate output name: " ++ name) := by
  induction l generalizing found with
  | nil => cases found <;> rfl
  | cons o rest ih =>
    by_cases admissible : Admissible name o.name
    · cases found with
      | none => simp [search, admissible, ih]
      | some first => simp [search, admissible]
    · simp [search, admissible, ih]

theorem findOutput_some_iff {m : VirtualDisplayManager} {name : String} {o : Output} :
    m.findOutput name = .ok (some o) ↔
      m.entries.filter (fun o => Admissible name o.name) = [o] := by
  rw [findOutput, search_eq, Option.toList_none, List.nil_append]
  generalize m.entries.filter (fun o => Admissible name o.name) = found
  match found with
  | [] => simp
  | [first] => simp
  | first :: second :: rest => simp

/-- `o` is the one output that is advertised under a name of stream `i`. -/
structure Shows (m : VirtualDisplayManager) (i : Fin MonitorCount) (o : Output) : Prop where
  advertised : m.outputs[o.global]? = some o
  named : Admissible (streamName i.val) o.name
  only : ∀ (key : UInt32) (other : Output), m.outputs[key]? = some other →
    Admissible (streamName i.val) other.name → other = o

theorem mem_entries_iff {m : VirtualDisplayManager} {o : Output} :
    o ∈ m.entries ↔ ∃ key : UInt32, m.outputs[key]? = some o := by
  simp [entries, Std.TreeMap.mem_toList_iff_getElem?_eq_some]

theorem Wired.shows {m : VirtualDisplayManager} (wired : m.Wired) {i : Fin MonitorCount}
    {o : Output} (found : m.findOutput (m.streams i).name = .ok (some o)) : m.Shows i o := by
  rw [findOutput_some_iff, wired.name] at found
  have chosen : o ∈ m.entries.filter (fun o => Admissible (streamName i.val) o.name) := by
    simp [found]
  obtain ⟨member, named⟩ := List.mem_filter.mp chosen
  obtain ⟨key, known⟩ := mem_entries_iff.mp member
  refine ⟨wired.keyed key o known ▸ known, of_decide_eq_true named, fun key other known also => ?_⟩
  have among : other ∈ m.entries.filter (fun o => Admissible (streamName i.val) o.name) :=
    List.mem_filter.mpr ⟨mem_entries_iff.mpr ⟨key, known⟩, decide_eq_true also⟩
  simpa [found] using among

theorem completeFrom_iff {m : VirtualDisplayManager} {l : List (Fin MonitorCount)} :
    m.completeFrom l = .ok true ↔ ∀ i ∈ l, (m.streams i).ready = true ∧
      ∃ o, m.findOutput (m.streams i).name = .ok (some o) ∧ o.Usable := by
  induction l with
  | nil => simp [completeFrom]
  | cons i rest ih =>
    simp only [completeFrom, List.forall_mem_cons]
    cases m.findOutput (m.streams i).name with
    | error message => simp
    | ok found =>
      cases found with
      | none => simp
      | some o =>
        by_cases usable : (m.streams i).ready = true ∧ o.Usable
        · simp [usable, ih]
        · simp only [if_neg usable, Except.ok.injEq, Bool.false_eq_true, false_iff]
          rintro ⟨⟨ready, other, same, good⟩, _⟩
          cases same
          exact usable ⟨ready, good⟩

/-- A complete manager shows every stream on a usable output. -/
theorem complete_shows {m : VirtualDisplayManager} (wired : m.Wired)
    (complete : m.complete = .ok true) : ∃ output : Fin MonitorCount → Output, ∀ i,
      (m.streams i).ready = true ∧
        m.findOutput (m.streams i).name = .ok (some (output i)) ∧
          m.Shows i (output i) ∧ (output i).Usable := by
  have all := completeFrom_iff.mp complete
  choose ready output found usable using fun i => all i (List.mem_finRange i)
  exact ⟨output, fun i => ⟨ready i, found i, wired.shows (found i), usable i⟩⟩

theorem feedsFrom_eq {m : VirtualDisplayManager} {output : Fin MonitorCount → Output}
    {l : List (Fin MonitorCount)} (feeding : ∀ i ∈ l, (m.streams i).ready = true ∧
      m.findOutput (m.streams i).name = .ok (some (output i))) :
    m.feedsFrom l = .ok (l.map fun i => feed (m.streams i) (some (output i))) := by
  induction l with
  | nil => rfl
  | cons i rest ih =>
    obtain ⟨⟨ready, found⟩, later⟩ := List.forall_mem_cons.mp feeding
    simp [feedsFrom, ready, found, ih later, Except.map]

end VirtualDisplayManager

end Quest.Displays
