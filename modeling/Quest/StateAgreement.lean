import Quest.Discovery
import Quest.VirtualDisplays

/-! The display host's state as its reader takes it. What a complete manager writes passes
every check of `discoverMonitors`, and whatever passes them is a full mapping of the streams
to nodes of the dump. -/
namespace Quest.Displays

/-- A dump in which each stream's node id belongs to just one node, `object i`. -/
structure Dumped (c : Conversions) (m : VirtualDisplayManager)
    (output : Fin MonitorCount → Output) (nodes : List Json) (object : Fin MonitorCount → Json) :
    Prop where
  only : ∀ i, nodes.filter (IsNode (m.streams i).node.toNat ·) = [object i]
  media : ∀ i, mediaName (object i) = "kwin-screencast-" ++ (output i).name
  serial : ∀ i, serialOf c (object i) ≠ ""
  distinct : Function.Injective fun i => serialOf c (object i)

/-- A reader in the session of a live host, with that state and that dump. -/
structure Beside (s : Surroundings) (host : Host) (state : Json) (nodes : List Json) : Prop where
  state : s.state = some state
  owner : s.exe host.pid.toInt = "quest-displays"
  session : s.waylandDisplay = host.waylandDisplay
  dump : s.dump = some (0, .array nodes)

def expected (c : Conversions) (m : VirtualDisplayManager) (output : Fin MonitorCount → Output)
    (object : Fin MonitorCount → Json) (i : Fin MonitorCount) : Monitor where
  id := i.val
  name := streamName i.val
  output := (output i).name
  serial := serialOf c (object i)
  node := (m.streams i).node.toNat

/-- What the reader makes of an entry that the host has written. -/
theorem readMonitor_feed {s : Stream} {o : Output} {i : Fin MonitorCount} (id : s.id = i.val)
    (narrow : s.node < 2147483648) :
    readMonitor (feed s (some o)) = ⟨i.val, s.name, o.name, "", s.node.toNat⟩ := by
  have node : s.node.toNat < 2147483648 := UInt32.lt_iff_toNat_lt.mp narrow
  have index := i.isLt
  have readId := Json.toInt_number (n := s.id) (by simp only [MonitorCount] at index; omega) (-1)
  have readNode := Json.toInt_number (n := s.node.toNat) (by omega) (-1)
  change (⟨(Json.number s.id).toInt (-1), s.name, o.name, "",
    (Json.number (s.node.toNat : Int)).toInt (-1)⟩ : Monitor) = _
  rw [readId, readNode, id]

theorem feed_fixed {s : Stream} {o : Output} {i : Fin MonitorCount} (id : s.id = i.val)
    (name : s.name = streamName i.val) (narrow : s.node < 2147483648)
    (admissible : Admissible (streamName i.val) o.name) :
    FixedMapping (feed s (some o)) (readMonitor (feed s (some o))) := by
  rw [readMonitor_feed id narrow]
  refine ⟨Int.natCast_nonneg _, Int.ofNat_lt.mpr i.isLt, name, ?_, ?_, ?_⟩
  · change Admissible s.name o.name
    rw [name]
    exact admissible
  · exact Json.toInt_number (n := 2560) (by omega) 0
  · exact Json.toInt_number (n := 1440) (by omega) 0

/-- Each entry resolves to the one node that its stream has in the dump. -/
theorem feed_resolved {c : Conversions} {m : VirtualDisplayManager} (wired : m.Wired)
    {output : Fin MonitorCount → Output} {nodes : List Json} {object : Fin MonitorCount → Json}
    (dumped : Dumped c m output nodes object) {i : Fin MonitorCount}
    (narrow : (m.streams i).node < 2147483648) :
    resolve c nodes (readMonitor (feed (m.streams i) (some (output i)))) =
      .ok (expected c m output object i) := by
  have named : ∀ found ∈ nodes, IsNode (m.streams i).node.toNat found →
      mediaName found = expectedMedia (output i).name := by
    intro found listed node
    have chosen : found ∈ nodes.filter (IsNode (m.streams i).node.toNat ·) :=
      List.mem_filter.mpr ⟨listed, decide_eq_true node⟩
    rw [dumped.only, List.mem_singleton] at chosen
    exact chosen ▸ dumped.media i
  rw [readMonitor_feed (wired.id i) narrow, resolve_eq, if_pos named]
  simp only [lastSerial, dumped.only, wired.name]
  rfl

theorem state_checked {c : Conversions} {m : VirtualDisplayManager} {host : Host}
    {s : Surroundings} {state : Json} {nodes : List Json} (beside : Beside s host state nodes)
    (feeds : List Json) (whole : c.toLongLong (.number host.pid.toInt) = host.pid.toInt)
    (live : 0 < host.pid.toInt) : checkState c s (m.state host true feeds) = .ok () := by
  have pid : (m.state host true feeds).value "pid" = .number host.pid.toInt := rfl
  have version : ((m.state host true feeds).value "schema_version").toInt 0 = 1 :=
    Json.toInt_number (n := 1) (by omega) 0
  have ready : (m.state host true feeds).value "ready" = .bool true := rfl
  have display : (m.state host true feeds).value "wayland_display" = .string host.waylandDisplay :=
    rfl
  simp [checkState, pid, version, ready, display, whole, live, beside.owner, beside.session]

theorem snapshot_feeds {m : VirtualDisplayManager} {host : Host} {ready : Bool} {state : Json}
    {output : Fin MonitorCount → Output} (feeding : ∀ i, (m.streams i).ready = true ∧
      m.findOutput (m.streams i).name = .ok (some (output i)))
    (written : m.snapshot host ready = .ok state) :
    state = m.state host ready
      ((List.finRange MonitorCount).map fun i => feed (m.streams i) (some (output i))) := by
  rw [VirtualDisplayManager.snapshot,
    VirtualDisplayManager.feedsFrom_eq fun i _ => feeding i] at written
  exact (Except.ok.inj written).symm

/-- What a complete manager writes is read back as what it shows. -/
theorem snapshot_discovered {c : Conversions} {m : VirtualDisplayManager} (wired : m.Wired)
    {host : Host} (whole : c.toLongLong (.number host.pid.toInt) = host.pid.toInt)
    (live : 0 < host.pid.toInt) (complete : m.complete = .ok true)
    (narrow : ∀ i, (m.streams i).node < 2147483648) :
    ∃ (output : Fin MonitorCount → Output) (state : Json), (∀ i, m.Shows i (output i)) ∧
      m.snapshot host true = .ok state ∧
      ∀ (s : Surroundings) (nodes : List Json) (object : Fin MonitorCount → Json),
        Beside s host state nodes → Dumped c m output nodes object →
          discoverMonitors c s =
            .ok ((List.finRange MonitorCount).map (expected c m output object)) := by
  obtain ⟨output, found⟩ := VirtualDisplayManager.complete_shows wired complete
  let feeds := (List.finRange MonitorCount).map fun i => feed (m.streams i) (some (output i))
  have fed : m.feedsFrom (List.finRange MonitorCount) = .ok feeds :=
    VirtualDisplayManager.feedsFrom_eq fun i _ => ⟨(found i).1, (found i).2.1⟩
  refine ⟨output, m.state host true feeds, fun i => (found i).2.2.1, ?_, ?_⟩
  · rw [VirtualDisplayManager.snapshot, fed]
    rfl
  intro s nodes object beside dumped
  have joined : joinMonitors c nodes feeds =
      .ok ((List.finRange MonitorCount).map (expected c m output object)) :=
    joinMonitors_eq (fun i => feed_fixed (wired.id i) (wired.name i) (narrow i) (found i).2.2.1.named)
      (fun i => feed_resolved wired dumped (narrow i)) (fun _ => rfl) dumped.distinct dumped.serial
  have monitors : (m.state host true feeds).value "monitors" = .array feeds := rfl
  simpa [discoverMonitors, beside.state, beside.dump, state_checked beside feeds whole live,
    monitors] using joined

/-- Every reading is a mapping of all streams that the state records and the dump bears out. -/
theorem discovered_collected {c : Conversions} {s : Surroundings} {result : List Monitor}
    (read : discoverMonitors c s = .ok result) :
    ∃ state nodes, s.state = some state ∧ s.dump = some (0, .array nodes) ∧
      Collected c (state.value "monitors").toArray nodes result ∧
      result.map (·.id) = (List.range MonitorCount).map (↑) := by
  simp only [discoverMonitors] at read
  split at read
  · contradiction
  next state stated =>
    split at read
    · contradiction
    split at read
    · contradiction
    next exitCode nodes dumped =>
      split at read
      · contradiction
      next listed =>
        rw [not_or, not_not] at listed
        obtain ⟨rfl, listed⟩ := listed
        cases nodes with
        | array nodes => exact ⟨state, nodes, stated, dumped, joinMonitors_collected read⟩
        | _ => contradiction

/-- The state of a complete manager is read back as what the manager shows, and whatever state
is read at all is a full mapping of the streams to nodes of the dump. -/
theorem state_reader_agrees (c : Conversions)
    (whole : ∀ n : Int32, c.toLongLong (.number n.toInt) = n.toInt) :
    (∀ (events : List Event) (host : Host),
      (VirtualDisplayManager.after events).complete = .ok true →
      (∀ i, ((VirtualDisplayManager.after events).streams i).node < 2147483648) →
      0 < host.pid.toInt →
      ∃ (output : Fin MonitorCount → Output) (state : Json),
        (∀ i, (VirtualDisplayManager.after events).Shows i (output i)) ∧
        (VirtualDisplayManager.after events).snapshot host true = .ok state ∧
        ∀ (s : Surroundings) (nodes : List Json) (object : Fin MonitorCount → Json),
          Beside s host state nodes → Dumped c (VirtualDisplayManager.after events) output nodes object →
          discoverMonitors c s = .ok ((List.finRange MonitorCount).map
            (expected c (VirtualDisplayManager.after events) output object))) ∧
    ∀ (s : Surroundings) (result : List Monitor), discoverMonitors c s = .ok result →
      ∃ state nodes, s.state = some state ∧ s.dump = some (0, .array nodes) ∧
        Collected c (state.value "monitors").toArray nodes result ∧
        result.map (·.id) = (List.range MonitorCount).map (↑) := by
  constructor
  · intro events host complete narrow live
    exact snapshot_discovered (VirtualDisplayManager.after_wired events) (whole host.pid) live
      complete narrow
  · intro s result read
    exact discovered_collected read

def plainConversions : Conversions where
  toLongLong
    | .number value => value.num
    | _ => 0
  toText
    | .number value => toString value.num
    | .string text => text
    | _ => ""

/-- Two outputs, each under one of the admissible names, and the feeds of both streams. -/
def startup : List Event := [
  .globalAdded 41 "wl_output" 4, .output 41 (.name "Virtual-QUEST-1"),
  .output 41 (.mode 1 2560 1440 60000), .globalAdded 42 "wl_output" 4, .output 42 (.name "QUEST-2"),
  .output 42 (.mode 1 2560 1440 59940), .output 42 .done, .output 41 .done,
  .stream (.last 1) (.created 71), .stream ⟨0, Nat.zero_lt_two⟩ (.created 70)]

def nodeObject (id : Int) (media : String) (serial : Int) : Json := .object [
  ("id", .number id), ("type", .string "PipeWire:Interface:Node"),
  ("info", .object [("props", .object [
    ("media.name", .string media), ("object.serial", .number serial)])])]

def startupDump : List Json := [
  .object [("id", .number 70), ("type", .string "PipeWire:Interface:Link")],
  nodeObject 71 "kwin-screencast-QUEST-2" 902, nodeObject 70 "kwin-screencast-Virtual-QUEST-1" 901]

def startupObject (i : Fin MonitorCount) : Json :=
  if i.val = 0 then nodeObject 70 "kwin-screencast-Virtual-QUEST-1" 901
  else nodeObject 71 "kwin-screencast-QUEST-2" 902

def startupMonitors : List Monitor :=
  [⟨0, "QUEST-1", "Virtual-QUEST-1", "901", 70⟩, ⟨1, "QUEST-2", "QUEST-2", "902", 71⟩]

theorem first_or_second (i : Fin MonitorCount) : i = ⟨0, by decide⟩ ∨ i = ⟨1, by decide⟩ := by
  have bound : i.val < 2 := i.isLt
  rcases Nat.lt_succ_iff_lt_or_eq.mp bound with first | second
  · exact .inl (Fin.ext (Nat.lt_one_iff.mp first))
  · exact .inr (Fin.ext second)

/-- Of a manager only the two nodes and the names of the two outputs matter to the reader. -/
theorem startup_dumped (m : VirtualDisplayManager) (output : Fin MonitorCount → Output)
    (nodes : (m.streams ⟨0, by decide⟩).node.toNat = 70 ∧ (m.streams ⟨1, by decide⟩).node.toNat = 71)
    (names : (output ⟨0, by decide⟩).name = "Virtual-QUEST-1" ∧
      (output ⟨1, by decide⟩).name = "QUEST-2") :
    Dumped plainConversions m output startupDump startupObject ∧
      (List.finRange MonitorCount).map (expected plainConversions m output startupObject) =
        startupMonitors := by
  refine ⟨⟨fun i => ?_, fun i => ?_, by decide +kernel, by decide +kernel⟩, ?_⟩
  · rcases first_or_second i with rfl | rfl
    · rw [nodes.1]; decide +kernel
    · rw [nodes.2]; decide +kernel
  · rcases first_or_second i with rfl | rfl
    · rw [names.1]; rfl
    · rw [names.2]; rfl
  · rw [show List.finRange MonitorCount = [⟨0, by decide⟩, ⟨1, by decide⟩] from rfl]
    simp only [List.map_cons, List.map_nil, expected, nodes, names]
    decide +kernel

def startupHost : Host := ⟨1234, "wayland-0", "wayland", true⟩

theorem state_reader_agrees_startup :
    ∃ state, (VirtualDisplayManager.after startup).snapshot startupHost true = .ok state ∧
      discoverMonitors plainConversions ⟨some state, fun _ => "quest-displays", "wayland-0",
          some (0, .array startupDump)⟩ =
        .ok [⟨0, "QUEST-1", "Virtual-QUEST-1", "901", 70⟩, ⟨1, "QUEST-2", "QUEST-2", "902", 71⟩] ∧
      ∃ feeds, Collected plainConversions feeds startupDump
        [⟨0, "QUEST-1", "Virtual-QUEST-1", "901", 70⟩, ⟨1, "QUEST-2", "QUEST-2", "902", 71⟩] := by
  have agrees := state_reader_agrees plainConversions fun n => by simp [plainConversions]
  obtain ⟨output, state, shows_, written, discovered⟩ := agrees.1 startup startupHost
    (by decide +kernel) (by decide +kernel) (by decide)
  have first := (shows_ ⟨0, by decide⟩).only 41 ⟨41, "Virtual-QUEST-1", "", 2560, 1440, 60000, 1, 0, 0, true⟩
    (by decide +kernel) (by decide)
  have second := (shows_ ⟨1, by decide⟩).only 42 ⟨42, "QUEST-2", "", 2560, 1440, 59940, 1, 0, 0, true⟩
    (by decide +kernel) (by decide)
  obtain ⟨dumped, entries⟩ := startup_dumped (VirtualDisplayManager.after startup) output
    ⟨by decide +kernel, by decide +kernel⟩ ⟨by rw [← first], by rw [← second]⟩
  have read := discovered ⟨some state, fun _ => "quest-displays", "wayland-0",
    some (0, .array startupDump)⟩ startupDump startupObject ⟨rfl, rfl, rfl, rfl⟩ dumped
  rw [entries] at read
  obtain ⟨_, _, _, dump, collected, _⟩ := agrees.2 _ _ read
  cases dump
  exact ⟨state, written, read, _, collected⟩

end Quest.Displays
