import Mathlib.Data.List.Nodup
import Mathlib.Data.List.Sort
import Quest.Library.Json
import Quest.Packet

/-! `discoverMonitors`: the reader of the display host's state, which it joins with a dump of
PipeWire's objects. Outcomes of file, process and environment accesses are arguments. -/
namespace Quest.Displays

structure Monitor where
  id : Int
  name : String
  output : String
  serial : String
  node : Int
  deriving DecidableEq, Repr

/-- How JSON values are converted by way of `QVariant`. -/
structure Conversions where
  toLongLong : Json → Int
  toText : Json → String

/-- What the reader finds: the state file, the executable of a process, its own display, and
how `pw-dump` ends, unless it times out. -/
structure Surroundings where
  state : Option Json
  exe : Int → String
  waylandDisplay : String
  dump : Option (Int × Json)

def IsNode (id : Int) (object : Json) : Prop :=
  (object.value "id").toInt 0 = id ∧ (object.value "type").toText = "PipeWire:Interface:Node"

instance (id : Int) (object : Json) : Decidable (IsNode id object) := by
  unfold IsNode; infer_instance

def property (object : Json) (key : String) : Json :=
  ((object.value "info").value "props").value key

def mediaName (object : Json) : String := (property object "media.name").toText

/-- The name that the compositor gives to the node of an output. -/
def expectedMedia (output : String) : String := "kwin-screencast-" ++ output

def serialOf (c : Conversions) (object : Json) : String :=
  c.toText (property object "object.serial")

def readMonitor (m : Json) : Monitor where
  id := (m.value "id").toInt (-1)
  name := (m.value "name").toText
  output := (m.value "output_name").toText
  serial := ""
  node := (m.value "pipewire_node").toInt (-1)

/-- The mapping that an entry must have, apart from the uniqueness of its id. -/
def FixedMapping (m : Json) (monitor : Monitor) : Prop :=
  0 ≤ monitor.id ∧ monitor.id < MonitorCount ∧
    monitor.name = "QUEST-" ++ toString (monitor.id + 1) ∧
    (monitor.output = monitor.name ∨ monitor.output = "Virtual-" ++ monitor.name) ∧
    (m.value "width").toInt 0 = 2560 ∧ (m.value "height").toInt 0 = 1440

instance (m : Json) (monitor : Monitor) : Decidable (FixedMapping m monitor) := by
  unfold FixedMapping; infer_instance

def foreignNode : String := "PipeWire node no longer belongs to the expected output"

def resolve (c : Conversions) : List Json → Monitor → Except String Monitor
  | [], monitor => .ok monitor
  | object :: rest, monitor =>
    if IsNode monitor.node object then
      if mediaName object = expectedMedia monitor.output then
        resolve c rest { monitor with serial := serialOf c object }
      else .error foreignNode
    else resolve c rest monitor

/-- The outer loop, over the entries of the state. Its sets have the ids and the serials of
the monitors so far. -/
def collect (c : Conversions) (nodes : List Json) :
    List Json → List Monitor → Except String (List Monitor)
  | [], result => .ok result
  | m :: rest, result =>
    if FixedMapping m (readMonitor m) ∧ (readMonitor m).id ∉ result.map (·.id) then
      match resolve c nodes (readMonitor m) with
      | .error message => .error message
      | .ok monitor =>
        if monitor.serial = "" ∨ monitor.serial ∈ result.map (·.serial) then
          .error "Missing or duplicate PipeWire object serial"
        else collect c nodes rest (result ++ [monitor])
    else .error "Invalid fixed monitor mapping"

def joinMonitors (c : Conversions) (nodes feeds : List Json) : Except String (List Monitor) :=
  match collect c nodes feeds [] with
  | .error message => .error message
  | .ok result =>
    if result.length = MonitorCount then .ok (result.insertionSort (·.id ≤ ·.id))
    else .error "Unexpected number of monitor streams"

/-- The checks on the state before anything is asked of PipeWire. -/
def checkState (c : Conversions) (s : Surroundings) (state : Json) : Except String Unit :=
  let pid := c.toLongLong (state.value "pid")
  if (state.value "ready").toBool = false ∨ (state.value "schema_version").toInt 0 ≠ 1 ∨ pid ≤ 0 ∨
      s.exe pid ≠ "quest-displays" then
    .error "Display host state is stale or invalid"
  else if (state.value "wayland_display").toText ≠ s.waylandDisplay then
    .error "Display host belongs to a different Wayland session"
  else .ok ()

def discoverMonitors (c : Conversions) (s : Surroundings) : Except String (List Monitor) :=
  match s.state with
  | none => .error "Display host state missing; start quest-displays first"
  | some state =>
    match checkState c s state with
    | .error message => .error message
    | .ok () =>
      match s.dump with
      | none => .error "PipeWire discovery timed out"
      | some (exitCode, nodes) =>
        if exitCode ≠ 0 ∨ nodes.isArray = false then .error "PipeWire discovery failed"
        else joinMonitors c nodes.toArray (state.value "monitors").toArray

def lastSerial (c : Conversions) (id : Int) (nodes : List Json) (missing : String) : String :=
  ((nodes.filter (IsNode id ·)).map (serialOf c)).getLastD missing

theorem lastSerial_node {c : Conversions} {id : Int} {object : Json} (node : IsNode id object)
    (rest : List Json) (missing : String) :
    lastSerial c id (object :: rest) missing = lastSerial c id rest (serialOf c object) := by
  rw [lastSerial, List.filter_cons_of_pos (by simpa using node), List.map_cons,
    List.getLastD_cons, lastSerial]

theorem lastSerial_other {c : Conversions} {id : Int} {object : Json} (node : ¬IsNode id object)
    (rest : List Json) (missing : String) :
    lastSerial c id (object :: rest) missing = lastSerial c id rest missing := by
  rw [lastSerial, List.filter_cons_of_neg (by simpa using node), lastSerial]

theorem lastSerial_mem (c : Conversions) (id : Int) (nodes : List Json) (missing : String) :
    lastSerial c id nodes missing = missing ∨
      ∃ object ∈ nodes, IsNode id object ∧ lastSerial c id nodes missing = serialOf c object := by
  have last : lastSerial c id nodes missing ∈ missing :: _ := List.getLastD_mem_cons
  rcases List.mem_cons.mp last with same | inside
  · exact .inl same
  · obtain ⟨object, member, same⟩ := List.mem_map.mp inside
    obtain ⟨listed, node⟩ := List.mem_filter.mp member
    exact .inr ⟨object, listed, of_decide_eq_true node, same.symm⟩

/-- All nodes with the monitor's id must have the expected name; the last gives its serial. -/
theorem resolve_eq (c : Conversions) (nodes : List Json) (monitor : Monitor) :
    resolve c nodes monitor =
      if ∀ object ∈ nodes, IsNode monitor.node object →
          mediaName object = expectedMedia monitor.output then
        .ok { monitor with serial := lastSerial c monitor.node nodes monitor.serial }
      else .error foreignNode := by
  induction nodes generalizing monitor with
  | nil => simp [resolve, lastSerial]
  | cons object rest ih =>
    by_cases node : IsNode monitor.node object
    · by_cases named : mediaName object = expectedMedia monitor.output
      · simp [resolve, node, named, ih, lastSerial_node node]
      · simp [resolve, node, named]
    · simp [resolve, node, ih, lastSerial_other node]

/-- Where a monitor of the result comes from, in the state and in the dump. -/
structure Agreed (c : Conversions) (feeds nodes : List Json) (m : Monitor) : Prop where
  inside : 0 ≤ m.id ∧ m.id < MonitorCount
  name : m.name = "QUEST-" ++ toString (m.id + 1)
  output : m.output = m.name ∨ m.output = "Virtual-" ++ m.name
  recorded : ∃ feed ∈ feeds, readMonitor feed = { m with serial := "" }
  serial : m.serial ≠ ""
  owned : ∃ object ∈ nodes, IsNode m.node object ∧ mediaName object = expectedMedia m.output ∧
    m.serial = serialOf c object

structure Collected (c : Conversions) (feeds nodes : List Json) (result : List Monitor) : Prop where
  ids : (result.map (·.id)).Nodup
  serials : (result.map (·.serial)).Nodup
  agreed : ∀ m ∈ result, Agreed c feeds nodes m

theorem resolve_agreed {c : Conversions} {feeds nodes : List Json} {feed : Json} {m : Monitor}
    (member : feed ∈ feeds) (fixed : FixedMapping feed (readMonitor feed))
    (resolved : resolve c nodes (readMonitor feed) = .ok m) (serial : m.serial ≠ "") :
    m.id = (readMonitor feed).id ∧ Agreed c feeds nodes m := by
  rw [resolve_eq] at resolved
  split at resolved
  next named =>
    obtain ⟨low, high, name, output, _⟩ := fixed
    cases resolved
    refine ⟨rfl, ⟨low, high⟩, name, output, ⟨feed, member, rfl⟩, serial, ?_⟩
    rcases lastSerial_mem c (readMonitor feed).node nodes "" with missing | ⟨object, listed, node, same⟩
    · exact absurd missing serial
    · exact ⟨object, listed, node, named object listed node, same⟩
  next => contradiction

theorem nodup_map_snoc {β : Type*} {key : Monitor → β} {result : List Monitor} {m : Monitor}
    (distinct : (result.map key).Nodup) (fresh : key m ∉ result.map key) :
    ((result ++ [m]).map key).Nodup := by
  rw [List.map_append, List.map_singleton, ← List.concat_eq_append]
  exact distinct.concat fresh

theorem collect_collected {c : Conversions} {feeds nodes rest : List Json}
    {before result : List Monitor} (collected : Collected c feeds nodes before)
    (within : ∀ feed ∈ rest, feed ∈ feeds) (read : collect c nodes rest before = .ok result) :
    Collected c feeds nodes result := by
  induction rest generalizing before with
  | nil =>
    cases read
    exact collected
  | cons feed rest ih =>
    simp only [collect] at read
    split at read
    next mapping =>
      split at read
      next => contradiction
      next m resolved =>
        split at read
        next => contradiction
        next proper =>
          rw [not_or] at proper
          obtain ⟨id, agreed⟩ := resolve_agreed (within feed List.mem_cons_self) mapping.1 resolved
            proper.1
          refine ih ⟨?_, ?_, ?_⟩ (fun later member => within later (List.mem_cons_of_mem _ member)) read
          · exact nodup_map_snoc collected.ids (id ▸ mapping.2)
          · exact nodup_map_snoc collected.serials proper.2
          · intro other member
            rcases List.mem_append.mp member with earlier | last
            · exact collected.agreed other earlier
            · rwa [List.mem_singleton.mp last]
    next => contradiction

/-- As many different ids as there are streams are all of them. -/
theorem sorted_ids {ids : List Int} (distinct : ids.Nodup)
    (inside : ∀ id ∈ ids, 0 ≤ id ∧ id < MonitorCount) (count : ids.length = MonitorCount)
    (sorted : ids.Pairwise (· ≤ ·)) : ids = (List.range MonitorCount).map (↑) := by
  have subset : ids ⊆ (List.range MonitorCount).map ((↑) : Nat → Int) := by
    intro id member
    obtain ⟨low, high⟩ := inside id member
    refine List.mem_map.mpr ⟨id.toNat, List.mem_range.mpr ?_, Int.toNat_of_nonneg low⟩
    omega
  have perm : ids.Perm ((List.range MonitorCount).map (↑)) :=
    (List.subperm_of_subset distinct subset).perm_of_length_le (by simp [count])
  refine List.Perm.eq_of_pairwise' sorted (List.pairwise_map.mpr ?_) perm
  exact List.pairwise_lt_range.imp fun less => by omega

theorem joinMonitors_collected {c : Conversions} {nodes feeds : List Json}
    {result : List Monitor} (joined : joinMonitors c nodes feeds = .ok result) :
    Collected c feeds nodes result ∧ result.map (·.id) = (List.range MonitorCount).map (↑) := by
  simp only [joinMonitors] at joined
  split at joined
  next => contradiction
  next unsorted read =>
    split at joined
    next count =>
      cases joined
      obtain ⟨ids, serials, agreed⟩ :=
        collect_collected ⟨by simp, by simp, by simp⟩ (fun _ => id) read
      have perm := List.perm_insertionSort (fun a b : Monitor => a.id ≤ b.id) unsorted
      have collected : Collected c feeds nodes (unsorted.insertionSort (·.id ≤ ·.id)) :=
        ⟨(perm.map _).nodup_iff.mpr ids, (perm.map _).nodup_iff.mpr serials,
          fun m member => agreed m (perm.mem_iff.mp member)⟩
      refine ⟨collected, sorted_ids collected.ids ?_ ?_ ?_⟩
      · rintro _ member
        obtain ⟨m, listed, rfl⟩ := List.mem_map.mp member
        exact (collected.agreed m listed).inside
      · rw [List.length_map, perm.length_eq, count]
      · exact List.pairwise_map.mpr (List.pairwise_insertionSort _ unsorted)
    next => contradiction

theorem resolve_id {c : Conversions} {nodes : List Json} {monitor m : Monitor}
    (resolved : resolve c nodes monitor = .ok m) : m.id = monitor.id := by
  rw [resolve_eq] at resolved
  split at resolved
  · cases resolved
    rfl
  · contradiction

/-- Entries that pass every check, with different ids and serials, are all collected. -/
theorem collect_eq {ι : Type*} {c : Conversions} {nodes : List Json} {json : ι → Json}
    {entry : ι → Monitor} (fixed : ∀ i, FixedMapping (json i) (readMonitor (json i)))
    (resolved : ∀ i, resolve c nodes (readMonitor (json i)) = .ok (entry i))
    (ids : Function.Injective fun i => (entry i).id)
    (serials : Function.Injective fun i => (entry i).serial) (found : ∀ i, (entry i).serial ≠ "")
    {past rest : List ι} (distinct : (past ++ rest).Nodup) :
    collect c nodes (rest.map json) (past.map entry) = .ok ((past ++ rest).map entry) := by
  induction rest generalizing past with
  | nil => simp [collect]
  | cons i rest ih =>
    have fresh : i ∉ past := fun earlier =>
      (List.nodup_append.mp distinct).2.2 i earlier i List.mem_cons_self rfl
    have mapped {β : Type _} {key : Monitor → β}
        (injective : Function.Injective fun i => key (entry i)) :
        key (entry i) ∉ (past.map entry).map key := by
      rw [List.map_map]
      rintro known
      obtain ⟨j, earlier, same⟩ := List.mem_map.mp known
      exact fresh (injective same ▸ earlier)
    have id := mapped ids
    rw [resolve_id (resolved i)] at id
    have serial : ¬((entry i).serial = "" ∨ (entry i).serial ∈ (past.map entry).map (·.serial)) :=
      not_or.mpr ⟨found i, mapped serials⟩
    have later := @ih (past ++ [i]) (by simpa using distinct)
    rw [List.map_append, List.map_singleton] at later
    simp only [List.map_cons, collect, if_pos (And.intro (fixed i) id), resolved i, if_neg serial,
      later, List.append_assoc, List.singleton_append]

theorem joinMonitors_eq {c : Conversions} {nodes : List Json} {json : Fin MonitorCount → Json}
    {entry : Fin MonitorCount → Monitor}
    (fixed : ∀ i, FixedMapping (json i) (readMonitor (json i)))
    (resolved : ∀ i, resolve c nodes (readMonitor (json i)) = .ok (entry i))
    (ids : ∀ i, (entry i).id = i.val)
    (serials : Function.Injective fun i => (entry i).serial)
    (found : ∀ i, (entry i).serial ≠ "") :
    joinMonitors c nodes ((List.finRange MonitorCount).map json) =
      .ok ((List.finRange MonitorCount).map entry) := by
  have injective : Function.Injective fun i => (entry i).id := by
    intro i j same
    simp only [ids] at same
    exact Fin.ext (by exact_mod_cast same)
  have read := @collect_eq _ c nodes json entry fixed resolved injective serials found []
    (List.finRange MonitorCount) (List.nodup_finRange _)
  rw [List.map_nil, List.nil_append] at read
  have sorted : ((List.finRange MonitorCount).map entry).Pairwise fun a b => a.id ≤ b.id := by
    refine List.pairwise_map.mpr ((List.pairwise_lt_finRange _).imp fun {i j} less => ?_)
    rw [ids, ids]
    exact_mod_cast less.le
  simp only [joinMonitors, read, List.length_map, List.length_finRange, if_true,
    sorted.insertionSort_eq]

end Quest.Displays
