import Quest.EncoderSelection

/-! The inventory of GPUs by PCI address that `gpu_devices.py` makes of the DRM nodes. -/
namespace Quest.Gpu

inductive Kind where
  | render
  | card
  deriving DecidableEq, Repr

def Kind.text : Kind → String
  | .render => "render"
  | .card => "card"

/-- Connectors, whose names begin like a card's, are skipped. Only ASCII digits are seen here;
`str.isdigit` takes those of any script, which the kernel never puts into a name. -/
def nodeKind (name : String) : Option Kind :=
  if "renderD".toList <+: name.toList then some .render
  else if "card".toList <+: name.toList ∧ name.toList.drop 4 ≠ [] ∧
      (name.toList.drop 4).all Char.isDigit then some .card
  else none

def vendors : List String := ["0x8086", "0x10de"]

/-- An entry of the inventory, but for its driver, which is only printed. -/
structure Device where
  pci : String
  vendor : String
  render : Option String
  renderNode : Option String
  card : Option String
  cardNode : Option String
  deriving DecidableEq, Repr

namespace Device

def fresh (pci vendor : String) : Device := ⟨pci, vendor, none, none, none, none⟩

def slot (d : Device) : Kind → Option String
  | .render => d.render
  | .card => d.card

/-- The paths of one node, unless its stable name cannot be asked for. -/
def put (d : Device) (kind : Kind) (path : Except String String) (node : String) : Device :=
  match path, kind with
  | .error _, _ => d
  | .ok path, .render => { d with render := some path, renderNode := some node }
  | .ok path, .card => { d with card := some path, cardNode := some node }

def Intel (d : Device) : Prop := d.vendor = "0x8086"

instance (d : Device) : Decidable d.Intel := inferInstanceAs (Decidable (_ = _))

end Device

def byPath (m : Machinery) (kind : Kind) (pci : String) : String :=
  m.devroot ++ "/by-path/pci-" ++ pci ++ "-" ++ kind.text

def stablePath (m : Machinery) (kind : Kind) (node : DrmNode) (pci : String) :
    Except String String :=
  (node.stable pci).map fun there => if there then byPath m kind pci else m.path node

/-- `setdefault`, and the paths of one node. A device is known by its address. -/
def enter (devices : List Device) (pci vendor : String) (kind : Kind)
    (path : Except String String) (node : String) : List Device :=
  if devices.any (·.pci = pci) then
    devices.map fun d => if d.pci = pci then d.put kind path node else d
  else devices ++ [(Device.fresh pci vendor).put kind path node]

/-- One turn of the loop; what cannot be read is skipped. -/
def visit (m : Machinery) (devices : List Device) (node : DrmNode) : List Device :=
  match nodeKind node.name, node.device with
  | some kind, .ok pci =>
    if node.vendor ∈ vendors then
      enter devices pci node.vendor kind (stablePath m kind node pci) (m.path node)
    else devices
  | _, _ => devices

def discover (m : Machinery) : Except String (List Device) :=
  match m.listing with
  | some message => .error message
  | none => .ok
      (((m.nodes.insertionSort (·.name ≤ ·.name)).foldl (visit m) []).insertionSort (·.pci ≤ ·.pci))

structure Shown (node : DrmNode) (kind : Kind) (pci : String) : Prop where
  kind : nodeKind node.name = some kind
  device : node.device = .ok pci
  vendor : node.vendor ∈ vendors

@[simp] theorem put_pci (d : Device) (kind : Kind) (path : Except String String) (node : String) :
    (d.put kind path node).pci = d.pci := by
  cases path <;> cases kind <;> rfl

@[simp] theorem put_vendor (d : Device) (kind : Kind) (path : Except String String)
    (node : String) : (d.put kind path node).vendor = d.vendor := by
  cases path <;> cases kind <;> rfl

@[simp] theorem put_slot_same (d : Device) (kind : Kind) (path : Except String String)
    (node : String) : (d.put kind path node).slot kind = path.toOption.or (d.slot kind) := by
  cases path <;> cases kind <;> rfl

theorem put_slot_other {kind other : Kind} (different : other ≠ kind) (d : Device)
    (path : Except String String) (node : String) :
    (d.put kind path node).slot other = d.slot other := by
  cases path <;> cases kind <;> cases other <;> first | rfl | contradiction

theorem put_keeps {d : Device} {other : Kind} (filled : (d.slot other).isSome = true) (kind : Kind)
    (path : Except String String) (node : String) :
    ((d.put kind path node).slot other).isSome = true := by
  by_cases same : other = kind
  · subst same
    rw [put_slot_same]
    cases path <;> simp [filled, Except.toOption]
  · rwa [put_slot_other same]

/-- A path stands in an entry because it was put there, or stood there before. -/
theorem slot_put {d : Device} {kind other : Kind} {path : Except String String} {node found : String}
    (filled : (d.put kind path node).slot other = some found) :
    other = kind ∧ path = .ok found ∨ d.slot other = some found := by
  by_cases same : other = kind
  · subst same
    rw [put_slot_same] at filled
    cases path with
    | ok own => exact .inl ⟨rfl, by simpa [Except.toOption] using filled⟩
    | error message => exact .inr (by simpa [Except.toOption] using filled)
  · exact .inr (by rwa [put_slot_other same] at filled)

@[simp] theorem fresh_slot (pci vendor : String) (kind : Kind) :
    (Device.fresh pci vendor).slot kind = none := by
  cases kind <;> rfl

structure Inventory (m : Machinery) (seen : List DrmNode) (devices : List Device) : Prop where
  distinct : (devices.map Device.pci).Nodup
  vendor : ∀ d ∈ devices, ∃ node ∈ seen, ∃ kind, Shown node kind d.pci ∧ node.vendor = d.vendor
  complete : ∀ node ∈ seen, ∀ kind pci, Shown node kind pci → ∃ d ∈ devices, d.pci = pci ∧
    ∀ path, stablePath m kind node pci = .ok path → (d.slot kind).isSome = true
  path : ∀ d ∈ devices, ∀ kind path, d.slot kind = some path →
    ∃ node ∈ seen, Shown node kind d.pci ∧ stablePath m kind node d.pci = .ok path

theorem inventory_nil (m : Machinery) : Inventory m [] [] := by
  constructor <;> simp

theorem enter_pcis (devices : List Device) (pci vendor : String) (kind : Kind)
    (path : Except String String) (node : String) :
    (enter devices pci vendor kind path node).map Device.pci =
      if pci ∈ devices.map Device.pci then devices.map Device.pci
      else devices.map Device.pci ++ [pci] := by
  have present : devices.any (·.pci = pci) = true ↔ pci ∈ devices.map Device.pci := by
    simp [List.any_eq_true]
  unfold enter
  by_cases there : pci ∈ devices.map Device.pci
  · rw [if_pos (present.mpr there), if_pos there, List.map_map]
    refine List.map_congr_left fun d _ => ?_
    by_cases same : d.pci = pci <;> simp [same]
  · rw [if_neg (mt present.mp there), if_neg there]
    simp [Device.fresh]

/-- The entries after one more node: those of other devices, and that of its own. -/
theorem mem_enter {devices : List Device} {pci vendor : String} {kind : Kind}
    {path : Except String String} {node : String} {d : Device}
    (member : d ∈ enter devices pci vendor kind path node) :
    (d ∈ devices ∧ d.pci ≠ pci) ∨
      ∃ before : Device, d = before.put kind path node ∧ before.pci = pci ∧
        (before ∈ devices ∨ before = .fresh pci vendor) := by
  unfold enter at member
  split at member
  · obtain ⟨before, there, rfl⟩ := List.mem_map.mp member
    by_cases same : before.pci = pci
    · rw [if_pos same]
      exact .inr ⟨before, rfl, same, .inl there⟩
    · rw [if_neg same]
      exact .inl ⟨there, same⟩
  next absent =>
    rcases List.mem_append.mp member with there | own
    · refine .inl ⟨there, fun same => absent ?_⟩
      simpa [List.any_eq_true] using ⟨d, there, same⟩
    · exact .inr ⟨_, List.mem_singleton.mp own, rfl, .inr rfl⟩

theorem exists_enter (devices : List Device) (pci vendor : String) (kind : Kind)
    (path : Except String String) (node : String) :
    ∃ before : Device, before.pci = pci ∧
      before.put kind path node ∈ enter devices pci vendor kind path node := by
  unfold enter
  split
  next present =>
    obtain ⟨before, there, same⟩ := List.any_eq_true.mp present
    have same : before.pci = pci := by simpa using same
    refine ⟨before, same, List.mem_map.mpr ⟨before, there, ?_⟩⟩
    rw [if_pos same]
  next absent => exact ⟨.fresh pci vendor, rfl, by simp⟩

theorem enter_keeps {devices : List Device} {d : Device} (listed : d ∈ devices) (pci vendor : String)
    (kind : Kind) (path : Except String String) (node : String) :
    ∃ e ∈ enter devices pci vendor kind path node, e.pci = d.pci ∧
      ∀ other, (d.slot other).isSome = true → (e.slot other).isSome = true := by
  unfold enter
  split
  next present =>
    by_cases own : d.pci = pci
    · exact ⟨d.put kind path node, List.mem_map.mpr ⟨d, listed, by rw [if_pos own]⟩, put_pci ..,
        fun _ filled => put_keeps filled kind path node⟩
    · exact ⟨d, List.mem_map.mpr ⟨d, listed, by rw [if_neg own]⟩, rfl, fun _ => id⟩
  next absent => exact ⟨d, List.mem_append_left _ listed, rfl, fun _ => id⟩

/-- A node is entered under its address. -/
theorem Inventory.enter {m : Machinery} {seen : List DrmNode} {devices : List Device}
    (inventory : Inventory m seen devices) {node : DrmNode} {kind : Kind} {pci : String}
    (shown : Shown node kind pci) :
    Inventory m (seen ++ [node])
      (Gpu.enter devices pci node.vendor kind (stablePath m kind node pci) (m.path node)) := by
  have here : node ∈ seen ++ [node] := by simp
  have earlier {other : DrmNode} (member : other ∈ seen) : other ∈ seen ++ [node] :=
    List.mem_append_left _ member
  refine ⟨?_, fun d member => ?_, fun other member kind' pci' entered => ?_,
    fun d member kind' path filled => ?_⟩
  · rw [enter_pcis]
    split
    · exact inventory.distinct
    next absent => exact inventory.distinct.append (List.nodup_singleton _) (by simpa using absent)
  · rcases mem_enter member with ⟨there, _⟩ | ⟨before, rfl, rfl, old | new⟩
    · obtain ⟨source, known, rest⟩ := inventory.vendor d there
      exact ⟨source, earlier known, rest⟩
    · obtain ⟨source, known, rest⟩ := inventory.vendor before old
      exact ⟨source, earlier known, by simpa using rest⟩
    · refine ⟨node, here, kind, by simpa using shown, ?_⟩
      rw [put_vendor, congrArg Device.vendor new]
      rfl
  · rcases List.mem_append.mp member with old | new
    · obtain ⟨d, listed, rfl, filled⟩ := inventory.complete other old kind' pci' entered
      obtain ⟨e, entered, same, kept⟩ := enter_keeps listed pci node.vendor kind
        (stablePath m kind node pci) (m.path node)
      exact ⟨e, entered, same, fun path found => kept kind' (filled path found)⟩
    · obtain rfl := List.mem_singleton.mp new
      obtain rfl : kind = kind' := Option.some.inj (shown.kind.symm.trans entered.kind)
      obtain rfl : pci = pci' := Except.ok.inj (shown.device.symm.trans entered.device)
      obtain ⟨before, same, listed⟩ := exists_enter devices pci other.vendor kind
        (stablePath m kind other pci) (m.path other)
      exact ⟨_, listed, by simpa using same, fun path found => by simp [found, Except.toOption]⟩
  · rcases mem_enter member with ⟨there, _⟩ | ⟨before, rfl, rfl, origin⟩
    · obtain ⟨source, known, rest⟩ := inventory.path d there kind' path filled
      exact ⟨source, earlier known, rest⟩
    · rw [put_pci]
      rcases slot_put filled with ⟨rfl, found⟩ | filled
      · exact ⟨node, here, shown, found⟩
      · rcases origin with old | new
        · obtain ⟨source, known, rest⟩ := inventory.path before old kind' path filled
          exact ⟨source, earlier known, rest⟩
        · rw [new, fresh_slot] at filled
          contradiction

theorem Inventory.visit {m : Machinery} {seen : List DrmNode} {devices : List Device}
    (inventory : Inventory m seen devices) (node : DrmNode) :
    Inventory m (seen ++ [node]) (Gpu.visit m devices node) := by
  have skip (hidden : ∀ kind pci, ¬Shown node kind pci) : Inventory m (seen ++ [node]) devices := by
    refine ⟨inventory.distinct, fun d member => ?_, fun other member kind pci shown => ?_,
      fun d member kind path filled => ?_⟩
    · obtain ⟨source, known, rest⟩ := inventory.vendor d member
      exact ⟨source, List.mem_append_left _ known, rest⟩
    · rcases List.mem_append.mp member with old | new
      · exact inventory.complete other old kind pci shown
      · exact absurd (List.mem_singleton.mp new ▸ shown) (hidden kind pci)
    · obtain ⟨source, known, rest⟩ := inventory.path d member kind path filled
      exact ⟨source, List.mem_append_left _ known, rest⟩
  unfold Gpu.visit
  split
  next kind pci named resolved =>
    split
    next known => exact inventory.enter ⟨named, resolved, known⟩
    next unknown => exact skip fun _ _ shown => unknown shown.vendor
  next other => exact skip fun kind pci shown => other kind pci shown.kind shown.device

theorem foldl_inventory {m : Machinery} (nodes : List DrmNode) {seen : List DrmNode}
    {devices : List Device} (inventory : Inventory m seen devices) :
    Inventory m (seen ++ nodes) (nodes.foldl (Gpu.visit m) devices) := by
  induction nodes generalizing seen devices with
  | nil => rwa [List.append_nil]
  | cons node rest ih =>
    have next := ih (inventory.visit node)
    rwa [List.append_assoc] at next

/-- The inventory of the whole directory, whatever its order. -/
theorem discover_inventory {m : Machinery} {devices : List Device}
    (found : discover m = .ok devices) : Inventory m m.nodes devices := by
  unfold discover at found
  split at found
  · contradiction
  obtain rfl := Except.ok.inj found
  have sorted (node : DrmNode) : node ∈ m.nodes.insertionSort (·.name ≤ ·.name) ↔ node ∈ m.nodes :=
    (m.nodes.perm_insertionSort (·.name ≤ ·.name)).mem_iff
  have made := foldl_inventory (m.nodes.insertionSort (·.name ≤ ·.name)) (inventory_nil m)
  rw [List.nil_append] at made
  have same := ((m.nodes.insertionSort (·.name ≤ ·.name)).foldl (Gpu.visit m) []).perm_insertionSort
    (·.pci ≤ ·.pci)
  refine ⟨?_, fun d member => ?_, fun node known kind pci shown => ?_,
    fun d member kind path filled => ?_⟩
  · exact (same.map Device.pci).nodup_iff.mpr made.distinct
  · obtain ⟨source, known, rest⟩ := made.vendor d (same.mem_iff.mp member)
    exact ⟨source, (sorted source).mp known, rest⟩
  · obtain ⟨d, listed, rest⟩ := made.complete node ((sorted node).mpr known) kind pci shown
    exact ⟨d, same.mem_iff.mpr listed, rest⟩
  · obtain ⟨source, known, rest⟩ := made.path d (same.mem_iff.mp member) kind path filled
    exact ⟨source, (sorted source).mp known, rest⟩

end Quest.Gpu
