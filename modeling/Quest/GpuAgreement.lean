import Quest.KwinDevices

/-! The GPU that KWin composes on after a login is the one that the encoder takes by itself. -/
namespace Quest.Gpu

open Shell

/-- The names of the nodes say which GPU they belong to: every card of Intel has a render node and
the other way about, each under a stable name, and no address begins another. What is asked of the
names can be answered. -/
structure Paired (m : Machinery) : Prop where
  answers : ∀ node ∈ m.nodes, ∀ pci, ∃ there, node.stable pci = .ok there
  resolves : ∀ node ∈ m.nodes, node.Intel → ∃ pci, node.device = .ok pci
  stable : ∀ node ∈ m.nodes, node.Intel → ∀ pci, node.device = .ok pci → node.stable pci = .ok true
  vendor : ∀ a ∈ m.nodes, ∀ b ∈ m.nodes, a.device = b.device → a.vendor = b.vendor
  paired : ∀ node ∈ m.nodes, node.vendor = "0x8086" → ∀ kind pci, Shown node kind pci →
    ∀ other, ∃ mate ∈ m.nodes, Shown mate other pci
  apart : ∀ a ∈ m.nodes, ∀ b ∈ m.nodes, ∀ p q, a.device = .ok p → b.device = .ok q →
    p.toList <+: q.toList → p = q

/-- Two texts stay in order whatever follows them, unless the first begins the second. -/
theorem append_lt_append {a b : List Char} (lt : a < b) (apart : ¬a <+: b) (s t : List Char) :
    a ++ s < b ++ t := by
  induction a generalizing b with
  | nil => exact absurd List.nil_prefix apart
  | cons x a ih =>
    cases b with
    | nil => exact absurd lt (List.not_lt_nil _)
    | cons y b =>
      rw [List.cons_append, List.cons_append, List.cons_lt_cons_iff]
      rcases List.cons_lt_cons_iff.mp lt with less | ⟨rfl, later⟩
      · exact .inl less
      · exact .inr ⟨rfl, ih later fun begins => apart (List.prefix_cons_inj x |>.mpr begins)⟩

theorem byPath_le {m : Machinery} {kind : Kind} {p q : String} (le : p ≤ q)
    (apart : p.toList <+: q.toList → p = q) : byPath m kind p ≤ byPath m kind q := by
  rcases le.eq_or_lt with rfl | lt
  · rfl
  · refine le_of_lt ?_
    rw [String.lt_iff_toList_lt] at lt ⊢
    simp only [byPath, String.toList_append, List.append_assoc]
    refine List.append_left_lt (List.append_left_lt (append_lt_append lt (fun begins => ?_) _ _))
    rw [apart begins] at lt
    exact lt_irrefl _ lt

theorem byPath_render (m : Machinery) (pci : String) :
    byPath m .render pci = m.devroot ++ "/by-path/pci-" ++ pci ++ "-render" := by
  have suffix : "-render" = "-" ++ Kind.render.text := by decide +kernel
  rw [suffix, ← String.append_assoc]
  rfl

/-- An Intel render node, as the encoder and the inventory see it. -/
theorem intel_render {node : DrmNode} {pci : String} (device : node.device = .ok pci) :
    node.Intel ↔ Shown node .render pci ∧ node.vendor = "0x8086" := by
  constructor
  · rintro ⟨named, vendor⟩
    exact ⟨⟨by rw [nodeKind, if_pos named], device, by simp [vendor, vendors]⟩, vendor⟩
  · rintro ⟨shown, vendor⟩
    have named := shown.kind
    rw [nodeKind] at named
    split at named
    next render => exact ⟨render, vendor⟩
    next => split at named <;> simp at named

/-- The vendor of an entry is that of every node with its address. -/
theorem Paired.vendor_eq {m : Machinery} (paired : Paired m) {devices : List Device}
    (found : discover m = .ok devices) {d : Device} (listed : d ∈ devices) {node : DrmNode}
    (known : node ∈ m.nodes) (device : node.device = .ok d.pci) :
    d.vendor = node.vendor := by
  obtain ⟨source, there, _, shown, same⟩ := (discover_inventory found).vendor d listed
  rw [← same]
  exact paired.vendor source there node known (shown.device.trans device.symm)

/-- The cards that come first in the script are those of the render nodes that the encoder may
choose. -/
theorem Paired.intel_card {m : Machinery} (paired : Paired m) {devices : List Device}
    (found : discover m = .ok devices) (pci : String) :
    (∃ d ∈ ordered devices, d.Intel ∧ d.pci = pci) ↔
      ∃ node ∈ m.nodes, node.Intel ∧ node.device = .ok pci := by
  constructor
  · rintro ⟨d, member, intel, rfl⟩
    obtain ⟨listed, card⟩ := mem_ordered.mp member
    obtain ⟨path, filled⟩ := Option.isSome_iff_exists.mp card
    obtain ⟨node, known, shown, _⟩ := (discover_inventory found).path d listed .card path filled
    have vendor := (paired.vendor_eq found listed known shown.device).symm.trans intel
    obtain ⟨render, there, entered⟩ := paired.paired node known vendor .card d.pci shown .render
    have same := (paired.vendor_eq found listed there entered.device).symm.trans intel
    exact ⟨render, there, (intel_render entered.device).mpr ⟨entered, same⟩, entered.device⟩
  · rintro ⟨render, there, intel, device⟩
    obtain ⟨entered, vendor⟩ := (intel_render device).mp intel
    obtain ⟨node, known, shown⟩ := paired.paired render there vendor .render pci entered .card
    obtain ⟨d, listed, rfl, filled⟩ := (discover_inventory found).complete node known .card _ shown
    obtain ⟨_, answer⟩ := paired.answers node known d.pci
    have card := filled _ (by rw [stablePath, answer]; rfl)
    exact ⟨d, mem_ordered.mpr ⟨listed, card⟩,
      (paired.vendor_eq found listed there device).trans vendor, rfl⟩

theorem Paired.readable {m : Machinery} (paired : Paired m) {devices : List Device}
    (found : discover m = .ok devices) : m.Readable "" where
  listing := by
    unfold discover at found
    split at found
    · contradiction
    next complete => exact complete
  candidate node known := by
    unfold Machinery.candidate
    by_cases intel : node.Intel
    · obtain ⟨pci, device⟩ := paired.resolves node known intel
      have there := paired.stable node known intel pci device
      simp [intel, device, Machinery.requests, Machinery.stablePath, there, Except.map]
    · exact ⟨none, if_neg intel⟩

/-- KWin composes where streams are encoded. Of several GPUs of Intel too, the card that the login
script puts first and the render node that the encoder takes by itself are one device, named by
its address, although the one compares addresses and the other paths. -/
theorem kwin_composes_where_encoded (m : Machinery) (paired : Paired m) (devices : List Device)
    (found : discover m = .ok devices) (text : String) (made : script devices = .ok text) :
    ∃ d rest, ordered devices = d :: rest ∧ d.Intel ∧
      m.intelRenderNode "" = .ok (byPath m .render d.pci) ∧
      ∀ (w : World) (e : Env),
        (∀ d ∈ ordered devices, w.charDevice (resolved w d) = true ∧
          ':' ∉ (resolved w d).toList) →
        ∃ others, (((program devices).exec w e).1.get "KWIN_DRM_DEVICES").toList.splitOn ':' =
          (w.output ["readlink", "-f", cardLink d.pci]).toList :: others := by
  obtain ⟨first, member, intel⟩ := script_ok_iff.mp ⟨text, made⟩
  obtain ⟨d, rest, split⟩ := List.exists_cons_of_ne_nil (List.ne_nil_of_mem member)
  have sorted := ordered_pairwise devices
  rw [split] at sorted
  have least : ∀ c ∈ ordered devices, c = d ∨ Before d c := by
    intro c listed
    rw [split] at listed
    exact (List.mem_cons.mp listed).imp_right ((List.pairwise_cons.mp sorted).1 c)
  have intel : d.Intel := by
    rcases least first member with rfl | ⟨yes, _⟩ | ⟨same, _⟩
    · exact intel
    · exact yes
    · exact same.mpr intel
  have here : d ∈ ordered devices := by simp [split]
  refine ⟨d, rest, split, intel, ?_, fun w e plain => ?_⟩
  · rw [Machinery.intelRenderNode_ok_iff]
    have named {node : DrmNode} (known : node ∈ m.nodes) (intel : node.Intel) {pci : String}
        (device : node.device = .ok pci) : m.stablePath node pci = .ok (byPath m .render pci) := by
      rw [Machinery.stablePath, paired.stable node known intel pci device, byPath_render]
      rfl
    obtain ⟨render, there, shown, device⟩ := (paired.intel_card found d.pci).mp ⟨d, here, intel, rfl⟩
    refine ⟨paired.readable found, ⟨render, there, ⟨shown, .inl rfl⟩, d.pci, device,
      named there shown device⟩, ?_⟩
    rintro name ⟨node, known, ⟨other, _⟩, pci, resolves, chosen⟩
    obtain rfl := Except.ok.inj ((named known other resolves).symm.trans chosen)
    obtain ⟨c, listed, also, rfl⟩ := (paired.intel_card found pci).mpr ⟨node, known, other, resolves⟩
    refine byPath_le ?_ (paired.apart render there node known _ _ device resolves)
    rcases least c listed with rfl | ⟨_, no⟩ | ⟨_, le⟩
    · rfl
    · exact absurd also no
    · exact le
  · rw [exported_reads_back (program_configures w e devices)
      (by simp [split]) (by simpa using fun d member => (plain d member).1)
      (by simpa using fun d member => (plain d member).2), split]
    exact ⟨_, rfl⟩

/-- Two GPUs of Intel, whose nodes are numbered against their addresses. -/
def sampleNodes : List DrmNode :=
  [⟨"renderD128", "0x8086", .ok "0000:03:00.0", fun _ => .ok true⟩,
    ⟨"card0", "0x8086", .ok "0000:03:00.0", fun _ => .ok true⟩,
    ⟨"renderD129", "0x8086", .ok "0000:00:02.0", fun _ => .ok true⟩,
    ⟨"card1", "0x8086", .ok "0000:00:02.0", fun _ => .ok true⟩]

def sampleMachinery : Machinery :=
  ⟨sampleNodes, none, "/dev/dri", .ok, fun _ => none, none, fun _ => none, fun _ => none⟩

theorem sample_mates (kind : Kind) :
    (∃ mate ∈ sampleMachinery.nodes, Shown mate kind "0000:03:00.0") ∧
      ∃ mate ∈ sampleMachinery.nodes, Shown mate kind "0000:00:02.0" := by
  have shown {node : DrmNode} {kind : Kind} {pci : String} (named : nodeKind node.name = some kind)
      (device : node.device = .ok pci) (vendor : node.vendor = "0x8086") : Shown node kind pci :=
    ⟨named, device, by simp [vendor, vendors]⟩
  cases kind with
  | render =>
    exact ⟨⟨_, .head _, shown (by decide +kernel) rfl rfl⟩,
      ⟨_, .tail _ (.tail _ (.head _)), shown (by decide +kernel) rfl rfl⟩⟩
  | card =>
    exact ⟨⟨_, .tail _ (.head _), shown (by decide +kernel) rfl rfl⟩,
      ⟨_, .tail _ (.tail _ (.tail _ (.head _))), shown (by decide +kernel) rfl rfl⟩⟩

theorem sample_addresses : ∀ node ∈ sampleMachinery.nodes, ∀ pci, node.device = .ok pci →
    pci ∈ ["0000:03:00.0", "0000:00:02.0"] := by
  simp [sampleMachinery, sampleNodes]

theorem sample_paired : Paired sampleMachinery where
  answers := by simp [sampleMachinery, sampleNodes]
  resolves := by simp [sampleMachinery, sampleNodes]
  stable := by simp [sampleMachinery, sampleNodes]
  vendor := by simp [sampleMachinery, sampleNodes]
  paired := by
    intro node known _ kind pci shown other
    have listed := sample_addresses node known pci shown.device
    simp only [List.mem_cons, List.not_mem_nil, or_false] at listed
    rcases listed with rfl | rfl
    · exact (sample_mates other).1
    · exact (sample_mates other).2
  apart := by
    intro a known b known' p q device device'
    have apart : ∀ p ∈ ["0000:03:00.0", "0000:00:02.0"], ∀ q ∈ ["0000:03:00.0", "0000:00:02.0"],
        p.toList <+: q.toList → p = q := by
      decide +kernel
    exact apart p (sample_addresses a known p device) q (sample_addresses b known' q device')

theorem kwin_composes_where_encoded_sample :
    ∃ devices d rest, discover sampleMachinery = .ok devices ∧ ordered devices = d :: rest ∧
      d.Intel ∧ sampleMachinery.intelRenderNode "" = .ok (byPath sampleMachinery .render d.pci) ∧
      ∀ (w : World) (e : Env),
        (∀ d ∈ ordered devices, w.charDevice (resolved w d) = true ∧
          ':' ∉ (resolved w d).toList) →
        ∃ others, (((program devices).exec w e).1.get "KWIN_DRM_DEVICES").toList.splitOn ':' =
          (w.output ["readlink", "-f", cardLink d.pci]).toList :: others := by
  obtain ⟨devices, found⟩ : ∃ devices, discover sampleMachinery = .ok devices := ⟨_, rfl⟩
  have intel : ((discover sampleMachinery).toOption.any fun devices =>
      (ordered devices).any (·.Intel)) = true := by decide +kernel
  rw [found] at intel
  obtain ⟨text, made⟩ := script_ok_iff.mpr
    (show ∃ d ∈ ordered devices, d.Intel by simpa [Except.toOption] using intel)
  obtain ⟨d, rest, agreement⟩ :=
    kwin_composes_where_encoded sampleMachinery sample_paired devices found text made
  exact ⟨devices, d, rest, found, agreement⟩

end Quest.Gpu
