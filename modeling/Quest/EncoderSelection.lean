import Mathlib.Data.List.Sort
import Mathlib.Data.String.Basic
import Mathlib.Order.Bounds.Basic
import Quest.Packet

/-! Which hardware encoder a stream gets: the candidates of its configuration, Intel's render
node, and the constructor of `VideoEncoder`, which tries the candidates in turn. Files, drivers
and FFmpeg are carried by a description of the machine. -/
namespace Quest

structure EncoderOptions where
  backend : String
  renderNode : String
  allowNvencFallback : Bool
  gop : Int
  vbvMs : Int
  deriving DecidableEq, Repr

def encoderCandidates (backend : String) (fallback : Bool) : Except String (List String) :=
  if backend = "auto" then .ok (if fallback then ["intel-vaapi", "nvenc"] else ["intel-vaapi"])
  else if backend = "intel-vaapi" ∨ backend = "nvenc" then .ok [backend]
  else if backend = "intel-qsv" then
    .error "intel-qsv is not implemented in this build; use intel-vaapi (no silent substitution)"
  else .error "Unknown encoder backend"

/-- An entry of `/sys/class/drm`: the vendor that can be read of its device, the file name of the
device it leads to unless resolving it throws, and whether there is a stable name for it unless
asking throws. -/
structure DrmNode where
  name : String
  vendor : String
  device : Except String String
  stable : String → Except String Bool

/-- What the constructor meets. `nodes` are the entries that the directory shows before `listing`
ends it early, `canonical` is `fs::weakly_canonical`; each of the others is the text of what a part
of the initialisation throws, if it does. -/
structure Machinery where
  nodes : List DrmNode
  listing : Option String
  devroot : String
  canonical : String → Except String String
  prepare : String → Option String
  nvenc : Option String
  vaapi : String → Option String
  openVaapi : String → Option String

def DrmNode.Intel (node : DrmNode) : Prop :=
  "renderD".toList <+: node.name.toList ∧ node.vendor = "0x8086"

instance (node : DrmNode) : Decidable node.Intel := by unfold DrmNode.Intel; infer_instance

namespace Machinery

def path (m : Machinery) (node : DrmNode) : String := m.devroot ++ "/" ++ node.name

/-- The stable name of the node of a device, if there is one. -/
def stablePath (m : Machinery) (node : DrmNode) (pci : String) : Except String String :=
  (node.stable pci).map fun there =>
    if there then m.devroot ++ "/by-path/pci-" ++ pci ++ "-render" else m.path node

def requests (m : Machinery) (requested : String) (node : DrmNode) : Except String Bool :=
  if requested = "" then .ok true
  else
    match m.canonical requested, m.canonical (m.path node) with
    | .error message, _ => .error message
    | .ok _, .error message => .error message
    | .ok wanted, .ok found => .ok (wanted = found)

/-- One turn of the loop of `intelRenderNode`, with the candidate that it adds. -/
def candidate (m : Machinery) (requested : String) (node : DrmNode) :
    Except String (Option String) :=
  if node.Intel then
    match node.device with
    | .error message => .error message
    | .ok pci =>
      match m.requests requested node with
      | .error message => .error message
      | .ok false => .ok none
      | .ok true => (m.stablePath node pci).map some
  else .ok none

/-- The loop, in the order of the directory. -/
def renderCandidates (m : Machinery) (requested : String) : List DrmNode → Except String (List String)
  | [] =>
    match m.listing with
    | some message => .error message
    | none => .ok []
  | node :: rest =>
    match m.candidate requested node with
    | .error message => .error message
    | .ok none => m.renderCandidates requested rest
    | .ok (some name) => (m.renderCandidates requested rest).map (name :: ·)

def intelRenderNode (m : Machinery) (requested : String) : Except String String :=
  match m.renderCandidates requested m.nodes with
  | .error message => .error message
  | .ok candidates =>
    match candidates.insertionSort (· ≤ ·) with
    | [] => .error
        "No matching Intel render node (vendor 0x8086); check GPU enablement/device access"
    | first :: _ => .ok first

end Machinery

/-- The members that the constructor sets; `intel` is the device of the `IntelVaapi`. -/
structure EncoderSetup where
  selected : String
  devicePath : String
  intel : Option String
  deriving DecidableEq, Repr

/-- `initialize`, with the text of what it throws. -/
def initializeEncoder (m : Machinery) (o : EncoderOptions) (e : EncoderSetup) :
    EncoderSetup × Option String :=
  match m.prepare e.selected with
  | some message => (e, some message)
  | none =>
    if e.selected = "nvenc" then ({ e with devicePath := "CUDA default device" }, m.nvenc)
    else
      match m.intelRenderNode o.renderNode with
      | .error message => (e, some message)
      | .ok path =>
        match m.vaapi path with
        | some message => ({ e with devicePath := path }, some message)
        | none => ({ e with devicePath := path, intel := some path }, m.openVaapi path)

/-- The loop of the constructor over its candidates. -/
def tryCandidates (m : Machinery) (o : EncoderOptions) :
    List String → EncoderSetup → String → Except String EncoderSetup
  | [], _, errors => .error (errors ++ "No software fallback is permitted")
  | candidate :: rest, e, errors =>
    match initializeEncoder m o { e with selected := candidate } with
    | (e, none) => .ok e
    | (e, some message) =>
      tryCandidates m o rest { e with intel := none }
        (errors ++ (candidate ++ ": " ++ message ++ "; "))

/-- The test at the head of the constructor. -/
def EncoderOptions.Valid (o : EncoderOptions) (monitorId : Int) : Prop :=
  0 ≤ monitorId ∧ monitorId < MonitorCount ∧ 1 ≤ o.gop ∧ o.gop ≤ 600 ∧ 10 ≤ o.vbvMs ∧
    o.vbvMs ≤ 1000

instance (o : EncoderOptions) (monitorId : Int) : Decidable (o.Valid monitorId) := by
  unfold EncoderOptions.Valid; infer_instance

def constructEncoder (m : Machinery) (monitorId : Int) (o : EncoderOptions) :
    Except String EncoderSetup :=
  if o.Valid monitorId then
    match encoderCandidates o.backend o.allowNvencFallback with
    | .error message => .error message
    | .ok candidates => tryCandidates m o candidates ⟨"", "", none⟩ ""
  else .error "Invalid encoder stream/GOP/VBV configuration"

namespace Machinery

def Eligible (m : Machinery) (requested : String) (node : DrmNode) : Prop :=
  node.Intel ∧ (requested = "" ∨
    ∃ path, m.canonical requested = .ok path ∧ m.canonical (m.path node) = .ok path)

def Named (m : Machinery) (node : DrmNode) (name : String) : Prop :=
  ∃ pci, node.device = .ok pci ∧ m.stablePath node pci = .ok name

structure Readable (m : Machinery) (requested : String) : Prop where
  listing : m.listing = none
  candidate : ∀ node ∈ m.nodes, ∃ name, m.candidate requested node = .ok name

theorem requests_iff {m : Machinery} {requested : String} {node : DrmNode} :
    m.requests requested node = .ok true ↔ requested = "" ∨
      ∃ path, m.canonical requested = .ok path ∧ m.canonical (m.path node) = .ok path := by
  unfold requests
  by_cases free : requested = ""
  · simp [free]
  · simp only [free, if_false, false_or]
    cases m.canonical requested <;> cases m.canonical (m.path node) <;> simp [eq_comm]

theorem candidate_iff {m : Machinery} {requested : String} {node : DrmNode} {name : String} :
    m.candidate requested node = .ok (some name) ↔
      m.Eligible requested node ∧ m.Named node name := by
  unfold candidate Eligible Named
  rw [← requests_iff]
  by_cases intel : node.Intel
  · simp only [intel, if_true, true_and]
    cases node.device with
    | error message => simp
    | ok pci =>
      simp only [Except.ok.injEq, exists_eq_left']
      cases m.requests requested node with
      | error message => simp
      | ok wanted => cases wanted <;> cases m.stablePath node pci <;> simp [Except.map]
  · simp [intel]

theorem renderCandidates_ok_iff {m : Machinery} {requested : String} {nodes : List DrmNode} :
    (∃ candidates, m.renderCandidates requested nodes = .ok candidates) ↔
      m.listing = none ∧ ∀ node ∈ nodes, ∃ name, m.candidate requested node = .ok name := by
  induction nodes with
  | nil => cases listing : m.listing <;> simp [renderCandidates, listing]
  | cons node rest ih =>
    rw [List.forall_mem_cons, and_left_comm, ← ih]
    cases here : m.candidate requested node with
    | error message => simp [renderCandidates, here]
    | ok name =>
      cases name with
      | none => simp [renderCandidates, here]
      | some name =>
        cases later : m.renderCandidates requested rest <;>
          simp [renderCandidates, here, later, Except.map]

/-- The candidates are the names of the eligible nodes. -/
theorem mem_renderCandidates {m : Machinery} {requested : String} {nodes : List DrmNode}
    {candidates : List String} (found : m.renderCandidates requested nodes = .ok candidates)
    (name : String) :
    name ∈ candidates ↔ ∃ node ∈ nodes, m.Eligible requested node ∧ m.Named node name := by
  simp only [← candidate_iff]
  induction nodes generalizing candidates with
  | nil =>
    rw [renderCandidates] at found
    split at found
    · contradiction
    · obtain rfl := Except.ok.inj found
      simp
  | cons node rest ih =>
    rw [List.exists_mem_cons_iff]
    rw [renderCandidates] at found
    split at found
    next => contradiction
    next skipped => rw [ih found, skipped]; simp
    next here added =>
      cases later : m.renderCandidates requested rest with
      | error message => simp [later, Except.map] at found
      | ok others =>
        simp only [later, Except.map, Except.ok.injEq] at found
        subst found
        rw [List.mem_cons, ih later, added]
        simp [eq_comm]

theorem head_insertionSort {l : List String} {first : String} :
    (∃ rest, l.insertionSort (· ≤ ·) = first :: rest) ↔ IsLeast {name | name ∈ l} first := by
  constructor
  · rintro ⟨rest, sorted⟩
    have member (name : String) : name ∈ l ↔ name ∈ first :: rest := by
      rw [← sorted, List.mem_insertionSort]
    refine ⟨(member first).mpr List.mem_cons_self, fun name listed => ?_⟩
    have ordered := List.pairwise_insertionSort (· ≤ ·) l
    rw [sorted] at ordered
    rcases List.mem_cons.mp ((member name).mp listed) with rfl | later
    · exact le_rfl
    · exact (List.pairwise_cons.mp ordered).1 name later
  · rintro ⟨listed, least⟩
    have member (name : String) : name ∈ l.insertionSort (· ≤ ·) ↔ name ∈ l :=
      List.mem_insertionSort _
    cases sorted : l.insertionSort (· ≤ ·) with
    | nil =>
      have here := (member first).mpr listed
      simp [sorted] at here
    | cons head rest =>
      have ordered := List.pairwise_insertionSort (· ≤ ·) l
      rw [sorted] at ordered
      have below : first ≤ head := least ((member head).mp (by simp [sorted]))
      have here := (member first).mpr listed
      rw [sorted] at here
      rcases List.mem_cons.mp here with rfl | later
      · exact ⟨rest, rfl⟩
      · exact ⟨rest, by rw [le_antisymm below ((List.pairwise_cons.mp ordered).1 first later)]⟩

/-- The choice does not depend on the order of the directory: it is the least name of an Intel
render node that is the requested one, if one is requested. -/
theorem intelRenderNode_ok_iff {m : Machinery} {requested path : String} :
    m.intelRenderNode requested = .ok path ↔ m.Readable requested ∧
      IsLeast {name | ∃ node ∈ m.nodes, m.Eligible requested node ∧ m.Named node name} path := by
  have read : (∃ candidates, m.renderCandidates requested m.nodes = .ok candidates) ↔
      m.Readable requested :=
    renderCandidates_ok_iff.trans ⟨fun ⟨listing, all⟩ => ⟨listing, all⟩, fun r => ⟨r.1, r.2⟩⟩
  rw [← read, intelRenderNode]
  cases found : m.renderCandidates requested m.nodes with
  | error message => simp
  | ok candidates =>
    have same : {name | ∃ node ∈ m.nodes, m.Eligible requested node ∧ m.Named node name} =
        {name | name ∈ candidates} :=
      Set.ext fun name => (mem_renderCandidates found name).symm
    rw [same, ← head_insertionSort]
    dsimp only
    cases candidates.insertionSort (· ≤ ·) <;> simp

end Machinery

/-- What `initialize` throws for a candidate, whatever was tried before. -/
def refusal (m : Machinery) (o : EncoderOptions) (candidate : String) : Option String :=
  (initializeEncoder m o ⟨candidate, "", none⟩).2

/-- A candidate that initialises. An Intel encoder stands for its render node, NVENC has none. -/
structure Initialized (m : Machinery) (o : EncoderOptions) (e : EncoderSetup) : Prop where
  accepted : refusal m o e.selected = none
  intel : e.selected ≠ "nvenc" →
    m.intelRenderNode o.renderNode = .ok e.devicePath ∧ e.intel = some e.devicePath
  nvenc : e.selected = "nvenc" → e.intel = none

theorem initialize_refusal (m : Machinery) (o : EncoderOptions) (e : EncoderSetup) :
    (initializeEncoder m o e).2 = refusal m o e.selected ∧
      (initializeEncoder m o e).1.selected = e.selected := by
  simp only [refusal, initializeEncoder]
  cases m.prepare e.selected with
  | some message => exact ⟨rfl, rfl⟩
  | none =>
    dsimp only
    split
    · exact ⟨rfl, rfl⟩
    · cases m.intelRenderNode o.renderNode with
      | error message => exact ⟨rfl, rfl⟩
      | ok path =>
        dsimp only
        cases m.vaapi path <;> exact ⟨rfl, rfl⟩

theorem initialize_initialized {m : Machinery} {o : EncoderOptions} {e next : EncoderSetup}
    (untouched : e.intel = none) (opened : initializeEncoder m o e = (next, none)) :
    next.selected = e.selected ∧ Initialized m o next := by
  obtain ⟨refused, selected⟩ := initialize_refusal m o e
  rw [opened] at refused selected
  refine ⟨selected, selected ▸ refused.symm, fun other => ?_, fun nvenc => ?_⟩
  · simp only at selected
    rw [selected] at other
    simp only [initializeEncoder, if_neg other] at opened
    split at opened
    · simp at opened
    split at opened
    · simp at opened
    next path found =>
      split at opened
      · simp at opened
      · obtain ⟨rfl, _⟩ := Prod.mk.inj opened
        exact ⟨found, rfl⟩
  · simp only at selected
    rw [selected] at nvenc
    simp only [initializeEncoder, if_pos nvenc] at opened
    split at opened
    · simp at opened
    · obtain ⟨rfl, _⟩ := Prod.mk.inj opened
      exact untouched

def refusals (m : Machinery) (o : EncoderOptions) (errors : String) (candidates : List String) :
    String :=
  candidates.foldl (fun errors c => errors ++ (c ++ ": " ++ (refusal m o c).getD "" ++ "; ")) errors

/-- The first candidate that initialises is taken; the next one is tried only after a refusal,
without the GPU of the one before. -/
theorem tryCandidates_ok {m : Machinery} {o : EncoderOptions} {candidates : List String}
    {e setup : EncoderSetup} {errors : String} (untouched : e.intel = none)
    (taken : tryCandidates m o candidates e errors = .ok setup) :
    ∃ before after, candidates = before ++ setup.selected :: after ∧
      (∀ c ∈ before, ∃ message, refusal m o c = some message) ∧ Initialized m o setup := by
  induction candidates generalizing e errors with
  | nil => contradiction
  | cons candidate rest ih =>
    have refused := initialize_refusal m o { e with selected := candidate }
    rw [tryCandidates] at taken
    split at taken
    next next opened =>
      obtain rfl := Except.ok.inj taken
      obtain ⟨selected, initialized⟩ := initialize_initialized (by exact untouched) opened
      exact ⟨[], rest, by rw [selected]; rfl, by simp, initialized⟩
    next next message failed =>
      rw [failed] at refused
      obtain ⟨before, after, rfl, all, initialized⟩ := ih rfl taken
      exact ⟨candidate :: before, after, rfl,
        List.forall_mem_cons.mpr ⟨⟨message, refused.1.symm⟩, all⟩, initialized⟩

theorem tryCandidates_error {m : Machinery} {o : EncoderOptions} {candidates : List String}
    {e : EncoderSetup} {errors message : String}
    (failed : tryCandidates m o candidates e errors = .error message) :
    (∀ c ∈ candidates, ∃ text, refusal m o c = some text) ∧
      message = refusals m o errors candidates ++ "No software fallback is permitted" := by
  induction candidates generalizing e errors with
  | nil => exact ⟨by simp, (Except.error.inj failed).symm⟩
  | cons candidate rest ih =>
    have refused := initialize_refusal m o { e with selected := candidate }
    rw [tryCandidates] at failed
    split at failed
    next => contradiction
    next next text thrown =>
      rw [thrown] at refused
      obtain ⟨all, report⟩ := ih failed
      refine ⟨List.forall_mem_cons.mpr ⟨⟨text, refused.1.symm⟩, all⟩, ?_⟩
      rw [report, refusals, refusals, List.foldl_cons, ← refused.1, Option.getD_some]

theorem nvenc_candidate {backend : String} {fallback : Bool} {before after : List String}
    (candidates : encoderCandidates backend fallback = .ok (before ++ "nvenc" :: after)) :
    backend = "nvenc" ∨ (backend = "auto" ∧ fallback = true ∧ "intel-vaapi" ∈ before) := by
  simp only [encoderCandidates] at candidates
  split at candidates
  next auto =>
    cases fallback with
    | true =>
      refine .inr ⟨auto, rfl, ?_⟩
      rcases List.append_eq_cons_iff.mp (Except.ok.inj candidates).symm with ⟨_, same⟩ | ⟨rest, rfl, _⟩
      · simp at same
      · exact List.mem_cons_self
    | false =>
      have listed := congrArg ("nvenc" ∈ ·) (Except.ok.inj candidates)
      simp at listed
  split at candidates
  next named =>
    have listed := congrArg ("nvenc" ∈ ·) (Except.ok.inj candidates)
    simp at listed
    exact .inl listed.symm
  split at candidates <;> contradiction

/-- No silent substitution. A stream gets an encoder exactly when its configuration is valid and
one of its candidates initialises, and then the first of those; NVENC only where it is asked for
or permitted after Intel has failed, and an Intel encoder on the least matching render node.
Otherwise what is thrown names each candidate with its own failure. -/
theorem encoder_selection (m : Machinery) (monitorId : Int) (o : EncoderOptions) :
    ((∃ setup, constructEncoder m monitorId o = .ok setup) ↔
      o.Valid monitorId ∧ ∃ candidates,
        encoderCandidates o.backend o.allowNvencFallback = .ok candidates ∧
          ∃ c ∈ candidates, refusal m o c = none) ∧
    (∀ setup, constructEncoder m monitorId o = .ok setup →
      (∃ before after,
        encoderCandidates o.backend o.allowNvencFallback = .ok (before ++ setup.selected :: after) ∧
        ∀ c ∈ before, ∃ message, refusal m o c = some message) ∧
      (setup.selected = "nvenc" → setup.intel = none ∧ (o.backend = "nvenc" ∨
        (o.backend = "auto" ∧ o.allowNvencFallback = true ∧
          ∃ message, refusal m o "intel-vaapi" = some message))) ∧
      (setup.selected ≠ "nvenc" → setup.intel = some setup.devicePath ∧
        IsLeast {name | ∃ node ∈ m.nodes, m.Eligible o.renderNode node ∧ m.Named node name}
          setup.devicePath)) ∧
    ∀ candidates message, o.Valid monitorId →
      encoderCandidates o.backend o.allowNvencFallback = .ok candidates →
      constructEncoder m monitorId o = .error message →
      message = refusals m o "" candidates ++ "No software fallback is permitted" := by
  refine ⟨?_, ?_, ?_⟩
  · simp only [constructEncoder]
    by_cases valid : o.Valid monitorId
    · simp only [valid, if_true, true_and]
      cases named : encoderCandidates o.backend o.allowNvencFallback with
      | error message => simp
      | ok candidates =>
        simp only [Except.ok.injEq, exists_eq_left']
        constructor
        · rintro ⟨setup, taken⟩
          obtain ⟨before, after, rfl, _, initialized⟩ := tryCandidates_ok rfl taken
          exact ⟨setup.selected, by simp, initialized.accepted⟩
        · rintro ⟨c, listed, accepted⟩
          cases tried : tryCandidates m o candidates ⟨"", "", none⟩ "" with
          | ok setup => exact ⟨setup, rfl⟩
          | error message =>
            obtain ⟨text, refused⟩ := (tryCandidates_error tried).1 c listed
            simp [accepted] at refused
    · simp [valid]
  · intro setup constructed
    simp only [constructEncoder] at constructed
    split at constructed
    · split at constructed
      · contradiction
      next candidates found =>
        obtain ⟨before, after, rfl, refused, initialized⟩ := tryCandidates_ok rfl constructed
        refine ⟨⟨before, after, found, refused⟩, fun nvenc => ⟨initialized.nvenc nvenc, ?_⟩,
          fun other => ?_⟩
        · rw [nvenc] at found
          exact (nvenc_candidate found).imp_right fun ⟨auto, permitted, before⟩ =>
            ⟨auto, permitted, refused _ before⟩
        · obtain ⟨found, intel⟩ := initialized.intel other
          exact ⟨intel, (Machinery.intelRenderNode_ok_iff.mp found).2⟩
    · contradiction
  · intro candidates message valid named failed
    simp only [constructEncoder, if_pos valid, named] at failed
    exact (tryCandidates_error failed).2

end Quest
