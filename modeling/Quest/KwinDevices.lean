import Quest.GpuDevices
import Quest.Library.Shell

/-! The login script that `configure-kwin-gpu.py` writes: its text, what a login shell makes of it,
whose links it resolves at each login. -/
namespace Quest.Gpu

open Shell

def marker : String := "# Managed by quest configure-kwin-gpu.py\n"

/-- Cards of Intel come first, then the order is that of the addresses. -/
def Before (a b : Device) : Prop :=
  (a.Intel ∧ ¬b.Intel) ∨ ((a.Intel ↔ b.Intel) ∧ a.pci ≤ b.pci)

instance : DecidableRel Before := fun a b => by unfold Before; infer_instance

def ordered (devices : List Device) : List Device :=
  (devices.filter (·.card.isSome)).insertionSort Before

def cardLink (pci : String) : String := "/dev/dri/by-path/pci-" ++ pci ++ "-card"

def script (devices : List Device) : Except String String :=
  if (ordered devices).any (·.Intel) then
    .ok (marker ++ "quest_drm_devices=\"\"\nquest_drm_ok=1\nfor quest_drm_card in " ++
      " ".intercalate ((ordered devices).map fun d =>
        "\"$(readlink -f /dev/dri/by-path/pci-" ++ d.pci ++ "-card)\"") ++ "; do\n" ++
      "    if [ ! -c \"$quest_drm_card\" ]; then quest_drm_ok=0; break; fi\n" ++
      "    quest_drm_devices=\"$\x7bquest_drm_devices:+$quest_drm_devices:\x7d$quest_drm_card\"\ndone\n" ++
      "if [ \"$quest_drm_ok\" = 1 ]; then export KWIN_DRM_DEVICES=\"$quest_drm_devices\"; fi\n" ++
      "unset quest_drm_devices quest_drm_card quest_drm_ok\n")
  else .error "MANUAL GPU ENABLE REQUIRED: no Intel DRM card"

def resolveCard (d : Device) : Word := .quoted (.output ["readlink", "-f", cardLink d.pci])

def checkCard : Command :=
  .cond (.not (.charDevice (.quoted (.var "quest_drm_card"))))
    (.seq (.assign "quest_drm_ok" (.bare "0")) .leave)

def joinCard : Command :=
  .assign "quest_drm_devices" (.quoted (.cat
    (.given "quest_drm_devices" (.cat (.var "quest_drm_devices") (.text ":")))
    (.var "quest_drm_card")))

def collectCards (devices : List Device) : Command :=
  .each "quest_drm_card" ((ordered devices).map resolveCard) (.seq checkCard joinCard)

def exportCards : Command :=
  .cond (.same (.quoted (.var "quest_drm_ok")) (.bare "1"))
    (.exports "KWIN_DRM_DEVICES" (.quoted (.var "quest_drm_devices")))

def program (devices : List Device) : Command :=
  .seq (.assign "quest_drm_devices" (.quoted (.text "")))
    (.seq (.assign "quest_drm_ok" (.bare "1"))
      (.seq (collectCards devices)
        (.seq exportCards (.unset ["quest_drm_devices", "quest_drm_card", "quest_drm_ok"]))))

theorem before_total (a b : Device) : Before a b ∨ Before b a := by
  unfold Before
  rcases le_total a.pci b.pci with le | le <;> tauto

theorem Before.trans {a b c : Device} (first : Before a b) (second : Before b c) : Before a c := by
  rcases first with ⟨intel, other⟩ | ⟨same, le⟩
  · exact .inl ⟨intel, fun last => second.elim (fun s => other s.1) fun s => other (s.1.mpr last)⟩
  · rcases second with ⟨intel, other⟩ | ⟨same', le'⟩
    · exact .inl ⟨same.mpr intel, other⟩
    · exact .inr ⟨same.trans same', le.trans le'⟩

instance : Std.Total Before := ⟨before_total⟩

instance : IsTrans Device Before := ⟨fun _ _ _ => Before.trans⟩

theorem ordered_pairwise (devices : List Device) : (ordered devices).Pairwise Before :=
  List.pairwise_insertionSort Before _

theorem mem_ordered {devices : List Device} {d : Device} :
    d ∈ ordered devices ↔ d ∈ devices ∧ d.card.isSome = true := by
  rw [ordered, List.mem_insertionSort, List.mem_filter]

theorem script_ok_iff {devices : List Device} :
    (∃ text, script devices = .ok text) ↔ ∃ d ∈ ordered devices, d.Intel := by
  unfold script
  split <;> simp_all

theorem resolveCard_render (d : Device) :
    (resolveCard d).render = "\"$(readlink -f /dev/dri/by-path/pci-" ++ d.pci ++ "-card)\"" := by
  have opening : "\"$(readlink -f /dev/dri/by-path/pci-" =
      "\"" ++ ("$(" ++ ("readlink" ++ (" " ++ ("-f" ++ (" " ++ "/dev/dri/by-path/pci-"))))) := by
    decide +kernel
  have closing : "-card)\"" = "-card" ++ (")" ++ "\"") := by decide +kernel
  have text : (resolveCard d).render =
      "\"" ++ ("$(" ++ " ".intercalate ["readlink", "-f", cardLink d.pci] ++ ")") ++ "\"" := rfl
  have command : " ".intercalate ["readlink", "-f", cardLink d.pci] =
      "readlink" ++ " " ++ ("-f" ++ " " ++ ("/dev/dri/by-path/pci-" ++ d.pci ++ "-card")) := by
    rw [String.intercalate_cons_cons, String.intercalate_cons_cons, String.intercalate_singleton]
    rfl
  rw [text, command, opening, closing]
  simp only [String.append_assoc]

theorem round_render : (Command.seq checkCard joinCard).render "    " =
    "    if [ ! -c \"$quest_drm_card\" ]; then quest_drm_ok=0; break; fi\n" ++
      "    quest_drm_devices=\"$\x7bquest_drm_devices:+$quest_drm_devices:\x7d$quest_drm_card\"\n" := by
  decide +kernel

theorem exportCards_render : exportCards.render "" =
    "if [ \"$quest_drm_ok\" = 1 ]; then export KWIN_DRM_DEVICES=\"$quest_drm_devices\"; fi\n" := by
  decide +kernel

/-- The script is the text of the program. -/
theorem program_render (devices : List Device) : marker ++ (program devices).render "" =
    marker ++ "quest_drm_devices=\"\"\nquest_drm_ok=1\nfor quest_drm_card in " ++
      " ".intercalate ((ordered devices).map fun d =>
        "\"$(readlink -f /dev/dri/by-path/pci-" ++ d.pci ++ "-card)\"") ++ "; do\n" ++
      "    if [ ! -c \"$quest_drm_card\" ]; then quest_drm_ok=0; break; fi\n" ++
      "    quest_drm_devices=\"$\x7bquest_drm_devices:+$quest_drm_devices:\x7d$quest_drm_card\"\ndone\n" ++
      "if [ \"$quest_drm_ok\" = 1 ]; then export KWIN_DRM_DEVICES=\"$quest_drm_devices\"; fi\n" ++
      "unset quest_drm_devices quest_drm_card quest_drm_ok\n" := by
  have opening : "quest_drm_devices=\"\"\nquest_drm_ok=1\nfor quest_drm_card in " =
      (Command.assign "quest_drm_devices" (.quoted (.text ""))).render "" ++
        ((Command.assign "quest_drm_ok" (.bare "1")).render "" ++ "for quest_drm_card in ") := by
    decide +kernel
  have heading : "for quest_drm_card in " = "" ++ "for " ++ "quest_drm_card" ++ " in " := by
    decide +kernel
  have joined :
      "    quest_drm_devices=\"$\x7bquest_drm_devices:+$quest_drm_devices:\x7d$quest_drm_card\"\ndone\n" =
        "    quest_drm_devices=\"$\x7bquest_drm_devices:+$quest_drm_devices:\x7d$quest_drm_card\"\n" ++
        ("" ++ "done\n") := by
    decide +kernel
  have closing : "unset quest_drm_devices quest_drm_card quest_drm_ok\n" =
      (Command.unset ["quest_drm_devices", "quest_drm_card", "quest_drm_ok"]).render "" := by
    decide +kernel
  have words : ((ordered devices).map resolveCard).map Word.render = (ordered devices).map fun d =>
      "\"$(readlink -f /dev/dri/by-path/pci-" ++ d.pci ++ "-card)\"" := by
    rw [List.map_map]
    exact List.map_congr_left fun d _ => resolveCard_render d
  have loop : (collectCards devices).render "" = "" ++ "for " ++ "quest_drm_card" ++ " in " ++
      " ".intercalate (((ordered devices).map resolveCard).map Word.render) ++ "; do\n" ++
        (Command.seq checkCard joinCard).render "    " ++ "" ++ "done\n" := rfl
  rw [← words, opening, heading, joined, closing, ← exportCards_render]
  have text : (program devices).render "" =
      (Command.assign "quest_drm_devices" (.quoted (.text ""))).render "" ++
        ((Command.assign "quest_drm_ok" (.bare "1")).render "" ++ ((collectCards devices).render "" ++
          (exportCards.render "" ++
            (Command.unset ["quest_drm_devices", "quest_drm_card", "quest_drm_ok"]).render ""))) :=
    rfl
  rw [text, loop, round_render]
  simp only [String.append_assoc]

def scratch : List String := ["quest_drm_devices", "quest_drm_card", "quest_drm_ok"]

/-- What a card's link resolves to at a login. -/
def resolved (w : World) (d : Device) : String := w.output ["readlink", "-f", cardLink d.pci]

def Aside (e f : Env) : Prop := ∀ name, name ∉ scratch → e.Same f name

theorem Aside.set {e f : Env} (aside : Aside e f) {name : String} (own : name ∈ scratch)
    (value : String) : Aside e (f.set name value) := by
  intro other outside
  have different : other ≠ name := fun same => outside (same ▸ own)
  exact (aside other outside).trans (Env.same_set different f value)

structure Collected (w : World) (e : Env) (names : List String) (f : Env) : Prop where
  joined : f.get "quest_drm_devices" = ":".intercalate names
  good : f.get "quest_drm_ok" = "1"
  devices : ∀ name ∈ names, w.charDevice name = true
  aside : Aside e f

structure Checked (w : World) (e : Env) (names : List String) (f : Env) : Prop where
  all : (∀ name ∈ names, w.charDevice name = true) →
    f.get "quest_drm_ok" = "1" ∧ f.get "quest_drm_devices" = ":".intercalate names
  some : ¬(∀ name ∈ names, w.charDevice name = true) → f.get "quest_drm_ok" = "0"
  aside : Aside e f

theorem Collected.checked {w : World} {e f : Env} {names : List String}
    (collected : Collected w e names f) : Checked w e names f :=
  ⟨fun _ => ⟨collected.good, collected.joined⟩, fun bad => absurd collected.devices bad,
    collected.aside⟩

theorem intercalate_snoc (s t : String) (names : List String) :
    s.intercalate (names ++ [t]) = (if names = [] then "" else s.intercalate names ++ s) ++ t := by
  by_cases empty : names = []
  · simp [empty]
  · rw [String.intercalate_append_of_ne_nil empty (by simp), String.intercalate_singleton,
      if_neg empty]

/-- Device names are not empty, so nothing was joined yet exactly if the variable is empty. -/
theorem intercalate_devices_eq_empty {w : World} {names : List String}
    (devices : ∀ name ∈ names, w.charDevice name = true) :
    ":".intercalate names = "" ↔ names = [] := by
  cases names with
  | nil => simp
  | cons name rest =>
    have named : name ≠ "" := by
      rintro rfl
      simpa [w.named] using devices "" List.mem_cons_self
    cases rest with
    | nil => simpa using named
    | cons other rest =>
      rw [String.intercalate_cons_cons]
      simp [named]

theorem joinCard_triple {w : World} {e : Env} {done : List String} {name : String} {B : Env → Prop} :
    Command.Triple w (fun f => Collected w e done f ∧ f.get "quest_drm_card" = name ∧
      w.charDevice name = true) joinCard (Collected w e (done ++ [name])) B := by
  refine Command.triple_assign.weaken (fun f ⟨collected, card, good⟩ => ?_) fun _ => id
  refine ⟨?_, ?_, ?_, collected.aside.set (by decide) _⟩
  · rw [Env.get_set_same, intercalate_snoc]
    simp only [Word.expand, Piece.expand, collected.joined, card,
      intercalate_devices_eq_empty collected.devices]
  · rw [Env.get_set_other (by decide), collected.good]
  · intro other member
    rcases List.mem_append.mp member with old | new
    · exact collected.devices other old
    · rw [List.mem_singleton.mp new, good]

/-- A round leaves the loop at a name that is no device. -/
theorem round_triple {w : World} {e : Env} {names done later : List String} {name : String}
    (split : names = done ++ name :: later) :
    Command.Triple w (fun f => ∃ g, Collected w e done g ∧ f = g.set "quest_drm_card" name)
      (.seq checkCard joinCard) (Collected w e (done ++ [name])) (Checked w e names) := by
  have here (g : Env) : (g.set "quest_drm_card" name).get "quest_drm_card" = name :=
    Env.get_set_same g _ name
  have moved {g : Env} (collected : Collected w e done g) :
      Collected w e done (g.set "quest_drm_card" name) := by
    refine ⟨?_, ?_, collected.devices, collected.aside.set (by decide) name⟩
    · rw [Env.get_set_other (by decide), collected.joined]
    · rw [Env.get_set_other (by decide), collected.good]
  refine Command.triple_seq (Command.triple_cond
    (Command.triple_seq Command.triple_assign Command.triple_leave |>.weaken ?_ fun _ => id)
    ?_) joinCard_triple
  · rintro _ ⟨⟨g, collected, rfl⟩, missing⟩
    refine ⟨fun all => ?_, fun _ => Env.get_set_same _ _ _,
      (moved collected).aside.set (by decide) _⟩
    have good := all name (by simp [split])
    simp [Test.holds, Word.expand, Piece.expand, here, good] at missing
  · rintro _ ⟨g, collected, rfl⟩ found
    refine ⟨moved collected, here g, ?_⟩
    simpa [Test.holds, Word.expand, Piece.expand, here] using found

theorem collectCards_triple {w : World} {e : Env} {devices : List Device} {B : Env → Prop} :
    Command.Triple w (Collected w e []) (collectCards devices)
      (Checked w e ((ordered devices).map (resolved w))) B := by
  refine Command.triple_each (Collected w e) ((ordered devices).map (resolved w)) ?_ (fun _ => id)
    (fun done name later split => round_triple split) fun _ collected => collected.checked
  intro f _
  rw [List.map_map]
  rfl

structure Configured (w : World) (names : List String) (e f : Env) : Prop where
  exported : (∀ name ∈ names, w.charDevice name = true) →
    f.value "KWIN_DRM_DEVICES" = some (":".intercalate names) ∧
      f.exported "KWIN_DRM_DEVICES" = true
  untouched : ¬(∀ name ∈ names, w.charDevice name = true) → e.Same f "KWIN_DRM_DEVICES"
  cleared : ∀ name ∈ scratch, f.value name = none ∧ f.exported name = false
  aside : ∀ name, name ∉ scratch → name ≠ "KWIN_DRM_DEVICES" → e.Same f name

theorem foldl_drop (names : List String) (e : Env) (name : String) :
    (names.foldl Env.drop e).value name = (if name ∈ names then none else e.value name) ∧
      (names.foldl Env.drop e).exported name = (if name ∈ names then false else e.exported name) := by
  induction names generalizing e with
  | nil => simp
  | cons first rest ih =>
    rw [List.foldl_cons, (ih _).1, (ih _).2]
    by_cases later : name ∈ rest
    · simp [later]
    · by_cases same : name = first <;> simp [later, same, Env.drop]

/-- Whatever the script's variables are, `unset` takes them away and leaves the others. -/
theorem Configured.unset {w : World} {names : List String} {e f : Env}
    (exported : (∀ name ∈ names, w.charDevice name = true) →
      f.value "KWIN_DRM_DEVICES" = some (":".intercalate names) ∧
        f.exported "KWIN_DRM_DEVICES" = true)
    (untouched : ¬(∀ name ∈ names, w.charDevice name = true) → e.Same f "KWIN_DRM_DEVICES")
    (aside : ∀ name, name ∉ scratch → name ≠ "KWIN_DRM_DEVICES" → e.Same f name) :
    Configured w names e (scratch.foldl Env.drop f) := by
  have kept {name : String} (outside : name ∉ scratch) : f.Same (scratch.foldl Env.drop f) name := by
    have dropped := foldl_drop scratch f name
    rwa [if_neg outside, if_neg outside] at dropped
  have target : f.Same (scratch.foldl Env.drop f) "KWIN_DRM_DEVICES" := kept (by decide)
  refine ⟨fun all => ?_, fun bad => (untouched bad).trans target, fun name own => ?_,
    fun name outside other => (aside name outside other).trans (kept outside)⟩
  · rw [target.1, target.2]
    exact exported all
  · have dropped := foldl_drop scratch f name
    rwa [if_pos own, if_pos own] at dropped

theorem exportCards_triple {w : World} {e : Env} {names : List String} {B : Env → Prop} :
    Command.Triple w (Checked w e names)
      (.seq exportCards (.unset scratch)) (Configured w names e) B := by
  refine Command.triple_seq (Q := fun f => Configured w names e (scratch.foldl Env.drop f))
    (Command.triple_cond (Command.triple_exports.weaken ?_ fun _ => id) ?_) Command.triple_unset
  · rintro f ⟨checked, good⟩
    have all : ∀ name ∈ names, w.charDevice name = true := by
      by_contra bad
      simp [Test.holds, Word.expand, Piece.expand, checked.some bad] at good
    have joined : (Word.quoted (.var "quest_drm_devices")).expand w f = ":".intercalate names :=
      (checked.all all).2
    rw [joined]
    refine .unset (fun _ => by simp [Env.set, Env.exporting]) (fun bad => absurd all bad)
      fun name outside other => ?_
    simpa [Env.Same, Env.set, Env.exporting, other] using checked.aside name outside
  · intro f checked bad
    have some_ : ¬∀ name ∈ names, w.charDevice name = true := fun all => by
      simp [Test.holds, Word.expand, Piece.expand, (checked.all all).1] at bad
    exact .unset (fun all => absurd all some_) (fun _ => checked.aside _ (by decide))
      fun name outside _ => checked.aside name outside

theorem program_triple {w : World} {e : Env} (devices : List Device) {B : Env → Prop} :
    Command.Triple w (· = e) (program devices)
      (Configured w ((ordered devices).map (resolved w)) e) B := by
  refine Command.triple_seq (Command.triple_assign.weaken ?_ fun _ => id)
    (Command.triple_seq Command.triple_assign
      (Command.triple_seq collectCards_triple exportCards_triple))
  intro f start
  have before : Aside e f := fun _ _ => by simp [Env.Same, start]
  have own : "quest_drm_devices" ∈ scratch ∧ "quest_drm_ok" ∈ scratch := by decide
  exact ⟨by simp [Word.expand, Piece.expand], by simp [Word.expand], by simp,
    (before.set own.1 _).set own.2 _⟩

theorem program_configures (w : World) (e : Env) (devices : List Device) :
    Configured w ((ordered devices).map (resolved w)) e ((program devices).exec w e).1 := by
  have result := program_triple (w := w) devices (B := fun _ => False) e rfl
  split at result
  · contradiction
  · exact result

/-- The setting reads back as the list of the cards. -/
theorem exported_reads_back {w : World} {e f : Env} {names : List String}
    (configured : Configured w names e f) (some_ : names ≠ [])
    (devices : ∀ name ∈ names, w.charDevice name = true)
    (plain : ∀ name ∈ names, ':' ∉ name.toList) :
    (f.get "KWIN_DRM_DEVICES").toList.splitOn ':' = names.map String.toList := by
  rw [Env.get, (configured.exported devices).1, Option.getD_some, String.toList_intercalate]
  exact List.splitOn_intercalate ':' (by simpa using plain) (by simpa using some_)

/-- There is a script exactly when Intel has a card. At every login it exports the cards that the
links then lead to, Intel's first, in a form that reads back as that list where no name holds a
colon; if one of them is no device the setting stays as it was. Nothing else is changed and its
own variables are gone. A shell reads the text as that program where no address holds a character
with a meaning of its own in double quotes or between words, as the kernel's addresses never do. -/
theorem login_configures (devices : List Device) :
    ((∃ text, script devices = .ok text) ↔ ∃ d ∈ devices, d.card.isSome = true ∧ d.Intel) ∧
    (ordered devices).Pairwise Before ∧
    ∀ text, script devices = .ok text → text = marker ++ (program devices).render "" ∧
      ∀ (w : World) (e : Env),
        Configured w ((ordered devices).map (resolved w)) e ((program devices).exec w e).1 ∧
        ((∀ d ∈ ordered devices, w.charDevice (resolved w d) = true ∧
            ':' ∉ (resolved w d).toList) →
          (((program devices).exec w e).1.get "KWIN_DRM_DEVICES").toList.splitOn ':' =
            (ordered devices).map fun d => (resolved w d).toList) := by
  refine ⟨?_, ordered_pairwise devices, fun text made => ?_⟩
  · rw [script_ok_iff]
    simp only [mem_ordered, and_assoc]
  obtain ⟨d, member, _⟩ := script_ok_iff.mp ⟨text, made⟩
  have written : text = marker ++ (program devices).render "" := by
    unfold script at made
    split at made
    · exact (Except.ok.inj made).symm.trans (program_render devices).symm
    · contradiction
  refine ⟨written, fun w e => ?_⟩
  have configured := program_configures w e devices
  refine ⟨configured, fun plain => ?_⟩
  rw [exported_reads_back configured (by simpa using List.ne_nil_of_mem member)
    (by simpa using fun d member => (plain d member).1)
    (by simpa using fun d member => (plain d member).2), List.map_map]
  rfl

example : (ordered [⟨"0000:02:00.0", "0x10de", none, none, some "/dev/dri/card1", none⟩,
    ⟨"0000:00:02.0", "0x8086", none, none, some "/dev/dri/card9", none⟩]).map Device.pci =
      ["0000:00:02.0", "0000:02:00.0"] := by
  decide +kernel

end Quest.Gpu
