import Quest.StreamOptions

/-! From the configuration file to a running stream process: what `stream-launcher.py` makes of
the configuration, and what `stream_main` reads of its command line. How `QString` reads a whole
number is a parameter. -/
namespace Quest.Launcher

open CommandLine

/-- A value of the configuration, as Python has it; numbers with a fraction, lists and objects
are never accepted. -/
inductive PyValue where
  | none
  | bool (value : Bool)
  | int (value : Int)
  | str (text : String)
  | other
  deriving DecidableEq, Repr

abbrev Config : Type := String → Option PyValue

def encoderBackends : List String := ["auto", "intel-vaapi", "intel-qsv", "nvenc"]

def encoderArguments (config : Config) : Except String (List String) :=
  match (config "encoder").getD (.str "nvenc"),
      (config "allow_nvenc_fallback").getD (.bool false) with
  | .str backend, .bool fallback =>
    if backend ∈ encoderBackends then
      match (config "capture_memory").getD (.str "auto"),
          (config "intel_render_node").getD (.str "") with
      | .str memory, .str render =>
        if memory ∈ captureMemories then
          match (config "gop_frames").getD (.int 60), (config "vbv_ms").getD (.int 50) with
          | .int gop, .int vbv =>
            if 1 ≤ gop ∧ gop ≤ 600 ∧ 10 ≤ vbv ∧ vbv ≤ 1000 then
              .ok (["--encoder", backend, "--capture-memory", memory, "--gop", toString gop,
                  "--vbv-ms", toString vbv] ++
                (if render = "" then [] else ["--intel-render-node", render]) ++
                if fallback then ["--allow-nvenc-fallback"] else [])
            else .error "Invalid gop_frames or vbv_ms"
          | _, _ => .error "Invalid gop_frames or vbv_ms"
        else .error "Invalid capture_memory or intel_render_node"
      | _, _ => .error "Invalid capture_memory or intel_render_node"
    else .error "Invalid encoder or allow_nvenc_fallback"
  | _, _ => .error "Invalid encoder or allow_nvenc_fallback"

/-- The arguments that `main` gives the stream process, or why it ends instead. -/
def launchArguments (config : Config) (output : String) : Except String (List String) :=
  match config "bitrate_mbps", config "port" with
  | some bitrate, some port =>
    match encoderArguments config with
    | .error message => .error message
    | .ok encoder =>
      match bitrate, port with
      | .int bitrate, .int port =>
        if 1 ≤ bitrate ∧ bitrate ≤ 150 ∧ 1 ≤ port ∧ port ≤ 65535 then
          .ok (["--no-record", "--listen", toString port, "--bitrate", toString bitrate,
              "--output", output] ++ encoder ++
            if (config "laptop_off_when_connected").getD (.bool true) = .bool true then
              ["--laptop-off-when-connected"] else [])
        else .error "Invalid bitrate_mbps or port"
      | _, _ => .error "Invalid bitrate_mbps or port"
  | none, _ => .error "'bitrate_mbps'"
  | some _, none => .error "'port'"

structure Configured (config : Config) (s : StreamSettings) : Prop where
  backend : (config "encoder").getD (.str "nvenc") = .str s.encoder.backend
  fallback : (config "allow_nvenc_fallback").getD (.bool false) =
    .bool s.encoder.allowNvencFallback
  memory : (config "capture_memory").getD (.str "auto") = .str s.memory
  render : (config "intel_render_node").getD (.str "") = .str s.encoder.renderNode
  gop : (config "gop_frames").getD (.int 60) = .int s.encoder.gop
  vbvMs : (config "vbv_ms").getD (.int 50) = .int s.encoder.vbvMs
  rate : config "bitrate_mbps" = some (.int s.rate)
  port : config "port" = some (.int s.port)
  laptopOff : s.laptopOff =
    decide ((config "laptop_off_when_connected").getD (.bool true) = .bool true)

structure Admitted (s : StreamSettings) : Prop where
  backend : s.encoder.backend ∈ encoderBackends
  memory : s.memory ∈ captureMemories
  gop : 1 ≤ s.encoder.gop ∧ s.encoder.gop ≤ 600
  vbvMs : 10 ≤ s.encoder.vbvMs ∧ s.encoder.vbvMs ≤ 1000
  rate : 1 ≤ s.rate ∧ s.rate ≤ 150
  port : 1 ≤ s.port ∧ s.port ≤ 65535

structure Fixed (output : String) (s : StreamSettings) : Prop where
  seconds : s.seconds = 0
  selection : s.selection = "all"
  output : s.output = output
  record : s.record = false

def launchItems (s : StreamSettings) : List Item :=
  [.option "no-record" none, .option "listen" (some (toString s.port)),
    .option "bitrate" (some (toString s.rate)), .option "output" (some s.output),
    .option "encoder" (some s.encoder.backend), .option "capture-memory" (some s.memory),
    .option "gop" (some (toString s.encoder.gop)),
    .option "vbv-ms" (some (toString s.encoder.vbvMs))] ++
  (if s.encoder.renderNode = "" then []
    else [.option "intel-render-node" (some s.encoder.renderNode)]) ++
  (if s.encoder.allowNvencFallback then [.option "allow-nvenc-fallback" none] else []) ++
  if s.laptopOff then [.option "laptop-off-when-connected" none] else []

theorem encoderArguments_ok_iff {config : Config} {arguments : List String} :
    encoderArguments config = .ok arguments ↔ ∃ backend fallback memory render gop vbv,
      (config "encoder").getD (.str "nvenc") = .str backend ∧
      (config "allow_nvenc_fallback").getD (.bool false) = .bool fallback ∧
      (config "capture_memory").getD (.str "auto") = .str memory ∧
      (config "intel_render_node").getD (.str "") = .str render ∧
      (config "gop_frames").getD (.int 60) = .int gop ∧
      (config "vbv_ms").getD (.int 50) = .int vbv ∧
      backend ∈ encoderBackends ∧ memory ∈ captureMemories ∧
      (1 ≤ gop ∧ gop ≤ 600 ∧ 10 ≤ vbv ∧ vbv ≤ 1000) ∧
      arguments = ["--encoder", backend, "--capture-memory", memory, "--gop", toString gop,
          "--vbv-ms", toString vbv] ++
        (if render = "" then [] else ["--intel-render-node", render]) ++
        if fallback then ["--allow-nvenc-fallback"] else [] := by
  constructor
  · intro ok
    simp only [encoderArguments] at ok
    split at ok
    next backend fallback hb hf =>
      split at ok
      next known =>
        split at ok
        next memory render hm hr =>
          split at ok
          next mapped =>
            split at ok
            next gop vbv hg hv =>
              split at ok
              next range =>
                exact ⟨backend, fallback, memory, render, gop, vbv, hb, hf, hm, hr, hg, hv, known,
                  mapped, range, (Except.ok.inj ok).symm⟩
              next => contradiction
            next => contradiction
          next => contradiction
        next => contradiction
      next => contradiction
    next => contradiction
  · rintro ⟨backend, fallback, memory, render, gop, vbv, hb, hf, hm, hr, hg, hv, known, mapped,
      range, rfl⟩
    simp only [encoderArguments, hb, hf, hm, hr, hg, hv, if_pos known, if_pos mapped, if_pos range]

/-- The launcher starts the stream process for exactly the configurations in its ranges. -/
theorem launchArguments_ok_iff {config : Config} {output : String} {arguments : List String} :
    launchArguments config output = .ok arguments ↔ ∃ s, Configured config s ∧ Admitted s ∧
      Fixed output s ∧ arguments = render (launchItems s) := by
  constructor
  · intro ok
    simp only [launchArguments] at ok
    split at ok
    next bitrate port hr hp =>
      split at ok
      next => contradiction
      next encoder arguments =>
        obtain ⟨backend, fallback, memory, node, gop, vbv, hb, hf, hm, hn, hg, hv, known, mapped,
          range, rfl⟩ := encoderArguments_ok_iff.mp arguments
        split at ok
        next rate port =>
          split at ok
          next bounds =>
            refine ⟨⟨⟨backend, node, fallback, gop, vbv⟩, memory, 0, rate, port, "all", output,
              false, decide ((config "laptop_off_when_connected").getD (.bool true) = .bool true)⟩,
              ⟨hb, hf, hm, hn, hg, hv, hr, hp, rfl⟩,
              ⟨known, mapped, ⟨range.1, range.2.1⟩, range.2.2, ⟨bounds.1, bounds.2.1⟩,
                bounds.2.2⟩, ⟨rfl, rfl, rfl, rfl⟩, ?_⟩
            rw [← Except.ok.inj ok]
            by_cases empty : node = "" <;> cases fallback <;>
              by_cases off : (config "laptop_off_when_connected").getD (.bool true) = .bool true <;>
              simp [launchItems, render, Item.words, empty, off]
          next => contradiction
        next => contradiction
    next => contradiction
    next => contradiction
  · rintro ⟨s, configured, admitted, fixed, rfl⟩
    have encoder := encoderArguments_ok_iff.mpr ⟨_, _, _, _, _, _, configured.backend,
      configured.fallback, configured.memory, configured.render, configured.gop, configured.vbvMs,
      admitted.backend, admitted.memory, ⟨admitted.gop.1, admitted.gop.2, admitted.vbvMs⟩, rfl⟩
    simp only [launchArguments, configured.rate, configured.port, encoder,
      if_pos (show 1 ≤ s.rate ∧ s.rate ≤ 150 ∧ 1 ≤ s.port ∧ s.port ≤ 65535 from
        ⟨admitted.rate.1, admitted.rate.2, admitted.port⟩)]
    have off := configured.laptopOff
    by_cases empty : s.encoder.renderNode = "" <;> cases fallback : s.encoder.allowNvencFallback <;>
      by_cases given : (config "laptop_off_when_connected").getD (.bool true) = .bool true <;>
      simp [launchItems, render, Item.words, empty, fallback, given, off, fixed.output]

theorem valued_known {name : String} (value : String)
    (takes : streamOptions name = some true ∧ name.toList ≠ [] ∧ '=' ∉ name.toList) :
    (Item.option name (some value)).Known streamOptions := takes

theorem launchItems_known (s : StreamSettings) :
    ∀ item ∈ launchItems s, item.Known streamOptions := by
  rw [launchItems, List.forall_mem_append, List.forall_mem_append, List.forall_mem_append]
  refine ⟨⟨⟨?_, ?_⟩, ?_⟩, ?_⟩
  · simp only [List.forall_mem_cons]
    exact ⟨by decide, valued_known _ (by decide), valued_known _ (by decide),
      valued_known _ (by decide), valued_known _ (by decide), valued_known _ (by decide),
      valued_known _ (by decide), valued_known _ (by decide), by simp⟩
  · split
    · simp
    · exact List.forall_mem_singleton.mpr (valued_known _ (by decide))
  · split
    · exact List.forall_mem_singleton.mpr (by decide)
    · simp
  · split
    · exact List.forall_mem_singleton.mpr (by decide)
    · simp

/-- What is found of each option on the command line of a launched process. -/
theorem launchItems_values (s : StreamSettings) (missing : String) :
    value "monitor" missing (launchItems s) = missing ∧
    value "seconds" missing (launchItems s) = missing ∧
    value "output" missing (launchItems s) = s.output ∧
    value "bitrate" missing (launchItems s) = toString s.rate ∧
    value "listen" missing (launchItems s) = toString s.port ∧
    value "encoder" missing (launchItems s) = s.encoder.backend ∧
    value "capture-memory" missing (launchItems s) = s.memory ∧
    value "gop" missing (launchItems s) = toString s.encoder.gop ∧
    value "vbv-ms" missing (launchItems s) = toString s.encoder.vbvMs := by
  have flag (name other : String) (set : Bool) :
      values name (if set then [.option other none] else []) = [] := by cases set <;> rfl
  have node (name : String) (other : name ≠ "intel-render-node") :
      values name (if s.encoder.renderNode = "" then []
        else [.option "intel-render-node" (some s.encoder.renderNode)]) = [] := by
    split
    · rfl
    · rw [values_valued, if_neg other.symm, values_nil]
  simp [launchItems, value, flag, node]

theorem launchItems_flags (s : StreamSettings) :
    value "intel-render-node" "" (launchItems s) = s.encoder.renderNode ∧
    isSet "no-record" (launchItems s) = true ∧
    isSet "laptop-off-when-connected" (launchItems s) = s.laptopOff ∧
    isSet "allow-nvenc-fallback" (launchItems s) = s.encoder.allowNvencFallback := by
  by_cases empty : s.encoder.renderNode = "" <;> cases fallback : s.encoder.allowNvencFallback <;>
    cases off : s.laptopOff <;>
    simp [launchItems, value, values, isSet, empty, fallback, off]

/-- The stream process reads the settings that it was launched with. -/
theorem readSettings_launchItems {toInt : String → Option Int}
    (decimal : ∀ n : Int, -2147483648 ≤ n → n < 2147483648 → toInt (toString n) = some n)
    {s : StreamSettings} (admitted : Admitted s) {output : String} (fixed : Fixed output s) :
    readSettings toInt (launchItems s) = .ok s := by
  have read (n : Int) (low : 1 ≤ n) (high : n ≤ 65535) : toInt (toString n) = some n :=
    decimal n (by omega) (by omega)
  have rate := read s.rate admitted.rate.1 (by have := admitted.rate.2; omega)
  have port := read s.port admitted.port.1 admitted.port.2
  have gop := read s.encoder.gop admitted.gop.1 (by have := admitted.gop.2; omega)
  have vbvMs := read s.encoder.vbvMs (by have := admitted.vbvMs.1; omega)
    (by have := admitted.vbvMs.2; omega)
  have zero : toInt "0" = some 0 := decimal 0 (by omega) (by omega)
  have bounds : (0 : Int) ≤ 0 ∧ 1 ≤ s.rate ∧ s.rate ≤ 150 ∧ 0 ≤ s.port ∧ s.port ≤ 65535 ∧
      (True ∨ (toInt "all").any fun id : Int => 0 ≤ id ∧ id < MonitorCount) :=
    ⟨le_rfl, admitted.rate.1, admitted.rate.2, by have := admitted.port.1; omega,
      admitted.port.2, .inl trivial⟩
  have whole : (⟨s.encoder, s.memory, 0, s.rate, s.port, "all", s.output, !true, s.laptopOff⟩ :
      StreamSettings) = s := by
    rw [← fixed.seconds, ← fixed.selection, Bool.not_true, ← fixed.record]
  obtain ⟨node, record, off, fallback⟩ := launchItems_flags s
  have found := launchItems_values s
  simp only [readSettings, found, node, record, off, fallback, rate, port, gop, vbvMs, zero,
    if_neg (not_not.mpr admitted.memory), Option.getD_some]
  rw [if_pos bounds, whole]

/-- From the configuration to the encoders. The launcher starts the stream process for exactly
the configurations in its ranges, the process reads back exactly the configured values, every
stream's encoder admits them, and only the backend that is not implemented has no candidates. -/
theorem launched_as_configured {toInt : String → Option Int}
    (decimal : ∀ n : Int, -2147483648 ≤ n → n < 2147483648 → toInt (toString n) = some n)
    (config : Config) (output : String) :
    ((∃ arguments, launchArguments config output = .ok arguments) ↔
      ∃ s, Configured config s ∧ Admitted s) ∧
    ∀ arguments, launchArguments config output = .ok arguments → ∃ items s,
      parse streamOptions arguments = some items ∧ readSettings toInt items = .ok s ∧
      Configured config s ∧ Admitted s ∧ Fixed output s ∧
      (∀ i : Fin MonitorCount, s.encoder.Valid i) ∧
      ((∃ candidates, encoderCandidates s.encoder.backend s.encoder.allowNvencFallback =
        .ok candidates) ↔ s.encoder.backend ≠ "intel-qsv") := by
  refine ⟨⟨?_, ?_⟩, ?_⟩
  · rintro ⟨arguments, launched⟩
    obtain ⟨s, configured, admitted, _⟩ := launchArguments_ok_iff.mp launched
    exact ⟨s, configured, admitted⟩
  · rintro ⟨s, configured, admitted⟩
    refine ⟨_, launchArguments_ok_iff.mpr ⟨{ s with
      seconds := 0, selection := "all", output := output, record := false }, ?_, ?_,
      ⟨rfl, rfl, rfl, rfl⟩, rfl⟩⟩
    · exact ⟨configured.backend, configured.fallback, configured.memory, configured.render,
        configured.gop, configured.vbvMs, configured.rate, configured.port, configured.laptopOff⟩
    · exact ⟨admitted.backend, admitted.memory, admitted.gop, admitted.vbvMs, admitted.rate,
        admitted.port⟩
  · intro arguments launched
    obtain ⟨s, configured, admitted, fixed, rfl⟩ := launchArguments_ok_iff.mp launched
    refine ⟨launchItems s, s, parse_render streamOptions (launchItems_known s),
      readSettings_launchItems decimal admitted fixed, configured, admitted, fixed, fun i => ?_, ?_⟩
    · exact ⟨by omega, by have := i.isLt; omega, admitted.gop.1, admitted.gop.2, admitted.vbvMs⟩
    · have known := admitted.backend
      simp only [encoderBackends, List.mem_cons, List.not_mem_nil, or_false] at known
      rcases known with same | same | same | same <;> simp [encoderCandidates, same]

def decimalNat (digits : List Char) : Option Nat :=
  if digits ≠ [] ∧ digits.all Char.isDigit then some (Nat.ofDigitChars 10 digits 0) else none

def decimalInt (text : String) : Option Int :=
  let n : Option Int := match text.toList with
    | '-' :: digits => (decimalNat digits).map fun n => -n
    | digits => (decimalNat digits).map fun n => n
  n.filter fun n => -2147483648 ≤ n ∧ n < 2147483648

theorem toDigits_all_digit (n : Nat) : (Nat.toDigits 10 n).all Char.isDigit = true :=
  List.all_eq_true.mpr fun _ => Nat.isDigit_of_mem_toDigits (by decide) (by decide)

theorem decimalNat_toDigits (n : Nat) : decimalNat (Nat.toDigits 10 n) = some n := by
  rw [decimalNat, if_pos ⟨Nat.toDigits_ne_nil, toDigits_all_digit n⟩, Nat.ofDigitChars_ten_toDigits]

theorem decimalInt_toString (n : Int) (low : -2147483648 ≤ n) (high : n < 2147483648) :
    decimalInt (toString n) = some n := by
  rw [Int.toString_eq_repr, Int.repr_eq_if, decimalInt]
  by_cases positive : 0 ≤ n
  · have value : (n.toNat : Int) = n := Int.toNat_of_nonneg positive
    rw [if_pos positive, Nat.toList_repr]
    split
    next rest same =>
      have digits := toDigits_all_digit n.toNat
      simp [same] at digits
    next => simp [decimalNat_toDigits, value, low, high]
  · have text : ("-" ++ (-n).toNat.repr).toList = '-' :: Nat.toDigits 10 (-n).toNat := by simp
    have value : max (-n) 0 = -n := max_eq_left (by omega)
    simp [if_neg positive, text, decimalNat_toDigits, value, low, high]

def defaultConfig : Config
  | "encoder" => some (.str "auto")
  | "allow_nvenc_fallback" => some (.bool true)
  | "capture_memory" => some (.str "auto")
  | "intel_render_node" => some (.str "")
  | "gop_frames" => some (.int 60)
  | "vbv_ms" => some (.int 50)
  | "bitrate_mbps" => some (.int 60)
  | "port" => some (.int 27183)
  | "laptop_off_when_connected" => some (.bool true)
  | _ => none

theorem launched_as_configured_default :
    ∃ arguments items s, launchArguments defaultConfig "/run/user/1000/quest-displays/streams" =
        .ok arguments ∧ parse streamOptions arguments = some items ∧
      readSettings decimalInt items = .ok s ∧ Configured defaultConfig s ∧ s.laptopOff = true ∧
      ∀ i : Fin MonitorCount, s.encoder.Valid i := by
  have launched := launched_as_configured decimalInt_toString defaultConfig
    "/run/user/1000/quest-displays/streams"
  obtain ⟨arguments, given⟩ : ∃ arguments, launchArguments defaultConfig
      "/run/user/1000/quest-displays/streams" = .ok arguments :=
    launched.1.mpr ⟨⟨⟨"auto", "", true, 60, 50⟩, "auto", 0, 60, 27183, "all", "", false, true⟩,
      by constructor <;> simp [defaultConfig],
      ⟨by decide, by decide, by decide, by decide, by decide, by decide⟩⟩
  obtain ⟨items, s, parsed, read, configured, _, _, valid, _⟩ := launched.2 arguments given
  exact ⟨arguments, items, s, given, parsed, read, configured, configured.laptopOff, valid⟩

end Quest.Launcher
