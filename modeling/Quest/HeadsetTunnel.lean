import Quest.HeadsetWatchSafety

/-! The reverse tunnel of the attached headset. It is lost when the headset leaves the
listing and when the tracker ends; the watcher sets it up again when it sees the headset
return, but not when a new tracker's first listing already has it. -/
namespace Quest.HeadsetWatch

variable {config : Config} {serial : Text} {s next : State} {trace : List Event}

/-- The reverse mapping of a device does not survive this. -/
def Loses (serial : Text) : Event → Prop
  | .ended => True
  | .processed listing _ => serial ∉ questSerials listing
  | _ => False

/-- `adb reverse` has been issued for a device after the last loss of its mapping. -/
def Tunnelled (serial : Text) (trace : List Event) : Prop :=
  ∃ before port after, trace = before ++ .reverse serial port :: after ∧
    ∀ e ∈ after, ¬Loses serial e

theorem tunnelled_snoc {e : Event} : Tunnelled serial (trace ++ [e]) ↔
    (∃ port, e = .reverse serial port) ∨ ¬Loses serial e ∧ Tunnelled serial trace := by
  constructor
  · rintro ⟨before, port, after, split, kept⟩
    rcases Machine.snoc_split split with ⟨rfl, rfl, _⟩ | ⟨earlier, rfl, rfl⟩
    · exact .inl ⟨port, rfl⟩
    · exact .inr ⟨kept e (by simp), before, port, earlier, rfl,
        fun other member => kept other (List.mem_append_left _ member)⟩
  · rintro (⟨port, rfl⟩ | ⟨keeps, before, port, after, rfl, kept⟩)
    · exact ⟨trace, port, [], rfl, by simp⟩
    · refine ⟨before, port, after ++ [e], by simp, fun other member => ?_⟩
      rcases List.mem_append.mp member with earlier | last
      · exact kept other earlier
      · rw [List.mem_singleton.mp last]
        exact keeps

theorem not_tunnelled_nil : ¬Tunnelled serial [] := by
  rintro ⟨before, port, after, split, _⟩
  simp at split

/-- A tracker's first listing does not have a headset that was there when the last tracker
ended. -/
def Returns (s : State) : Action → Prop
  | .parse _ => s.handled = [] → s.missingSince = none → ∀ listing serial,
      s.front = some listing → s.attached = some serial → serial ∉ questSerials listing
  | _ => True

theorem returns_iff (s : State) (now : Nat) :
    (s.handled = [] → s.missingSince = none → s.front.all (fun listing =>
      s.attached.all fun serial => (questSerials listing).all (serial ≠ ·)) = true) ↔
      Returns s (.parse now) := by
  simp only [Returns]
  cases s.front <;> cases s.attached <;> simp [List.forall_mem_ne]

instance (s : State) : DecidablePred (Returns s)
  | .parse now => decidable_of_iff _ (returns_iff s now)
  | .send _ | .read _ | .quiet | .test _ | .exit | .restart => isTrue trivial

/-- Until a tracker's first listing is processed no device has a tunnel. -/
def Untunnelled (s : State) (trace : List Event) : Prop :=
  s.handled = [] ∨ s.phase = .restarting → ∀ serial, ¬Tunnelled serial trace

/-- The headset that is attached and not missing has its tunnel once the tracker has been
heard. -/
def Connected (s : State) (trace : List Event) : Prop :=
  s.missingSince = none → s.handled ≠ [] → s.phase ≠ .restarting →
    ∀ serial, s.attached = some serial → Tunnelled serial trace

theorem Untunnelled.silent {e : Event} (lost : Untunnelled s trace)
    (before : s.handled = [] ∨ s.phase = .restarting)
    (other : ∀ serial port, e ≠ .reverse serial port) (serial : Text) :
    ¬Tunnelled serial (trace ++ [e]) := by
  intro tunnelled
  rcases tunnelled_snoc.mp tunnelled with ⟨port, same⟩ | ⟨_, earlier⟩
  · exact other serial port same
  · exact lost before serial earlier

theorem moved_untunnelled {a : Action} {events : List Event} (lost : Untunnelled s trace)
    (moved : Moved config s a next events) : Untunnelled next (trace ++ events) := by
  have same {t : State} (handled : t.handled = s.handled) (phase : t.phase ≠ .restarting) :
      Untunnelled t (trace ++ []) := by
    rintro (fresh | ends) serial
    · rw [List.append_nil]
      exact lost (.inl (handled ▸ fresh)) serial
    · exact absurd ends phase
  cases moved with
  | sent =>
    intro fresh serial
    rw [List.append_nil]
    exact lost fresh serial
  | read => exact same rfl (by simp)
  | quiet => exact same rfl (by simp)
  | parsed => exact same rfl (by simp)
  | crashed => exact same rfl (by simp)
  | processed phase later front processed =>
    have heard : next.handled ≠ [] ∧ next.phase = s.phase := by
      cases processed <;> exact ⟨by simp [State.hear], rfl⟩
    rintro (fresh | ends)
    · exact absurd fresh heard.1
    · rw [heard.2, phase] at ends
      contradiction
  | tested => exact same rfl (by simp)
  | detached =>
    rintro (fresh | ends) serial
    · exact lost.silent (.inl fresh) (by simp) serial
    · contradiction
  | exited =>
    intro _ serial tunnelled
    rcases tunnelled_snoc.mp tunnelled with ⟨port, same⟩ | ⟨keeps, _⟩
    · contradiction
    · exact keeps trivial
  | restarted phase => exact fun _ => lost.silent (.inr phase) (by simp)

/-- A headset that is attached after a listing, and not missing, has its tunnel then. -/
theorem processed_connected {listing : List UInt8} {now : Nat} {events : List Event}
    (connected : Connected s trace) (phase : s.phase ≠ .restarting)
    (returns : s.handled = [] → s.missingSince = none → ∀ serial, s.attached = some serial →
      serial ∉ questSerials listing)
    (processed : Processed config s listing now next events) (serial : Text)
    (attached : next.attached = some serial) (missing : next.missingSince = none) :
    Tunnelled serial (trace ++ events) := by
  cases processed with
  | @stayed owner owned listed there =>
    obtain rfl : owner = serial := Option.some.inj (owned.symm.trans attached)
    have heard : s.handled ≠ [] := fun fresh => returns fresh there owner owned listed
    exact tunnelled_snoc.mpr (.inr ⟨fun lost => lost listed, connected there heard phase owner owned⟩)
  | @returned owner owned listed gone =>
    obtain rfl : owner = serial := Option.some.inj (owned.symm.trans attached)
    exact ⟨trace ++ [.processed listing now], config.port, [], by simp, by simp⟩
  | @attached owner absent least =>
    obtain rfl : owner = serial := Option.some.inj attached
    refine ⟨trace ++ [.processed listing now, .attached owner], config.port,
      .started :: (if config.launchAppOnConnect then [.launched owner] else []), by simp [attach], ?_⟩
    intro e member
    rcases List.mem_cons.mp member with rfl | launched
    · exact id
    · split at launched
      · rw [List.mem_singleton.mp launched]
        exact id
      · contradiction
  | missed none_ => contradiction

/-- A listing that has the attached headset leaves it not missing. -/
theorem processed_present {listing other : List UInt8} {now at_ : Nat} {events : List Event}
    (processed : Processed config s listing now next events) (serial : Text)
    (member : .processed other at_ ∈ events) (listed : serial ∈ questSerials other) :
    next.missingSince = none := by
  cases processed with
  | stayed owned present there => exact there
  | returned => rfl
  | attached => rfl
  | missed none_ =>
    cases List.mem_singleton.mp member
    rw [none_] at listed
    contradiction

theorem moved_connected {a : Action} {events : List Event} (connected : Connected s trace)
    (returns : Returns s a) (moved : Moved config s a next events) :
    Connected next (trace ++ events) ∧
      ∀ listing now serial, .processed listing now ∈ events → next.attached = some serial →
        serial ∈ questSerials listing → Tunnelled serial (trace ++ events) := by
  have same {t : State} (missing : t.missingSince = s.missingSince) (handled : t.handled = s.handled)
      (attached : t.attached = s.attached) (phase : s.phase ≠ .restarting) :
      Connected t (trace ++ []) := by
    intro there heard _ serial owned
    rw [List.append_nil]
    exact connected (missing ▸ there) (handled ▸ heard) phase serial (attached ▸ owned)
  cases moved with
  | sent =>
    refine ⟨fun there heard phase serial owned => ?_, by simp⟩
    rw [List.append_nil]
    exact connected there heard phase serial owned
  | read phase => exact ⟨same rfl rfl rfl (by simp [phase]), by simp⟩
  | quiet phase => exact ⟨same rfl rfl rfl (by simp [phase]), by simp⟩
  | parsed phase => exact ⟨same rfl rfl rfl (by simp [phase]), by simp⟩
  | crashed phase => exact ⟨same rfl rfl rfl (by simp [phase]), by simp⟩
  | @processed now listing rest _ _ phase later front processed =>
    have tunnelled := processed_connected (s := { s with buffer := rest }) connected (by simp [phase])
      (fun fresh there => (returns fresh there listing · front)) processed
    refine ⟨fun there _ _ serial owned => tunnelled serial owned there, ?_⟩
    intro l t serial member owned listed
    exact tunnelled serial owned (processed_present processed serial member listed)
  | tested phase => exact ⟨same rfl rfl rfl (by simp [phase]), by simp⟩
  | detached => exact ⟨fun _ _ _ serial owned => by contradiction, by simp⟩
  | exited => exact ⟨fun _ _ phase => absurd rfl phase, by simp⟩
  | restarted => exact ⟨fun _ heard => absurd rfl heard, by simp⟩

/-- A first listing with a headset that has not been missing sets up nothing. -/
theorem unreturned {now : Nat} {events : List Event} {listing : List UInt8} {serial : Text}
    (lost : Untunnelled s trace) (fresh : s.handled = []) (there : s.missingSince = none)
    (front : s.front = some listing) (owned : s.attached = some serial)
    (listed : serial ∈ questSerials listing) (moved : Moved config s (.parse now) next events) :
    .processed listing now ∈ events ∧ next.attached = some serial ∧
      ¬Tunnelled serial (trace ++ events) := by
  cases moved with
  | parsed phase none_ => simp [front] at none_
  | crashed phase none_ => simp [front] at none_
  | processed phase later ready processed =>
    obtain rfl := Option.some.inj (front.symm.trans ready)
    cases processed with
    | stayed =>
      exact ⟨List.mem_cons_self, owned, lost.silent (.inl fresh) (by simp) serial⟩
    | returned _ _ gone => exact absurd there gone
    | attached absent => exact absurd listed (absent serial owned)
    | missed none_ =>
      rw [none_] at listed
      contradiction

/-- After every listing that has the attached headset its tunnel has been set up since it was
last lost, exactly when no tracker's first listing has a headset that was there when the last
tracker ended. -/
theorem tunnel_reestablished {config : Config} {start : Nat} {running : Bool}
    {actions : List Action} {s : State} {trace : List Event}
    (run : Machine.exec (step config) actions (.initial start running) = some (s, trace)) :
    Machine.Along (step config) Returns actions (.initial start running) ↔
      ∀ first a rest t past next events, actions = first ++ a :: rest →
        Machine.exec (step config) first (.initial start running) = some (t, past) →
        step config t a = some (next, events) →
          ∀ listing now serial, .processed listing now ∈ events → next.attached = some serial →
            serial ∈ questSerials listing → Tunnelled serial (past ++ events) := by
  constructor
  · intro along first a rest t past next events split reached taken
    have returns := Machine.along_iff_prefixes.mp along first a rest t past split reached
    subst split
    have connected := Machine.guarded_history Connected
      (fun _ _ _ _ _ connected met taken => (moved_connected connected met (step_moved taken)).1) []
      (by intro missing; contradiction) along.of_append reached
    exact (moved_connected connected returns (step_moved taken)).2
  · intro law
    refine Machine.along_iff_prefixes.mpr fun first a rest t past split reached => ?_
    have lost := Machine.history Untunnelled (fun _ _ => not_tunnelled_nil)
      (fun _ _ _ _ _ lost taken => moved_untunnelled lost (step_moved taken)) reached
    subst split
    obtain ⟨middle, before, after, left, right, _⟩ := Machine.exec_append_iff.mp run
    obtain ⟨rfl, rfl⟩ := Prod.mk.inj (Option.some.inj (reached.symm.trans left))
    obtain ⟨next, events, _, taken, _, _⟩ := Machine.exec_cons_iff.mp right
    cases a with
    | parse now =>
      intro fresh there listing serial front owned listed
      obtain ⟨processed, attached, untunnelled⟩ :=
        unreturned lost fresh there front owned listed (step_moved taken)
      exact untunnelled (law first _ rest t past next events rfl reached taken listing now serial
        processed attached listed)
    | _ => trivial

def restarted : List Action := [
  .send headset, .read 65536, .parse 0, .parse 0, .test 0, .exit, .restart, .send headset,
  .read 65536]

theorem tunnel_not_reestablished :
    ∃ t past next events, Machine.exec (step ⟨27183, false⟩) restarted (.initial 0 false) =
        some (t, past) ∧
      step ⟨27183, false⟩ t (.parse 2000000000) = some (next, events) ∧
      .processed headset.text 2000000000 ∈ events ∧ next.attached = some ['1'] ∧
      ['1'] ∈ questSerials headset.text ∧ ¬Tunnelled ['1'] (past ++ events) := by
  have reached : ((Machine.exec (step ⟨27183, false⟩) restarted (.initial 0 false)).bind fun r =>
      (step ⟨27183, false⟩ r.1 (.parse 2000000000)).map fun n => (r.2, n.1.attached, n.2)) =
        some ([.processed headset.text 0, .attached ['1'], .reverse ['1'] 27183, .started] ++
          [.ended] ++ [.tracking], some ['1'], [.processed headset.text 2000000000]) := by
    decide +kernel
  obtain ⟨⟨t, past⟩, run, rest⟩ := Option.bind_eq_some_iff.mp reached
  obtain ⟨⟨next, events⟩, taken, result⟩ := Option.map_eq_some_iff.mp rest
  obtain ⟨rfl, emitted⟩ := Prod.mk.inj result
  obtain ⟨attached, rfl⟩ := Prod.mk.inj emitted
  have listed : ['1'] ∈ questSerials headset.text := by decide +kernel
  refine ⟨t, _, next, _, run, taken, List.mem_cons_self, attached, listed, ?_⟩
  rw [tunnelled_snoc, tunnelled_snoc, tunnelled_snoc]
  simp [Loses]

/-- The headset goes missing, the tracker is restarted, and its first listing has the headset. -/
def reconnected : List Action := [
  .send headset, .send nothing, .read 65536, .parse 0, .parse 0, .parse 0, .test 1000000000, .exit,
  .restart, .send headset, .read 65536]

theorem tunnel_reestablished_sample :
    ∃ t past next events,
      Machine.exec (step ⟨27183, false⟩) reconnected (.initial 0 false) = some (t, past) ∧
      step ⟨27183, false⟩ t (.parse 2000000000) = some (next, events) ∧ .ended ∈ past ∧
      Tunnelled ['1'] (past ++ events) := by
  have along : Machine.Along (step ⟨27183, false⟩) Returns
      (reconnected ++ [.parse 2000000000]) (.initial 0 false) := by
    decide +kernel
  have reached : ((Machine.exec (step ⟨27183, false⟩) reconnected (.initial 0 false)).bind fun r =>
      (step ⟨27183, false⟩ r.1 (.parse 2000000000)).map fun n =>
        (decide (.ended ∈ r.2), n.1.attached, n.2)) =
      some (true, some ['1'], [.processed headset.text 2000000000, .reverse ['1'] 27183]) := by
    decide +kernel
  obtain ⟨⟨t, past⟩, run, rest⟩ := Option.bind_eq_some_iff.mp reached
  obtain ⟨⟨next, events⟩, taken, result⟩ := Option.map_eq_some_iff.mp rest
  obtain ⟨ended, result⟩ := Prod.mk.inj result
  obtain ⟨attached, rfl⟩ := Prod.mk.inj result
  have listed : ['1'] ∈ questSerials headset.text := by decide +kernel
  have law := (tunnel_reestablished (Machine.exec_append run (Machine.exec_single taken))).mp along
  exact ⟨t, past, next, _, run, taken, of_decide_eq_true ended,
    law _ _ [] t past next _ rfl run taken headset.text 2000000000 ['1'] List.mem_cons_self attached
      listed⟩

end Quest.HeadsetWatch
