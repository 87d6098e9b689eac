import Quest.DisplayHostLock

/-! The state file of the display hosts. Only the owner of the lock touches it, and whatever stands
in it is the whole state of a complete manager, which its reader accepts. -/
namespace Quest.Displays

/-- What the main loop has put into the state file last. -/
def Phase.last : Phase → Option Json
  | .running last => last
  | .pumping last => last
  | _ => none

variable {ι : Type*}

theorem Follows.last {p : Process} {phase : Phase} (follows : Follows p phase) {state : Json}
    (last : phase.last = some state) : p.phase.last = some state := by
  cases follows with
  | same => exact last
  | pumping at_ => rw [at_]; exact last
  | pumped at_ => rw [at_]; exact last
  | _ => contradiction

theorem owning_of_last {phase : Phase} {state : Json} (last : phase.last = some state) :
    phase.owning = true := by
  cases phase <;> first | rfl | contradiction

theorem Follows.returned {p : Process} {phase : Phase} (follows : Follows p phase) {code : Nat}
    (at_ : phase = .returning code) (known : p.statePath = true) : p.phase = .returning code := by
  cases follows with
  | same => exact at_
  | returning _ _ unknown => simp [unknown] at known
  | _ => contradiction

/-- Only the owner of the lock can have a state in the file. -/
theorem Exclusive.others {s : System ι} (exclusive : Exclusive s) {t u : ι}
    (held : s.lock = some t) (other : u ≠ t) :
    (s.processes u).phase.last = .none ∧ ∀ code, (s.processes u).phase = .returning code →
      (s.processes u).statePath = false := by
  have stranger (known : (s.processes u).statePath = true)
      (alive : (s.processes u).phase.alive = true) : False := by
    have mine := (exclusive u).owner known alive
    rw [held] at mine
    exact other (Option.some.inj mine).symm
  constructor
  · cases last : (s.processes u).phase.last with
    | none => rfl
    | some state =>
      have owning := owning_of_last last
      exact (stranger ((exclusive u).fits.known owning) (alive_of_owning owning)).elim
  · intro code at_
    cases known : (s.processes u).statePath with
    | false => rfl
    | true => exact (stranger known (by rw [at_]; rfl)).elim

/-- Whatever process `t` has written, it has failed to remove since. -/
def Abandoned (t : ι) (trace : List (Observation ι)) : Prop :=
  ∀ before state after, trace = before ++ .wrote t state :: after → .removed t false ∈ after

theorem Abandoned.append {t : ι} {trace seen : List (Observation ι)} (abandoned : Abandoned t trace)
    (silent : ∀ state, .wrote t state ∉ seen) : Abandoned t (trace ++ seen) := by
  intro before state after split
  rcases List.append_eq_append_iff.mp split with ⟨further, rfl, tail⟩ | ⟨further, rfl, tail⟩
  · exact absurd (by simp [tail]) (silent state)
  · cases further with
    | nil =>
      rw [List.nil_append] at tail
      exact absurd (by simp [← tail]) (silent state)
    | cons e further =>
      obtain ⟨rfl, rfl⟩ := List.cons_eq_cons.mp tail
      exact List.mem_append_left _ (abandoned before state further rfl)

theorem abandoned_removed (t : ι) (trace : List (Observation ι)) :
    Abandoned t (trace ++ [.removed t false]) := by
  intro before state after split
  rcases Machine.snoc_split split with ⟨_, different, _⟩ | ⟨rest, rfl, _⟩
  · contradiction
  · simp

/-- The state file against the processes. A file whose writer is gone was left by a process
that has since been killed, or has failed to remove it. -/
structure Filed (s : System ι) (trace : List (Observation ι)) : Prop where
  last : ∀ t state, (s.processes t).phase.last = some state → s.file = some state
  finished : ∀ t code, (s.processes t).phase = .returning code → (s.processes t).statePath = true →
    s.file = none ∨ Abandoned t trace
  origin : ∀ state, s.file = some state → ∃ t before after, trace = before ++ .wrote t state :: after ∧
    (s.lock = some t ∨ .killed t ∈ after ∨ .removed t false ∈ after)

/-- What left the file there still does after more steps, unless its writer gives the lock up. -/
theorem origin_append {lock lock' : Option ι} {state : Json} {trace : List (Observation ι)}
    (origin : ∃ t before after, trace = before ++ .wrote t state :: after ∧
      (lock = some t ∨ .killed t ∈ after ∨ .removed t false ∈ after))
    (seen : List (Observation ι)) (kept : ∀ t, lock = some t →
      ∀ before after, trace = before ++ .wrote t state :: after →
        lock' = some t ∨ .killed t ∈ after ++ seen ∨ .removed t false ∈ after ++ seen) :
    ∃ t before after, trace ++ seen = before ++ .wrote t state :: after ∧
      (lock' = some t ∨ .killed t ∈ after ∨ .removed t false ∈ after) := by
  obtain ⟨t, before, after, split, held | killed | failed⟩ := origin
  · exact ⟨t, before, after ++ seen, by simp [split], kept t held before after split⟩
  · exact ⟨t, before, after ++ seen, by simp [split], .inr (.inl (List.mem_append_left _ killed))⟩
  · exact ⟨t, before, after ++ seen, by simp [split], .inr (.inr (List.mem_append_left _ failed))⟩

theorem filed_empty {s : System ι} {trace : List (Observation ι)} (empty : s.file = none)
    (last : ∀ t, (s.processes t).phase.last = none) : Filed s trace := by
  refine ⟨fun t state found => ?_, fun _ _ _ _ => .inl empty, fun state stands => ?_⟩
  · rw [last] at found
    contradiction
  · rw [empty] at stands
    contradiction

/-- A state that process `t` has written, with the manager that it describes. -/
def Described (p : Process) (state : Json) : Prop :=
  ∃ (events : List Event) (kwinRunning : Bool),
    (VirtualDisplayManager.after events).checkStreamErrors = none ∧
    (VirtualDisplayManager.after events).complete = .ok true ∧
    (VirtualDisplayManager.after events).snapshot (p.host kwinRunning) true = .ok state

structure Stated (s : System ι) (trace : List (Observation ι)) : Prop where
  heard : ∀ t, ∃ events, (s.processes t).manager = VirtualDisplayManager.after events
  described : ∀ t state, .wrote t state ∈ trace → Described (s.processes t) state

theorem Stated.statement {s : System ι} {trace : List (Observation ι)} (stated : Stated s trace)
    {t : ι} {state : Json} (statement : Statement (s.processes t) state) :
    Described (s.processes t) state := by
  obtain ⟨events, manager⟩ := stated.heard t
  obtain ⟨healthy, complete, kwinRunning, snapshot⟩ := statement
  rw [manager] at healthy complete snapshot
  exact ⟨events, kwinRunning, healthy, complete, snapshot⟩

structure Hosting (s : System ι) (trace : List (Observation ι)) : Prop where
  exclusive : Exclusive s
  filed : Filed s trace
  stated : Stated s trace

theorem fresh_hosting {s : System ι} (fresh : s.Fresh) : Hosting s [] := by
  obtain ⟨free, empty, started⟩ := fresh
  refine ⟨fun t => ?_, filed_empty empty fun t => ?_, fun t => ?_, by simp⟩
  all_goals obtain ⟨run, pid, waylandDisplay, sessionType, runtimeDir, initial⟩ := started t
  · rw [free, initial]
    exact ⟨by simp [Process.initial], by simp, rfl⟩
  · rw [initial]
    rfl
  · rw [initial]
    exact ⟨[], rfl⟩

variable [DecidableEq ι]

/-- A step of `t` that touches neither the file nor the lock. -/
theorem Filed.put {s : System ι} {trace : List (Observation ι)} (filed : Filed s trace) {t : ι}
    {q : Process} {seen : List (Observation ι)} (silent : ∀ u state, .wrote u state ∉ seen)
    (last : ∀ state, q.phase.last = some state → (s.processes t).phase.last = some state)
    (finished : ∀ code, q.phase = .returning code → q.statePath = true →
      (s.processes t).phase = .returning code ∧ (s.processes t).statePath = true) :
    Filed (s.put t q) (trace ++ seen) where
  last := by
    intro u state found
    by_cases same : u = t
    · subst u
      rw [put_same] at found
      exact filed.last t state (last state found)
    · rw [put_other _ same] at found
      exact filed.last u state found
  finished := by
    intro u code at_ known
    by_cases same : u = t
    · subst u
      rw [put_same] at at_ known
      obtain ⟨before, known⟩ := finished code at_ known
      exact (filed.finished t code before known).imp_right (·.append (silent t))
    · rw [put_other _ same] at at_ known
      exact (filed.finished u code at_ known).imp_right (·.append (silent u))
  origin state stands :=
    origin_append (filed.origin state stands) seen fun _ held _ _ _ => .inl held

/-- The owner of the lock removes the file, or fails to. -/
theorem Filed.removed {s : System ι} {trace : List (Observation ι)} (filed : Filed s trace)
    (exclusive : Exclusive s) {t : ι} (held : s.lock = some t) (removed : Bool) {q : Process}
    (last : q.phase.last = none) :
    Filed ({ s with file := if removed then none else s.file }.put t q)
      (trace ++ [.removed t removed]) := by
  have nothing (u : ι) : ((({ s with file := if removed then none else s.file } : System ι).put t
      q).processes u).phase.last = none := by
    by_cases same : u = t
    · rw [same, put_same]
      exact last
    · rw [put_other _ same]
      exact (exclusive.others held same).1
  cases removed with
  | true => exact filed_empty rfl nothing
  | false =>
    refine ⟨fun u state found => ?_, fun u code at_ known => ?_, fun state stands => ?_⟩
    · rw [nothing] at found
      contradiction
    · by_cases same : u = t
      · rw [same]
        exact .inr (abandoned_removed t trace)
      · rw [put_other _ same] at at_ known
        rw [(exclusive.others held same).2 code at_] at known
        contradiction
    · exact origin_append (filed.origin state stands) _ fun _ held _ _ _ => .inl held

theorem Filed.wrote {s : System ι} {trace : List (Observation ι)} (exclusive : Exclusive s)
    {t : ι} (held : s.lock = some t) (state : Json) {q : Process}
    (phase : q.phase = .pumping (some state)) :
    Filed ({ s with file := some state }.put t q) (trace ++ [.wrote t state]) where
  last := by
    intro u found last
    by_cases same : u = t
    · subst u
      rw [put_same, phase] at last
      exact last
    · rw [put_other _ same, (exclusive.others held same).1] at last
      contradiction
  finished := by
    intro u code at_ known
    by_cases same : u = t
    · subst u
      rw [put_same, phase] at at_
      contradiction
    · rw [put_other _ same] at at_ known
      rw [(exclusive.others held same).2 code at_] at known
      contradiction
  origin := by
    rintro _ ⟨⟩
    exact ⟨t, trace, [], rfl, .inl held⟩

/-- A process that goes leaves the file to nobody, unless it was killed or could not remove it. -/
theorem Filed.gone {s : System ι} {trace : List (Observation ι)} (filed : Filed s trace) {t : ι}
    {phase : Phase} (alive : phase.alive = false) {seen : List (Observation ι)}
    (silent : ∀ u state, .wrote u state ∉ seen)
    (excused : s.lock = some t → s.file = none ∨ .killed t ∈ seen ∨ Abandoned t trace) :
    Filed ((s.unlock t).put t { s.processes t with phase := phase }) (trace ++ seen) where
  last := by
    intro u state last
    by_cases same : u = t
    · subst u
      rw [put_same] at last
      exact absurd (alive.symm.trans (alive_of_owning (owning_of_last last))) (by simp)
    · rw [put_other _ same, unlock_processes] at last
      rw [put_file, unlock_file]
      exact filed.last u state last
  finished := by
    intro u code at_ known
    by_cases same : u = t
    · subst u
      rw [put_same] at at_
      simp only at at_
      rw [at_] at alive
      contradiction
    · rw [put_other _ same, unlock_processes] at at_ known
      rw [put_file, unlock_file]
      exact (filed.finished u code at_ known).imp_right (·.append (silent u))
  origin := by
    intro state stands
    rw [put_file, unlock_file] at stands
    refine origin_append (filed.origin state stands) seen fun u held before after split => ?_
    by_cases same : u = t
    · subst u
      rcases excused held with empty | killed | abandoned
      · rw [empty] at stands
        contradiction
      · exact .inr (.inl (List.mem_append_right _ killed))
      · exact .inr (.inr (List.mem_append_left _ (abandoned before state after split)))
    · exact .inl ((unlock_eq_some_iff s same).mpr held)

theorem Filed.locked {s : System ι} {trace : List (Observation ι)} (filed : Filed s trace) {t : ι}
    (free : s.lock = none) :
    Filed ({ s with lock := some t }.put t
      { s.processes t with statePath := true, phase := .clearing }) (trace ++ [.locked t]) := by
  have relocked : Filed { s with lock := some t } trace := by
    refine ⟨filed.last, filed.finished, fun state stands => ?_⟩
    obtain ⟨u, before, after, split, left⟩ := filed.origin state stands
    refine ⟨u, before, after, split, .inr (left.resolve_left ?_)⟩
    rw [free]
    simp
  exact relocked.put (by simp) (fun _ found => by contradiction) fun _ at_ => by contradiction

theorem Moved.filed {s next : System ι} {trace seen : List (Observation ι)} {t : ι}
    (moved : Moved s t next seen) (exclusive : Exclusive s) (filed : Filed s trace) :
    Filed next (trace ++ seen) := by
  have own := exclusive t
  have onward {q : Process} (continues : Continues (s.processes t) q)
      {seen : List (Observation ι)} (silent : ∀ u state, .wrote u state ∉ seen) :
      Filed (s.put t q) (trace ++ seen) := by
    refine filed.put silent (fun state => continues.phase.last) fun code at_ known => ?_
    rw [continues.statePath] at known
    exact ⟨continues.phase.returned at_ known, known⟩
  cases moved with
  | continued continues => exact onward continues (by simp)
  | requested streams creating checked continues => exact onward continues (by simp)
  | locked free => exact filed.locked free
  | cleared removed clearing =>
    exact filed.removed exclusive (own.holds (by rw [clearing]; rfl)) removed rfl
  | printed probing =>
    have fits := own.fits
    rw [probing] at fits
    refine filed.put (by simp) (fun _ found => by contradiction) fun code _ known => ?_
    exact absurd (fits.symm.trans known) (by simp)
  | inspected =>
    exact filed.put (by simp) (fun _ found => by contradiction) fun _ at_ => by contradiction
  | wrote running => exact .wrote exclusive (own.holds (by rw [running]; rfl)) _ rfl
  | left removed failed code leaving known =>
    exact filed.removed exclusive (own.owner known (by rw [leaving]; rfl)) removed rfl
  | exited returning =>
    refine filed.gone rfl (by simp) fun held => ?_
    exact (filed.finished t _ returning (own.owned held).1).imp_right .inr
  | killed => exact filed.gone rfl (by simp) fun _ => .inr (.inl (by simp))

/-- The processes keep their identity, and the manager of `t` hears more. -/
theorem Stated.put {s next : System ι} {trace seen : List (Observation ι)}
    (stated : Stated s trace) {t : ι} {q : Process} (processes : next.processes =
      Function.update s.processes t q) (identity : q.host = (s.processes t).host)
    (heard : ∃ events : List Event,
      q.manager = events.foldl VirtualDisplayManager.receive (s.processes t).manager)
    (fresh : ∀ u state, .wrote u state ∈ seen → u = t ∧ Described (s.processes t) state) :
    Stated next (trace ++ seen) where
  heard := by
    intro u
    rw [processes]
    by_cases same : u = t
    · subst u
      obtain ⟨before, earlier⟩ := stated.heard t
      obtain ⟨events, later⟩ := heard
      rw [Function.update_self, later, earlier]
      exact ⟨before ++ events, by simp [VirtualDisplayManager.after, List.foldl_append]⟩
    · rw [Function.update_of_ne same]
      exact stated.heard u
  described := by
    intro u state wrote
    have known : Described (s.processes u) state := by
      rcases List.mem_append.mp wrote with before | now
      · exact stated.described u state before
      · obtain ⟨rfl, described⟩ := fresh u state now
        exact described
    rw [processes]
    by_cases same : u = t
    · subst u
      rw [Function.update_self]
      simpa [Described, identity] using known
    · rw [Function.update_of_ne same]
      exact known

theorem Moved.stated {s next : System ι} {trace seen : List (Observation ι)} {t : ι}
    (moved : Moved s t next seen) (stated : Stated s trace) : Stated next (trace ++ seen) := by
  cases moved with
  | continued continues => exact stated.put rfl continues.identity continues.heard (by simp)
  | requested streams creating checked continues =>
    exact stated.put rfl continues.identity continues.heard (by simp)
  | wrote running statement =>
    refine stated.put rfl rfl ⟨[], rfl⟩ fun u state member => ?_
    obtain ⟨rfl, rfl⟩ := Observation.wrote.inj (List.mem_singleton.mp member)
    exact ⟨rfl, stated.statement statement⟩
  | exited => exact stated.put (gone_processes ..) rfl ⟨[], rfl⟩ (by simp)
  | killed => exact stated.put (gone_processes ..) rfl ⟨[], rfl⟩ (by simp)
  | _ => exact stated.put rfl rfl ⟨[], rfl⟩ (by simp)

theorem Moved.hosting {s next : System ι} {trace seen : List (Observation ι)} {t : ι}
    (moved : Moved s t next seen) (hosting : Hosting s trace) : Hosting next (trace ++ seen) :=
  ⟨moved.exclusive hosting.exclusive, moved.filed hosting.exclusive hosting.filed,
    moved.stated hosting.stated⟩

theorem run_hosting {start s : System ι} {actions : List (ι × ProcessAction)}
    {trace : List (Observation ι)} (fresh : start.Fresh)
    (run : Machine.exec System.step actions start = some (s, trace)) : Hosting s trace := by
  exact Machine.history Hosting (fresh_hosting fresh)
    (fun _ _ _ _ _ hosting taken => (act_moved taken).hosting hosting) run

/-- One host at a time: no two processes are past `tryLock` together, what a running host has
written last is what the state file holds, and where its writer no longer has the lock, it was
killed after that write, or failed after it to remove the file. -/
theorem state_file_has_one_writer {start s : System ι} {actions : List (ι × ProcessAction)}
    {trace : List (Observation ι)} (fresh : start.Fresh)
    (run : Machine.exec System.step actions start = some (s, trace)) :
    (∀ t u, (s.processes t).Locked → (s.processes u).Locked → t = u) ∧
    (∀ t state, (s.processes t).phase.last = some state → s.file = some state) ∧
    ∀ state, s.file = some state → ∃ t before after, trace = before ++ .wrote t state :: after ∧
      (s.lock = some t ∨ .killed t ∈ after ∨ .removed t false ∈ after) := by
  obtain ⟨exclusive, filed, _⟩ := run_hosting fresh run
  refine ⟨fun t u first second => ?_, filed.last, filed.origin⟩
  have mine := (exclusive t).owner first.1 first.2
  have other := (exclusive u).owner second.1 second.2
  exact Option.some.inj (mine.symm.trans other)

def sampleStart : System Nat :=
  ⟨none, none, fun _ => .initial true 1234 "wayland-0" "wayland" true⟩

theorem sampleStart_fresh : sampleStart.Fresh :=
  ⟨rfl, rfl, fun _ => ⟨_, _, _, _, _, rfl⟩⟩

def heardCalls (events : List Event) (synced : Bool) : PumpCalls :=
  ⟨[], .done, .returned true false, true, ⟨events, synced, true⟩⟩

/-- One host starts up and writes the state; the other one finds the lock held. -/
def sampleHosts : List (Nat × ProcessAction) := [
  (0, .begin true true), (1, .begin true true), (0, .lock true), (1, .lock true),
  (0, .clear false), (0, .connect none),
  (0, .sync false (heardCalls [.globalAdded 5 "zkde_screencast_unstable_v1" 3] true)),
  (0, .sync false (heardCalls [] false)), (0, .sync false (heardCalls [] true)),
  (0, .sync false (heardCalls [] false)),
  (0, .inspect (.finished true 0 (some (.object [("outputs", .array [])])))), (0, .create none),
  (1, .leave true), (0, .await false (heardCalls startup false)), (0, .turn true true),
  (1, .finish)]

/-- The running host is killed, and a third one takes the lock before it looks at the file. -/
def orphanedFile : List (Nat × ProcessAction) :=
  sampleHosts ++ [(0, .kill), (2, .begin true true), (2, .lock true)]

theorem state_file_has_one_writer_sample :
    ∃ s trace state, Machine.exec System.step orphanedFile sampleStart = some (s, trace) ∧
      s.file = some state ∧ s.lock = some 2 ∧
      ∃ t before after, trace = before ++ .wrote t state :: after ∧
        (s.lock = some t ∨ .killed t ∈ after ∨ .removed t false ∈ after) := by
  have reached : ((Machine.exec System.step orphanedFile sampleStart).map fun r =>
      (r.1.file.isSome, r.1.lock)) = some (true, some 2) := by
    decide +kernel
  obtain ⟨⟨s, trace⟩, run, result⟩ := Option.map_eq_some_iff.mp reached
  obtain ⟨stands, held⟩ := Prod.mk.inj result
  obtain ⟨state, stands⟩ := Option.isSome_iff_exists.mp stands
  exact ⟨s, trace, state, run, stands, held,
    (state_file_has_one_writer sampleStart_fresh run).2.2 state stands⟩

/-- Whenever the state file is read, its reader takes it: the file holds the snapshot of a complete
manager without errors, and beside its host `discoverMonitors` finds exactly what that shows. -/
theorem state_file_is_discovered {start s : System ι} {actions : List (ι × ProcessAction)}
    {trace : List (Observation ι)} (fresh : start.Fresh)
    (run : Machine.exec System.step actions start = some (s, trace)) (c : Conversions)
    (whole : ∀ n : Int32, c.toLongLong (.number n.toInt) = n.toInt) {state : Json}
    (stands : s.file = some state) :
    ∃ (t : ι) (events : List Event) (kwinRunning : Bool),
      .wrote t state ∈ trace ∧
      (∀ i, ((VirtualDisplayManager.after events).streams i).error = "") ∧
      (VirtualDisplayManager.after events).complete = .ok true ∧
      (VirtualDisplayManager.after events).snapshot ((s.processes t).host kwinRunning) true =
        .ok state ∧
      ((∀ i, ((VirtualDisplayManager.after events).streams i).node < 2147483648) →
        0 < (s.processes t).pid.toInt → ∃ output : Fin MonitorCount → Output,
          (∀ i, (VirtualDisplayManager.after events).Shows i (output i)) ∧
          ∀ (around : Surroundings) (nodes : List Json) (object : Fin MonitorCount → Json),
            Beside around ((s.processes t).host kwinRunning) state nodes →
            Dumped c (VirtualDisplayManager.after events) output nodes object →
            discoverMonitors c around = .ok ((List.finRange MonitorCount).map
              (expected c (VirtualDisplayManager.after events) output object))) := by
  obtain ⟨_, filed, stated⟩ := run_hosting fresh run
  obtain ⟨t, before, after, rfl, _⟩ := filed.origin state stands
  obtain ⟨events, kwinRunning, healthy, complete, snapshot⟩ := stated.described t state (by simp)
  refine ⟨t, events, kwinRunning, by simp, fun i => ?_, complete, snapshot, fun narrow live => ?_⟩
  · simpa using List.findSome?_eq_none_iff.mp healthy i (List.mem_finRange i)
  · obtain ⟨output, written, shows_, same, discovered⟩ := snapshot_discovered
      (VirtualDisplayManager.after_wired events)
      (whole ((s.processes t).host kwinRunning).pid) live complete narrow
    obtain rfl := Except.ok.inj (snapshot.symm.trans same)
    exact ⟨output, shows_, discovered⟩

theorem Shows.unique {m : VirtualDisplayManager} {i : Fin MonitorCount} {o other : Output}
    (shows_ : m.Shows i o) (also : m.Shows i other) : other = o :=
  shows_.only other.global other also.advertised also.named

def streamEntries (state : Json) : List (Json × Json) :=
  (state.value "monitors").toArray.map fun f => (f.value "pipewire_node", f.value "output_name")

/-- A manager with the state of `startup` has its nodes and shows outputs of its names. -/
theorem startup_read {m : VirtualDisplayManager} (wired : m.Wired) {host : Host} {state : Json}
    {output : Fin MonitorCount → Output} (complete : m.complete = .ok true)
    (written : m.snapshot host true = .ok state) (shows_ : ∀ i, m.Shows i (output i))
    (feeds : streamEntries state =
      [(.number 70, .string "Virtual-QUEST-1"), (.number 71, .string "QUEST-2")]) :
    ((m.streams ⟨0, by decide⟩).node.toNat = 70 ∧ (m.streams ⟨1, by decide⟩).node.toNat = 71) ∧
      (output ⟨0, by decide⟩).name = "Virtual-QUEST-1" ∧ (output ⟨1, by decide⟩).name = "QUEST-2" := by
  obtain ⟨found, showing⟩ := VirtualDisplayManager.complete_shows wired complete
  have same (i : Fin MonitorCount) : found i = output i :=
    Shows.unique (shows_ i) (showing i).2.2.1
  have entry (i : Fin MonitorCount) :
      ((feed (m.streams i) (some (found i))).value "pipewire_node",
        (feed (m.streams i) (some (found i))).value "output_name") =
      (Json.number (m.streams i).node.toNat, Json.string (output i).name) := by
    rw [same i]
    rfl
  rw [snapshot_feeds (fun i => ⟨(showing i).1, (showing i).2.1⟩) written] at feeds
  change ((List.finRange MonitorCount).map fun i => feed (m.streams i) (some (found i))).map _ = _
    at feeds
  rw [show List.finRange MonitorCount = [⟨0, by decide⟩, ⟨1, by decide⟩] from rfl] at feeds
  simp only [List.map_cons, List.map_nil, entry, List.cons.injEq, Prod.mk.injEq, Json.number.injEq,
    Json.string.injEq, and_true] at feeds
  obtain ⟨⟨node, name⟩, node', name'⟩ := feeds
  exact ⟨⟨by exact_mod_cast node, by exact_mod_cast node'⟩, name, name'⟩

def Observation.writer : Observation ι → Option ι
  | .wrote t _ => some t
  | _ => none

theorem state_file_is_discovered_sample :
    ∃ s trace state, Machine.exec System.step sampleHosts sampleStart = some (s, trace) ∧
      s.file = some state ∧
      discoverMonitors plainConversions ⟨some state, fun _ => "quest-displays", "wayland-0",
        some (0, .array startupDump)⟩ = .ok startupMonitors := by
  have reached : ((Machine.exec System.step sampleHosts sampleStart).map fun r =>
      (r.1.file.map streamEntries, r.2.filterMap Observation.writer, (r.1.processes 0).pid,
        (r.1.processes 0).waylandDisplay)) =
      some (some [(.number 70, .string "Virtual-QUEST-1"), (.number 71, .string "QUEST-2")], [0],
        1234, "wayland-0") := by
    decide +kernel
  obtain ⟨⟨s, trace⟩, run, result⟩ := Option.map_eq_some_iff.mp reached
  simp only [Prod.mk.injEq, Option.map_eq_some_iff] at result
  obtain ⟨⟨state, stands, entries⟩, writers, pid, session⟩ := result
  obtain ⟨t, events, kwinRunning, wrote, _, complete, written, discovered⟩ :=
    state_file_is_discovered sampleStart_fresh run plainConversions
      (fun n => by simp [plainConversions]) stands
  have writer : t ∈ trace.filterMap Observation.writer := List.mem_filterMap.mpr ⟨_, wrote, rfl⟩
  rw [writers, List.mem_singleton] at writer
  subst writer
  have wired := VirtualDisplayManager.after_wired events
  obtain ⟨shown, showing⟩ := VirtualDisplayManager.complete_shows wired complete
  have nodes := (startup_read wired complete written (fun i => (showing i).2.2.1) entries).1
  have narrow (i : Fin MonitorCount) :
      ((VirtualDisplayManager.after events).streams i).node < 2147483648 := by
    rw [UInt32.lt_iff_toNat_lt]
    rcases first_or_second i with rfl | rfl
    · rw [nodes.1]; decide
    · rw [nodes.2]; decide
  obtain ⟨output, shows_, found⟩ := discovered narrow (by rw [pid]; decide)
  obtain ⟨_, names⟩ := startup_read wired complete written shows_ entries
  obtain ⟨dumped, monitors⟩ := startup_dumped (VirtualDisplayManager.after events) output nodes names
  refine ⟨s, trace, state, run, stands, ?_⟩
  rw [← monitors]
  refine found _ startupDump startupObject ⟨rfl, rfl, ?_, rfl⟩ dumped
  exact session.symm

end Quest.Displays
