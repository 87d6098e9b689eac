import Quest.DisplayHostFile

/-! The requests for virtual outputs. A host makes them under the lock and after looking for
outputs of this project, when no other host can be showing any. -/
namespace Quest.Displays

variable {ι : Type*}

def Gone (t : ι) (trace : List (Observation ι)) : Prop :=
  (∃ code, .exited t code ∈ trace) ∨ .killed t ∈ trace

/-- A request is made under the lock, after an inventory of KScreen without an output of this
project and with none on Wayland, when every other process that has made one is gone. -/
def Careful (before : List (Observation ι)) : Observation ι → Prop
  | .requested t _ outputs =>
    .locked t ∈ before ∧
    (∃ inventory, .inspected t inventory ∈ before ∧ ∀ entry ∈ inventory, ¬Foreign entry) ∧
    (∀ i : Fin MonitorCount, ∀ o ∈ outputs, ¬Admissible (streamName i.val) o.name) ∧
    ∀ u ≠ t, ∀ j visible, .requested u j visible ∈ before → Gone u before
  | _ => True

structure Asked (s : System ι) (trace : List (Observation ι)) : Prop where
  locked : ∀ t, (s.processes t).statePath = true → .locked t ∈ trace
  inspected : ∀ t, (s.processes t).phase = .creating → ∃ inventory, .inspected t inventory ∈ trace
  free : ∀ t inventory, .inspected t inventory ∈ trace → ∀ entry ∈ inventory, ¬Foreign entry
  asked : ∀ t i visible, .requested t i visible ∈ trace → (s.processes t).statePath = true
  gone : ∀ t, (s.processes t).phase.alive = false → Gone t trace
  each : Machine.Each Careful trace

theorem findOutput_none_iff {m : VirtualDisplayManager} {name : String} :
    m.findOutput name = .ok none ↔ ∀ o ∈ m.entries, ¬Admissible name o.name := by
  rw [VirtualDisplayManager.findOutput, VirtualDisplayManager.search_eq, Option.toList_none,
    List.nil_append]
  have empty : m.entries.filter (fun o => Admissible name o.name) = [] ↔
      ∀ o ∈ m.entries, ¬Admissible name o.name := by simp
  rw [← empty]
  generalize m.entries.filter (fun o => Admissible name o.name) = found
  rcases found with _ | ⟨first, _ | ⟨second, rest⟩⟩ <;> simp

theorem checkAbsent_free {m : VirtualDisplayManager} {l : List (Fin MonitorCount)}
    (absent : m.checkAbsent l = .ok ()) :
    ∀ i ∈ l, ∀ o ∈ m.entries, ¬Admissible (m.streams i).name o.name := by
  induction l with
  | nil => simp
  | cons i rest ih =>
    simp only [VirtualDisplayManager.checkAbsent] at absent
    split at absent
    · contradiction
    · contradiction
    next nothing =>
      exact List.forall_mem_cons.mpr ⟨findOutput_none_iff.mp nothing, ih absent⟩

theorem checkCreate_free {m : VirtualDisplayManager} (wired : m.Wired)
    (checked : m.checkCreate = .ok ()) (i : Fin MonitorCount) :
    ∀ o ∈ m.entries, ¬Admissible (streamName i.val) o.name := by
  rw [← wired.name i]
  simp only [VirtualDisplayManager.checkCreate] at checked
  split at checked
  · contradiction
  · exact checkAbsent_free checked i (List.mem_finRange i)

theorem Gone.later {t : ι} {trace : List (Observation ι)} (gone : Gone t trace)
    (seen : List (Observation ι)) : Gone t (trace ++ seen) :=
  gone.imp (fun ⟨code, exited⟩ => ⟨code, List.mem_append_left _ exited⟩) (List.mem_append_left _)

theorem each_careful_single (trace : List (Observation ι)) {e : Observation ι}
    (other : ∀ t i visible, e ≠ .requested t i visible) :
    Machine.Each (fun past => Careful (trace ++ past)) [e] := by
  refine Machine.each_cons_iff.mpr ⟨?_, Machine.each_nil _⟩
  cases e with
  | requested t i visible => exact absurd rfl (other t i visible)
  | _ => trivial

/-- The requests of one `create`. -/
theorem requests_careful {s : System ι} {trace : List (Observation ι)} (hosting : Hosting s trace)
    (asked : Asked s trace) {t : ι} (creating : (s.processes t).phase = .creating)
    (checked : (s.processes t).manager.checkCreate = .ok ()) (streams : List (Fin MonitorCount)) :
    Machine.Each (fun past => Careful (trace ++ past))
      (streams.map (.requested t · (s.processes t).manager.entries)) := by
  have owning : (s.processes t).phase.owning = true := by rw [creating]; rfl
  have held := (hosting.exclusive t).holds owning
  obtain ⟨inventory, inspected⟩ := asked.inspected t creating
  obtain ⟨events, manager⟩ := hosting.stated.heard t
  intro before e after split
  have own : ∀ request ∈ before ++ e :: after,
      ∃ i, request = .requested t i (s.processes t).manager.entries := by
    rw [← split]
    intro request member
    obtain ⟨i, _, rfl⟩ := List.mem_map.mp member
    exact ⟨i, rfl⟩
  obtain ⟨i, rfl⟩ := own e (by simp)
  refine ⟨List.mem_append_left _ (asked.locked t ((hosting.exclusive t).fits.known owning)),
    ⟨inventory, List.mem_append_left _ inspected, asked.free t inventory inspected⟩,
    checkCreate_free (manager ▸ VirtualDisplayManager.after_wired events) checked, ?_⟩
  intro u other j visible member
  rcases List.mem_append.mp member with earlier | now
  · -- A process that knows the path and is not the owner of the lock is dead.
    refine (asked.gone u ?_).later before
    have known := asked.asked u j visible earlier
    cases alive : (s.processes u).phase.alive with
    | false => rfl
    | true =>
      have mine := (hosting.exclusive u).owner known alive
      rw [held] at mine
      exact absurd (Option.some.inj mine).symm other
  · obtain ⟨_, same⟩ := own _ (List.mem_append_left _ now)
    exact absurd (Observation.requested.inj same).1 other

theorem Follows.creating {p : Process} {phase : Phase} (follows : Follows p phase)
    (at_ : phase = .creating) : p.phase = .creating := by
  cases follows <;> first | exact at_ | contradiction

variable [DecidableEq ι]

/-- A step of `t`, whose effect on `t` itself is left to show. -/
theorem Asked.put {s next : System ι} {trace seen : List (Observation ι)} (asked : Asked s trace)
    {t : ι} {q : Process} (processes : next.processes = Function.update s.processes t q)
    (locked : q.statePath = true → (s.processes t).statePath = true ∨ .locked t ∈ seen)
    (kept : (s.processes t).statePath = true → q.statePath = true)
    (inspected : q.phase = .creating →
      (s.processes t).phase = .creating ∨ ∃ inventory, .inspected t inventory ∈ seen)
    (gone : q.phase.alive = false → (s.processes t).phase.alive = false ∨ Gone t seen)
    (free : ∀ u inventory, .inspected u inventory ∈ seen → ∀ entry ∈ inventory, ¬Foreign entry)
    (fresh : ∀ u i visible, .requested u i visible ∈ seen → u = t ∧ q.statePath = true)
    (each : Machine.Each (fun past => Careful (trace ++ past)) seen) :
    Asked next (trace ++ seen) where
  locked := by
    intro u known
    rw [processes] at known
    by_cases same : u = t
    · subst u
      rw [Function.update_self] at known
      rcases locked known with before | now
      · exact List.mem_append_left _ (asked.locked t before)
      · exact List.mem_append_right _ now
    · rw [Function.update_of_ne same] at known
      exact List.mem_append_left _ (asked.locked u known)
  inspected := by
    intro u creating
    rw [processes] at creating
    have before (at_ : (s.processes u).phase = .creating) :
        ∃ inventory, .inspected u inventory ∈ trace ++ seen :=
      (asked.inspected u at_).imp fun _ => List.mem_append_left _
    by_cases same : u = t
    · subst u
      rw [Function.update_self] at creating
      exact (inspected creating).elim before (.imp fun _ => List.mem_append_right _)
    · rw [Function.update_of_ne same] at creating
      exact before creating
  free := by
    intro u inventory member
    exact (List.mem_append.mp member).elim (asked.free u inventory) (free u inventory)
  asked := by
    intro u i visible member
    rw [processes]
    by_cases same : u = t
    · subst u
      rw [Function.update_self]
      rcases List.mem_append.mp member with before | now
      · exact kept (asked.asked t i visible before)
      · exact (fresh t i visible now).2
    · rw [Function.update_of_ne same]
      refine asked.asked u i visible ((List.mem_append.mp member).resolve_right fun now => ?_)
      exact same (fresh u i visible now).1
  gone := by
    intro u dead
    rw [processes] at dead
    by_cases same : u = t
    · subst u
      rw [Function.update_self] at dead
      rcases gone dead with before | now
      · exact (asked.gone t before).later seen
      · exact now.imp (fun ⟨code, exited⟩ => ⟨code, List.mem_append_right _ exited⟩)
          (List.mem_append_right _)
    · rw [Function.update_of_ne same] at dead
      exact (asked.gone u dead).later seen
  each := Machine.each_append_iff.mpr ⟨asked.each, each⟩

theorem Moved.asked {s next : System ι} {trace seen : List (Observation ι)} {t : ι}
    (moved : Moved s t next seen) (hosting : Hosting s trace) (asked : Asked s trace) :
    Asked next (trace ++ seen) := by
  have own := hosting.exclusive t
  cases moved with
  | continued continues =>
    exact asked.put rfl (fun known => .inl (continues.statePath ▸ known))
      (fun known => continues.statePath.trans known) (fun at_ => .inl (continues.phase.creating at_))
      (fun dead => .inl (continues.phase.alive ▸ dead)) (by simp) (by simp) (Machine.each_nil _)
  | requested streams creating checked continues =>
    have known : (s.processes t).statePath = true := own.fits.known (by rw [creating]; rfl)
    refine asked.put rfl (fun _ => .inl known) (fun known => continues.statePath.trans known)
      (fun _ => .inl creating) (fun dead => .inl (continues.phase.alive ▸ dead)) (by simp) ?_
      (requests_careful hosting asked creating checked streams)
    intro u i visible member
    obtain ⟨_, _, same⟩ := List.mem_map.mp member
    exact ⟨(Observation.requested.inj same).1.symm, continues.statePath.trans known⟩
  | locked =>
    exact asked.put rfl (fun _ => .inr (by simp)) (fun _ => rfl) (fun at_ => by contradiction)
      (fun dead => by contradiction) (by simp) (by simp) (each_careful_single _ (by simp))
  | inspected inspecting free =>
    refine asked.put rfl .inl id (fun _ => .inr ⟨_, List.mem_singleton_self _⟩)
      (fun dead => by contradiction) ?_ (by simp) (each_careful_single _ (by simp))
    intro u inventory member
    obtain ⟨_, rfl⟩ := Observation.inspected.inj (List.mem_singleton.mp member)
    exact free
  | exited =>
    exact asked.put (gone_processes ..) .inl id (fun at_ => by contradiction)
      (fun _ => .inr (.inl ⟨_, List.mem_singleton_self _⟩)) (by simp) (by simp)
      (each_careful_single _ (by simp))
  | killed =>
    exact asked.put (gone_processes ..) .inl id (fun at_ => by contradiction)
      (fun _ => .inr (.inr (List.mem_singleton_self _))) (by simp) (by simp)
      (each_careful_single _ (by simp))
  | _ =>
    exact asked.put rfl .inl id (fun at_ => by contradiction) (fun dead => by contradiction)
      (by simp) (by simp) (each_careful_single _ (by simp))

/-- No output is requested that could be there already or that another host could be showing. -/
theorem requests_are_careful {start s : System ι} {actions : List (ι × ProcessAction)}
    {trace : List (Observation ι)} (fresh : start.Fresh)
    (run : Machine.exec System.step actions start = some (s, trace)) :
    Machine.Each Careful trace := by
  have initially : Asked start [] := by
    refine ⟨fun t known => ?_, fun t creating => ?_, by simp, by simp, fun t dead => ?_,
      Machine.each_nil _⟩
    all_goals
      obtain ⟨_, _, _, _, _, initial⟩ := fresh.2.2 t
      simp_all [Process.initial, Phase.alive]
  have both := Machine.history (fun s trace => Hosting s trace ∧ Asked s trace)
    ⟨fresh_hosting fresh, initially⟩ (fun s trace a next seen known taken => by
      have moved := act_moved taken
      exact ⟨moved.hosting known.1, moved.asked known.1 known.2⟩) run
  exact both.2.each

theorem requests_are_careful_sample :
    ∃ s trace, Machine.exec System.step sampleHosts sampleStart = some (s, trace) ∧
      .requested 0 (.last 1) [] ∈ trace ∧ Machine.Each Careful trace := by
  have reached : (Machine.exec System.step sampleHosts sampleStart).any
      (·.2.contains (.requested 0 (.last 1) [])) := by decide +kernel
  obtain ⟨⟨s, trace⟩, run, requested⟩ := (Option.any_eq_true _ _).mp reached
  exact ⟨s, trace, run, List.contains_iff_mem.mp requested,
    requests_are_careful sampleStart_fresh run⟩

end Quest.Displays
