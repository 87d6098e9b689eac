import Quest.DisplayHost

/-! What one step of a display host can do, guards and effects together. -/
namespace Quest.Displays

def Phase.alive : Phase → Bool
  | .exited _ => false
  | .killed => false
  | _ => true

def Phase.reaching : Phase → Bool
  | .connecting => true
  | .syncing _ _ => true
  | _ => false

/-- The phases that a process reaches without touching a file or the lock. -/
inductive Follows (p : Process) : Phase → Prop where
  | same : Follows p p.phase
  | leaving (failure : Option String) : p.phase.alive = true → Follows p (.leaving failure)
  | connecting : p.phase = .starting → p.run = false → Follows p .connecting
  | locking : p.phase = .starting → p.run = true → Follows p .locking
  | syncing (second synced : Bool) : p.phase.reaching = true → Follows p (.syncing second synced)
  | probing : p.phase.reaching = true → p.run = false → Follows p .probing
  | inspecting : p.phase.reaching = true → p.run = true → Follows p .inspecting
  | running : p.phase = .awaiting → Follows p (.running none)
  | pumping : p.phase = .running last → Follows p (.pumping last)
  | pumped : p.phase = .pumping last → Follows p (.running last)
  | awaiting : p.phase = .creating → Follows p .awaiting
  | returning (code : Nat) : p.phase.alive = true → p.statePath = false →
    Follows p (.returning code)

structure Continues (p q : Process) : Prop where
  run : q.run = p.run
  identity : q.host = p.host
  statePath : q.statePath = p.statePath
  heard : ∃ events : List Event,
    q.manager = events.foldl VirtualDisplayManager.receive p.manager
  phase : Follows p q.phase

theorem continues_phase {p : Process} {phase : Phase} (follows : Follows p phase) :
    Continues p { p with phase := phase } :=
  ⟨rfl, rfl, rfl, ⟨[], rfl⟩, follows⟩

theorem continues_fail {p : Process} (alive : p.phase.alive = true) (message : String) :
    Continues p (p.fail message) :=
  continues_phase (.leaving _ alive)

theorem hear_heard (h : Heard) (d : Dispatch) :
    ∃ events : List Event,
      (h.hear d).manager = events.foldl VirtualDisplayManager.receive h.manager :=
  ⟨d.events, rfl⟩

theorem prepareRead_heard (refused : List Dispatch) (h : Heard) :
    ∃ events : List Event, (prepareRead refused h).1.manager =
      events.foldl VirtualDisplayManager.receive h.manager := by
  induction refused generalizing h with
  | nil => exact ⟨[], rfl⟩
  | cons d rest ih =>
    obtain ⟨later, more⟩ := ih (h.hear d)
    simp only [prepareRead, dispatchPending]
    split
    next _ _ same =>
      obtain ⟨rfl, _⟩ := Prod.mk.inj same
      exact ⟨d.events ++ later, by rw [more, List.foldl_append]; rfl⟩
    next _ _ same =>
      obtain ⟨rfl, _⟩ := Prod.mk.inj same
      exact hear_heard h d

theorem pump_heard (c : PumpCalls) (h : Heard) :
    ∃ events : List Event, (pump c h).1.manager =
      events.foldl VirtualDisplayManager.receive h.manager := by
  obtain ⟨events, prepared⟩ := prepareRead_heard c.refused h
  simp only [pump]
  split
  next after message same =>
    rw [same] at prepared
    exact ⟨events, prepared⟩
  next after same =>
    rw [same] at prepared
    split
    · exact ⟨events, prepared⟩
    split
    · exact ⟨events, prepared⟩
    split
    · exact ⟨events, prepared⟩
    · exact ⟨events ++ c.dispatched.events, by
        rw [List.foldl_append, ← prepared]
        rfl⟩

/-- A round of `pump` leads where its continuation leads, or to the handlers. -/
theorem pumped_continues {p : Process} {c : PumpCalls} {synced : Bool}
    {next : Process → Bool → Process} (alive : p.phase.alive = true)
    (continued : ∀ m synced, ∃ phase, Follows p phase ∧
      next { p with manager := m } synced = { p with manager := m, phase := phase }) :
    Continues p (p.pumped c synced next) := by
  obtain ⟨events, heard⟩ := pump_heard c ⟨p.manager, synced⟩
  simp only [Process.pumped]
  split
  next h message same =>
    rw [same] at heard
    exact ⟨rfl, rfl, rfl, ⟨events, heard⟩, .leaving _ alive⟩
  next h same =>
    rw [same] at heard
    obtain ⟨phase, follows, result⟩ := continued h.manager h.synced
    rw [result]
    exact ⟨rfl, rfl, rfl, ⟨events, heard⟩, follows⟩

theorem begin_continues {p : Process} (starting : p.phase = .starting)
    (kwinRunning mkpath : Bool) : Continues p (p.begin kwinRunning mkpath) := by
  have alive : p.phase.alive = true := by rw [starting]; rfl
  simp only [Process.begin]
  split
  next probe => exact continues_phase (.connecting starting probe)
  next run =>
    split
    · exact continues_fail alive _
    split
    · exact continues_fail alive _
    split
    · exact continues_fail alive _
    · exact continues_phase (.locking starting (by simpa using run))

theorem sync_continues {p : Process} {second synced : Bool} (at_ : p.phase = .syncing second synced)
    (late : Bool) (c : PumpCalls) : Continues p (p.sync second synced late c) := by
  have alive : p.phase.alive = true := by rw [at_]; rfl
  have reaching : p.phase.reaching = true := by rw [at_]; rfl
  simp only [Process.sync]
  split
  · split
    · refine continues_phase ?_
      split
      next run => exact .inspecting reaching run
      next probe => exact .probing reaching (by simpa using probe)
    · exact continues_phase (.syncing true false reaching)
  split
  · exact continues_fail alive _
  · exact pumped_continues alive fun m synced => ⟨_, .syncing second synced reaching, rfl⟩

theorem await_continues {p : Process} (awaiting : p.phase = .awaiting) (late : Bool)
    (c : PumpCalls) : Continues p (p.await late c) := by
  have alive : p.phase.alive = true := by rw [awaiting]; rfl
  simp only [Process.await]
  split
  · exact continues_fail alive _
  split
  · exact continues_fail alive _
  · refine pumped_continues alive fun m _ => ?_
    simp only [Process.awaited]
    split
    · exact ⟨_, .leaving _ alive, rfl⟩
    split
    · exact ⟨_, .leaving _ alive, rfl⟩
    · exact ⟨_, .running awaiting, rfl⟩
    · exact ⟨_, awaiting ▸ .same, rfl⟩

structure Statement (p : Process) (state : Json) : Prop where
  healthy : p.manager.checkStreamErrors = none
  complete : p.manager.complete = .ok true
  snapshot : ∃ kwinRunning, p.manager.snapshot (p.host kwinRunning) true = .ok state

theorem state_statement {p : Process} {kwinRunning : Bool} {state : Json}
    (stated : p.state kwinRunning = .ok state) : Statement p state := by
  simp only [Process.state] at stated
  split at stated
  · contradiction
  next healthy =>
    split at stated
    · contradiction
    · contradiction
    next complete => exact ⟨healthy, complete, kwinRunning, stated⟩

variable {ι : Type*} [DecidableEq ι]

inductive Moved (s : System ι) (t : ι) : System ι → List (Observation ι) → Prop where
  | continued : Continues (s.processes t) q → Moved s t (s.put t q) []
  | locked : s.lock = none → (s.processes t).phase = .locking →
      Moved s t
        ({ s with lock := some t }.put t
          { s.processes t with statePath := true, phase := .clearing }) [.locked t]
  | cleared (removed : Bool) : (s.processes t).phase = .clearing →
      Moved s t
        ({ s with file := if removed then none else s.file }.put t
          { s.processes t with phase := .connecting }) [.removed t removed]
  | printed : (s.processes t).phase = .probing →
      Moved s t (s.put t { s.processes t with phase := .returning 0 }) [.printed t state]
  | inspected : (s.processes t).phase = .inspecting → (∀ entry ∈ outputs, ¬Foreign entry) →
      Moved s t (s.put t { s.processes t with phase := .creating }) [.inspected t outputs]
  | requested (streams : List (Fin MonitorCount)) : (s.processes t).phase = .creating →
      (s.processes t).manager.checkCreate = .ok () → Continues (s.processes t) q →
      Moved s t (s.put t q)
        (streams.map (.requested t · (s.processes t).manager.entries))
  | wrote : (s.processes t).phase = .running last → Statement (s.processes t) state →
      Moved s t
        ({ s with file := some state }.put t
          { s.processes t with phase := .pumping (some state) }) [.wrote t state]
  | left (removed : Bool) (failed : Option String) (code : Nat) :
      (s.processes t).phase = .leaving failed → (s.processes t).statePath = true →
      Moved s t
        ({ s with file := if removed then none else s.file }.put t
          { s.processes t with phase := .returning code }) [.removed t removed]
  | exited : (s.processes t).phase = .returning code →
      Moved s t ((s.unlock t).put t { s.processes t with phase := .exited code }) [.exited t code]
  | killed : (s.processes t).phase.alive = true →
      Moved s t ((s.unlock t).put t { s.processes t with phase := .killed }) [.killed t]

theorem inventory_free {k : KScreen} {outputs : List Json}
    (checked : checkExistingKScreenOutputs k = .ok outputs) : ∀ entry ∈ outputs, ¬Foreign entry := by
  cases k with
  | unfinished => contradiction
  | finished normal exitCode json =>
    simp only [checkExistingKScreenOutputs] at checked
    split at checked
    · split at checked
      · contradiction
      next none_found =>
        obtain rfl := Except.ok.inj checked
        exact by simpa using none_found
    · contradiction

theorem lockStep_moved (s : System ι) {t : ι} (locking : (s.processes t).phase = .locking)
    (able : Bool) : Moved s t (s.lockStep t able).1 (s.lockStep t able).2 := by
  have alive : (s.processes t).phase.alive = true := by rw [locking]; rfl
  simp only [System.lockStep]
  split
  next free => exact .locked free.2 locking
  next => exact .continued (continues_fail alive _)

theorem createStep_moved (s : System ι) {t : ι} (creating : (s.processes t).phase = .creating)
    (failing : Option (Fin MonitorCount)) :
    Moved s t (s.createStep t failing).1 (s.createStep t failing).2 := by
  have alive : (s.processes t).phase.alive = true := by rw [creating]; rfl
  simp only [System.createStep]
  split
  · exact .continued (continues_fail alive _)
  next checked =>
    refine .requested _ creating checked ?_
    split
    · exact continues_phase (.awaiting creating)
    · exact continues_fail alive _

theorem turnStep_moved (s : System ι) {t : ι} {last : Option Json}
    (running : (s.processes t).phase = .running last) (kwinRunning saved : Bool) :
    Moved s t (s.turnStep t last kwinRunning saved).1 (s.turnStep t last kwinRunning saved).2 := by
  have alive : (s.processes t).phase.alive = true := by rw [running]; rfl
  simp only [System.turnStep]
  split
  · exact .continued (continues_phase (.leaving _ alive))
  split
  · exact .continued (continues_fail alive _)
  next state stated =>
    split
    · exact .continued (continues_phase (.pumping running))
    split
    · exact .wrote running (state_statement stated)
    · exact .continued (continues_fail alive _)

theorem act_moved {s next : System ι} {t : ι} {a : ProcessAction} {seen : List (Observation ι)}
    (taken : s.act t a = some (next, seen)) : Moved s t next seen := by
  simp only [System.act] at taken
  split at taken
  next starting =>
    cases taken
    exact .continued (begin_continues starting _ _)
  next locking =>
    obtain rfl := Prod.mk.inj (Option.some.inj taken) |>.1
    obtain rfl := Prod.mk.inj (Option.some.inj taken) |>.2
    exact lockStep_moved s locking _
  next removed clearing =>
    cases taken
    exact .cleared removed clearing
  next connecting =>
    cases taken
    have alive : (s.processes t).phase.alive = true := by rw [connecting]; rfl
    refine .continued ?_
    split
    · exact continues_phase (.syncing false false (by rw [connecting]; rfl))
    · exact continues_fail alive _
  next syncing =>
    cases taken
    exact .continued (sync_continues syncing _ _)
  next probing =>
    have alive : (s.processes t).phase.alive = true := by rw [probing]; rfl
    split at taken
    · cases taken
      exact .continued (continues_fail alive _)
    · cases taken
      exact .printed probing
  next inspecting =>
    split at taken
    · cases taken
      exact .continued (continues_fail (by rw [inspecting]; rfl) _)
    next outputs checked =>
      cases taken
      exact .inspected inspecting (inventory_free checked)
  next creating =>
    obtain rfl := Prod.mk.inj (Option.some.inj taken) |>.1
    obtain rfl := Prod.mk.inj (Option.some.inj taken) |>.2
    exact createStep_moved s creating _
  next awaiting =>
    cases taken
    exact .continued (await_continues awaiting _ _)
  next running =>
    obtain rfl := Prod.mk.inj (Option.some.inj taken) |>.1
    obtain rfl := Prod.mk.inj (Option.some.inj taken) |>.2
    exact turnStep_moved s running _ _
  next pumping =>
    cases taken
    exact .continued (pumped_continues (by rw [pumping]; rfl) fun m _ => ⟨_, .pumped pumping, rfl⟩)
  next removed failed leaving =>
    split at taken
    next known =>
      cases taken
      exact .left removed failed _ leaving known
    next unknown =>
      cases taken
      exact .continued
        (continues_phase (.returning _ (by rw [leaving]; rfl) (by simpa using unknown)))
  next code returning =>
    cases taken
    exact .exited returning
  next =>
    cases taken
    exact .continued ⟨rfl, rfl, rfl, ⟨[], rfl⟩, .same⟩
  next => contradiction
  next => contradiction
  next gone alive =>
    cases taken
    refine .killed ?_
    cases phase : (s.processes t).phase with
    | exited code => exact absurd phase (gone code)
    | killed => exact absurd phase alive
    | _ => rfl
  next => contradiction

end Quest.Displays
