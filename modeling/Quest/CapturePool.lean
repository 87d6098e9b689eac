import Mathlib.Data.Fintype.Card
import Quest.CaptureInvariant

/-! The frame pool against the references of its consumers. The queue holds two frames, and
the stream worker with its encoder never more than two others, so one of five is free. -/
namespace Quest.Capture

/-- What the worker holds at each point of its loop. Between two calls of `encode` the
encoder refers to the last sample at most; within one also to the frame that it is given. -/
def Worker.Frugal (w : Worker) : Prop :=
  match w.phase with
  | .head | .waiting =>
    w.sample = none ∧ w.mapped = none ∧ ∀ ref ∈ w.refs, w.lastSample = some ref.frame
  | .taken => w.mapped = none ∧ ∀ ref ∈ w.refs, w.lastSample = some ref.frame
  | .referencing | .encoding =>
    (w.mapped = w.sample ∨ w.sample = none ∧ w.mapped = w.lastSample) ∧
      ∀ ref ∈ w.refs, w.lastSample = some ref.frame ∨ w.mapped = some ref.frame
  | .encoded =>
    (w.mapped = w.sample ∨ w.sample = none ∧ w.mapped = w.lastSample) ∧
      ∀ ref ∈ w.refs, w.mapped = some ref.frame
  | .left => ∃ a b : Option (Fin PoolSize), ∀ f, w.Holds f → some f = a ∨ some f = b

/-- At every point the worker and the encoder have at most two frames. -/
theorem frugal_two {w : Worker} (frugal : w.Frugal) :
    ∃ a b : Option (Fin PoolSize), ∀ f, w.Holds f → some f = a ∨ some f = b := by
  unfold Worker.Frugal at frugal
  unfold Worker.Holds
  split at frugal
  case h_7 => exact frugal
  all_goals
    refine ⟨w.sample, w.lastSample, ?_⟩
    rintro f (sampled | last | mapped | ⟨ref, member, rfl⟩)
    · exact .inl sampled.symm
    · exact .inr last.symm
    · grind
    · grind

theorem frugal_filter {w : Worker} (frugal : w.Frugal) (kept : Ref → Bool) :
    Worker.Frugal { w with refs := w.refs.filter kept } := by
  have old (ref) (member : ref ∈ w.refs.filter kept) : ref ∈ w.refs :=
    (List.mem_filter.mp member).1
  cases phase : w.phase <;> simp only [Worker.Frugal, phase] at frugal ⊢
  case left =>
    obtain ⟨a, b, two⟩ := frugal
    refine ⟨a, b, fun f holds => two f ?_⟩
    exact holds.imp id (.imp id (.imp id fun ⟨ref, member, same⟩ => ⟨ref, old ref member, same⟩))
  case head | waiting => exact ⟨frugal.1, frugal.2.1, fun ref member => frugal.2.2 ref (old ref member)⟩
  all_goals exact ⟨frugal.1, fun ref member => frugal.2 ref (old ref member)⟩

theorem worker_frugal {s next : State} {events : List Event} (frugal : s.worker.Frugal)
    (moved : WorkerMoved s next events) : next.worker.Frugal := by
  cases moved with
  | checked phase =>
    simp only [Worker.Frugal, phase, State.setWorker] at frugal ⊢
    exact frugal
  | left =>
    have two := frugal_two frugal
    exact two
  | took phase =>
    simp only [Worker.Frugal, phase, State.setWorker] at frugal ⊢
    exact frugal.2
  | rested phase sample =>
    simp only [Worker.Frugal, phase, State.setWorker] at frugal ⊢
    exact ⟨sample, frugal⟩
  | mapped phase source =>
    simp only [Worker.Frugal, phase, State.setWorker] at frugal ⊢
    refine ⟨?_, fun ref member => .inl (frugal.2 ref member)⟩
    exact source.imp Eq.symm (And.imp_right Eq.symm)
  | referenced ref phase mapped =>
    simp only [Worker.Frugal, phase, State.setWorker] at frugal ⊢
    refine ⟨frugal.1, fun other member => ?_⟩
    rcases List.mem_cons.mp member with rfl | old
    · exact .inr mapped
    · exact frugal.2 other old
  | uploaded begun phase =>
    have two := frugal_two frugal
    simp only [Worker.Frugal, phase, State.setWorker] at frugal ⊢
    cases begun
    · exact two
    · exact frugal
  | forgot kept => exact frugal_filter frugal kept
  | encoded phase only =>
    simp only [Worker.Frugal, phase, State.setWorker] at frugal ⊢
    exact ⟨frugal.1, only⟩
  | moved phase sample =>
    simp only [Worker.Frugal, phase, State.setWorker] at frugal ⊢
    refine ⟨.inr ⟨trivial, ?_⟩, frugal.2⟩
    rcases frugal.1 with new | ⟨empty, _⟩
    · exact new.trans sample
    · simp [sample] at empty
  | unmapped phase empty =>
    simp only [Worker.Frugal, phase, State.setWorker] at frugal ⊢
    refine ⟨empty, trivial, fun ref member => ?_⟩
    have mapped := frugal.2 ref member
    rcases frugal.1 with none_new | ⟨_, last⟩
    · simp [none_new, empty] at mapped
    · exact last ▸ mapped
  | unwound phase =>
    have two := frugal_two frugal
    have left : s.worker.unwind.phase = .left := by
      unfold Worker.unwind
      split
      · exact phase
      · split <;> exact phase
    simp only [Worker.Frugal, left, State.setWorker]
    obtain ⟨a, b, covers⟩ := two
    exact ⟨a, b, fun f holds => covers f (unwind_holds holds)⟩

theorem exists_unused {s : State} (queue : s.session.queue.length ≤ 2)
    (frugal : s.worker.Frugal) : ∃ f, ¬s.Used f := by
  obtain ⟨a, b, two⟩ := frugal_two frugal
  let listed := s.session.queue ++ (a.toList ++ b.toList)
  have few : listed.toFinset.card < (Finset.univ : Finset (Fin PoolSize)).card := by
    have first : a.toList.length ≤ 1 := by cases a <;> simp
    have second : b.toList.length ≤ 1 := by cases b <;> simp
    have size : PoolSize = 5 := rfl
    apply (List.toFinset_card_le listed).trans_lt
    rw [Finset.card_univ, Fintype.card_fin, List.length_append, List.length_append]
    omega
  obtain ⟨f, _, unlisted⟩ := Finset.exists_mem_notMem_of_card_lt_card few
  simp only [listed, List.mem_toFinset, List.mem_append, Option.mem_toList, not_or] at unlisted
  refine ⟨f, ?_⟩
  rintro (queued | holds)
  · exact unlisted.1 queued
  · exact (two f holds).elim (fun same => unlisted.2.1 same.symm)
      fun same => unlisted.2.2 same.symm

theorem useCount_eq_one {s : State} {f : Fin PoolSize} (unchosen : s.process.frame = none) :
    s.useCount f = 1 ↔ f ∉ s.session.queue ∧ s.worker.sample ≠ some f ∧
      s.worker.lastSample ≠ some f ∧ s.worker.mapped ≠ some f ∧ .owner f ∉ s.worker.refs := by
  have sum (a b c : Nat) : 1 + a + b + c = 1 ↔ a = 0 ∧ b = 0 ∧ c = 0 := by omega
  simp only [State.useCount, sum, List.count_eq_zero, unchosen, List.mem_cons, List.not_mem_nil,
    reduceCtorEq, or_false, not_or, eq_comm (a := some f), and_assoc, ne_eq]

/-- The test of the pool loop picks out the frames that nobody has. -/
theorem free_iff {s : State} (valid : Invariant s) (unchosen : s.process.frame = none)
    (f : Fin PoolSize) : s.free f = true ↔ ¬s.Used f := by
  simp only [State.free, Bool.and_eq_true, decide_eq_true_eq, useCount_eq_one unchosen]
  constructor
  · rintro ⟨⟨unqueued, sample, last, mapped, unowned⟩, writable⟩ (queued | held)
    · exact unqueued queued
    rcases held with held | held | held | ⟨ref, member, rfl⟩
    · exact sample held
    · exact last held
    · exact mapped held
    cases ref with
    | owner g => exact unowned member
    | surface g => simp [Ref.frame, valid.surface g member, member] at writable
  · intro unused
    simp only [State.Used, Worker.Holds, not_or, not_exists, not_and] at unused
    obtain ⟨unqueued, sample, last, mapped, unreferenced⟩ := unused
    have unwritten : .surface f ∉ s.worker.refs := fun member => unreferenced _ member rfl
    exact ⟨⟨unqueued, sample, last, mapped, fun member => unreferenced _ member rfl⟩,
      by simp [unwritten]⟩

/-- What `consume` relies on while it looks for a frame and while it has one. -/
structure Pooled (s : State) : Prop where
  queue : s.session.queue.length ≤ 2
  worker : s.worker.Frugal
  scanning : ∀ b buffer candidate, s.process = .scanning b buffer candidate →
    ∃ f : Fin PoolSize, candidate ≤ f ∧ ¬s.Used f
  chosen : ∀ f, s.process.frame = some f → ¬s.Used f

theorem initial_pooled (intel : Bool) (memory : Memory) : Pooled (.initial intel memory) := by
  constructor <;> simp [State.initial, Process.frame, Worker.Frugal]

/-- Steps that leave the data thread where it is and give nobody a frame. -/
theorem Pooled.advance {s next : State} (pooled : Pooled s) (process : next.process = s.process)
    (queue : next.session.queue.length ≤ 2) (worker : next.worker.Frugal)
    (used : ∀ f, next.Used f → s.Used f) : Pooled next where
  queue := queue
  worker := worker
  scanning := by
    intro b buffer candidate at_
    obtain ⟨f, later, unused⟩ := pooled.scanning b buffer candidate (process ▸ at_)
    exact ⟨f, later, fun inUse => unused (used f inUse)⟩
  chosen := fun f at_ inUse => pooled.chosen f (process ▸ at_) (used f inUse)

/-- Moves of the data thread that leave the queue alone. -/
theorem Pooled.goto {s : State} (pooled : Pooled s) {t : Session} (queue : t.queue = s.session.queue)
    {p : Process}
    (scanning : ∀ b buffer candidate, p = .scanning b buffer candidate →
      ∃ f : Fin PoolSize, candidate ≤ f ∧ ¬s.Used f)
    (chosen : ∀ f, p.frame = some f → ¬s.Used f) : Pooled ((s.setSession t).goto p) := by
  have used (f) (inUse : ((s.setSession t).goto p).Used f) : s.Used f :=
    inUse.imp (fun queued => queue ▸ queued) id
  refine ⟨?_, pooled.worker, ?_, fun f at_ inUse => chosen f at_ (used f inUse)⟩
  · show t.queue.length ≤ 2
    exact queue ▸ pooled.queue
  · intro b buffer candidate at_
    obtain ⟨f, later, unused⟩ := scanning b buffer candidate at_
    exact ⟨f, later, fun inUse => unused (used f inUse)⟩

def Process.frameless : Process → Bool
  | .scanning _ _ _ | .chosen _ _ _ | .imported _ _ _ | .written _ _ _ => false
  | _ => true

theorem Pooled.leave {s : State} (pooled : Pooled s) {t : Session} (queue : t.queue = s.session.queue)
    {p : Process} (frameless : p.frameless = true) : Pooled ((s.setSession t).goto p) := by
  refine pooled.goto queue ?_ ?_
  · rintro b buffer candidate rfl; contradiction
  · intro f at_; cases p <;> simp_all [Process.frame, Process.frameless]

theorem push_length {s : Session} (queue : s.queue.length ≤ 2) (f : Fin PoolSize) :
    (s.push f).queue.length ≤ 2 := by
  unfold Session.push
  split
  · simp [*]
  · simp; omega

theorem log_queue (s : Session) : s.log.queue = s.queue := by
  unfold Session.log; split <;> rfl

theorem process_pooled {s next : State} {events : List Event} (valid : Invariant s)
    (pooled : Pooled s) (moved : ProcessMoved s next events) : Pooled next := by
  cases moved with
  | unchanged => exact pooled
  | finished => apply pooled.leave <;> rfl
  | entered => apply pooled.leave <;> rfl
  | locked => apply pooled.leave <;> rfl
  | rechecked => apply pooled.leave <;> rfl
  | drained => apply pooled.leave <;> rfl
  | dequeued => apply pooled.leave <;> rfl
  | replaced => apply pooled.leave <;> rfl
  | skipped => apply pooled.leave <;> rfl
  | tooSmall => exact pooled.leave ((Session.fail_queue _ _).trans (log_queue _)) rfl
  | admitted =>
    obtain ⟨f, unused⟩ := exists_unused pooled.queue pooled.worker
    refine pooled.goto (log_queue _) ?_ (by simp [Process.frame])
    rintro _ _ _ ⟨⟩
    exact ⟨f, Nat.zero_le _, unused⟩
  | threw => apply pooled.leave <;> rfl
  | @chose b buffer candidate at_ inside free =>
    have unused := (free_iff valid (by rw [at_]; rfl) _).mp free
    exact pooled.goto rfl (by simp) (by rintro _ ⟨⟩; exact unused)
  | @passed b buffer candidate at_ inside taken =>
    obtain ⟨f, later, unused⟩ := pooled.scanning b buffer candidate at_
    refine pooled.goto rfl ?_ (by simp [Process.frame])
    rintro _ _ _ ⟨⟩
    refine ⟨f, ?_, unused⟩
    -- The candidate just passed over is in use, so the free frame is a later one.
    have other : candidate ≠ f := by
      rintro rfl
      simp [(free_iff valid (by rw [at_]; rfl) f).mpr unused] at taken
    omega
  | starved => apply pooled.leave <;> rfl
  | imported at_ =>
    refine pooled.goto ?_ (by simp) fun f same => pooled.chosen f (at_ ▸ same)
    rfl
  | converted at_ =>
    refine pooled.goto ?_ (by simp) fun f same => pooled.chosen f (at_ ▸ same)
    rfl
  | unconverted => apply pooled.leave <;> rfl
  | copied at_ =>
    refine pooled.goto ?_ (by simp) fun f same => pooled.chosen f (at_ ▸ same)
    rfl
  | @pushed b buffer f now =>
    have queue : (s.session.write f ({ · with ptsUs := framePts buffer now })).queue.length ≤ 2 :=
      pooled.queue
    exact ⟨push_length queue f, pooled.worker, by simp [State.goto],
      by simp [State.goto, Process.frame]⟩
  | @withheld b message =>
    have moved : Pooled ((s.setSession (s.session.stop.fail message)).goto .idle) :=
      pooled.leave (t := s.session.stop.fail message) (Session.fail_queue _ _) rfl
    exact ⟨moved.queue, moved.worker, moved.scanning, moved.chosen⟩
  | @caught b message =>
    exact pooled.leave (t := s.session.stop.fail message) (Session.fail_queue _ _) rfl
  | requeued => apply pooled.leave <;> rfl

theorem process_fed {s next : State} {events : List Event} (pooled : Pooled s)
    (moved : ProcessMoved s next events) : .starved ∉ events := by
  cases moved with
  | @starved b buffer candidate at_ outside =>
    obtain ⟨f, later, _⟩ := pooled.scanning b buffer candidate at_
    have inside := f.isLt
    omega
  | _ => simp

theorem control_pooled {s next : State} {a : ControlAction} {events : List Event}
    (pooled : Pooled s) (moved : ControlMoved s a next events) :
    Pooled next ∧ .starved ∉ events := by
  have quiet (session : Session) (b : Buffer) : .starved ∉ [removedEvent session b] := by
    unfold removedEvent; split <;> simp
  have same {t : Session} {control : Control} (queue : t.queue = s.session.queue) :
      Pooled { s.setSession t with control := control } := by
    refine pooled.advance rfl ?_ pooled.worker fun f used => ?_
    · exact queue.symm ▸ pooled.queue
    · exact used.imp (fun queued => queue ▸ queued) id
  cases moved with
  | stateChanged => exact ⟨same (onStateChanged_alike _ _ _).2, by simp⟩
  | paramChanged => exact ⟨same (onParamChanged_renegotiated _ _ _).queue, by simp⟩
  | adding => exact ⟨same (t := s.session) rfl, by simp⟩
  | ignored => exact ⟨pooled, by simp⟩
  | imported => exact ⟨same (t := s.session.setConverter _) rfl, by simp⟩
  | refused => exact ⟨same (t := s.session) rfl, by simp⟩
  | handled => exact ⟨same (fail_stop_queue _ _), by simp⟩
  | removing => exact ⟨same (t := s.session) rfl, by simp⟩
  | kept => exact ⟨pooled, quiet _ _⟩
  | removed => exact ⟨same (t := s.session.setConverter _) rfl, quiet _ _⟩

theorem takeLatest_length {s session : Session} {sample : Option (Fin PoolSize)}
    (taken : takeLatest s = (session, sample)) : session.queue.length ≤ 2 := by
  simp [(takeLatest_mem taken).1]

theorem worker_pooled {s next : State} {events : List Event} (pooled : Pooled s)
    (moved : WorkerMoved s next events) : Pooled next ∧ .starved ∉ events := by
  have worker := worker_frugal pooled.worker moved
  have used (f) (used : next.Used f) : s.Used f := worker_used moved used
  cases moved with
  | took phase taken => exact ⟨pooled.advance rfl (takeLatest_length taken) worker used, by simp⟩
  | _ => exact ⟨pooled.advance rfl pooled.queue worker used, by simp⟩

theorem teardown_pooled {s next : State} {events : List Event} (pooled : Pooled s)
    (moved : TeardownMoved s next events) : Pooled next ∧ .starved ∉ events := by
  have same {t : Session} {withheld : Option Buffer} {teardown : Teardown}
      (queue : t.queue = s.session.queue) :
      Pooled { s.setSession t with withheld := withheld, teardown := teardown } := by
    refine pooled.advance rfl ?_ pooled.worker fun f used => ?_
    · exact queue.symm ▸ pooled.queue
    · exact used.imp (fun queued => queue ▸ queued) id
  cases moved with
  | stopped => exact ⟨same (t := s.session.stop) rfl, by simp⟩
  | settled => exact ⟨same (t := { s.session with converter := _ }) rfl, by simp⟩
  | _ => exact ⟨same (t := s.session) rfl, by simp⟩

theorem step_pooled {s next : State} {a : Action} {events : List Event} (valid : Invariant s)
    (pooled : Pooled s) (taken : step s a = some (next, events)) :
    Pooled next ∧ .starved ∉ events := by
  cases a with
  | process a =>
    have moved := processStep_moved taken
    exact ⟨process_pooled valid pooled moved, process_fed pooled moved⟩
  | control a => exact control_pooled pooled (controlStep_moved taken)
  | worker a => exact worker_pooled pooled (workerStep_moved taken)
  | teardown => exact teardown_pooled pooled (teardownStep_moved taken)
  | gpu finished =>
    cases taken
    exact ⟨pooled.advance rfl pooled.queue pooled.worker fun _ used => used, by simp⟩

/-- In every run, every call of `consume` finds a frame that nobody has and never drops for
want of one, and nobody has the frame that it writes. -/
theorem frame_pool_sufficient {intel : Bool} {memory : Memory} {actions : List Action} {s : State}
    {trace : List Event}
    (run : Machine.exec step actions (.initial intel memory) = some (s, trace)) :
    Event.starved ∉ trace ∧
      (∀ b, s.process = .consuming b → ∃ f, ¬s.Used f) ∧
      (∀ f, s.process.frame = some f → ¬s.Used f) := by
  have kept := Machine.history
    (fun s trace => Invariant s ∧ Pooled s ∧ Event.starved ∉ trace)
    ⟨initial_invariant intel memory, initial_pooled intel memory, List.not_mem_nil⟩
    (by
      rintro s trace a next events ⟨valid, pooled, fed⟩ taken
      obtain ⟨pooled', fed'⟩ := step_pooled valid pooled taken
      exact ⟨step_invariant valid taken, pooled', by simp [fed, fed']⟩) run
  obtain ⟨_, pooled, fed⟩ := kept
  exact ⟨fed, fun _ _ => exists_unused pooled.queue pooled.worker, pooled.chosen⟩

/-- The worker encodes the first frame and keeps it as its last sample while the data thread
looks for a frame for the second buffer. -/
def secondFrame : List Action :=
  convertScreen .completed ++ [
    .process (.push 0), .process .requeue, .worker .check, .worker .take, .worker (.map false),
    .worker (.reference none), .worker .encoded, .worker .move, .worker .unmap, .process .enter,
    .process .lock, .process .recheck, .process (.dequeue (some 8)), .process (.dequeue none),
    .process (.consume screen), .process .scan, .process .scan]

theorem frame_pool_sufficient_sample :
    ∃ s trace, Machine.exec step secondFrame (.initial true .auto) = some (s, trace) ∧
      s.process = .chosen 8 screen 1 ∧ s.worker.lastSample = some 0 ∧ ¬s.Used 1 := by
  have reached : (Machine.exec step secondFrame (.initial true .auto)).map
      (fun r => (r.1.process, r.1.worker.lastSample)) =
        some (.chosen 8 screen 1, some 0) := by
    decide +kernel
  obtain ⟨⟨s, trace⟩, run, result⟩ := Option.map_eq_some_iff.mp reached
  obtain ⟨process, last⟩ : s.process = .chosen 8 screen 1 ∧ s.worker.lastSample = some 0 :=
    Prod.mk.inj result
  exact ⟨s, trace, run, process, last,
    (frame_pool_sufficient run).2.2 1 (by rw [process]; rfl)⟩

end Quest.Capture
