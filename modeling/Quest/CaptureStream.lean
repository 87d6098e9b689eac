import Quest.CaptureCounts

/-! One stream worker over its capture sessions: the loop of `stream_main` that counts the
samples it has encoded, replaces a failing DMA-BUF session by a CPU session, and gives up
when no frame has come, at the end of a loop body or after the loop. A session is driven step
by step while it is in use. -/
namespace Quest.Capture

/-- `std::chrono::seconds(10)`, in nanoseconds. -/
def firstFrameAllowance : Nat := 10000000000

/-- Where the worker stands: `checking` is the end of the loop body, `retrying` the handler
around `next`, `leaving` what follows the loop up to its last check. -/
inductive Stage where
  | opening
  | opened
  | looping
  | checking
  | retrying
  | leaving
  | ended
  deriving DecidableEq, Repr

/-- The locals of the worker and the reading of its clock. The session in use was opened at
`opened` and has delivered `delivered` samples since, which the source does not record. -/
structure Stream where
  intel : Bool
  memory : Memory
  converter : Bool
  stage : Stage
  capture : Option State
  now : Nat
  started : Nat
  consumed : Nat
  opened : Nat
  delivered : Nat

namespace Stream

def initial (intel : Bool) (memory : Memory) : Stream :=
  ⟨intel, memory, intel && memory != .cpu, .opening, none, 0, 0, 0, 0, 0⟩

/-- What a run shows: sessions that are opened and that fail, with or without ending the
worker, what happens in the session in use, and the errors for want of frames, in the loop and
after it, with the age of that session and its deliveries. -/
inductive Event where
  | opened (converting : Bool)
  | session (e : Capture.Event)
  | failed (converting ends : Bool)
  | noFrames (converting : Bool) (age delivered : Nat)
  | noVideo (converting : Bool) (age delivered : Nat)
  deriving DecidableEq, Repr

inductive Action where
  | wait (elapsed : Nat)
  | open (made : Bool)
  | begin
  | capture (a : Capture.Action)
  | verify
  | finish (flushed : Bool)

def use (s : Stream) (memory : Memory) : Stream :=
  { s with capture := some (.initial s.intel memory), opened := s.now, delivered := 0 }

/-- The first session is made outside the handler, the second inside it. -/
def openStep (s : Stream) (made : Bool) : Option (Stream × List Event) :=
  match s.stage, s.capture with
  | .opening, _ =>
    if s.memory = .dmabuf ∧ s.converter = false then some ({ s with stage := .ended }, [])
    else if made then some ({ s.use s.memory with stage := .opened }, [.opened s.converter])
    else some ({ s with stage := .ended }, [.failed s.converter true])
  | .retrying, some c =>
    if c.teardown = .destroyed then
      let released := { s with converter := false }
      if made then
        some ({ released.use .cpu with consumed := 0, stage := .looping }, [.opened false])
      else some ({ released with capture := none, stage := .ended }, [.failed false true])
    else none
  | _, _ => none

/-- Where a step of the worker leads: a failing `next` to its handler, the loop's own end to
what follows it, any other way out to the end, and the end of a loop body to its check. -/
def reach (s : Stream) (w : WorkerAction) (before after : Phase) : Stage :=
  match w, after with
  | .check, .left => if s.memory = .auto ∧ s.converter = true then .retrying else .ended
  | .leave, .left => .leaving
  | _, .left => .ended
  | _, .head => if before = .head then .looping else .checking
  | _, _ => .looping

end Stream

/-- `++consumed` comes with the move of the sample. -/
def WorkerAction.consumes : WorkerAction → Nat
  | .move => 1
  | _ => 0

namespace Stream

def failure (s : Stream) (w : WorkerAction) (after : Phase) : List Event :=
  match w, after with
  | .check, .left => [.failed s.converter (s.memory ≠ .auto ∨ s.converter = false)]
  | _, _ => []

/-- After the loop the encoder still lets go of frames; the locals go at the end. -/
def workStep (s : Stream) (c : State) (w : WorkerAction) : Option (Stream × List Event) :=
  match s.stage, w with
  | .looping, w => (workerStep c w).map fun (next, events) =>
      ({ s with
          capture := some next
          consumed := s.consumed + w.consumes
          delivered := s.delivered + (samples events).length
          stage := s.reach w c.worker.phase next.worker.phase },
        events.map .session ++ s.failure w next.worker.phase)
  | .leaving, .forget kept =>
    some ({ s with capture := some (c.setWorker { c.worker with refs := c.worker.refs.filter kept }) },
      [])
  | .ended, w => (workerStep c w).map fun (next, events) =>
      ({ s with capture := some next, delivered := s.delivered + (samples events).length },
        events.map .session)
  | _, _ => none

def captureStep (s : Stream) (c : State) (a : Capture.Action) : Option (Stream × List Event) :=
  match a, s.stage with
  | .worker w, _ => s.workStep c w
  | .teardown, .leaving => none
  | a, _ => (Capture.step c a).map fun (next, events) =>
      ({ s with capture := some next }, events.map .session)

def verifyStep (s : Stream) (c : State) : Stream × List Event :=
  if s.consumed = 0 ∧ firstFrameAllowance < s.now - s.started then
    ({ s with
        capture := some (c.setWorker { c.worker with phase := .left })
        stage := .ended },
      [.noFrames s.converter (s.now - s.opened) s.delivered])
  else ({ s with stage := .looping }, [])

/-- `flush` of the encoder and of the file, and the last check. -/
def finishStep (s : Stream) (flushed : Bool) : Stream × List Event :=
  ({ s with stage := .ended },
    if flushed = true ∧ s.consumed = 0 then [.noVideo s.converter (s.now - s.opened) s.delivered]
    else [])

def step : Machine.Step Stream Action Event := fun s a =>
  match a, s.capture, s.stage with
  | .wait elapsed, _, _ => some ({ s with now := s.now + elapsed }, [])
  | .open made, _, _ => s.openStep made
  | .begin, _, .opened => some ({ s with started := s.now, consumed := 0, stage := .looping }, [])
  | .capture a, some c, _ => s.captureStep c a
  | .verify, some c, .checking => some (s.verifyStep c)
  | .finish flushed, some _, .leaving => some (s.finishStep flushed)
  | _, _, _ => none

/-- What happened in the session in use, given what had happened before. -/
def heard (past : List Capture.Event) : Event → List Capture.Event
  | .opened _ => []
  | .session e => past ++ [e]
  | .failed _ _ | .noFrames _ _ _ | .noVideo _ _ _ => past

def inUse (trace : List Event) : List Capture.Event := trace.foldl heard []

theorem inUse_snoc (trace : List Event) (e : Event) : inUse (trace ++ [e]) = heard (inUse trace) e :=
  List.foldl_append

theorem inUse_session (trace : List Event) (events : List Capture.Event) :
    inUse (trace ++ events.map .session) = inUse trace ++ events := by
  induction events using List.reverseRecOn with
  | nil => simp
  | append_singleton first e ih =>
    rw [List.map_append, ← List.append_assoc, List.map_singleton, inUse_snoc, ih, heard,
      List.append_assoc]

theorem inUse_failure (s : Stream) (w : WorkerAction) (after : Phase) (trace : List Event) :
    inUse (trace ++ s.failure w after) = inUse trace := by
  simp only [failure]
  split
  · apply inUse_snoc
  · rw [List.append_nil]

end Stream

def Worker.holding (w : Worker) : Nat := w.sample.elim 0 fun _ => 1

def Worker.Steady (w : Worker) : Prop := w.phase = .head ∨ w.phase = .waiting → w.sample = none

/-- While the worker stays in its loop, each delivery is held until it is counted. -/
theorem worker_holding {s next : State} {w : WorkerAction} {events : List Event}
    (steady : s.worker.Steady) (taken : workerStep s w = some (next, events))
    (inside : next.worker.phase ≠ .left) : next.worker.Steady ∧
      next.worker.holding + w.consumes = s.worker.holding + (samples events).length := by
  simp only [workerStep] at taken
  split at taken
  next phase =>
    split at taken <;> cases taken
    · have empty := steady (.inl phase)
      exact ⟨fun _ => empty, rfl⟩
    · contradiction
  next phase =>
    cases taken
    have empty := steady (.inr phase)
    refine ⟨by simp [Worker.Steady, State.setWorker], ?_⟩
    cases (takeLatest s.session).2 <;>
      simp [Worker.holding, WorkerAction.consumes, empty, samples, Event.deliveredImage,
        State.setWorker]
  next phase =>
    split at taken <;> cases taken
    · have empty := source_none ‹_›
      exact ⟨fun _ => empty, rfl⟩
    · exact ⟨by simp [Worker.Steady, State.setWorker], rfl⟩
  next phase =>
    obtain ⟨f, mapped, result⟩ := Option.map_eq_some_iff.mp taken
    cases result
    simp only [reference] at inside ⊢
    split at inside
    · exact ⟨by simp [Worker.Steady, State.setWorker], rfl⟩
    · split at inside
      · contradiction
      · rename_i begun
        cases begun
        · contradiction
        · exact ⟨by simp [Worker.Steady, State.setWorker], rfl⟩
    · contradiction
    · exact ⟨by simp [Worker.Steady, State.setWorker], rfl⟩
  next => cases taken; exact ⟨steady, rfl⟩
  next phase =>
    split at taken <;> cases taken
    exact ⟨by simp [Worker.Steady, State.setWorker], rfl⟩
  next phase =>
    split at taken <;> cases taken
    rename_i present
    obtain ⟨f, sample⟩ := Option.ne_none_iff_exists'.mp present
    refine ⟨fun _ => rfl, ?_⟩
    simp [Worker.holding, WorkerAction.consumes, sample, State.setWorker, samples]
  next phase =>
    split at taken <;> cases taken
    exact ⟨fun _ => ‹_›, rfl⟩
  next => contradiction
  next => cases taken; contradiction
  next => cases taken; contradiction
  next phase =>
    cases taken
    have left : s.worker.unwind.phase = .left := by
      simp only [Worker.unwind]
      split
      · exact phase
      · split <;> exact phase
    contradiction
  next => contradiction

/-- The other threads leave the worker alone, and return no samples. -/
theorem other_worker {s next : State} {a : Action} {events : List Event}
    (other : ∀ w, a ≠ .worker w) (taken : step s a = some (next, events)) :
    next.worker = s.worker ∧ samples events = [] := by
  cases a with
  | process a => cases processStep_moved taken <;> exact ⟨rfl, rfl⟩
  | control a =>
    have removal (session : Session) (b : Buffer) : samples [removedEvent session b] = [] := by
      simp only [removedEvent]; split <;> rfl
    cases controlStep_moved taken <;> exact ⟨rfl, by first | rfl | apply removal⟩
  | worker w => exact absurd rfl (other w)
  | teardown => cases teardownStep_moved taken <;> exact ⟨rfl, rfl⟩
  | gpu finished => cases taken; exact ⟨rfl, rfl⟩

namespace Stream

inductive Moved (s : Stream) : Action → Stream → List Event → Prop where
  | waited (elapsed : Nat) : Moved s (.wait elapsed) { s with now := s.now + elapsed } []
  | refused : s.stage = .opening → s.memory = .dmabuf →
      Moved s (.open made) { s with stage := .ended } []
  | made : s.stage = .opening →
      Moved s (.open true) { s.use s.memory with stage := .opened } [.opened s.converter]
  | unmade : s.stage = .opening →
      Moved s (.open false) { s with stage := .ended } [.failed s.converter true]
  | replaced : s.stage = .retrying →
      Moved s (.open true)
        { use { s with converter := false } .cpu with consumed := 0, stage := .looping }
        [.opened false]
  | unreplaced : s.stage = .retrying →
      Moved s (.open false) { s with converter := false, capture := none, stage := .ended }
        [.failed false true]
  | begun : s.stage = .opened →
      Moved s .begin { s with started := s.now, consumed := 0, stage := .looping } []
  | worked : s.stage = .looping → s.capture = some c → workerStep c w = some (after, emitted) →
      Moved s (.capture (.worker w))
        { s with
          capture := some after
          consumed := s.consumed + w.consumes
          delivered := s.delivered + (samples emitted).length
          stage := s.reach w c.worker.phase after.worker.phase }
        (emitted.map .session ++ s.failure w after.worker.phase)
  | drained : s.stage = .ended → s.capture = some c → workerStep c w = some (after, emitted) →
      Moved s (.capture (.worker w))
        { s with capture := some after, delivered := s.delivered + (samples emitted).length }
        (emitted.map .session)
  | passed : s.capture = some c → Capture.step c a = some (after, emitted) →
      after.worker = c.worker → samples emitted = [] →
      Moved s (.capture a) { s with capture := some after } (emitted.map .session)
  | late : s.stage = .checking → s.capture = some c →
      s.consumed = 0 ∧ firstFrameAllowance < s.now - s.started →
      Moved s .verify
        { s with capture := some (c.setWorker { c.worker with phase := .left }), stage := .ended }
        [.noFrames s.converter (s.now - s.opened) s.delivered]
  | timely : s.stage = .checking → s.capture = some c →
      ¬(s.consumed = 0 ∧ firstFrameAllowance < s.now - s.started) →
      Moved s .verify { s with stage := .looping } []
  | flushing (kept : Ref → Bool) : s.stage = .leaving → s.capture = some c →
      Moved s (.capture (.worker (.forget kept)))
        { s with
          capture := some (c.setWorker { c.worker with refs := c.worker.refs.filter kept }) } []
  | empty : s.stage = .leaving → s.capture = some c → s.consumed = 0 →
      Moved s (.finish true) { s with stage := .ended }
        [.noVideo s.converter (s.now - s.opened) s.delivered]
  | finished : s.stage = .leaving → s.capture = some c → ¬(flushed = true ∧ s.consumed = 0) →
      Moved s (.finish flushed) { s with stage := .ended } []

theorem openStep_moved {s next : Stream} {made : Bool} {events : List Event}
    (taken : s.openStep made = some (next, events)) : Moved s (.open made) next events := by
  simp only [openStep] at taken
  split at taken
  next opening =>
    split at taken
    next barred =>
      cases taken
      exact .refused opening barred.1
    next =>
      cases made <;> cases taken
      · exact .unmade opening
      · exact .made opening
  next retrying _ =>
    split at taken
    next =>
      cases made <;> cases taken
      · exact .unreplaced retrying
      · exact .replaced retrying
    next => contradiction
  next => contradiction

theorem captureStep_moved {s next : Stream} {c : State} {a : Capture.Action} {events : List Event}
    (present : s.capture = some c) (taken : s.captureStep c a = some (next, events)) :
    Moved s (.capture a) next events := by
  by_cases own : ∃ w, a = .worker w
  · obtain ⟨w, rfl⟩ := own
    simp only [captureStep, workStep] at taken
    split at taken
    next looping =>
      obtain ⟨_, worked, result⟩ := Option.map_eq_some_iff.mp taken
      cases result
      exact .worked looping present worked
    next kept leaving =>
      cases taken
      exact .flushing kept leaving present
    next ended =>
      obtain ⟨_, worked, result⟩ := Option.map_eq_some_iff.mp taken
      cases result
      exact .drained ended present worked
    next => contradiction
  · have passed : (Capture.step c a).map (fun (after, emitted) =>
        ({ s with capture := some after }, emitted.map Event.session)) = some (next, events) := by
      simp only [captureStep] at taken
      split at taken
      next w => exact absurd ⟨w, rfl⟩ own
      next => contradiction
      next => exact taken
    obtain ⟨_, stepped, result⟩ := Option.map_eq_some_iff.mp passed
    obtain ⟨worker, silent⟩ := other_worker (fun w same => own ⟨w, same⟩) stepped
    cases result
    exact .passed present stepped worker silent

theorem step_moved {s next : Stream} {a : Action} {events : List Event}
    (taken : step s a = some (next, events)) : Moved s a next events := by
  simp only [step] at taken
  split at taken
  next =>
    cases taken
    exact .waited _
  next => exact openStep_moved taken
  next opened =>
    cases taken
    exact .begun opened
  next present => exact captureStep_moved present taken
  next present checking =>
    simp only [verifyStep, Option.some.injEq] at taken
    split at taken
    next late =>
      cases taken
      exact .late checking present late
    next timely =>
      cases taken
      exact .timely checking present timely
  next flushed _ _ present leaving =>
    simp only [finishStep, Option.some.injEq] at taken
    split at taken
    next bare =>
      obtain ⟨rfl, none_⟩ := bare
      cases taken
      exact .empty leaving present none_
    next frames =>
      cases taken
      exact .finished leaving present frames
  next => contradiction

structure Counted (s : Stream) : Prop where
  opened : s.stage = .opened → ∀ c, s.capture = some c →
    c.worker.Steady ∧ c.worker.holding = 0 ∧ s.delivered = 0
  looping : s.stage = .looping ∨ s.stage = .checking → ∀ c, s.capture = some c →
    c.worker.Steady ∧ s.consumed + c.worker.holding = s.delivered
  checking : s.stage = .checking → ∀ c, s.capture = some c → c.worker.phase = .head
  leaving : s.stage = .leaving → s.consumed = s.delivered

theorem initial_counted (intel : Bool) (memory : Memory) : Counted (.initial intel memory) := by
  constructor <;> simp [initial]

/-- A session has been opened with nothing counted yet. -/
theorem used_counted (s : Stream) (memory : Memory) {stage : Stage} (inside : stage ≠ .checking)
    (before : stage ≠ .leaving) {consumed : Nat} (reset : stage = .looping → consumed = 0) :
    Counted { s.use memory with stage := stage, consumed := consumed } := by
  have steady : (State.initial s.intel memory).worker.Steady := fun _ => rfl
  refine ⟨?_, ?_, fun checking => absurd checking inside, fun leaving => absurd leaving before⟩
  · rintro _ c ⟨⟩
    exact ⟨steady, rfl, rfl⟩
  · rintro (looping | checking) c ⟨⟩
    · exact ⟨steady, reset looping⟩
    · exact absurd checking inside

theorem ended_counted {s : Stream} (ended : s.stage = .ended) : Counted s := by
  constructor <;> simp [ended]

theorem reach_cases (s : Stream) (w : WorkerAction) (before after : Phase) :
    (after = .left ∧ (s.reach w before after = .retrying ∨ s.reach w before after = .ended ∨
        w = .leave ∧ s.reach w before after = .leaving)) ∨
      after ≠ .left ∧ (s.reach w before after = .looping ∨
        after = .head ∧ s.reach w before after = .checking) := by
  cases after with
  | left =>
    refine .inl ⟨rfl, ?_⟩
    cases w with
    | check => simp only [reach]; split <;> simp
    | leave => exact .inr (.inr ⟨rfl, rfl⟩)
    | _ => exact .inr (.inl rfl)
  | head =>
    refine .inr ⟨by simp, ?_⟩
    have reached : s.reach w before .head = if before = .head then .looping else .checking := by
      cases w <;> rfl
    rw [reached]
    by_cases stays : before = .head <;> simp [stays]
  | _ => refine .inr ⟨by simp, .inl ?_⟩; cases w <;> rfl

/-- The worker leaves its loop from the head, where nothing is held. -/
theorem leave_balance {c after : State} {emitted : List Capture.Event} {consumed delivered : Nat}
    (steady : c.worker.Steady) (balance : consumed + c.worker.holding = delivered)
    (worked : workerStep c .leave = some (after, emitted)) :
    consumed + WorkerAction.leave.consumes = delivered + (samples emitted).length := by
  simp only [workerStep] at worked
  split at worked <;> simp_all [Worker.holding, Worker.Steady, WorkerAction.consumes, samples]

/-- A step of the worker inside its loop. -/
theorem worked_counted {s : Stream} {c after : State} {w : WorkerAction}
    {emitted : List Capture.Event} (counted : s.Counted) (looping : s.stage = .looping)
    (present : s.capture = some c) (worked : workerStep c w = some (after, emitted)) :
    Counted { s with
      capture := some after
      consumed := s.consumed + w.consumes
      delivered := s.delivered + (samples emitted).length
      stage := s.reach w c.worker.phase after.worker.phase } := by
  obtain ⟨steady, balance⟩ := counted.looping (.inl looping) c present
  have kept (inside : after.worker.phase ≠ .left) : after.worker.Steady ∧
      s.consumed + w.consumes + after.worker.holding =
        s.delivered + (samples emitted).length := by
    obtain ⟨steady', held⟩ := worker_holding steady worked inside
    exact ⟨steady', by omega⟩
  rcases reach_cases s w c.worker.phase after.worker.phase with
    ⟨_, retrying | ended | ⟨rfl, leaving⟩⟩ | ⟨inside, loops | ⟨head, checking⟩⟩
  · constructor <;> simp [retrying]
  · exact ended_counted ended
  · refine ⟨by simp [leaving], by simp [leaving], by simp [leaving], fun _ => ?_⟩
    exact leave_balance steady balance worked
  · refine ⟨by simp [loops], ?_, by simp [loops], by simp [loops]⟩
    rintro _ _ ⟨⟩
    exact kept inside
  · refine ⟨by simp [checking], ?_, ?_, by simp [checking]⟩
    · rintro _ _ ⟨⟩
      exact kept inside
    · rintro _ _ ⟨⟩
      exact head

/-- Steps of the session's other threads. -/
theorem Counted.setCapture {s : Stream} (counted : s.Counted) {c next : State}
    (present : s.capture = some c) (worker : next.worker = c.worker) :
    Counted { s with capture := some next } where
  opened := by
    rintro stage _ ⟨⟩
    rw [worker]
    exact counted.opened stage c present
  looping := by
    rintro stage _ ⟨⟩
    rw [worker]
    exact counted.looping stage c present
  checking := by
    rintro stage _ ⟨⟩
    rw [worker]
    exact counted.checking stage c present
  leaving := counted.leaving

theorem step_counted {s next : Stream} {a : Action} {events : List Event} (counted : s.Counted)
    (taken : step s a = some (next, events)) : Counted next := by
  cases step_moved taken with
  | waited => exact ⟨counted.opened, counted.looping, counted.checking, counted.leaving⟩
  | refused => exact ended_counted rfl
  | made => exact used_counted s s.memory (by simp) (by simp) (by simp)
  | unmade => exact ended_counted rfl
  | replaced =>
    exact used_counted { s with converter := false } .cpu (by simp) (by simp) (fun _ => rfl)
  | unreplaced => exact ended_counted rfl
  | begun stage =>
    refine ⟨by simp, ?_, by simp, by simp⟩
    intro _ c present
    obtain ⟨steady, empty, none_yet⟩ := counted.opened stage c present
    refine ⟨steady, ?_⟩
    show 0 + c.worker.holding = s.delivered
    omega
  | worked looping present worked => exact worked_counted counted looping present worked
  | drained ended => exact ended_counted ended
  | passed present _ worker => exact counted.setCapture present worker
  | late => exact ended_counted rfl
  | timely stage => exact ⟨by simp, fun _ => counted.looping (.inr stage), by simp, by simp⟩
  | flushing kept stage present =>
    exact ⟨by simp [stage], by simp [stage], by simp [stage], counted.leaving⟩
  | empty => exact ended_counted rfl
  | finished => exact ended_counted rfl

/-- At both checks of the worker every delivery has been consumed. -/
theorem Counted.settled {s : Stream} {c : State} (counted : s.Counted)
    (check : s.stage = .checking ∨ s.stage = .leaving) (present : s.capture = some c) :
    s.consumed = s.delivered := by
  rcases check with checking | leaving
  · obtain ⟨steady, balance⟩ := counted.looping (.inr checking) c present
    have head := counted.checking checking c present
    rw [Worker.holding, steady (.inl head)] at balance
    exact balance
  · exact counted.leaving leaving

/-- The session in use is a run of a session of its own, whose deliveries are counted. -/
def Recorded (s : Stream) (trace : List Event) : Prop :=
  ∀ c, s.capture = some c → s.delivered = (samples (inUse trace)).length ∧
    ∃ memory actions, Machine.exec Capture.step actions (.initial s.intel memory) =
      some (c, inUse trace)

theorem Recorded.extend {s next : Stream} {trace events : List Event} (recorded : s.Recorded trace)
    {c after : State} (present : s.capture = some c) {a : Capture.Action}
    {emitted : List Capture.Event} (taken : Capture.step c a = some (after, emitted))
    (intel : next.intel = s.intel) (capture : next.capture = some after)
    (delivered : next.delivered = s.delivered + (samples emitted).length)
    (heard : inUse (trace ++ events) = inUse trace ++ emitted) : next.Recorded (trace ++ events) := by
  intro other same
  obtain rfl : after = other := Option.some.inj (capture.symm.trans same)
  obtain ⟨counted, memory, actions, run⟩ := recorded c present
  refine ⟨?_, memory, actions ++ [a], ?_⟩
  · rw [heard, samples_append, List.length_append, delivered, counted]
  · rw [heard, intel]
    exact Machine.exec_append run (Machine.exec_single taken)

theorem Recorded.keep {s next : Stream} {trace events : List Event} (recorded : s.Recorded trace)
    (intel : next.intel = s.intel) (capture : next.capture = s.capture)
    (delivered : next.delivered = s.delivered) (heard : inUse (trace ++ events) = inUse trace) :
    next.Recorded (trace ++ events) := by
  intro c present
  rw [heard, intel, delivered]
  exact recorded c (capture ▸ present)

theorem use_recorded (s : Stream) (memory : Memory) (trace : List Event) (converting : Bool) :
    (s.use memory).Recorded (trace ++ [.opened converting]) := by
  rintro _ ⟨⟩
  rw [inUse_snoc]
  exact ⟨rfl, memory, [], rfl⟩

theorem step_recorded {s next : Stream} {a : Action} {trace events : List Event}
    (counted : s.Counted) (recorded : s.Recorded trace) (taken : step s a = some (next, events)) :
    next.Recorded (trace ++ events) := by
  cases step_moved taken with
  | waited => exact recorded.keep rfl rfl rfl (by rw [List.append_nil])
  | refused => exact recorded.keep rfl rfl rfl (by rw [List.append_nil])
  | made => exact use_recorded s s.memory trace s.converter
  | unmade => exact recorded.keep rfl rfl rfl (inUse_snoc _ _)
  | replaced => exact use_recorded { s with converter := false } .cpu trace false
  | unreplaced =>
    intro c present
    contradiction
  | begun => exact recorded.keep rfl rfl rfl (by rw [List.append_nil])
  | @worked _ w _ _ _ present worked =>
    refine recorded.extend present (a := .worker w) worked rfl rfl rfl ?_
    rw [← List.append_assoc, inUse_failure, inUse_session]
  | @drained _ w _ _ _ present worked =>
    exact recorded.extend present (a := .worker w) worked rfl rfl rfl (inUse_session _ _)
  | passed present stepped _ silent =>
    exact recorded.extend present stepped rfl rfl (by rw [silent]; rfl) (inUse_session _ _)
  | @late c stage present =>
    -- The exception leaves the loop from its head.
    have left : Capture.step c (.worker .leave) =
        some (c.setWorker { c.worker with phase := .left }, []) := by
      simp only [Capture.step, workerStep, counted.checking stage c present]
    exact recorded.extend present left rfl rfl rfl (by rw [inUse_snoc, List.append_nil]; rfl)
  | timely => exact recorded.keep rfl rfl rfl (by rw [List.append_nil])
  | @flushing c kept stage present =>
    have forgets : Capture.step c (.worker (.forget kept)) = some
        (c.setWorker { c.worker with refs := c.worker.refs.filter kept }, []) := by
      simp only [Capture.step, workerStep]
    exact recorded.extend present forgets rfl rfl rfl (by simp)
  | empty => exact recorded.keep rfl rfl rfl (inUse_snoc _ _)
  | finished => exact recorded.keep rfl rfl rfl (by rw [List.append_nil])

theorem reachable_counted {intel : Bool} {memory : Memory} {actions : List Action} {s : Stream}
    {trace : List Event}
    (run : Machine.exec step actions (.initial intel memory) = some (s, trace)) :
    s.Counted ∧ s.Recorded trace := by
  refine Machine.history (fun s trace => Counted s ∧ s.Recorded trace)
    ⟨initial_counted intel memory, by rintro c ⟨⟩⟩ ?_ run
  rintro s trace a next events ⟨counted, recorded⟩ taken
  exact ⟨step_counted counted taken, step_recorded counted recorded taken⟩

end Stream

/-- In a session without an error every arrival is dropped, returned or queued, outside
callbacks; what `next` returns is a part of the arrivals in their order, newest first in the
queue each time. At the head of its loop the worker has counted the samples of the session
in use. -/
theorem raw_frames_accounted :
    (∀ (intel : Bool) (memory : Memory) (actions : List Action) (s : State) (trace : List Event),
      Machine.exec step actions (.initial intel memory) = some (s, trace) →
      s.session.error = "" →
        s.session.arrivals = arrived trace ∧
        (s.process = .idle → s.session.arrivals =
          s.session.drops + (samples trace).length + s.session.queue.length) ∧
        s.session.queue.length ≤ 2 ∧
        (samples trace).Sublist (List.range' 1 s.session.arrivals) ∧
        Newest trace) ∧
    (∀ (intel : Bool) (memory : Memory) (actions : List Stream.Action) (s : Stream)
        (trace : List Stream.Event) (c : State),
      Machine.exec Stream.step actions (.initial intel memory) = some (s, trace) →
      s.capture = some c → s.stage = .looping → c.worker.phase = .head →
        s.consumed = (samples (Stream.inUse trace)).length) := by
  constructor
  · intro intel memory actions s trace run clean
    obtain ⟨pooled, booked⟩ := reachable_booked run
    refine ⟨booked.arrivals, fun idle => ?_, pooled.queue, booked.samples_sublist, booked.newest⟩
    have balanced := booked.balance clean
    rw [idle] at balanced
    exact balanced
  · intro intel memory actions s trace c run present looping head
    obtain ⟨counted, recorded⟩ := Stream.reachable_counted run
    obtain ⟨steady, balance⟩ := counted.looping (.inl looping) c present
    have empty : c.worker.holding = 0 := by rw [Worker.holding, steady (.inl head)]; rfl
    rw [← (recorded c present).1]
    omega

def firstSample : List Action :=
  convertScreen .completed ++
    [.process (.push 0), .process .requeue, .worker .check, .worker .take]

def encodeSample : List Action := [.worker (.map false), .worker (.reference none),
  .worker .encoded, .worker .move, .worker .unmap]

/-- The worker encodes the first sample of its first session. -/
def firstFrame : List Stream.Action :=
  [.open true, .begin] ++ (firstSample ++ encodeSample).map .capture ++ [.verify]

theorem raw_frames_accounted_sample :
    (∃ s trace, Machine.exec step firstSample (.initial true .auto) = some (s, trace) ∧
      s.session.arrivals = s.session.drops + (samples trace).length + s.session.queue.length ∧
      samples trace = [1]) ∧
    ∃ s trace, Machine.exec Stream.step firstFrame (.initial true .auto) = some (s, trace) ∧
      s.consumed = 1 ∧ s.consumed = (samples (Stream.inUse trace)).length := by
  constructor
  · have reached : (Machine.exec step firstSample (.initial true .auto)).map
        (fun r => (r.1.session.error, r.1.process, samples r.2)) = some ("", .idle, [1]) := by
      decide +kernel
    obtain ⟨⟨s, trace⟩, run, result⟩ := Option.map_eq_some_iff.mp reached
    obtain ⟨clean, rest⟩ := Prod.mk.inj result
    obtain ⟨idle, returned⟩ := Prod.mk.inj rest
    exact ⟨s, trace, run, (raw_frames_accounted.1 _ _ _ _ _ run clean).2.1 idle, returned⟩
  · have reached : (Machine.exec Stream.step firstFrame (.initial true .auto)).map
        (fun r => (r.1.stage, r.1.consumed, r.1.capture.map (·.worker.phase))) =
          some (.looping, 1, some .head) := by
      decide +kernel
    obtain ⟨⟨s, trace⟩, run, result⟩ := Option.map_eq_some_iff.mp reached
    obtain ⟨looping, rest⟩ := Prod.mk.inj result
    obtain ⟨consumed, phase⟩ := Prod.mk.inj rest
    obtain ⟨c, present, head⟩ := Option.map_eq_some_iff.mp phase
    exact ⟨s, trace, run, consumed, raw_frames_accounted.2 _ _ _ _ _ c run present looping head⟩

end Quest.Capture
