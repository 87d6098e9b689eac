import Quest.CaptureAllowance

/-! The retry of a stream worker whose capture memory is `auto` and whose encoder has a
converter: one CPU session for a DMA-BUF session that fails, where the failure is thrown by
`next` and not by the construction of the session, and where no check for want of frames ends
the worker before its CPU session has had its time. -/
namespace Quest.Capture

namespace Stream

/-- Sessions that are opened and sessions that fail, either when made or later. -/
def Event.outcome : Event → Bool
  | .opened _ | .failed _ _ => true
  | .session _ | .noFrames _ _ _ | .noVideo _ _ _ => false

def outcomes (trace : List Event) : List Event := trace.filter Event.outcome

theorem outcomes_append (first rest : List Event) :
    outcomes (first ++ rest) = outcomes first ++ outcomes rest := List.filter_append ..

theorem outcomes_sessions (events : List Capture.Event) : outcomes (events.map .session) = [] := by
  simp [outcomes, Event.outcome]

def Unconverted (s : Stream) : Prop := ∀ c, s.capture = some c → c.session.converter = none

inductive Course (s : Stream) : List Event → Prop where
  | unopened : s.stage = .opening → s.converter = true → Course s []
  | first : s.stage ≠ .opening → s.stage ≠ .retrying → s.converter = true →
      Course s [.opened true]
  | retrying : s.stage = .retrying → Course s [.opened true, .failed true false]
  | second : s.stage ≠ .opening → s.stage ≠ .retrying → s.converter = false → s.Unconverted →
      Course s [.opened true, .failed true false, .opened false]
  | lost : s.stage = .ended → s.Unconverted →
      Course s [.opened true, .failed true false, .opened false, .failed false true]
  | unmade : s.stage = .ended → s.capture = none →
      Course s [.opened true, .failed true false, .failed false true]

/-- The worker of `--capture-memory auto` on an Intel encoder. -/
structure Automatic (s : Stream) (trace : List Event) : Prop where
  memory : s.memory = .auto
  course : s.Course (outcomes trace)

def FirstMade (s : Stream) (a : Action) : Prop :=
  s.stage = .opening → match a with
    | .open made => made = true
    | _ => True

theorem Course.opening {s : Stream} {before : List Event} (course : s.Course before)
    (opening : s.stage = .opening) : before = [] ∧ s.converter = true := by
  cases course with
  | unopened _ converting => exact ⟨rfl, converting⟩
  | first unopened => exact absurd opening unopened
  | retrying retrying => simp [opening] at retrying
  | second unopened => exact absurd opening unopened
  | lost ended => simp [opening] at ended
  | unmade ended => simp [opening] at ended

theorem Course.replacing {s : Stream} {before : List Event} (course : s.Course before)
    (retrying : s.stage = .retrying) : before = [.opened true, .failed true false] := by
  cases course with
  | unopened opening => simp [retrying] at opening
  | first _ different => exact absurd retrying different
  | retrying => rfl
  | second _ different => exact absurd retrying different
  | lost ended => simp [retrying] at ended
  | unmade ended => simp [retrying] at ended

/-- A step that neither opens nor loses a session. -/
theorem Course.keep {s next : Stream} {before : List Event} (course : s.Course before)
    (opening : next.stage = .opening ↔ s.stage = .opening)
    (retrying : next.stage = .retrying ↔ s.stage = .retrying)
    (ended : s.stage = .ended → next.stage = .ended) (converter : next.converter = s.converter)
    (without : s.Unconverted → next.Unconverted) (empty : s.capture = none → next.capture = none) :
    next.Course before := by
  cases course with
  | unopened stage converting => exact .unopened (opening.mpr stage) (converter.trans converting)
  | first unopened calm converting =>
    exact .first (mt opening.mp unopened) (mt retrying.mp calm) (converter.trans converting)
  | retrying stage => exact .retrying (retrying.mpr stage)
  | second unopened calm bare unconverted =>
    exact .second (mt opening.mp unopened) (mt retrying.mp calm) (converter.trans bare)
      (without unconverted)
  | lost stage unconverted => exact .lost (ended stage) (without unconverted)
  | unmade stage unset => exact .unmade (ended stage) (empty unset)

theorem Unconverted.advance {s next : Stream} {c after : State} {a : Capture.Action}
    {emitted : List Capture.Event} (without : s.Unconverted) (present : s.capture = some c)
    (taken : Capture.step c a = some (after, emitted)) (capture : next.capture = some after) :
    next.Unconverted := by
  intro other same
  obtain rfl : after = other := Option.some.inj (capture.symm.trans same)
  have bare : after.session.converter.isSome = false := by
    rw [step_converting taken, without c present]
    rfl
  exact Option.isNone_iff_eq_none.mp (Option.isSome_eq_false_iff.mp bare)

/-- Only a failing `next` leaves the loop for its handler, and only with a converter. -/
theorem reach_failure {s : Stream} (memory : s.memory = .auto) (w : WorkerAction)
    (before after : Phase) :
    (outcomes (s.failure w after) = [] ∧ s.reach w before after ≠ .opening ∧
        s.reach w before after ≠ .retrying) ∨
      (s.converter = true ∧ outcomes (s.failure w after) = [.failed true false] ∧
        s.reach w before after = .retrying) ∨
      (s.converter = false ∧ outcomes (s.failure w after) = [.failed false true] ∧
        s.reach w before after = .ended) := by
  by_cases failing : w = .check ∧ after = .left
  · obtain ⟨rfl, rfl⟩ := failing
    cases converting : s.converter with
    | true =>
      refine .inr (.inl ⟨rfl, ?_, ?_⟩)
      · simp [failure, converting, memory, outcomes, Event.outcome]
      · simp [reach, memory, converting]
    | false =>
      refine .inr (.inr ⟨rfl, ?_, ?_⟩)
      · simp [failure, converting, outcomes, Event.outcome]
      · simp [reach, converting]
  · refine .inl ⟨?_, ?_⟩
    · have silent : s.failure w after = [] := by
        simp only [failure]
        split
        · exact absurd ⟨rfl, rfl⟩ failing
        · rfl
      rw [silent]
      rfl
    · cases after with
      | left =>
        cases w with
        | check => exact absurd ⟨rfl, rfl⟩ failing
        | _ => simp [reach]
      | head =>
        have reached : s.reach w before .head = if before = .head then .looping else .checking := by
          cases w <;> rfl
        rw [reached]
        split <;> simp
      | _ => cases w <;> simp [reach]

/-- A step of the worker inside its loop. -/
theorem worked_course {s : Stream} {c after : State} {w : WorkerAction}
    {emitted : List Capture.Event} {before : List Event} (memory : s.memory = .auto)
    (course : s.Course before) (looping : s.stage = .looping) (present : s.capture = some c)
    (worked : workerStep c w = some (after, emitted)) :
    Course { s with
      capture := some after
      consumed := s.consumed + w.consumes
      delivered := s.delivered + (samples emitted).length
      stage := s.reach w c.worker.phase after.worker.phase }
      (before ++ outcomes (s.failure w after.worker.phase)) := by
  have without (unconverted : s.Unconverted) (stage : Stage) (consumed delivered : Nat) :
      Unconverted { s with
        capture := some after, consumed := consumed, delivered := delivered, stage := stage } :=
    unconverted.advance present (a := .worker w) worked rfl
  cases course with
  | first _ _ converting =>
    rcases reach_failure memory w c.worker.phase after.worker.phase with
      ⟨silent, unopened, calm⟩ | ⟨_, failed, retrying⟩ | ⟨bare, _⟩
    · rw [silent]
      exact .first unopened calm converting
    · rw [failed]
      exact .retrying retrying
    · simp [converting] at bare
  | second _ _ bare unconverted =>
    rcases reach_failure memory w c.worker.phase after.worker.phase with
      ⟨silent, unopened, calm⟩ | ⟨converting, _⟩ | ⟨_, failed, ended⟩
    · rw [silent]
      exact .second unopened calm bare (without unconverted _ _ _)
    · simp [bare] at converting
    · rw [failed]
      exact .lost ended (without unconverted _ _ _)
  | unopened opening => simp [looping] at opening
  | retrying retrying => simp [looping] at retrying
  | lost ended => simp [looping] at ended
  | unmade ended => simp [looping] at ended

theorem step_automatic {s next : Stream} {a : Action} {trace events : List Event}
    (automatic : s.Automatic trace) (first : s.FirstMade a)
    (taken : step s a = some (next, events)) : next.Automatic (trace ++ events) := by
  obtain ⟨memory, course⟩ := automatic
  cases step_moved taken with
  | waited =>
    rw [List.append_nil]
    exact ⟨memory, course.keep Iff.rfl Iff.rfl id rfl id id⟩
  | refused _ barred => simp [memory] at barred
  | made opening =>
    obtain ⟨unopened, converting⟩ := course.opening opening
    refine ⟨memory, ?_⟩
    rw [outcomes_append, unopened, converting]
    exact .first (by simp) (by simp) converting
  | unmade opening => exact absurd (first opening) (by decide)
  | replaced retrying =>
    refine ⟨memory, ?_⟩
    rw [outcomes_append, course.replacing retrying]
    refine .second (by simp) (by simp) rfl ?_
    rintro _ ⟨⟩
    simp [State.initial]
  | unreplaced retrying =>
    refine ⟨memory, ?_⟩
    rw [outcomes_append, course.replacing retrying]
    exact .unmade rfl rfl
  | begun opened =>
    rw [List.append_nil]
    refine ⟨memory, course.keep ?_ ?_ ?_ rfl id id⟩ <;> simp [opened]
  | worked looping present worked =>
    refine ⟨memory, ?_⟩
    rw [outcomes_append, outcomes_append, outcomes_sessions, List.nil_append]
    exact worked_course memory course looping present worked
  | @drained _ w _ _ ended present worked =>
    refine ⟨memory, ?_⟩
    rw [outcomes_append, outcomes_sessions, List.append_nil]
    refine course.keep Iff.rfl Iff.rfl id rfl (fun unconverted => ?_) (by simp [present])
    exact unconverted.advance present (a := .worker w) worked rfl
  | passed present stepped =>
    refine ⟨memory, ?_⟩
    rw [outcomes_append, outcomes_sessions, List.append_nil]
    refine course.keep Iff.rfl Iff.rfl id rfl (fun unconverted => ?_) (by simp [present])
    exact unconverted.advance present stepped rfl
  | @late c checking present =>
    refine ⟨memory, ?_⟩
    rw [outcomes_append, show outcomes [Event.noFrames _ _ _] = [] from rfl, List.append_nil]
    refine course.keep ?_ ?_ ?_ rfl ?_ (by simp [present])
    · simp [checking]
    · simp [checking]
    · simp
    · rintro unconverted _ ⟨⟩
      exact unconverted c present
  | timely checking =>
    rw [List.append_nil]
    refine ⟨memory, course.keep ?_ ?_ ?_ rfl id id⟩ <;> simp [checking]
  | @flushing c kept leaving present =>
    rw [List.append_nil]
    refine ⟨memory, course.keep Iff.rfl Iff.rfl id rfl ?_ (by simp [present])⟩
    rintro unconverted _ ⟨⟩
    exact unconverted c present
  | empty leaving =>
    refine ⟨memory, ?_⟩
    rw [outcomes_append, show outcomes [Event.noVideo _ _ _] = [] from rfl, List.append_nil]
    refine course.keep ?_ ?_ ?_ rfl id id <;> simp [leaving]
  | finished leaving =>
    rw [List.append_nil]
    refine ⟨memory, course.keep ?_ ?_ ?_ rfl id id⟩ <;> simp [leaving]

def Event.opens : Event → Bool
  | .opened _ => true
  | _ => false

/-- An error for want of frames is raised against a CPU session that has delivered nothing for
the whole allowance. -/
def Event.Warranted : Event → Prop
  | .noFrames converting age delivered | .noVideo converting age delivered =>
    converting = false ∧ delivered = 0 ∧ firstFrameAllowance < age
  | _ => True

/-- A capture error that ends the worker is one of the CPU session. -/
def Event.Excused : Event → Prop
  | .failed converting ends => ends = true → converting = false
  | e => e.Warranted

instance : DecidablePred Event.Warranted
  | .noFrames _ _ _ | .noVideo _ _ _ => inferInstanceAs (Decidable (_ ∧ _ ∧ _))
  | .opened _ | .session _ | .failed _ _ => isTrue trivial

theorem excused_iff (e : Event) : e.Excused ↔ e ≠ .failed true true ∧ e.Warranted := by
  cases e with
  | failed converting ends => cases converting <;> cases ends <;> simp [Event.Excused, Event.Warranted]
  | _ => simp [Event.Excused]

/-- What `auto` promises: a DMA-BUF session that fails does not end the worker and is replaced
by one CPU session, which may fail in turn, when it is made or later, and which has no
converter. In `retrying` the failed session is still being destroyed. -/
structure Retried (s : Stream) (trace : List Event) : Prop where
  replaced : ∀ before ends after, outcomes trace = before ++ .failed true ends :: after →
    if s.stage = .retrying then after = []
    else after = [.opened false] ∨ after = [.failed false true] ∨
      after = [.opened false, .failed false true]
  unconverted : (∃ ends, .failed true ends ∈ trace) → s.stage ≠ .retrying → s.Unconverted
  twice : trace.countP Event.opens ≤ 2
  lost : ∀ e ∈ trace, e.Excused

theorem mem_outcomes {trace : List Event} {e : Event} (outcome : e.outcome = true) :
    e ∈ outcomes trace ↔ e ∈ trace := by
  simp [outcomes, outcome]

theorem countP_outcomes (trace : List Event) :
    (outcomes trace).countP Event.opens = trace.countP Event.opens := by
  rw [outcomes, List.countP_filter]
  apply List.countP_congr
  intro e _
  cases e <;> simp [Event.opens, Event.outcome]

theorem replaced_rest {rest before after : List Event} {ends : Bool}
    (last : ∀ ends, .failed true ends ∉ rest)
    (split : .opened true :: .failed true false :: rest = before ++ .failed true ends :: after) :
    after = rest := by
  rcases before with _ | ⟨_, _ | ⟨_, before⟩⟩
  · simp at split
  · simpa using (List.cons_eq_cons.mp (List.cons_eq_cons.mp split).2).2.symm
  · refine absurd ?_ (last ends)
    rw [(List.cons_eq_cons.mp (List.cons_eq_cons.mp split).2).2]
    simp

/-- The DMA-BUF session does not end the worker. -/
theorem Automatic.kept {s : Stream} {trace : List Event} (automatic : s.Automatic trace) :
    .failed true true ∉ trace := by
  rw [← mem_outcomes rfl]
  have course := automatic.course
  generalize outcomes trace = found at course ⊢
  cases course <;> simp

theorem Automatic.retried {s : Stream} {trace : List Event} (automatic : s.Automatic trace)
    (warranted : ∀ e ∈ trace, e.Warranted) : s.Retried trace := by
  have course := automatic.course
  have members {converting ends : Bool} :
      .failed converting ends ∈ trace ↔ .failed converting ends ∈ outcomes trace :=
    (mem_outcomes rfl).symm
  have opened := countP_outcomes trace
  generalize same : outcomes trace = found at course members opened
  refine ⟨?_, ?_, ?_, ?_⟩
  · intro before ends after split
    rw [same] at split
    have failed : .failed true ends ∈ found := by simp [split]
    cases course with
    | unopened => simp at failed
    | first => simp at failed
    | retrying retrying =>
      rw [if_pos retrying]
      exact replaced_rest (by simp) split
    | second _ calm =>
      rw [if_neg calm]
      exact .inl (replaced_rest (by simp) split)
    | lost ended =>
      rw [if_neg (by simp [ended])]
      exact .inr (.inr (replaced_rest (by simp) split))
    | unmade ended =>
      rw [if_neg (by simp [ended])]
      exact .inr (.inl (replaced_rest (by simp) split))
  · rintro ⟨ends, failed⟩ calm
    rw [members] at failed
    cases course with
    | unopened => simp at failed
    | first => simp at failed
    | retrying retrying => exact absurd retrying calm
    | second _ _ _ unconverted => exact unconverted
    | lost _ unconverted => exact unconverted
    | unmade _ unset => simp [Unconverted, unset]
  · rw [← opened]
    cases course <;> decide
  · intro e member
    refine (excused_iff e).mpr ⟨?_, warranted e member⟩
    rintro rfl
    exact automatic.kept member

theorem firstMade_iff {s next : Stream} {a : Action} {trace events : List Event}
    (automatic : s.Automatic trace) (taken : step s a = some (next, events)) :
    s.FirstMade a ↔ ∀ e ∈ events, e ≠ .failed true true := by
  constructor
  · rintro made _ member rfl
    exact (step_automatic automatic made taken).kept (List.mem_append_right _ member)
  · intro good opening
    cases a with
    | «open» made =>
      by_contra unmade
      obtain ⟨_, converting⟩ := automatic.course.opening opening
      simp only [step, openStep, opening, automatic.memory, unmade, converting] at taken
      cases taken
      exact good _ (by simp) rfl
    | _ => trivial

instance (s : Stream) : DecidablePred s.FirstMade
  | .«open» made => inferInstanceAs (Decidable (s.stage = .opening → made = true))
  | .wait _ | .begin | .capture _ | .verify | .finish _ => isTrue fun _ => trivial

/-- A check for want of frames finds nothing delivered while no CPU session has had its
allowance. -/
def Starved (first : List Action) (_ : Stream) (before : List Event) (a : Action) : Prop :=
  (a = .verify ∧ Exceeded (ages first).loop ∨ a = .finish true) ∧
    samples (inUse before) = [] ∧ ¬Exceeded (ages first).retried

theorem starved_iff {first : List Action} {s next : Stream} {before events : List Event} {a : Action}
    (run : Machine.exec step first (.initial true .auto) = some (s, before))
    (taken : step s a = some (next, events)) :
    (∀ e ∈ events, e.Warranted) ↔ ¬Starved first s before a := by
  have warranted {converting : Bool} {age : Nat} (standing : Standing true (ages first) converting age) :
      converting = false ∧ firstFrameAllowance < age ↔ Exceeded (ages first).retried := by
    rcases standing with ⟨retried, _, converting⟩ | ⟨retried, bare⟩
    · simp [retried, converting, Exceeded]
    · simp [retried, bare, Exceeded]
  cases step_checked run taken with
  | late converting age got exceeded standing =>
    simp only [List.mem_singleton, forall_eq, Event.Warranted, Starved, got, exceeded, true_and,
      and_true, true_or, not_not]
    exact warranted standing
  | timely quiet =>
    refine iff_of_true (by simp) ?_
    rintro ⟨⟨_, exceeded⟩ | different, got, _⟩
    · exact quiet ⟨got, exceeded⟩
    · contradiction
  | empty converting age got standing =>
    simp only [List.mem_singleton, forall_eq, Event.Warranted, Starved, got, true_and, or_true,
      not_not]
    exact warranted standing
  | finished filled =>
    refine iff_of_true (by simp) ?_
    rintro ⟨⟨different, _⟩ | flushed, got, _⟩
    · contradiction
    · exact filled ⟨Action.finish.inj flushed, got⟩
  | aside checks leaves quiet =>
    refine iff_of_true (fun e member => ?_) ?_
    · have := quiet e member
      cases e <;> trivial
    · rintro ⟨⟨same, _⟩ | same, _⟩
      · exact checks same
      · exact leaves true same

theorem warranted_iff {actions : List Action} {s : Stream} {trace : List Event}
    (run : Machine.exec step actions (.initial true .auto) = some (s, trace)) :
    (∀ e ∈ trace, e.Warranted) ↔
      ¬Machine.Occurs step Starved actions (.initial true .auto) :=
  Machine.emitted_iff_not_occurs (fun _ _ _ _ _ _ => starved_iff) run

/-- In auto mode a failing DMA-BUF session is replaced, and only its CPU session can end the
worker, in every run in which the first session is made and no session is starved. -/
theorem gpu_failure_retried {actions : List Action} {s : Stream} {trace : List Event}
    (run : Machine.exec step actions (.initial true .auto) = some (s, trace)) :
    Machine.Along step FirstMade actions (.initial true .auto) ∧
        ¬Machine.Occurs step Starved actions (.initial true .auto) ↔ s.Retried trace := by
  have initially : Automatic (.initial true .auto) [] := ⟨rfl, .unopened rfl rfl⟩
  rw [← warranted_iff run]
  constructor
  · rintro ⟨made, warranted⟩
    exact (Machine.guarded_history Automatic
      (fun _ _ _ _ _ automatic first taken => step_automatic automatic first taken)
      [] initially made run).retried warranted
  · intro retried
    have excused (e : Event) (member : e ∈ trace) := (excused_iff e).mp (retried.lost e member)
    refine ⟨?_, fun e member => (excused e member).2⟩
    apply (Machine.along_iff_emitted_after Automatic
      (fun _ _ _ _ _ automatic first taken => step_automatic automatic first taken)
      (fun _ _ _ _ _ automatic taken => firstMade_iff automatic taken) [] initially run).mpr
    exact fun e member => (excused e member).1

/-- The DMA-BUF session fails in its first `next`; the CPU session that replaces it runs. -/
def retriedOnce : List Action :=
  [.open true, .begin] ++ retry ++ silentBody 250000000

theorem gpu_failure_retried_once :
    ∃ s trace, Machine.exec step retriedOnce (.initial true .auto) = some (s, trace) ∧
      .failed true false ∈ trace ∧ s.Retried trace := by
  have reached : ((Machine.exec step retriedOnce (.initial true .auto)).map fun r =>
      (decide (.failed true false ∈ r.2), decide (∀ e ∈ r.2, e.Warranted))) =
        some (true, true) := by
    decide +kernel
  obtain ⟨⟨s, trace⟩, run, result⟩ := Option.map_eq_some_iff.mp reached
  obtain ⟨failed, warranted⟩ := Prod.mk.inj result
  have made : Machine.Along step FirstMade retriedOnce (.initial true .auto) := by decide +kernel
  exact ⟨s, trace, run, of_decide_eq_true failed, (gpu_failure_retried run).mp
    ⟨made, (warranted_iff run).mp (of_decide_eq_true warranted)⟩⟩

/-- The surfaces of the first session cannot be allocated, and no CPU session is tried. -/
theorem first_session_not_retried :
    ¬∀ (actions : List Action) (s : Stream) (trace : List Event),
      Machine.exec step actions (.initial true .auto) = some (s, trace) → s.Retried trace := by
  intro always
  have retried := always [.open false] _ [.failed true true] rfl
  have excused := retried.lost (.failed true true) (by simp)
  exact absurd (excused rfl) (by decide)

end Stream

end Quest.Capture
