import Quest.CaptureStream

/-! The error for want of a first frame, against a clock that is read off the schedule: the time
since the loop was entered, which the check of the source measures, and the time since the retry
opened its session, which it does not. -/
namespace Quest.Capture

def Stage.inLoop : Stage → Bool
  | .looping | .checking | .retrying | .leaving => true
  | .opening | .opened | .ended => false

namespace Stream

/-- Times on the clock since the loop was entered and since the retry opened its session. -/
structure Ages where
  loop : Option Nat
  retried : Option Nat
  deriving DecidableEq

def Ages.after (t : Ages) : Action → Ages
  | .wait elapsed => ⟨t.loop.map (· + elapsed), t.retried.map (· + elapsed)⟩
  | .begin => { t with loop := some 0 }
  | .open true => ⟨t.loop, t.loop.map fun _ => 0⟩
  | _ => t

def ages (actions : List Action) : Ages := actions.foldl Ages.after ⟨none, none⟩

theorem ages_append (first rest : List Action) :
    ages (first ++ rest) = rest.foldl Ages.after (ages first) := List.foldl_append

theorem ages_snoc (actions : List Action) (a : Action) :
    ages (actions ++ [a]) = (ages actions).after a := ages_append actions [a]

/-- Once the retry has opened its session its age is known. -/
theorem foldl_retried (t : Ages) (rest : List Action) (entered : t.loop.isSome)
    (retried : t.retried.isSome) : (rest.foldl Ages.after t).retried.isSome := by
  induction rest generalizing t with
  | nil => exact retried
  | cons a rest ih =>
    refine ih (t.after a) ?_ ?_
    · cases a with
      | wait => rwa [Ages.after, Option.isSome_map]
      | «open» made => cases made <;> exact entered
      | _ => first | exact entered | rfl
    · cases a with
      | wait => rwa [Ages.after, Option.isSome_map]
      | «open» made =>
        cases made
        · exact retried
        · rwa [Ages.after, Option.isSome_map]
      | _ => exact retried

/-- The first session, which may be `offered` a converter, is older than the loop; a second one
was opened by the retry. -/
inductive Timed (offered : Bool) (s : Stream) (t : Ages) : Prop where
  | unentered : s.stage = .opening ∨ s.stage = .opened → s.opened ≤ s.now →
      s.converter = offered → t = ⟨none, none⟩ → Timed offered s t
  | first : s.stage.inLoop = true → s.started ≤ s.now → s.opened ≤ s.started →
      s.converter = offered → t = ⟨some (s.now - s.started), none⟩ → Timed offered s t
  | second : s.stage.inLoop = true → s.started ≤ s.now → s.opened ≤ s.now →
      s.converter = false → t = ⟨some (s.now - s.started), some (s.now - s.opened)⟩ → Timed offered s t
  | ended : s.stage = .ended → Timed offered s t

variable {offered : Bool}

theorem Timed.wait {s : Stream} {t : Ages} (timed : Timed offered s t) (elapsed : Nat) :
    Timed offered { s with now := s.now + elapsed } (t.after (.wait elapsed)) := by
  cases timed with
  | unentered stage opened converter same =>
    refine .unentered stage (Nat.le_add_right_of_le opened) converter ?_
    rw [same]
    rfl
  | first stage started opened converter same =>
    refine .first stage (Nat.le_add_right_of_le started) opened converter ?_
    rw [same]
    simp only [Ages.after, Option.map_some, Option.map_none, Nat.sub_add_comm started]
  | second stage started opened converter same =>
    refine .second stage (Nat.le_add_right_of_le started) (Nat.le_add_right_of_le opened) converter ?_
    rw [same]
    simp only [Ages.after, Option.map_some, Nat.sub_add_comm started, Nat.sub_add_comm opened]
  | ended stage => exact .ended stage

/-- Steps that take no time, do not enter the loop and open no session. -/
theorem Timed.keep {s next : Stream} {t : Ages} (timed : Timed offered s t)
    (inside : s.stage.inLoop = true → next.stage.inLoop = true ∨ next.stage = .ended)
    (outside : s.stage.inLoop = false → next.stage = s.stage)
    (clock : next.now = s.now ∧ next.started = s.started ∧ next.opened = s.opened)
    (kept : next.converter = s.converter) : Timed offered next t := by
  obtain ⟨now, entered, since⟩ := clock
  cases timed with
  | unentered stage opened converter same =>
    have stays := outside (by rcases stage with stage | stage <;> rw [stage] <;> rfl)
    exact .unentered (by rwa [stays]) (by rwa [now, since]) (kept.trans converter) same
  | first stage started opened converter same =>
    rcases inside stage with stage' | ended
    · refine .first stage' (by rwa [now, entered]) (by rwa [since, entered])
        (kept.trans converter) ?_
      rw [same, now, entered]
    · exact .ended ended
  | second stage started opened converter same =>
    rcases inside stage with stage' | ended
    · refine .second stage' (by rwa [now, entered]) (by rwa [since, now])
        (kept.trans converter) ?_
      rw [same, now, entered, since]
    · exact .ended ended
  | ended stage => exact .ended ((outside (by rw [stage]; rfl)).trans stage)

theorem reach_inLoop (s : Stream) (w : WorkerAction) (before after : Phase) :
    (s.reach w before after).inLoop = true ∨ s.reach w before after = .ended := by
  rcases reach_cases s w before after with
    ⟨_, retrying | ended | ⟨_, leaving⟩⟩ | ⟨_, loops | ⟨_, checking⟩⟩
  · exact .inl (by rw [retrying]; rfl)
  · exact .inr ended
  · exact .inl (by rw [leaving]; rfl)
  · exact .inl (by rw [loops]; rfl)
  · exact .inl (by rw [checking]; rfl)

theorem step_timed {s next : Stream} {a : Action} {t : Ages} {events : List Event}
    (timed : Timed offered s t) (taken : step s a = some (next, events)) :
    Timed offered next (t.after a) := by
  have within {stage : Stage} (same : s.stage = stage) (inside : stage.inLoop = true) :
      s.stage.inLoop = false → next.stage = s.stage := by
    intro outside
    simp [same, inside] at outside
  cases step_moved taken with
  | waited elapsed => exact timed.wait elapsed
  | refused => exact .ended rfl
  | made opening =>
    cases timed with
    | unentered _ _ converter same =>
      exact .unentered (.inr rfl) le_rfl converter (by rw [same]; rfl)
    | first stage => simp [opening, Stage.inLoop] at stage
    | second stage => simp [opening, Stage.inLoop] at stage
    | ended stage => simp [opening] at stage
  | unmade => exact .ended rfl
  | replaced retrying =>
    cases timed with
    | unentered stage => simp [retrying] at stage
    | first _ started _ _ same | second _ started _ _ same =>
      refine .second rfl started le_rfl rfl ?_
      rw [same, Ages.after]
      simp [use]
    | ended stage => simp [retrying] at stage
  | unreplaced => exact .ended rfl
  | begun opened =>
    cases timed with
    | unentered _ since converter same =>
      refine .first rfl le_rfl since converter ?_
      rw [same, Ages.after, Nat.sub_self]
    | first stage => simp [opened, Stage.inLoop] at stage
    | second stage => simp [opened, Stage.inLoop] at stage
    | ended stage => simp [opened] at stage
  | worked looping =>
    exact timed.keep (fun _ => reach_inLoop ..) (within looping rfl) ⟨rfl, rfl, rfl⟩ rfl
  | drained ended => exact .ended ended
  | passed => exact timed.keep .inl (fun _ => rfl) ⟨rfl, rfl, rfl⟩ rfl
  | late => exact .ended rfl
  | timely checking =>
    exact timed.keep (fun _ => .inl rfl) (within checking rfl) ⟨rfl, rfl, rfl⟩ rfl
  | flushing => exact timed.keep .inl (fun _ => rfl) ⟨rfl, rfl, rfl⟩ rfl
  | empty => exact .ended rfl
  | finished => exact .ended rfl

theorem reachable_timed {intel : Bool} {memory : Memory} {actions : List Action} {s : Stream}
    {trace : List Event}
    (run : Machine.exec step actions (.initial intel memory) = some (s, trace)) :
    Timed (intel && memory != .cpu) s (ages actions) := by
  refine Machine.scheduled (fun actions s _ => Timed (intel && memory != .cpu) s (ages actions))
    (.unentered (.inl rfl) le_rfl rfl rfl) ?_ run
  intro actions s trace a next events timed taken
  rw [ages_snoc]
  exact step_timed timed taken

/-- What the ages say at a check of the worker. -/
theorem Timed.inside {s : Stream} {t : Ages} (timed : Timed offered s t)
    (stage : s.stage.inLoop = true) :
    t.loop = some (s.now - s.started) ∧
      (t.retried = none ∧ s.opened ≤ s.started ∧ s.converter = offered ∨
        t.retried = some (s.now - s.opened) ∧ s.converter = false) := by
  cases timed with
  | unentered outside => rcases outside with outside | outside <;> simp [outside, Stage.inLoop] at stage
  | first _ _ opened converter same => subst same; exact ⟨rfl, .inl ⟨rfl, opened, converter⟩⟩
  | second _ _ _ converter same => subst same; exact ⟨rfl, .inr ⟨rfl, converter⟩⟩
  | ended ended => simp [ended, Stage.inLoop] at stage

/-- The worker counts from zero in each session, as the deliveries of the session do. -/
theorem consumed_eq_zero_iff {intel : Bool} {memory : Memory} {actions : List Action} {s : Stream}
    {trace : List Event} {c : State}
    (run : Machine.exec step actions (.initial intel memory) = some (s, trace))
    (check : s.stage = .checking ∨ s.stage = .leaving) (present : s.capture = some c) :
    s.delivered = s.consumed ∧ (s.consumed = 0 ↔ samples (inUse trace) = []) := by
  obtain ⟨counted, recorded⟩ := reachable_counted run
  have settled := counted.settled check present
  refine ⟨settled.symm, ?_⟩
  rw [settled, (recorded c present).1, List.length_eq_zero_iff]

def Exceeded (age : Option Nat) : Prop := ∃ n ∈ age, firstFrameAllowance < n

def Event.wants : Event → Bool
  | .noFrames _ _ _ | .noVideo _ _ _ => true
  | .opened _ | .session _ | .failed _ _ => false

/-- The session that such an error is raised against. -/
def Standing (offered : Bool) (t : Ages) (converting : Bool) (age : Nat) : Prop :=
  t.retried = none ∧ (∀ n ∈ t.loop, n ≤ age) ∧ converting = offered ∨
    t.retried = some age ∧ converting = false

/-- The two checks for want of frames, as the schedule and the deliveries have them. -/
inductive Checked (offered : Bool) (t : Ages) (got : List Nat) : Action → List Event → Prop where
  | late (converting : Bool) (age : Nat) : got = [] → Exceeded t.loop →
      Standing offered t converting age → Checked offered t got .verify [.noFrames converting age 0]
  | timely : ¬(got = [] ∧ Exceeded t.loop) → Checked offered t got .verify []
  | empty (converting : Bool) (age : Nat) : got = [] → Standing offered t converting age →
      Checked offered t got (.finish true) [.noVideo converting age 0]
  | finished : ¬(flushed = true ∧ got = []) → Checked offered t got (.finish flushed) []
  | aside : a ≠ .verify → (∀ flushed, a ≠ .finish flushed) → (∀ e ∈ events, e.wants = false) →
      Checked offered t got a events

theorem heard_quiet (emitted : List Capture.Event) :
    ∀ e ∈ emitted.map Event.session, e.wants = false := by
  intro e member
  obtain ⟨_, _, rfl⟩ := List.mem_map.mp member
  rfl

theorem failure_quiet (s : Stream) (w : WorkerAction) (after : Phase) :
    ∀ e ∈ s.failure w after, e.wants = false := by
  simp only [failure]
  split <;> simp [Event.wants]

theorem step_checked {intel : Bool} {memory : Memory} {first : List Action} {s next : Stream}
    {before events : List Event} {a : Action}
    (run : Machine.exec step first (.initial intel memory) = some (s, before))
    (taken : step s a = some (next, events)) :
    Checked (intel && memory != .cpu) (ages first) (samples (inUse before)) a events := by
  have timed := reachable_timed run
  have standing (inside : s.stage.inLoop = true) :
      Standing (intel && memory != .cpu) (ages first) s.converter (s.now - s.opened) := by
    obtain ⟨loop, ⟨retried, opened, converter⟩ | ⟨retried, converter⟩⟩ := timed.inside inside
    · refine .inl ⟨retried, ?_, converter⟩
      simp only [loop, Option.mem_some_iff, forall_eq']
      omega
    · exact .inr ⟨retried, converter⟩
  have exceeded (inside : s.stage.inLoop = true) :
      Exceeded (ages first).loop ↔ firstFrameAllowance < s.now - s.started := by
    simp [Exceeded, (timed.inside inside).1]
  cases step_moved taken with
  | late checking present raised =>
    have inside : s.stage.inLoop = true := by rw [checking]; rfl
    obtain ⟨settled, got⟩ := consumed_eq_zero_iff run (.inl checking) present
    rw [settled, raised.1]
    exact .late _ _ (got.mp raised.1) ((exceeded inside).mpr raised.2) (standing inside)
  | timely checking present quiet =>
    obtain ⟨_, got⟩ := consumed_eq_zero_iff run (.inl checking) present
    exact .timely (by rwa [← got, exceeded (by rw [checking]; rfl)])
  | empty leaving present none_ =>
    obtain ⟨settled, got⟩ := consumed_eq_zero_iff run (.inr leaving) present
    rw [settled, none_]
    exact .empty _ _ (got.mp none_) (standing (by rw [leaving]; rfl))
  | finished leaving present filled =>
    obtain ⟨_, got⟩ := consumed_eq_zero_iff run (.inr leaving) present
    exact .finished (by rwa [← got])
  | worked =>
    exact .aside (by simp) (by simp)
      (List.forall_mem_append.mpr ⟨heard_quiet _, failure_quiet _ _ _⟩)
  | drained => exact .aside (by simp) (by simp) (heard_quiet _)
  | passed => exact .aside (by simp) (by simp) (heard_quiet _)
  | _ => exact .aside (by simp) (by simp) (by simp [Event.wants])

/-- The first-frame error is due once the session in use is older than the allowance and has
delivered nothing. -/
def Event.Due : Event → Prop
  | .noFrames _ age delivered => delivered = 0 ∧ firstFrameAllowance < age
  | _ => True

instance : DecidablePred Event.Due
  | .noFrames _ _ _ => inferInstanceAs (Decidable (_ ∧ _))
  | .opened _ | .session _ | .failed _ _ | .noVideo _ _ _ => isTrue trivial

/-- A loop body ends more than the allowance after the loop was entered, but not after the retry
opened its session, and this session has delivered nothing. -/
def CutShort (first : List Action) (_ : Stream) (before : List Event) (a : Action) : Prop :=
  a = .verify ∧ samples (inUse before) = [] ∧ Exceeded (ages first).loop ∧
    (ages first).retried.isSome ∧ ¬Exceeded (ages first).retried

theorem cutShort_iff {intel : Bool} {memory : Memory} {first : List Action} {s next : Stream}
    {before events : List Event} {a : Action}
    (run : Machine.exec step first (.initial intel memory) = some (s, before))
    (taken : step s a = some (next, events)) :
    (∀ e ∈ events, e.Due) ↔ ¬CutShort first s before a := by
  cases step_checked run taken with
  | late converting age got exceeded standing =>
    simp only [List.mem_singleton, forall_eq, Event.Due, true_and, CutShort, got, exceeded]
    rcases standing with ⟨retried, older, _⟩ | ⟨retried, _⟩
    · obtain ⟨n, loop, long⟩ := exceeded
      exact iff_of_true (long.trans_le (older n loop)) (by simp [retried])
    · simp [retried, Exceeded]
  | timely quiet => exact iff_of_true (by simp) fun cut => quiet ⟨cut.2.1, cut.2.2.1⟩
  | empty => exact iff_of_true (by simp [Event.Due]) (by simp [CutShort])
  | finished => exact iff_of_true (by simp) (by simp [CutShort])
  | aside checks _ quiet =>
    refine iff_of_true (fun e member => ?_) fun cut => checks cut.1
    have := quiet e member
    cases e <;> trivial

/-- Every first-frame error of a run is due exactly when no check cuts the session of the retry
short. The first session always has its allowance. -/
theorem first_frame_allowance {intel : Bool} {memory : Memory} {actions : List Action} {s : Stream}
    {trace : List Event}
    (run : Machine.exec step actions (.initial intel memory) = some (s, trace)) :
    ((∀ e ∈ trace, e.Due) ↔ ¬Machine.Occurs step CutShort actions (.initial intel memory)) ∧
      ((ages actions).retried = none → ∀ e ∈ trace, e.Due) := by
  have exactly : (∀ e ∈ trace, e.Due) ↔
      ¬Machine.Occurs step CutShort actions (.initial intel memory) :=
    Machine.emitted_iff_not_occurs (fun _ _ _ _ _ _ => cutShort_iff) run
  refine ⟨exactly, fun never => exactly.mpr ?_⟩
  rintro ⟨first, a, rest, _, _, rfl, _, _, _, ⟨_, loop, _⟩, retried, _⟩
  have still := foldl_retried (ages first) (a :: rest) (Option.isSome_of_mem loop) retried
  rw [← ages_append, never] at still
  contradiction

/-- The stream of the session fails; `next` throws, and the retry opens a CPU session. -/
def retry : List Action :=
  [.capture (.control (.stateChanged .error none)), .capture (.worker .check)] ++
    List.replicate 5 (.capture .teardown) ++ [.open true]

def silentBody (elapsed : Nat) : List Action :=
  [.capture (.worker .check), .wait elapsed, .capture (.worker .take),
    .capture (.worker (.map false)), .verify]

/-- The DMA-BUF session fails eleven seconds into the loop; the first `next` of the CPU
session returns empty after its 250 ms. -/
def lateRetry : List Action := firstFrame ++ [.wait 11000000000] ++ retry ++ silentBody 250000000

theorem retried_session_cut_short :
    ∃ s trace, Machine.exec step lateRetry (.initial true .auto) = some (s, trace) ∧
      .noFrames false 250000000 0 ∈ trace ∧ ¬(Event.noFrames false 250000000 0).Due := by
  have reached : ((Machine.exec step lateRetry (.initial true .auto)).map
      fun r => decide (.noFrames false 250000000 0 ∈ r.2)) = some true := by
    decide +kernel
  obtain ⟨⟨s, trace⟩, run, member⟩ := Option.map_eq_some_iff.mp reached
  exact ⟨s, trace, run, of_decide_eq_true member, by decide⟩

/-- The DMA-BUF session fails at once, and the CPU session stays silent for ten seconds. -/
def earlyRetry : List Action :=
  [.open true, .begin, .wait 100000000] ++ retry ++ (List.replicate 40 (silentBody 251000000)).flatten

theorem first_frame_allowance_sample :
    ∃ s trace, Machine.exec step earlyRetry (.initial true .auto) = some (s, trace) ∧
      .noFrames false 10040000000 0 ∈ trace ∧
      ¬Machine.Occurs step CutShort earlyRetry (.initial true .auto) := by
  have reached : ((Machine.exec step earlyRetry (.initial true .auto)).map fun r =>
      (decide (.noFrames false 10040000000 0 ∈ r.2), decide (∀ e ∈ r.2, e.Due))) =
        some (true, true) := by
    decide +kernel
  obtain ⟨⟨s, trace⟩, run, result⟩ := Option.map_eq_some_iff.mp reached
  obtain ⟨member, due⟩ := Prod.mk.inj result
  exact ⟨s, trace, run, of_decide_eq_true member,
    (first_frame_allowance run).1.mp (of_decide_eq_true due)⟩

end Stream

end Quest.Capture
