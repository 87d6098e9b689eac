import Quest.CaptureInvariant

/-! The traffic of producer buffers. A ledger says who may hold a buffer and when it must go
back; every run of a session keeps to it. -/
namespace Quest.Capture

/-- The buffers that the current callback has dequeued, the one whose exception on the
DMA-BUF path was caught last, the one withheld for good, and whether the destructor has
settled the converter. -/
structure Ledger where
  out : List Buffer
  fault : Option Buffer
  withheld : Option Buffer
  settled : Bool
  deriving DecidableEq, Repr

namespace Ledger

def empty : Ledger := ⟨[], none, none, false⟩

/-- A callback returns with nothing out. Only a buffer whose exception was caught on the
DMA-BUF path may be withheld, and only one; after it nothing is dequeued or requeued, and
the stream is destroyed only once the converter has settled. -/
def record (l : Ledger) : Event → Option Ledger
  | .dequeued b =>
    if b ∉ l.out ∧ l.withheld = none then some { l with out := b :: l.out } else none
  | .requeued b =>
    if b ∈ l.out ∧ l.withheld = none then some { l with out := l.out.erase b } else none
  | .caught b dma =>
    if b ∈ l.out then some { l with fault := if dma then some b else none } else none
  | .withheld b =>
    if b ∈ l.out ∧ l.fault = some b ∧ l.withheld = none then
      some { l with out := l.out.erase b, withheld := some b }
    else none
  | .returned => if l.out = [] then some l else none
  | .settled => some { l with settled := true }
  | .destroyed => if l.out = [] ∧ l.settled = true then some l else none
  | .starved | .queued _ | .delivered _ | .removed _ _ _ => some l

def step : Machine.Step Ledger Event Empty := fun l e => (l.record e).map fun next => (next, [])

def Follows (l : Ledger) (trace : List Event) (next : Ledger) : Prop :=
  Machine.exec step trace l = some (next, [])

theorem follows_nil (l : Ledger) : l.Follows [] l := rfl

theorem Follows.append {l middle next : Ledger} {first rest : List Event}
    (left : l.Follows first middle) (right : middle.Follows rest next) :
    l.Follows (first ++ rest) next := Machine.exec_append left right

theorem Follows.cons {l middle next : Ledger} {e : Event} {rest : List Event}
    (recorded : l.record e = some middle) (right : middle.Follows rest next) :
    l.Follows (e :: rest) next := by
  have taken : step l e = some (middle, []) := by simp [step, recorded]
  exact Machine.exec_append (Machine.exec_single taken) right

theorem follows_single {l next : Ledger} {e : Event} (recorded : l.record e = some next) :
    l.Follows [e] next := .cons recorded (follows_nil next)

theorem follows_returned {l : Ledger} (out : l.out = []) : l.Follows [.returned] l :=
  follows_single (if_pos out)

def Balanced (l : Ledger) (trace : List Event) : Prop :=
  ∀ b, trace.count (.dequeued b) =
    trace.count (.requeued b) + l.out.count b + if l.withheld = some b then 1 else 0

theorem record_balanced {l next : Ledger} {trace : List Event} {e : Event}
    (balanced : l.Balanced trace) (recorded : l.record e = some next) :
    next.Balanced (trace ++ [e]) := by
  intro b
  have before := balanced b
  rw [List.count_append, List.count_append]
  cases e with
  | dequeued d =>
    simp only [record, Option.ite_none_right_eq_some] at recorded
    obtain ⟨⟨absent, clear⟩, ⟨⟩⟩ := recorded
    by_cases same : d = b
    · subst same; simp at before ⊢; omega
    · simp [same] at before ⊢; omega
  | requeued r =>
    simp only [record, Option.ite_none_right_eq_some] at recorded
    obtain ⟨⟨present, clear⟩, ⟨⟩⟩ := recorded
    by_cases same : r = b
    · subst same
      have positive := List.count_pos_iff.mpr present
      simp [clear] at before ⊢
      omega
    · simp [same, clear, List.count_erase_of_ne (Ne.symm same)] at before ⊢
      omega
  | withheld w =>
    simp only [record, Option.ite_none_right_eq_some] at recorded
    obtain ⟨⟨present, _, clear⟩, ⟨⟩⟩ := recorded
    by_cases same : w = b
    · subst same
      have positive := List.count_pos_iff.mpr present
      simp [clear] at before ⊢
      omega
    · simp [same, clear, List.count_erase_of_ne (Ne.symm same)] at before ⊢
      omega
  | caught c dma =>
    simp only [record, Option.ite_none_right_eq_some] at recorded
    obtain ⟨_, ⟨⟩⟩ := recorded
    simpa using before
  | returned =>
    simp only [record, Option.ite_none_right_eq_some] at recorded
    obtain ⟨_, ⟨⟩⟩ := recorded
    simpa using before
  | destroyed =>
    simp only [record, Option.ite_none_right_eq_some] at recorded
    obtain ⟨_, ⟨⟩⟩ := recorded
    simpa using before
  | settled => cases recorded; simpa using before
  | starved => cases recorded; simpa using before
  | queued => cases recorded; simpa using before
  | delivered => cases recorded; simpa using before
  | removed => cases recorded; simpa using before

theorem follows_balanced {l : Ledger} {trace : List Event} (followed : empty.Follows trace l) :
    l.Balanced trace := by
  induction trace using List.reverseRecOn generalizing l with
  | nil =>
    obtain ⟨rfl, _⟩ := Prod.mk.inj (Option.some.inj followed)
    simp [Balanced, empty]
  | append_singleton first e ih =>
    obtain ⟨middle, before, emitted, left, taken, nothing⟩ := Machine.exec_snoc_iff.mp followed
    obtain ⟨rfl, _⟩ := List.append_eq_nil_iff.mp nothing.symm
    obtain ⟨next, recorded, same⟩ := Option.map_eq_some_iff.mp taken
    obtain ⟨rfl, _⟩ := Prod.mk.inj same
    exact record_balanced (ih left) recorded

end Ledger

structure Matches (s : State) (l : Ledger) : Prop where
  out : l.out = s.process.buffer.toList
  withheld : l.settled = false → s.withheld = l.withheld
  kept : l.withheld ≠ none → s.process = .idle ∧ s.session.stopping = true
  settled : l.settled = s.teardown.hasSettled

theorem initial_matches (intel : Bool) (memory : Memory) :
    Matches (.initial intel memory) .empty := by
  constructor <;> simp [State.initial, Ledger.empty, Process.buffer, Teardown.hasSettled]

/-- Steps of the other threads. -/
theorem Matches.advance {s next : State} {l : Ledger} (matched : Matches s l)
    (process : next.process = s.process) (withheld : next.withheld = s.withheld)
    (teardown : next.teardown = s.teardown)
    (stopping : s.session.stopping = true → next.session.stopping = true) : Matches next l where
  out := by rw [process]; exact matched.out
  withheld := by rw [withheld]; exact matched.withheld
  kept := fun kept => ⟨process.trans (matched.kept kept).1, stopping (matched.kept kept).2⟩
  settled := by rw [teardown]; exact matched.settled

/-- Nothing has been withheld while the data thread is running. -/
theorem Matches.clear {s : State} {l : Ledger} (matched : Matches s l)
    (active : s.process = .idle → s.session.stopping = false) : l.withheld = none := by
  by_contra kept
  obtain ⟨idle, stopping⟩ := matched.kept kept
  simp [active idle] at stopping

/-- The data thread goes on with the buffers that it has. -/
theorem Matches.goto {s : State} {l : Ledger} (matched : Matches s l) (clear : l.withheld = none)
    {t : Session} {p : Process} (buffer : p.buffer = s.process.buffer) :
    Matches ((s.setSession t).goto p) l where
  out := by rw [matched.out]; exact congrArg Option.toList buffer.symm
  withheld := matched.withheld
  kept := fun kept => absurd clear kept
  settled := matched.settled

/-- The data thread has given back or taken buffers. -/
theorem Matches.trade {s : State} {l : Ledger} (matched : Matches s l) (clear : l.withheld = none)
    {t : Session} {p : Process} {out : List Buffer} (same : out = p.buffer.toList) :
    Matches ((s.setSession t).goto p) { l with out := out } where
  out := same
  withheld := matched.withheld
  kept := fun kept => absurd clear kept
  settled := matched.settled

theorem guarded_buffer {p : Process} {b : Buffer} (guarded : p.guarded = some b) :
    p.buffer = some b := by
  cases p <;> simp_all [Process.guarded, Process.buffer]

theorem available_iff {s : State} {b : Buffer} :
    s.available b = true ↔ s.process.buffer ≠ some b ∧ s.withheld ≠ some b := by
  simp [State.available]

theorem process_matches {s next : State} {l : Ledger} {events : List Event}
    (matched : Matches s l) (moved : ProcessMoved s next events) :
    ∃ l', l.Follows events l' ∧ Matches next l' := by
  have running {p : Process} (at_ : s.process = p) (active : p ≠ .idle) : l.withheld = none :=
    matched.clear fun idle => absurd (at_ ▸ idle) active
  have held {p : Process} (at_ : s.process = p) : l.out = p.buffer.toList :=
    at_ ▸ matched.out
  cases moved with
  | unchanged at_ => exact ⟨l, Ledger.follows_returned (held at_), matched⟩
  | finished at_ =>
    have bare : s.process.buffer = none ∧ s.process ≠ .idle := by
      rcases at_ with at_ | at_ | at_ <;> rw [at_] <;> exact ⟨rfl, by simp⟩
    have out : l.out = [] := by rw [matched.out, bare.1]; rfl
    exact ⟨l, Ledger.follows_returned out,
      matched.goto (running rfl bare.2) bare.1.symm⟩
  | entered at_ free =>
    exact ⟨l, rfl, matched.goto (matched.clear fun _ => free) (by rw [at_]; rfl)⟩
  | locked at_ => exact ⟨l, rfl, matched.goto (running at_ (by simp)) (by rw [at_]; rfl)⟩
  | rechecked at_ => exact ⟨l, rfl, matched.goto (running at_ (by simp)) (by rw [at_]; rfl)⟩
  | drained at_ => exact ⟨l, rfl, matched.goto (running at_ (by simp)) (by rw [at_]; rfl)⟩
  | @dequeued d at_ available =>
    have clear := running at_ (by simp)
    have absent : d ∉ l.out := by simp [held at_, Process.buffer]
    exact ⟨_, Ledger.follows_single (if_pos ⟨absent, clear⟩),
      matched.trade clear (by rw [held at_]; rfl)⟩
  | @replaced b d at_ available =>
    have clear := running at_ (by simp)
    have out : l.out = [b] := held at_
    have fresh : d ≠ b := by
      rintro rfl
      simp [available_iff, at_, Process.buffer] at available
    refine ⟨{ l with out := [d] }, .cons (if_pos ⟨by simp [out, fresh], clear⟩)
      (Ledger.follows_single ?_), matched.trade clear rfl⟩
    simp [Ledger.record, out, clear, Ne.symm fresh, fresh]
  | skipped at_ => exact ⟨l, rfl, matched.goto (running at_ (by simp)) (by rw [at_]; rfl)⟩
  | tooSmall at_ => exact ⟨l, rfl, matched.goto (running at_ (by simp)) (by rw [at_]; rfl)⟩
  | admitted at_ => exact ⟨l, rfl, matched.goto (running at_ (by simp)) (by rw [at_]; rfl)⟩
  | threw guarded =>
    have active : s.process ≠ .idle := by rintro idle; simp [idle, Process.guarded] at guarded
    exact ⟨l, rfl, matched.goto (running rfl active) (guarded_buffer guarded).symm⟩
  | chose at_ => exact ⟨l, rfl, matched.goto (running at_ (by simp)) (by rw [at_]; rfl)⟩
  | passed at_ => exact ⟨l, rfl, matched.goto (running at_ (by simp)) (by rw [at_]; rfl)⟩
  | starved at_ =>
    exact ⟨l, Ledger.follows_single rfl, matched.goto (running at_ (by simp)) (by rw [at_]; rfl)⟩
  | imported at_ => exact ⟨l, rfl, matched.goto (running at_ (by simp)) (by rw [at_]; rfl)⟩
  | converted at_ => exact ⟨l, rfl, matched.goto (running at_ (by simp)) (by rw [at_]; rfl)⟩
  | unconverted at_ =>
    exact ⟨l, rfl, matched.goto (running at_ (by simp)) (by rw [at_]; rfl)⟩
  | copied at_ => exact ⟨l, rfl, matched.goto (running at_ (by simp)) (by rw [at_]; rfl)⟩
  | pushed now at_ =>
    exact ⟨l, Ledger.follows_single rfl, matched.goto (running at_ (by simp)) (by rw [at_]; rfl)⟩
  | @withheld b message at_ dma =>
    have clear := running at_ (by simp)
    have out : l.out = [b] := held at_
    refine ⟨{ l with out := [], fault := some b, withheld := some b },
      .cons (if_pos (by simp [out])) (.cons ?_ (Ledger.follows_returned rfl)), ?_⟩
    · simp [Ledger.record, out, clear]
    · have stopping := s.session.stop.fail_alike message |>.stopping rfl
      exact ⟨rfl, fun _ => rfl, fun _ => ⟨rfl, stopping⟩, matched.settled⟩
  | @caught b message at_ cpu =>
    have clear := running at_ (by simp)
    have out : l.out = [b] := held at_
    exact ⟨{ l with fault := none }, Ledger.follows_single (if_pos (by simp [out])),
      out, matched.withheld, fun kept => absurd clear kept, matched.settled⟩
  | @requeued b at_ =>
    have clear := running at_ (by simp)
    have out : l.out = [b] := held at_
    refine ⟨{ l with out := [] }, .cons ?_ (Ledger.follows_returned rfl),
      matched.trade clear rfl⟩
    simp [Ledger.record, out, clear]

theorem control_matches {s next : State} {l : Ledger} {a : ControlAction} {events : List Event}
    (matched : Matches s l) (moved : ControlMoved s a next events) :
    ∃ l', l.Follows events l' ∧ Matches next l' := by
  have removed (session : Session) (b : Buffer) : l.Follows [removedEvent session b] l := by
    unfold removedEvent
    split <;> exact Ledger.follows_single rfl
  cases moved with
  | @stateChanged state message =>
    exact ⟨l, rfl, matched.advance rfl rfl rfl
      (onStateChanged_alike s.session state message).1.stopping⟩
  | @paramChanged info refused =>
    exact ⟨l, rfl, matched.advance rfl rfl rfl
      (onParamChanged_renegotiated s.session info refused).stopping⟩
  | adding => exact ⟨l, rfl, matched.advance rfl rfl rfl id⟩
  | ignored => exact ⟨l, rfl, matched⟩
  | imported => exact ⟨l, rfl, matched.advance rfl rfl rfl id⟩
  | refused => exact ⟨l, rfl, matched.advance rfl rfl rfl id⟩
  | handled => exact ⟨l, rfl, matched.advance rfl rfl rfl fun _ => rfl⟩
  | removing => exact ⟨l, rfl, matched.advance rfl rfl rfl id⟩
  | kept => exact ⟨l, removed _ _, matched⟩
  | removed => exact ⟨l, removed _ _, matched.advance rfl rfl rfl id⟩

theorem worker_matches {s next : State} {l : Ledger} {events : List Event}
    (matched : Matches s l) (moved : WorkerMoved s next events) :
    ∃ l', l.Follows events l' ∧ Matches next l' := by
  cases moved with
  | @took session sample phase taken =>
    refine ⟨l, ?_, matched.advance rfl rfl rfl (takeLatest_alike taken).stopping⟩
    cases sample with
    | none => rfl
    | some f => exact Ledger.follows_single rfl
  | _ => exact ⟨l, rfl, matched.advance rfl rfl rfl id⟩

theorem teardown_matches {s next : State} {l : Ledger} {events : List Event} (valid : Invariant s)
    (matched : Matches s l) (moved : TeardownMoved s next events) :
    ∃ l', l.Follows events l' ∧ Matches next l' := by
  cases moved with
  | stopped phase =>
    exact ⟨l, rfl, matched.out, matched.withheld, fun kept => ⟨(matched.kept kept).1, rfl⟩,
      by rw [matched.settled, phase]; rfl⟩
  | lockedLoop phase =>
    exact ⟨l, rfl, matched.out, matched.withheld, matched.kept,
      by rw [matched.settled, phase]; rfl⟩
  | lockedProcessing phase =>
    exact ⟨l, rfl, matched.out, matched.withheld, matched.kept,
      by rw [matched.settled, phase]; rfl⟩
  | settled =>
    exact ⟨{ l with settled := true }, Ledger.follows_single rfl, matched.out, by simp,
      matched.kept, rfl⟩
  | destroyed phase =>
    have settled : l.settled = true := by rw [matched.settled, phase]; rfl
    have out : l.out = [] := by
      rcases valid.locked (by rw [phase]; rfl) with at_ | at_ <;> rw [matched.out, at_] <;> rfl
    exact ⟨l, Ledger.follows_single (if_pos ⟨out, settled⟩), matched.out, by simp [settled],
      matched.kept, settled⟩

theorem step_matches {s next : State} {l : Ledger} {a : Action} {events : List Event}
    (valid : Invariant s) (matched : Matches s l) (taken : step s a = some (next, events)) :
    ∃ l', l.Follows events l' ∧ Matches next l' := by
  cases a with
  | process a => exact process_matches matched (processStep_moved taken)
  | control a => exact control_matches matched (controlStep_moved taken)
  | worker a => exact worker_matches matched (workerStep_moved taken)
  | teardown => exact teardown_matches valid matched (teardownStep_moved taken)
  | gpu finished => cases taken; exact ⟨l, rfl, matched.advance rfl rfl rfl id⟩

/-- Once the destructor has settled the converter, the GPU reads nothing any more. -/
theorem settled_quiet {s : State} (valid : Invariant s) (settled : s.teardown.hasSettled = true)
    {c : Converter (Fin PoolSize)} (present : s.session.converter = some c) : c.inFlight = [] :=
  Converter.covered_clear (valid.covered c present) (valid.settled settled c present)

/-- Every run of a session keeps to the ledger. A dequeued buffer goes back exactly once
before its callback returns, but for one that is withheld until the destructor has settled
the converter. -/
theorem producer_buffers_returned {intel : Bool} {memory : Memory} {actions : List Action}
    {s : State} {trace : List Event}
    (run : Machine.exec step actions (.initial intel memory) = some (s, trace)) :
    ∃ l, Ledger.empty.Follows trace l ∧
      l.out = s.process.buffer.toList ∧
      (∀ b, trace.count (.dequeued b) =
        trace.count (.requeued b) + l.out.count b + if l.withheld = some b then 1 else 0) ∧
      (l.settled = false → s.withheld = l.withheld) ∧
      (l.settled = true → ∀ c, s.session.converter = some c → c.inFlight = []) := by
  have kept := Machine.history
    (fun s trace => Invariant s ∧ ∃ l, Ledger.empty.Follows trace l ∧ Matches s l)
    ⟨initial_invariant intel memory, .empty, rfl, initial_matches intel memory⟩
    (by
      rintro s trace a next events ⟨valid, l, followed, matched⟩ taken
      obtain ⟨l', further, matched'⟩ := step_matches valid matched taken
      exact ⟨step_invariant valid taken, l', followed.append further, matched'⟩) run
  obtain ⟨valid, l, followed, matched⟩ := kept
  refine ⟨l, followed, matched.out, Ledger.follows_balanced followed, matched.withheld, ?_⟩
  intro settled c present
  exact settled_quiet valid (matched.settled ▸ settled) present

theorem producer_buffers_returned_sample :
    ∃ (s : State) (l : Ledger), Machine.exec step
        (convertScreen (.syncFailed "operation timed out") ++
          [.process .handle, .worker .check, .teardown, .teardown, .teardown])
        (.initial true .auto) = some (s, [.dequeued 7, .caught 7 true, .withheld 7, .returned]) ∧
      l.withheld = some 7 ∧ s.withheld = l.withheld := by
  have reached : (Machine.exec step
      (convertScreen (.syncFailed "operation timed out") ++
        [.process .handle, .worker .check, .teardown, .teardown, .teardown])
      (.initial true .auto)).map Prod.snd =
        some [.dequeued 7, .caught 7 true, .withheld 7, .returned] := by
    decide +kernel
  obtain ⟨⟨s, trace⟩, run, events⟩ := Option.map_eq_some_iff.mp reached
  obtain rfl : trace = _ := events
  obtain ⟨l, followed, _, _, still, _⟩ := producer_buffers_returned run
  obtain ⟨recorded, _⟩ := Prod.mk.inj (Option.some.inj followed)
  subst recorded
  exact ⟨s, _, run, rfl, still rfl⟩

end Quest.Capture
