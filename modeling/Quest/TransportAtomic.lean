import Quest.TransportTrace

/-! Framing outside the lock changes nothing. In the atomic transport a call of `publish`
runs check, framing and enqueue as one step; every run of the two-section transport is
simulated by an atomic run in which each call takes effect at one of its locked sections. -/
namespace Quest.Transport

/-- The specification of `publish`: one uninterrupted step. -/
def publishAtomic (s : Server) (p : EncodedPacket) : Server × Result :=
  match publishCheck s p with
  | (server, some result) => (server, result)
  | (server, none) =>
    match framePacket p with
    | .error message => (server, .threw message)
    | .ok bytes => publishEnqueue server p bytes

structure AtomicState where
  server : Server
  worker : Worker

def AtomicState.initial : AtomicState := ⟨.initial, .initial⟩

inductive AtomicAction (ι : Type*) where
  | publish (publisher : ι) (p : EncodedPacket)
  | worker (a : WorkerAction)
  | take (stream : Fin MonitorCount)
  | shutdown

def atomicStep : Machine.Step AtomicState (AtomicAction ι) (Event ι) := fun s a =>
  match a with
  | .publish t p =>
    some ({ s with server := (publishAtomic s.server p).1 },
      [.published t p (publishAtomic s.server p).2])
  | .worker a =>
    (workerStep s.server s.worker a).map fun (server, worker, events) =>
      (⟨server, worker⟩, events.map .worker)
  | .take stream => some ({ s with server := (takeKeyframeRequest s.server stream).1 }, [])
  | .shutdown => some ({ s with server := { s.server with stopping := true } }, [])

/-- The atomic call stands at the first locked section when the call returns there or
throws before the second one, and at the second locked section otherwise. -/
def placePublish (s : State ι) (a : Action ι) : List (AtomicAction ι) :=
  match a with
  | .check t =>
    match s.publishers t with
    | .calling p =>
      match (publishCheck s.server p).2, framePacket p with
      | some _, _ => [.publish t p]
      | none, .error _ => [.publish t p]
      | none, .ok _ => []
    | _ => []
  | .enqueue t =>
    match s.publishers t with
    | .framed p _ => [.publish t p]
    | _ => []
  | .worker a => [.worker a]
  | .take stream => [.take stream]
  | .shutdown => [.shutdown]
  | .call _ _ | .frame _ => []

/-- A call that has passed its check with a packet that cannot be framed: the atomic
call has thrown already, the real one is about to. -/
def early (position : Publisher) : List (EncodedPacket × Result) :=
  match position with
  | .framing p =>
    match framePacket p with
    | .error message => [(p, .threw message)]
    | .ok _ => []
  | _ => []

/-- The admission test repeated by the second section decides as the first one would,
were the two adjacent. -/
theorem publishAtomic_of_framed {p : EncodedPacket} {bytes : List UInt8}
    (ok : framePacket p = .ok bytes) (s : Server) : publishAtomic s p = publishEnqueue s p bytes := by
  unfold publishAtomic
  have checked := publishCheck_checked s p
  rcases check : publishCheck s p with ⟨server, result⟩
  simp only [check] at checked
  unfold publishEnqueue
  cases checked with
  | unserved closed => simp [closed]
  | unindexed connected staying missing => simp [connected, staying, missing]
  | dropped connected staying index waiting predictive =>
    simp [connected, staying, index, waiting, predictive]
  | passed => simp only [ok]

theorem publishAtomic_of_result {s server : Server} {p : EncodedPacket} {result : Result}
    (check : publishCheck s p = (server, some result)) : publishAtomic s p = (server, result) := by
  simp [publishAtomic, check]

theorem publishAtomic_of_unframable {s server : Server} {p : EncodedPacket} {message : String}
    (check : publishCheck s p = (server, none)) (failed : framePacket p = .error message) :
    publishAtomic s p = (s, .threw message) := by
  have checked := publishCheck_checked s p
  simp only [check] at checked
  cases checked
  simp [publishAtomic, check, failed]

variable [DecidableEq ι]

/-- The simulation relation: equal shared state and worker, equal worker events, and for
each publisher the same finished calls up to an exception already thrown. -/
structure Refines (s : State ι) (past : List (Event ι)) (a : AtomicState)
    (seen : List (Event ι)) : Prop where
  server : a.server = s.server
  worker : a.worker = s.worker
  calls : ∀ t, callsOf t seen = callsOf t past ++ early (s.publishers t)
  events : workerEvents seen = workerEvents past
  framed : ∀ t p bytes, s.publishers t = .framed p bytes → framePacket p = .ok bytes

theorem Refines.initial : Refines (State.initial (ι := ι)) [] AtomicState.initial [] where
  server := rfl
  worker := rfl
  calls := fun _ => rfl
  events := rfl
  framed := by simp [State.initial]

theorem Refines.at_server {s : State ι} {past : List (Event ι)} {a : AtomicState}
    {seen : List (Event ι)} (related : Refines s past a seen) : (⟨s.server, a.worker⟩ : AtomicState) = a := by
  rw [← related.server]

/-- Bookkeeping of one publisher's step: what the atomic call emits now, the real call
has emitted before or owes by its new position. -/
theorem Refines.publish {s : State ι} {past : List (Event ι)} {a : AtomicState}
    {seen : List (Event ι)} (related : Refines s past a seen) (t : ι) (position : Publisher)
    (server : Server) (emitted emitted' : List (Event ι))
    (balanced : early (s.publishers t) ++ callsOf t emitted' = callsOf t emitted ++ early position)
    (others : ∀ u, u ≠ t → callsOf u emitted = [] ∧ callsOf u emitted' = [])
    (quiet : workerEvents emitted = [] ∧ workerEvents emitted' = [])
    (fresh : ∀ p bytes, position = .framed p bytes → framePacket p = .ok bytes) :
    Refines (State.place { s with server := server } t position) (past ++ emitted)
      ⟨server, a.worker⟩ (seen ++ emitted') where
  server := rfl
  worker := related.worker
  calls := by
    intro u
    by_cases same : u = t
    · subst u
      simp [State.place, related.calls t, balanced]
    · obtain ⟨left, right⟩ := others u same
      simp [State.place, same, related.calls u, left, right]
  events := by simp [related.events, quiet.1, quiet.2]
  framed := place_framed (s := { s with server := server }) related.framed fresh

theorem published_others (t : ι) (p : EncodedPacket) (result : Result) (u : ι) (other : u ≠ t) :
    callsOf u ([] : List (Event ι)) = [] ∧ callsOf u [.published t p result] = [] :=
  ⟨rfl, callsOf_published_other other p result⟩

/-- Steps of the worker and of the flags are taken alike by both transports. -/
theorem Refines.shared {s : State ι} {past : List (Event ι)} {a : AtomicState}
    {seen : List (Event ι)} (related : Refines s past a seen) (server : Server) (worker : Worker)
    (events : List WorkerEvent) :
    Refines { s with server := server, worker := worker } (past ++ events.map .worker)
      ⟨server, worker⟩ (seen ++ events.map .worker) where
  server := rfl
  worker := rfl
  calls := by intro t; simp [related.calls t]
  events := by simp [related.events]
  framed := related.framed

theorem check_refines {s next : State ι} {past emitted : List (Event ι)} {a : AtomicState}
    {seen : List (Event ι)} (related : Refines s past a seen) (t : ι)
    (taken : step s (.check t) = some (next, emitted)) :
    ∃ next' emitted', Machine.exec atomicStep (placePublish s (.check t)) a = some (next', emitted') ∧
      Refines next (past ++ emitted) next' (seen ++ emitted') := by
  simp only [step] at taken
  split at taken
  next p position =>
    have settled : early (s.publishers t) = [] := by simp [position, early]
    simp only [placePublish, position]
    rcases check : publishCheck s.server p with ⟨server, _ | result⟩
    · simp only [check] at taken
      cases taken
      have checked := publishCheck_checked s.server p
      simp only [check] at checked
      cases checked
      cases framed : framePacket p with
      | ok bytes =>
        refine ⟨a, [], rfl, ?_⟩
        simpa [related.at_server] using related.publish t (.framing p) s.server [] []
          (by rw [settled]; simp [early, framed]) (by simp) ⟨rfl, rfl⟩ (by simp)
      | error message =>
        have thrown := publishAtomic_of_unframable check framed
        refine ⟨⟨s.server, a.worker⟩, [.published t p (.threw message)], ?_, ?_⟩
        · simp [Machine.exec, atomicStep, related.server, thrown]
        · exact related.publish t (.framing p) s.server [] _
            (by rw [settled]; simp [early, framed]) (published_others t p _) ⟨rfl, rfl⟩ (by simp)
    · simp only [check] at taken
      cases taken
      have returned := publishAtomic_of_result check
      refine ⟨⟨server, a.worker⟩, [.published t p result], ?_, ?_⟩
      · simp [Machine.exec, atomicStep, related.server, returned]
      · exact related.publish t .idle server _ _ (by rw [settled]; simp [early])
          (fun u other => ⟨(published_others t p _ u other).2, (published_others t p _ u other).2⟩)
          ⟨rfl, rfl⟩ (by simp)
  next => contradiction

theorem frame_refines {s next : State ι} {past emitted : List (Event ι)} {a : AtomicState}
    {seen : List (Event ι)} (related : Refines s past a seen) (t : ι)
    (taken : step s (.frame t) = some (next, emitted)) :
    Refines next (past ++ emitted) a (seen ++ []) := by
  simp only [step] at taken
  have same : a = ⟨s.server, a.worker⟩ := by rw [← related.server]
  rw [same]
  split at taken
  next p position =>
    split at taken
    next bytes ok =>
      cases taken
      refine related.publish t (.framed p bytes) s.server _ _ ?_ (by simp) ⟨rfl, rfl⟩ ?_
      · simp [position, early, ok]
      · rintro _ _ ⟨⟩; exact ok
    next message failed =>
      cases taken
      refine related.publish t .idle s.server _ _ ?_ ?_ ⟨rfl, rfl⟩ (by simp)
      · simp [position, early, failed]
      · exact fun u other => (published_others t p _ u other).symm
  next => contradiction

theorem enqueue_refines {s next : State ι} {past emitted : List (Event ι)} {a : AtomicState}
    {seen : List (Event ι)} (related : Refines s past a seen) (t : ι)
    (taken : step s (.enqueue t) = some (next, emitted)) :
    ∃ next' emitted', Machine.exec atomicStep (placePublish s (.enqueue t)) a = some (next', emitted') ∧
      Refines next (past ++ emitted) next' (seen ++ emitted') := by
  simp only [step] at taken
  split at taken
  next p bytes position =>
    have equal := publishAtomic_of_framed (related.framed t p bytes position) s.server
    cases taken
    simp only [placePublish, position]
    refine ⟨⟨(publishEnqueue s.server p bytes).1, a.worker⟩,
      [.published t p (publishEnqueue s.server p bytes).2], ?_, ?_⟩
    · simp [Machine.exec, atomicStep, related.server, equal]
    · exact related.publish t .idle _ _ _ (by simp [position, early])
        (fun u other => ⟨(published_others t p _ u other).2, (published_others t p _ u other).2⟩)
        ⟨rfl, rfl⟩ (by simp)
  next => contradiction

theorem step_refines {s next : State ι} {past emitted : List (Event ι)} {a : AtomicState}
    {seen : List (Event ι)} (action : Action ι) (related : Refines s past a seen)
    (taken : step s action = some (next, emitted)) :
    ∃ next' emitted', Machine.exec atomicStep (placePublish s action) a = some (next', emitted') ∧
      Refines next (past ++ emitted) next' (seen ++ emitted') := by
  cases action with
  | call t p =>
    simp only [step] at taken
    split at taken
    next position =>
      cases taken
      refine ⟨a, [], rfl, ?_⟩
      simpa [related.at_server] using related.publish t (.calling p) s.server [] []
        (by simp [position, early]) (by simp) ⟨rfl, rfl⟩ (by simp)
    next => contradiction
  | check t => exact check_refines related t taken
  | frame t => exact ⟨a, [], rfl, frame_refines related t taken⟩
  | enqueue t => exact enqueue_refines related t taken
  | worker action =>
    simp only [step] at taken
    obtain ⟨⟨server, worker, events⟩, moved, result⟩ := Option.map_eq_some_iff.mp taken
    cases result
    refine ⟨⟨server, worker⟩, events.map .worker, ?_, related.shared server worker events⟩
    simp [placePublish, Machine.exec, atomicStep, related.server, related.worker, moved]
  | take stream =>
    simp only [step, Option.some.injEq, Prod.mk.injEq] at taken
    obtain ⟨rfl, rfl⟩ := taken
    refine ⟨⟨(takeKeyframeRequest s.server stream).1, s.worker⟩, [], ?_, related.shared _ _ []⟩
    simp [placePublish, Machine.exec, atomicStep, related.server, related.worker]
  | shutdown =>
    simp only [step, Option.some.injEq, Prod.mk.injEq] at taken
    obtain ⟨rfl, rfl⟩ := taken
    refine ⟨⟨{ s.server with stopping := true }, s.worker⟩, [], ?_, related.shared _ _ []⟩
    simp [placePublish, Machine.exec, atomicStep, related.server, related.worker]

/-- Every run of the two-section transport has the effects and exceptions of the atomic
run that places each call at the locked section where it is decided. -/
theorem framing_outside_lock {actions : List (Action ι)} {s : State ι} {trace : List (Event ι)}
    (run : Machine.exec step actions State.initial = some (s, trace)) :
    ∃ a seen, Machine.exec atomicStep (Machine.placed step placePublish actions State.initial)
        AtomicState.initial = some (a, seen) ∧
      a.server = s.server ∧ a.worker = s.worker ∧ workerEvents seen = workerEvents trace ∧
      ∀ t, callsOf t seen = callsOf t trace ++ early (s.publishers t) := by
  obtain ⟨a, seen, atomic, related⟩ := Machine.simulates Refines
    (fun _ _ _ _ action _ _ related taken => step_refines action related taken)
    Refines.initial run
  exact ⟨a, seen, atomic, related.server, related.worker, related.events, related.calls⟩

theorem framing_outside_lock_sample :
    ∃ s trace a seen, Machine.exec step sampleRun State.initial = some (s, trace) ∧
      Machine.exec atomicStep (Machine.placed step placePublish sampleRun State.initial)
        AtomicState.initial = some (a, seen) ∧
      a.server = s.server ∧ callsOf 1 seen = [(samplePacket, .queued 1)] := by
  obtain ⟨s, trace, run⟩ : ∃ s trace,
      Machine.exec step sampleRun State.initial = some (s, trace) := ⟨_, _, rfl⟩
  have reached : (Machine.exec step sampleRun State.initial).map
      (fun r => (callsOf 1 r.2, r.1.publishers 1)) = some ([(samplePacket, .queued 1)], .idle) := rfl
  obtain ⟨calls, position⟩ : callsOf 1 trace = [(samplePacket, .queued 1)] ∧
      s.publishers 1 = .idle := by
    simpa [run] using reached
  obtain ⟨a, seen, atomic, server, _, _, same⟩ := framing_outside_lock run
  exact ⟨s, trace, a, seen, run, atomic, server, by rw [same 1, calls, position]; rfl⟩

end Quest.Transport
