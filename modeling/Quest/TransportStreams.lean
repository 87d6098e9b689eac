import Quest.Library.Segment
import Quest.TransportHistory

/-! The calls of each publisher against the connections: those queued under one
connection are an unbroken run of the calls that did not throw, from a keyframe on. -/
namespace Quest.Transport

def Publisher.packet : Publisher → Option EncodedPacket
  | .idle => none
  | .calling p => some p
  | .framing p => some p
  | .framed p _ => some p

def Server.Admitting (s : Server) : Prop := s.connected = true ∧ s.disconnect = false

def QueuedUnder (k : Nat) (call : EncodedPacket × Result) : Prop := call.2 = .queued k

instance : DecidablePred (QueuedUnder k) := fun call => inferInstanceAs (Decidable (call.2 = _))

abbrev Contiguous (k : Nat) : List (EncodedPacket × Result) → Prop :=
  Segment.Contiguous (QueuedUnder k) (·.1.keyframe = true)

abbrev Growing (k : Nat) : List (EncodedPacket × Result) → Prop :=
  Segment.Growing (QueuedUnder k) (·.1.keyframe = true)

abbrev Unqueued (k : Nat) : List (EncodedPacket × Result) → Prop :=
  Segment.Unmarked (QueuedUnder k)

theorem unqueued_single {k : Nat} {p : EncodedPacket} {result : Result}
    (other : result ≠ .queued k) : Unqueued k [(p, result)] := by
  intro call member
  rw [List.mem_singleton.mp member]
  exact other

/-- One publisher against the admission flags of its stream: it has queued nothing under
the current connection while it waits for a keyframe, and everything since it stopped. -/
structure Streaming (s : Server) (t : Fin MonitorCount) (calls : List (EncodedPacket × Result)) :
    Prop where
  contiguous : ∀ k, Contiguous k calls
  fresh : ∀ k, s.accepted < k → Unqueued k calls
  waiting : s.Admitting → s.waitingForKeyframe t = true → Unqueued s.accepted calls
  growing : s.Admitting → s.waitingForKeyframe t = false → Growing s.accepted calls

theorem Streaming.initial (t : Fin MonitorCount) : Streaming Server.initial t [] := by
  refine ⟨fun k => Segment.unmarked_nil.contiguous, fun _ _ => Segment.unmarked_nil, ?_, ?_⟩ <;>
    simp [Server.Admitting, Server.initial]

theorem Streaming.of_admission {s next : Server} {t : Fin MonitorCount}
    {calls : List (EncodedPacket × Result)} (streaming : Streaming s t calls)
    (accepted : next.accepted = s.accepted)
    (admission : next.Admitting →
      s.Admitting ∧ next.waitingForKeyframe t = s.waitingForKeyframe t) :
    Streaming next t calls where
  contiguous := streaming.contiguous
  fresh := by rw [accepted]; exact streaming.fresh
  waiting := by
    intro admitting waiting
    obtain ⟨before, same⟩ := admission admitting
    rw [accepted]
    exact streaming.waiting before (same ▸ waiting)
  growing := by
    intro admitting clear
    obtain ⟨before, same⟩ := admission admitting
    rw [accepted]
    exact streaming.growing before (same ▸ clear)

theorem Streaming.blocked {s next : Server} {t : Fin MonitorCount}
    {calls : List (EncodedPacket × Result)} (streaming : Streaming s t calls)
    (accepted : next.accepted = s.accepted) (blocked : ¬next.Admitting) : Streaming next t calls :=
  streaming.of_admission accepted fun admitting => absurd admitting blocked

/-- A call that did not queue its packet leaves the run as it is, unless the run could
still have grown. -/
theorem Streaming.skipped {s : Server} {t : Fin MonitorCount}
    {calls : List (EncodedPacket × Result)} (streaming : Streaming s t calls) (p : EncodedPacket)
    {result : Result} (unqueued : ∀ k, result ≠ .queued k)
    (blocked : s.Admitting → s.waitingForKeyframe t = true) :
    Streaming s t (calls ++ [(p, result)]) where
  contiguous k := (streaming.contiguous k).append (unqueued_single (unqueued k))
  fresh k later := (streaming.fresh k later).append (unqueued_single (unqueued k))
  waiting admitting waiting :=
    (streaming.waiting admitting waiting).append (unqueued_single (unqueued _))
  growing admitting clear := by simp [blocked admitting] at clear

theorem Streaming.queued {s next : Server} {t : Fin MonitorCount}
    {calls : List (EncodedPacket × Result)} (streaming : Streaming s t calls) {p : EncodedPacket}
    (admitting : s.Admitting) (startable : s.waitingForKeyframe t = true → p.keyframe = true)
    (accepted : next.accepted = s.accepted) (clear : next.waitingForKeyframe t = false) :
    Streaming next t (calls ++ [(p, .queued s.accepted)]) := by
  have growing : Growing s.accepted (calls ++ [(p, .queued s.accepted)]) := by
    cases waiting : s.waitingForKeyframe t with
    | true => exact (streaming.waiting admitting waiting).start rfl (startable waiting)
    | false => exact (streaming.growing admitting waiting).grow rfl
  refine ⟨fun k => ?_, fun k later => ?_, fun _ waiting => ?_, fun _ _ => accepted ▸ growing⟩
  · by_cases current : s.accepted = k
    · exact current ▸ growing.contiguous
    · exact (streaming.contiguous k).append (unqueued_single (by simpa using current))
  · rw [accepted] at later
    exact (streaming.fresh k later).append (unqueued_single (by simpa using Nat.ne_of_lt later))
  · simp [clear] at waiting

theorem WorkerMoved.streaming {s next : Server} {w worker : Worker} {events : List WorkerEvent}
    (moved : WorkerMoved s w next worker events) {t : Fin MonitorCount}
    {calls : List (EncodedPacket × Result)} (streaming : Streaming s t calls) :
    Streaming next t calls := by
  rcases moved.admission with ⟨connected, disconnect, accepted, waiting, _⟩ | ⟨closed, accepted⟩ |
    ⟨accepted, waiting, _⟩
  · refine streaming.of_admission accepted fun admitting => ⟨?_, by rw [waiting]⟩
    rwa [Server.Admitting, connected, disconnect] at admitting
  · exact streaming.blocked accepted (by simp [Server.Admitting, closed])
  · refine ⟨streaming.contiguous, fun k later => streaming.fresh k (by omega), fun _ _ => ?_, ?_⟩
    · exact streaming.fresh _ (by omega)
    · simp [waiting]

/-- The other publishers' runs do not notice a call. -/
theorem Published.others {s next : Server} {p : EncodedPacket} {framed : List UInt8}
    {result : Result} (published : Published s p framed next result) {t : Fin MonitorCount}
    (other : streamIndex p.monitorId ≠ some t) {calls : List (EncodedPacket × Result)}
    (streaming : Streaming s t calls) : Streaming next t calls := by
  cases published with
  | unserved => exact streaming
  | unindexed => exact streaming
  | dropped => exact streaming.of_admission rfl fun admitting => ⟨admitting, rfl⟩
  | overflow => exact streaming.blocked rfl (by simp [Server.Admitting])
  | queued _ _ index =>
    refine streaming.of_admission rfl fun admitting => ⟨admitting, Function.update_of_ne ?_ _ _⟩
    rintro rfl
    exact other index

theorem Checked.streaming {s next : Server} {p : EncodedPacket} {result : Option Result}
    (checked : Checked s p next result) {t : Fin MonitorCount}
    {calls : List (EncodedPacket × Result)} (streaming : Streaming s t calls) :
    Streaming next t calls := by
  cases checked with
  | dropped => exact streaming.of_admission rfl fun admitting => ⟨admitting, rfl⟩
  | _ => exact streaming

def extended (calls : List (EncodedPacket × Result)) (p : EncodedPacket) (result : Result) :
    List (EncodedPacket × Result) :=
  calls ++ if result.thrown then [] else [(p, result)]

theorem Published.own {s next : Server} {p : EncodedPacket} {framed : List UInt8}
    {result : Result} (published : Published s p framed next result) {t : Fin MonitorCount}
    (home : streamIndex p.monitorId = some t) {calls : List (EncodedPacket × Result)}
    (streaming : Streaming s t calls) : Streaming next t (extended calls p result) := by
  cases published with
  | unserved closed =>
    refine streaming.skipped p (by simp) fun admitting => ?_
    simp [admitting.1, admitting.2] at closed
  | unindexed => simpa [extended, Result.thrown] using streaming
  | dropped _ _ index waiting =>
    obtain rfl := Option.some.inj (index.symm.trans home)
    exact (streaming.skipped p (by simp) fun _ => waiting).of_admission rfl
      fun admitting => ⟨admitting, rfl⟩
  | overflow =>
    have unqueued (k : Nat) : Result.overflow ≠ .queued k := by simp
    refine Streaming.skipped ?_ p unqueued fun admitting => ?_
    · exact streaming.blocked rfl (by simp [Server.Admitting])
    · simp [Server.Admitting] at admitting
  | queued connected staying index startable =>
    obtain rfl := Option.some.inj (index.symm.trans home)
    exact streaming.queued ⟨connected, staying⟩ startable rfl (by simp)

theorem Checked.own {s next : Server} {p : EncodedPacket} {result : Result}
    (checked : Checked s p next (some result)) {t : Fin MonitorCount}
    (home : streamIndex p.monitorId = some t) {calls : List (EncodedPacket × Result)}
    (streaming : Streaming s t calls) : Streaming next t (extended calls p result) := by
  cases checked with
  | unserved closed =>
    refine streaming.skipped p (by simp) fun admitting => ?_
    simp [admitting.1, admitting.2] at closed
  | unindexed => simpa [extended, Result.thrown] using streaming
  | dropped _ _ index waiting =>
    obtain rfl := Option.some.inj (index.symm.trans home)
    exact (streaming.skipped p (by simp) fun _ => waiting).of_admission rfl
      fun admitting => ⟨admitting, rfl⟩

structure Streams (s : State (Fin MonitorCount)) (trace : List (Event (Fin MonitorCount))) :
    Prop where
  homed : Homed trace
  positions : ∀ t p, (s.publishers t).packet = some p → streamIndex p.monitorId = some t
  streaming : ∀ t, Streaming s.server t (handed t trace)

theorem Streams.initial : Streams State.initial [] where
  homed := by simp [Homed]
  positions := by simp [State.initial, Publisher.packet]
  streaming := Streaming.initial

theorem positions_place {s : State (Fin MonitorCount)} {t : Fin MonitorCount} {position : Publisher}
    (positions : ∀ t p, (s.publishers t).packet = some p → streamIndex p.monitorId = some t)
    (fresh : ∀ p, position.packet = some p → streamIndex p.monitorId = some t) :
    ∀ u p, ((s.place t position).publishers u).packet = some p →
      streamIndex p.monitorId = some u := by
  intro u p carried
  by_cases same : u = t
  · subst u
    exact fresh p (by simpa [State.place] using carried)
  · exact positions u p (by simpa [State.place, same] using carried)

theorem Streams.returned {s : State (Fin MonitorCount)} {trace : List (Event (Fin MonitorCount))}
    (streams : Streams s trace) {t : Fin MonitorCount} {p : EncodedPacket} (server : Server)
    (result : Result) (home : streamIndex p.monitorId = some t)
    (own : ∀ calls, Streaming s.server t calls → Streaming server t (extended calls p result))
    (others : ∀ u, u ≠ t → ∀ calls, Streaming s.server u calls → Streaming server u calls) :
    Streams (State.place { s with server := server } t .idle)
      (trace ++ [.published t p result]) where
  homed := by
    intro u q given member
    rcases List.mem_append.mp member with member | member
    · exact streams.homed u q given member
    · cases List.mem_singleton.mp member
      exact home
  positions :=
    positions_place (s := { s with server := server }) streams.positions (by simp [Publisher.packet])
  streaming := by
    intro u
    rw [handed_append]
    by_cases same : u = t
    · subst u
      rw [handed_published_same]
      exact own _ (streams.streaming _)
    · rw [handed_published_other same, List.append_nil]
      exact others u same _ (streams.streaming u)

theorem Streams.step {s next : State (Fin MonitorCount)}
    {trace emitted : List (Event (Fin MonitorCount))} {a : Action (Fin MonitorCount)}
    (streams : Streams s trace)
    (owned : ∀ t p, a = .call t p → streamIndex p.monitorId = some t)
    (taken : step s a = some (next, emitted)) : Streams next (trace ++ emitted) := by
  cases step_stepped taken with
  | @called t p =>
    rw [List.append_nil]
    refine ⟨streams.homed, positions_place streams.positions ?_, streams.streaming⟩
    rintro _ ⟨⟩
    exact owned t p rfl
  | @checked t p server result position checked =>
    exact streams.returned server result (streams.positions t p (by simp [position, Publisher.packet]))
      (fun _ => checked.own (streams.positions t p (by simp [position, Publisher.packet])))
      (fun _ _ _ => checked.streaming)
  | @passed t p server position checked =>
    rw [List.append_nil]
    refine ⟨streams.homed, positions_place (s := { s with server := server }) streams.positions ?_,
      fun u => checked.streaming (streams.streaming u)⟩
    rintro _ ⟨⟩
    exact streams.positions t p (by simp [position, Publisher.packet])
  | @framed t p bytes position =>
    rw [List.append_nil]
    refine ⟨streams.homed, positions_place streams.positions ?_, streams.streaming⟩
    rintro _ ⟨⟩
    exact streams.positions t p (by simp [position, Publisher.packet])
  | @unframable t p message position =>
    exact streams.returned s.server _ (streams.positions t p (by simp [position, Publisher.packet]))
      (fun _ streaming => by simpa [extended, Result.thrown] using streaming) (fun _ _ _ => id)
  | @enqueued t p bytes server result position published =>
    have home := streams.positions t p (by simp [position, Publisher.packet])
    refine streams.returned server result home (fun _ => published.own home) fun u other _ => ?_
    exact published.others (by rw [home]; simpa using Ne.symm other)
  | worker _ moved =>
    refine ⟨?_, streams.positions, fun t => ?_⟩
    · intro t p result member
      exact streams.homed t p result (by simpa using member)
    · simpa using moved.streaming (streams.streaming t)
  | taken =>
    rw [List.append_nil]
    exact ⟨streams.homed, streams.positions, fun t => (streams.streaming t).of_admission rfl
      fun admitting => ⟨admitting, rfl⟩⟩
  | shutdown =>
    rw [List.append_nil]
    exact ⟨streams.homed, streams.positions, fun t => (streams.streaming t).of_admission rfl
      fun admitting => ⟨admitting, rfl⟩⟩

theorem overflow_disconnects {s next : State (Fin MonitorCount)} {t : Fin MonitorCount}
    {p : EncodedPacket} {a : Action (Fin MonitorCount)}
    (taken : step s a = some (next, [.published t p .overflow])) :
    next.server.disconnect = true ∧ next.server.accepted = s.server.accepted ∧
      next.worker = s.worker := by
  generalize event : [Event.published t p Result.overflow] = emitted at taken
  cases step_stepped taken with
  | checked _ checked => cases checked <;> simp at event
  | enqueued _ published =>
    cases published with
    | overflow => exact ⟨rfl, rfl, rfl⟩
    | _ => simp at event
  | @worker server worker events => cases events <;> simp at event
  | _ => simp at event

theorem run_streams {actions : List (Action (Fin MonitorCount))} {s : State (Fin MonitorCount)}
    {trace : List (Event (Fin MonitorCount))}
    (owned : ∀ t p, .call t p ∈ actions → streamIndex p.monitorId = some t)
    (run : Machine.exec step actions State.initial = some (s, trace)) :
    Invariant s ∧ Flow s trace ∧ Streams s trace := by
  have guarded : Machine.Along step
      (fun _ a => ∀ t p, a = .call t p → streamIndex p.monitorId = some t) actions State.initial :=
    Machine.along_of_forall (fun _ member _ t p call => owned t p (by rwa [← call])) _
  refine Machine.guarded_history (fun s trace => Invariant s ∧ Flow s trace ∧ Streams s trace)
    ?_ [] ⟨initial_invariant, .initial, .initial⟩ guarded run
  rintro s trace a next emitted ⟨valid, flow, streams⟩ owned taken
  exact ⟨step_invariant valid taken, flow.step valid taken, streams.step owned taken⟩

/-- On every connection `send` took a prefix of the framed packets queued under it, each
stream's share of them is an unbroken run of its publisher's calls that starts with a
keyframe, and an overflow leaves only the rest of the packet that was being sent. -/
theorem stream_integrity {actions : List (Action (Fin MonitorCount))}
    {s : State (Fin MonitorCount)} {trace : List (Event (Fin MonitorCount))}
    (owned : ∀ t p, .call t p ∈ actions → streamIndex p.monitorId = some t)
    (run : Machine.exec step actions State.initial = some (s, trace)) :
    (∀ k, sentOn k trace <+: (queuedOn k trace).flatMap wire ∧
      ∀ p ∈ queuedOn k trace, framePacket p = .ok (wire p)) ∧
    (∀ k stream, ∃ before segment after, handed stream trace = before ++ segment ++ after ∧
      (queuedOn k trace).filter (fun p => streamIndex p.monitorId = some stream) =
        segment.map Prod.fst ∧
      (∀ call ∈ segment, call.2 = .queued k) ∧ (∀ call ∈ before ++ after, call.2 ≠ .queued k) ∧
      ∀ call, segment.head? = some call → call.1.keyframe = true) ∧
    ∀ t p a next, step s a = some (next, [.published t p .overflow]) →
      ∀ rest final later, Machine.exec step rest next = some (final, later) →
        queuedOn s.server.accepted later = [] ∧
          sentOn s.server.accepted later <+: s.worker.remaining s.server.accepted := by
  obtain ⟨valid, flow, streams⟩ := run_streams owned run
  refine ⟨fun k => ⟨?_, flow.framable k⟩, fun k stream => ?_, ?_⟩
  · exact (List.prefix_append _ _).trans (flow.sent k)
  · obtain ⟨before, segment, after, split, left, right, marked, starts⟩ :=
      (streams.streaming stream).contiguous k
    refine ⟨before, segment, after, split, ?_, marked, left.append right, starts⟩
    rw [queuedOn_stream k stream streams.homed, split]
    exact congrArg _ (Segment.filter_run left right marked)
  · intro t p a next taken rest final later run
    obtain ⟨leaving, accepted, worker⟩ := overflow_disconnects taken
    have drained := drained_run (step_invariant valid taken) leaving run
    rw [accepted, worker] at drained
    exact ⟨drained.unqueued, (List.prefix_append _ _).trans drained.sent⟩

theorem stream_integrity_sample :
    ∃ s trace, Machine.exec step sampleRun State.initial = some (s, trace) ∧
      queuedOn 1 trace = [samplePacket] ∧ (sentOn 1 trace).length = 10 ∧
      sentOn 1 trace <+: (queuedOn 1 trace).flatMap wire := by
  obtain ⟨s, trace, run⟩ : ∃ s trace,
      Machine.exec step sampleRun State.initial = some (s, trace) := ⟨_, _, rfl⟩
  have reached : (Machine.exec step sampleRun State.initial).map
      (fun r => (queuedOn 1 r.2, (sentOn 1 r.2).length)) = some ([samplePacket], 10) := rfl
  obtain ⟨queued, sent⟩ : queuedOn 1 trace = [samplePacket] ∧ (sentOn 1 trace).length = 10 := by
    simpa [run] using reached
  have owned : ∀ t p, Action.call t p ∈ sampleRun → streamIndex p.monitorId = some t := by
    intro t p member
    simp only [sampleRun, List.mem_cons, reduceCtorEq, List.not_mem_nil, false_or, or_false,
      Action.call.injEq] at member
    obtain ⟨rfl, rfl⟩ := member
    rfl
  exact ⟨s, trace, run, queued, sent, ((stream_integrity owned run).1 1).1⟩

end Quest.Transport
