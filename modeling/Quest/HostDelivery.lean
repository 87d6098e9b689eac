import Quest.HostToReceiver
import Quest.KeyframeRequests

/-! What a client receives of a running host. Every step of the stream workers and of the
transport is observed, with the packets that the sinks have recorded; what a receiver takes off
any connection is, stream by stream, a part of those recordings. -/
namespace Quest.Host

open Transport (callsOf handed queuedOn sentOn)

/-- What can be seen of a step: the transport's own events, and a packet that a sink has
written to the file of its stream and hands on to `publish`. -/
inductive Observation where
  | transport (event : Transport.Event (Fin MonitorCount))
  | recorded (stream : Fin MonitorCount) (p : EncodedPacket)

def transportEvents (trace : List Observation) : List (Transport.Event (Fin MonitorCount)) :=
  trace.filterMap fun
    | .transport event => some event
    | .recorded _ _ => none

def recordings (stream : Fin MonitorCount) (trace : List Observation) : List EncodedPacket :=
  trace.filterMap fun
    | .transport _ => none
    | .recorded other p => if other = stream then some p else none

def transportView (s : State) (a : Transport.Action (Fin MonitorCount)) : List Observation :=
  (Transport.step s.transport a).elim [] fun taken => taken.2.map .transport

/-- A write that fails throws before the packet is handed on. -/
def observe (s : State) : Action → List Observation
  | .server a => transportView s (.worker a)
  | .shutdown => transportView s .shutdown
  | .check stream => transportView s (.check stream)
  | .frame stream => transportView s (.frame stream)
  | .enqueue stream => transportView s (.enqueue stream)
  | .stream stream (.receive data true) =>
    match (s.streams stream).encoder.receive data with
    | some (_, _, .ok packet) => [.recorded stream packet]
    | _ => []
  | .stream _ _ => []

def observedStep : Machine.Step State Action Observation := fun s a =>
  (act s a).map fun next => (next, observe s a)

@[simp] theorem transportEvents_append (first rest : List Observation) :
    transportEvents (first ++ rest) = transportEvents first ++ transportEvents rest :=
  List.filterMap_append

@[simp] theorem transportEvents_transport
    (events : List (Transport.Event (Fin MonitorCount))) :
    transportEvents (events.map .transport) = events := by
  simp [transportEvents, List.filterMap_map]

@[simp] theorem recordings_append (stream : Fin MonitorCount) (first rest : List Observation) :
    recordings stream (first ++ rest) = recordings stream first ++ recordings stream rest :=
  List.filterMap_append

@[simp] theorem recordings_transport (stream : Fin MonitorCount)
    (events : List (Transport.Event (Fin MonitorCount))) :
    recordings stream (events.map .transport) = [] := by
  simp [recordings]

inductive Worked (w : StreamWorker) : StreamWorker → Prop where
  | failed : worker.phase = .failed → Worked w worker
  | kept : w.phase ≠ .failed → worker.phase ≠ .failed → worker.encoder = w.encoder →
      Worked w worker
  | submitted (ptsUs presentationUs : Int64) (forced : Bool) : w.phase ≠ .failed →
      worker.phase ≠ .failed → worker.encoder = w.encoder.submit ptsUs forced presentationUs →
      Worked w worker

inductive Acted (s : State) : State → List Observation → Prop where
  | served (b : Transport.Action (Fin MonitorCount)) : (∃ a, b = .worker a) ∨ b = .shutdown →
      Transport.step s.transport b = some (transport, events) →
      Acted s { s with transport := transport } (events.map .transport)
  | published (i : Fin MonitorCount) (b : Transport.Action (Fin MonitorCount)) :
      b = .check i ∨ b = .frame i ∨ b = .enqueue i →
      Transport.step s.transport b = some (transport, events) →
      Acted s
        ({ s with transport := transport }.put i
          (if thrown events then { s.streams i with phase := .failed } else s.streams i))
        (events.map .transport)
  | worked (i : Fin MonitorCount) : s.transport.publishers i = .idle →
      Worked (s.streams i) worker → Acted s (s.put i worker) []
  | took (i : Fin MonitorCount) : s.transport.publishers i = .idle →
      Worked (s.streams i) worker →
      Transport.step s.transport (.take i) = some (transport, []) →
      Acted s ({ s with transport := transport }.put i worker) []
  | handed (i : Fin MonitorCount) : s.transport.publishers i = .idle →
      (s.streams i).phase ≠ .failed →
      (s.streams i).encoder.receive data = some (encoder, frame, .ok p) →
      Transport.step s.transport (.call i p) = some (transport, []) →
      Acted s
        ({ s with transport := transport }.put i
          { s.streams i with encoder := encoder, handing := some frame })
        [.recorded i p]

theorem receive_acted {s next : State} {i : Fin MonitorCount} {data : List UInt8} {written : Bool}
    (idle : s.transport.publishers i = .idle) (running : (s.streams i).phase ≠ .failed)
    (taken : receive s i data written = some next) :
    Acted s next (observe s (.stream i (.receive data written))) := by
  have unseen : observe s (.stream i (.receive data false)) = [] := rfl
  simp only [receive] at taken
  split at taken
  next => contradiction
  next encoder frame result received =>
    split at taken
    next => contradiction
    split at taken
    next message =>
      cases taken
      have nothing : observe s (.stream i (.receive data written)) = [] := by
        cases written <;> simp [observe, received]
      rw [nothing]
      exact .worked i idle (.failed rfl)
    next packet =>
      split at taken
      next wrote =>
        obtain ⟨called, stepped, rfl⟩ := Option.map_eq_some_iff.mp taken
        obtain ⟨⟨transport, events⟩, placed, rfl⟩ := Option.map_eq_some_iff.mp stepped
        have silent : events = [] := by
          simp only [Transport.step, idle, Option.some.injEq, Prod.mk.injEq] at placed
          exact placed.2.symm
        subst silent
        have seen : observe s (.stream i (.receive data written)) = [.recorded i packet] := by
          simp [observe, wrote, received]
        rw [seen]
        exact .handed i idle running received placed
      next failed =>
        cases taken
        rw [Bool.eq_false_iff.mpr failed, unseen]
        exact .worked i idle (.failed rfl)

theorem next_worked {w : StreamWorker} (head : w.phase = .head) (outcome : Next) :
    Worked w (w.next outcome) := by
  have running : w.phase ≠ .failed := by simp [head]
  cases outcome with
  | sample ptsUs => exact .kept running (by simp [StreamWorker.next]) rfl
  | empty => exact .kept running (by simp [StreamWorker.next]) rfl
  | failed recovered =>
    simp only [StreamWorker.next]
    split
    · exact .kept running running rfl
    · exact .failed rfl

theorem encode_worked {w : StreamWorker} (deciding : w.phase = .deciding)
    (ptsUs presentationUs : Int64) (sent : Bool) :
    Worked w (w.encode ptsUs presentationUs sent) := by
  simp only [StreamWorker.encode]
  split
  · exact .submitted ptsUs presentationUs w.forcePending (by simp [deciding]) (by simp) rfl
  · exact .failed rfl

theorem encoded_worked {w : StreamWorker} (draining : w.phase = .draining) :
    Worked w w.encoded := by
  have running : w.phase ≠ .failed := by simp [draining]
  simp only [StreamWorker.encoded]
  split
  · exact .kept running (by simp) rfl
  · exact .kept running (by simp) rfl

inductive Looped (s : State) (i : Fin MonitorCount) : StreamAction → State → Prop where
  | next (outcome : Next) : (s.streams i).phase = .head →
      Looped s i (.next outcome) (s.put i ((s.streams i).next outcome))
  | take (server : Transport.Server) (requested : Bool) : (s.streams i).phase = .taking →
      Transport.takeKeyframeRequest s.transport.server i = (server, requested) →
      Looped s i .take
        ({ s with transport := { s.transport with server := server } }.put i { s.streams i with
          forcePending := (s.streams i).forcePending || requested, phase := .deciding })
  | encode (elapsed sent : Bool) (ptsUs presentationUs : Int64) : (s.streams i).phase = .deciding →
      Looped s i (.encode elapsed presentationUs sent)
        (s.put i ((s.streams i).encode ptsUs presentationUs sent))
  | skip (late : Bool) : (s.streams i).phase = .deciding →
      Looped s i (.skip late) (s.put i { s.streams i with
        phase := if (s.streams i).consumed = 0 ∧ late = true then .failed else .head })
  | receive (data : List UInt8) (written : Bool) :
      (s.streams i).phase = .draining ∨ (s.streams i).phase = .flushing →
      Host.receive s i data written = some next → Looped s i (.receive data written) next
  | drained : (s.streams i).phase = .draining → Looped s i .drained (s.put i (s.streams i).encoded)
  | flushed : (s.streams i).phase = .flushing →
      Looped s i .drained (s.put i { s.streams i with phase := .finished })
  | leave (sent : Bool) : (s.streams i).phase = .head →
      Looped s i (.leave sent)
        (s.put i { s.streams i with phase := if sent then .flushing else .failed })
  | raise : Looped s i .raise (s.put i { s.streams i with phase := .failed })

theorem streamStep_looped {s next : State} {i : Fin MonitorCount} {a : StreamAction}
    (taken : streamStep s i a = some next) : Looped s i a next := by
  unfold streamStep at taken
  dsimp only at taken
  cases a <;> cases phase : (s.streams i).phase <;> rw [phase] at taken <;> dsimp only at taken <;>
    first | contradiction | skip
  case next.head outcome => cases taken; exact .next outcome phase
  case take.taking => cases taken; exact .take _ _ phase rfl
  case encode.deciding elapsed presentationUs sent =>
    obtain ⟨ptsUs, _, rfl⟩ := Option.map_eq_some_iff.mp taken
    exact .encode elapsed sent ptsUs presentationUs phase
  case skip.deciding late =>
    split at taken
    · cases taken; exact .skip late phase
    · contradiction
  case receive.draining data written => exact .receive data written (.inl phase) taken
  case receive.flushing data written => exact .receive data written (.inr phase) taken
  case drained.draining => cases taken; exact .drained phase
  case drained.flushing => cases taken; exact .flushed phase
  case leave.head sent => cases taken; exact .leave sent phase
  all_goals
    cases taken
    exact .raise

theorem streamStep_acted {s next : State} {i : Fin MonitorCount} {a : StreamAction}
    (idle : s.transport.publishers i = .idle) (taken : streamStep s i a = some next) :
    Acted s next (observe s (.stream i a)) := by
  cases streamStep_looped taken with
  | next outcome head => exact .worked i idle (next_worked head _)
  | take server requested taking request =>
    refine .took i idle (.kept (by simp [taking]) (by simp) rfl) ?_
    rw [Transport.step, request]
  | encode elapsed sent ptsUs presentationUs deciding =>
    exact .worked i idle (encode_worked deciding _ _ _)
  | skip late deciding =>
    refine .worked i idle ?_
    split
    · exact .failed rfl
    · exact .kept (by simp [deciding]) (by simp) rfl
  | receive data written inside received =>
    exact receive_acted idle (by rcases inside with inside | inside <;> simp [inside]) received
  | drained draining => exact .worked i idle (encoded_worked draining)
  | flushed flushing => exact .worked i idle (.kept (by simp [flushing]) (by simp) rfl)
  | leave sent head =>
    refine .worked i idle ?_
    split
    · exact .kept (by simp [head]) (by simp) rfl
    · exact .failed rfl
  | raise => exact .worked i idle (.failed rfl)

theorem publishStep_acted {s next : State} {i : Fin MonitorCount}
    {b : Transport.Action (Fin MonitorCount)} (inside : b = .check i ∨ b = .frame i ∨ b = .enqueue i)
    (taken : publishStep s i b = some next) : Acted s next (transportView s b) := by
  obtain ⟨⟨transport, events⟩, stepped, rfl⟩ := Option.map_eq_some_iff.mp taken
  have seen : transportView s b = events.map .transport := by simp [transportView, stepped]
  rw [seen]
  exact .published i b inside stepped

theorem serverStep_acted {s next : State} {b : Transport.Action (Fin MonitorCount)}
    (outside : (∃ a, b = .worker a) ∨ b = .shutdown) (taken : serverStep s b = some next) :
    Acted s next (transportView s b) := by
  obtain ⟨⟨transport, events⟩, stepped, rfl⟩ := Option.map_eq_some_iff.mp taken
  have seen : transportView s b = events.map .transport := by simp [transportView, stepped]
  rw [seen]
  exact .served b outside stepped

theorem observedStep_acted {s next : State} {a : Action} {seen : List Observation}
    (taken : observedStep s a = some (next, seen)) : Acted s next seen := by
  obtain ⟨after, acted, same⟩ := Option.map_eq_some_iff.mp taken
  cases same
  cases a with
  | server a => exact serverStep_acted (.inl ⟨a, rfl⟩) acted
  | shutdown => exact serverStep_acted (.inr rfl) acted
  | check i => exact publishStep_acted (.inl rfl) acted
  | frame i => exact publishStep_acted (.inr (.inl rfl)) acted
  | enqueue i => exact publishStep_acted (.inr (.inr rfl)) acted
  | stream i a =>
    simp only [act] at acted
    split at acted
    next free => exact streamStep_acted free.1 acted
    next => contradiction

/-- One stream: its encoder has emitted what is recorded, and `publish` has been called with
the recorded packets in order, up to one call in progress. -/
structure Fed (i : Fin MonitorCount) (position : Transport.Publisher) (w : StreamWorker)
    (calls : List (EncodedPacket × Transport.Result)) (recorded : List EncodedPacket) : Prop where
  emits : ∃ e, VideoEncoder.Emits (.ofNat i) e recorded
  encoder : w.phase ≠ .failed → VideoEncoder.Emits (.ofNat i) w.encoder recorded
  published : calls.map Prod.fst ++ position.packet.toList = recorded
  failed : w.phase = .failed → position = .idle
  returned : w.phase ≠ .failed → ∀ call ∈ calls, call.2.thrown = false
  unbroken : (calls.filter fun call => !call.2.thrown) <+: calls

variable {i : Fin MonitorCount} {position : Transport.Publisher} {w : StreamWorker}
  {calls : List (EncodedPacket × Transport.Result)} {recorded : List EncodedPacket}

theorem initial_fed (i : Fin MonitorCount) (canRetry : Bool) :
    Fed i .idle (.initial i canRetry) [] [] where
  emits := ⟨_, VideoEncoder.emits_initial _⟩
  encoder _ := VideoEncoder.emits_initial _
  published := rfl
  failed _ := rfl
  returned := by simp
  unbroken := List.nil_prefix

theorem Fed.worked {worker : StreamWorker} (fed : Fed i .idle w calls recorded)
    (worked : Worked w worker) : Fed i .idle worker calls recorded := by
  cases worked with
  | failed ended =>
    exact ⟨fed.emits, fun running => absurd ended running, fed.published, fun _ => rfl,
      fun running => absurd ended running, fed.unbroken⟩
  | kept running alive same =>
    exact ⟨fed.emits, fun _ => same ▸ fed.encoder running, fed.published,
      fun ended => absurd ended alive, fun _ => fed.returned running, fed.unbroken⟩
  | submitted ptsUs presentationUs forced running alive same =>
    refine ⟨fed.emits, fun _ => ?_, fed.published, fun ended => absurd ended alive,
      fun _ => fed.returned running, fed.unbroken⟩
    rw [same]
    exact (fed.encoder running).submit ptsUs forced presentationUs

/-- The sink records a packet and calls `publish` with it. -/
theorem Fed.handed {data : List UInt8} {encoder : VideoEncoder} {frame : Submission}
    {p : EncodedPacket} (fed : Fed i .idle w calls recorded) (running : w.phase ≠ .failed)
    (received : w.encoder.receive data = some (encoder, frame, .ok p)) :
    Fed i (.calling p) { w with encoder := encoder, handing := some frame } calls
      (recorded ++ [p]) := by
  have emits := (fed.encoder running).receive received
  have published := fed.published
  simp only [Transport.Publisher.packet, Option.toList_none, List.append_nil] at published
  refine ⟨⟨_, emits⟩, fun _ => emits, ?_, fun ended => absurd ended running,
    fun _ => fed.returned running, fed.unbroken⟩
  rw [published]
  rfl

theorem Fed.advanced {later : Transport.Publisher} (fed : Fed i position w calls recorded)
    (same : later.packet = position.packet) (busy : position ≠ .idle) :
    Fed i later w calls recorded :=
  ⟨fed.emits, fed.encoder, same ▸ fed.published,
    fun ended => absurd (fed.failed ended) busy, fed.returned, fed.unbroken⟩

/-- The call returns, or it throws and ends the worker. -/
theorem Fed.finished {p : EncodedPacket} {result : Transport.Result}
    (fed : Fed i position w calls recorded) (carried : position.packet = some p) :
    Fed i .idle (if thrown [.published i p result] then { w with phase := .failed } else w)
      (calls ++ [(p, result)]) recorded := by
  have running : w.phase ≠ .failed := fun ended => by
    simp [fed.failed ended, Transport.Publisher.packet] at carried
  have earlier := fed.returned running
  have whole : calls.filter (fun call => !call.2.thrown) = calls :=
    List.filter_eq_self.mpr fun call member => by simp [earlier call member]
  have published : (calls ++ [(p, result)]).map Prod.fst ++ [] = recorded := by
    rw [← fed.published, carried]
    simp
  have unbroken : ((calls ++ [(p, result)]).filter fun call => !call.2.thrown) <+:
      calls ++ [(p, result)] := by
    rw [List.filter_append, whole, List.prefix_append_right_inj]
    cases threw : result.thrown <;> simp [threw]
  cases threw : result.thrown with
  | true =>
    simp only [thrown, List.any_cons, threw, List.any_nil, Bool.or_false, if_true]
    exact ⟨fed.emits, fun alive => absurd rfl alive, published, fun _ => rfl,
      fun alive => absurd rfl alive, unbroken⟩
  | false =>
    have kept : thrown [.published i p result] = false := by simp [thrown, threw]
    rw [kept]
    refine ⟨fed.emits, fed.encoder, published, fun _ => rfl, fun _ => ?_, unbroken⟩
    simpa [or_imp, forall_and, threw] using earlier

structure Delivering (s : State) (trace : List Observation) : Prop where
  transport : Transport.Invariant s.transport
  flow : Transport.Flow s.transport (transportEvents trace)
  streams : Transport.Streams s.transport (transportEvents trace)
  fed : ∀ i, Fed i (s.transport.publishers i) (s.streams i) (callsOf i (transportEvents trace))
    (recordings i trace)

theorem initial_delivering (canRetry : Bool) : Delivering (.initial canRetry) [] :=
  ⟨Transport.initial_invariant, .initial, .initial, fun i => initial_fed i canRetry⟩

/-- A step that the transport takes; the streams are left to show. -/
theorem Delivering.moved {s : State} {trace seen : List Observation}
    (delivering : Delivering s trace) {b : Transport.Action (Fin MonitorCount)}
    {transport : Transport.State (Fin MonitorCount)}
    (stepped : Transport.step s.transport b = some (transport, transportEvents seen))
    (owned : ∀ i p, b = .call i p → streamIndex p.monitorId = some i)
    {streams : Fin MonitorCount → StreamWorker}
    (fed : ∀ i, Fed i (transport.publishers i) (streams i)
      (callsOf i (transportEvents trace) ++ callsOf i (transportEvents seen))
      (recordings i trace ++ recordings i seen)) :
    Delivering ⟨transport, streams⟩ (trace ++ seen) := by
  refine ⟨Transport.step_invariant delivering.transport stepped, ?_, ?_, fun i => ?_⟩
  · rw [transportEvents_append]
    exact delivering.flow.step delivering.transport stepped
  · rw [transportEvents_append]
    exact delivering.streams.step owned stepped
  · rw [transportEvents_append, Transport.callsOf_append, recordings_append]
    exact fed i

/-- The worker of the transport, its shutdown and a taken request touch no call. -/
theorem outside_call {s next : Transport.State (Fin MonitorCount)}
    {b : Transport.Action (Fin MonitorCount)}
    {events : List (Transport.Event (Fin MonitorCount))}
    (outside : (∃ a, b = .worker a) ∨ b = .shutdown ∨ ∃ i, b = .take i)
    (stepped : Transport.step s b = some (next, events)) :
    next.publishers = s.publishers ∧ ∀ i, callsOf i events = [] := by
  cases Transport.step_stepped stepped with
  | worker => exact ⟨rfl, fun i => Transport.callsOf_worker i _⟩
  | taken => exact ⟨rfl, fun _ => rfl⟩
  | shutdown => exact ⟨rfl, fun _ => rfl⟩
  | _ => simp at outside

/-- A step inside `publish` goes on with the call of its publisher or finishes it. -/
theorem inside_call {s next : Transport.State (Fin MonitorCount)} {i : Fin MonitorCount}
    {b : Transport.Action (Fin MonitorCount)}
    {events : List (Transport.Event (Fin MonitorCount))}
    (inside : b = .check i ∨ b = .frame i ∨ b = .enqueue i)
    (stepped : Transport.step s b = some (next, events)) :
    (∀ j ≠ i, next.publishers j = s.publishers j ∧ callsOf j events = []) ∧
      ((events = [] ∧ s.publishers i ≠ .idle ∧
          (next.publishers i).packet = (s.publishers i).packet) ∨
        ∃ p result, events = [.published i p result] ∧ (s.publishers i).packet = some p ∧
          next.publishers i = .idle) := by
  have others (t : Fin MonitorCount) (position : Transport.Publisher) (server : Transport.Server) :
      ∀ j ≠ t, (Transport.State.place { s with server := server } t position).publishers j =
        s.publishers j := by
    intro j other
    simp [Transport.State.place, other]
  cases Transport.step_stepped stepped with
  | @checked t p server result position =>
    obtain rfl : t = i := by simpa using inside
    exact ⟨fun j other => ⟨others t _ _ j other, Transport.callsOf_published_other other _ _⟩,
      .inr ⟨p, result, rfl, by rw [position]; rfl, by simp [Transport.State.place]⟩⟩
  | @passed t p server position =>
    obtain rfl : t = i := by simpa using inside
    exact ⟨fun j other => ⟨others t _ _ j other, rfl⟩,
      .inl ⟨rfl, by simp [position], by simp [Transport.State.place, position, Transport.Publisher.packet]⟩⟩
  | @framed t p bytes position =>
    obtain rfl : t = i := by simpa using inside
    exact ⟨fun j other => ⟨others t _ _ j other, rfl⟩,
      .inl ⟨rfl, by simp [position], by simp [Transport.State.place, position, Transport.Publisher.packet]⟩⟩
  | @unframable t p message position =>
    obtain rfl : t = i := by simpa using inside
    exact ⟨fun j other => ⟨others t _ _ j other, Transport.callsOf_published_other other _ _⟩,
      .inr ⟨p, _, rfl, by rw [position]; rfl, by simp [Transport.State.place]⟩⟩
  | @enqueued t p bytes server result position =>
    obtain rfl : t = i := by simpa using inside
    exact ⟨fun j other => ⟨others t _ _ j other, Transport.callsOf_published_other other _ _⟩,
      .inr ⟨p, result, rfl, by rw [position]; rfl, by simp [Transport.State.place]⟩⟩
  | _ => simp at inside

theorem Delivering.published {s : State} {trace : List Observation}
    (delivering : Delivering s trace) {i : Fin MonitorCount}
    {b : Transport.Action (Fin MonitorCount)} {transport : Transport.State (Fin MonitorCount)}
    {events : List (Transport.Event (Fin MonitorCount))}
    (inside : b = .check i ∨ b = .frame i ∨ b = .enqueue i)
    (stepped : Transport.step s.transport b = some (transport, events)) :
    Delivering
      ({ s with transport := transport }.put i
        (if thrown events then { s.streams i with phase := .failed } else s.streams i))
      (trace ++ events.map .transport) := by
  obtain ⟨others, own⟩ := inside_call inside stepped
  refine delivering.moved (by rwa [transportEvents_transport]) (by rintro _ _ rfl; simp at inside)
    fun j => ?_
  rw [transportEvents_transport, recordings_transport, List.append_nil]
  by_cases same : j = i
  · subst j
    rw [Function.update_self]
    rcases own with ⟨rfl, busy, packet⟩ | ⟨p, result, rfl, carried, idle⟩
    · simpa [thrown] using (delivering.fed i).advanced packet busy
    · rw [idle, Transport.callsOf_published_same]
      exact (delivering.fed i).finished carried
  · obtain ⟨position, silent⟩ := others j same
    rw [Function.update_of_ne same, position, silent, List.append_nil]
    exact delivering.fed j

theorem Delivering.acted {s next : State} {trace seen : List Observation}
    (delivering : Delivering s trace) (acted : Acted s next seen) :
    Delivering next (trace ++ seen) := by
  cases acted with
  | @served transport events b outside stepped =>
    obtain ⟨publishers, silent⟩ := outside_call (outside.imp_right .inl) stepped
    refine delivering.moved (by rwa [transportEvents_transport]) ?_ fun i => ?_
    · rintro _ _ rfl
      simp at outside
    · rw [publishers, transportEvents_transport, recordings_transport, silent, List.append_nil,
        List.append_nil]
      exact delivering.fed i
  | published i b inside stepped => exact delivering.published inside stepped
  | @worked worker i idle worked =>
    have own := delivering.fed i
    rw [idle] at own
    rw [List.append_nil]
    refine ⟨delivering.transport, delivering.flow, delivering.streams, fun j => ?_⟩
    by_cases same : j = i
    · subst j
      simpa [State.put, idle] using own.worked worked
    · simpa [State.put, same] using delivering.fed j
  | @took worker transport i idle worked stepped =>
    obtain ⟨publishers, _⟩ := outside_call (.inr (.inr ⟨i, rfl⟩)) stepped
    have own := delivering.fed i
    rw [idle] at own
    refine delivering.moved stepped (by rintro _ _ ⟨⟩) fun j => ?_
    rw [publishers]
    by_cases same : j = i
    · subst j
      simpa [transportEvents, recordings, idle] using own.worked worked
    · simpa [transportEvents, recordings, same] using delivering.fed j
  | @handed data encoder frame p transport i idle running received stepped =>
    have own := delivering.fed i
    rw [idle] at own
    have owner : streamIndex p.monitorId = some i := by
      rw [((VideoEncoder.receive_frame received).2.2 p rfl).1, (own.encoder running).owner,
        streamIndex_owner]
    have placed : transport = s.transport.place i (.calling p) := by
      simp only [Transport.step, idle, Option.some.injEq, Prod.mk.injEq] at stepped
      exact stepped.1.symm
    refine delivering.moved stepped (by rintro _ _ ⟨⟩; exact owner) fun j => ?_
    rw [placed]
    by_cases same : j = i
    · subst j
      simpa [transportEvents, recordings, Transport.State.place] using own.handed running received
    · simpa [transportEvents, recordings, Transport.State.place, same, Ne.symm same] using
        delivering.fed j

theorem run_delivering {canRetry : Bool} {actions : List Action} {s : State}
    {trace : List Observation}
    (run : Machine.exec observedStep actions (.initial canRetry) = some (s, trace)) :
    Delivering s trace :=
  Machine.history Delivering (initial_delivering canRetry)
    (fun _ _ _ _ _ delivering taken => delivering.acted (observedStep_acted taken)) run

/-- The packets of stream `i` in the queue of connection `k` are an unbroken part of the
recording, from a keyframe on. -/
theorem Delivering.segment {s : State} {trace : List Observation}
    (delivering : Delivering s trace) (k : Nat) (i : Fin MonitorCount) :
    let segment := (queuedOn k (transportEvents trace)).filter
      fun p => streamIndex p.monitorId = some i
    segment <:+: recordings i trace ∧ ∀ p, segment.head? = some p → p.keyframe = true := by
  obtain ⟨before, segment, after, split, left, right, marked, starts⟩ :=
    (delivering.streams.streaming i).contiguous k
  have queued : (queuedOn k (transportEvents trace)).filter
      (fun p => streamIndex p.monitorId = some i) = segment.map Prod.fst := by
    rw [Transport.queuedOn_stream k i delivering.streams.homed, split]
    exact congrArg _ (Segment.filter_run left right marked)
  have part : segment <:+: callsOf i (transportEvents trace) :=
    List.IsInfix.trans ⟨before, after, split.symm⟩ (delivering.fed i).unbroken.isInfix
  have calls : (callsOf i (transportEvents trace)).map Prod.fst <+: recordings i trace :=
    ⟨_, (delivering.fed i).published⟩
  refine ⟨?_, fun p first => ?_⟩
  · rw [queued]
    exact (part.map _).trans calls.isInfix
  · rw [queued] at first
    cases segment with
    | nil => simp at first
    | cons call rest =>
      obtain rfl : call.1 = p := by simpa using first
      exact starts call rfl

theorem framed_wire {ps : List EncodedPacket}
    (framable : ∀ p ∈ ps, framePacket p = .ok (wire p)) :
    ps.mapM framePacket = .ok (ps.map wire) := by
  induction ps with
  | nil => rfl
  | cons p ps ih =>
    obtain ⟨here, there⟩ := List.forall_mem_cons.mp framable
    exact Receiver.frames_cons_iff.mpr
      ⟨ps.map wire, (framePacket_ok_iff.mp here).1, ih there, rfl⟩

open ChunkedStream Receiver in
/-- Host and receiver as one system. In any run, a receiver that reads any part of what was
sent on a connection, cut anyhow, meets no `ValueError`; it records the frames that are
complete in it, and of every stream it files an unbroken part of the host's own recording,
from a keyframe on. -/
theorem wire_delivers_recordings {canRetry : Bool} {actions : List Action} {s : State}
    {trace : List Observation}
    (run : Machine.exec observedStep actions (.initial canRetry) = some (s, trace)) (k : Nat)
    {chunks : List (List UInt8)} (delivered : Delivered chunks)
    (within : chunks.flatten <+: sentOn k (transportEvents trace)) (rounds : Nat) :
    let whole := wholeFrames chunks.flatten.length (queuedOn k (transportEvents trace))
    ∃ session stop, receiveLoop Receiver.record rounds chunks .empty = (session, stop) ∧
      (if rounds ≤ whole.length then stop = .deadline else ∃ message, stop = .eof message) ∧
      session.recorded = (whole.take rounds).map announced ∧
      ∀ i : Fin MonitorCount, ∃ shown, shown <:+: recordings i trace ∧
        (∀ p, shown.head? = some p → p.keyframe = true) ∧
        session.files i = shown.flatMap EncodedPacket.bytes := by
  intro whole
  have delivering := run_delivering run
  have accepted := framed_wire (delivering.flow.framable k)
  have framable := framable_of_frames accepted
  have playable (i : Fin MonitorCount) : Playable ((queuedOn k (transportEvents trace)).filter
      fun p => streamIndex p.monitorId = some i) := by
    obtain ⟨part, starts⟩ := delivering.segment k i
    obtain ⟨e, emits⟩ := (delivering.fed i).emits
    exact emits_playable emits part starts fun p member => framable p (List.mem_of_mem_filter member)
  have taken : whole.take rounds <+: queuedOn k (transportEvents trace) :=
    (List.take_prefix _ _).trans (FramedStream.complete_prefix _ _)
  obtain ⟨session, folded, recorded, faithful⟩ := foldlM_record (announced_acceptable
    (fun p member => framable p (taken.subset member))
    fun stream => (interleaved_playable framable (fun _ => rfl) playable stream).of_cut
      (taken.filter _))
  have sent : chunks.flatten <+:
      ((queuedOn k (transportEvents trace)).map wire).flatten := by
    rw [← List.flatMap_def]
    exact within.trans ((List.prefix_append _ _).trans (delivering.flow.sent k))
  obtain ⟨stop, received, ends⟩ := receiveBytes_prefix Receiver.record accepted sent folded
  refine ⟨session, stop, by rw [receiveLoop_eq_bytes _ _ _ _ delivered, received], ends,
    recorded, fun i => ?_⟩
  obtain ⟨part, starts⟩ := delivering.segment k i
  have filed : ofStream i (whole.take rounds) <+:
      (queuedOn k (transportEvents trace)).filter fun p => streamIndex p.monitorId = some i := by
    have same : ofStream i (whole.take rounds) =
        (whole.take rounds).filter fun p => streamIndex p.monitorId = some i :=
      List.filter_congr fun p member => by
        simp [streamIndex_eq_iff (framable p (taken.subset member))]
    rw [same]
    exact taken.filter _
  have files : session.files i = (ofStream i (whole.take rounds)).flatMap EncodedPacket.bytes := by
    rw [faithful.files, recorded, framesOf_announced, List.flatMap_map]
    rfl
  refine ⟨_, filed.isInfix.trans part, fun p first => ?_, files⟩
  obtain ⟨rest, split⟩ := filed
  refine starts p ?_
  rw [← split, List.head?_append, first]
  rfl

def samplePicture : List UInt8 := [0, 0, 0, 1, 0x67, 1, 0, 0, 0, 1, 0x68, 2, 0, 0, 1, 0x65, 3]

/-- The forced frame of stream 1 is published and sent. -/
def sampleDelivery : List Action := sampleRun ++ [
  .stream (.last 1) (.receive samplePicture true), .check (.last 1), .frame (.last 1),
  .enqueue (.last 1), .stream (.last 1) .drained, .server (.serve .again .again 0 0),
  .server (.head 1), .server (.polled ⟨false, false, false, true⟩ false),
  .server (.serve .again (.took 49) 2 2)]

theorem wire_delivers_recordings_sample :
    ∃ s trace, Machine.exec observedStep sampleDelivery (.initial true) = some (s, trace) ∧
      ∃ session stop, Receiver.receiveLoop Receiver.record 2
          [(wire ⟨1, 7, true, samplePicture⟩).take 20, (wire ⟨1, 7, true, samplePicture⟩).drop 20]
          .empty = (session, stop) ∧ (∃ message, stop = .eof message) ∧
        session.recorded = [Receiver.announced ⟨1, 7, true, samplePicture⟩] := by
  obtain ⟨s, trace, run⟩ : ∃ s trace,
      Machine.exec observedStep sampleDelivery (.initial true) = some (s, trace) := ⟨_, _, rfl⟩
  have reached : (Machine.exec observedStep sampleDelivery (.initial true)).map
      (fun r => (queuedOn 1 (transportEvents r.2), sentOn 1 (transportEvents r.2))) =
        some ([⟨1, 7, true, samplePicture⟩], wire ⟨1, 7, true, samplePicture⟩) := by
    decide +kernel
  simp only [run, Option.map_some, Option.some.injEq, Prod.mk.injEq] at reached
  obtain ⟨queued, sent⟩ := reached
  have whole : [(wire ⟨1, 7, true, samplePicture⟩).take 20,
      (wire ⟨1, 7, true, samplePicture⟩).drop 20].flatten = wire ⟨1, 7, true, samplePicture⟩ := by
    decide +kernel
  have delivered : ChunkedStream.Delivered [(wire ⟨1, 7, true, samplePicture⟩).take 20,
      (wire ⟨1, 7, true, samplePicture⟩).drop 20] := by decide +kernel
  obtain ⟨session, stop, received, ends, recorded, _⟩ :=
    wire_delivers_recordings run 1 delivered (by rw [sent, whole]) 2
  have complete : Receiver.wholeFrames (wire ⟨1, 7, true, samplePicture⟩).length
      [⟨1, 7, true, samplePicture⟩] = [⟨1, 7, true, samplePicture⟩] := by decide +kernel
  rw [whole, queued, complete] at ends recorded
  exact ⟨s, trace, run, session, stop, received, ends, recorded⟩

end Quest.Host
