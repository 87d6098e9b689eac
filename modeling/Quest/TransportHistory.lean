import Quest.TransportTrace

/-! The byte stream of every connection. Whatever the interleaving, `send` takes a prefix of
the framed packets queued under the connection, and each publisher contributes one
unbroken run of its calls that starts with a keyframe. -/
namespace Quest.Transport

def Worker.remaining (w : Worker) (k : Nat) : List UInt8 :=
  if w.client = some k then w.pending.drop w.offset else []

@[simp] theorem remaining_phase (w : Worker) (phase : Phase) (k : Nat) :
    { w with phase := phase }.remaining k = w.remaining k := rfl

theorem remaining_of_client {w : Worker} {k : Nat} (other : w.client ≠ some k) :
    w.remaining k = [] := if_neg other

theorem remaining_of_empty {w : Worker} (empty : w.pending = []) (k : Nat) :
    w.remaining k = [] := by
  simp [Worker.remaining, empty]

@[simp] theorem closeClient_sent (w : Worker) (resume : Resume) (k : Nat) :
    (closeClient w resume).2.flatMap (WorkerEvent.sentOn k) = [] := by
  cases client : w.client <;> simp [closeClient, client, WorkerEvent.sentOn]

/-- A send moves bytes from the pending packet to the connection, in order. -/
theorem advance_remaining {w : Worker} {k : Nat} (client : w.client = some k) (count now : Nat) :
    (w.pending.drop w.offset).take count ++ (w.advance count now).remaining k = w.remaining k := by
  unfold Worker.advance
  split
  · rename_i whole
    have taken : (w.pending.drop w.offset).length ≤ count := by
      simp only [List.length_drop]; omega
    simp [Worker.remaining, client, List.take_of_length_le taken]
  · simp [Worker.remaining, client, ← List.drop_drop]

theorem advance_client (w : Worker) (count now : Nat) :
    (w.advance count now).client = w.client := by
  unfold Worker.advance
  split <;> rfl

/-- One worker step seen from the byte streams: the client keeps what it had, takes the
front of the queue, is opened, is admitted or is gone. -/
inductive HandsOn (s : Server) (w : Worker) (next : Server) (worker : Worker)
    (sent : Nat → List UInt8) : Prop where
  | kept : next.accepted = s.accepted → next.disconnect = s.disconnect → next.queue = s.queue →
      worker.client = w.client → (∀ k, sent k ++ worker.remaining k = w.remaining k) →
      HandsOn s w next worker sent
  | popped : next.accepted = s.accepted → s.disconnect = false → s.queue = front :: next.queue →
      worker.client = w.client → (∀ k, w.remaining k = [] ∧ sent k = []) →
      (∀ k, w.client = some k → k = s.accepted ∧ worker.remaining k = front) →
      HandsOn s w next worker sent
  | opened : next.accepted = s.accepted → worker.client = some (s.accepted + 1) →
      (∀ k, worker.remaining k = [] ∧ sent k = []) → HandsOn s w next worker sent
  | admitted : next.accepted = s.accepted + 1 → next.queue = [] →
      (∀ k, worker.remaining k = [] ∧ sent k = []) → HandsOn s w next worker sent
  | ended : next.accepted = s.accepted → worker.client = none → (∀ k, sent k <+: w.remaining k) →
      HandsOn s w next worker sent

theorem Settled.hands_on {s next : Server} {w before worker : Worker} {events : List WorkerEvent}
    {sent : Nat → List UInt8} (settled : Settled s w next worker events)
    (client : w.client = before.client)
    (moved : ∀ k, sent k ++ w.remaining k = before.remaining k) :
    HandsOn s before next worker fun k => sent k ++ events.flatMap (WorkerEvent.sentOn k) := by
  cases settled with
  | resumed => exact .kept rfl rfl rfl client (by simpa using moved)
  | closing slow => exact .ended rfl rfl fun k => by simp [← moved k]

theorem WorkerMoved.hands_on {s next : Server} {w worker : Worker} {events : List WorkerEvent}
    (moved : WorkerMoved s w next worker events) (server : s.Valid) (valid : w.Valid)
    (linked : Linked s w) :
    HandsOn s w next worker fun k => events.flatMap (WorkerEvent.sentOn k) := by
  cases moved with
  | stopping => exact .ended rfl rfl (by simp)
  | disconnecting => exact .ended rfl rfl (by simp)
  | popped phase staying empty queue =>
    refine .popped rfl staying queue rfl (fun k => ⟨remaining_of_empty empty k, rfl⟩)
      fun k client => ⟨?_, by simp [Worker.remaining, client]⟩
    simp only [Linked, phase, client] at linked
    split at linked <;> simp_all
  | idle => exact .kept rfl rfl rfl rfl (by simp)
  | interrupted => exact .kept rfl rfl rfl rfl (by simp)
  | ready fds => exact .kept rfl rfl rfl rfl (by simp)
  | refused fds => exact .kept rfl rfl rfl rfl (by simp [WorkerEvent.sentOn])
  | connecting fds phase unconnected =>
    have empty : w.pending = [] := by
      by_contra pending
      simpa [unconnected] using valid.live pending
    exact .opened rfl rfl fun k => ⟨by simp [Worker.remaining, empty], rfl⟩
  | accepted phase =>
    simp only [Linked, phase] at linked
    obtain ⟨_, closed, empty⟩ := linked
    exact .admitted rfl (server.unconnected closed).1 fun k => ⟨remaining_of_empty empty k, rfl⟩
  | settled _ settled => simpa using settled.hands_on rfl (show ∀ k, [] ++ w.remaining k = w.remaining k by simp)
  | sent phase client pending _ _ settled =>
    refine settled.hands_on (advance_client ..) fun k => ?_
    by_cases same : w.client = some k
    · obtain rfl : _ = k := Option.some.inj (client.symm.trans same)
      simpa [WorkerEvent.sentOn] using advance_remaining same _ _
    · have other : _ ≠ k := fun equal => same (client.trans (congrArg some equal))
      rw [remaining_of_client same, remaining_of_client (by rwa [advance_client])]
      simp [WorkerEvent.sentOn, other]
  | closed resume phase =>
    simp only [Linked, phase] at linked
    exact .ended rfl linked (by simp)

/-- How a step changes what decides admission: not at all, by ending the connection, or
by accepting the next one. -/
theorem WorkerMoved.admission {s next : Server} {w worker : Worker} {events : List WorkerEvent}
    (moved : WorkerMoved s w next worker events) :
    (next.connected = s.connected ∧ next.disconnect = s.disconnect ∧
      next.accepted = s.accepted ∧ next.waitingForKeyframe = s.waitingForKeyframe ∧
      next.forceKeyframe = s.forceKeyframe) ∨
    (next.connected = false ∧ next.accepted = s.accepted) ∨
    (next.accepted = s.accepted + 1 ∧ (∀ stream, next.waitingForKeyframe stream = true) ∧
      ∀ stream, next.forceKeyframe stream = true) := by
  cases moved with
  | accepted => exact .inr (.inr ⟨rfl, fun _ => rfl, fun _ => rfl⟩)
  | closed => exact .inr (.inl ⟨rfl, rfl⟩)
  | settled _ settled => cases settled <;> exact .inl ⟨rfl, rfl, rfl, rfl, rfl⟩
  | sent _ _ _ _ _ settled => cases settled <;> exact .inl ⟨rfl, rfl, rfl, rfl, rfl⟩
  | _ => exact .inl ⟨rfl, rfl, rfl, rfl, rfl⟩

/-- The bytes of every connection against the packets queued under it. While the
current connection stays, what is sent, held and queued is all of it. -/
structure Flow (s : State ι) (trace : List (Event ι)) : Prop where
  fresh : ∀ k, s.server.accepted < k → queuedOn k trace = [] ∧ sentOn k trace = []
  framable : ∀ k, ∀ p ∈ queuedOn k trace, framePacket p = .ok (wire p)
  sent : ∀ k, sentOn k trace ++ s.worker.remaining k <+: (queuedOn k trace).flatMap wire
  carried : s.worker.client = some s.server.accepted → s.server.disconnect = false →
    sentOn s.server.accepted trace ++ s.worker.remaining s.server.accepted ++
      s.server.queue.flatten = (queuedOn s.server.accepted trace).flatMap wire

theorem Flow.initial : Flow (State.initial (ι := ι)) [] := by
  constructor <;> simp [State.initial, Worker.initial, Worker.remaining]

/-- A step that queues and sends nothing. -/
theorem Flow.quiet {s : State ι} {trace emitted : List (Event ι)} (flow : Flow s trace)
    (server : Server) (publishers : ι → Publisher)
    (silent : ∀ k, queuedOn k emitted = [] ∧ sentOn k emitted = [])
    (accepted : server.accepted = s.server.accepted)
    (queue : server.disconnect = false →
      s.server.disconnect = false ∧ server.queue = s.server.queue) :
    Flow ⟨server, s.worker, publishers⟩ (trace ++ emitted) where
  fresh := by
    intro k later
    simpa [silent] using flow.fresh k (accepted ▸ later)
  framable := by simpa [silent] using flow.framable
  sent := by simpa [silent] using flow.sent
  carried := by
    intro client staying
    obtain ⟨stayed, same⟩ := queue staying
    simp only [accepted] at client ⊢
    simpa [silent, same] using flow.carried client stayed

/-- The queued packet extends the connection by its framed bytes. -/
theorem Flow.queued {s : State ι} {trace : List (Event ι)} (flow : Flow s trace) (t : ι)
    {p : EncodedPacket} {framed : List UInt8} (ok : framePacket p = .ok framed)
    (waiting : Fin MonitorCount → Bool) (bytes : Nat) (publishers : ι → Publisher) :
    Flow ⟨{ s.server with
        waitingForKeyframe := waiting
        queuedBytes := bytes
        queue := s.server.queue ++ [framed] }, s.worker, publishers⟩
      (trace ++ [.published t p (.queued s.server.accepted)]) where
  fresh := by
    intro k later
    have other : s.server.accepted ≠ k := Nat.ne_of_lt later
    simpa [queuedOn_published, other] using flow.fresh k later
  framable := by
    intro k q member
    rw [queuedOn_append, queuedOn_published, List.mem_append] at member
    rcases member with member | member
    · exact flow.framable k q member
    · split at member
      · rw [List.mem_singleton.mp member, wire_of_framed ok, ok]
      · contradiction
  sent := by
    intro k
    simp only [sentOn_append, sentOn_published, List.append_nil, queuedOn_append, List.flatMap_append]
    exact (flow.sent k).trans (List.prefix_append _ _)
  carried := by
    intro client staying
    have before := flow.carried client staying
    simp only [sentOn_append, sentOn_published, List.append_nil, queuedOn_append, List.flatMap_append,
      queuedOn_published, if_true, List.flatMap_singleton, wire_of_framed ok, ← before]
    simp

theorem Flow.published {s : State ι} {trace : List (Event ι)} (flow : Flow s trace) {t : ι}
    {p : EncodedPacket} {framed : List UInt8} {server : Server} {result : Result}
    (published : Published s.server p framed server result) (ok : framePacket p = .ok framed)
    (publishers : ι → Publisher) :
    Flow ⟨server, s.worker, publishers⟩ (trace ++ [.published t p result]) := by
  cases published with
  | unserved => exact flow.quiet _ _ (by simp [queuedOn_published]) rfl (fun staying => ⟨staying, rfl⟩)
  | unindexed => exact flow.quiet _ _ (by simp [queuedOn_published]) rfl (fun staying => ⟨staying, rfl⟩)
  | dropped => exact flow.quiet _ _ (by simp [queuedOn_published]) rfl (fun staying => ⟨staying, rfl⟩)
  | overflow => exact flow.quiet _ _ (by simp [queuedOn_published]) rfl (by simp)
  | queued => exact flow.queued t ok _ _ _

theorem Flow.checked {s : State ι} {trace : List (Event ι)} (flow : Flow s trace) {t : ι}
    {p : EncodedPacket} {server : Server} {result : Result}
    (checked : Checked s.server p server (some result)) (publishers : ι → Publisher) :
    Flow ⟨server, s.worker, publishers⟩ (trace ++ [.published t p result]) := by
  cases checked <;>
    exact flow.quiet _ _ (by simp [queuedOn_published]) rfl (fun staying => ⟨staying, rfl⟩)

/-- A worker step that queues nothing: the streams of the connections it leaves alone or
ends only lose what the worker held. -/
theorem Flow.worker {s : State ι} {trace : List (Event ι)} (flow : Flow s trace) {server : Server}
    {worker : Worker} {events : List WorkerEvent} (accepted : s.server.accepted ≤ server.accepted)
    (sent : ∀ k, sentOn k trace ++ events.flatMap (WorkerEvent.sentOn k) ++ worker.remaining k <+:
      (queuedOn k trace).flatMap wire)
    (carried : worker.client = some server.accepted → server.disconnect = false →
      sentOn server.accepted trace ++ events.flatMap (WorkerEvent.sentOn server.accepted) ++
        worker.remaining server.accepted ++ server.queue.flatten =
          (queuedOn server.accepted trace).flatMap wire) :
    Flow { s with server := server, worker := worker } (trace ++ events.map .worker) where
  fresh := by
    intro k later
    obtain ⟨unqueued, unsent⟩ := flow.fresh k (Nat.lt_of_le_of_lt accepted later)
    have nothing := sent k
    simp only [unqueued, unsent, List.flatMap_nil, List.prefix_nil, List.append_eq_nil_iff] at nothing
    simp [unqueued, unsent, nothing.1.2]
  framable := by simpa using flow.framable
  sent := by simpa using sent
  carried := by simpa using carried

theorem Flow.handed_on {s : State ι} {trace : List (Event ι)} (flow : Flow s trace)
    {server : Server} {worker : Worker} {events : List WorkerEvent}
    (moved : HandsOn s.server s.worker server worker fun k =>
      events.flatMap (WorkerEvent.sentOn k)) :
    Flow { s with server := server, worker := worker } (trace ++ events.map .worker) := by
  cases moved with
  | kept accepted disconnect queue client moved =>
    refine flow.worker accepted.ge (fun k => ?_) fun live staying => ?_
    · rw [List.append_assoc, moved k]
      exact flow.sent k
    · rw [List.append_assoc (sentOn _ _), moved, accepted, queue]
      exact flow.carried (by rw [← client, live, accepted]) (disconnect ▸ staying)
  | popped accepted staying queue client empty front =>
    have whole (live : s.worker.client = some s.server.accepted) :
        sentOn s.server.accepted trace ++ worker.remaining s.server.accepted ++
          server.queue.flatten = (queuedOn s.server.accepted trace).flatMap wire := by
      have before := flow.carried live staying
      rw [(empty _).1, List.append_nil, queue, List.flatten_cons, ← List.append_assoc] at before
      rwa [(front _ live).2]
    refine flow.worker accepted.ge (fun k => ?_) fun live _ => ?_
    · rw [(empty k).2, List.append_nil]
      by_cases live : s.worker.client = some k
      · obtain rfl := (front k live).1
        exact ⟨_, whole live⟩
      · rw [remaining_of_client (by rwa [client]), List.append_nil]
        exact (List.prefix_append _ _).trans (flow.sent k)
    · rw [accepted, (empty _).2, List.append_nil]
      exact whole (by rw [← client, live, accepted])
  | opened accepted client empty =>
    refine flow.worker accepted.ge (fun k => ?_) fun live _ => ?_
    · rw [(empty k).1, (empty k).2, List.append_nil, List.append_nil]
      exact (List.prefix_append _ _).trans (flow.sent k)
    · rw [client, accepted] at live
      simp at live
  | admitted accepted queue empty =>
    refine flow.worker (by omega) (fun k => ?_) fun live _ => ?_
    · rw [(empty k).1, (empty k).2, List.append_nil, List.append_nil]
      exact (List.prefix_append _ _).trans (flow.sent k)
    · obtain ⟨unqueued, unsent⟩ := flow.fresh server.accepted (by omega)
      simp [unqueued, unsent, empty, queue]
  | ended accepted client sent =>
    refine flow.worker accepted.ge (fun k => ?_) fun live _ => ?_
    · have gone : worker.remaining k = [] := remaining_of_client (by simp [client])
      obtain ⟨rest, whole⟩ := sent k
      rw [gone, List.append_nil]
      refine List.IsPrefix.trans ⟨rest, ?_⟩ (flow.sent k)
      rw [List.append_assoc, whole]
    · simp [client] at live

/-- After its overflow, or once it is over, a connection gets nothing but the rest of
the packet that was being sent. -/
structure Drained (k : Nat) (rest : List UInt8) (s : State ι) (later : List (Event ι)) : Prop where
  valid : Invariant s
  past : s.server.accepted = k → s.server.connected = false ∨ s.server.disconnect = true
  reached : k ≤ s.server.accepted
  unqueued : queuedOn k later = []
  sent : sentOn k later ++ s.worker.remaining k <+: rest

theorem Drained.quiet {k : Nat} {rest : List UInt8} {s next : State ι} {later emitted : List (Event ι)}
    (drained : Drained k rest s later) (valid : Invariant next)
    (worker : next.worker = s.worker)
    (silent : queuedOn k emitted = [] ∧ sentOn k emitted = [])
    (connection : next.server.connected = s.server.connected ∧
      next.server.accepted = s.server.accepted)
    (disconnect : s.server.disconnect = true → next.server.disconnect = true) :
    Drained k rest next (later ++ emitted) where
  valid := valid
  past := by
    intro current
    rw [connection.1]
    exact (drained.past (connection.2 ▸ current)).imp_right disconnect
  reached := connection.2 ▸ drained.reached
  unqueued := by simp [drained.unqueued, silent.1]
  sent := by simpa [worker, silent.2] using drained.sent

theorem Published.silent {s next : Server} {p : EncodedPacket} {framed : List UInt8}
    {result : Result} (published : Published s p framed next result) {k : Nat}
    (past : s.accepted = k → s.connected = false ∨ s.disconnect = true) : result ≠ .queued k := by
  cases published with
  | queued connected staying =>
    rintro ⟨⟩
    simp [connected, staying] at past
  | _ => simp

theorem Published.disconnecting {s next : Server} {p : EncodedPacket} {framed : List UInt8}
    {result : Result} (published : Published s p framed next result)
    (leaving : s.disconnect = true) : next.disconnect = true := by
  cases published <;> simp_all

theorem Checked.disconnecting {s next : Server} {p : EncodedPacket} {result : Option Result}
    (checked : Checked s p next result) : next.disconnect = s.disconnect := by
  cases checked <;> rfl

theorem Checked.silent {s next : Server} {p : EncodedPacket} {result : Result}
    (checked : Checked s p next (some result)) (k : Nat) : result ≠ .queued k := by
  cases checked <;> simp

theorem Drained.handed_on {k : Nat} {rest : List UInt8} {s : State ι} {later : List (Event ι)}
    (drained : Drained k rest s later) {server : Server} {worker : Worker}
    {sent : Nat → List UInt8} (moved : HandsOn s.server s.worker server worker sent) :
    sentOn k later ++ sent k ++ worker.remaining k <+: rest := by
  cases moved with
  | kept _ _ _ _ moved => rw [List.append_assoc, moved k]; exact drained.sent
  | popped _ staying queue client empty front =>
    by_cases live : s.worker.client = some k
    · have closed := drained.past (front k live).1.symm
      have nothing := (drained.valid.server.unconnected (closed.resolve_right (by simp [staying]))).1
      simp [queue] at nothing
    · rw [(empty k).2, remaining_of_client (by rwa [client])]
      simpa [(empty k).1] using drained.sent
  | opened _ _ empty =>
    rw [(empty k).1, (empty k).2, List.append_nil, List.append_nil]
    exact (List.prefix_append _ _).trans drained.sent
  | admitted _ _ empty =>
    rw [(empty k).1, (empty k).2, List.append_nil, List.append_nil]
    exact (List.prefix_append _ _).trans drained.sent
  | ended _ client sent =>
    obtain ⟨lost, whole⟩ := sent k
    rw [remaining_of_client (by simp [client]), List.append_nil]
    refine List.IsPrefix.trans ⟨lost, ?_⟩ drained.sent
    rw [List.append_assoc, whole]

theorem Drained.worker {k : Nat} {rest : List UInt8} {s : State ι} {later : List (Event ι)}
    (drained : Drained k rest s later) {server : Server} {worker : Worker}
    {events : List WorkerEvent} (moved : WorkerMoved s.server s.worker server worker events)
    (valid : Invariant { s with server := server, worker := worker }) :
    Drained k rest { s with server := server, worker := worker } (later ++ events.map .worker) where
  valid := valid
  past := by
    intro current
    have reached := drained.reached
    rcases moved.admission with ⟨connected, disconnect, accepted, _⟩ | ⟨closed, _⟩ | ⟨accepted, _⟩
    · simp only [connected, disconnect]
      exact drained.past (accepted ▸ current)
    · exact .inl closed
    · simp only at current; omega
  reached := by
    have reached := drained.reached
    rcases moved.admission with ⟨_, _, accepted, _⟩ | ⟨_, accepted⟩ | ⟨accepted, _⟩ <;>
      simp only [accepted] <;> omega
  unqueued := by simp [drained.unqueued]
  sent := by
    have moved := moved.hands_on drained.valid.server drained.valid.worker drained.valid.linked
    simpa using drained.handed_on moved

variable [DecidableEq ι]

theorem Drained.step {k : Nat} {rest : List UInt8} {s next : State ι} {later : List (Event ι)}
    {a : Action ι} {emitted : List (Event ι)} (drained : Drained k rest s later)
    (taken : step s a = some (next, emitted)) : Drained k rest next (later ++ emitted) := by
  have valid := step_invariant drained.valid taken
  cases step_stepped taken with
  | called => exact drained.quiet valid rfl ⟨rfl, rfl⟩ ⟨rfl, rfl⟩ id
  | checked _ checked =>
    exact drained.quiet valid rfl ⟨by simp [queuedOn_published, checked.silent k], rfl⟩
      checked.connection checked.disconnecting.trans
  | passed _ checked =>
    exact drained.quiet valid rfl ⟨rfl, rfl⟩ checked.connection checked.disconnecting.trans
  | framed => exact drained.quiet valid rfl ⟨rfl, rfl⟩ ⟨rfl, rfl⟩ id
  | unframable => exact drained.quiet valid rfl ⟨rfl, rfl⟩ ⟨rfl, rfl⟩ id
  | enqueued _ published =>
    exact drained.quiet valid rfl
      ⟨by simp [queuedOn_published, published.silent drained.past], rfl⟩
      published.connection published.disconnecting
  | worker _ moved => exact drained.worker moved valid
  | taken => exact drained.quiet valid rfl ⟨rfl, rfl⟩ ⟨rfl, rfl⟩ id
  | shutdown => exact drained.quiet valid rfl ⟨rfl, rfl⟩ ⟨rfl, rfl⟩ id

/-- From any reachable state whose connection has overflowed, whatever runs next. -/
theorem drained_run {s final : State ι} (valid : Invariant s)
    (leaving : s.server.disconnect = true) {actions : List (Action ι)} {later : List (Event ι)}
    (run : Machine.exec step actions s = some (final, later)) :
    Drained s.server.accepted (s.worker.remaining s.server.accepted) final later :=
  Machine.history (Drained s.server.accepted (s.worker.remaining s.server.accepted))
    ⟨valid, fun _ => .inr leaving, le_rfl, rfl, List.prefix_rfl⟩
    (fun _ _ _ _ _ drained taken => drained.step taken) run

theorem Flow.step {s next : State ι} {trace : List (Event ι)} {a : Action ι}
    {emitted : List (Event ι)} (valid : Invariant s) (flow : Flow s trace)
    (taken : step s a = some (next, emitted)) : Flow next (trace ++ emitted) := by
  cases step_stepped taken with
  | called => exact flow.quiet _ _ (fun _ => ⟨rfl, rfl⟩) rfl (fun staying => ⟨staying, rfl⟩)
  | checked _ checked => exact flow.checked checked _
  | passed _ checked =>
    cases checked
    exact flow.quiet _ _ (fun _ => ⟨rfl, rfl⟩) rfl (fun staying => ⟨staying, rfl⟩)
  | framed => exact flow.quiet _ _ (fun _ => ⟨rfl, rfl⟩) rfl (fun staying => ⟨staying, rfl⟩)
  | unframable => exact flow.quiet _ _ (fun _ => ⟨rfl, rfl⟩) rfl (fun staying => ⟨staying, rfl⟩)
  | enqueued position published =>
    exact flow.published published (valid.framed _ _ _ position) _
  | worker _ moved =>
    exact flow.handed_on (moved.hands_on valid.server valid.worker valid.linked)
  | taken => exact flow.quiet _ _ (fun _ => ⟨rfl, rfl⟩) rfl (fun staying => ⟨staying, rfl⟩)
  | shutdown => exact flow.quiet _ _ (fun _ => ⟨rfl, rfl⟩) rfl (fun staying => ⟨staying, rfl⟩)

end Quest.Transport
