import Mathlib.Algebra.BigOperators.Group.List.Basic
import Quest.Transport

/-! What one transport step can do, and the state invariant it preserves: the queue
accounting, the memory bounds and the link between the shared flags and the worker. -/
namespace Quest.Transport

inductive Published (s : Server) (p : EncodedPacket) (framed : List UInt8) :
    Server → Result → Prop where
  | unserved : s.connected = false ∨ s.disconnect = true → Published s p framed s .unserved
  | unindexed : s.connected = true → s.disconnect = false → streamIndex p.monitorId = none →
      Published s p framed s (.threw "array::at")
  | dropped : s.connected = true → s.disconnect = false →
      streamIndex p.monitorId = some stream → s.waitingForKeyframe stream = true →
      p.keyframe = false → Published s p framed { s with dropped := s.dropped + 1 } .dropped
  | overflow : s.connected = true → s.disconnect = false →
      streamIndex p.monitorId = some stream →
      (s.waitingForKeyframe stream = true → p.keyframe = true) →
      Published s p framed { s with
        waitingForKeyframe := Function.update s.waitingForKeyframe stream false
        dropped := s.dropped + (s.queue.length + 1)
        queue := []
        queuedBytes := 0
        disconnect := true
        slow := s.slow + 1 } .overflow
  | queued : s.connected = true → s.disconnect = false →
      streamIndex p.monitorId = some stream →
      (s.waitingForKeyframe stream = true → p.keyframe = true) →
      s.queue.length < queuePackets → s.queuedBytes + framed.length ≤ queueBytes →
      Published s p framed { s with
        waitingForKeyframe := Function.update s.waitingForKeyframe stream false
        queuedBytes := s.queuedBytes + framed.length
        queue := s.queue ++ [framed] } (.queued s.accepted)

theorem Server.clearWaiting_of_clear {s : Server} {stream : Fin MonitorCount}
    (clear : s.waitingForKeyframe stream = false) : s.clearWaiting stream = s := by
  unfold Server.clearWaiting
  rw [← clear, Function.update_eq_self]

theorem pushFramed_published {s : Server} {p : EncodedPacket} (framed : List UInt8)
    {stream : Fin MonitorCount} (connected : s.connected = true) (staying : s.disconnect = false)
    (index : streamIndex p.monitorId = some stream)
    (startable : s.waitingForKeyframe stream = true → p.keyframe = true) :
    Published s p framed (pushFramed (s.clearWaiting stream) framed).1
      (pushFramed (s.clearWaiting stream) framed).2 := by
  unfold pushFramed
  split
  · exact .overflow connected staying index startable
  · rename_i room
    obtain ⟨packets, bytes⟩ := not_or.mp room
    exact .queued connected staying index startable (Nat.not_le.mp packets) (Nat.not_lt.mp bytes)

theorem publishEnqueue_published (s : Server) (p : EncodedPacket) (framed : List UInt8) :
    Published s p framed (publishEnqueue s p framed).1 (publishEnqueue s p framed).2 := by
  unfold publishEnqueue
  split
  next closed => exact .unserved closed
  next opened =>
    obtain ⟨connected, staying⟩ : s.connected = true ∧ s.disconnect = false := by
      simpa using opened
    split
    next missing => exact .unindexed connected staying missing
    next stream index =>
      split
      next waiting =>
        split
        next predictive => exact .dropped connected staying index waiting predictive
        next intra => exact pushFramed_published framed connected staying index (by simp_all)
      next idle =>
        have pushed := pushFramed_published framed connected staying index
          (fun waiting => absurd waiting idle)
        rwa [Server.clearWaiting_of_clear (Bool.eq_false_iff.mpr idle)] at pushed

/-- How the body of the worker loop ends: it goes round again or closes the client. -/
inductive Settled (s : Server) (w : Worker) : Server → Worker → List WorkerEvent → Prop where
  | resumed : Settled s w s { w with phase := .head } []
  | closing (slow : Nat) : Settled s w { s with slow := slow }
      (closeClient w .head).1 (closeClient w .head).2

inductive WorkerMoved (s : Server) (w : Worker) : Server → Worker → List WorkerEvent → Prop where
  | stopping : w.phase = .head ∨ w.phase = .polling →
      WorkerMoved s w s (closeClient w .stopped).1 (closeClient w .stopped).2
  | disconnecting : w.phase = .head → s.disconnect = true →
      WorkerMoved s w s (closeClient w .polling).1 (closeClient w .polling).2
  | popped : w.phase = .head → s.disconnect = false → w.pending = [] → s.queue = front :: rest →
      WorkerMoved s w
        { s with queue := rest, queuedBytes := sizeSub s.queuedBytes front.length }
        { w with pending := front, offset := 0, progress := now, phase := .polling } []
  | idle : w.phase = .head → s.disconnect = false →
      WorkerMoved s w s { w with phase := .polling } []
  | interrupted : w.phase = .polling → WorkerMoved s w s { w with phase := .head } []
  | ready (fds : Ready) : w.phase = .polling →
      WorkerMoved s w s { w with phase := .serving fds } []
  | refused (fds : Ready) : w.phase = .polling → w.client = some connection →
      WorkerMoved s w s { w with phase := .serving fds } [.refused connection]
  | connecting (fds : Ready) : w.phase = .polling → w.client = none →
      WorkerMoved s w s { w with client := some (s.accepted + 1), phase := .accepting fds } []
  | accepted : w.phase = .accepting fds →
      WorkerMoved s w (acceptShared s) { w with phase := .serving fds } [.accepted (s.accepted + 1)]
  | settled : w.phase = .serving fds → Settled s w next worker events →
      WorkerMoved s w next worker events
  | sent : w.phase = .serving fds → w.client = some connection → w.pending ≠ [] → 0 < count →
      count ≤ w.pending.length - w.offset → Settled s (w.advance count at_) next worker events →
      WorkerMoved s w next worker
        (.sent connection ((w.pending.drop w.offset).take count) :: events)
  | closed (resume : Resume) : w.phase = .closing resume →
      WorkerMoved s w (closeShared s) { w with phase := resume.phase } []

theorem stallCheck_settled (s : Server) (w : Worker) (now : Nat) :
    Settled s w (stallCheck s w now).1 (stallCheck s w now).2.1
      (stallCheck s w now).2.2 := by
  unfold stallCheck
  split
  · exact .closing (s.slow + 1)
  · exact .resumed

theorem WorkerMoved.of_result {s next : Server} {w worker : Worker} {events : List WorkerEvent}
    {t : Server × Worker × List WorkerEvent} (moved : WorkerMoved s w t.1 t.2.1 t.2.2)
    (result : some t = some (next, worker, events)) : WorkerMoved s w next worker events := by
  cases result; exact moved

theorem serve_moved {s next : Server} {w worker : Worker} {fds : Ready} {recv : Recv} {send : Send}
    {sentAt now : Nat} {events : List WorkerEvent} (phase : w.phase = .serving fds)
    (taken : serve s w fds recv send sentAt now = some (next, worker, events)) :
    WorkerMoved s w next worker events := by
  unfold serve at taken
  split at taken
  · exact .of_result (.settled phase .resumed) taken
  rename_i connection client
  split at taken
  · exact .of_result (.settled phase (.closing s.slow)) taken
  split at taken
  · exact .of_result (.settled phase (.closing s.slow)) taken
  split at taken
  · rename_i writable
    split at taken
    · exact .of_result (.settled phase (.closing s.slow)) taken
    · exact .of_result (.settled phase (stallCheck_settled ..)) taken
    · split at taken
      · contradiction
      rename_i within
      split at taken
      · exact .of_result (.settled phase (stallCheck_settled ..)) taken
      · rename_i count _ positive
        exact .of_result (.sent phase client writable.1 (Nat.pos_of_ne_zero positive)
          (Nat.not_lt.mp within) (stallCheck_settled ..)) taken
  · exact .of_result (.settled phase (stallCheck_settled ..)) taken

theorem head_moved (s : Server) (w : Worker) (now : Nat) (phase : w.phase = .head) :
    WorkerMoved s w (head s w now).1 (head s w now).2.1 (head s w now).2.2 := by
  unfold head
  split
  · exact .disconnecting phase ‹_›
  rename_i staying
  have staying := Bool.eq_false_iff.mpr staying
  split
  · split
    · exact .idle phase staying
    · exact .popped phase staying ‹_› ‹_›
  · exact .idle phase staying

theorem polled_moved (s : Server) (w : Worker) (fds : Ready) (acceptable : Bool)
    (phase : w.phase = .polling) :
    WorkerMoved s w s (polled s w fds acceptable).1 (polled s w fds acceptable).2 := by
  unfold polled
  split
  · split
    · exact .refused _ phase ‹_›
    · exact .connecting _ phase ‹_›
  · exact .ready _ phase

theorem workerStep_moved {s next : Server} {w worker : Worker} {a : WorkerAction}
    {events : List WorkerEvent} (taken : workerStep s w a = some (next, worker, events)) :
    WorkerMoved s w next worker events := by
  unfold workerStep at taken
  split at taken
  next phase =>
    split at taken
    · exact .of_result (.stopping (.inl phase)) taken
    · contradiction
  next phase => exact .of_result (head_moved s w _ phase) taken
  next phase =>
    split at taken
    · exact .of_result (.interrupted phase) taken
    · exact .of_result (.stopping (.inr phase)) taken
  next phase => exact .of_result (polled_moved s w _ _ phase) taken
  next phase => exact .of_result (.accepted phase) taken
  next phase => exact serve_moved phase taken
  next phase => exact .of_result (.closed _ phase) taken
  next => contradiction

inductive Checked (s : Server) (p : EncodedPacket) : Server → Option Result → Prop where
  | unserved : s.connected = false ∨ s.disconnect = true → Checked s p s (some .unserved)
  | unindexed : s.connected = true → s.disconnect = false → streamIndex p.monitorId = none →
      Checked s p s (some (.threw "array::at"))
  | dropped : s.connected = true → s.disconnect = false →
      streamIndex p.monitorId = some stream → s.waitingForKeyframe stream = true →
      p.keyframe = false → Checked s p { s with dropped := s.dropped + 1 } (some .dropped)
  | passed : s.connected = true → s.disconnect = false →
      streamIndex p.monitorId = some stream →
      (s.waitingForKeyframe stream = true → p.keyframe = true) → Checked s p s none

theorem publishCheck_checked (s : Server) (p : EncodedPacket) :
    Checked s p (publishCheck s p).1 (publishCheck s p).2 := by
  unfold publishCheck
  split
  next closed => exact .unserved closed
  next opened =>
    obtain ⟨connected, staying⟩ : s.connected = true ∧ s.disconnect = false := by
      simpa using opened
    split
    next missing => exact .unindexed connected staying missing
    next stream index =>
      split
      next rejected => exact .dropped connected staying index rejected.1 rejected.2
      next admitted => exact .passed connected staying index (by simpa using admitted)

inductive Stepped [DecidableEq ι] (s : State ι) : Action ι → State ι → List (Event ι) → Prop where
  | called : s.publishers t = .idle → Stepped s (.call t p) (s.place t (.calling p)) []
  | checked : s.publishers t = .calling p → Checked s.server p server (some result) →
      Stepped s (.check t) (State.place { s with server := server } t .idle)
        [.published t p result]
  | passed : s.publishers t = .calling p → Checked s.server p server none →
      Stepped s (.check t) (State.place { s with server := server } t (.framing p)) []
  | framed : s.publishers t = .framing p → framePacket p = .ok bytes →
      Stepped s (.frame t) (s.place t (.framed p bytes)) []
  | unframable : s.publishers t = .framing p → framePacket p = .error message →
      Stepped s (.frame t) (s.place t .idle) [.published t p (.threw message)]
  | enqueued : s.publishers t = .framed p bytes → Published s.server p bytes server result →
      Stepped s (.enqueue t) (State.place { s with server := server } t .idle)
        [.published t p result]
  | worker (a : WorkerAction) : WorkerMoved s.server s.worker server worker events →
      Stepped s (.worker a) { s with server := server, worker := worker } (events.map .worker)
  | taken (stream : Fin MonitorCount) :
      Stepped s (.take stream) { s with server := (takeKeyframeRequest s.server stream).1 } []
  | shutdown :
      Stepped s .shutdown { s with server := { s.server with stopping := true } } []

theorem step_stepped [DecidableEq ι] {s next : State ι} {a : Action ι} {events : List (Event ι)}
    (taken : step s a = some (next, events)) : Stepped s a next events := by
  unfold step at taken
  split at taken
  next t p =>
    split at taken
    · cases taken; exact .called ‹_›
    · contradiction
  next t =>
    split at taken
    next p position =>
      have checked := publishCheck_checked s.server p
      generalize publishCheck s.server p = outcome at checked taken
      obtain ⟨server, _ | result⟩ := outcome
      · cases taken; exact .passed position checked
      · cases taken; exact .checked position checked
    next => contradiction
  next t =>
    split at taken
    next p position =>
      split at taken
      · cases taken; exact .framed position ‹_›
      · cases taken; exact .unframable position ‹_›
    next => contradiction
  next t =>
    split at taken
    next p bytes position =>
      have published := publishEnqueue_published s.server p bytes
      generalize publishEnqueue s.server p bytes = outcome at published taken
      cases taken
      exact .enqueued position published
    next => contradiction
  next a =>
    obtain ⟨⟨server, worker, events⟩, moved, result⟩ := Option.map_eq_some_iff.mp taken
    cases result
    exact .worker a (workerStep_moved moved)
  next stream => cases taken; exact .taken stream
  next => cases taken; exact .shutdown

structure Server.Valid (s : Server) : Prop where
  counted : s.queuedBytes = (s.queue.map List.length).sum
  packets : s.queue.length ≤ queuePackets
  total : s.queuedBytes ≤ queueBytes
  frames : ∀ framed ∈ s.queue, headerSize < framed.length ∧
    framed.length ≤ MaxPayload + headerSize
  disconnecting : s.disconnect = true → s.connected = true ∧ s.queue = []
  unconnected : s.connected = false → s.queue = [] ∧ s.disconnect = false ∧
    (0 < s.accepted → ∀ stream, s.waitingForKeyframe stream = true)

structure Worker.Valid (w : Worker) : Prop where
  bounded : w.pending.length ≤ MaxPayload + headerSize
  inside : w.pending ≠ [] → w.offset < w.pending.length
  live : w.pending ≠ [] → w.client.isSome

/-- The worker's descriptor against the shared flags, phase by phase. -/
def Linked (s : Server) (w : Worker) : Prop :=
  match w.phase with
  | .head | .polling | .serving _ => w.client = if s.connected then some s.accepted else none
  | .accepting _ => w.client = some (s.accepted + 1) ∧ s.connected = false ∧ w.pending = []
  | .closing _ => w.client = none
  | .stopped => w.client = none ∧ s.connected = false

theorem Server.initial_valid : Server.initial.Valid := by
  constructor <;> simp [Server.initial, queuePackets, queueBytes]

theorem Server.Valid.of_counters {s : Server} (valid : s.Valid) (force : Fin MonitorCount → Bool)
    (dropped slow : Nat) (stopping : Bool) :
    Server.Valid { s with
      forceKeyframe := force
      dropped := dropped
      slow := slow
      stopping := stopping } :=
  ⟨valid.counted, valid.packets, valid.total, valid.frames, valid.disconnecting, valid.unconnected⟩

theorem Checked.valid {s next : Server} {p : EncodedPacket} {result : Option Result}
    (checked : Checked s p next result) (valid : s.Valid) : next.Valid := by
  cases checked with
  | dropped => exact valid.of_counters ..
  | _ => exact valid

theorem Checked.connection {s next : Server} {p : EncodedPacket} {result : Option Result}
    (checked : Checked s p next result) :
    next.connected = s.connected ∧ next.accepted = s.accepted := by
  cases checked <;> exact ⟨rfl, rfl⟩

theorem Published.valid {s next : Server} {p : EncodedPacket} {framed : List UInt8}
    {result : Result} (published : Published s p framed next result) (valid : s.Valid)
    (ok : framePacket p = .ok framed) : next.Valid := by
  have sized := framed_length ok
  cases published with
  | unserved => exact valid
  | unindexed => exact valid
  | dropped => exact valid.of_counters ..
  | overflow connected => constructor <;> simp [connected]
  | queued connected staying _ _ room space =>
    refine ⟨?_, ?_, space, ?_, ?_, ?_⟩
    · simp [valid.counted]
    · simp only [List.length_append, List.length_singleton]; omega
    · intro other member
      rcases List.mem_append.mp member with member | member
      · exact valid.frames other member
      · rw [List.mem_singleton.mp member]; exact sized
    · simp [staying]
    · simp [connected]

/-- A publish changes neither the connection nor its number. -/
theorem Published.connection {s next : Server} {p : EncodedPacket} {framed : List UInt8}
    {result : Result} (published : Published s p framed next result) :
    next.connected = s.connected ∧ next.accepted = s.accepted := by
  cases published <;> exact ⟨rfl, rfl⟩

theorem closeShared_valid (s : Server) : (closeShared s).Valid := by
  constructor <;> simp [closeShared]

theorem acceptShared_valid {s : Server} (valid : s.Valid) (closed : s.connected = false) :
    (acceptShared s).Valid := by
  obtain ⟨empty, staying, _⟩ := valid.unconnected closed
  exact ⟨valid.counted, valid.packets, valid.total, valid.frames, by simp [acceptShared, staying],
    by simp [acceptShared]⟩

/-- The subtraction of the pop does not wrap. -/
theorem Server.Valid.pop {s : Server} (valid : s.Valid) {front : List UInt8}
    {rest : List (List UInt8)} (queue : s.queue = front :: rest) :
    front.length ≤ s.queuedBytes ∧
      sizeSub s.queuedBytes front.length = (rest.map List.length).sum := by
  have counted := valid.counted
  have total := valid.total
  simp only [queue, List.map_cons, List.sum_cons, queueBytes] at counted total
  exact ⟨by omega, by simp only [sizeSub]; omega⟩

theorem pop_valid {s : Server} (valid : s.Valid) {front : List UInt8}
    {rest : List (List UInt8)} (queue : s.queue = front :: rest) :
    { s with queue := rest, queuedBytes := sizeSub s.queuedBytes front.length }.Valid := by
  obtain ⟨within, remaining⟩ := valid.pop queue
  have packets := valid.packets
  have counted := valid.counted
  have total := valid.total
  simp only [queue, List.map_cons, List.sum_cons, List.length_cons] at counted packets
  refine ⟨remaining, ?_, ?_, ?_, ?_, ?_⟩
  · simp only; omega
  · simp only [remaining]; omega
  · intro framed member
    exact valid.frames framed (by rw [queue]; exact List.mem_cons_of_mem _ member)
  · intro leaving
    have empty := (valid.disconnecting leaving).2
    simp [queue] at empty
  · intro closed
    have empty := (valid.unconnected closed).1
    simp [queue] at empty

theorem closeClient_valid (w : Worker) (resume : Resume) :
    (closeClient w resume).1.Valid := by
  constructor <;> simp [closeClient]

theorem Worker.Valid.advance {w : Worker} (valid : w.Valid) {count now : Nat}
    (pending : w.pending ≠ []) (taken : count ≤ w.pending.length - w.offset) :
    (w.advance count now).Valid := by
  have inside := valid.inside pending
  unfold Worker.advance
  split
  · constructor <;> simp
  · rename_i more
    exact ⟨valid.bounded, fun _ => by simp only; omega, valid.live⟩

theorem Worker.Valid.with_phase {w : Worker} (valid : w.Valid) (phase : Phase) :
    { w with phase := phase }.Valid :=
  ⟨valid.bounded, valid.inside, valid.live⟩

/-- The link sees the server only through the connection and its number. -/
theorem Linked.of_connection {s next : Server} {w : Worker} (linked : Linked s w)
    (same : next.connected = s.connected ∧ next.accepted = s.accepted) : Linked next w := by
  unfold Linked at linked ⊢
  rw [same.1, same.2]
  exact linked

theorem Settled.preserves {s next : Server} {w worker : Worker} {events : List WorkerEvent}
    (settled : Settled s w next worker events) (server : s.Valid) (valid : w.Valid)
    (client : w.client = if s.connected then some s.accepted else none) :
    next.Valid ∧ worker.Valid ∧ Linked next worker := by
  cases settled with
  | resumed => exact ⟨server, valid.with_phase _, by simpa [Linked] using client⟩
  | closing slow => exact ⟨server.of_counters .., closeClient_valid .., by simp [Linked, closeClient]⟩

theorem WorkerMoved.preserves {s next : Server} {w worker : Worker} {events : List WorkerEvent}
    (moved : WorkerMoved s w next worker events) (server : s.Valid) (valid : w.Valid)
    (linked : Linked s w) : next.Valid ∧ worker.Valid ∧ Linked next worker := by
  cases moved with
  | stopping => exact ⟨server, closeClient_valid .., by simp [Linked, closeClient]⟩
  | disconnecting => exact ⟨server, closeClient_valid .., by simp [Linked, closeClient]⟩
  | popped phase staying empty queue =>
    simp only [Linked, phase] at linked
    have sized := server.frames _ (by rw [queue]; exact List.mem_cons_self)
    have connected : s.connected = true := by
      by_contra closed
      have none_queued := (server.unconnected (Bool.eq_false_iff.mpr closed)).1
      simp [queue] at none_queued
    refine ⟨pop_valid server queue, ⟨sized.2, fun _ => ?_, fun _ => ?_⟩, by simpa [Linked] using linked⟩
    · simp only; omega
    · simp [linked, connected]
  | idle phase =>
    simp only [Linked, phase] at linked
    exact ⟨server, valid.with_phase _, by simpa [Linked] using linked⟩
  | interrupted phase =>
    simp only [Linked, phase] at linked
    exact ⟨server, valid.with_phase _, by simpa [Linked] using linked⟩
  | ready fds phase =>
    simp only [Linked, phase] at linked
    exact ⟨server, valid.with_phase _, by simpa [Linked] using linked⟩
  | refused fds phase =>
    simp only [Linked, phase] at linked
    exact ⟨server, valid.with_phase _, by simpa [Linked] using linked⟩
  | connecting fds phase unconnected =>
    simp only [Linked, phase] at linked
    have closed : s.connected = false := by
      by_contra connected
      simp [unconnected, Bool.eq_true_of_not_eq_false connected] at linked
    have empty : w.pending = [] := by
      by_contra pending
      have live := valid.live pending
      simp [unconnected] at live
    exact ⟨server, ⟨valid.bounded, valid.inside, by simp [empty]⟩, by simp [Linked, closed, empty]⟩
  | accepted phase =>
    simp only [Linked, phase] at linked
    obtain ⟨client, closed, _⟩ := linked
    exact ⟨acceptShared_valid server closed, valid.with_phase _,
      by simp [Linked, acceptShared, client]⟩
  | settled phase settled =>
    simp only [Linked, phase] at linked
    exact settled.preserves server valid linked
  | sent phase _ pending _ within settled =>
    simp only [Linked, phase] at linked
    apply settled.preserves server (valid.advance pending within)
    unfold Worker.advance
    split <;> exact linked
  | closed resume phase =>
    simp only [Linked, phase] at linked
    refine ⟨closeShared_valid s, valid.with_phase _, ?_⟩
    cases resume <;> simp [Linked, Resume.phase, closeShared, linked]

/-- The invariant of the transport, with what a publisher between its two locked
sections has framed. -/
structure Invariant (s : State ι) : Prop where
  server : s.server.Valid
  worker : s.worker.Valid
  linked : Linked s.server s.worker
  framed : ∀ t p bytes, s.publishers t = .framed p bytes → framePacket p = .ok bytes

theorem initial_invariant : Invariant (State.initial (ι := ι)) :=
  ⟨Server.initial_valid, by constructor <;> simp [State.initial, Worker.initial],
    by simp [Linked, State.initial, Worker.initial, Server.initial], by simp [State.initial]⟩

variable [DecidableEq ι]

theorem place_framed {s : State ι} {t : ι} {position : Publisher}
    (framed : ∀ t p bytes, s.publishers t = .framed p bytes → framePacket p = .ok bytes)
    (fresh : ∀ p bytes, position = .framed p bytes → framePacket p = .ok bytes) :
    ∀ u p bytes, (s.place t position).publishers u = .framed p bytes → framePacket p = .ok bytes := by
  intro u p bytes at_
  by_cases same : u = t
  · subst u
    exact fresh p bytes (by simpa [State.place] using at_)
  · exact framed u p bytes (by simpa [State.place, same] using at_)

theorem step_invariant {s next : State ι} {a : Action ι} {events : List (Event ι)}
    (valid : Invariant s) (taken : step s a = some (next, events)) : Invariant next := by
  cases step_stepped taken with
  | called => exact ⟨valid.server, valid.worker, valid.linked, place_framed valid.framed (by simp)⟩
  | checked _ checked =>
    exact ⟨checked.valid valid.server, valid.worker, valid.linked.of_connection checked.connection,
      place_framed valid.framed (by simp)⟩
  | passed _ checked =>
    exact ⟨checked.valid valid.server, valid.worker, valid.linked.of_connection checked.connection,
      place_framed valid.framed (by simp)⟩
  | framed _ ok =>
    refine ⟨valid.server, valid.worker, valid.linked, place_framed valid.framed ?_⟩
    rintro p bytes ⟨⟩
    exact ok
  | unframable => exact ⟨valid.server, valid.worker, valid.linked, place_framed valid.framed (by simp)⟩
  | enqueued position published =>
    exact ⟨published.valid valid.server (valid.framed _ _ _ position), valid.worker,
      valid.linked.of_connection published.connection, place_framed valid.framed (by simp)⟩
  | worker _ moved =>
    obtain ⟨server, worker, linked⟩ := moved.preserves valid.server valid.worker valid.linked
    exact ⟨server, worker, linked, valid.framed⟩
  | taken stream =>
    exact ⟨valid.server.of_counters .., valid.worker, valid.linked.of_connection ⟨rfl, rfl⟩,
      valid.framed⟩
  | shutdown =>
    exact ⟨valid.server.of_counters .., valid.worker, valid.linked.of_connection ⟨rfl, rfl⟩,
      valid.framed⟩

theorem run_invariant {actions : List (Action ι)} {s : State ι} {trace : List (Event ι)}
    (run : Machine.exec step actions State.initial = some (s, trace)) : Invariant s :=
  Machine.invariant Invariant initial_invariant (fun _ _ _ _ valid taken => step_invariant valid taken)
    run

/-- Queue accounting, memory bounds and flag consistency in every reachable state. -/
theorem transport_invariant {actions : List (Action ι)} {s : State ι} {trace : List (Event ι)}
    (run : Machine.exec step actions State.initial = some (s, trace)) :
    s.server.queuedBytes = (s.server.queue.map List.length).sum ∧
    (∀ front rest, s.server.queue = front :: rest → front.length ≤ s.server.queuedBytes ∧
      sizeSub s.server.queuedBytes front.length = (rest.map List.length).sum) ∧
    s.server.queue.length ≤ 12 ∧
    (s.server.queue.map List.length).sum ≤ 16 * 1024 * 1024 ∧
    s.worker.pending.length ≤ 8 * 1024 * 1024 + 32 ∧
    (s.worker.pending ≠ [] → s.worker.offset < s.worker.pending.length ∧
      s.worker.client.isSome) ∧
    (s.server.disconnect = true → s.server.connected = true ∧ s.server.queue = []) ∧
    (s.server.connected = false → s.server.queue = [] ∧ s.server.disconnect = false ∧
      (0 < s.server.accepted → ∀ stream, s.server.waitingForKeyframe stream = true)) ∧
    (s.worker.phase = .head → (s.server.connected = true ↔ s.worker.client.isSome)) := by
  obtain ⟨server, worker, linked, _⟩ := run_invariant run
  refine ⟨server.counted, fun front rest queue => server.pop queue, server.packets, ?_, worker.bounded,
    fun pending => ⟨worker.inside pending, worker.live pending⟩, server.disconnecting,
    server.unconnected, ?_⟩
  · rw [← server.counted]; exact server.total
  · intro phase
    simp only [Linked, phase] at linked
    rw [linked]
    cases s.server.connected <;> simp

/-- A client connects, a keyframe of stream 1 is published and ten of its bytes are sent. -/
def sampleRun : List (Action (Fin MonitorCount)) := [
  .worker (.head 0), .worker (.polled ⟨true, false, false, false⟩ true), .worker .accept,
  .call (.last 1) samplePacket, .check (.last 1), .frame (.last 1), .enqueue (.last 1),
  .worker (.serve .again .again 0 0), .worker (.head 1),
  .worker (.polled ⟨false, false, false, true⟩ false), .worker (.serve .again (.took 10) 2 2)]

theorem transport_invariant_sample :
    ∃ s trace, Machine.exec step sampleRun State.initial = some (s, trace) ∧
      s.worker.offset = 10 ∧ s.worker.client = some 1 ∧
      s.server.queuedBytes = (s.server.queue.map List.length).sum ∧
      (s.worker.pending ≠ [] → s.worker.offset < s.worker.pending.length ∧
        s.worker.client.isSome) := by
  obtain ⟨s, trace, run⟩ : ∃ s trace,
      Machine.exec step sampleRun State.initial = some (s, trace) := ⟨_, _, rfl⟩
  have reached : (Machine.exec step sampleRun State.initial).map
      (fun r => (r.1.worker.offset, r.1.worker.client)) = some (10, some 1) := rfl
  obtain ⟨offset, client⟩ : s.worker.offset = 10 ∧ s.worker.client = some 1 := by
    simpa [run] using reached
  have bounds := transport_invariant run
  exact ⟨s, trace, run, offset, client, bounds.1, bounds.2.2.2.2.2.1⟩

end Quest.Transport
