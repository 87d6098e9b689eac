import Mathlib.Algebra.BigOperators.Intervals
import Quest.Library.FramedStream
import Quest.TransportHistory

/-! The counters of the transport against what happened: every packet offered to a client is
counted as skipped or discarded, is whole on the wire, is held, or was lost at a close. -/
namespace Quest.Transport

open FramedStream

def Result.offered : Result → Bool
  | .dropped => true
  | .queued _ => true
  | .overflow => true
  | .unserved => false
  | .threw _ => false

def Event.offers : Event ι → Bool
  | .published _ _ result => result.offered
  | .worker _ => false

def Event.overflows : Event ι → Bool
  | .published _ _ result => result = .overflow
  | .worker _ => false

def Event.closes : Event ι → Bool
  | .worker (.closed _) => true
  | _ => false

def Event.admits : Event ι → Bool
  | .worker (.accepted _) => true
  | _ => false

def wholeOn (k : Nat) (trace : List (Event ι)) : List EncodedPacket :=
  complete wire (queuedOn k trace) (sentOn k trace).length

/-- How many packets are whole on the wire of the connections up to `last`. -/
def delivered (last : Nat) (trace : List (Event ι)) : Nat :=
  ∑ k ∈ Finset.range (last + 1), (wholeOn k trace).length

def heldPackets (s : Server) (w : Worker) : Nat :=
  s.queue.length + if w.pending = [] then 0 else 1

def Worker.closing (w : Worker) : Bool :=
  match w.phase with
  | .closing _ => true
  | _ => false

/-- The packets of a connection: those that are whole on the wire, the pending one, and the
queued ones while nobody has thrown them away. -/
structure Ledger (s : Server) (w : Worker) (queued : List EncodedPacket) (sent : List UInt8)
    (done held : List EncodedPacket) : Prop where
  order : done ++ held <+: queued
  pending : held = [] ∧ w.pending = [] ∨ ∃ p, held = [p] ∧ w.pending = wire p
  sent : sent = stream wire done ++ w.pending.take w.offset
  queue : s.connected = true → s.disconnect = false →
    ∃ waiting, queued = done ++ held ++ waiting ∧ s.queue = waiting.map wire

structure Accounts (s : Server) (w : Worker) (trace : List (Event ι)) : Prop where
  ledger : ∀ k, w.client = some k →
    ∃ done held, Ledger s w (queuedOn k trace) (sentOn k trace) done held
  accepted : s.accepted = trace.countP Event.admits
  open_ : trace.countP Event.closes + (if w.client = some s.accepted then 1 else 0) = s.accepted
  balance : ∃ lost,
    s.dropped + delivered s.accepted trace + heldPackets s w + lost = trace.countP Event.offers ∧
    lost + (if w.closing = true ∧ s.connected = true then queuePackets else 0) ≤
      (queuePackets + 1) * trace.countP Event.closes

theorem wire_ne_nil (p : EncodedPacket) : wire p ≠ [] := by
  intro empty
  have length := congrArg List.length empty
  simp [wire, headerSize] at length

theorem Ledger.held_length {s : Server} {w : Worker} {queued done held : List EncodedPacket}
    {sent : List UInt8} (ledger : Ledger s w queued sent done held) :
    (if w.pending = [] then 0 else 1) = held.length := by
  rcases ledger.pending with ⟨rfl, empty⟩ | ⟨p, rfl, pending⟩
  · rw [if_pos empty, List.length_nil]
  · rw [pending, if_neg (wire_ne_nil p), List.length_singleton]

theorem Ledger.whole {s : Server} {w : Worker} {queued done held : List EncodedPacket}
    {sent : List UInt8} (ledger : Ledger s w queued sent done held) (valid : w.Valid) :
    complete wire queued sent.length = done := by
  obtain ⟨later, rfl⟩ := ledger.order
  rw [ledger.sent, List.length_append, List.append_assoc, complete_append]
  suffices nothing : complete wire (held ++ later) (w.pending.take w.offset).length = [] by
    rw [nothing, List.append_nil]
  rcases ledger.pending with ⟨rfl, empty⟩ | ⟨p, rfl, pending⟩
  · cases later with
    | nil => rfl
    | cons q later =>
      have cut : ¬(wire q).length ≤ (w.pending.take w.offset).length := by
        simpa [empty] using wire_ne_nil q
      rw [List.nil_append, complete, if_neg cut]
  · have inside := valid.inside (by rw [pending]; exact wire_ne_nil p)
    have cut : ¬(wire p).length ≤ (w.pending.take w.offset).length := by
      rw [List.length_take, ← pending]
      omega
    rw [List.singleton_append, complete, if_neg cut]

theorem Ledger.server {s next : Server} {w : Worker} {queued done held : List EncodedPacket}
    {sent : List UInt8} (ledger : Ledger s w queued sent done held)
    (same : next.connected = true → next.disconnect = false →
      s.connected = true ∧ s.disconnect = false ∧ next.queue = s.queue) :
    Ledger next w queued sent done held where
  order := ledger.order
  pending := ledger.pending
  sent := ledger.sent
  queue connected staying := by
    obtain ⟨connected, staying, queue⟩ := same connected staying
    rw [queue]
    exact ledger.queue connected staying

theorem Ledger.phase {s : Server} {w : Worker} {queued done held : List EncodedPacket}
    {sent : List UInt8} (ledger : Ledger s w queued sent done held) (phase : Phase) :
    Ledger s { w with phase := phase } queued sent done held :=
  ⟨ledger.order, ledger.pending, ledger.sent, ledger.queue⟩

/-- The pending packet goes on the wire, in part or to its end. -/
theorem Ledger.advance {s : Server} {w : Worker} {queued done held : List EncodedPacket}
    {sent : List UInt8} (ledger : Ledger s w queued sent done held) (pending : w.pending ≠ [])
    (count now : Nat) :
    ∃ held', Ledger s (w.advance count now) queued
        (sent ++ (w.pending.drop w.offset).take count) (done ++ held.take (1 - held'.length)) held' ∧
      held'.length = if w.offset + count = w.pending.length then 0 else 1 := by
  obtain ⟨_, empty⟩ | ⟨p, rfl, whole⟩ := ledger.pending
  · exact absurd empty pending
  have more : w.pending.take w.offset ++ (w.pending.drop w.offset).take count =
      w.pending.take (w.offset + count) := List.take_add.symm
  by_cases ends : w.offset + count = w.pending.length
  · refine ⟨[], ?_, by simp [ends]⟩
    rw [Worker.advance, if_pos ends]
    refine ⟨by simpa using ledger.order, .inl ⟨rfl, rfl⟩, ?_, ?_⟩
    · rw [ledger.sent, List.append_assoc, more, ends, List.take_length, whole]
      simp [stream]
    · simpa using ledger.queue
  · refine ⟨[p], ?_, by simp [ends]⟩
    rw [Worker.advance, if_neg ends]
    refine ⟨by simpa using ledger.order, .inr ⟨p, rfl, whole⟩, ?_, by simpa using ledger.queue⟩
    rw [ledger.sent, List.append_assoc, more]
    simp

theorem delivered_congr {last : Nat} {trace events : List (Event ι)}
    (same : ∀ k, wholeOn k (trace ++ events) = wholeOn k trace) :
    delivered last (trace ++ events) = delivered last trace :=
  Finset.sum_congr rfl fun k _ => by rw [same k]

/-- Only what is sent brings packets onto the wire. -/
theorem wholeOn_unsent {k : Nat} {trace events : List (Event ι)}
    (within : sentOn k trace <+: stream wire (queuedOn k trace)) (unsent : sentOn k events = [])
    (queued : (queuedOn k events).length ≤ 1) : wholeOn k (trace ++ events) = wholeOn k trace := by
  rw [wholeOn, sentOn_append, unsent, List.append_nil, queuedOn_append]
  match queuedOn k events, queued with
  | [], _ => rw [List.append_nil]; rfl
  | [p], _ => exact complete_snoc within.length_le (wire_ne_nil p)

theorem delivered_add {last k : Nat} {trace events : List (Event ι)} {more : Nat}
    (inside : k ≤ last) (others : ∀ j ≠ k, wholeOn j (trace ++ events) = wholeOn j trace)
    (here : (wholeOn k (trace ++ events)).length = (wholeOn k trace).length + more) :
    delivered last (trace ++ events) = delivered last trace + more := by
  have each (j : Nat) : (wholeOn j (trace ++ events)).length =
      (wholeOn j trace).length + if k = j then more else 0 := by
    by_cases same : k = j
    · subst same
      rw [here, if_pos rfl]
    · rw [others j (Ne.symm same), if_neg same, Nat.add_zero]
  simp only [delivered, each, Finset.sum_add_distrib]
  rw [Finset.sum_ite_eq, if_pos (Finset.mem_range.mpr (by omega))]

def Sent (trace : List (Event ι)) : Prop :=
  ∀ k, sentOn k trace <+: stream wire (queuedOn k trace)

theorem Flow.wired {s : State ι} {trace : List (Event ι)} (flow : Flow s trace) : Sent trace :=
  fun k => (List.prefix_append _ _).trans (flow.sent k)

/-- A call that queues nothing. -/
theorem Accounts.counted {s next : Server} {w : Worker} {trace : List (Event ι)}
    (accounts : Accounts s w trace) (wired : Sent trace) (t : ι) (p : EncodedPacket)
    {result : Result} (unqueued : ∀ k, result ≠ .queued k)
    (connection : next.connected = s.connected ∧ next.accepted = s.accepted)
    (queue : next.disconnect = false → s.disconnect = false ∧ next.queue = s.queue)
    (count : next.dropped + next.queue.length =
      s.dropped + s.queue.length + if result.offered then 1 else 0) :
    Accounts next w (trace ++ [.published t p result]) := by
  have nothing (k : Nat) : queuedOn k [.published t p result] = [] := by
    rw [queuedOn_published, if_neg (unqueued k)]
  obtain ⟨lost, balance, bound⟩ := accounts.balance
  refine ⟨fun k client => ?_, ?_, ?_, lost, ?_, ?_⟩
  · obtain ⟨done, held, ledger⟩ := accounts.ledger k client
    rw [queuedOn_append, nothing, List.append_nil, sentOn_append, sentOn_published, List.append_nil]
    refine ⟨done, held, ledger.server fun connected staying => ?_⟩
    exact ⟨connection.1 ▸ connected, queue staying⟩
  · simpa [connection.2, Event.admits] using accounts.accepted
  · simpa [connection.2, Event.closes] using accounts.open_
  · rw [connection.2, delivered_congr fun k => wholeOn_unsent (wired k) rfl (by simp [nothing])]
    have single : List.countP Event.offers [Event.published t p result] =
        if result.offered then 1 else 0 := by
      cases offered : result.offered <;> simp [Event.offers, offered]
    simp only [heldPackets, List.countP_append, single] at balance ⊢
    omega
  · simpa [connection.1, Event.closes] using bound

theorem Accounts.queued {s : Server} {w : Worker} {trace : List (Event ι)}
    (accounts : Accounts s w trace) (wired : Sent trace) (linked : Linked s w) (t : ι)
    {p : EncodedPacket} {framed : List UInt8} (ok : framePacket p = .ok framed)
    (connected : s.connected = true) (waiting : Fin MonitorCount → Bool) (bytes : Nat) :
    Accounts { s with
        waitingForKeyframe := waiting
        queuedBytes := bytes
        queue := s.queue ++ [framed] } w
      (trace ++ [.published t p (.queued s.accepted)]) := by
  obtain ⟨lost, balance, bound⟩ := accounts.balance
  refine ⟨fun k client => ?_, ?_, ?_, lost, ?_, ?_⟩
  · obtain ⟨done, held, ledger⟩ := accounts.ledger k client
    obtain rfl : k = s.accepted := by
      unfold Linked at linked
      split at linked <;> simp_all
    rw [queuedOn_append, queuedOn_published, if_pos rfl, sentOn_append, sentOn_published,
      List.append_nil]
    refine ⟨done, held, ledger.order.trans (List.prefix_append _ _), ledger.pending, ledger.sent,
      fun connected staying => ?_⟩
    obtain ⟨later, queued, queue⟩ := ledger.queue connected staying
    exact ⟨later ++ [p], by rw [queued, List.append_assoc _ later],
      by simp [queue, wire_of_framed ok]⟩
  · simpa [Event.admits] using accounts.accepted
  · simpa [Event.closes] using accounts.open_
  · have short (k : Nat) : (queuedOn k [.published t p (.queued s.accepted)]).length ≤ 1 := by
      rw [queuedOn_published]
      split <;> simp
    rw [delivered_congr fun k => wholeOn_unsent (wired k) rfl (short k)]
    simp only [heldPackets, List.countP_append, List.countP_singleton, Event.offers, List.length_append,
      List.length_singleton, Result.offered, if_true] at balance ⊢
    omega
  · simpa [Event.closes] using bound

theorem Accounts.published {s next : Server} {w : Worker} {trace : List (Event ι)}
    (accounts : Accounts s w trace) (wired : Sent trace) (linked : Linked s w) (t : ι)
    {p : EncodedPacket} {framed : List UInt8} {result : Result}
    (published : Published s p framed next result) (ok : framePacket p = .ok framed) :
    Accounts next w (trace ++ [.published t p result]) := by
  have connection := published.connection
  cases published with
  | unserved => exact accounts.counted wired t p (by simp) connection (fun staying => ⟨staying, rfl⟩) rfl
  | unindexed => exact accounts.counted wired t p (by simp) connection (fun staying => ⟨staying, rfl⟩) rfl
  | dropped =>
    exact accounts.counted wired t p (by simp) connection (fun staying => ⟨staying, rfl⟩)
      (by simp [Result.offered]; omega)
  | overflow =>
    exact accounts.counted wired t p (by simp) connection (by simp) (by simp [Result.offered]; omega)
  | queued connected => exact accounts.queued wired linked t ok connected _ _

theorem Accounts.checked {s next : Server} {w : Worker} {trace : List (Event ι)}
    (accounts : Accounts s w trace) (wired : Sent trace) (t : ι) {p : EncodedPacket}
    {result : Result} (checked : Checked s p next (some result)) :
    Accounts next w (trace ++ [.published t p result]) := by
  have connection := checked.connection
  cases checked with
  | unserved => exact accounts.counted wired t p (by simp) connection (fun staying => ⟨staying, rfl⟩) rfl
  | unindexed => exact accounts.counted wired t p (by simp) connection (fun staying => ⟨staying, rfl⟩) rfl
  | dropped =>
    exact accounts.counted wired t p (by simp) connection (fun staying => ⟨staying, rfl⟩)
      (by simp [Result.offered]; omega)

theorem wholeOn_silent {k : Nat} {trace : List (Event ι)} {events : List WorkerEvent}
    (unsent : events.flatMap (WorkerEvent.sentOn k) = []) :
    wholeOn k (trace ++ events.map .worker) = wholeOn k trace := by
  simp [wholeOn, unsent]

/-- A worker step that keeps client and packets and leads to no close. -/
theorem Accounts.looped {s : Server} {w : Worker} {trace : List (Event ι)}
    (accounts : Accounts s w trace) {phase : Phase} (open_ : w.closing = false)
    (still : { w with phase := phase }.closing = false) {events : List WorkerEvent}
    (refused : ∀ e ∈ events, ∃ connection, e = .refused connection) :
    Accounts s { w with phase := phase } (trace ++ events.map .worker) := by
  have unsent (k : Nat) : events.flatMap (WorkerEvent.sentOn k) = [] := by
    refine List.flatMap_eq_nil_iff.mpr fun e member => ?_
    obtain ⟨connection, rfl⟩ := refused e member
    rfl
  have uncounted {seen : Event ι → Bool} (other : ∀ c, seen (.worker (.refused c)) = false) :
      (events.map (.worker (ι := ι))).countP seen = 0 := by
    refine List.countP_eq_zero.mpr fun e member => ?_
    obtain ⟨event, listed, rfl⟩ := List.mem_map.mp member
    obtain ⟨connection, rfl⟩ := refused event listed
    simp [other]
  obtain ⟨lost, balance, bound⟩ := accounts.balance
  refine ⟨fun k client => ?_, ?_, ?_, lost, ?_, ?_⟩
  · obtain ⟨done, held, ledger⟩ := accounts.ledger k client
    simp only [queuedOn_append, queuedOn_worker, sentOn_append, sentOn_worker, unsent,
      List.append_nil]
    exact ⟨done, held, ledger.phase phase⟩
  · rw [List.countP_append, uncounted fun _ => rfl]
    exact accounts.accepted
  · rw [List.countP_append, uncounted fun _ => rfl]
    exact accounts.open_
  · rw [List.countP_append, uncounted fun _ => rfl, delivered_congr fun k => wholeOn_silent (unsent k)]
    exact balance
  · rw [List.countP_append, uncounted fun _ => rfl, still]
    simpa [open_] using bound

/-- The client goes with what is pending for it; the queue is lost at the second half of
`closeClient`. -/
theorem Accounts.client_closed {s : Server} {w : Worker} {trace : List (Event ι)}
    (accounts : Accounts s w trace) (valid : w.Valid) (open_ : w.closing = false)
    (client : w.client = if s.connected then some s.accepted else none) (resume : Resume)
    (slow : Nat) :
    Accounts { s with slow := slow } (closeClient w resume).1
      (trace ++ (closeClient w resume).2.map .worker) := by
  obtain ⟨lost, balance, bound⟩ := accounts.balance
  have open_before := accounts.open_
  have same : delivered s.accepted (trace ++ (closeClient w resume).2.map .worker) =
      delivered s.accepted trace :=
    delivered_congr fun k => wholeOn_silent (closeClient_sent w resume k)
  obtain ⟨admits, closes, offers⟩ :
      ((closeClient w resume).2.map (.worker (ι := ι))).countP Event.admits = 0 ∧
      ((closeClient w resume).2.map (.worker (ι := ι))).countP Event.closes =
        (if s.connected then 1 else 0) ∧
      ((closeClient w resume).2.map (.worker (ι := ι))).countP Event.offers = 0 := by
    cases connected : s.connected <;>
      simp [closeClient, client, connected, Event.admits, Event.closes, Event.offers]
  have idle : s.connected = false → w.pending = [] := by
    intro closed
    by_contra pending
    simpa [client, closed] using valid.live pending
  refine ⟨fun k live => by simp [closeClient] at live, ?_, ?_,
    lost + if w.pending = [] then 0 else 1, ?_, ?_⟩
  · rw [List.countP_append, admits]
    exact accounts.accepted
  · rw [List.countP_append, closes]
    cases connected : s.connected <;> simp [client, connected, closeClient] at open_before ⊢ <;> omega
  · rw [List.countP_append, offers, same]
    simp only [heldPackets, closeClient, if_true] at balance ⊢
    omega
  · rw [List.countP_append, closes]
    simp only [open_, Bool.false_eq_true, false_and, if_false] at bound
    cases connected : s.connected
    · simp [idle connected]
      omega
    · simp [closeClient, Worker.closing, Nat.mul_add]
      split <;> omega

theorem Accounts.shared_closed {s : Server} {w : Worker} {trace : List (Event ι)}
    (accounts : Accounts s w trace) (valid : s.Valid) (closing : w.closing = true)
    (gone : w.client = none) {phase : Phase} (still : { w with phase := phase }.closing = false) :
    Accounts (closeShared s) { w with phase := phase } trace := by
  obtain ⟨lost, balance, bound⟩ := accounts.balance
  refine ⟨fun k live => by simp [gone] at live, accounts.accepted, accounts.open_,
    lost + s.queue.length, ?_, ?_⟩
  · simp only [heldPackets, closeShared, List.length_nil] at balance ⊢
    omega
  · rw [still]
    simp only [closing, true_and] at bound
    have room := valid.packets
    cases connected : s.connected <;> simp only [connected, Bool.false_eq_true, if_false, if_true,
      false_and] at bound ⊢
    · simp only [(valid.unconnected connected).1, List.length_nil]
      exact bound
    · omega

theorem Accounts.connecting {s : Server} {w : Worker} {trace : List (Event ι)}
    (accounts : Accounts s w trace) (gone : w.client = none) (empty : w.pending = [])
    (closed : s.connected = false)
    (fresh : queuedOn (s.accepted + 1) trace = [] ∧ sentOn (s.accepted + 1) trace = [])
    (fds : Ready) :
    Accounts s { w with client := some (s.accepted + 1), phase := .accepting fds } trace := by
  refine ⟨fun k live => ?_, accounts.accepted, ?_, ?_⟩
  · obtain rfl : s.accepted + 1 = k := Option.some.inj live
    rw [fresh.1, fresh.2]
    exact ⟨[], [], List.nil_prefix, .inl ⟨rfl, empty⟩, by simp [empty, stream], by simp [closed]⟩
  · simpa [gone] using accounts.open_
  · obtain ⟨lost, balance, bound⟩ := accounts.balance
    exact ⟨lost, balance, by simpa [Worker.closing, closed] using bound⟩

theorem Accounts.admitted {s : Server} {w : Worker} {trace : List (Event ι)}
    (accounts : Accounts s w trace) (client : w.client = some (s.accepted + 1))
    (empty : w.pending = []) (queue : s.queue = [])
    (fresh : queuedOn (s.accepted + 1) trace = [] ∧ sentOn (s.accepted + 1) trace = [])
    (fds : Ready) :
    Accounts (acceptShared s) { w with phase := .serving fds }
      (trace ++ [.accepted (s.accepted + 1)].map .worker) := by
  obtain ⟨lost, balance, bound⟩ := accounts.balance
  have before := accounts.open_
  have accepted := accounts.accepted
  have silent (k : Nat) : [WorkerEvent.accepted (s.accepted + 1)].flatMap (WorkerEvent.sentOn k) =
      [] := rfl
  refine ⟨fun k live => ?_, ?_, ?_, lost, ?_, ?_⟩
  · obtain rfl : s.accepted + 1 = k := Option.some.inj (client.symm.trans live)
    simp only [queuedOn_append, queuedOn_worker, sentOn_append, sentOn_worker, silent, fresh,
      List.append_nil]
    exact ⟨[], [], List.nil_prefix, .inl ⟨rfl, empty⟩, by simp [empty, stream],
      fun _ _ => ⟨[], rfl, queue⟩⟩
  · simp [acceptShared, Event.admits, accepted]
  · simpa [acceptShared, Event.closes, client] using before
  · have none_yet : wholeOn (s.accepted + 1) trace = [] := by
      simp [wholeOn, fresh, complete]
    have more : delivered (s.accepted + 1) trace = delivered s.accepted trace := by
      rw [delivered, Finset.sum_range_succ, none_yet]
      rfl
    rw [show (acceptShared s).accepted = s.accepted + 1 from rfl,
      delivered_congr fun k => wholeOn_silent (silent k), more]
    simpa [acceptShared, heldPackets, Event.offers] using balance
  · have within : lost ≤ (queuePackets + 1) * trace.countP Event.closes := by omega
    simpa [Worker.closing, Event.closes] using within

theorem Accounts.popped {s : Server} {w : Worker} {trace : List (Event ι)}
    (accounts : Accounts s w trace) (valid : s.Valid) (open_ : w.closing = false)
    (staying : s.disconnect = false) (connected : s.connected = true) (empty : w.pending = [])
    {front : List UInt8} {rest : List (List UInt8)} (queue : s.queue = front :: rest)
    (bytes now : Nat) :
    Accounts { s with queue := rest, queuedBytes := bytes }
      { w with pending := front, offset := 0, progress := now, phase := .polling } trace := by
  obtain ⟨lost, balance, bound⟩ := accounts.balance
  have solid : front ≠ [] := by
    have sized := valid.frames front (queue ▸ List.mem_cons_self)
    exact List.length_pos_iff.mp (by omega)
  refine ⟨fun k live => ?_, accounts.accepted, accounts.open_, lost, ?_, ?_⟩
  · obtain ⟨done, held, ledger⟩ := accounts.ledger k live
    obtain rfl : held = [] := by
      rcases ledger.pending with ⟨nothing, _⟩ | ⟨p, _, pending⟩
      · exact nothing
      · exact absurd (pending.symm.trans empty) (wire_ne_nil p)
    obtain ⟨waiting, queued, same⟩ := ledger.queue connected staying
    have sent := ledger.sent
    rw [queue] at same
    cases waiting with
    | nil => contradiction
    | cons p waiting =>
      obtain ⟨rfl, rfl⟩ := List.cons.inj same
      refine ⟨done, [p], ⟨waiting, by simp [queued]⟩, .inr ⟨p, rfl, rfl⟩, ?_,
        fun _ _ => ⟨waiting, by simp [queued], rfl⟩⟩
      simpa [empty] using sent
  · simp only [heldPackets, queue, empty, if_true, List.length_cons, if_neg solid] at balance ⊢
    omega
  · rw [open_] at bound
    exact bound

/-- A send puts a packet on the wire exactly when it ends the pending one. -/
theorem Accounts.advanced {s : Server} {w : Worker} {trace : List (Event ι)}
    (accounts : Accounts s w trace) (valid : w.Valid)
    (client : w.client = some s.accepted) (pending : w.pending ≠ []) {count : Nat}
    (within : count ≤ w.pending.length - w.offset) (now : Nat) :
    Accounts s (w.advance count now) (trace ++
      [.sent s.accepted ((w.pending.drop w.offset).take count)].map .worker) := by
  obtain ⟨lost, balance, bound⟩ := accounts.balance
  obtain ⟨done, held, ledger⟩ := accounts.ledger s.accepted client
  obtain ⟨left, after, ends⟩ := ledger.advance pending count now
  have same_client := advance_client w count now
  have still : (w.advance count now).closing = w.closing := by
    unfold Worker.advance
    split <;> rfl
  let seen : List WorkerEvent := [.sent s.accepted ((w.pending.drop w.offset).take count)]
  have queued (k : Nat) : queuedOn k (trace ++ seen.map .worker) = queuedOn k trace := by
    rw [queuedOn_append, queuedOn_worker, List.append_nil]
  have sent : sentOn s.accepted (trace ++ seen.map .worker) =
      sentOn s.accepted trace ++ (w.pending.drop w.offset).take count := by
    rw [sentOn_append, sentOn_worker]
    simp [seen, WorkerEvent.sentOn]
  have others (k : Nat) (other : k ≠ s.accepted) :
      wholeOn k (trace ++ seen.map .worker) = wholeOn k trace :=
    wholeOn_silent (by simp [seen, WorkerEvent.sentOn, Ne.symm other])
  have one : held.length = 1 := by rw [← ledger.held_length, if_neg pending]
  have here : (wholeOn s.accepted (trace ++ seen.map .worker)).length =
      (wholeOn s.accepted trace).length + (1 - left.length) := by
    rw [wholeOn, queued, sent, after.whole (valid.advance pending within), wholeOn,
      ledger.whole valid, List.length_append, List.length_take, one]
    omega
  refine ⟨fun k live => ?_, ?_, ?_, lost, ?_, ?_⟩
  · obtain rfl : s.accepted = k := Option.some.inj (client.symm.trans (same_client ▸ live))
    rw [queued, sent]
    exact ⟨_, _, after⟩
  · simpa [Event.admits] using accounts.accepted
  · simpa [Event.closes, same_client] using accounts.open_
  · have offers : (seen.map (.worker (ι := ι))).countP Event.offers = 0 := rfl
    rw [delivered_add le_rfl others here, List.countP_append, offers]
    have at_most : left.length ≤ 1 := by rw [ends]; split <;> omega
    simp only [heldPackets, after.held_length, ledger.held_length, one] at balance ⊢
    omega
  · simpa [Event.closes, still] using bound

theorem Accounts.settled {s next : Server} {w worker : Worker} {trace : List (Event ι)}
    {events : List WorkerEvent} (accounts : Accounts s w trace) (valid : w.Valid)
    (open_ : w.closing = false) (client : w.client = if s.connected then some s.accepted else none)
    (settled : Settled s w next worker events) :
    Accounts next worker (trace ++ events.map .worker) := by
  cases settled with
  | resumed => exact accounts.looped open_ rfl (by simp)
  | closing slow => exact accounts.client_closed valid open_ client .head slow

theorem Accounts.worker {s next : Server} {w worker : Worker} {trace : List (Event ι)}
    {events : List WorkerEvent} (accounts : Accounts s w trace) (server : s.Valid) (valid : w.Valid)
    (linked : Linked s w)
    (fresh : queuedOn (s.accepted + 1) trace = [] ∧ sentOn (s.accepted + 1) trace = [])
    (moved : WorkerMoved s w next worker events) :
    Accounts next worker (trace ++ events.map .worker) := by
  -- In these phases the descriptor is that of the shared connection.
  have client (at_ : w.phase = .head ∨ w.phase = .polling ∨ ∃ fds, w.phase = .serving fds) :
      w.closing = false ∧ w.client = if s.connected then some s.accepted else none := by
    rcases at_ with phase | phase | ⟨fds, phase⟩ <;> simp only [Linked, phase] at linked <;>
      exact ⟨by simp [Worker.closing, phase], linked⟩
  cases moved with
  | stopping phase =>
    obtain ⟨open_, client⟩ := client (phase.imp_right .inl)
    exact accounts.client_closed valid open_ client .stopped s.slow
  | disconnecting phase =>
    obtain ⟨open_, client⟩ := client (.inl phase)
    exact accounts.client_closed valid open_ client .polling s.slow
  | popped phase staying empty queue =>
    have connected : s.connected = true := by
      by_contra closed
      simp [(server.unconnected (Bool.eq_false_iff.mpr closed)).1] at queue
    simpa using accounts.popped server (client (.inl phase)).1 staying connected empty queue _ _
  | idle phase => exact accounts.looped (client (.inl phase)).1 rfl (by simp)
  | interrupted phase => exact accounts.looped (client (.inr (.inl phase))).1 rfl (by simp)
  | ready fds phase => exact accounts.looped (client (.inr (.inl phase))).1 rfl (by simp)
  | refused fds phase => exact accounts.looped (client (.inr (.inl phase))).1 rfl (by simp)
  | connecting fds phase gone =>
    obtain ⟨_, linked⟩ := client (.inr (.inl phase))
    have closed : s.connected = false := by
      cases connected : s.connected
      · rfl
      · simp [connected, gone] at linked
    have empty : w.pending = [] := by
      by_contra pending
      simpa [gone] using valid.live pending
    simpa using accounts.connecting gone empty closed fresh fds
  | accepted phase =>
    simp only [Linked, phase] at linked
    obtain ⟨client, closed, empty⟩ := linked
    exact accounts.admitted client empty (server.unconnected closed).1 fresh _
  | settled phase settled =>
    obtain ⟨open_, client⟩ := client (.inr (.inr ⟨_, phase⟩))
    exact accounts.settled valid open_ client settled
  | sent phase present pending _ within settled =>
    rename_i connection count at_ rest _
    obtain ⟨open_, client⟩ := client (.inr (.inr ⟨_, phase⟩))
    obtain rfl : connection = s.accepted := by
      rw [present] at client
      split at client
      · exact Option.some.inj client
      · contradiction
    have still : (w.advance count at_).closing = false := by
      unfold Worker.advance
      split <;> exact open_
    have advanced := accounts.advanced valid present pending within at_
    have after := advanced.settled (valid.advance pending within) still
      ((advance_client ..).trans client) settled
    rw [List.append_assoc, ← List.map_append] at after
    exact after
  | closed resume phase =>
    simp only [Linked, phase] at linked
    have still : { w with phase := resume.phase }.closing = false := by cases resume <;> rfl
    simpa using accounts.shared_closed server (by simp [Worker.closing, phase]) linked still

def Slowed (s next : Server) (events : List WorkerEvent) : Prop :=
  s.slow ≤ next.slow ∧ next.slow ≤ s.slow + events.countP fun | .closed _ => true | _ => false

theorem slowed_of_same {s next : Server} (same : next.slow = s.slow) (events : List WorkerEvent) :
    Slowed s next events := ⟨same.ge, same.le.trans (Nat.le_add_right ..)⟩

/-- A stall is counted once and closes the client. -/
theorem stallCheck_slowed (s : Server) {w : Worker} {connection : Nat}
    (client : w.client = some connection) (now : Nat) :
    Slowed s (stallCheck s w now).1 (stallCheck s w now).2.2 := by
  unfold stallCheck
  split
  · simp [Slowed, closeClient, client]
  · exact slowed_of_same rfl _

theorem serve_slowed {s next : Server} {w worker : Worker} {fds : Ready} {recv : Recv} {send : Send}
    {sentAt now : Nat} {events : List WorkerEvent}
    (taken : serve s w fds recv send sentAt now = some (next, worker, events)) :
    Slowed s next events := by
  have of_result {t : Server × Worker × List WorkerEvent} (slowed : Slowed s t.1 t.2.2)
      (result : some t = some (next, worker, events)) : Slowed s next events := by
    cases result; exact slowed
  simp only [serve] at taken
  split at taken
  · exact of_result (slowed_of_same rfl _) taken
  rename_i connection client
  split at taken
  · exact of_result (slowed_of_same rfl _) taken
  split at taken
  · exact of_result (slowed_of_same rfl _) taken
  split at taken
  · split at taken
    · exact of_result (slowed_of_same rfl _) taken
    · exact of_result (stallCheck_slowed s client now) taken
    · split at taken
      · contradiction
      split at taken
      · exact of_result (stallCheck_slowed s client now) taken
      · rename_i count _ _
        have slowed := stallCheck_slowed s ((advance_client w count sentAt).trans client) now
        exact of_result (by simpa [Slowed] using slowed) taken
  · exact of_result (stallCheck_slowed s client now) taken

theorem workerStep_slowed {s next : Server} {w worker : Worker} {a : WorkerAction}
    {events : List WorkerEvent} (taken : workerStep s w a = some (next, worker, events)) :
    Slowed s next events := by
  have same (t : Server × Worker × List WorkerEvent) (kept : t.1.slow = s.slow)
      (result : some t = some (next, worker, events)) : Slowed s next events := by
    cases result; exact slowed_of_same kept _
  unfold workerStep at taken
  split at taken
  · split at taken
    · exact same _ rfl taken
    · contradiction
  · refine same _ ?_ taken
    unfold head
    repeat' split
    all_goals rfl
  · split at taken
    · exact same _ rfl taken
    · exact same _ rfl taken
  · exact same _ rfl taken
  · exact same _ rfl taken
  · exact serve_slowed taken
  · exact same _ rfl taken
  · contradiction

structure Counted (s : State ι) (trace : List (Event ι)) : Prop where
  invariant : Invariant s
  flow : Flow s trace
  accounts : Accounts s.server s.worker trace
  slow : trace.countP Event.overflows ≤ s.server.slow ∧
    s.server.slow ≤ trace.countP Event.overflows + trace.countP Event.closes

theorem initial_counted : Counted (State.initial (ι := ι)) [] := by
  refine ⟨initial_invariant, Flow.initial, ⟨by simp [State.initial, Worker.initial], rfl, rfl, 0, ?_, ?_⟩,
    le_rfl, le_rfl⟩
  · simp [State.initial, Server.initial, heldPackets, Worker.initial, delivered, wholeOn, complete]
  · simp [State.initial, Worker.initial, Worker.closing]

theorem Accounts.of_server {s next : Server} {w : Worker} {trace : List (Event ι)}
    (accounts : Accounts s w trace) (connected : next.connected = s.connected)
    (accepted : next.accepted = s.accepted) (disconnect : next.disconnect = s.disconnect)
    (queue : next.queue = s.queue) (dropped : next.dropped = s.dropped) :
    Accounts next w trace := by
  refine ⟨fun k live => ?_, accepted ▸ accounts.accepted, ?_, ?_⟩
  · obtain ⟨done, held, ledger⟩ := accounts.ledger k live
    exact ⟨done, held, ledger.server fun on staying =>
      ⟨connected ▸ on, disconnect ▸ staying, queue⟩⟩
  · rw [accepted]
    exact accounts.open_
  · simpa only [connected, accepted, queue, dropped, heldPackets] using accounts.balance

variable [DecidableEq ι]

/-- Of all steps only an overflow and a stall touch the counter of slow clients. -/
theorem step_slow {s next : State ι} {emitted : List (Event ι)} {a : Action ι}
    (taken : step s a = some (next, emitted)) :
    s.server.slow + emitted.countP Event.overflows ≤ next.server.slow ∧
      next.server.slow ≤
        s.server.slow + emitted.countP Event.overflows + emitted.countP Event.closes := by
  have stepped := step_stepped taken
  cases a with
  | worker b =>
    obtain ⟨⟨server, worker, events⟩, moved, result⟩ := Option.map_eq_some_iff.mp taken
    cases result
    have overflows : (events.map (.worker (ι := ι))).countP Event.overflows = 0 := by
      simp [List.countP_map, Function.comp_def, Event.overflows]
    have closes : (events.map (.worker (ι := ι))).countP Event.closes =
        events.countP fun | .closed _ => true | _ => false := by
      rw [List.countP_map]
      exact List.countP_congr fun e _ => by cases e <;> simp [Event.closes]
    rw [overflows, closes]
    exact workerStep_slowed moved
  | enqueue t =>
    cases stepped with
    | enqueued _ published => cases published <;> simp [State.place, Event.overflows, Event.closes]
  | check t =>
    cases stepped with
    | checked _ checked => cases checked <;> simp [State.place, Event.overflows, Event.closes]
    | passed _ checked => cases checked; simp [State.place]
  | frame t => cases stepped <;> simp [State.place, Event.overflows, Event.closes]
  | call t p => cases stepped; simp [State.place]
  | take stream => cases stepped; simp [takeKeyframeRequest]
  | shutdown => cases stepped; simp

theorem Counted.step {s next : State ι} {trace emitted : List (Event ι)} {a : Action ι}
    (counted : Counted s trace) (taken : step s a = some (next, emitted)) :
    Counted next (trace ++ emitted) := by
  obtain ⟨invariant, flow, accounts, slow⟩ := counted
  have wired := flow.wired
  refine ⟨step_invariant invariant taken, flow.step invariant taken, ?_, ?_⟩
  · cases step_stepped taken with
    | called => rw [List.append_nil]; exact accounts
    | checked _ checked => exact accounts.checked wired _ checked
    | passed _ checked => cases checked; rw [List.append_nil]; exact accounts
    | framed => rw [List.append_nil]; exact accounts
    | unframable =>
      exact accounts.counted wired _ _ (by simp) ⟨rfl, rfl⟩ (fun staying => ⟨staying, rfl⟩) rfl
    | enqueued position published =>
      exact accounts.published wired invariant.linked _ published (invariant.framed _ _ _ position)
    | worker _ moved =>
      exact accounts.worker invariant.server invariant.worker invariant.linked
        (flow.fresh _ (Nat.lt_succ_self _)) moved
    | taken stream => rw [List.append_nil]; exact accounts.of_server rfl rfl rfl rfl rfl
    | shutdown => rw [List.append_nil]; exact accounts.of_server rfl rfl rfl rfl rfl
  · have stepped := step_slow taken
    simp only [List.countP_append]
    omega

/-- What `stats.json` says of the transport. Every packet offered to a client is counted as
skipped or discarded, is whole on the wire, is held, or was lost when its connection closed, at
most thirteen a close; connections are counted as they are accepted, all but the present one
have been closed, and slow clients are those of overflows and of some of the closes. -/
theorem counters_account {actions : List (Action ι)} {s : State ι} {trace : List (Event ι)}
    (run : Machine.exec step actions State.initial = some (s, trace)) :
    (∃ lost ≤ 13 * trace.countP Event.closes,
      s.server.dropped + delivered s.server.accepted trace + heldPackets s.server s.worker + lost =
        trace.countP Event.offers) ∧
    s.server.accepted = trace.countP Event.admits ∧
    trace.countP Event.closes + (if s.worker.client = some s.server.accepted then 1 else 0) =
      s.server.accepted ∧
    trace.countP Event.overflows ≤ s.server.slow ∧
    s.server.slow ≤ trace.countP Event.overflows + trace.countP Event.closes ∧
    (s.worker.phase = .stopped → heldPackets s.server s.worker = 0) := by
  have counted := Machine.history Counted initial_counted
    (fun _ _ _ _ _ counted taken => counted.step taken) run
  obtain ⟨lost, balance, bound⟩ := counted.accounts.balance
  refine ⟨⟨lost, (Nat.le_add_right ..).trans bound, balance⟩, counted.accounts.accepted,
    counted.accounts.open_, counted.slow.1, counted.slow.2, fun stopped => ?_⟩
  have linked := counted.invariant.linked
  simp only [Linked, stopped] at linked
  have empty : s.worker.pending = [] := by
    by_contra pending
    simpa [linked.1] using counted.invariant.worker.live pending
  simp [heldPackets, empty, (counted.invariant.server.unconnected linked.2).1]

/-- The client of the sample goes while the rest of its packet is pending. -/
def sampleLoss : List (Action (Fin MonitorCount)) := sampleRun ++ [
  .worker (.head 3), .worker (.polled ⟨false, true, false, false⟩ false),
  .worker (.serve .again .again 3 3)]

theorem counters_account_sample :
    ∃ s trace, Machine.exec step sampleLoss State.initial = some (s, trace) ∧
      trace.countP Event.closes = 1 ∧ trace.countP Event.offers = 1 ∧
      heldPackets s.server s.worker = 0 ∧ ∃ lost ≤ 13 * 1,
        s.server.dropped + delivered s.server.accepted trace + 0 + lost = 1 := by
  obtain ⟨s, trace, run⟩ : ∃ s trace,
      Machine.exec step sampleLoss State.initial = some (s, trace) := ⟨_, _, rfl⟩
  have reached : (Machine.exec step sampleLoss State.initial).map (fun r =>
      (r.2.countP Event.closes, r.2.countP Event.offers, heldPackets r.1.server r.1.worker)) =
        some (1, 1, 0) := by decide +kernel
  simp only [run, Option.map_some, Option.some.injEq, Prod.mk.injEq] at reached
  obtain ⟨closes, offers, held⟩ := reached
  have account := (counters_account run).1
  rw [closes, offers, held] at account
  exact ⟨s, trace, run, closes, offers, held, account⟩

end Quest.Transport
