import Quest.StreamWorker
import Quest.TransportStreams

/-! No keyframe request is lost. While a connected client waits for a stream whose worker
runs, the request stands in the flag, in the worker, in the encoder or in `publish`. -/
namespace Quest.Transport

def Keeps (i : Fin MonitorCount) (s next : Server) : Prop :=
  next.Admitting → next.waitingForKeyframe i = true →
    next.forceKeyframe i = true ∨ (s.Admitting ∧ s.waitingForKeyframe i = true ∧
      next.forceKeyframe i = s.forceKeyframe i)

theorem keeps_self (i : Fin MonitorCount) (s : Server) : Keeps i s s :=
  fun admitting waiting => .inr ⟨admitting, waiting, rfl⟩

theorem WorkerMoved.keeps {s next : Server} {w worker : Worker} {events : List WorkerEvent}
    (moved : WorkerMoved s w next worker events) (i : Fin MonitorCount) : Keeps i s next := by
  intro admitting waiting
  rcases moved.admission with ⟨connected, disconnect, _, waited, force⟩ | ⟨closed, _⟩ |
    ⟨_, _, force⟩
  · rw [Server.Admitting, connected, disconnect] at admitting
    exact .inr ⟨admitting, waited ▸ waiting, by rw [force]⟩
  · simp [Server.Admitting, closed] at admitting
  · exact .inl (force i)

theorem Checked.keeps {s next : Server} {p : EncodedPacket} {result : Option Result}
    (checked : Checked s p next result) (i : Fin MonitorCount) : Keeps i s next := by
  cases checked <;> exact fun admitting waiting => .inr ⟨admitting, waiting, rfl⟩

theorem Published.keeps {s next : Server} {p : EncodedPacket} {framed : List UInt8}
    {result : Result} (published : Published s p framed next result) (i : Fin MonitorCount) :
    Keeps i s next := by
  intro admitting waiting
  cases published with
  | unserved => exact .inr ⟨admitting, waiting, rfl⟩
  | unindexed => exact .inr ⟨admitting, waiting, rfl⟩
  | dropped => exact .inr ⟨admitting, waiting, rfl⟩
  | overflow => simp [Server.Admitting] at admitting
  | @queued stream =>
    by_cases same : i = stream
    · simp [same] at waiting
    · exact .inr ⟨admitting, by simpa [same] using waiting, rfl⟩

/-- A call that returns while its stream still waits was for a predictive picture. -/
theorem Checked.predictive {s next : Server} {p : EncodedPacket} {result : Result}
    (checked : Checked s p next (some result)) (returned : result.thrown = false)
    (admitting : next.Admitting) : p.keyframe = false := by
  cases checked with
  | unserved closed => simp [admitting.1, admitting.2] at closed
  | unindexed => simp [Result.thrown] at returned
  | dropped _ _ _ _ predictive => exact predictive

theorem Published.predictive {s next : Server} {p : EncodedPacket} {framed : List UInt8}
    {result : Result} (published : Published s p framed next result)
    (returned : result.thrown = false) {i : Fin MonitorCount}
    (home : streamIndex p.monitorId = some i) (admitting : next.Admitting)
    (waiting : next.waitingForKeyframe i = true) : p.keyframe = false := by
  cases published with
  | unserved closed => simp [admitting.1, admitting.2] at closed
  | unindexed => simp [Result.thrown] at returned
  | dropped _ _ _ _ predictive => exact predictive
  | overflow => simp [Server.Admitting] at admitting
  | queued _ _ index =>
    obtain rfl := Option.some.inj (index.symm.trans home)
    simp at waiting

end Quest.Transport

namespace Quest.Host

open Transport

/-- Where a request can be: in the server's flag, taken but not yet submitted, inside the
encoder, or with the packet that `publish` holds. -/
def Requested (force : Bool) (position : Publisher) (w : StreamWorker) : Prop :=
  force = true ∨ (w.forcePending = true ∧ w.phase ≠ .draining) ∨
    (∃ frame ∈ w.encoder.inside, frame.forced = true) ∨
    (position ≠ .idle ∧ ∃ frame, w.handing = some frame ∧ frame.forced = true)

structure Sound (i : Fin MonitorCount) (server : Server) (position : Publisher)
    (w : StreamWorker) : Prop where
  owner : w.encoder.id = .ofNat i
  home : ∀ p, position.packet = some p → streamIndex p.monitorId = some i
  intra : ∀ p frame, position.packet = some p → w.handing = some frame →
    frame.forced = true → p.keyframe = true
  requested : server.Admitting → server.waitingForKeyframe i = true → w.Running →
    Requested (server.forceKeyframe i) position w

theorem Sound.initial (i : Fin MonitorCount) (canRetry : Bool) :
    Sound i .initial .idle (.initial i canRetry) := by
  refine ⟨rfl, ?_, ?_, ?_⟩ <;>
    simp [Publisher.packet, StreamWorker.initial, Server.Admitting, Server.initial]

theorem Requested.of_force {force force' : Bool} {position : Publisher} {w : StreamWorker}
    (requested : Requested force position w) (kept : force = true → force' = true) :
    Requested force' position w :=
  requested.imp_left kept

theorem Sound.of_server {i : Fin MonitorCount} {s next : Server} {position : Publisher}
    {w : StreamWorker} (sound : Sound i s position w) (keeps : Keeps i s next) :
    Sound i next position w where
  owner := sound.owner
  home := sound.home
  intra := sound.intra
  requested := by
    intro admitting waiting running
    rcases keeps admitting waiting with force | ⟨before, waited, force⟩
    · exact .inl force
    · exact (sound.requested before waited running).of_force force.trans

/-- The stream after its publisher has returned. -/
theorem Sound.returned {i : Fin MonitorCount} {s next : Server} {position : Publisher}
    {w : StreamWorker} {p : EncodedPacket} (sound : Sound i s position w)
    (carried : position.packet = some p) (keeps : Keeps i s next)
    (predictive : next.Admitting → next.waitingForKeyframe i = true → p.keyframe = false) :
    Sound i next .idle w where
  owner := sound.owner
  home := by simp [Publisher.packet]
  intra := by simp [Publisher.packet]
  requested := by
    intro admitting waiting running
    have predictive := predictive admitting waiting
    rcases keeps admitting waiting with force | ⟨before, waited, force⟩
    · exact .inl force
    · rcases sound.requested before waited running with held | held | held | ⟨_, frame, held, forced⟩
      · exact .inl (force.trans held)
      · exact .inr (.inl held)
      · exact .inr (.inr (.inl held))
      · have intra := sound.intra p frame carried held forced
        simp [predictive] at intra

/-- A worker that has left its loop asks for nothing. -/
theorem Sound.stopped {i : Fin MonitorCount} {s next : Server} {position : Publisher}
    {w worker : StreamWorker} (sound : Sound i s position w)
    (owner : worker.encoder.id = w.encoder.id) (stopped : ¬worker.Running) :
    Sound i next .idle worker where
  owner := owner.trans sound.owner
  home := by simp [Publisher.packet]
  intra := by simp [Publisher.packet]
  requested _ _ running := absurd running stopped

/-- The call goes on with the same packet. -/
theorem Sound.advanced {i : Fin MonitorCount} {s : Server} {position later : Publisher}
    {w : StreamWorker} (sound : Sound i s position w) (same : later.packet = position.packet)
    (busy : later ≠ .idle) : Sound i s later w where
  owner := sound.owner
  home p carried := sound.home p (same ▸ carried)
  intra p frame carried := sound.intra p frame (same ▸ carried)
  requested admitting waiting running := by
    rcases sound.requested admitting waiting running with held | held | held | ⟨_, held⟩
    · exact .inl held
    · exact .inr (.inl held)
    · exact .inr (.inr (.inl held))
    · exact .inr (.inr (.inr ⟨busy, held⟩))

/-- A step of the loop that passes the request on. -/
theorem Sound.moved {i : Fin MonitorCount} {s : Server} {w worker : StreamWorker}
    (sound : Sound i s .idle w) (owner : worker.encoder.id = w.encoder.id)
    (running : worker.Running → w.Running)
    (kept : Requested (s.forceKeyframe i) .idle w → Requested (s.forceKeyframe i) .idle worker) :
    Sound i s .idle worker where
  owner := owner.trans sound.owner
  home := by simp [Publisher.packet]
  intra := by simp [Publisher.packet]
  requested admitting waiting alive := kept (sound.requested admitting waiting (running alive))

theorem running_of_phase {w : StreamWorker} {phase : Phase} (at_ : w.phase = phase)
    (finished : phase ≠ .finished) (failed : phase ≠ .failed) : w.Running :=
  ⟨at_ ▸ finished, at_ ▸ failed⟩

theorem Sound.next {i : Fin MonitorCount} {s : Server} {w : StreamWorker}
    (sound : Sound i s .idle w) (head : w.phase = .head) (outcome : Next) :
    Sound i s .idle (w.next outcome) := by
  have running := running_of_phase head (by simp) (by simp)
  cases outcome with
  | sample ptsUs =>
    exact sound.moved rfl (fun _ => running) fun requested => by
      simpa [Requested, StreamWorker.next, head] using requested
  | empty =>
    exact sound.moved rfl (fun _ => running) fun requested => by
      simpa [Requested, StreamWorker.next, head] using requested
  | failed recovered =>
    simp only [StreamWorker.next]
    split
    · exact sound.moved rfl (fun _ => running) fun _ => .inr (.inl ⟨rfl, by simp [head]⟩)
    · exact sound.stopped rfl fun running => running.2 rfl

/-- Taking the request moves it from the flag to the worker. -/
theorem Sound.take {i : Fin MonitorCount} {s : Server} {w : StreamWorker}
    (sound : Sound i s .idle w) (taking : w.phase = .taking) :
    Sound i (takeKeyframeRequest s i).1 .idle
      { w with forcePending := w.forcePending || s.forceKeyframe i, phase := .deciding } where
  owner := sound.owner
  home := by simp [Publisher.packet]
  intra := by simp [Publisher.packet]
  requested := by
    intro admitting waiting _
    have running := running_of_phase taking (by simp) (by simp)
    rcases sound.requested admitting waiting running with held | ⟨held, _⟩ | held | ⟨busy, _⟩
    · exact .inr (.inl ⟨by simp [held], by simp⟩)
    · exact .inr (.inl ⟨by simp [held], by simp⟩)
    · exact .inr (.inr (.inl held))
    · exact absurd rfl busy

/-- Submitting under `forcePending` puts a forced frame into the encoder. -/
theorem Sound.encode {i : Fin MonitorCount} {s : Server} {w : StreamWorker}
    (sound : Sound i s .idle w) (deciding : w.phase = .deciding) (ptsUs presentationUs : Int64)
    (sent : Bool) : Sound i s .idle (w.encode ptsUs presentationUs sent) := by
  unfold StreamWorker.encode
  split
  · refine sound.moved (by simp [VideoEncoder.submit])
      (fun _ => running_of_phase deciding (by simp) (by simp)) ?_
    rintro (held | ⟨pending, _⟩ | ⟨frame, member, forced⟩ | ⟨busy, _⟩)
    · exact .inl held
    · exact .inr (.inr (.inl ⟨_, List.mem_append_right _ (List.mem_singleton_self _), pending⟩))
    · exact .inr (.inr (.inl ⟨frame, List.mem_append_left _ member, forced⟩))
    · exact absurd rfl busy
  · exact sound.stopped (by simp) fun running => running.2 rfl

/-- When `encode` has returned, `forcePending` is no longer needed: what it asked for is in
the encoder, or its packet has been through `publish`. -/
theorem Sound.encoded {i : Fin MonitorCount} {s : Server} {w : StreamWorker}
    (sound : Sound i s .idle w) (draining : w.phase = .draining) : Sound i s .idle w.encoded := by
  have running := running_of_phase draining (by simp) (by simp)
  have encoder : w.encoded.encoder = w.encoder := by
    unfold StreamWorker.encoded
    split <;> rfl
  refine sound.moved (by rw [encoder]) (fun _ => running) ?_
  rintro (held | ⟨_, elsewhere⟩ | held | ⟨busy, _⟩)
  · exact .inl held
  · exact absurd draining elsewhere
  · exact .inr (.inr (.inl (encoder ▸ held)))
  · exact absurd rfl busy

theorem streamIndex_owner (i : Fin MonitorCount) : streamIndex (.ofNat i) = some i := by
  match i with
  | 0 => rfl
  | 1 => rfl

/-- A packet leaves the encoder for `publish`; a forced frame's packet is an intra picture. -/
theorem Sound.receive {i : Fin MonitorCount} {s : Server} {w : StreamWorker}
    (sound : Sound i s .idle w) {data : List UInt8} {encoder : VideoEncoder} {frame : Submission}
    {packet : EncodedPacket} (running : w.Running)
    (received : w.encoder.receive data = some (encoder, frame, .ok packet))
    (answered : frame.forced = true → IsIdr data) :
    Sound i s (.calling packet) { w with encoder := encoder, handing := some frame } := by
  obtain ⟨inside, owner, result⟩ := VideoEncoder.receive_frame received
  obtain ⟨monitor, _, intra⟩ := result packet rfl
  refine ⟨owner.trans sound.owner, ?_, ?_, ?_⟩
  · rintro _ ⟨⟩
    rw [monitor, sound.owner, streamIndex_owner]
  · rintro _ _ ⟨⟩ ⟨⟩ forced
    exact intra (answered forced)
  · intro admitting waiting _
    rcases sound.requested admitting waiting running with held | held | ⟨other, member, forced⟩ |
      ⟨busy, _⟩
    · exact .inl held
    · exact .inr (.inl held)
    · rw [inside] at member
      rcases List.mem_cons.mp member with rfl | member
      · exact .inr (.inr (.inr ⟨by simp, other, rfl, forced⟩))
      · exact .inr (.inr (.inl ⟨other, member, forced⟩))
    · exact absurd rfl busy

def Invariant (s : State) : Prop :=
  ∀ i, Sound i s.transport.server (s.transport.publishers i) (s.streams i)

theorem initial_invariant (canRetry : Bool) : Invariant (.initial canRetry) :=
  fun i => Sound.initial i canRetry

theorem Invariant.put {s : State} (valid : Invariant s) {i : Fin MonitorCount} {w : StreamWorker}
    (own : Sound i s.transport.server (s.transport.publishers i) w) : Invariant (s.put i w) := by
  intro j
  by_cases same : j = i
  · subst j
    simpa [State.put] using own
  · simpa [State.put, same] using valid j

theorem receive_invariant {s next : State} {i : Fin MonitorCount} {data : List UInt8}
    {written : Bool} (valid : Invariant s) (idle : s.transport.publishers i = .idle)
    (running : (s.streams i).Running) (taken : receive s i data written = some next) :
    Invariant next := by
  have own := valid i
  rw [idle] at own
  unfold receive at taken
  dsimp only at taken
  split at taken
  · contradiction
  rename_i encoder frame result received
  have owner := (VideoEncoder.receive_frame received).2.1
  split at taken
  · contradiction
  rename_i answered
  split at taken
  · cases taken
    exact valid.put (idle ▸ own.stopped owner fun running => running.2 rfl)
  rename_i packet
  split at taken
  · obtain ⟨called, stepped, rfl⟩ := Option.map_eq_some_iff.mp taken
    obtain ⟨⟨transport, events⟩, placed, rfl⟩ := Option.map_eq_some_iff.mp stepped
    simp only [Transport.step, idle, Option.some.injEq, Prod.mk.injEq] at placed
    obtain ⟨rfl, rfl⟩ := placed
    intro j
    by_cases same : j = i
    · subst j
      simpa [State.put, Transport.State.place] using own.receive running received (by simpa using answered)
    · simpa [State.put, Transport.State.place, same] using valid j
  · cases taken
    exact valid.put (idle ▸ own.stopped owner fun running => running.2 rfl)

/-- Taking a request touches no other stream's flag. -/
theorem take_invariant {s : State} {i : Fin MonitorCount} (valid : Invariant s)
    (idle : s.transport.publishers i = .idle) (taking : (s.streams i).phase = .taking) :
    Invariant ({ s with transport :=
        { s.transport with server := (takeKeyframeRequest s.transport.server i).1 } }.put i
      { s.streams i with
        forcePending := (s.streams i).forcePending || s.transport.server.forceKeyframe i
        phase := .deciding }) := by
  intro j
  by_cases same : j = i
  · subst j
    have own := valid i
    rw [idle] at own
    simpa [State.put, idle] using own.take taking
  · have keeps : Keeps j s.transport.server (takeKeyframeRequest s.transport.server i).1 :=
      fun admitting waiting => .inr ⟨admitting, waiting, Function.update_of_ne same ..⟩
    simpa [State.put, same] using (valid j).of_server keeps

theorem streamStep_invariant {s next : State} {i : Fin MonitorCount} {a : StreamAction}
    (valid : Invariant s) (idle : s.transport.publishers i = .idle)
    (taken : streamStep s i a = some next) : Invariant next := by
  have own := valid i
  rw [idle] at own
  unfold streamStep at taken
  dsimp only at taken
  cases a <;> cases phase : (s.streams i).phase <;> rw [phase] at taken <;> dsimp only at taken <;>
    first | contradiction | skip
  case next.head outcome =>
    cases taken
    exact valid.put (idle ▸ own.next phase outcome)
  case take.taking =>
    cases taken
    exact take_invariant valid idle phase
  case encode.deciding elapsed presentationUs sent =>
    obtain ⟨ptsUs, _, rfl⟩ := Option.map_eq_some_iff.mp taken
    exact valid.put (idle ▸ own.encode phase ptsUs presentationUs sent)
  case skip.deciding late =>
    split at taken
    · cases taken
      refine valid.put (idle ▸ ?_)
      split
      · exact own.stopped rfl fun running => running.2 rfl
      · refine own.moved rfl (fun _ => running_of_phase phase (by simp) (by simp)) ?_
        intro requested
        simpa [Requested, phase] using requested
    · contradiction
  case receive.draining data written =>
    exact receive_invariant valid idle (running_of_phase phase (by simp) (by simp)) taken
  case receive.flushing data written =>
    exact receive_invariant valid idle (running_of_phase phase (by simp) (by simp)) taken
  case drained.draining =>
    cases taken
    exact valid.put (idle ▸ own.encoded phase)
  case drained.flushing =>
    cases taken
    exact valid.put (idle ▸ own.stopped rfl fun running => running.1 rfl)
  case leave.head sent =>
    cases taken
    refine valid.put (idle ▸ ?_)
    split
    · refine own.moved rfl (fun _ => running_of_phase phase (by simp) (by simp)) ?_
      intro requested
      simpa [Requested, phase] using requested
    · exact own.stopped rfl fun running => running.2 rfl
  all_goals
    cases taken
    exact valid.put (idle ▸ own.stopped rfl fun running => running.2 rfl)

/-- What a step inside the call of publisher `i` may do to the streams. -/
theorem call_invariant {s : State} {i : Fin MonitorCount} {server : Server} {position : Publisher}
    {w : StreamWorker} (valid : Invariant s) (keeps : ∀ j, Keeps j s.transport.server server)
    (own : Sound i server position w) :
    Invariant ({ s with transport :=
      Transport.State.place { s.transport with server := server } i position }.put i w) := by
  intro j
  by_cases same : j = i
  · subst j
    simpa [State.put, Transport.State.place] using own
  · simpa [State.put, Transport.State.place, same] using (valid j).of_server (keeps j)

/-- The worker after its call has returned or thrown. -/
theorem returned_sound {s : State} {i : Fin MonitorCount} {server : Server} {p : EncodedPacket}
    (own : Sound i s.transport.server (s.transport.publishers i) (s.streams i))
    (carried : (s.transport.publishers i).packet = some p) (result : Result)
    (keeps : Keeps i s.transport.server server)
    (predictive : result.thrown = false → server.Admitting →
      server.waitingForKeyframe i = true → p.keyframe = false) :
    Sound i server .idle (if thrown [.published i p result] then
      { s.streams i with phase := .failed } else s.streams i) := by
  cases threw : result.thrown with
  | true =>
    simp only [thrown, List.any_cons, threw, List.any_nil, Bool.or_false, if_true]
    exact own.stopped rfl fun running => running.2 rfl
  | false => simpa [thrown, threw] using own.returned carried keeps (predictive threw)

theorem publishStep_invariant {s next : State} {i : Fin MonitorCount}
    {a : Transport.Action (Fin MonitorCount)} (valid : Invariant s)
    (inside : a = .check i ∨ a = .frame i ∨ a = .enqueue i)
    (taken : publishStep s i a = some next) : Invariant next := by
  obtain ⟨⟨transport, events⟩, stepped, rfl⟩ := Option.map_eq_some_iff.mp taken
  have own := valid i
  cases step_stepped stepped with
  | called => simp at inside
  | @checked t p server result position checked =>
    obtain rfl : t = i := by simpa using inside
    exact call_invariant valid checked.keeps
      (returned_sound own (by rw [position]; rfl) result (checked.keeps _)
        fun returned admitting _ => checked.predictive returned admitting)
  | @passed t p server position checked =>
    obtain rfl : t = i := by simpa using inside
    exact call_invariant valid checked.keeps
      ((own.of_server (checked.keeps _)).advanced (by rw [position]; rfl) (by simp))
  | @framed t p bytes position =>
    obtain rfl : t = i := by simpa using inside
    exact call_invariant valid (fun _ => keeps_self _ _) (own.advanced (by rw [position]; rfl) (by simp))
  | @unframable t p message position =>
    obtain rfl : t = i := by simpa using inside
    exact call_invariant valid (fun _ => keeps_self _ _)
      (returned_sound own (by rw [position]; rfl) _ (keeps_self _ _) (by simp [Result.thrown]))
  | @enqueued t p bytes server result position published =>
    obtain rfl : t = i := by simpa using inside
    exact call_invariant valid published.keeps
      (returned_sound own (by rw [position]; rfl) result (published.keeps _)
        fun returned => published.predictive returned (own.home p (by rw [position]; rfl)))
  | worker => simp at inside
  | taken => simp at inside
  | shutdown => simp at inside

theorem step_invariant {s next : State} {a : Action} {events : List Empty} (valid : Invariant s)
    (taken : step s a = some (next, events)) : Invariant next := by
  obtain ⟨after, acted, same⟩ := Option.map_eq_some_iff.mp taken
  obtain ⟨rfl, rfl⟩ := Prod.mk.inj same
  cases a with
  | server a =>
    obtain ⟨⟨transport, events⟩, stepped, rfl⟩ := Option.map_eq_some_iff.mp acted
    generalize named : Transport.Action.worker (ι := Fin MonitorCount) a = action at stepped
    cases step_stepped stepped with
    | worker _ moved => exact fun j => (valid j).of_server (moved.keeps j)
    | _ => simp at named
  | shutdown =>
    obtain rfl := Option.some.inj acted
    exact fun j => (valid j).of_server fun admitting waiting => .inr ⟨admitting, waiting, rfl⟩
  | check i => exact publishStep_invariant valid (.inl rfl) acted
  | frame i => exact publishStep_invariant valid (.inr (.inl rfl)) acted
  | enqueue i => exact publishStep_invariant valid (.inr (.inr rfl)) acted
  | stream i a =>
    simp only [act] at acted
    split at acted
    · rename_i free
      exact streamStep_invariant valid free.1 acted
    · contradiction

/-- In every reachable state a connected client that waits for a stream with a running
worker has a request or an intra picture on its way. -/
theorem keyframe_request_never_lost {canRetry : Bool} {actions : List Action} {s : State}
    {events : List Empty}
    (run : Machine.exec step actions (.initial canRetry) = some (s, events))
    (i : Fin MonitorCount) (connected : s.transport.server.connected = true)
    (staying : s.transport.server.disconnect = false)
    (waiting : s.transport.server.waitingForKeyframe i = true) (running : (s.streams i).Running) :
    s.transport.server.forceKeyframe i = true ∨ (s.streams i).forcePending = true ∨
      (∃ frame ∈ (s.streams i).encoder.inside, frame.forced = true) ∨
      (s.transport.publishers i ≠ .idle ∧
        ∃ frame, (s.streams i).handing = some frame ∧ frame.forced = true) := by
  have valid := Machine.invariant Invariant (initial_invariant canRetry)
    (fun _ _ _ _ valid taken => step_invariant valid taken) run
  rcases (valid i).requested ⟨connected, staying⟩ waiting running with held | ⟨held, _⟩ | held
  · exact .inl held
  · exact .inr (.inl held)
  · exact .inr (.inr held)

def sampleRun : List Action := [
  .server (.head 0), .server (.polled ⟨true, false, false, false⟩ true), .server .accept,
  .stream (.last 1) (.next (.sample 5)), .stream (.last 1) .take,
  .stream (.last 1) (.encode false 7 true)]

theorem keyframe_request_never_lost_sample :
    ∃ s events, Machine.exec step sampleRun (.initial true) = some (s, events) ∧
      s.transport.server.forceKeyframe 1 = false ∧
      ((s.streams 1).forcePending = true ∨
        (∃ frame ∈ (s.streams 1).encoder.inside, frame.forced = true) ∨
        (s.transport.publishers 1 ≠ .idle ∧
          ∃ frame, (s.streams 1).handing = some frame ∧ frame.forced = true)) := by
  obtain ⟨s, events, run⟩ : ∃ s events,
      Machine.exec step sampleRun (.initial true) = some (s, events) := ⟨_, _, rfl⟩
  have reached : (Machine.exec step sampleRun (.initial true)).map
      (fun r => (r.1.transport.server.connected, r.1.transport.server.disconnect,
        r.1.transport.server.waitingForKeyframe 1, r.1.transport.server.forceKeyframe 1,
        (r.1.streams 1).phase)) = some (true, false, true, false, .draining) := rfl
  simp only [run, Option.map_some, Option.some.injEq, Prod.mk.injEq] at reached
  obtain ⟨connected, staying, waiting, force, phase⟩ := reached
  have held := keyframe_request_never_lost run 1 connected staying waiting
    (running_of_phase phase (by simp) (by simp))
  rw [force] at held
  exact ⟨s, events, run, force, held.resolve_left (by simp)⟩

end Quest.Host
