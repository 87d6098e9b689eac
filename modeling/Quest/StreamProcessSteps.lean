import Quest.StreamProcess

/-! What one step of the stream process can do. -/
namespace Quest.StreamProcess

def Own (i : Fin MonitorCount) (a : Host.Action) : Prop :=
  (∃ b, a = .stream i b) ∨ ∃ b : Publish, a = b.action i

inductive Watch : MainThread → HeadsetMode.Action → MainThread → Prop where
  | finish (code : Int) : Watch .watching (.finish code) .joining
  | poll (p : HeadsetMode.Poll) : Watch .polling (.poll p) .watching
  | relight (main : MainThread) (displays : List String) : Watch main (.relight displays) main

inductive Moved (s : Process) : Process → List Observation → Prop where
  | signalled : Moved s { s with interrupted := true } [.signalled]
  | skipped : s.main = .starting (i :: rest) → selects s.settings.selection i = false →
      Moved s { s with main := .starting rest } []
  | started : s.main = .starting (i :: rest) → selects s.settings.selection i = true →
      Moved s ({ s with activeWorkers := s.activeWorkers + 1, main := .starting rest }.place i
        .setup) []
  | opened (now : Nat) : s.main = .starting [] →
      Moved s { s with main := .watching, headset := some (.initial now) } []
  | unwatched : s.main = .starting [] → Moved s { s with main := .joining } []
  | turned : s.main = .watching → Moved s { s with main := .polling } []
  | watched : s.headset = some h → HeadsetMode.step h a = some (next, events) →
      Watch s.main a main →
      Moved s { s with headset := some next, main := main } (events.map .headset)
  | exited (saved : Bool) : s.main = .joining → (∀ i, (s.threads i).active = false) →
      Moved s { s with main := .exited saved (if saved = true ∧ s.failed = false then 0 else 1) }
        [.exited (if saved = true ∧ s.failed = false then 0 else 1)]
  | served : s.settings.port ≠ 0 → Host.act s.host (.server a) = some next →
      Moved s { s with host := next } ((Host.observe s.host (.server a)).map .host)
  | prepared (canRetry : Bool) : s.threads i = .setup →
      Moved s ({ s with
        host := s.host.put i { s.host.streams i with canRetry := canRetry } }.place i .streaming) []
  | worked (first : List Observation) : s.threads i = .streaming → Own i a →
      Host.act s.host a = some next →
      (first = [] ∨ first = [.iterated i] ∧ s.interrupted = false ∧ s.failed = false) →
      Moved s ({ s with host := s.keep next }.place i (Process.after next i))
        (first ++ (Host.observe s.host a).map .host)
  | caught : s.threads i = .setup ∨ s.threads i = .ending → Moved s (s.place i .caught) []
  | concluded : s.threads i = .ending →
      Moved s ((s.write i (.done (s.host.streams i).encoder.frames (s.host.streams i).encoder.bytes
        (s.host.streams i).encoder.timestampAdjustments)).place i .reported) []
  | blamed : s.threads i = .caught →
      Moved s ({ s with failed := true }.place i .blamed) [.failed i]
  | accused (what : String) : s.threads i = .blamed →
      Moved s ((s.write i (.error what)).place i .reported) []
  | left : s.threads i = .reported →
      Moved s ({ s with activeWorkers := s.activeWorkers - 1 }.place i .returned) []

theorem start_moved {s : Process} {rest : List (Fin MonitorCount)} (main : s.main = .starting rest)
    (now : Nat) : Moved s (s.start now rest) [] := by
  cases rest with
  | nil =>
    simp only [Process.start]
    split
    · exact .opened now main
    · exact .unwatched main
  | cons i rest =>
    simp only [Process.start]
    split
    next chosen => exact .started main chosen
    next other => exact .skipped main (Bool.eq_false_iff.mpr other)

theorem watch_moved {s next : Process} {main : MainThread} {a : HeadsetMode.Action}
    {seen : List Observation} (way : Watch s.main a main)
    (taken : s.watch main a = some (next, seen)) : Moved s next seen := by
  obtain ⟨h, present, moved⟩ := Option.bind_eq_some_iff.mp taken
  obtain ⟨⟨after, events⟩, stepped, result⟩ := Option.map_eq_some_iff.mp moved
  cases result
  exact .watched present stepped way

theorem prepare_moved {s : Process} {i : Fin MonitorCount} (setup : s.threads i = .setup)
    (converter : Option Bool) : Moved s (s.prepare i converter) [] := by
  cases converter with
  | none => exact .caught (.inl setup)
  | some converter =>
    simp only [Process.prepare]
    split
    · exact .caught (.inl setup)
    · exact .prepared _ setup

theorem conclude_moved {s : Process} {i : Fin MonitorCount} (ending : s.threads i = .ending)
    (flushed : Bool) : Moved s (s.conclude i flushed) [] := by
  simp only [Process.conclude]
  split
  · exact .caught (.inr ending)
  · exact .concluded ending

theorem work_moved {s next : Process} {i : Fin MonitorCount} {a : Host.Action}
    {seen first : List Observation} (streaming : s.threads i = .streaming) (own : Own i a)
    (permitted : first = [] ∨ first = [.iterated i] ∧ s.interrupted = false ∧ s.failed = false)
    (taken : s.work i a = some (next, seen)) : Moved s next (first ++ seen) := by
  obtain ⟨host, acted, result⟩ := Option.map_eq_some_iff.mp taken
  cases result
  exact .worked first streaming own acted permitted

theorem step_moved {s next : Process} {a : Action} {seen : List Observation}
    (taken : step s a = some (next, seen)) : Moved s next seen := by
  cases a with
  | signal => cases taken; exact .signalled
  | start now =>
    simp only [step] at taken
    split at taken
    next rest main => cases taken; exact start_moved main now
    next => contradiction
  | turn code =>
    simp only [step] at taken
    split at taken
    next main =>
      split at taken
      · cases taken; exact .turned main
      · exact watch_moved (main ▸ .finish code) taken
    next => contradiction
  | poll p =>
    simp only [step] at taken
    split at taken
    next ready => exact watch_moved (ready.1 ▸ .poll p) taken
    next => contradiction
  | relight displays => exact watch_moved (.relight _ displays) taken
  | exit saved =>
    simp only [step] at taken
    split at taken
    next ready => cases taken; exact .exited saved ready.1 ready.2
    next => contradiction
  | server a =>
    simp only [step] at taken
    split at taken
    next listening =>
      obtain ⟨host, acted, result⟩ := Option.map_eq_some_iff.mp taken
      cases result
      exact .served listening acted
    next => contradiction
  | setup i converter =>
    simp only [step] at taken
    split at taken
    next setup => cases taken; exact prepare_moved setup converter
    next => contradiction
  | loop i a expired =>
    simp only [step] at taken
    split at taken
    next ready =>
      obtain ⟨⟨after, events⟩, worked, result⟩ := Option.map_eq_some_iff.mp taken
      cases result
      refine work_moved ready.1 (.inl ⟨a, rfl⟩) ?_ worked
      split
      next outcome =>
        have goes : s.stops expired = false := ready.2
        simp only [Process.stops, Bool.or_eq_false_iff] at goes
        exact .inr ⟨rfl, goes.1⟩
      next => exact .inl rfl
    next => contradiction
  | publish i a =>
    simp only [step] at taken
    split at taken
    next ready =>
      have moved : Moved s next ([] ++ seen) :=
        work_moved ready.1 (.inr ⟨a, rfl⟩) (.inl rfl) taken
      exact moved
    next => contradiction
  | conclude i flushed =>
    simp only [step] at taken
    split at taken
    next ending => cases taken; exact conclude_moved ending flushed
    next => contradiction
  | blame i =>
    simp only [step] at taken
    split at taken
    next caught => cases taken; exact .blamed caught
    next => contradiction
  | report i what =>
    simp only [step] at taken
    split at taken
    next blamed => cases taken; exact .accused what blamed
    next => contradiction
  | leave i =>
    simp only [step] at taken
    split at taken
    next reported => cases taken; exact .left reported
    next => contradiction

structure Untouched (j : Fin MonitorCount) (s next : Host.State) (seen : List Host.Observation) :
    Prop where
  stream : next.streams j = s.streams j
  publisher : next.transport.publishers j = s.transport.publishers j
  recordings : Host.recordings j seen = []

theorem put_untouched {i j : Fin MonitorCount} (other : j ≠ i) (s : Host.State)
    (w : Host.StreamWorker) : Untouched j s (s.put i w) [] :=
  ⟨by simp [Host.State.put, other], rfl, rfl⟩

theorem observe_stream_other {i j : Fin MonitorCount} (other : j ≠ i) (s : Host.State)
    (a : Host.StreamAction) : Host.recordings j (Host.observe s (.stream i a)) = [] := by
  cases a with
  | receive data written =>
    cases written with
    | false => rfl
    | true =>
      simp only [Host.observe]
      split
      · simp [Host.recordings, Ne.symm other]
      · rfl
  | _ => rfl

theorem receive_untouched {s next : Host.State} {i j : Fin MonitorCount} (other : j ≠ i)
    {data : List UInt8} {written : Bool} (taken : Host.receive s i data written = some next) :
    next.streams j = s.streams j ∧ next.transport.publishers j = s.transport.publishers j := by
  have put (t : Host.State) (w : Host.StreamWorker) : (t.put i w).streams j = t.streams j := by
    simp [Host.State.put, other]
  simp only [Host.receive] at taken
  split at taken
  next => contradiction
  next encoder frame result received =>
    split at taken
    next => contradiction
    split at taken
    next message => cases taken; exact ⟨put s _, rfl⟩
    next packet =>
      split at taken
      next wrote =>
        obtain ⟨called, stepped, rfl⟩ := Option.map_eq_some_iff.mp taken
        obtain ⟨⟨transport, events⟩, placed, rfl⟩ := Option.map_eq_some_iff.mp stepped
        refine ⟨put _ _, ?_⟩
        cases Transport.step_stepped placed with
        | called => simp [Host.State.put, Transport.State.place, other]
      next failed => cases taken; exact ⟨put s _, rfl⟩

theorem streamStep_untouched {s next : Host.State} {i j : Fin MonitorCount} (other : j ≠ i)
    {a : Host.StreamAction} (taken : Host.streamStep s i a = some next) :
    next.streams j = s.streams j ∧ next.transport.publishers j = s.transport.publishers j := by
  have put (w : Host.StreamWorker) : (s.put i w).streams j = s.streams j ∧
      (s.put i w).transport.publishers j = s.transport.publishers j := by
    simp [Host.State.put, other]
  cases Host.streamStep_looped taken with
  | take => exact ⟨(put _).1, rfl⟩
  | receive data written inside received => exact receive_untouched other received
  | _ => exact put _

/-- The thread of one stream leaves the others alone. -/
theorem own_untouched {s next : Host.State} {i j : Fin MonitorCount} (other : j ≠ i)
    {a : Host.Action} (own : Own i a) (acted : Host.act s a = some next) :
    Untouched j s next (Host.observe s a) := by
  rcases own with ⟨b, rfl⟩ | ⟨b, rfl⟩
  · simp only [Host.act] at acted
    split at acted
    next =>
      obtain ⟨stream, publisher⟩ := streamStep_untouched other acted
      exact ⟨stream, publisher, observe_stream_other other s b⟩
    next => contradiction
  · have inside (b' : Transport.Action (Fin MonitorCount))
        (at_ : b' = .check i ∨ b' = .frame i ∨ b' = .enqueue i)
        (taken : Host.publishStep s i b' = some next) :
        Untouched j s next (Host.transportView s b') := by
      obtain ⟨⟨transport, events⟩, stepped, rfl⟩ := Option.map_eq_some_iff.mp taken
      refine ⟨by simp [Host.State.put, other], ((Host.inside_call at_ stepped).1 j other).1, ?_⟩
      simp [Host.transportView, stepped]
    cases b with
    | check => exact inside _ (.inl rfl) acted
    | frame => exact inside _ (.inr (.inl rfl)) acted
    | enqueue => exact inside _ (.inr (.inr rfl)) acted

@[simp] theorem keep_streams (s : Process) (next : Host.State) :
    (s.keep next).streams = next.streams := by
  unfold Process.keep
  split <;> rfl

theorem keep_untouched {s : Process} {next : Host.State} {j : Fin MonitorCount}
    {seen : List Host.Observation} (untouched : Untouched j s.host next seen) :
    Untouched j s.host (s.keep next) seen := by
  refine ⟨by rw [keep_streams]; exact untouched.stream, ?_, untouched.recordings⟩
  unfold Process.keep
  split
  · rfl
  · exact untouched.publisher

/-- The worker of the transport leaves all streams alone. -/
theorem server_untouched {s next : Host.State} {a : Transport.WorkerAction}
    (acted : Host.act s (.server a) = some next) (j : Fin MonitorCount) :
    Untouched j s next (Host.observe s (.server a)) := by
  obtain ⟨⟨transport, events⟩, stepped, rfl⟩ := Option.map_eq_some_iff.mp acted
  obtain ⟨publishers, _⟩ := Host.outside_call (.inl ⟨a, rfl⟩) stepped
  refine ⟨rfl, by rw [publishers], ?_⟩
  simp [Host.observe, Host.transportView, stepped]

/-- The counters of an encoder against the packets that its sink has taken. -/
def Counted (w : Host.StreamWorker) (recorded : List EncodedPacket) : Prop :=
  w.phase ≠ .failed → w.encoder.frames = recorded.length ∧
    w.encoder.bytes = (recorded.flatMap EncodedPacket.bytes).length

theorem receive_counted {e next : VideoEncoder} {data : List UInt8} {frame : Submission}
    {p : EncodedPacket} (received : e.receive data = some (next, frame, .ok p)) :
    next.frames = e.frames + 1 ∧ next.bytes = e.bytes + p.bytes.length := by
  simp only [VideoEncoder.receive] at received
  split at received
  · contradiction
  · split at received
    · simp at received
    · simp only [Option.some.injEq, Prod.mk.injEq, Except.ok.injEq] at received
      obtain ⟨rfl, rfl, rfl⟩ := received
      exact ⟨rfl, rfl⟩

theorem Counted.worked {w worker : Host.StreamWorker} {recorded : List EncodedPacket}
    (counted : Counted w recorded) (worked : Host.Worked w worker) : Counted worker recorded := by
  cases worked with
  | failed ended => exact fun running => absurd ended running
  | kept running _ same => exact fun _ => same ▸ counted running
  | submitted ptsUs presentationUs forced running _ same =>
    intro _
    have counts : (w.encoder.submit ptsUs forced presentationUs).frames = w.encoder.frames ∧
        (w.encoder.submit ptsUs forced presentationUs).bytes = w.encoder.bytes := by
      simp only [VideoEncoder.submit, VideoEncoder.countAdjustment]
      split <;> exact ⟨rfl, rfl⟩
    rw [same, counts.1, counts.2]
    exact counted running

/-- The counters of a stream after a step of the host. -/
theorem Counted.acted {s next : Host.State} {seen : List Host.Observation} {j : Fin MonitorCount}
    {recorded : List EncodedPacket} (counted : Counted (s.streams j) recorded)
    (acted : Host.Acted s next seen) :
    Counted (next.streams j) (recorded ++ Host.recordings j seen) := by
  cases acted with
  | served => simpa using counted
  | published i b inside stepped =>
    rw [Host.recordings_transport, List.append_nil]
    by_cases same : j = i
    · subst same
      simp only [Host.State.put, Function.update_self]
      split
      · exact fun running => absurd rfl running
      · exact counted
    · simpa [Host.State.put, same] using counted
  | worked i _ worked =>
    rw [show Host.recordings j [] = [] from rfl, List.append_nil]
    by_cases same : j = i
    · subst same
      simpa [Host.State.put] using counted.worked worked
    · simpa [Host.State.put, same] using counted
  | took i _ worked =>
    rw [show Host.recordings j [] = [] from rfl, List.append_nil]
    by_cases same : j = i
    · subst same
      simpa [Host.State.put] using counted.worked worked
    · simpa [Host.State.put, same] using counted
  | @handed data encoder frame p transport i _ running received =>
    by_cases same : j = i
    · subst same
      obtain ⟨frames, bytes⟩ := receive_counted received
      obtain ⟨count, size⟩ := counted running
      intro _
      simp [Host.State.put, Host.recordings, frames, bytes, count, size]
    · simpa [Host.State.put, Host.recordings, same, Ne.symm same] using counted

end Quest.StreamProcess
