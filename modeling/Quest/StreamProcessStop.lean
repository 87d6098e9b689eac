import Quest.StreamProcessOutcome

/-! How the stream process stops. Once it was asked to, or once a stream has failed, each thread
of a stream has a bounded number of steps left, and it always has one until it has returned. -/
namespace Quest.StreamProcess

def Action.actor : Action → Option (Fin MonitorCount)
  | .setup i _ | .loop i _ _ | .publish i _ | .conclude i _ | .blame i | .report i _ | .leave i =>
    some i
  | _ => none

def Action.supervises : Action → Bool
  | .start _ | .turn _ | .poll _ | .exit _ => true
  | _ => false

def phaseLeft : Host.Phase → Nat
  | .taking => 13
  | .deciding => 12
  | .draining => 7
  | .head => 6
  | .flushing => 5
  | .finished => 4
  | .failed => 3

def publishLeft : Transport.Publisher → Nat
  | .idle => 0
  | .calling _ => 3
  | .framing _ => 2
  | .framed _ _ => 1

/-- The steps to the return of a worker that begins no further iteration. A frame that is still
inside its encoder costs four: the packet is received, and handed to `publish` in three. -/
def loopLeft (host : Host.State) (i : Fin MonitorCount) : Nat :=
  phaseLeft (host.streams i).phase + 4 * (host.streams i).encoder.inside.length +
    publishLeft (host.transport.publishers i)

def left (s : Process) (i : Fin MonitorCount) : Nat :=
  match s.threads i with
  | .absent | .setup => loopLeft s.host i + 1
  | .streaming => loopLeft s.host i
  | .ending => 4
  | .caught => 3
  | .blamed => 2
  | .reported => 1
  | .returned => 0

theorem phaseLeft_failed (phase : Host.Phase) : 3 ≤ phaseLeft phase := by
  cases phase <;> simp [phaseLeft]

theorem phaseLeft_running {phase : Host.Phase} (running : phase ≠ .failed ∧ phase ≠ .finished) :
    5 ≤ phaseLeft phase := by
  cases phase <;> simp_all [phaseLeft]

@[simp] theorem put_stream (s : Host.State) (i : Fin MonitorCount) (w : Host.StreamWorker) :
    (s.put i w).streams i = w := by
  simp [Host.State.put]

@[simp] theorem put_transport (s : Host.State) (i : Fin MonitorCount) (w : Host.StreamWorker) :
    (s.put i w).transport = s.transport := rfl

theorem receive_inside {e next : VideoEncoder} {data : List UInt8} {frame : Submission}
    {result : Except String EncodedPacket} (received : e.receive data = some (next, frame, result)) :
    next.inside.length + 1 = e.inside.length := by
  simp only [VideoEncoder.receive] at received
  split at received
  next => contradiction
  next head inside held =>
    rw [held]
    split at received <;> cases received <;> rfl

theorem submit_inside (e : VideoEncoder) (ptsUs presentationUs : Int64) (forced : Bool) :
    (e.submit ptsUs forced presentationUs).inside.length = e.inside.length + 1 := by
  simp [VideoEncoder.submit]

theorem receive_left {s next : Host.State} {i : Fin MonitorCount} {data : List UInt8}
    {written : Bool} (idle : s.transport.publishers i = .idle)
    (taken : Host.receive s i data written = some next) : loopLeft next i + 1 ≤ loopLeft s i := by
  simp only [Host.receive] at taken
  split at taken
  next => contradiction
  next encoder frame result received =>
    have inside := receive_inside received
    split at taken
    next => contradiction
    split at taken
    next message =>
      cases taken
      simp only [loopLeft, put_stream, put_transport, phaseLeft, idle, publishLeft]
      omega
    next packet =>
      split at taken
      next wrote =>
        obtain ⟨called, stepped, rfl⟩ := Option.map_eq_some_iff.mp taken
        obtain ⟨⟨transport, events⟩, placed, rfl⟩ := Option.map_eq_some_iff.mp stepped
        have there : transport.publishers i = .calling packet := by
          simp only [Transport.step, idle, Option.some.injEq, Prod.mk.injEq] at placed
          simp [← placed.1, Transport.State.place]
        simp only [loopLeft, put_stream, put_transport, idle, there, publishLeft]
        omega
      next failed =>
        cases taken
        simp only [loopLeft, put_stream, put_transport, phaseLeft, idle, publishLeft]
        omega

/-- Between two packets a worker that does not begin an iteration comes nearer to its return. -/
theorem streamStep_left {s next : Host.State} {i : Fin MonitorCount} {a : Host.StreamAction}
    (idle : s.transport.publishers i = .idle)
    (running : (s.streams i).phase ≠ .failed ∧ (s.streams i).phase ≠ .finished)
    (within : ∀ outcome, a ≠ .next outcome) (taken : Host.streamStep s i a = some next) :
    loopLeft next i + 1 ≤ loopLeft s i := by
  have more := phaseLeft_running running
  have gone : phaseLeft .failed = 3 := rfl
  cases Host.streamStep_looped taken with
  | next outcome => exact absurd rfl (within outcome)
  | take server requested taking =>
    simp only [loopLeft, put_stream, put_transport, taking, phaseLeft]
    omega
  | encode elapsed sent ptsUs presentationUs deciding =>
    simp only [loopLeft, put_stream, put_transport, deciding, Host.StreamWorker.encode]
    split
    · simp only [submit_inside, phaseLeft]
      omega
    · simp only [VideoEncoder.countAdjustment_inside, phaseLeft]
      omega
  | skip late deciding =>
    simp only [loopLeft, put_stream, put_transport, deciding]
    split <;> simp only [phaseLeft] <;> omega
  | receive data written inside received => exact receive_left idle received
  | drained draining =>
    simp only [loopLeft, put_stream, put_transport, draining, Host.StreamWorker.encoded]
    split <;> simp only [phaseLeft] <;> omega
  | flushed flushing =>
    simp only [loopLeft, put_stream, put_transport, flushing, phaseLeft]
    omega
  | leave sent head =>
    simp only [loopLeft, put_stream, put_transport, head]
    split <;> simp only [phaseLeft] <;> omega
  | raise =>
    simp only [loopLeft, put_stream, put_transport, gone]
    omega

/-- Each step inside `publish` brings the call nearer to its return. -/
theorem step_publishLeft {s next : Transport.State (Fin MonitorCount)} {i : Fin MonitorCount}
    {b : Transport.Action (Fin MonitorCount)} {events : List (Transport.Event (Fin MonitorCount))}
    (inside : b = .check i ∨ b = .frame i ∨ b = .enqueue i)
    (stepped : Transport.step s b = some (next, events)) :
    publishLeft (next.publishers i) + 1 ≤ publishLeft (s.publishers i) := by
  cases Transport.step_stepped stepped with
  | @checked t p server result position =>
    obtain rfl : t = i := by simpa using inside
    simp [position, publishLeft, Transport.State.place]
  | @passed t p server position =>
    obtain rfl : t = i := by simpa using inside
    simp [position, publishLeft, Transport.State.place]
  | @framed t p bytes position =>
    obtain rfl : t = i := by simpa using inside
    simp [position, publishLeft, Transport.State.place]
  | @unframable t p message position =>
    obtain rfl : t = i := by simpa using inside
    simp [position, publishLeft, Transport.State.place]
  | @enqueued t p bytes server result position =>
    obtain rfl : t = i := by simpa using inside
    simp [position, publishLeft, Transport.State.place]
  | _ => simp at inside

theorem publish_left {s next : Host.State} {i : Fin MonitorCount} {a : Publish}
    (acted : Host.act s (a.action i) = some next) : loopLeft next i + 1 ≤ loopLeft s i := by
  have inside {b : Transport.Action (Fin MonitorCount)}
      (inside : b = .check i ∨ b = .frame i ∨ b = .enqueue i)
      (taken : Host.publishStep s i b = some next) : loopLeft next i + 1 ≤ loopLeft s i := by
    obtain ⟨⟨transport, events⟩, stepped, rfl⟩ := Option.map_eq_some_iff.mp taken
    have nearer := step_publishLeft inside stepped
    have more := phaseLeft_failed (s.streams i).phase
    have gone : phaseLeft .failed = 3 := rfl
    simp only [loopLeft, put_stream, put_transport]
    split
    · simp only [gone]
      omega
    · omega
  cases a with
  | check => exact inside (.inl rfl) acted
  | frame => exact inside (.inr (.inl rfl)) acted
  | enqueue => exact inside (.inr (.inr rfl)) acted

/-- The thread of a stream after a step of its loop. -/
theorem after_left (s : Process) (host : Host.State) (i : Fin MonitorCount) :
    left ({ s with host := s.keep host }.place i (Process.after host i)) i ≤
      loopLeft (s.keep host) i := by
  cases phase : (host.streams i).phase <;>
    simp only [left, Process.place_thread, Process.place_host, Process.after, keep_streams, phase,
      loopLeft, phaseLeft] <;>
    omega

/-- A thread that the step leaves alone. -/
theorem left_same {s next : Process} {i : Fin MonitorCount} {seen : List Host.Observation}
    (thread : next.threads i = s.threads i) (host : Untouched i s.host next.host seen) :
    left next i = left s i := by
  simp only [left, loopLeft, thread, host.stream, host.publisher]

theorem left_place {s next : Process} {i j : Fin MonitorCount} {t : Thread}
    {seen : List Host.Observation} (other : j ≠ i)
    (threads : next.threads = Function.update s.threads i t)
    (host : Untouched j s.host next.host seen) : left next j = left s j :=
  left_same (by rw [threads, Function.update_of_ne other]) host

def Nearer (i : Fin MonitorCount) (s next : Process) : Prop :=
  left next i + 1 ≤ left s i ∧ ∀ j ≠ i, left next j = left s j

/-- A step outside the loop. -/
theorem Nearer.place {s next : Process} {i : Fin MonitorCount} {t : Thread}
    (threads : next.threads = Function.update s.threads i t)
    (host : ∀ j ≠ i, Untouched j s.host next.host []) (nearer : left next i + 1 ≤ left s i) :
    Nearer i s next :=
  ⟨nearer, fun j other => left_place other threads (host j other)⟩

/-- A packet that goes no further costs less. -/
theorem keep_left {s : Process} {host : Host.State} {i : Fin MonitorCount}
    (idle : s.settings.port = 0 → s.host.transport.publishers i = .idle) :
    loopLeft (s.keep host) i ≤ loopLeft host i := by
  unfold Process.keep
  split
  next port => simp [loopLeft, idle port, publishLeft]
  next => exact Nat.le_refl _

theorem work_nearer {s next : Process} {i : Fin MonitorCount} {a : Host.Action}
    {seen : List Observation} (streaming : s.threads i = .streaming) (own : Own i a)
    (idle : s.settings.port = 0 → s.host.transport.publishers i = .idle)
    (nearer : ∀ host, Host.act s.host a = some host → loopLeft host i + 1 ≤ loopLeft s.host i)
    (taken : s.work i a = some (next, seen)) : Nearer i s next := by
  obtain ⟨host, acted, result⟩ := Option.map_eq_some_iff.mp taken
  cases result
  refine ⟨?_, fun j other => left_place other rfl (keep_untouched (own_untouched other own acted))⟩
  have there : left s i = loopLeft s.host i := by simp only [left, streaming]
  have := after_left s host i
  have kept : loopLeft (s.keep host) i ≤ loopLeft host i := keep_left idle
  have := nearer host acted
  omega

theorem prepare_nearer {s : Process} {i : Fin MonitorCount} (setup : s.threads i = .setup)
    (converter : Option Bool) : Nearer i s (s.prepare i converter) := by
  have there : left s i = loopLeft s.host i + 1 := by simp only [left, setup]
  have gone : Nearer i s (s.place i .caught) := by
    refine .place rfl (fun _ _ => ⟨rfl, rfl, rfl⟩) ?_
    have := phaseLeft_failed (s.host.streams i).phase
    have caught : left (s.place i .caught) i = 3 := by simp [left]
    simp only [there, caught, loopLeft]
    omega
  cases converter with
  | none => exact gone
  | some converter =>
    simp only [Process.prepare]
    split
    · exact gone
    · refine .place rfl (fun j other => put_untouched other s.host _) ?_
      rw [there]
      simp [left, loopLeft]

theorem conclude_nearer {s : Process} {i : Fin MonitorCount} (ending : s.threads i = .ending)
    (flushed : Bool) : Nearer i s (s.conclude i flushed) := by
  simp only [Process.conclude]
  split
  · exact .place rfl (fun _ _ => ⟨rfl, rfl, rfl⟩) (by simp [left, ending])
  · exact .place rfl (fun _ _ => ⟨rfl, rfl, rfl⟩) (by simp [left, ending])

/-- A step of a stream's thread after the process was told to stop. -/
theorem step_nearer {s next : Process} {i : Fin MonitorCount} {a : Action}
    {seen : List Observation}
    (running : s.threads i = .streaming →
      (s.host.streams i).phase ≠ .failed ∧ (s.host.streams i).phase ≠ .finished)
    (unused : s.settings.port = 0 → s.host.transport = .initial)
    (stopped : s.interrupted = true ∨ s.failed = true) (actor : a.actor = some i)
    (taken : step s a = some (next, seen)) : Nearer i s next := by
  cases a with
  | setup j converter =>
    obtain rfl := Option.some.inj actor
    simp only [step] at taken
    split at taken
    next setup => cases taken; exact prepare_nearer setup converter
    next => contradiction
  | loop j a expired =>
    obtain rfl := Option.some.inj actor
    simp only [step] at taken
    split at taken
    next ready =>
      obtain ⟨⟨after, events⟩, worked, result⟩ := Option.map_eq_some_iff.mp taken
      cases result
      refine work_nearer ready.1 (.inl ⟨a, rfl⟩) (fun port => by rw [unused port]; rfl)
        (fun host acted => ?_) worked
      have within : ∀ outcome, a ≠ .next outcome := by
        rintro outcome rfl
        have goes : s.stops expired = false := ready.2
        rcases stopped with stopped | stopped <;> simp [Process.stops, stopped] at goes
      simp only [Host.act, Option.ite_none_right_eq_some] at acted
      exact streamStep_left acted.1.1 (running ready.1) within acted.2
    next => contradiction
  | publish j a =>
    obtain rfl := Option.some.inj actor
    simp only [step] at taken
    split at taken
    next ready =>
      exact work_nearer ready.1 (.inr ⟨a, rfl⟩) (fun port => absurd port ready.2)
        (fun _ acted => publish_left acted) taken
    next => contradiction
  | conclude j flushed =>
    obtain rfl := Option.some.inj actor
    simp only [step] at taken
    split at taken
    next ending => cases taken; exact conclude_nearer ending flushed
    next => contradiction
  | blame j =>
    obtain rfl := Option.some.inj actor
    simp only [step] at taken
    split at taken
    next caught =>
      cases taken
      exact .place rfl (fun _ _ => ⟨rfl, rfl, rfl⟩) (by simp [left, caught])
    next => contradiction
  | report j what =>
    obtain rfl := Option.some.inj actor
    simp only [step] at taken
    split at taken
    next blamed =>
      cases taken
      exact .place rfl (fun _ _ => ⟨rfl, rfl, rfl⟩) (by simp [left, blamed])
    next => contradiction
  | leave j =>
    obtain rfl := Option.some.inj actor
    simp only [step] at taken
    split at taken
    next reported =>
      cases taken
      exact .place rfl (fun _ _ => ⟨rfl, rfl, rfl⟩) (by simp [left, reported])
    next => contradiction
  | _ => contradiction

theorem watch_fields {s next : Process} {main : MainThread} {a : HeadsetMode.Action}
    {seen : List Observation} (taken : s.watch main a = some (next, seen)) :
    next.threads = s.threads ∧ next.host = s.host ∧ next.main = main ∧
      next.activeWorkers = s.activeWorkers := by
  obtain ⟨h, _, moved⟩ := Option.bind_eq_some_iff.mp taken
  obtain ⟨⟨after, events⟩, _, result⟩ := Option.map_eq_some_iff.mp moved
  cases result
  exact ⟨rfl, rfl, rfl, rfl⟩

/-- The main thread starts the threads, and each of them still has all its steps. -/
theorem start_left {s : Process} {rest : List (Fin MonitorCount)} (staffed : Staffed s)
    (main : s.main = .starting rest) (now : Nat) (j : Fin MonitorCount) :
    left (s.start now rest) j = left s j := by
  cases rest with
  | nil =>
    simp only [Process.start]
    split <;> rfl
  | cons i rest =>
    have absent := (staffed.waiting _ main).2 i List.mem_cons_self
    simp only [Process.start]
    split
    · by_cases same : j = i
      · subst same
        simp [left, absent]
      · have aside : Untouched j s.host s.host [] := ⟨rfl, rfl, rfl⟩
        exact left_place same rfl aside
    · rfl

/-- The steps of the main thread, of the transport and of others cost the threads nothing. -/
theorem step_aside {s next : Process} {a : Action} {seen : List Observation} (staffed : Staffed s)
    (actor : a.actor = none) (taken : step s a = some (next, seen)) (j : Fin MonitorCount) :
    left next j = left s j := by
  have watched {main : MainThread} {b : HeadsetMode.Action}
      (taken : s.watch main b = some (next, seen)) : left next j = left s j := by
    obtain ⟨threads, host, _⟩ := watch_fields taken
    simp only [left, threads, host]
  cases a with
  | signal => cases taken; rfl
  | start now =>
    simp only [step] at taken
    split at taken
    next rest main => cases taken; exact start_left staffed main now j
    next => contradiction
  | turn code =>
    simp only [step] at taken
    split at taken
    next =>
      split at taken
      · cases taken; rfl
      · exact watched taken
    next => contradiction
  | poll p =>
    simp only [step] at taken
    split at taken
    next => exact watched taken
    next => contradiction
  | relight displays => exact watched taken
  | exit saved =>
    simp only [step] at taken
    split at taken
    next => cases taken; rfl
    next => contradiction
  | server a =>
    simp only [step] at taken
    split at taken
    next =>
      obtain ⟨host, acted, result⟩ := Option.map_eq_some_iff.mp taken
      cases result
      exact left_same rfl (server_untouched acted j)
    next => contradiction
  | _ => contradiction

theorem step_left {s next : Process} {a : Action} {settings : StreamSettings}
    {trace seen : List Observation} (supervised : Supervised settings s trace)
    (stopped : s.interrupted = true ∨ s.failed = true) (taken : step s a = some (next, seen))
    (i : Fin MonitorCount) : left next i + (decide (a.actor = some i)).toNat ≤ left s i := by
  cases actor : a.actor with
  | none => simp [step_aside supervised.staffed actor taken i]
  | some j =>
    obtain ⟨own, others⟩ :=
      step_nearer (supervised.reported.entries j).running supervised.unused stopped actor taken
    by_cases same : i = j
    · subst same
      simpa using own
    · simp [Ne.symm same, others i same]

def mainLeft (s : Process) : Nat :=
  match s.main with
  | .starting _ | .polling => 3
  | .watching => 2
  | .joining => 1
  | .exited _ _ => 0

def AllReturned (s : Process) : Prop :=
  (∀ rest, s.main ≠ .starting rest) ∧ ∀ i, (s.threads i).active = false

theorem AllReturned.actorless {s next : Process} {a : Action} {seen : List Observation}
    (returned : AllReturned s) (taken : step s a = some (next, seen)) : a.actor = none := by
  have idle (i : Fin MonitorCount) {t : Thread} (at_ : s.threads i = t) : t.active = false :=
    at_ ▸ returned.2 i
  cases a with
  | setup i | loop i | publish i | conclude i | blame i | report i | leave i =>
    simp only [step] at taken
    split at taken
    next there =>
      have busy := idle i (by first | exact there | exact there.1)
      contradiction
    next => contradiction
  | _ => rfl

theorem AllReturned.idle {s : Process} (returned : AllReturned s) (staffed : Staffed s) :
    s.activeWorkers = 0 := by
  rw [staffed.counted, staff]
  exact Finset.sum_eq_zero fun i _ => by rw [returned.2 i]; rfl

/-- The main thread comes nearer to its exit, and no thread comes back. -/
theorem AllReturned.step {s next : Process} {a : Action} {seen : List Observation}
    (returned : AllReturned s) (staffed : Staffed s) (taken : step s a = some (next, seen)) :
    AllReturned next ∧ mainLeft next + a.supervises.toNat ≤ mainLeft s := by
  have watched {main : MainThread} {b : HeadsetMode.Action} (other : ∀ rest, main ≠ .starting rest)
      (taken : s.watch main b = some (next, seen)) : AllReturned next ∧ next.main = main := by
    obtain ⟨threads, _, at_, _⟩ := watch_fields taken
    exact ⟨⟨at_ ▸ other, threads ▸ returned.2⟩, at_⟩
  have actor := returned.actorless taken
  cases a with
  | signal => cases taken; exact ⟨returned, Nat.le_refl _⟩
  | start now =>
    simp only [StreamProcess.step] at taken
    split at taken
    next rest main => exact absurd main (returned.1 rest)
    next => contradiction
  | turn code =>
    simp only [StreamProcess.step, returned.idle staffed, Nat.lt_irrefl, if_false,
      Option.ite_none_right_eq_some] at taken
    obtain ⟨after, main⟩ := watched (by simp) taken.2
    exact ⟨after, by simp [mainLeft, main, taken.1, Action.supervises]⟩
  | poll p =>
    simp only [StreamProcess.step, Option.ite_none_right_eq_some] at taken
    obtain ⟨after, main⟩ := watched (by simp) taken.2
    exact ⟨after, by simp [mainLeft, main, taken.1.1, Action.supervises]⟩
  | relight displays =>
    obtain ⟨after, main⟩ := watched returned.1 taken
    exact ⟨after, by simp [mainLeft, main, Action.supervises]⟩
  | exit saved =>
    simp only [StreamProcess.step, Option.ite_none_right_eq_some] at taken
    obtain ⟨⟨main, _⟩, result⟩ := taken
    cases result
    exact ⟨⟨by simp, returned.2⟩, by simp [mainLeft, main, Action.supervises]⟩
  | server a =>
    simp only [StreamProcess.step, Option.ite_none_right_eq_some] at taken
    obtain ⟨host, acted, result⟩ := Option.map_eq_some_iff.mp taken.2
    cases result
    exact ⟨returned, Nat.le_refl _⟩
  | _ => contradiction

/-- What a worker in its loop can do next, without an exception, once it is told to stop. -/
theorem loop_enabled {s : Host.State} {i : Fin MonitorCount}
    (idle : s.transport.publishers i = .idle)
    (running : (s.streams i).phase ≠ .failed ∧ (s.streams i).phase ≠ .finished) :
    ∃ a, a ≠ .raise ∧ (∀ p : Process, p.stops false = true → p.Permits false a) ∧
      (Host.act s (.stream i a)).isSome = true := by
  have enabled {a : Host.StreamAction} (taken : (Host.streamStep s i a).isSome = true) :
      (Host.act s (.stream i a)).isSome = true := by
    rwa [Host.act, if_pos ⟨idle, running.2⟩]
  have inside (p : Process) : p.stops false = true → p.Permits false .drained := fun _ => trivial
  unfold Host.streamStep at enabled
  dsimp only at enabled
  cases phase : (s.streams i).phase with rw [phase] at enabled
  | head => exact ⟨.leave true, by simp, fun _ => id, enabled rfl⟩
  | taking => exact ⟨.take, by simp, fun _ _ => trivial, enabled rfl⟩
  | deciding =>
    cases source : (s.streams i).source false with
    | some ptsUs =>
      refine ⟨.encode false 0 true, by simp, fun _ _ => trivial, enabled ?_⟩
      change (Option.map _ ((s.streams i).source false)).isSome = true
      rw [source]
      rfl
    | none =>
      refine ⟨.skip false, by simp, fun _ _ => trivial, enabled ?_⟩
      change (if (s.streams i).source false = none then some _ else none).isSome = true
      rw [if_pos source]
      rfl
  | draining => exact ⟨.drained, by simp, inside, enabled rfl⟩
  | flushing => exact ⟨.drained, by simp, inside, enabled rfl⟩
  | finished => exact absurd phase running.2
  | failed => exact absurd phase running.1

theorem publish_enabled {s : Host.State} {i : Fin MonitorCount}
    (busy : s.transport.publishers i ≠ .idle) :
    ∃ a : Publish, (Host.act s (a.action i)).isSome = true := by
  have called {b : Transport.Action (Fin MonitorCount)}
      (enabled : (Transport.step s.transport b).isSome = true) :
      (Host.publishStep s i b).isSome = true := by
    simp [Host.publishStep, enabled]
  cases position : s.transport.publishers i with
  | idle => exact absurd position busy
  | calling p =>
    refine ⟨.check, called ?_⟩
    simp only [Transport.step, position]
    split <;> rfl
  | framing p =>
    refine ⟨.frame, called ?_⟩
    simp only [Transport.step, position]
    split <;> rfl
  | framed p bytes =>
    refine ⟨.enqueue, called ?_⟩
    simp only [Transport.step, position]
    rfl

def Action.raises : Action → Bool
  | .setup _ none | .loop _ .raise _ => true
  | _ => false

/-- A thread that has not returned can always go on. -/
theorem thread_enabled {s : Process} {i : Fin MonitorCount}
    (running : s.threads i = .streaming →
      (s.host.streams i).phase ≠ .failed ∧ (s.host.streams i).phase ≠ .finished)
    (unused : s.settings.port = 0 → s.host.transport = .initial)
    (stopped : s.interrupted = true ∨ s.failed = true) (active : (s.threads i).active = true) :
    ∃ a, a.actor = some i ∧ a.raises = false ∧ (step s a).isSome = true := by
  cases at_ : s.threads i with
  | absent | returned => simp [at_, Thread.active] at active
  | setup => exact ⟨.setup i (some true), rfl, rfl, by simp [step, at_]⟩
  | ending => exact ⟨.conclude i true, rfl, rfl, by simp [step, at_]⟩
  | caught => exact ⟨.blame i, rfl, rfl, by simp [step, at_]⟩
  | blamed => exact ⟨.report i "", rfl, rfl, by simp [step, at_]⟩
  | reported => exact ⟨.leave i, rfl, rfl, by simp [step, at_]⟩
  | streaming =>
    by_cases idle : s.host.transport.publishers i = .idle
    · obtain ⟨a, regular, permits, enabled⟩ := loop_enabled idle (running at_)
      have stops : s.stops false = true := by
        rcases stopped with stopped | stopped <;> simp [Process.stops, stopped]
      refine ⟨.loop i a false, rfl, ?_, ?_⟩
      · cases a <;> first | rfl | contradiction
      · simp [step, at_, permits s stops, Process.work, enabled]
    · obtain ⟨a, enabled⟩ := publish_enabled idle
      have port : s.settings.port ≠ 0 := fun port => idle (by rw [unused port]; rfl)
      exact ⟨.publish i a, rfl, rfl, by simp [step, at_, port, Process.work, enabled]⟩

/-- Once no thread is active the main thread can always go on to its exit. -/
theorem main_enabled {settings : StreamSettings} {s : Process} {trace : List Observation}
    (supervised : Supervised settings s trace) (inactive : ∀ i, (s.threads i).active = false)
    (running : ∀ saved code, s.main ≠ .exited saved code) :
    ∃ a, a.supervises = true ∧ (step s a).isSome = true := by
  cases main : s.main with
  | starting rest => exact ⟨.start 0, rfl, by simp [step, main]⟩
  | watching =>
    obtain ⟨h, present, unfinished⟩ := supervised.watched.running (.inl main)
    refine ⟨.turn 0, rfl, ?_⟩
    simp only [step, main, if_true]
    split
    · rfl
    · simp [Process.watch, present, HeadsetMode.step, unfinished]
  | polling =>
    obtain ⟨h, present, unfinished⟩ := supervised.watched.running (.inr main)
    refine ⟨.poll ⟨Transport.clientConnected s.host.transport.server, h.clock, h.clock, 0, []⟩,
      rfl, ?_⟩
    simp [step, main, Process.watch, present, HeadsetMode.step, unfinished]
  | joining => exact ⟨.exit true, rfl, by simp [step, main, inactive]⟩
  | exited saved code => exact absurd main (running saved code)

/-- A stop is carried out. After a signal or a failure, whatever the others do, each stream's
thread takes at most `left` further steps, and until it has returned it always has one that is no
exception. When all have returned, the main thread always has one, and at most three of them lead
to the exit. -/
theorem stop_is_bounded {settings : StreamSettings} {actions : List Action} {s : Process}
    {trace : List Observation}
    (run : Machine.exec step actions (.initial settings) = some (s, trace))
    (stopped : .signalled ∈ trace ∨ ∃ i, .failed i ∈ trace) :
    (∀ i later final seen, Machine.exec step later s = some (final, seen) →
      left final i + later.countP (fun a => a.actor = some i) ≤ left s i) ∧
    (∀ i, (s.threads i).active = true →
      ∃ a, a.actor = some i ∧ a.raises = false ∧ (step s a).isSome = true) ∧
    ((∀ i, (s.threads i).active = false) → (∀ saved code, s.main ≠ .exited saved code) →
      ∃ a, a.supervises = true ∧ (step s a).isSome = true) ∧
    (AllReturned s → ∀ later final seen, Machine.exec step later s = some (final, seen) →
      later.countP Action.supervises ≤ 3) := by
  have supervised := run_supervised run
  have halted : s.interrupted = true ∨ s.failed = true :=
    stopped.imp supervised.flagged.interrupted.mpr supervised.flagged.failed.mpr
  have goes_on : ∀ s a next seen,
      (∃ trace, Supervised settings s trace) → step s a = some (next, seen) →
      ∃ trace, Supervised settings next trace := by
    rintro s a next seen ⟨trace, supervised⟩ taken
    exact ⟨trace ++ seen, supervised.step taken⟩
  refine ⟨fun i later final seen continued => ?_, fun i active => ?_, main_enabled supervised,
    fun returned later final seen continued => ?_⟩
  · refine Machine.countP_le_rank (left · i)
      (fun s => (∃ trace, Supervised settings s trace) ∧ (s.interrupted = true ∨ s.failed = true))
      ?_ ?_ ⟨⟨trace, supervised⟩, halted⟩ continued
    · rintro s a next seen ⟨known, stopped⟩ taken
      exact ⟨goes_on _ _ _ _ known taken, (step_moved taken).stopped stopped⟩
    · rintro s a next seen ⟨⟨trace, supervised⟩, stopped⟩ taken
      exact step_left supervised stopped taken i
  · exact thread_enabled (supervised.reported.entries i).running supervised.unused halted active
  · have bound : mainLeft final + later.countP Action.supervises ≤ mainLeft s := by
      refine Machine.countP_le_rank mainLeft
        (fun s => (∃ trace, Supervised settings s trace) ∧ AllReturned s) ?_ ?_
        ⟨⟨trace, supervised⟩, returned⟩ continued
      · rintro s a next seen ⟨⟨trace, supervised⟩, returned⟩ taken
        exact ⟨goes_on _ _ _ _ ⟨trace, supervised⟩ taken,
          (returned.step supervised.staffed taken).1⟩
      · rintro s a next seen ⟨⟨trace, supervised⟩, returned⟩ taken
        exact (returned.step supervised.staffed taken).2
    have most : mainLeft s ≤ 3 := by
      simp only [mainLeft]
      split <;> omega
    omega

/-- Stream 1 has one frame inside its encoder when the process is interrupted. -/
def sampleStop : List Action := sampleStart ++ [.signal]

theorem stop_is_bounded_sample :
    ∃ s trace, Machine.exec step sampleStop (.initial sampleSettings) = some (s, trace) ∧
      .signalled ∈ trace ∧ left s (.last 1) = 11 ∧ ∀ later final seen,
        Machine.exec step later s = some (final, seen) →
          left final (.last 1) + later.countP (fun a => a.actor = some (.last 1)) ≤ 11 := by
  have runs : (Machine.exec step sampleStop (.initial sampleSettings)).isSome = true := by
    decide +kernel
  obtain ⟨⟨s, trace⟩, run⟩ := Option.isSome_iff_exists.mp runs
  have reached : (Machine.exec step sampleStop (.initial sampleSettings)).map
      (fun r => (left r.1 (.last 1), r.1.interrupted)) = some (11, true) := by
    decide +kernel
  simp only [run, Option.map_some, Option.some.injEq, Prod.mk.injEq] at reached
  have signalled := (run_supervised run).flagged.interrupted.mp reached.2
  have bounded := (stop_is_bounded run (.inl signalled)).1 (.last 1)
  rw [reached.1] at bounded
  exact ⟨s, trace, run, signalled, reached.1, bounded⟩

end Quest.StreamProcess
