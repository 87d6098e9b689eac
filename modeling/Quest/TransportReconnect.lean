import Quest.TransportHistory

/-! The transport together with the far end of the served connection: whether its close has
arrived, and what the worker can have noticed of it when a poll brings the next client. -/
namespace Quest.Transport

structure Link (ι : Type*) where
  state : State ι
  gone : Bool
  /-- The close came after the last poll. -/
  unpolled : Bool
  /-- `disconnect` was set after the last head section. -/
  late : Bool

/-- The close or the failure of the served connection arrives, or the host takes a step. -/
inductive Move (ι : Type*) where
  | hangUp
  | host (a : Action ι)

structure Offer where
  connection : Nat
  inService : Bool
  refused : Bool
  client : Option Nat
  deriving DecidableEq, Repr

/-- Only a client in service keeps a new one out. -/
def Offer.Right (o : Offer) : Prop :=
  o.inService = false → o.refused = false ∧ o.client = some o.connection

instance (o : Offer) : Decidable o.Right := inferInstanceAs (Decidable (_ → _))

namespace Link

def initial : Link ι := ⟨.initial, false, false, false⟩

def client (l : Link ι) : Option Nat := l.state.worker.client

def inService (l : Link ι) : Bool :=
  l.client.isSome && !l.gone && !l.state.server.disconnect

/-- The results that the kernel gives. Poll reports a close that has arrived as a failure or
as input, and a failure only then; after the close `recv` does not ask to come again, and the
end of the stream that it finds had arrived when poll reported the input. -/
def Reports (l : Link ι) : Action ι → Prop
  | .worker (.polled fds _) => l.client.isSome = true →
      (fds.failure = true → l.gone = true) ∧
        (l.gone = true → fds.failure = true ∨ fds.input = true)
  | .worker (.serve recv _ _ _) =>
      (recv = .ended → l.gone = true ∧ l.unpolled = false) ∧ (recv = .again → l.gone = false)
  | _ => True

instance (l : Link ι) (a : Action ι) : Decidable (l.Reports a) := by
  unfold Reports; split <;> infer_instance

def isHead : Action ι → Bool
  | .worker (.head _) => true
  | _ => false

def isPoll : Action ι → Bool
  | .worker (.polled _ _) => true
  | _ => false

/-- A connection without a client has nothing to notice. -/
def after (l : Link ι) (a : Action ι) (next : State ι) : Link ι where
  state := next
  gone := l.gone && next.worker.client.isSome
  unpolled := l.unpolled && next.worker.client.isSome && !isPoll a
  late := (l.late && !isHead a) || (next.server.disconnect && !l.state.server.disconnect)

def isRefusal : Event ι → Bool
  | .worker (.refused _) => true
  | _ => false

def offers (l : Link ι) (next : State ι) (events : List (Event ι)) : Action ι → List Offer
  | .worker (.polled fds acceptable) =>
    if fds.listener = true ∧ acceptable = true then
      [⟨l.state.server.accepted + 1, l.inService, events.any isRefusal, next.worker.client⟩]
    else []
  | _ => []

def step [DecidableEq ι] : Machine.Step (Link ι) (Move ι) Offer := fun l m =>
  match m with
  | .hangUp =>
    if l.client.isSome = true ∧ l.gone = false then
      some ({ l with gone := true, unpolled := true }, [])
    else none
  | .host a =>
    if l.Reports a then
      (Transport.step l.state a).map fun (next, events) =>
        (l.after a next, l.offers next events a)
    else none

/-- A poll brings no new connection while the close of the current client has waited for no
poll yet, or its mark for no head section. -/
def Spaced (l : Link ι) : Move ι → Prop
  | .host (.worker (.polled fds acceptable)) => fds.listener = true → acceptable = true →
      l.client.isSome = true → l.unpolled = false ∧ l.late = false
  | _ => True

instance (l : Link ι) (m : Move ι) : Decidable (l.Spaced m) := by
  unfold Spaced; split <;> infer_instance

structure Noticed (l : Link ι) : Prop where
  present : l.gone = true → l.client.isSome = true
  fresh : l.unpolled = true → l.gone = true
  polled : l.gone = true → l.unpolled = true ∨
    ∃ fds, l.state.worker.phase = .serving fds ∧ (fds.failure = true ∨ fds.input = true)
  marked : l.state.worker.phase = .polling → l.state.server.disconnect = true → l.late = true
  held : l.state.worker.phase = .polling → l.late = true → l.client.isSome = true →
    l.state.server.disconnect = true
  closing : ∀ resume, l.state.worker.phase = .closing resume → l.client = none

theorem initial_noticed : Noticed (initial (ι := ι)) where
  present := by simp [initial]
  fresh := by simp [initial]
  polled := by simp [initial]
  marked := by simp [initial, State.initial, Worker.initial]
  held := by simp [initial]
  closing := by simp [initial, State.initial, Worker.initial]

theorem Noticed.news {l : Link ι} (noticed : l.Noticed) (gone : l.gone = true)
    (phase : ∀ fds, l.state.worker.phase ≠ .serving fds) : l.unpolled = true := by
  rcases noticed.polled gone with unpolled | ⟨fds, serving, _⟩
  · exact unpolled
  · exact absurd serving (phase fds)

theorem after_present {l : Link ι} {a : Action ι} {next : State ι}
    (gone : (l.after a next).gone = true) : (l.after a next).client.isSome = true :=
  (Bool.and_eq_true_iff.mp gone).2

theorem Noticed.after_fresh {l : Link ι} (noticed : l.Noticed) {a : Action ι} {next : State ι}
    (unpolled : (l.after a next).unpolled = true) : (l.after a next).gone = true := by
  simp only [after, Bool.and_eq_true] at unpolled ⊢
  exact ⟨noticed.fresh unpolled.1.1, unpolled.1.2⟩

/-- A client that goes takes what was to be noticed of it along. -/
theorem noticed_of_closed (l : Link ι) (a : Action ι) {next : State ι}
    (empty : next.worker.client = none)
    (unmarked : next.worker.phase = .polling → next.server.disconnect = false) :
    (l.after a next).Noticed where
  present := after_present
  fresh := by simp [after, empty]
  polled := by simp [after, empty]
  marked phase disconnect := by
    rw [after, unmarked phase] at disconnect
    contradiction
  held _ _ present := by simp [client, after, empty] at present
  closing _ _ := empty

/-- A step that keeps the client and reaches a poll only through the head section. -/
theorem Noticed.kept {l : Link ι} (noticed : l.Noticed) (a : Action ι) {next : State ι}
    (elsewhere : isPoll a = false) (news : l.gone = true → l.unpolled = true)
    (polling : next.worker.phase = .polling → isHead a = true ∧ next.server.disconnect = false)
    (closing : ∀ resume, next.worker.phase ≠ .closing resume) : (l.after a next).Noticed where
  present := after_present
  fresh := noticed.after_fresh
  polled := by
    simp only [after, Bool.and_eq_true]
    rintro ⟨gone, present⟩
    exact .inl ⟨⟨news gone, present⟩, by simp [elsewhere]⟩
  marked phase disconnect := by
    rw [after, (polling phase).2] at disconnect
    contradiction
  held phase late := by
    simp [after, polling phase] at late
  closing resume phase := absurd phase (closing resume)

theorem head_noticed {l : Link ι} (noticed : l.Noticed) {now : Nat}
    (phase : l.state.worker.phase = .head) {server : Server} {worker : Worker}
    {events : List WorkerEvent}
    (moved : head l.state.server l.state.worker now = (server, worker, events)) :
    (l.after (.worker (.head now))
      { l.state with server := server, worker := worker }).Noticed := by
  have news (gone : l.gone = true) : l.unpolled = true := noticed.news gone (by simp [phase])
  by_cases disconnect : l.state.server.disconnect = true
  · simp only [head, disconnect, if_true, closeClient, Prod.mk.injEq] at moved
    obtain ⟨rfl, rfl, _⟩ := moved
    exact noticed_of_closed _ _ rfl (by simp)
  · have staying := Bool.eq_false_iff.mpr disconnect
    obtain ⟨polling, unmarked⟩ : worker.phase = .polling ∧ server.disconnect = false := by
      simp only [head, if_neg disconnect] at moved
      split at moved
      · split at moved <;> cases moved <;> exact ⟨rfl, staying⟩
      · cases moved; exact ⟨rfl, staying⟩
    exact noticed.kept _ rfl news (fun _ => ⟨rfl, unmarked⟩) (by simp [polling])

theorem polled_noticed {l : Link ι} (noticed : l.Noticed) {fds : Ready} {acceptable : Bool}
    (reports : l.Reports (.worker (.polled fds acceptable))) {worker : Worker}
    {events : List WorkerEvent}
    (moved : polled l.state.server l.state.worker fds acceptable = (worker, events)) :
    (l.after (.worker (.polled fds acceptable)) { l.state with worker := worker }).Noticed := by
  have shape : worker.phase = .serving (fds.mask l.state.worker) ∧ worker.client = l.client ∨
      worker.phase = .accepting (fds.mask l.state.worker) ∧ l.client = none := by
    simp only [Transport.polled] at moved
    split at moved
    · split at moved
      · cases moved; exact .inl ⟨rfl, rfl⟩
      · rename_i empty; cases moved; exact .inr ⟨rfl, empty⟩
    · cases moved; exact .inl ⟨rfl, rfl⟩
  have elsewhere : worker.phase ≠ .polling ∧ ∀ resume, worker.phase ≠ .closing resume := by
    rcases shape with ⟨phase, _⟩ | ⟨phase, _⟩ <;> simp [phase]
  constructor
  · exact after_present
  · exact noticed.after_fresh
  · simp only [after, Bool.and_eq_true]
    rintro ⟨gone, _⟩
    have present := noticed.present gone
    rcases shape with ⟨serving, _⟩ | ⟨_, empty⟩
    · refine .inr ⟨_, serving, ?_⟩
      rw [client] at present
      simpa [Ready.mask, present] using (reports present).2 gone
    · simp [empty] at present
  · exact fun phase => absurd phase elsewhere.1
  · exact fun phase => absurd phase elsewhere.1
  · exact fun resume phase => absurd phase (elsewhere.2 resume)

theorem stallCheck_ends (s : Server) (w : Worker) (now : Nat) :
    let worker := (stallCheck s w now).2.1
    worker.client = none ∧ worker.phase = .closing .head ∨
      worker.client = w.client ∧ worker.phase = .head := by
  dsimp only [stallCheck]
  split
  · exact .inl ⟨rfl, rfl⟩
  · exact .inr ⟨rfl, rfl⟩

/-- The body closes the client or goes round again, the latter only if poll and `recv`
reported nothing of a close. -/
theorem serve_ends {s next : Server} {w worker : Worker} {fds : Ready} {recv : Recv}
    {send : Send} {sentAt now : Nat} {events : List WorkerEvent}
    (taken : serve s w fds recv send sentAt now = some (next, worker, events)) :
    worker.client = none ∧ worker.phase = .closing .head ∨
      worker.client = w.client ∧ worker.phase = .head ∧
        (w.client = none ∨ fds.failure = false ∧ (fds.input = true → recv = .again)) := by
  simp only [serve] at taken
  split at taken
  · cases taken
    exact .inr ⟨rfl, rfl, .inl ‹_›⟩
  split at taken
  · cases taken
    exact .inl ⟨rfl, rfl⟩
  rename_i healthy
  split at taken
  · cases taken
    exact .inl ⟨rfl, rfl⟩
  rename_i silent
  have quiet : fds.failure = false ∧ (fds.input = true → recv = .again) := by
    refine ⟨Bool.eq_false_iff.mpr healthy, fun input => ?_⟩
    by_contra other
    exact silent ⟨input, other⟩
  have stalled {v : Worker} (same : v.client = w.client)
      (result : (stallCheck s v now).2.1 = worker) :
      worker.client = none ∧ worker.phase = .closing .head ∨
        worker.client = w.client ∧ worker.phase = .head ∧
          (w.client = none ∨ fds.failure = false ∧ (fds.input = true → recv = .again)) := by
    subst result
    rcases stallCheck_ends s v now with closed | ⟨kept, round⟩
    · exact .inl closed
    · exact .inr ⟨kept.trans same, round, .inr quiet⟩
  have worker_eq {t : Server × Worker × List WorkerEvent}
      (result : some t = some (next, worker, events)) : t.2.1 = worker := by
    cases result; rfl
  split at taken
  · split at taken
    · cases taken
      exact .inl ⟨rfl, rfl⟩
    · exact stalled rfl (worker_eq taken)
    · split at taken
      · contradiction
      split at taken
      · exact stalled rfl (worker_eq taken)
      · have result := worker_eq taken
        exact stalled (advance_client ..) result
  · exact stalled rfl (worker_eq taken)

theorem serve_noticed {l : Link ι} (noticed : l.Noticed) {fds : Ready} {recv : Recv}
    {send : Send} {sentAt now : Nat}
    (reports : l.Reports (.worker (.serve recv send sentAt now)))
    (phase : l.state.worker.phase = .serving fds) {server : Server} {worker : Worker}
    {events : List WorkerEvent}
    (taken : serve l.state.server l.state.worker fds recv send sentAt now =
      some (server, worker, events)) :
    (l.after (.worker (.serve recv send sentAt now))
      { l.state with server := server, worker := worker }).Noticed := by
  rcases serve_ends taken with ⟨empty, closing⟩ | ⟨_, round, open_⟩
  · exact noticed_of_closed _ _ empty (by simp [closing])
  · refine noticed.kept _ rfl ?_ (by simp [round]) (by simp [round])
    intro gone
    rcases noticed.polled gone with unpolled | ⟨ready, serving, reported⟩
    · exact unpolled
    · obtain rfl : fds = ready := by simpa [phase] using serving
      have present := noticed.present gone
      rcases open_ with empty | ⟨healthy, silent⟩
      · simp [client, empty] at present
      · rcases reported with failure | input
        · simp [healthy] at failure
        · simp [reports.2 (silent input)] at gone

/-- Publishers and the owner leave the worker alone and lift no mark. -/
theorem step_bystander [DecidableEq ι] {s next : State ι} {a : Action ι} {events : List (Event ι)}
    (taken : Transport.step s a = some (next, events)) (other : ∀ b, a ≠ .worker b) :
    next.worker = s.worker ∧ (s.server.disconnect = true → next.server.disconnect = true) := by
  cases step_stepped taken with
  | called => exact ⟨rfl, id⟩
  | checked _ checked => cases checked <;> exact ⟨rfl, id⟩
  | passed _ checked => cases checked; exact ⟨rfl, id⟩
  | framed => exact ⟨rfl, id⟩
  | unframable => exact ⟨rfl, id⟩
  | enqueued _ published =>
    cases published with
    | overflow => exact ⟨rfl, fun _ => rfl⟩
    | unserved => exact ⟨rfl, id⟩
    | unindexed => exact ⟨rfl, id⟩
    | dropped => exact ⟨rfl, id⟩
    | queued => exact ⟨rfl, id⟩
  | worker b => exact absurd rfl (other b)
  | taken => exact ⟨rfl, id⟩
  | shutdown => exact ⟨rfl, id⟩

theorem Noticed.bystander [DecidableEq ι] {l : Link ι} (noticed : l.Noticed) {next : State ι}
    {a : Action ι} {events : List (Event ι)}
    (taken : Transport.step l.state a = some (next, events)) (other : ∀ b, a ≠ .worker b) :
    (l.after a next).Noticed := by
  obtain ⟨worker, marked⟩ := step_bystander taken other
  obtain ⟨elsewhere, ahead⟩ : isPoll a = false ∧ isHead a = false := by
    cases a with
    | worker b => exact absurd rfl (other b)
    | _ => exact ⟨rfl, rfl⟩
  constructor
  · exact after_present
  · exact noticed.after_fresh
  · simp only [after, Bool.and_eq_true, worker]
    rintro ⟨gone, present⟩
    exact (noticed.polled gone).imp_left fun unpolled => ⟨⟨unpolled, present⟩, by simp [elsewhere]⟩
  · simp only [after, worker]
    intro phase disconnect
    cases before : l.state.server.disconnect with
    | false => simp [disconnect]
    | true => simp [noticed.marked phase before, ahead]
  · simp only [after, worker]
    intro phase late present
    rcases Bool.or_eq_true_iff.mp late with before | now
    · rw [client, worker] at present
      exact marked (noticed.held phase (Bool.and_eq_true_iff.mp before).1 present)
    · exact (Bool.and_eq_true_iff.mp now).1
  · simp only [after, client, worker]
    exact noticed.closing

theorem worker_noticed {l : Link ι} (noticed : l.Noticed) {a : WorkerAction}
    (reports : l.Reports (.worker a)) {server : Server} {worker : Worker}
    {events : List WorkerEvent}
    (taken : workerStep l.state.server l.state.worker a = some (server, worker, events)) :
    (l.after (.worker a) { l.state with server := server, worker := worker }).Noticed := by
  simp only [workerStep] at taken
  split at taken
  next phase =>
    split at taken
    · cases taken
      exact noticed_of_closed _ _ rfl (by simp)
    · contradiction
  next phase => exact head_noticed noticed phase (Option.some.inj taken)
  next phase =>
    split at taken
    · cases taken
      exact noticed.kept _ rfl (fun gone => noticed.news gone (by simp [phase])) (by simp) (by simp)
    · cases taken
      exact noticed_of_closed _ _ rfl (by simp)
  next fds acceptable phase =>
    obtain ⟨rfl, moved⟩ := Prod.mk.inj (Option.some.inj taken)
    exact polled_noticed noticed reports moved
  next fds phase =>
    cases taken
    exact noticed.kept _ rfl (fun gone => noticed.news gone (by simp [phase])) (by simp) (by simp)
  next fds phase => exact serve_noticed noticed reports phase taken
  next resume phase =>
    cases taken
    exact noticed_of_closed _ _ (noticed.closing resume phase) (by simp [closeShared])
  next => contradiction

theorem step_noticed [DecidableEq ι] {l next : Link ι} {m : Move ι} {offers : List Offer}
    (noticed : l.Noticed) (taken : step l m = some (next, offers)) : next.Noticed := by
  cases m with
  | hangUp =>
    simp only [step] at taken
    split at taken
    · rename_i open_
      cases taken
      exact ⟨fun _ => open_.1, fun _ => rfl, fun _ => .inl rfl, noticed.marked, noticed.held,
        noticed.closing⟩
    · contradiction
  | host a =>
    simp only [step] at taken
    split at taken
    · rename_i reports
      obtain ⟨⟨after, events⟩, moved, result⟩ := Option.map_eq_some_iff.mp taken
      cases result
      cases a with
      | worker b =>
        obtain ⟨⟨server, worker, emitted⟩, worked, same⟩ := Option.map_eq_some_iff.mp moved
        cases same
        exact worker_noticed noticed reports worked
      | _ => exact noticed.bystander moved (by simp)
    · contradiction

/-- At a poll, a client is in service unless there is news of it. -/
theorem Noticed.inService_iff {l : Link ι} (noticed : l.Noticed)
    (phase : l.state.worker.phase = .polling) (present : l.client.isSome = true) :
    l.inService = true ↔ l.unpolled = false ∧ l.late = false := by
  have gone : l.gone = l.unpolled := by
    apply Bool.eq_iff_iff.mpr
    exact ⟨fun gone => noticed.news gone (by simp [phase]), noticed.fresh⟩
  have marked : l.state.server.disconnect = l.late := by
    apply Bool.eq_iff_iff.mpr
    exact ⟨noticed.marked phase, fun late => noticed.held phase late present⟩
  simp [inService, present, gone, marked]

theorem Noticed.polled_spaced {l : Link ι} (noticed : l.Noticed) {fds : Ready}
    {acceptable : Bool} (phase : l.state.worker.phase = .polling) {worker : Worker}
    {events : List WorkerEvent}
    (moved : Transport.polled l.state.server l.state.worker fds acceptable = (worker, events)) :
    l.Spaced (.host (.worker (.polled fds acceptable))) ↔
      ∀ o ∈ l.offers { l.state with worker := worker } (events.map .worker)
        (.worker (.polled fds acceptable)), o.Right := by
  by_cases brings : fds.listener = true ∧ acceptable = true
  · simp only [Transport.polled, if_pos brings] at moved
    simp only [Spaced, offers, brings.1, brings.2, true_imp_iff, Offer.Right]
    cases present : l.client with
    | none =>
      rw [client] at present
      simp only [present] at moved
      cases moved
      simp
    | some connection =>
      have serving : l.client.isSome = true := by simp [present]
      rw [client] at present
      simp only [present] at moved
      cases moved
      rw [← noticed.inService_iff phase serving]
      simp [isRefusal]
  · simp only [Spaced, offers, if_neg brings]
    exact iff_of_true (fun listener acceptable => absurd ⟨listener, acceptable⟩ brings) (by simp)

/-- An offered connection is treated rightly exactly when the poll was spaced. -/
theorem spaced_iff [DecidableEq ι] {l next : Link ι} {m : Move ι} {offers : List Offer}
    (noticed : l.Noticed) (taken : step l m = some (next, offers)) :
    l.Spaced m ↔ ∀ o ∈ offers, o.Right := by
  cases m with
  | hangUp =>
    simp only [step] at taken
    split at taken
    · cases taken; simp [Spaced]
    · contradiction
  | host a =>
    simp only [step] at taken
    split at taken
    · obtain ⟨⟨after, events⟩, moved, result⟩ := Option.map_eq_some_iff.mp taken
      cases result
      cases a with
      | worker b =>
        cases b with
        | polled fds acceptable =>
          obtain ⟨⟨server, worker, emitted⟩, worked, same⟩ := Option.map_eq_some_iff.mp moved
          cases same
          simp only [workerStep] at worked
          split at worked
          all_goals try contradiction
          rename_i heard phase
          cases heard
          obtain ⟨rfl, polled⟩ := Prod.mk.inj (Option.some.inj worked)
          exact noticed.polled_spaced phase polled
        | _ => simp [Spaced, Link.offers]
      | _ => simp [Spaced, Link.offers]
    · contradiction

/-- Every connection accepted in a run finds a live client or becomes the client, exactly when
no poll brings one together with the first news of its predecessor's end. -/
theorem only_live_client_blocks [DecidableEq ι] {actions : List (Move ι)} {l : Link ι}
    {trace : List Offer} (run : Machine.exec step actions .initial = some (l, trace)) :
    Machine.Along step Spaced actions .initial ↔ ∀ o ∈ trace, o.Right :=
  Machine.along_iff_emitted Noticed (fun _ _ _ _ => step_noticed)
    (fun _ _ _ _ => spaced_iff) initial_noticed run

def connect : List (Move (Fin MonitorCount)) := [
  .host (.worker (.head 0)), .host (.worker (.polled ⟨true, false, false, false⟩ true)),
  .host (.worker .accept), .host (.worker (.serve .data .again 0 0)), .host (.worker (.head 0))]

/-- It closes, and a poll reports that before the next one reports its new connection. -/
def noticedClose : List (Move (Fin MonitorCount)) := connect ++ [
  .hangUp, .host (.worker (.polled ⟨false, false, true, false⟩ false)),
  .host (.worker (.serve .ended .again 0 0)), .host (.worker .close), .host (.worker (.head 0)),
  .host (.worker (.polled ⟨true, false, false, false⟩ true))]

theorem only_live_client_blocks_sample :
    ∃ l trace, Machine.exec step noticedClose .initial = some (l, trace) ∧
      ⟨2, false, false, some 2⟩ ∈ trace ∧ Machine.Along step Spaced noticedClose .initial := by
  have reached : (Machine.exec step noticedClose .initial).map Prod.snd =
      some [⟨1, false, false, some 1⟩, ⟨2, false, false, some 2⟩] := by decide +kernel
  obtain ⟨⟨l, trace⟩, run, rfl⟩ := Option.map_eq_some_iff.mp reached
  exact ⟨l, _, run, by simp, (only_live_client_blocks run).mpr (by decide)⟩

/-- The close and the new connection reach the same poll. -/
def crowdedClose : List (Move (Fin MonitorCount)) := connect ++ [
  .hangUp, .host (.worker (.polled ⟨true, false, true, false⟩ true))]

theorem returning_client_refused :
    ¬∀ (actions : List (Move (Fin MonitorCount))) (l : Link (Fin MonitorCount))
      (trace : List Offer), Machine.exec step actions .initial = some (l, trace) →
        ∀ o ∈ trace, o.Right := by
  intro claimed
  have reached : (Machine.exec step crowdedClose .initial).map Prod.snd =
      some [⟨1, false, false, some 1⟩, ⟨2, false, true, some 1⟩] := by decide +kernel
  obtain ⟨⟨l, trace⟩, run, rfl⟩ := Option.map_eq_some_iff.mp reached
  have right := claimed _ l _ run ⟨2, false, true, some 1⟩ (by simp)
  revert right
  decide

end Link

end Quest.Transport
