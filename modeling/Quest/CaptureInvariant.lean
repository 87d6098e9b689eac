import Quest.CaptureSteps

/-! What holds in every reachable state of a capture session. The data thread's position
accounts for a pending conversion and for the withheld buffer; frames leave the pool only
after the memory type has been logged, and keep their surfaces from then on. -/
namespace Quest.Capture

def Process.output : Process → Option (Fin PoolSize)
  | .imported _ _ f | .written _ _ f => some f
  | _ => none

def Process.admitted : Process → Bool
  | .scanning _ _ _ | .chosen _ _ _ | .imported _ _ _ | .written _ _ _ => true
  | _ => false

def Process.Outside (p : Process) : Prop := p = .idle ∨ p = .entered

def Process.within : Process → Bool
  | .idle | .entered | .failing _ _ => false
  | _ => true

def Teardown.locked : Teardown → Bool
  | .processingLocked | .settled | .destroyed => true
  | .alive | .stopping | .loopLocked => false

def Teardown.hasSettled : Teardown → Bool
  | .settled | .destroyed => true
  | _ => false

def Worker.Holds (w : Worker) (f : Fin PoolSize) : Prop :=
  w.sample = some f ∨ w.lastSample = some f ∨ w.mapped = some f ∨ ∃ ref ∈ w.refs, ref.frame = f

def State.Used (s : State) (f : Fin PoolSize) : Prop := f ∈ s.session.queue ∨ s.worker.Holds f

/-- A frame in use outside the pool, or written to by `consume`. -/
def State.Held (s : State) (f : Fin PoolSize) : Prop :=
  f ∈ s.session.queue ∨ s.worker.Holds f ∨ s.process.output = some f

/-- A conversion that failed waits for its handler or has been handled. -/
def State.Quarantined (s : State) : Prop :=
  (∃ b message, s.process = .failing b message) ∨
    s.process = .idle ∧ s.session.stopping = true

structure Invariant (s : State) : Prop where
  converting : s.session.dma = true → s.session.converter.isSome = true
  covered : ∀ c, s.session.converter = some c → c.Covered
  pending : ∀ c, s.session.converter = some c → c.pending ≠ none →
    s.session.logged = true ∧ s.session.dma = true ∧ s.Quarantined
  withheld : s.withheld ≠ none → s.process = .idle ∧ s.session.stopping = true ∧
    s.session.converter.isSome = true
  logged : s.process.admitted = true → s.session.logged = true
  importing : ∀ b buffer f, s.process = .imported b buffer f → s.session.dma = true
  unlogged : s.session.logged = false → ∀ f, ¬s.Held f
  hardware : s.session.dma = true → ∀ f, s.Held f → (s.session.pool f).hardware = true
  surface : ∀ f, .surface f ∈ s.worker.refs → (s.session.pool f).hardware = true
  locked : s.teardown.locked = true → s.process.Outside
  stopping : s.teardown ≠ .alive → s.session.stopping = true
  settled : s.teardown.hasSettled = true → ∀ c, s.session.converter = some c → c.pending = none

theorem initial_invariant (intel : Bool) (memory : Memory) :
    Invariant (.initial intel memory) := by
  have idle : ¬∃ f, (State.initial intel memory).Held f := by
    simp [State.Held, Worker.Holds, State.initial, Process.output]
  have fresh : ∀ c, (State.initial intel memory).session.converter = some c → c = .initial := by
    intro c present
    simp only [State.initial] at present
    split at present
    · exact (Option.some.inj present).symm
    · contradiction
  exact {
    converting := by simp [State.initial]
    covered := fun c present => fresh c present ▸ Converter.initial_covered
    pending := fun c present pending => absurd (by rw [fresh c present]; rfl) pending
    withheld := by simp [State.initial]
    logged := by simp [State.initial, Process.admitted]
    importing := by simp [State.initial]
    unlogged := fun _ f held => idle ⟨f, held⟩
    hardware := fun _ f held => (idle ⟨f, held⟩).elim
    surface := by simp [State.initial]
    locked := by simp [State.initial, Teardown.locked]
    stopping := by simp [State.initial]
    settled := by simp [State.initial, Teardown.hasSettled] }

/-- Two sessions between which nothing changes that the invariant speaks of, except for the
queue. -/
structure Session.Alike (s t : Session) : Prop where
  converter : t.converter = s.converter
  dma : t.dma = s.dma
  logged : t.logged = s.logged
  stopping : s.stopping = true → t.stopping = true
  hardware : ∀ f, (t.pool f).hardware = (s.pool f).hardware

namespace Session

theorem Alike.refl (s : Session) : Alike s s := ⟨rfl, rfl, rfl, id, fun _ => rfl⟩

theorem Alike.trans {s t u : Session} (first : Alike s t) (second : Alike t u) : Alike s u :=
  ⟨second.converter.trans first.converter, second.dma.trans first.dma,
    second.logged.trans first.logged, fun stopping => second.stopping (first.stopping stopping),
    fun f => (second.hardware f).trans (first.hardware f)⟩

theorem fail_alike (s : Session) (message : String) : Alike s (s.fail message) := by
  unfold fail; split <;> exact ⟨rfl, rfl, rfl, id, fun _ => rfl⟩

theorem stop_alike (s : Session) : Alike s s.stop := ⟨rfl, rfl, rfl, fun _ => rfl, fun _ => rfl⟩

theorem drop_alike (s : Session) : Alike s s.drop := ⟨rfl, rfl, rfl, id, fun _ => rfl⟩

theorem log_logged (s : Session) : s.log.logged = true := by
  unfold log; split <;> simp_all

theorem write_alike (s : Session) (f : Fin PoolSize) {change : Frame → Frame}
    (kept : (change (s.pool f)).hardware = (s.pool f).hardware) : Alike s (s.write f change) := by
  refine ⟨rfl, rfl, rfl, id, fun other => ?_⟩
  by_cases same : other = f
  · subst same; simpa [write] using kept
  · simp [write, same]

theorem push_alike (s : Session) (f : Fin PoolSize) : Alike s (s.push f) := by
  unfold push; split <;> exact ⟨rfl, rfl, rfl, id, fun _ => rfl⟩

theorem fail_queue (s : Session) (message : String) : (s.fail message).queue = s.queue := by
  unfold fail; split <;> rfl

theorem mem_push {s : Session} {f g : Fin PoolSize} (member : g ∈ (s.push f).queue) :
    g ∈ s.queue ∨ g = f := by
  unfold push at member
  split at member
  · rcases List.mem_append.mp member with old | new
    · exact .inl (List.mem_of_mem_tail old)
    · exact .inr (List.mem_singleton.mp new)
  · simpa using member

end Session

theorem takeLatest_alike {s session : Session} {sample : Option (Fin PoolSize)}
    (taken : takeLatest s = (session, sample)) : s.Alike session := by
  unfold takeLatest at taken
  split at taken <;> cases taken
  · exact .refl s
  · exact ⟨rfl, rfl, rfl, id, fun _ => rfl⟩

theorem takeLatest_mem {s session : Session} {sample : Option (Fin PoolSize)}
    (taken : takeLatest s = (session, sample)) :
    session.queue = [] ∧ ∀ f, sample = some f → f ∈ s.queue := by
  unfold takeLatest at taken
  split at taken <;> cases taken
  · exact ⟨‹_›, by simp⟩
  · exact ⟨rfl, fun f => List.mem_of_getLast?⟩

/-- Steps that leave the data thread where it is. -/
theorem Invariant.advance {s next : State} (valid : Invariant s)
    (alike : s.session.Alike next.session) (process : next.process = s.process)
    (withheld : next.withheld = s.withheld) (teardown : next.teardown = s.teardown)
    (held : ∀ f, next.Held f → s.Held f)
    (surface : ∀ f, .surface f ∈ next.worker.refs → (s.session.pool f).hardware = true) :
    Invariant next where
  converting := by rw [alike.dma, alike.converter]; exact valid.converting
  covered := by rw [alike.converter]; exact valid.covered
  pending := by
    intro c present pending
    rw [alike.converter] at present
    obtain ⟨logged, dma, quarantined⟩ := valid.pending c present pending
    refine ⟨alike.logged ▸ logged, alike.dma ▸ dma, ?_⟩
    unfold State.Quarantined
    rw [process]
    exact quarantined.imp id fun ⟨idle, stopping⟩ => ⟨idle, alike.stopping stopping⟩
  withheld := by
    rw [withheld, process, alike.converter]
    intro kept
    obtain ⟨idle, stopping, converter⟩ := valid.withheld kept
    exact ⟨idle, alike.stopping stopping, converter⟩
  logged := by rw [process, alike.logged]; exact valid.logged
  importing := by rw [process, alike.dma]; exact valid.importing
  unlogged := by
    rw [alike.logged]
    exact fun unlogged f inUse => valid.unlogged unlogged f (held f inUse)
  hardware := by
    rw [alike.dma]
    exact fun dma f inUse => alike.hardware f ▸ valid.hardware dma f (held f inUse)
  surface := fun f member => alike.hardware f ▸ surface f member
  locked := by rw [teardown, process]; exact valid.locked
  stopping := by rw [teardown]; exact fun began => alike.stopping (valid.stopping began)
  settled := by rw [teardown, alike.converter]; exact valid.settled

theorem Invariant.setSession {s : State} (valid : Invariant s) {t : Session}
    (alike : s.session.Alike t) (queue : t.queue = s.session.queue) :
    Invariant (s.setSession t) := by
  refine valid.advance alike rfl rfl rfl (fun f held => ?_) valid.surface
  unfold State.Held at held ⊢
  rwa [State.setSession, queue] at held

theorem Invariant.setControl {s : State} (valid : Invariant s) (control : Control) :
    Invariant { s with control := control } :=
  valid.advance (.refl _) rfl rfl rfl (fun _ held => held) valid.surface

structure State.Calm (s : State) : Prop where
  withheld : s.withheld = none
  pending : ∀ c, s.session.converter = some c → c.pending = none

theorem Invariant.calm {s : State} (valid : Invariant s)
    (running : ∀ b message, s.process ≠ .failing b message)
    (active : s.process = .idle → s.session.stopping = false) : s.Calm := by
  constructor
  · by_contra kept
    obtain ⟨idle, stopping, _⟩ := valid.withheld kept
    simp [active idle] at stopping
  · intro c present
    by_contra pending
    obtain ⟨_, _, ⟨b, message, failing⟩ | ⟨idle, stopping⟩⟩ := valid.pending c present pending
    · exact running b message failing
    · simp [active idle] at stopping

/-- Outside the memory-changing positions the data thread moves freely while all is calm. -/
theorem Invariant.goto {s : State} (valid : Invariant s) (calm : s.Calm) {p : Process}
    (logged : p.admitted = true → s.session.logged = true)
    (importing : ∀ b buffer f, p = .imported b buffer f → s.session.dma = true)
    (output : ∀ f, p.output = some f → s.session.logged = true ∧
      (s.session.dma = true → (s.session.pool f).hardware = true))
    (locked : s.teardown.locked = true → p.Outside) : Invariant (s.goto p) where
  converting := valid.converting
  covered := valid.covered
  pending := fun c present pending => absurd (calm.pending c present) pending
  withheld := fun kept => absurd calm.withheld kept
  logged := logged
  importing := importing
  unlogged := by
    rintro unlogged f (queued | holds | writing)
    · exact valid.unlogged unlogged f (.inl queued)
    · exact valid.unlogged unlogged f (.inr (.inl holds))
    · have unlogged : s.session.logged = false := unlogged
      simp [(output f writing).1] at unlogged
  hardware := by
    rintro dma f (queued | holds | writing)
    · exact valid.hardware dma f (.inl queued)
    · exact valid.hardware dma f (.inr (.inl holds))
    · exact (output f writing).2 dma
  surface := valid.surface
  locked := locked
  stopping := valid.stopping
  settled := valid.settled

theorem Invariant.log {s : State} (valid : Invariant s) (calm : s.Calm) :
    Invariant (s.setSession s.session.log) := by
  unfold Session.log
  split
  · exact valid
  rename_i unlogged
  have unused := valid.unlogged (Bool.eq_false_iff.mpr unlogged)
  exact {
    converting := valid.converting
    covered := valid.covered
    pending := fun c present pending => absurd (calm.pending c present) pending
    withheld := fun kept => absurd calm.withheld kept
    logged := fun _ => rfl
    importing := valid.importing
    unlogged := by simp [State.setSession]
    hardware := fun _ f held => absurd held (unused f)
    surface := valid.surface
    locked := valid.locked
    stopping := valid.stopping
    settled := valid.settled }

/-- A converter may be replaced by one with nothing more pending. -/
theorem Invariant.setConverter {s : State} (valid : Invariant s)
    {c after : Converter (Fin PoolSize)} (present : s.session.converter = some c)
    (covered : after.Covered) (pending : after.pending = c.pending ∨ after.pending = none) :
    Invariant (s.setSession (s.session.setConverter after)) := by
  have still (later) (same : some after = some later) (left : later.pending ≠ none) :
      c.pending ≠ none := by
    cases same
    rcases pending with kept | cleared
    · exact kept ▸ left
    · exact absurd cleared left
  exact {
    converting := fun _ => rfl
    covered := by rintro later ⟨⟩; exact covered
    pending := fun later same left => valid.pending c present (still later same left)
    withheld := fun kept => ⟨(valid.withheld kept).1, (valid.withheld kept).2.1, rfl⟩
    logged := valid.logged
    importing := valid.importing
    unlogged := valid.unlogged
    hardware := valid.hardware
    surface := valid.surface
    locked := valid.locked
    stopping := valid.stopping
    settled := by
      intro settled later same
      by_contra left
      exact still later same left (valid.settled settled c present) }

/-- The data thread is inside the processing lock. -/
theorem Invariant.unlocked {s : State} (valid : Invariant s) (inside : ¬s.process.Outside)
    {p : Process} (locked : s.teardown.locked = true) : p.Outside :=
  absurd (valid.locked locked) inside

/-- A failed conversion leaves itself pending and its buffer to the handler. -/
theorem unconverted_invariant {s : State} (valid : Invariant s) {b : Buffer} {buffer : SpaBuffer}
    {f : Fin PoolSize} (at_ : s.process = .imported b buffer f) {after : Converter (Fin PoolSize)}
    (covered : after.Covered) (message : String) :
    Invariant ((s.setSession (s.session.setConverter after)).goto (.failing b message)) := by
  have dma := valid.importing b buffer f at_
  have logged := valid.logged (by rw [at_]; rfl)
  have held (g) (held : ((s.setSession (s.session.setConverter after)).goto
      (.failing b message)).Held g) : s.Held g := by
    rcases held with queued | holds | writing
    · exact .inl queued
    · exact .inr (.inl holds)
    · contradiction
  have inside : ¬s.process.Outside := by simp [at_, Process.Outside]
  exact {
    converting := fun _ => rfl
    covered := by rintro later ⟨⟩; exact covered
    pending := fun _ _ _ => ⟨logged, dma, .inl ⟨b, message, rfl⟩⟩
    withheld := by
      intro kept
      have idle := (valid.withheld kept).1
      simp [at_] at idle
    logged := fun _ => logged
    importing := fun _ _ _ _ => dma
    unlogged := fun unlogged g inUse => valid.unlogged unlogged g (held g inUse)
    hardware := fun dma g inUse => valid.hardware dma g (held g inUse)
    surface := valid.surface
    locked := valid.unlocked inside
    stopping := valid.stopping
    settled := by
      intro settled
      have locked : s.teardown.locked = true := by
        revert settled
        show s.teardown.hasSettled = true → _
        cases s.teardown <;> simp [Teardown.hasSettled, Teardown.locked]
      exact absurd (valid.locked locked) inside }

theorem withheld_invariant {s : State} (valid : Invariant s) {b : Buffer} (message : String)
    (dma : s.session.dma = true) :
    Invariant ({ s.setSession (s.session.stop.fail message) with withheld := some b }.goto
      .idle) := by
  have alike := s.session.stop_alike.trans (s.session.stop.fail_alike message)
  have stopping := s.session.stop.fail_alike message |>.stopping rfl
  have settled := valid.setSession alike (s.session.stop.fail_queue message)
  have unused (g) (held : ({ s.setSession (s.session.stop.fail message) with
      withheld := some b }.goto .idle).Held g) :
      (s.setSession (s.session.stop.fail message)).Held g := by
    rcases held with queued | holds | writing
    · exact .inl queued
    · exact .inr (.inl holds)
    · contradiction
  exact {
    converting := settled.converting
    covered := settled.covered
    pending := fun c present pending =>
      have before := settled.pending c present pending
      ⟨before.1, before.2.1, .inr ⟨rfl, stopping⟩⟩
    withheld := fun _ => ⟨rfl, stopping, settled.converting (alike.dma.trans dma)⟩
    logged := by simp [State.goto, Process.admitted]
    importing := by simp [State.goto]
    unlogged := fun unlogged g inUse => settled.unlogged unlogged g (unused g inUse)
    hardware := fun dma g inUse => settled.hardware dma g (unused g inUse)
    surface := settled.surface
    locked := fun _ => .inl rfl
    stopping := fun _ => stopping
    settled := settled.settled }

theorem Invariant.calm_at {s : State} (valid : Invariant s) {p : Process} (at_ : s.process = p)
    (running : ∀ b message, p ≠ .failing b message) (active : p ≠ .idle) : s.Calm :=
  valid.calm (fun b message failing => running b message (at_ ▸ failing))
    fun idle => absurd (at_ ▸ idle) active

theorem Session.Alike.calm {s : State} {t : Session} (alike : s.session.Alike t) (calm : s.Calm) :
    (s.setSession t).Calm :=
  ⟨calm.withheld, fun c present => calm.pending c (alike.converter ▸ present)⟩

theorem within_inside {s : State} {p : Process} (at_ : s.process = p) (within : p.within = true) :
    ¬s.process.Outside := by
  rintro (idle | entered)
  · rw [← at_, idle] at within; contradiction
  · rw [← at_, entered] at within; contradiction

theorem Invariant.calm_within {s : State} (valid : Invariant s) {p : Process}
    (at_ : s.process = p) (within : p.within = true) : s.Calm := by
  refine valid.calm_at at_ ?_ ?_
  · rintro b message rfl; contradiction
  · rintro rfl; contradiction

theorem unadmitted_bare {p : Process} (unadmitted : p.admitted = false) (f : Fin PoolSize) :
    p.output ≠ some f := by
  cases p <;> simp_all [Process.output, Process.admitted]

/-- Between positions under the processing lock at which no frame is being written. -/
theorem Invariant.pass {s : State} (valid : Invariant s) {p q : Process} (at_ : s.process = p)
    (within : p.within = true) {t : Session} (alike : s.session.Alike t)
    (queue : t.queue = s.session.queue) (logged : q.admitted = true → s.session.logged = true)
    (bare : q.output = none) : Invariant ((s.setSession t).goto q) := by
  refine (valid.setSession alike queue).goto (alike.calm (valid.calm_within at_ within)) ?_ ?_ ?_ ?_
  · exact fun admitted => alike.logged ▸ logged admitted
  · rintro b buffer f rfl; contradiction
  · intro f writing; rw [bare] at writing; contradiction
  · exact valid.unlocked (within_inside at_ within)

/-- To a position outside the admitted part of `consume`. -/
theorem Invariant.back {s : State} (valid : Invariant s) {p q : Process} (at_ : s.process = p)
    (within : p.within = true) {t : Session} (alike : s.session.Alike t)
    (queue : t.queue = s.session.queue) (unadmitted : q.admitted = false) :
    Invariant ((s.setSession t).goto q) :=
  valid.pass at_ within alike queue (by simp [unadmitted])
    (Option.eq_none_iff_forall_ne_some.mpr (unadmitted_bare unadmitted))

/-- Both paths of `consume` write frames that suit the memory type. -/
theorem Invariant.write {s : State} (valid : Invariant s) {p : Process} (at_ : s.process = p)
    (within : p.within = true) (admitted : p.admitted = true) {t : Session}
    (alike : s.session.Alike t) (queue : t.queue = s.session.queue) {f : Fin PoolSize}
    (suited : s.session.dma = true → (s.session.pool f).hardware = true) :
    Invariant ((s.setSession t).goto (.written b buffer f)) := by
  have logged := valid.logged (by rw [at_]; exact admitted)
  refine (valid.setSession alike queue).goto (alike.calm (valid.calm_within at_ within)) ?_
    (by simp) ?_ (valid.unlocked (within_inside at_ within))
  · exact fun _ => alike.logged ▸ logged
  · rintro _ ⟨⟩
    exact ⟨alike.logged ▸ logged, fun dma => (alike.hardware f).trans (suited (alike.dma ▸ dma))⟩

theorem Invariant.push {s : State} (valid : Invariant s) {b : Buffer} {buffer : SpaBuffer}
    {f : Fin PoolSize} (at_ : s.process = .written b buffer f) {t : Session}
    (alike : s.session.Alike t) (queue : t.queue = s.session.queue) :
    Invariant ((s.setSession (t.push f)).goto (.returning b)) := by
  have calm := valid.calm_within at_ rfl
  have pushed := alike.trans (t.push_alike f)
  have held (g) (held : ((s.setSession (t.push f)).goto (.returning b)).Held g) : s.Held g := by
    rcases held with queued | holds | writing
    · rcases Session.mem_push queued with old | rfl
      · exact .inl (queue ▸ old)
      · exact .inr (.inr (by rw [at_]; rfl))
    · exact .inr (.inl holds)
    · contradiction
  exact {
    converting := by
      have before := valid.converting
      rwa [← pushed.dma, ← pushed.converter] at before
    covered := fun c present => valid.covered c (pushed.converter ▸ present)
    pending := fun c present pending =>
      absurd (calm.pending c (pushed.converter ▸ present)) pending
    withheld := fun kept => absurd calm.withheld kept
    logged := by simp [State.goto, Process.admitted]
    importing := by simp [State.goto]
    unlogged := fun unlogged g inUse =>
      valid.unlogged (pushed.logged ▸ unlogged) g (held g inUse)
    hardware := fun dma g inUse =>
      (pushed.hardware g).trans (valid.hardware (pushed.dma ▸ dma) g (held g inUse))
    surface := fun g member => (pushed.hardware g).trans (valid.surface g member)
    locked := valid.unlocked (within_inside at_ rfl)
    stopping := fun began => pushed.stopping (valid.stopping began)
    settled := fun _ c present => calm.pending c (pushed.converter ▸ present) }

theorem guarded_within {p : Process} {b : Buffer} (guarded : p.guarded = some b) :
    p.within = true := by
  cases p <;> simp_all [Process.guarded, Process.within]

theorem imported_invariant {s : State} (valid : Invariant s) {b : Buffer} {buffer : SpaBuffer}
    {f : Fin PoolSize} (at_ : s.process = .chosen b buffer f) (dma : s.session.dma = true)
    (hardware : (s.session.pool f).hardware = true) {c after : Converter (Fin PoolSize)}
    (present : s.session.converter = some c) (covered : after.Covered)
    (pending : after.pending = c.pending) :
    Invariant ((s.setSession (s.session.setConverter after)).goto (.imported b buffer f)) := by
  have calm := valid.calm_within at_ rfl
  have logged := valid.logged (by rw [at_]; rfl)
  refine (valid.setConverter present covered (.inl pending)).goto ⟨calm.withheld, ?_⟩
    (fun _ => logged) (fun _ _ _ _ => dma) ?_ (valid.unlocked (within_inside at_ rfl))
  · rintro _ ⟨⟩
    exact pending.trans (calm.pending c present)
  · rintro _ ⟨⟩
    exact ⟨logged, fun _ => hardware⟩

theorem caught_invariant {s : State} (valid : Invariant s) {b : Buffer} {message : String}
    (at_ : s.process = .failing b message) (cpu : s.session.dma = false) :
    Invariant ((s.setSession (s.session.stop.fail message)).goto (.returning b)) := by
  have alike := s.session.stop_alike.trans (s.session.stop.fail_alike message)
  have calm : s.Calm := by
    constructor
    · by_contra kept
      have idle := (valid.withheld kept).1
      simp [at_] at idle
    · intro c present
      by_contra pending
      simp [(valid.pending c present pending).2.1] at cpu
  refine (valid.setSession alike (s.session.stop.fail_queue message)).goto (alike.calm calm)
    (by simp [Process.admitted]) (by simp) (by simp [Process.output]) (valid.unlocked ?_)
  simp [at_, Process.Outside]

theorem process_invariant {s next : State} {events : List Event} (valid : Invariant s)
    (moved : ProcessMoved s next events) : Invariant next := by
  cases moved with
  | unchanged => exact valid
  | finished at_ =>
    have calm : s.Calm := by
      rcases at_ with at_ | at_ | at_ <;> exact valid.calm_at at_ (by simp) (by simp)
    exact valid.goto calm (by simp [Process.admitted]) (by simp) (by simp [Process.output])
      fun _ => .inl rfl
  | entered at_ running =>
    exact valid.goto (valid.calm (by simp [at_]) fun _ => running) (by simp [Process.admitted])
      (by simp) (by simp [Process.output]) fun _ => .inr rfl
  | locked at_ unlocked =>
    refine valid.goto (valid.calm_at at_ (by simp) (by simp)) (by simp [Process.admitted])
      (by simp) (by simp [Process.output]) fun locked => ?_
    rcases unlocked with phase | phase | phase <;> simp [phase, Teardown.locked] at locked
  | rechecked at_ => exact valid.back at_ rfl (.refl _) rfl rfl
  | drained at_ => exact valid.back at_ rfl (.refl _) rfl rfl
  | dequeued at_ => exact valid.back at_ rfl ⟨rfl, rfl, rfl, id, fun _ => rfl⟩ rfl rfl
  | replaced at_ => exact valid.back at_ rfl ⟨rfl, rfl, rfl, id, fun _ => rfl⟩ rfl rfl
  | skipped at_ => exact valid.back at_ rfl s.session.drop_alike rfl rfl
  | @tooSmall b at_ cpu =>
    have logged := valid.log (valid.calm_within at_ rfl)
    exact logged.back at_ rfl (Session.fail_alike _ _) (Session.fail_queue _ _) rfl
  | admitted at_ =>
    have logged := valid.log (valid.calm_within at_ rfl)
    exact logged.pass at_ rfl (.refl _) rfl (fun _ => s.session.log_logged) rfl
  | threw guarded =>
    exact valid.back rfl (guarded_within guarded) (.refl _) rfl rfl
  | chose at_ =>
    exact valid.pass at_ rfl (.refl _) rfl (fun _ => valid.logged (by rw [at_]; rfl)) rfl
  | passed at_ =>
    exact valid.pass at_ rfl (.refl _) rfl (fun _ => valid.logged (by rw [at_]; rfl)) rfl
  | starved at_ => exact valid.back at_ rfl s.session.drop_alike rfl rfl
  | imported at_ dma hardware present done =>
    exact imported_invariant valid at_ dma hardware present
      (Converter.importBuffer_covered (valid.covered _ present) done)
      (Converter.importBuffer_ok done).1
  | @converted b buffer f c processed after at_ present done =>
    have clear := (valid.calm_within at_ rfl).pending c present
    have covered := Converter.convert_covered (valid.covered c present) clear b f processed
    have cleared := Converter.convert_ok clear (by rw [done])
    rw [done] at covered cleared
    have hardware : s.session.dma = true → (s.session.pool f).hardware = true :=
      fun dma => valid.hardware dma f (.inr (.inr (by rw [at_]; rfl)))
    have settled := valid.setConverter present covered (.inr cleared)
    exact settled.write at_ rfl rfl ((s.session.setConverter after).write_alike f rfl) rfl hardware
  | @unconverted b buffer f c processed after message at_ present done =>
    have clear := (valid.calm_within at_ rfl).pending c present
    have covered := Converter.convert_covered (valid.covered c present) clear b f processed
    rw [done] at covered
    exact unconverted_invariant valid at_ covered message
  | copied at_ cpu =>
    exact valid.write at_ rfl rfl (s.session.write_alike _ rfl) rfl (by simp [cpu])
  | pushed now at_ => exact valid.push at_ (s.session.write_alike _ rfl) rfl
  | withheld at_ dma => exact withheld_invariant valid _ dma
  | caught at_ cpu => exact caught_invariant valid at_ cpu
  | requeued at_ =>
    exact valid.goto (valid.calm_within at_ rfl) (by simp [Process.admitted]) (by simp)
      (by simp [Process.output]) fun _ => .inl rfl

theorem onStateChanged_alike (s : Session) (state : StreamState) (message : Option String) :
    s.Alike (onStateChanged s state message) ∧
      (onStateChanged s state message).queue = s.queue := by
  unfold onStateChanged
  split
  · exact ⟨⟨rfl, rfl, rfl, id, fun _ => rfl⟩, rfl⟩
  · exact ⟨s.fail_alike _, s.fail_queue _⟩
  · split
    · exact ⟨s.fail_alike _, s.fail_queue _⟩
    · exact ⟨.refl s, rfl⟩
  · exact ⟨.refl s, rfl⟩

theorem useMemory_kept (s : Session) (refused : Option (Fin PoolSize)) :
    (s.useMemory refused).converter = s.converter ∧ (s.useMemory refused).dma = s.dma ∧
      (s.useMemory refused).logged = s.logged ∧ (s.useMemory refused).queue = s.queue ∧
      (s.stopping = true → (s.useMemory refused).stopping = true) := by
  unfold Session.useMemory
  split
  · exact ⟨rfl, rfl, rfl, rfl, id⟩
  · unfold Session.fail Session.stop
    dsimp only
    split <;> exact ⟨rfl, rfl, rfl, rfl, fun _ => rfl⟩

theorem fail_stop_alike (s : Session) (message : String) : s.Alike (s.fail message).stop :=
  (s.fail_alike message).trans (s.fail message).stop_alike

theorem fail_stop_queue (s : Session) (message : String) :
    (s.fail message).stop.queue = s.queue := s.fail_queue message

/-- Once the memory type is logged, a notification changes nothing but the error and the
stopping flag. -/
theorem onParamChanged_alike {s : Session} (logged : s.logged = true) (info : Format)
    (refused : Option (Fin PoolSize)) :
    s.Alike (onParamChanged s info refused) ∧ (onParamChanged s info refused).queue = s.queue := by
  unfold onParamChanged
  simp only [logged, if_true]
  split
  · exact ⟨s.fail_alike _, s.fail_queue _⟩
  split
  · exact ⟨fail_stop_alike s _, fail_stop_queue s _⟩
  split
  · exact ⟨fail_stop_alike s _, fail_stop_queue s _⟩
  · exact ⟨.refl s, rfl⟩

structure Session.Renegotiated (s t : Session) : Prop where
  converter : t.converter = s.converter
  logged : t.logged = s.logged
  queue : t.queue = s.queue
  stopping : s.stopping = true → t.stopping = true
  dma : t.dma = true → s.dma = true ∨ t.converter.isSome = true

theorem Session.Alike.renegotiated {s t : Session} (alike : s.Alike t) (queue : t.queue = s.queue) :
    s.Renegotiated t :=
  ⟨alike.converter, alike.logged, queue, alike.stopping, fun dma => .inl (alike.dma ▸ dma)⟩

theorem onParamChanged_renegotiated (s : Session) (info : Format)
    (refused : Option (Fin PoolSize)) : s.Renegotiated (onParamChanged s info refused) := by
  unfold onParamChanged
  dsimp only
  split
  · exact (s.fail_alike _).renegotiated (s.fail_queue _)
  split
  · exact (fail_stop_alike s _).renegotiated (fail_stop_queue s _)
  split
  · split
    · exact (fail_stop_alike s _).renegotiated (fail_stop_queue s _)
    · exact (Session.Alike.refl s).renegotiated rfl
  split
  · rename_i dma
    refine ⟨rfl, rfl, rfl, id, fun _ => .inr ?_⟩
    exact (Bool.and_eq_true_iff.mp dma).1
  · rename_i memory
    obtain ⟨converter, dma, logged, queue, stopping⟩ := useMemory_kept
      { s with
        dma := s.converter.isSome && info.hasModifier
        modifier := info.modifier
        alpha := info.format == .bgra } refused
    exact ⟨converter, logged, queue, stopping, fun now => absurd (dma.symm.trans now) memory⟩

theorem unadmitted_unlogged {s : State} (valid : Invariant s)
    (unlogged : s.session.logged = false) : s.process.admitted = false := by
  by_contra admitted
  have logged := valid.logged (by simpa using admitted)
  simp [unlogged] at logged

theorem Invariant.renegotiate {s : State} (valid : Invariant s)
    (unlogged : s.session.logged = false) {t : Session} (changed : s.session.Renegotiated t) :
    Invariant (s.setSession t) := by
  have unused (f) (held : (s.setSession t).Held f) : False := by
    refine valid.unlogged unlogged f (held.imp (fun queued => ?_) id)
    exact changed.queue ▸ queued
  have unadmitted := unadmitted_unlogged valid unlogged
  exact {
    converting := fun dma =>
      (changed.dma dma).elim (fun before => changed.converter ▸ valid.converting before) id
    covered := fun c present => valid.covered c (changed.converter ▸ present)
    pending := by
      intro c present pending
      have logged := (valid.pending c (changed.converter ▸ present) pending).1
      simp [unlogged] at logged
    withheld := fun kept =>
      have before := valid.withheld kept
      ⟨before.1, changed.stopping before.2.1, changed.converter ▸ before.2.2⟩
    logged := fun admitted => by simp [State.setSession, unadmitted] at admitted
    importing := by
      intro b buffer f at_
      have at_ : s.process = .imported b buffer f := at_
      simp [at_, Process.admitted] at unadmitted
    unlogged := fun _ f held => unused f held
    hardware := fun _ f held => (unused f held).elim
    surface := fun f member => (unused f (.inr (.inl (.inr (.inr (.inr ⟨_, member, rfl⟩)))))).elim
    locked := valid.locked
    stopping := fun began => changed.stopping (valid.stopping began)
    settled := fun settled c present =>
      valid.settled settled c (changed.converter ▸ present) }

theorem control_invariant {s next : State} {a : ControlAction} {events : List Event}
    (valid : Invariant s) (moved : ControlMoved s a next events) : Invariant next := by
  cases moved with
  | @stateChanged state message =>
    obtain ⟨alike, queue⟩ := onStateChanged_alike s.session state message
    exact valid.setSession alike queue
  | @paramChanged info refused =>
    cases logged : s.session.logged with
    | true =>
      obtain ⟨alike, queue⟩ := onParamChanged_alike logged info refused
      exact valid.setSession alike queue
    | false => exact valid.renegotiate logged (onParamChanged_renegotiated ..)
  | adding => exact valid.setControl _
  | ignored => exact valid
  | imported at_ present done =>
    exact (valid.setConverter present
      (Converter.importBuffer_covered (valid.covered _ present) done)
      (.inl (Converter.importBuffer_ok done).1)).setControl _
  | refused => exact valid.setControl _
  | handled message =>
    exact (valid.setSession (fail_stop_alike _ _) (fail_stop_queue _ _)).setControl _
  | removing => exact valid.setControl _
  | kept => exact valid
  | removed present =>
    exact (valid.setConverter present (Converter.remove_covered (valid.covered _ present) _)
      (.inr (Converter.remove_pending _ _))).setControl _

theorem unwind_holds {w : Worker} {f : Fin PoolSize} (holds : w.unwind.Holds f) : w.Holds f := by
  unfold Worker.unwind at holds
  split at holds
  · rcases holds with sampled | last | ⟨⟨⟩⟩ | referenced
    · exact .inl sampled
    · exact .inr (.inl last)
    · exact .inr (.inr (.inr referenced))
  split at holds
  · rcases holds with ⟨⟨⟩⟩ | rest
    exact .inr rest
  · rcases holds with sampled | ⟨⟨⟩⟩ | rest
    · exact .inl sampled
    · exact .inr (.inr rest)

theorem unwind_refs (w : Worker) : w.unwind.refs = w.refs := by
  unfold Worker.unwind
  split
  · rfl
  · split <;> rfl

/-- The worker gets frames only from the queue and from itself. -/
theorem worker_used {s next : State} {events : List Event} (moved : WorkerMoved s next events)
    {f : Fin PoolSize} (used : next.Used f) : s.Used f := by
  cases moved with
  | @took session sample phase taken =>
    obtain ⟨emptied, queued⟩ := takeLatest_mem taken
    rcases used with left | sampled | rest
    · have left : f ∈ session.queue := left
      simp [emptied] at left
    · exact .inl (queued f sampled)
    · exact .inr (.inr rest)
  | mapped phase source =>
    rcases used with queued | sampled | last | ⟨⟨⟩⟩ | referenced
    · exact .inl queued
    · exact .inr (.inl sampled)
    · exact .inr (.inr (.inl last))
    · exact .inr (source.imp id fun last => .inl last.2)
    · exact .inr (.inr (.inr (.inr referenced)))
  | referenced ref phase mapped =>
    rcases used with queued | sampled | last | source | ⟨other, member, frame⟩
    · exact .inl queued
    · exact .inr (.inl sampled)
    · exact .inr (.inr (.inl last))
    · exact .inr (.inr (.inr (.inl source)))
    · rcases List.mem_cons.mp member with rfl | old
      · exact .inr (.inr (.inr (.inl (frame ▸ mapped))))
      · exact .inr (.inr (.inr (.inr ⟨other, old, frame⟩)))
  | forgot =>
    rcases used with queued | sampled | last | source | ⟨other, member, frame⟩
    · exact .inl queued
    · exact .inr (.inl sampled)
    · exact .inr (.inr (.inl last))
    · exact .inr (.inr (.inr (.inl source)))
    · exact .inr (.inr (.inr (.inr ⟨other, (List.mem_filter.mp member).1, frame⟩)))
  | moved phase sample =>
    rcases used with queued | ⟨⟨⟩⟩ | ⟨⟨⟩⟩ | rest
    · exact .inl queued
    · exact .inr (.inl sample)
    · exact .inr (.inr (.inr rest))
  | unmapped =>
    rcases used with queued | sampled | last | ⟨⟨⟩⟩ | referenced
    · exact .inl queued
    · exact .inr (.inl sampled)
    · exact .inr (.inr (.inl last))
    · exact .inr (.inr (.inr (.inr referenced)))
  | unwound => exact used.imp id unwind_holds
  | _ => exact used

theorem worker_surface {s next : State} {events : List Event} (valid : Invariant s)
    (moved : WorkerMoved s next events) {f : Fin PoolSize}
    (member : .surface f ∈ next.worker.refs) : (s.session.pool f).hardware = true := by
  cases moved with
  | referenced ref phase mapped hardware =>
    rcases List.mem_cons.mp member with same | old
    · exact hardware f same.symm
    · exact valid.surface f old
  | forgot => exact valid.surface f (List.mem_filter.mp member).1
  | unwound =>
    apply valid.surface f
    rw [← unwind_refs s.worker]
    exact member
  | _ => exact valid.surface f member

/-- A frame without a surface is never encoded while a conversion is pending, so an upload
leaves the converter as it is. -/
theorem Invariant.upload {s : State} (valid : Invariant s) {f : Fin PoolSize}
    (held : s.Held f) (bare : (s.session.pool f).hardware = false) (begun : Bool) :
    s.session.converter.map (·.upload begun) = s.session.converter := by
  cases present : s.session.converter with
  | none => rfl
  | some c =>
    refine congrArg some (Converter.upload_clear ?_ begun)
    by_contra pending
    have hardware := valid.hardware (valid.pending c present pending).2.1 f held
    simp [bare] at hardware

theorem worker_alike {s next : State} {events : List Event} (valid : Invariant s)
    (moved : WorkerMoved s next events) : s.session.Alike next.session ∧
      next.process = s.process ∧ next.withheld = s.withheld ∧ next.teardown = s.teardown := by
  cases moved with
  | took phase taken => exact ⟨takeLatest_alike taken, rfl, rfl, rfl⟩
  | uploaded begun phase mapped bare =>
    have same := valid.upload (.inr (.inl (.inr (.inr (.inl mapped))))) bare begun
    exact ⟨⟨same, rfl, rfl, id, fun _ => rfl⟩, rfl, rfl, rfl⟩
  | _ => exact ⟨.refl _, rfl, rfl, rfl⟩

theorem worker_invariant {s next : State} {events : List Event} (valid : Invariant s)
    (moved : WorkerMoved s next events) : Invariant next := by
  obtain ⟨alike, process, withheld, teardown⟩ := worker_alike valid moved
  refine valid.advance alike process withheld teardown ?_
    fun _ member => worker_surface valid moved member
  have kept (f) (used : next.Used f) : s.Held f :=
    (worker_used moved used).imp id fun holds => .inl holds
  rintro f (queued | holds | writing)
  · exact kept f (.inl queued)
  · exact kept f (.inr holds)
  · exact .inr (.inr (process ▸ writing))

theorem Invariant.mapConverter {s : State} (valid : Invariant s)
    {change : Converter (Fin PoolSize) → Converter (Fin PoolSize)}
    (covered : ∀ c, c.Covered → (change c).Covered)
    (pending : ∀ c, (change c).pending = c.pending ∨ (change c).pending = none) :
    Invariant (s.setSession { s.session with converter := s.session.converter.map change }) := by
  cases present : s.session.converter with
  | none => exact valid.setSession ⟨present.symm, rfl, rfl, id, fun _ => rfl⟩ rfl
  | some c => exact valid.setConverter present (covered c (valid.covered c present)) (pending c)

theorem Invariant.setTeardown {s : State} (valid : Invariant s) {teardown : Teardown}
    (stopping : s.session.stopping = true) (locked : teardown.locked = true → s.process.Outside)
    (settled : teardown.hasSettled = true →
      ∀ c, s.session.converter = some c → c.pending = none) :
    Invariant { s with teardown := teardown } :=
  { valid with locked := locked, stopping := fun _ => stopping, settled := settled }

theorem teardown_invariant {s next : State} {events : List Event} (valid : Invariant s)
    (moved : TeardownMoved s next events) : Invariant next := by
  cases moved with
  | stopped =>
    exact (valid.setSession s.session.stop_alike rfl).setTeardown rfl (by simp [Teardown.locked])
      (by simp [Teardown.hasSettled])
  | lockedLoop phase =>
    exact valid.setTeardown (valid.stopping (by simp [phase])) (by simp [Teardown.locked])
      (by simp [Teardown.hasSettled])
  | lockedProcessing phase outside =>
    exact valid.setTeardown (valid.stopping (by simp [phase])) (fun _ => outside)
      (by simp [Teardown.hasSettled])
  | settled phase =>
    have settled := valid.mapConverter (fun _ => Converter.settle_covered)
      (fun c => .inr c.settle_pending)
    refine settled.setTeardown (valid.stopping (by simp [phase]))
      (fun _ => valid.locked (by rw [phase]; rfl)) fun _ c present => ?_
    obtain ⟨before, _, rfl⟩ := Option.map_eq_some_iff.mp present
    exact before.settle_pending
  | destroyed phase =>
    have settled := valid.settled (by rw [phase]; rfl)
    have destroyed := valid.setTeardown (valid.stopping (by simp [phase]))
      (fun _ => valid.locked (by rw [phase]; rfl)) (fun _ : Teardown.destroyed.hasSettled = true =>
        settled)
    exact { destroyed with withheld := by simp }

theorem step_invariant {s next : State} {a : Action} {events : List Event} (valid : Invariant s)
    (taken : step s a = some (next, events)) : Invariant next := by
  cases a with
  | process a => exact process_invariant valid (processStep_moved taken)
  | control a => exact control_invariant valid (controlStep_moved taken)
  | worker a => exact worker_invariant valid (workerStep_moved taken)
  | teardown => exact teardown_invariant valid (teardownStep_moved taken)
  | gpu finished =>
    cases taken
    exact valid.mapConverter (fun _ covered => Converter.finish_covered covered finished)
      (fun _ => .inl rfl)

theorem reachable_invariant {intel : Bool} {memory : Memory} {actions : List Action} {s : State}
    {trace : List Event}
    (run : Machine.exec step actions (.initial intel memory) = some (s, trace)) : Invariant s :=
  Machine.invariant Invariant (initial_invariant intel memory)
    (fun _ _ _ _ valid taken => step_invariant valid taken) run

theorem Session.log_converter (s : Session) : s.log.converter = s.converter := by
  unfold Session.log; split <;> rfl

/-- A session has a converter for as long as it was made with one. -/
theorem step_converting {s next : State} {a : Action} {events : List Event}
    (taken : step s a = some (next, events)) :
    next.session.converter.isSome = s.session.converter.isSome := by
  cases a with
  | process a =>
    cases processStep_moved taken with
    | imported _ _ _ present => simp [State.goto, State.setSession, Session.setConverter, present]
    | converted _ present =>
      simp [State.goto, State.setSession, Session.write, Session.setConverter, present]
    | unconverted _ present => simp [State.goto, State.setSession, Session.setConverter, present]
    | tooSmall =>
      exact congrArg _ ((s.session.log.fail_alike _).converter.trans s.session.log_converter)
    | admitted => exact congrArg _ s.session.log_converter
    | withheld => exact congrArg _ (s.session.stop.fail_alike _).converter
    | caught => exact congrArg _ (s.session.stop.fail_alike _).converter
    | pushed => exact congrArg _ (Session.push_alike _ _).converter
    | _ => rfl
  | control a =>
    cases controlStep_moved taken with
    | stateChanged => exact congrArg _ (onStateChanged_alike _ _ _).1.converter
    | paramChanged => exact congrArg _ (onParamChanged_renegotiated _ _ _).converter
    | imported _ present => simp [State.setSession, Session.setConverter, present]
    | handled => exact congrArg _ (fail_stop_alike _ _).converter
    | removed present => simp [State.setSession, Session.setConverter, present]
    | _ => rfl
  | worker w =>
    cases workerStep_moved taken with
    | took _ took => exact congrArg _ (takeLatest_alike took).converter
    | uploaded => simp [State.setSession, State.setWorker]
    | _ => rfl
  | teardown =>
    cases teardownStep_moved taken with
    | settled => simp [State.setSession]
    | _ => rfl
  | gpu finished =>
    cases taken
    simp [gpuStep, State.setSession]

end Quest.Capture
