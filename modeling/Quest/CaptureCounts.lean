import Mathlib.Data.List.Sort
import Quest.CapturePool

/-! The books of a capture session. Arrivals, drops and deliveries are counted by different
functions on two threads; every step keeps them in balance, and the images that `next`
returns are fresh and in the order of their arrival. -/
namespace Quest.Capture

def Process.owed : Process → Nat
  | .idle | .entered | .locked | .draining none | .returning _ => 0
  | .draining (some _) | .consuming _ | .scanning _ _ _ | .chosen _ _ _ | .imported _ _ _
  | .written _ _ _ | .failing _ _ => 1

def Event.arrives : Event → Bool
  | .dequeued _ => true
  | _ => false

def Event.queuedImage : Event → Option Nat
  | .queued image => some image
  | _ => none

def Event.deliveredImage : Event → Option Nat
  | .delivered image => some image
  | _ => none

def arrived (trace : List Event) : Nat := trace.countP Event.arrives

def queuedImages (trace : List Event) : List Nat := trace.filterMap Event.queuedImage

def samples (trace : List Event) : List Nat := trace.filterMap Event.deliveredImage

@[simp] theorem arrived_append (first rest : List Event) :
    arrived (first ++ rest) = arrived first + arrived rest := List.countP_append

@[simp] theorem queuedImages_append (first rest : List Event) :
    queuedImages (first ++ rest) = queuedImages first ++ queuedImages rest := List.filterMap_append

@[simp] theorem samples_append (first rest : List Event) :
    samples (first ++ rest) = samples first ++ samples rest := List.filterMap_append

def Newest : List Event → Prop :=
  Machine.Each fun past e => ∀ image, e = .delivered image → (queuedImages past).getLast? = some image

theorem Newest.append {trace events : List Event} (newest : Newest trace)
    (silent : samples events = []) : Newest (trace ++ events) := by
  refine Machine.each_append_iff.mpr ⟨newest, ?_⟩
  rintro before e after rfl image rfl
  have returned : image ∈ samples (before ++ .delivered image :: after) := by
    simp [samples, Event.deliveredImage]
  rw [silent] at returned
  contradiction

theorem Newest.deliver {trace : List Event} (newest : Newest trace) {image : Nat}
    (last : (queuedImages trace).getLast? = some image) : Newest (trace ++ [.delivered image]) := by
  refine Machine.each_append_iff.mpr ⟨newest, Machine.each_cons_iff.mpr ⟨?_, Machine.each_nil _⟩⟩
  rintro other ⟨⟩
  rw [List.append_nil]
  exact last

namespace Session

def images (s : Session) : List Nat := s.queue.map fun f => (s.pool f).image

/-- Sessions between which nothing changes that the books speak of, except that one error
may have been recorded. -/
structure SameBooks (s t : Session) : Prop where
  images : t.images = s.images
  arrivals : t.arrivals = s.arrivals
  drops : t.drops = s.drops
  clean : t.error = "" → s.error = ""

theorem SameBooks.refl (s : Session) : SameBooks s s := ⟨rfl, rfl, rfl, id⟩

theorem SameBooks.trans {s t u : Session} (first : SameBooks s t) (second : SameBooks t u) :
    SameBooks s u :=
  ⟨second.images.trans first.images, second.arrivals.trans first.arrivals,
    second.drops.trans first.drops, fun clean => first.clean (second.clean clean)⟩

theorem fail_books (s : Session) (message : String) : SameBooks s (s.fail message) := by
  simp only [fail]
  split
  · exact ⟨rfl, rfl, rfl, fun _ => ‹_›⟩
  · exact .refl s

theorem fail_error {s : Session} {message : String} (text : message ≠ "") :
    (s.fail message).error ≠ "" := by
  simp only [fail]
  split
  · exact text
  · assumption

theorem stop_books (s : Session) : SameBooks s s.stop := ⟨rfl, rfl, rfl, id⟩

theorem log_books (s : Session) : SameBooks s s.log := by
  simp only [log]
  split
  · exact .refl s
  · exact ⟨rfl, rfl, rfl, id⟩

theorem setConverter_books (s : Session) (c : Converter (Fin PoolSize)) :
    SameBooks s (s.setConverter c) := ⟨rfl, rfl, rfl, id⟩

theorem useMemory_books (s : Session) (refused : Option (Fin PoolSize)) :
    SameBooks s (s.useMemory refused) := by
  cases refused with
  | none => exact ⟨rfl, rfl, rfl, id⟩
  | some first =>
    refine .trans ?_ ((fail_books _ _).trans (stop_books _))
    refine ⟨List.map_congr_left fun f _ => ?_, rfl, rfl, id⟩
    by_cases before : f < first <;> simp [before, Frame.useMemory]

end Session

theorem onStateChanged_books (s : Session) (state : StreamState) (message : Option String) :
    s.SameBooks (onStateChanged s state message) := by
  cases state with
  | streaming => exact ⟨rfl, rfl, rfl, id⟩
  | error => apply Session.fail_books
  | unconnected =>
    simp only [onStateChanged]
    split
    · apply Session.fail_books
    · exact .refl s
  | other => exact .refl s

theorem onParamChanged_books (s : Session) (info : Format) (refused : Option (Fin PoolSize)) :
    s.SameBooks (onParamChanged s info refused) := by
  have stopped (message : String) : s.SameBooks (s.fail message).stop :=
    (Session.fail_books s message).trans (Session.stop_books _)
  simp only [onParamChanged]
  split
  · apply Session.fail_books
  split
  · apply stopped
  split
  · split
    · apply stopped
    · exact .refl s
  split
  · exact ⟨rfl, rfl, rfl, id⟩
  · refine .trans ?_ (Session.useMemory_books _ refused)
    exact ⟨rfl, rfl, rfl, id⟩

structure Booked (s : State) (trace : List Event) : Prop where
  arrivals : s.session.arrivals = arrived trace
  owed : s.process.owed ≤ s.session.arrivals
  balance : s.session.error = "" → s.session.arrivals = s.session.drops +
    (samples trace).length + s.session.queue.length + s.process.owed
  failing : ∀ b message, s.process = .failing b message → message ≠ ""
  written : ∀ b buffer f, s.process = .written b buffer f →
    (s.session.pool f).image = s.session.arrivals
  ordered : (samples trace ++ s.session.images).Pairwise (· < ·)
  bounds : ∀ image ∈ samples trace ++ s.session.images,
    1 ≤ image ∧ image + s.process.owed ≤ s.session.arrivals
  last : s.session.images ≠ [] → (queuedImages trace).getLast? = s.session.images.getLast?
  newest : Newest trace

theorem initial_booked (intel : Bool) (memory : Memory) : Booked (.initial intel memory) [] := by
  constructor <;> simp [State.initial, Process.owed, Session.images, samples, arrived, Newest, Machine.each_nil]

/-- Steps that neither queue an image nor return one. -/
theorem Booked.advance {s next : State} {trace events : List Event} (booked : Booked s trace)
    (unqueued : queuedImages events = []) (silent : samples events = [])
    (images : next.session.images = s.session.images)
    (arrivals : next.session.arrivals = s.session.arrivals + arrived events)
    (balance : next.session.error = "" → s.session.error = "" ∧
      next.session.drops + next.process.owed = s.session.drops + s.process.owed + arrived events)
    (owed : next.process.owed ≤ s.process.owed + arrived events)
    (failing : ∀ b message, next.process = .failing b message → message ≠ "")
    (written : ∀ b buffer f, next.process = .written b buffer f →
      (next.session.pool f).image = next.session.arrivals) : Booked next (trace ++ events) := by
  have before := booked.owed
  have length := congrArg List.length images
  simp only [Session.images, List.length_map] at length
  refine ⟨?_, by omega, fun clean => ?_, failing, written, ?_, ?_, ?_, booked.newest.append silent⟩
  · rw [arrivals, booked.arrivals, arrived_append]
  · obtain ⟨was, moved⟩ := balance clean
    have balanced := booked.balance was
    rw [samples_append, silent, List.append_nil, length]
    omega
  · rw [samples_append, silent, List.append_nil, images]
    exact booked.ordered
  · rw [samples_append, silent, List.append_nil, images]
    intro image member
    obtain ⟨positive, below⟩ := booked.bounds image member
    exact ⟨positive, by omega⟩
  · rw [queuedImages_append, unqueued, List.append_nil, images]
    exact booked.last

def Process.plain : Process → Bool
  | .failing _ _ | .written _ _ _ => false
  | _ => true

/-- The data thread goes on, having disposed of what it no longer owes. -/
theorem Booked.pass {s : State} {trace events : List Event} (booked : Booked s trace)
    {t : Session} {p : Process} (plain : p.plain = true) (same : s.session.SameBooks t)
    (owed : p.owed = s.process.owed) (quiet : events.filterMap Event.queuedImage = [])
    (silent : samples events = []) (none_new : arrived events = 0) :
    Booked ((s.setSession t).goto p) (trace ++ events) := by
  refine booked.advance quiet silent same.images ?_ (fun clean => ⟨same.clean clean, ?_⟩) ?_ ?_ ?_
  · rw [none_new]; exact same.arrivals
  · have drops : t.drops = s.session.drops := same.drops
    show t.drops + p.owed = _
    omega
  · show p.owed ≤ _
    omega
  · rintro b message rfl; contradiction
  · rintro b buffer f rfl; contradiction

/-- An arrival is dropped. -/
theorem Booked.drop {s : State} {trace events : List Event} (booked : Booked s trace)
    {p : Process} (plain : p.plain = true) (owed : p.owed + 1 = s.process.owed)
    (quiet : queuedImages events = []) (silent : samples events = []) (none_new : arrived events = 0) :
    Booked ((s.setSession s.session.drop).goto p) (trace ++ events) := by
  refine booked.advance quiet silent rfl (by rw [none_new]; rfl) (fun clean => ⟨clean, ?_⟩) ?_ ?_ ?_
  · show s.session.drops + 1 + p.owed = _
    omega
  · show p.owed ≤ _
    omega
  · rintro b message rfl; contradiction
  · rintro b buffer f rfl; contradiction

/-- After an error the books need not balance. -/
theorem Booked.spoil {s next : State} {trace events : List Event} (booked : Booked s trace)
    (spoiled : next.session.error ≠ "") (plain : next.process.plain = true)
    (images : next.session.images = s.session.images)
    (arrivals : next.session.arrivals = s.session.arrivals)
    (owed : next.process.owed ≤ s.process.owed) (quiet : queuedImages events = [])
    (silent : samples events = []) (none_new : arrived events = 0) :
    Booked next (trace ++ events) := by
  refine booked.advance quiet silent images (by rw [none_new]; exact arrivals)
    (fun clean => absurd clean spoiled) (by omega) ?_ ?_
  · intro b message at_; rw [at_] at plain; contradiction
  · intro b buffer f at_; rw [at_] at plain; contradiction

/-- Writing to a frame outside the queue leaves the queued images alone. -/
theorem write_images {s : Session} {f : Fin PoolSize} (unqueued : f ∉ s.queue)
    (change : Frame → Frame) : (s.write f change).images = s.images := by
  refine List.map_congr_left fun g queued => ?_
  have other : g ≠ f := by rintro rfl; exact unqueued queued
  simp [Session.write, Function.update_of_ne other]

theorem guarded_owed {p : Process} {b : Buffer} (guarded : p.guarded = some b) : p.owed = 1 := by
  cases p <;> simp_all [Process.guarded, Process.owed]

/-- The arrival at hand is written to its frame, which is not in the queue. -/
theorem Booked.write {s : State} {trace : List Event} (pooled : Pooled s) (booked : Booked s trace)
    {t : Session} (same : s.session.SameBooks t) (queue : t.queue = s.session.queue) {b : Buffer}
    {buffer : SpaBuffer} {f : Fin PoolSize} (owed : s.process.owed = 1)
    (frame : s.process.frame = some f) :
    Booked ((s.setSession (t.write f ({ · with image := s.session.arrivals }))).goto
      (.written b buffer f)) (trace ++ []) := by
  have unqueued : f ∉ t.queue := fun queued => pooled.chosen f frame (.inl (queue ▸ queued))
  have images : (t.write f ({ · with image := s.session.arrivals })).images = s.session.images :=
    (write_images unqueued _).trans same.images
  refine booked.advance rfl rfl images same.arrivals (fun clean => ⟨same.clean clean, ?_⟩) ?_
    (by simp [State.goto]) ?_
  · have drops : t.drops = s.session.drops := same.drops
    show t.drops + 1 = s.session.drops + _ + 0
    omega
  · show 1 ≤ _ + 0
    omega
  · rintro _ _ _ ⟨⟩
    simp [State.goto, State.setSession, Session.write, same.arrivals]

/-- A push keeps a tail of the queued images, counts those it drops and puts its own last. -/
theorem push_images (s : Session) (f : Fin PoolSize) : ∃ kept, kept <:+ s.images ∧
    (s.push f).images = kept ++ [(s.pool f).image] ∧
    (s.push f).drops + kept.length = s.drops + s.queue.length := by
  by_cases full : s.queue.length = 2
  · refine ⟨s.images.tail, List.tail_suffix _, ?_, ?_⟩ <;> simp [Session.push, full, Session.images]
  · refine ⟨s.images, List.suffix_refl _, ?_, ?_⟩ <;> simp [Session.push, full, Session.images]

theorem push_rest (s : Session) (f : Fin PoolSize) :
    (s.push f).arrivals = s.arrivals ∧ (s.push f).error = s.error := by
  simp only [Session.push]
  split <;> exact ⟨rfl, rfl⟩

/-- The locked section of `consume` gives the arrival at hand to the queue. -/
theorem pushed_booked {s : State} {trace : List Event} (pooled : Pooled s)
    (booked : Booked s trace) {b : Buffer} {buffer : SpaBuffer} {f : Fin PoolSize} (now : Int)
    (at_ : s.process = .written b buffer f) :
    Booked
      ((s.setSession ((s.session.write f ({ · with ptsUs := framePts buffer now })).push f)).goto
        (.returning b)) (trace ++ [.queued (s.session.pool f).image]) := by
  have owed : s.process.owed = 1 := by rw [at_]; rfl
  have positive := booked.owed
  have image := booked.written b buffer f at_
  have unqueued : f ∉ s.session.queue := fun queued =>
    pooled.chosen f (by rw [at_]; rfl) (.inl queued)
  have silent : samples (trace ++ [.queued (s.session.pool f).image]) = samples trace := by
    rw [samples_append, show samples [.queued _] = [] from rfl, List.append_nil]
  -- The presentation time does not touch the images.
  let t := s.session.write f ({ · with ptsUs := framePts buffer now })
  have written : t.images = s.session.images := write_images unqueued _
  have stamped : (t.pool f).image = s.session.arrivals := by
    rw [← image]; simp [t, Session.write]
  obtain ⟨kept, suffix, images, dropped⟩ := push_images t f
  obtain ⟨arrivals, error⟩ := push_rest t f
  rw [written] at suffix
  rw [stamped] at images
  have length : (t.push f).queue.length = kept.length + 1 := by
    have both := congrArg List.length images
    simpa [Session.images] using both
  have sublist : (samples trace ++ kept).Sublist (samples trace ++ s.session.images) :=
    (List.Sublist.refl _).append suffix.sublist
  refine ⟨?_, Nat.zero_le _, fun clean => ?_, by simp [State.goto], by simp [State.goto], ?_, ?_, ?_,
    booked.newest.append rfl⟩
  · rw [arrived_append, ← booked.arrivals]
    exact arrivals
  · have balanced := booked.balance (error ▸ clean)
    show (t.push f).arrivals = (t.push f).drops + _ + (t.push f).queue.length + 0
    have before : t.arrivals = s.session.arrivals ∧ t.drops = s.session.drops ∧
        t.queue = s.session.queue := ⟨rfl, rfl, rfl⟩
    rw [before.2.1, before.2.2] at dropped
    rw [silent, arrivals, length, before.1]
    omega
  · show (samples _ ++ (t.push f).images).Pairwise (· < ·)
    rw [silent, images, ← List.append_assoc]
    refine List.pairwise_append.mpr ⟨booked.ordered.sublist sublist, List.pairwise_singleton _ _, ?_⟩
    intro older member newer same
    have below := (booked.bounds older (sublist.subset member)).2
    have same := List.mem_singleton.mp same
    omega
  · show ∀ i ∈ samples _ ++ (t.push f).images, 1 ≤ i ∧ i + 0 ≤ (t.push f).arrivals
    rw [silent, images, arrivals, ← List.append_assoc]
    show ∀ i ∈ _, 1 ≤ i ∧ i + 0 ≤ s.session.arrivals
    intro i member
    rcases List.mem_append.mp member with old | new
    · obtain ⟨least, below⟩ := booked.bounds i (sublist.subset old)
      exact ⟨least, by omega⟩
    · have same := List.mem_singleton.mp new
      omega
  · intro _
    show _ = (t.push f).images.getLast?
    rw [images, queuedImages_append, image]
    simp [queuedImages, Event.queuedImage]

theorem process_booked {s next : State} {trace events : List Event} (pooled : Pooled s)
    (booked : Booked s trace) (moved : ProcessMoved s next events) :
    Booked next (trace ++ events) := by
  have same := Session.SameBooks.refl s.session
  cases moved with
  | unchanged at_ =>
    exact booked.advance rfl rfl rfl rfl (fun clean => ⟨clean, rfl⟩) (Nat.le_add_right _ _)
      booked.failing booked.written
  | finished at_ =>
    have owed : s.process.owed = 0 := by rcases at_ with at_ | at_ | at_ <;> rw [at_] <;> rfl
    exact booked.pass rfl same owed.symm rfl rfl rfl
  | entered at_ => exact booked.pass rfl same (by rw [at_]; rfl) rfl rfl rfl
  | locked at_ => exact booked.pass rfl same (by rw [at_]; rfl) rfl rfl rfl
  | rechecked at_ => exact booked.pass rfl same (by rw [at_]; rfl) rfl rfl rfl
  | drained at_ => exact booked.pass rfl same (by rw [at_]; rfl) rfl rfl rfl
  | dequeued at_ =>
    refine booked.advance rfl rfl rfl rfl (fun clean => ⟨clean, ?_⟩) ?_ (by simp [State.goto])
      (by simp [State.goto])
    · rw [at_]; rfl
    · rw [at_]; exact Nat.le_refl 1
  | replaced at_ =>
    refine booked.advance rfl rfl rfl rfl (fun clean => ⟨clean, ?_⟩) ?_ (by simp [State.goto])
      (by simp [State.goto])
    · rw [at_]; rfl
    · rw [at_]; exact Nat.le_add_right 1 1
  | skipped at_ => exact booked.drop rfl (by rw [at_]; rfl) rfl rfl rfl
  | tooSmall at_ =>
    have books := (Session.log_books s.session).trans (Session.fail_books _ bufferTooSmall)
    exact booked.spoil (Session.fail_error (by decide)) rfl books.images books.arrivals
      (Nat.zero_le _) rfl rfl rfl
  | admitted at_ => exact booked.pass rfl (Session.log_books _) (by rw [at_]; rfl) rfl rfl rfl
  | @threw b message guarded text =>
    have owed := guarded_owed guarded
    refine booked.advance rfl rfl rfl rfl (fun clean => ⟨clean, ?_⟩) ?_ ?_ (by simp [State.goto])
    · rw [owed]; rfl
    · rw [owed]; exact Nat.le_refl 1
    · rintro _ _ ⟨⟩; exact text
  | chose at_ => exact booked.pass rfl same (by rw [at_]; rfl) rfl rfl rfl
  | passed at_ => exact booked.pass rfl same (by rw [at_]; rfl) rfl rfl rfl
  | starved at_ => exact booked.drop rfl (by rw [at_]; rfl) rfl rfl rfl
  | imported at_ =>
    exact booked.pass rfl (Session.setConverter_books _ _) (by rw [at_]; rfl) rfl rfl rfl
  | converted at_ =>
    exact booked.write pooled (Session.setConverter_books _ _) rfl (by rw [at_]; rfl)
      (by rw [at_]; rfl)
  | @unconverted b buffer f c processed after message at_ present done text =>
    refine booked.advance rfl rfl rfl rfl (fun clean => ⟨clean, ?_⟩) ?_ ?_ (by simp [State.goto])
    · rw [at_]; rfl
    · rw [at_]; exact Nat.le_refl 1
    · rintro _ _ ⟨⟩; exact text
  | copied at_ => exact booked.write pooled same rfl (by rw [at_]; rfl) (by rw [at_]; rfl)
  | pushed now at_ => exact pushed_booked pooled booked now at_
  | @withheld b message at_ =>
    have books := (Session.stop_books s.session).trans (Session.fail_books _ message)
    exact booked.spoil (Session.fail_error (booked.failing b message at_)) rfl books.images
      books.arrivals (Nat.zero_le _) rfl rfl rfl
  | @caught b message at_ =>
    have books := (Session.stop_books s.session).trans (Session.fail_books _ message)
    exact booked.spoil (Session.fail_error (booked.failing b message at_)) rfl books.images
      books.arrivals (Nat.zero_le _) rfl rfl rfl
  | requeued at_ => exact booked.pass rfl same (by rw [at_]; rfl) rfl rfl rfl

/-- Steps of the other threads that keep the books as they are. -/
theorem Booked.other {s next : State} {trace events : List Event} (booked : Booked s trace)
    (process : next.process = s.process) (same : s.session.SameBooks next.session)
    (image : ∀ f, (next.session.pool f).image = (s.session.pool f).image)
    (quiet : queuedImages events = []) (silent : samples events = [])
    (none_new : arrived events = 0) : Booked next (trace ++ events) := by
  refine booked.advance quiet silent same.images ?_ (fun clean => ⟨same.clean clean, ?_⟩) ?_ ?_ ?_
  · rw [none_new]; exact same.arrivals
  · rw [process, none_new, same.drops, Nat.add_zero]
  · rw [process]; omega
  · intro b message at_
    exact booked.failing b message (process ▸ at_)
  · intro b buffer f at_
    rw [image, same.arrivals]
    exact booked.written b buffer f (process ▸ at_)

theorem useMemory_image (s : Session) (refused : Option (Fin PoolSize)) (f : Fin PoolSize) :
    ((s.useMemory refused).pool f).image = (s.pool f).image := by
  cases refused with
  | none => rfl
  | some first =>
    simp only [Session.useMemory, Session.stop, Session.fail]
    by_cases before : f < first <;> split <;> simp [before, Frame.useMemory]

theorem fail_pool (s : Session) (message : String) : (s.fail message).pool = s.pool := by
  simp only [Session.fail]; split <;> rfl

theorem onStateChanged_pool (s : Session) (state : StreamState) (message : Option String) :
    (onStateChanged s state message).pool = s.pool := by
  cases state with
  | unconnected =>
    simp only [onStateChanged]
    split
    · apply fail_pool
    · rfl
  | error => apply fail_pool
  | _ => rfl

theorem onParamChanged_image (s : Session) (info : Format) (refused : Option (Fin PoolSize))
    (f : Fin PoolSize) : ((onParamChanged s info refused).pool f).image = (s.pool f).image := by
  have stopped (message : String) : (s.fail message).stop.pool = s.pool := fail_pool s message
  simp only [onParamChanged]
  split
  · rw [fail_pool]
  split
  · rw [stopped]
  split
  · split
    · rw [stopped]
    · rfl
  split
  · rfl
  · apply useMemory_image

theorem control_booked {s next : State} {trace events : List Event} {a : ControlAction}
    (booked : Booked s trace) (moved : ControlMoved s a next events) :
    Booked next (trace ++ events) := by
  have same := Session.SameBooks.refl s.session
  have removal (session : Session) (b : Buffer) : queuedImages [removedEvent session b] = [] ∧
      samples [removedEvent session b] = [] ∧ arrived [removedEvent session b] = 0 := by
    simp only [removedEvent]; split <;> exact ⟨rfl, rfl, rfl⟩
  cases moved with
  | stateChanged =>
    exact booked.other rfl (onStateChanged_books _ _ _)
      (fun f => congrArg (fun pool => (pool f).image) (onStateChanged_pool _ _ _)) rfl rfl rfl
  | paramChanged =>
    exact booked.other rfl (onParamChanged_books _ _ _) (onParamChanged_image _ _ _) rfl rfl rfl
  | adding => exact booked.other rfl same (fun _ => rfl) rfl rfl rfl
  | ignored => exact booked.other rfl same (fun _ => rfl) rfl rfl rfl
  | imported =>
    exact booked.other rfl (Session.setConverter_books _ _) (fun _ => rfl) rfl rfl rfl
  | refused => exact booked.other rfl same (fun _ => rfl) rfl rfl rfl
  | handled message =>
    exact booked.other rfl ((Session.fail_books _ message).trans (Session.stop_books _))
      (fun f => congrArg (fun pool => (pool f).image) (fail_pool s.session message)) rfl rfl rfl
  | removing => exact booked.other rfl same (fun _ => rfl) rfl rfl rfl
  | kept =>
    obtain ⟨quiet, silent, none_new⟩ := removal s.session _
    exact booked.other rfl same (fun _ => rfl) quiet silent none_new
  | removed =>
    obtain ⟨quiet, silent, none_new⟩ := removal (s.session.setConverter _) _
    exact booked.other rfl (Session.setConverter_books _ _) (fun _ => rfl) quiet silent none_new

/-- `takeLatest` returns the newest image and drops the older ones. -/
theorem took_booked {s : State} {trace : List Event} (booked : Booked s trace) {session : Session}
    {sample : Option (Fin PoolSize)} (taken : takeLatest s.session = (session, sample))
    {worker : Worker} :
    Booked ((s.setSession session).setWorker worker)
      (trace ++ sample.toList.map fun f => .delivered (session.pool f).image) := by
  by_cases empty : s.session.queue = []
  · rw [takeLatest, if_pos empty] at taken
    cases taken
    exact booked.other rfl (.refl _) (fun _ => rfl) rfl rfl rfl
  rw [takeLatest, if_neg empty] at taken
  cases taken
  obtain ⟨front, f, queue⟩ := (List.eq_nil_or_concat' s.session.queue).resolve_left empty
  have last : s.session.queue.getLast? = some f := by rw [queue]; simp
  have images : s.session.images = front.map (fun g => (s.session.pool g).image) ++
      [(s.session.pool f).image] := by simp [Session.images, queue]
  have sublist : (samples trace ++ [(s.session.pool f).image]).Sublist
      (samples trace ++ s.session.images) := by
    rw [images]
    exact (List.Sublist.refl _).append (List.sublist_append_right _ _)
  have newest : (queuedImages trace).getLast? = some (s.session.pool f).image := by
    rw [booked.last (by simp [images]), images]
    simp
  rw [last]
  refine ⟨?_, booked.owed, fun clean => ?_, booked.failing, booked.written, ?_, ?_, ?_,
    booked.newest.deliver newest⟩
  · rw [arrived_append, ← booked.arrivals]; rfl
  · have balanced := booked.balance clean
    rw [queue] at balanced
    show s.session.arrivals = s.session.drops + (s.session.queue.length - 1) + _ + 0 + s.process.owed
    rw [queue]
    simp [samples, Event.deliveredImage] at balanced ⊢
    omega
  · simpa [samples, Event.deliveredImage, Session.images, State.setSession, State.setWorker] using
      booked.ordered.sublist sublist
  · intro image member
    refine booked.bounds image (sublist.subset ?_)
    simpa [samples, Event.deliveredImage, Session.images, State.setSession, State.setWorker] using
      member
  · intro left
    simp [Session.images, State.setSession, State.setWorker] at left

theorem worker_booked {s next : State} {trace events : List Event} (booked : Booked s trace)
    (moved : WorkerMoved s next events) : Booked next (trace ++ events) := by
  cases moved with
  | took phase taken => exact took_booked booked taken
  | uploaded => exact booked.other rfl ⟨rfl, rfl, rfl, id⟩ (fun _ => rfl) rfl rfl rfl
  | _ => exact booked.other rfl (.refl _) (fun _ => rfl) rfl rfl rfl

theorem teardown_booked {s next : State} {trace events : List Event} (booked : Booked s trace)
    (moved : TeardownMoved s next events) : Booked next (trace ++ events) := by
  cases moved
  all_goals exact booked.other rfl ⟨rfl, rfl, rfl, id⟩ (fun _ => rfl) rfl rfl rfl

theorem step_booked {s next : State} {trace events : List Event} {a : Action} (pooled : Pooled s)
    (booked : Booked s trace) (taken : step s a = some (next, events)) :
    Booked next (trace ++ events) := by
  cases a with
  | process a => exact process_booked pooled booked (processStep_moved taken)
  | control a => exact control_booked booked (controlStep_moved taken)
  | worker a => exact worker_booked booked (workerStep_moved taken)
  | teardown => exact teardown_booked booked (teardownStep_moved taken)
  | gpu finished =>
    cases taken
    exact booked.other rfl ⟨rfl, rfl, rfl, id⟩ (fun _ => rfl) rfl rfl rfl

theorem reachable_booked {intel : Bool} {memory : Memory} {actions : List Action} {s : State}
    {trace : List Event}
    (run : Machine.exec step actions (.initial intel memory) = some (s, trace)) :
    Pooled s ∧ Booked s trace := by
  have kept := Machine.history (fun s trace => Invariant s ∧ Pooled s ∧ Booked s trace)
    ⟨initial_invariant intel memory, initial_pooled intel memory, initial_booked intel memory⟩
    (by
      rintro s trace a next events ⟨valid, pooled, booked⟩ taken
      exact ⟨step_invariant valid taken, (step_pooled valid pooled taken).1,
        step_booked pooled booked taken⟩) run
  exact kept.2

/-- What is returned is a part of the arrivals, counted from 1, in their order. -/
theorem Booked.samples_sublist {s : State} {trace : List Event} (booked : Booked s trace) :
    (samples trace).Sublist (List.range' 1 s.session.arrivals) := by
  have ordered := (List.pairwise_append.mp booked.ordered).1
  have distinct : (samples trace).Nodup := ordered.imp Nat.ne_of_lt
  refine List.sublist_of_subperm_of_pairwise (distinct.subperm fun image member => ?_) ordered
    List.pairwise_lt_range'
  obtain ⟨least, below⟩ := booked.bounds image (List.mem_append_left _ member)
  exact List.mem_range'_1.mpr ⟨least, by omega⟩

end Quest.Capture
