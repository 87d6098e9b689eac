import Quest.CaptureInvariant

/-! The frame that `consume` writes to. What a format notification makes of the pool decides
whether the chosen frame has the pixels for the copy, where it is not an exit of
`onParamChanged` that leaves the pool alone and lets process callbacks go on. -/
namespace Quest.Capture

/-- Callbacks of the control loop do not fall into a process callback. -/
def Sequential (s : State) : Action → Prop
  | .control _ => s.process = .idle
  | _ => True

instance (s : State) (a : Action) : Decidable (Sequential s a) := by
  unfold Sequential; split <;> infer_instance

/-- `onParamChanged` takes none of its exits: the notification is supported, allowed, and
comes before the memory type has been logged. -/
def Session.Negotiates (s : Session) (info : Format) : Prop :=
  info.Supported ∧ ¬(s.requireDma = true ∧ (s.converter.isSome && info.hasModifier) = false) ∧
    s.logged = false

instance (s : Session) (info : Format) : Decidable (s.Negotiates info) := by
  unfold Session.Negotiates; infer_instance

def Negotiation (s : State) : Action → Prop
  | .control (.paramChanged info _) => s.session.Negotiates info
  | _ => False

instance (s : State) (a : Action) : Decidable (Negotiation s a) := by
  unfold Negotiation; split <;> infer_instance

def Copying (s : State) (f : Fin PoolSize) : Prop :=
  s.session.dma = false ∧ ∃ b buffer, s.process = .chosen b buffer f

def Session.Current (s : Session) (b : Buffer) : Prop :=
  ∃ c i, s.converter = some c ∧ c.imports b = some i ∧ i.modifier = s.modifier ∧ i.alpha = s.alpha

/-- The chosen frame is one that the copy or the conversion can write to. -/
structure TargetFits (s : State) : Prop where
  copy : ∀ f, Copying s f → (s.session.pool f).pixels = Width * 4 * Height
  convert : ∀ b buffer f, s.process = .imported b buffer f →
    (s.session.pool f).hardware = true ∧ s.session.Current b

structure Session.SameTarget (s t : Session) : Prop where
  dma : t.dma = s.dma
  pixels : ∀ f, (t.pool f).pixels = (s.pool f).pixels
  stopping : s.stopping = true → t.stopping = true

namespace Session

theorem SameTarget.refl (s : Session) : SameTarget s s := ⟨rfl, fun _ => rfl, id⟩

theorem SameTarget.trans {s t u : Session} (first : SameTarget s t) (second : SameTarget t u) :
    SameTarget s u :=
  ⟨second.dma.trans first.dma, fun f => (second.pixels f).trans (first.pixels f),
    fun stopping => second.stopping (first.stopping stopping)⟩

theorem fail_target (s : Session) (message : String) : SameTarget s (s.fail message) := by
  simp only [fail]
  split <;> exact ⟨rfl, fun _ => rfl, id⟩

theorem stop_target (s : Session) : SameTarget s s.stop := ⟨rfl, fun _ => rfl, fun _ => rfl⟩

theorem log_target (s : Session) : SameTarget s s.log := by
  simp only [log]
  split <;> exact ⟨rfl, fun _ => rfl, id⟩

theorem write_target (s : Session) (f : Fin PoolSize) {change : Frame → Frame}
    (kept : (change (s.pool f)).pixels = (s.pool f).pixels) : SameTarget s (s.write f change) := by
  refine ⟨rfl, fun other => ?_, id⟩
  by_cases same : other = f
  · subst same
    simpa [write] using kept
  · simp [write, same]

theorem setConverter_target (s : Session) (c : Converter (Fin PoolSize)) :
    SameTarget s (s.setConverter c) := ⟨rfl, fun _ => rfl, id⟩

theorem push_target (s : Session) (f : Fin PoolSize) : SameTarget s (s.push f) := by
  simp only [push]
  split <;> exact ⟨rfl, fun _ => rfl, id⟩

theorem fail_stop_target (s : Session) (message : String) : SameTarget s (s.fail message).stop :=
  (s.fail_target message).trans (stop_target _)

end Session

theorem process_target {s next : State} {events : List Event} (moved : ProcessMoved s next events) :
    s.session.SameTarget next.session := by
  cases moved with
  | tooSmall => exact s.session.log_target.trans (Session.fail_target _ _)
  | admitted => exact s.session.log_target
  | converted =>
    dsimp only [State.goto, State.setSession]
    exact (s.session.setConverter_target _).trans (Session.write_target _ _ rfl)
  | copied =>
    dsimp only [State.goto, State.setSession]
    exact Session.write_target _ _ rfl
  | pushed =>
    dsimp only [State.goto, State.setSession]
    exact (Session.write_target _ _ rfl).trans (Session.push_target _ _)
  | withheld => exact s.session.stop_target.trans (Session.fail_target _ _)
  | caught => exact s.session.stop_target.trans (Session.fail_target _ _)
  | _ => exact ⟨rfl, fun _ => rfl, id⟩

theorem onStateChanged_target (s : Session) (state : StreamState) (message : Option String) :
    s.SameTarget (onStateChanged s state message) := by
  cases state with
  | streaming => exact ⟨rfl, fun _ => rfl, id⟩
  | error => exact s.fail_target _
  | unconnected =>
    simp only [onStateChanged]
    split
    · exact s.fail_target _
    · exact .refl s
  | other => exact .refl s

/-- What a notification makes of the pool: nothing at an exit, else frames for the memory it
has negotiated, unless the allocation fails. -/
theorem onParamChanged_target (s : Session) (info : Format) (refused : Option (Fin PoolSize)) :
    ¬s.Negotiates info ∧ s.SameTarget (onParamChanged s info refused) ∨
      s.Negotiates info ∧ ((onParamChanged s info refused).stopping = true ∨
        ((onParamChanged s info refused).dma = false →
          ∀ f, ((onParamChanged s info refused).pool f).pixels = Width * 4 * Height)) := by
  simp only [onParamChanged]
  split
  next unsupported => exact .inl ⟨fun supported => unsupported supported.1, s.fail_target _⟩
  next supported =>
    split
    next barred => exact .inl ⟨fun allowed => allowed.2.1 barred, s.fail_stop_target _⟩
    next allowed =>
      split
      next logged =>
        refine .inl ⟨fun fresh => by simp [fresh.2.2] at logged, ?_⟩
        split
        · exact s.fail_stop_target _
        · exact .refl s
      next fresh =>
        refine .inr ⟨⟨not_not.mp supported, allowed, Bool.eq_false_iff.mpr fresh⟩, ?_⟩
        split
        next dma => exact .inr fun cpu => absurd (cpu.symm.trans dma) (by decide)
        next cpu =>
          cases refused with
          | none => exact .inr fun _ _ => rfl
          | some first => exact .inl rfl

/-- What the worker, the destructor and the GPU leave to the data thread. -/
structure Bystander (s next : State) : Prop where
  process : next.process = s.process
  target : s.session.SameTarget next.session
  current : ∀ b, s.session.Current b → next.session.Current b

theorem Session.Current.mapConverter {s : Session} {b : Buffer} (current : s.Current b)
    {change : Converter (Fin PoolSize) → Converter (Fin PoolSize)}
    (kept : ∀ c, (change c).imports = c.imports) :
    Current { s with converter := s.converter.map change } b := by
  obtain ⟨c, i, present, imported, same⟩ := current
  exact ⟨change c, i, by simp [present], by rw [kept, imported], same⟩

theorem worker_bystander {s next : State} {events : List Event} (moved : WorkerMoved s next events) :
    Bystander s next := by
  cases moved with
  | took _ taken =>
    simp only [takeLatest] at taken
    split at taken
    all_goals
      obtain ⟨rfl, _⟩ := Prod.mk.inj taken
      exact ⟨rfl, ⟨rfl, fun _ => rfl, id⟩, fun _ => id⟩
  | uploaded begun =>
    exact ⟨rfl, ⟨rfl, fun _ => rfl, id⟩, fun _ current =>
      current.mapConverter fun c => c.upload_imports begun⟩
  | _ => exact ⟨rfl, .refl _, fun _ => id⟩

theorem teardown_bystander {s next : State} {events : List Event}
    (moved : TeardownMoved s next events) : Bystander s next := by
  cases moved with
  | stopped => exact ⟨rfl, s.session.stop_target, fun _ => id⟩
  | settled =>
    exact ⟨rfl, ⟨rfl, fun _ => rfl, id⟩, fun _ current =>
      current.mapConverter fun c => c.settle_imports⟩
  | _ => exact ⟨rfl, .refl _, fun _ => id⟩

theorem gpu_bystander (s : State) (finished : Conversion (Fin PoolSize) → Bool) :
    Bystander s (gpuStep s finished) :=
  ⟨rfl, ⟨rfl, fun _ => rfl, id⟩, fun _ current => current.mapConverter fun _ => rfl⟩

/-- A step is the data thread's or the control loop's, or leaves both what they have. -/
theorem step_bystander {s next : State} {a : Action} {events : List Event}
    (taken : step s a = some (next, events)) :
    (∃ p, a = .process p ∧ ProcessMoved s next events) ∨
      (∃ c, a = .control c ∧ ControlMoved s c next events) ∨
        ¬Negotiation s a ∧ Bystander s next := by
  cases a with
  | process p => exact .inl ⟨p, rfl, processStep_moved taken⟩
  | control c => exact .inr (.inl ⟨c, rfl, controlStep_moved taken⟩)
  | worker w => exact .inr (.inr ⟨id, worker_bystander (workerStep_moved taken)⟩)
  | teardown => exact .inr (.inr ⟨id, teardown_bystander (teardownStep_moved taken)⟩)
  | gpu finished =>
    cases taken
    exact .inr (.inr ⟨id, gpu_bystander s finished⟩)

/-- No process callback gets past its checks any more. -/
def Broken (s : State) : Prop :=
  s.session.stopping = true ∧ (s.process = .idle ∨ s.process = .entered ∨ s.process = .locked)

/-- What the frames offer, before and after the first notification that has been negotiated. -/
structure Provided (negotiated : Prop) (s : State) : Prop where
  bare : s.session.converter.isSome = true → ¬negotiated →
    s.session.dma = false ∧ ∀ f, (s.session.pool f).pixels = 0
  sized : s.session.converter.isSome = false ∨ negotiated → s.session.dma = false →
    ∀ f, (s.session.pool f).pixels = Width * 4 * Height

theorem initial_provided (intel : Bool) (memory : Memory) :
    Provided False (.initial intel memory) := by
  cases converting : intel && memory != .cpu with
  | true => exact ⟨by simp [State.initial, converting], by simp [State.initial, converting]⟩
  | false => exact ⟨by simp [State.initial, converting], by simp [State.initial, converting]⟩

theorem Provided.keep {negotiated : Prop} {s next : State} (provided : Provided negotiated s)
    (target : s.session.SameTarget next.session)
    (converting : next.session.converter.isSome = s.session.converter.isSome) :
    Provided negotiated next where
  bare converter fresh := by
    obtain ⟨dma, pixels⟩ := provided.bare (converting ▸ converter) fresh
    exact ⟨target.dma.trans dma, fun f => (target.pixels f).trans (pixels f)⟩
  sized ready dma f := by
    refine (target.pixels f).trans (provided.sized ?_ (target.dma.symm.trans dma) f)
    exact converting ▸ ready

theorem process_broken {s next : State} {events : List Event} (broken : Broken s)
    (moved : ProcessMoved s next events) : Broken next := by
  refine ⟨(process_target moved).stopping broken.1, ?_⟩
  obtain ⟨stopping, at_⟩ := broken
  cases moved with
  | unchanged idle => exact .inl idle
  | finished => exact .inl rfl
  | entered _ going => simp [stopping] at going
  | locked => exact .inr (.inr rfl)
  | rechecked _ going => simp [stopping] at going
  | threw guarded =>
    rcases at_ with at_ | at_ | at_
    all_goals simp [at_, Process.guarded] at guarded
  | _ => simp_all

theorem control_process {s next : State} {a : ControlAction} {events : List Event}
    (moved : ControlMoved s a next events) : next.process = s.process := by
  cases moved <;> rfl

theorem Bystander.provided {negotiated : Prop} {s next : State} (bystander : Bystander s next)
    (converting : next.session.converter.isSome = s.session.converter.isSome)
    (provided : Broken s ∨ Provided negotiated s) : Broken next ∨ Provided negotiated next := by
  refine provided.imp (fun broken => ?_) fun provided => provided.keep bystander.target converting
  exact ⟨bystander.target.stopping broken.1, bystander.process ▸ broken.2⟩

theorem control_target {s next : State} {a : ControlAction} {events : List Event}
    (moved : ControlMoved s a next events) :
    s.session.SameTarget next.session ∧ ¬Negotiation s (.control a) ∨
      Negotiation s (.control a) ∧ (next.session.stopping = true ∨ (next.session.dma = false →
        ∀ f, (next.session.pool f).pixels = Width * 4 * Height)) := by
  cases moved with
  | stateChanged => exact .inl ⟨onStateChanged_target _ _ _, id⟩
  | @paramChanged info refused =>
    exact (onParamChanged_target s.session info refused).imp And.symm id
  | handled => exact .inl ⟨Session.fail_stop_target _ _, id⟩
  | imported => exact .inl ⟨Session.setConverter_target _ _, id⟩
  | removed => exact .inl ⟨Session.setConverter_target _ _, id⟩
  | _ => exact .inl ⟨⟨rfl, fun _ => rfl, id⟩, id⟩

theorem control_provided {negotiated : Prop} {s next : State} {a : ControlAction}
    {events : List Event} (idle : s.process = .idle)
    (provided : Broken s ∨ Provided negotiated s) (taken : step s (.control a) = some (next, events)) :
    Broken next ∨ Provided (negotiated ∨ Negotiation s (.control a)) next := by
  have moved := controlStep_moved taken
  have stays : next.process = .idle := (control_process moved).trans idle
  rcases control_target moved with ⟨target, silent⟩ | ⟨now, stopping | sized⟩
  · rw [or_iff_left silent]
    refine provided.imp (fun broken => ?_) fun provided => provided.keep target (step_converting taken)
    exact ⟨target.stopping broken.1, .inl stays⟩
  · exact .inl ⟨stopping, .inl stays⟩
  · exact .inr ⟨fun _ fresh => absurd (.inr now) fresh, fun _ => sized⟩

theorem step_provided {negotiated : Prop} {s next : State} {a : Action} {events : List Event}
    (provided : Broken s ∨ Provided negotiated s) (sequential : Sequential s a)
    (taken : step s a = some (next, events)) :
    Broken next ∨ Provided (negotiated ∨ Negotiation s a) next := by
  have converting := step_converting taken
  rcases step_bystander taken with ⟨p, rfl, moved⟩ | ⟨c, rfl, _⟩ | ⟨silent, bystander⟩
  · simp only [Negotiation, or_false]
    exact provided.imp (fun broken => process_broken broken moved) fun provided =>
      provided.keep (process_target moved) converting
  · exact control_provided sequential provided taken
  · rw [or_iff_left silent]
    exact bystander.provided converting provided

/-- Importing again with another modifier or alpha is an error. -/
theorem importBuffer_current {c next : Converter (Fin PoolSize)} {b : Buffer} {buffer : SpaBuffer}
    {modifier : UInt64} {alpha : Bool} {size : Int} {created : Except String Surface}
    (imported : c.importBuffer b buffer modifier alpha size created = .ok next) :
    ∃ i, next.imports b = some i ∧ i.modifier = modifier ∧ i.alpha = alpha := by
  obtain ⟨d, chunk, i, _, same, ⟨present, rfl⟩ | ⟨_, _, rfl⟩⟩ := Converter.importBuffer_cases imported
  · exact ⟨i, present, same.modifier, same.alpha⟩
  · exact ⟨i, Function.update_self .., same.modifier, same.alpha⟩

def Importing (s : State) : Prop :=
  ∀ b buffer f, s.process = .imported b buffer f → s.session.Current b

theorem Bystander.importing {s next : State} (bystander : Bystander s next)
    (importing : Importing s) : Importing next := by
  intro b buffer f at_
  exact bystander.current b (importing b buffer f (bystander.process ▸ at_))

theorem step_importing {s next : State} {a : Action} {events : List Event}
    (importing : Importing s) (sequential : Sequential s a)
    (taken : step s a = some (next, events)) : Importing next := by
  rcases step_bystander taken with ⟨p, rfl, moved⟩ | ⟨c, rfl, moved⟩ | ⟨_, bystander⟩
  · intro b buffer f at_
    cases moved with
    | imported _ _ _ _ done =>
      obtain ⟨rfl, rfl, rfl⟩ := Process.imported.inj at_
      obtain ⟨i, present, same⟩ := importBuffer_current done
      exact ⟨_, i, rfl, present, same⟩
    | unchanged idle => simp [idle] at at_
    | _ => contradiction
  · intro b buffer f at_
    have idle : s.process = .idle := sequential
    simp [control_process moved, idle] at at_
  · exact bystander.importing importing

/-- In every sequential run the target fits, unless a session with a converter comes to a copy
before any notification has been negotiated. -/
theorem copy_target_fits {intel : Bool} {memory : Memory} {actions : List Action} {s : State}
    {trace : List Event}
    (sequential : Machine.Along step Sequential actions (.initial intel memory))
    (run : Machine.exec step actions (.initial intel memory) = some (s, trace)) :
    TargetFits s ↔ ((∃ f, Copying s f) → s.session.converter = none ∨
      Machine.Once step Negotiation actions (.initial intel memory)) := by
  have valid := reachable_invariant run
  have importing := Machine.guarded_invariant Importing
    (fun _ _ _ _ importing met taken => step_importing importing met taken)
    (by simp [Importing, State.initial]) sequential run
  have provided := Machine.once_invariant (fun seen s => Broken s ∨ Provided seen s)
    (fun _ _ _ _ _ provided met taken => step_provided provided met taken) False
    (.inr (initial_provided intel memory)) sequential run
  rw [false_or] at provided
  have ready {f : Fin PoolSize} (copying : Copying s f) :
      Provided (Machine.Once step Negotiation actions (.initial intel memory)) s := by
    obtain ⟨_, b, buffer, at_⟩ := copying
    refine provided.resolve_left fun broken => ?_
    rcases broken.2 with idle | entered | locked
    all_goals simp_all
  constructor
  · rintro fits ⟨f, copying⟩
    by_contra! unready
    obtain ⟨converter, fresh⟩ := unready
    obtain ⟨_, pixels⟩ := (ready copying).bare (Option.isSome_iff_ne_none.mpr converter) fresh
    have empty := (pixels f).symm.trans (fits.copy f copying)
    simp [Width, Height] at empty
  · intro met
    refine ⟨fun f copying => ?_, fun b buffer f at_ => ⟨?_, importing b buffer f at_⟩⟩
    · refine (ready copying).sized ?_ copying.1 f
      exact (met ⟨f, copying⟩).imp (fun without => by rw [without]; rfl) id
    · exact valid.hardware (valid.importing b buffer f at_) f (.inr (.inr (by rw [at_]; rfl)))

def mappedScreen : SpaBuffer :=
  ⟨[⟨.memFd, 9, true, 14745600, some ⟨0, 14745600, 10240, false⟩⟩], some 16000000⟩

def smallFormat : Format := ⟨true, 1280, 720, .bgrx, false, 0⟩

def cpuFormat : Format := ⟨true, 2560, 1440, .bgrx, false, 0⟩

/-- A notification, and a callback that gets `mappedScreen` and chooses its frame. -/
def reachCopy (info : Format) : List Action := [
  .control (.paramChanged info none), .process .enter, .process .lock, .process .recheck,
  .process (.dequeue (some 7)), .process (.dequeue none), .process (.consume mappedScreen),
  .process .scan]

theorem copy_target_fits_negotiated :
    ∃ s trace, Machine.exec step (reachCopy cpuFormat) (.initial true .auto) = some (s, trace) ∧
      Copying s 0 ∧ TargetFits s := by
  have reached : (Machine.exec step (reachCopy cpuFormat) (.initial true .auto)).map
      (fun r => (r.1.process, r.1.session.dma)) = some (.chosen 7 mappedScreen 0, false) := by
    decide +kernel
  obtain ⟨⟨s, trace⟩, run, result⟩ := Option.map_eq_some_iff.mp reached
  obtain ⟨at_, cpu⟩ := Prod.mk.inj result
  have sequential : Machine.Along step Sequential (reachCopy cpuFormat) (.initial true .auto) := by
    decide +kernel
  refine ⟨s, trace, run, ⟨cpu, 7, mappedScreen, at_⟩, (copy_target_fits sequential run).mpr ?_⟩
  intro _
  exact .inr (.inl (by decide))

/-- The only notification is not supported, and the next buffer is copied into a frame
without pixels. -/
theorem copy_into_bare_frame :
    ¬∀ (intel : Bool) (memory : Memory) (info : Format) (refused : Option (Fin PoolSize))
        (later : List Action) (s : State) (trace : List Event),
      Machine.Along step Sequential (.control (.paramChanged info refused) :: later)
          (.initial intel memory) →
        Machine.exec step (.control (.paramChanged info refused) :: later)
          (.initial intel memory) = some (s, trace) → TargetFits s := by
  intro fits
  have reached : (Machine.exec step (reachCopy smallFormat) (.initial true .auto)).map
      (fun r => (r.1.process, r.1.session.dma, (r.1.session.pool 0).pixels)) =
        some (.chosen 7 mappedScreen 0, false, 0) := by
    decide +kernel
  obtain ⟨⟨s, trace⟩, run, result⟩ := Option.map_eq_some_iff.mp reached
  obtain ⟨at_, rest⟩ := Prod.mk.inj result
  obtain ⟨cpu, pixels⟩ := Prod.mk.inj rest
  have sequential : Machine.Along step Sequential (reachCopy smallFormat) (.initial true .auto) := by
    decide +kernel
  have sized := (fits true .auto smallFormat none _ s trace sequential run).copy 0
    ⟨cpu, 7, mappedScreen, at_⟩
  exact absurd (pixels.symm.trans sized) (by decide)

end Quest.Capture
