import Quest.Capture

/-! What each step of a capture session can do, once for each of its threads. -/
namespace Quest.Capture

inductive ProcessMoved (s : State) : State → List Event → Prop where
  | unchanged : s.process = .idle → ProcessMoved s s [.returned]
  | finished : s.process = .entered ∨ s.process = .locked ∨ s.process = .draining none →
      ProcessMoved s (s.goto .idle) [.returned]
  | entered : s.process = .idle → s.session.stopping = false → ProcessMoved s (s.goto .entered) []
  | locked : s.process = .entered →
      s.teardown = .alive ∨ s.teardown = .stopping ∨ s.teardown = .loopLocked →
      ProcessMoved s (s.goto .locked) []
  | rechecked : s.process = .locked → s.session.stopping = false →
      ProcessMoved s (s.goto (.draining none)) []
  | drained : s.process = .draining (some b) → ProcessMoved s (s.goto (.consuming b)) []
  | dequeued : s.process = .draining none → s.available next = true →
      ProcessMoved s
        ((s.setSession { s.session with arrivals := s.session.arrivals + 1 }).goto
          (.draining (some next))) [.dequeued next]
  | replaced : s.process = .draining (some b) → s.available next = true →
      ProcessMoved s
        ((s.setSession (Session.drop { s.session with arrivals := s.session.arrivals + 1 })).goto
          (.draining (some next))) [.dequeued next, .requeued b]
  | skipped : s.process = .consuming b →
      ProcessMoved s ((s.setSession s.session.drop).goto (.returning b)) []
  | tooSmall : s.process = .consuming b → s.session.dma = false →
      ProcessMoved s
        ((s.setSession (s.session.log.fail bufferTooSmall)).goto (.returning b)) []
  | admitted : s.process = .consuming b →
      ProcessMoved s ((s.setSession s.session.log).goto (.scanning b buffer 0)) []
  | threw : s.process.guarded = some b → message ≠ "" →
      ProcessMoved s (s.goto (.failing b message)) []
  | chose : s.process = .scanning b buffer candidate → (inside : candidate < PoolSize) →
      s.free ⟨candidate, inside⟩ = true →
      ProcessMoved s (s.goto (.chosen b buffer ⟨candidate, inside⟩)) []
  | passed : s.process = .scanning b buffer candidate → (inside : candidate < PoolSize) →
      s.free ⟨candidate, inside⟩ = false →
      ProcessMoved s (s.goto (.scanning b buffer (candidate + 1))) []
  | starved : s.process = .scanning b buffer candidate → PoolSize ≤ candidate →
      ProcessMoved s ((s.setSession s.session.drop).goto (.returning b)) [.starved]
  | imported : s.process = .chosen b buffer f → s.session.dma = true →
      (s.session.pool f).hardware = true → s.session.converter = some c →
      c.importBuffer b buffer s.session.modifier s.session.alpha size created = .ok after →
      ProcessMoved s ((s.setSession (s.session.setConverter after)).goto (.imported b buffer f)) []
  | converted : s.process = .imported b buffer f → s.session.converter = some c →
      c.convert b f processed = (after, none) →
      ProcessMoved s
        ((s.setSession ((s.session.setConverter after).write f
          ({ · with image := s.session.arrivals }))).goto (.written b buffer f)) []
  | unconverted : s.process = .imported b buffer f → s.session.converter = some c →
      c.convert b f processed = (after, some message) → message ≠ "" →
      ProcessMoved s ((s.setSession (s.session.setConverter after)).goto (.failing b message)) []
  | copied : s.process = .chosen b buffer f → s.session.dma = false →
      ProcessMoved s
        ((s.setSession (s.session.write f ({ · with image := s.session.arrivals }))).goto
          (.written b buffer f)) []
  | pushed (now : Int) : s.process = .written b buffer f →
      ProcessMoved s
        ((s.setSession ((s.session.write f ({ · with ptsUs := framePts buffer now })).push f)).goto
          (.returning b)) [.queued (s.session.pool f).image]
  | withheld : s.process = .failing b message → s.session.dma = true →
      ProcessMoved s
        ({ s.setSession (s.session.stop.fail message) with withheld := some b }.goto .idle)
        [.caught b true, .withheld b, .returned]
  | caught : s.process = .failing b message → s.session.dma = false →
      ProcessMoved s ((s.setSession (s.session.stop.fail message)).goto (.returning b))
        [.caught b false]
  | requeued : s.process = .returning b → ProcessMoved s (s.goto .idle) [.requeued b, .returned]

theorem ProcessMoved.of_result {s next : State} {events : List Event} {t : State × List Event}
    (moved : ProcessMoved s t.1 t.2) (result : some t = some (next, events)) :
    ProcessMoved s next events := by
  cases result; exact moved

theorem goto_same {s : State} {process : Process} (at_ : s.process = process) :
    s.goto process = s := by
  cases s; subst at_; rfl

theorem examine_threw {dma : Bool} {buffer : SpaBuffer} {message : String}
    (threw : examine dma buffer = .threw message) : message ≠ "" := by
  have text : message = memoryUnexpected := by
    simp only [examine] at threw
    split at threw
    · contradiction
    split at threw
    · contradiction
    split at threw
    · contradiction
    split at threw
    · exact (Examined.threw.inj threw).symm
    · split at threw <;> contradiction
  rw [text]
  decide

theorem consume_moved {s : State} {b : Buffer} (buffer : SpaBuffer)
    (at_ : s.process = .consuming b) : ProcessMoved s (consume s b buffer) [] := by
  unfold consume
  split
  · exact .skipped at_
  · exact .threw (by rw [at_]; rfl) (examine_threw ‹_›)
  · split
    · exact .tooSmall at_ (And.left ‹_›)
    · exact .admitted at_

theorem handle_moved {s : State} {b : Buffer} {message : String}
    (at_ : s.process = .failing b message) :
    ProcessMoved s (handle s b message).1 (handle s b message).2 := by
  unfold handle
  split
  · exact .withheld at_ ‹_›
  · exact .caught at_ (Bool.eq_false_iff.mpr ‹_›)

theorem import_moved {s next : State} {b : Buffer} {buffer : SpaBuffer} {f : Fin PoolSize}
    {size : Int} {created : Except String Surface} {events : List Event}
    (at_ : s.process = .chosen b buffer f)
    (taken : importStep s b buffer f size created = some (next, events)) :
    ProcessMoved s next events := by
  unfold importStep at taken
  split at taken
  · contradiction
  rename_i dma
  have dma := Bool.not_eq_false _ ▸ dma
  split at taken
  · exact .of_result (.threw (by rw [at_]; rfl) (by decide)) taken
  rename_i hardware
  split at taken
  · contradiction
  · split at taken
    · exact .of_result (.threw (by rw [at_]; rfl) (Converter.importBuffer_error ‹_›)) taken
    · exact .of_result (.imported at_ dma (by simpa using hardware) ‹_› ‹_›) taken

theorem processStep_moved {s next : State} {a : ProcessAction} {events : List Event}
    (taken : processStep s a = some (next, events)) : ProcessMoved s next events := by
  unfold processStep at taken
  split at taken
  next at_ =>
    split at taken
    · contradiction
    split at taken
    · have unchanged : ProcessMoved s (s.goto .idle) [.returned] := by
        rw [goto_same at_]
        exact .unchanged at_
      exact .of_result unchanged taken
    · exact .of_result (.entered at_ (Bool.eq_false_iff.mpr ‹_›)) taken
  next at_ =>
    split at taken
    next alive => exact .of_result (.locked at_ (.inl alive)) taken
    next stopping => exact .of_result (.locked at_ (.inr (.inl stopping))) taken
    next loopLocked => exact .of_result (.locked at_ (.inr (.inr loopLocked))) taken
    all_goals exact .of_result (.finished (.inl at_)) taken
  next at_ =>
    split at taken
    · exact .of_result (.finished (.inr (.inl at_))) taken
    · exact .of_result (.rechecked at_ (Bool.eq_false_iff.mpr ‹_›)) taken
  next at_ => exact .of_result (.finished (.inr (.inr at_))) taken
  next at_ => exact .of_result (.drained at_) taken
  next at_ =>
    split at taken
    · split at taken
      · exact .of_result (.dequeued at_ ‹_›) taken
      · exact .of_result (.replaced at_ ‹_›) taken
    · contradiction
  next at_ => exact .of_result (consume_moved _ at_) taken
  next at_ =>
    split at taken
    · split at taken
      · exact .of_result (.chose at_ ‹_› ‹_›) taken
      · exact .of_result (.passed at_ ‹_› (Bool.eq_false_iff.mpr ‹_›)) taken
    · exact .of_result (.starved at_ (Nat.not_lt.mp ‹_›)) taken
  next at_ => exact import_moved at_ taken
  next at_ =>
    split at taken
    · contradiction
    · split at taken
      · exact .of_result (.converted at_ ‹_› ‹_›) taken
      · exact .of_result (.unconverted at_ ‹_› ‹_› (Converter.convert_error ‹_›)) taken
  next at_ =>
    split at taken
    · contradiction
    · exact .of_result (.copied at_ (Bool.eq_false_iff.mpr ‹_›)) taken
  next at_ => exact .of_result (.pushed _ at_) taken
  next =>
    split at taken
    · contradiction
    · obtain ⟨b, guarded, result⟩ := Option.map_eq_some_iff.mp taken
      exact .of_result (.threw guarded ‹_›) (congrArg some result)
  next at_ => exact .of_result (handle_moved at_) taken
  next at_ => exact .of_result (.requeued at_) taken
  next => contradiction

inductive ControlMoved (s : State) : ControlAction → State → List Event → Prop where
  | stateChanged : ControlMoved s (.stateChanged state message)
      (s.setSession (onStateChanged s.session state message)) []
  | paramChanged : ControlMoved s (.paramChanged info refused)
      (s.setSession (onParamChanged s.session info refused)) []
  | adding : Importable s.session buffer →
      ControlMoved s (.addBuffer b buffer) { s with control := .adding b buffer } []
  | ignored : ControlMoved s (.addBuffer b buffer) s []
  | imported : s.control = .adding b buffer → s.session.converter = some c →
      c.importBuffer b buffer s.session.modifier s.session.alpha size created = .ok after →
      ControlMoved s (.importBuffer size created)
        { s.setSession (s.session.setConverter after) with control := .idle } []
  | refused (message : String) :
      ControlMoved s (.importBuffer size created) { s with control := .failing message } []
  | handled (message : String) : ControlMoved s .handle
      { s.setSession (s.session.fail message).stop with control := .idle } []
  | removing : s.session.converter = some c → s.session.stopping = false →
      ControlMoved s (.removeBuffer b) { s with control := .removing b } []
  | kept : s.session.converter = none ∨ s.session.stopping = true →
      ControlMoved s (.removeBuffer b) s [removedEvent s.session b]
  | removed : s.session.converter = some c →
      ControlMoved s .remove
        { s.setSession (s.session.setConverter (c.remove b)) with control := .idle }
        [removedEvent (s.session.setConverter (c.remove b)) b]

theorem ControlMoved.of_result {s next : State} {a : ControlAction} {events : List Event}
    {t : State × List Event} (moved : ControlMoved s a t.1 t.2)
    (result : some t = some (next, events)) : ControlMoved s a next events := by
  cases result; exact moved

theorem controlStep_moved {s next : State} {a : ControlAction} {events : List Event}
    (taken : controlStep s a = some (next, events)) : ControlMoved s a next events := by
  unfold controlStep at taken
  split at taken
  next at_ =>
    split at taken
    · contradiction
    · split at taken
      · exact .of_result (.refused _) taken
      · exact .of_result (.imported at_ ‹_› ‹_›) taken
  next => exact .of_result (.handled _) taken
  next =>
    split at taken
    · contradiction
    · exact .of_result (.removed ‹_›) taken
  next =>
    split at taken
    · split at taken
      · exact .of_result .stateChanged taken
      · exact .of_result .paramChanged taken
      · split at taken
        · exact .of_result (.adding ‹_›) taken
        · exact .of_result .ignored taken
      · split at taken
        next removable =>
          obtain ⟨c, present⟩ := Option.isSome_iff_exists.mp removable.1
          exact .of_result (.removing present removable.2) taken
        next barred =>
          refine .of_result (.kept ?_) taken
          rcases Option.eq_none_or_eq_some s.session.converter with missing | ⟨c, present⟩
          · exact .inl missing
          · exact .inr (by simpa [present] using barred)
      · contradiction
    · contradiction
  next => contradiction

inductive WorkerMoved (s : State) : State → List Event → Prop where
  | checked : s.worker.phase = .head → s.session.error = "" →
      WorkerMoved s (s.setWorker { s.worker with phase := .waiting }) []
  | left : s.worker.phase ≠ .waiting →
      WorkerMoved s (s.setWorker { s.worker with phase := .left }) []
  | took : s.worker.phase = .waiting → takeLatest s.session = (session, sample) →
      WorkerMoved s
        ((s.setSession session).setWorker { s.worker with sample := sample, phase := .taken })
        (sample.toList.map fun f => .delivered (session.pool f).image)
  | rested : s.worker.phase = .taken → s.worker.sample = none →
      WorkerMoved s (s.setWorker { s.worker with phase := .head }) []
  | mapped : s.worker.phase = .taken →
      s.worker.sample = some f ∨ s.worker.sample = none ∧ s.worker.lastSample = some f →
      WorkerMoved s (s.setWorker { s.worker with mapped := some f, phase := .referencing }) []
  | referenced (ref : Ref) : s.worker.phase = .referencing → s.worker.mapped = some ref.frame →
      (∀ f, ref = .surface f → (s.session.pool f).hardware = true) →
      WorkerMoved s
        (s.setWorker { s.worker with refs := ref :: s.worker.refs, phase := .encoding }) []
  | uploaded (begun : Bool) : s.worker.phase = .referencing → s.worker.mapped = some f →
      (s.session.pool f).hardware = false →
      WorkerMoved s
        ((s.setSession
            { s.session with converter := s.session.converter.map (·.upload begun) }).setWorker
          { s.worker with phase := if begun then .encoding else .left }) []
  | forgot (kept : Ref → Bool) :
      WorkerMoved s (s.setWorker { s.worker with refs := s.worker.refs.filter kept }) []
  | encoded : s.worker.phase = .encoding →
      (∀ ref ∈ s.worker.refs, s.worker.mapped = some ref.frame) →
      WorkerMoved s (s.setWorker { s.worker with phase := .encoded }) []
  | moved : s.worker.phase = .encoded → s.worker.sample = some f →
      WorkerMoved s (s.setWorker { s.worker with lastSample := some f, sample := none }) []
  | unmapped : s.worker.phase = .encoded → s.worker.sample = none →
      WorkerMoved s (s.setWorker { s.worker with mapped := none, phase := .head }) []
  | unwound : s.worker.phase = .left → WorkerMoved s (s.setWorker s.worker.unwind) []

theorem WorkerMoved.of_result {s next : State} {events : List Event} {t : State × List Event}
    (moved : WorkerMoved s t.1 t.2) (result : some t = some (next, events)) :
    WorkerMoved s next events := by
  cases result; exact moved

theorem reference_moved {s : State} {f : Fin PoolSize} (upload : Option Bool)
    (phase : s.worker.phase = .referencing) (mapped : s.worker.mapped = some f) :
    WorkerMoved s (reference s f upload) [] := by
  have leaves : s.worker.phase ≠ .waiting := by simp [phase]
  unfold reference
  dsimp only
  split
  next hardware =>
    refine .referenced (.surface f) phase mapped ?_
    rintro _ ⟨⟩
    exact hardware
  next bare =>
    split
    · exact .left leaves
    · exact .uploaded _ phase mapped bare
  next => exact .left leaves
  next => exact .referenced (.owner f) phase mapped (by simp)

theorem source_cases {w : Worker} {repeating : Bool} {f : Fin PoolSize}
    (source : w.source repeating = some f) :
    w.sample = some f ∨ w.sample = none ∧ w.lastSample = some f := by
  unfold Worker.source at source
  split at source
  · exact .inl (source ▸ ‹_›)
  · split at source
    · exact .inr ⟨‹_›, source⟩
    · contradiction

theorem source_none {w : Worker} {repeating : Bool} (source : w.source repeating = none) :
    w.sample = none := by
  unfold Worker.source at source
  split at source
  · contradiction
  · assumption

theorem workerStep_moved {s next : State} {a : WorkerAction} {events : List Event}
    (taken : workerStep s a = some (next, events)) : WorkerMoved s next events := by
  unfold workerStep at taken
  dsimp only at taken
  split at taken
  next phase =>
    split at taken
    · exact .of_result (.checked phase ‹_›) taken
    · exact .of_result (.left (by simp [phase])) taken
  next phase => exact .of_result (.took phase rfl) taken
  next phase =>
    split at taken
    · exact .of_result (.rested phase (source_none ‹_›)) taken
    · exact .of_result (.mapped phase (source_cases ‹_›)) taken
  next phase =>
    obtain ⟨f, mapped, result⟩ := Option.map_eq_some_iff.mp taken
    exact .of_result (reference_moved _ phase mapped) (congrArg some result)
  next => exact .of_result (.forgot _) taken
  next phase =>
    split at taken
    · exact .of_result (.encoded phase ‹_›) taken
    · contradiction
  next phase =>
    split at taken
    · contradiction
    · rename_i present
      obtain ⟨f, sample⟩ := Option.ne_none_iff_exists'.mp present
      rw [sample] at taken
      exact .of_result (.moved phase sample) taken
  next phase =>
    split at taken
    · exact .of_result (.unmapped phase ‹_›) taken
    · contradiction
  next => contradiction
  next phase => exact .of_result (.left (by simpa using phase)) taken
  next phase => exact .of_result (.left (by simp [phase])) taken
  next phase => exact .of_result (.unwound phase) taken
  next => contradiction

inductive TeardownMoved (s : State) : State → List Event → Prop where
  | stopped : s.teardown = .alive → s.worker.phase = .left →
      TeardownMoved s { s.setSession s.session.stop with teardown := .stopping } []
  | lockedLoop : s.teardown = .stopping → s.control = .idle →
      TeardownMoved s { s with teardown := .loopLocked } []
  | lockedProcessing : s.teardown = .loopLocked → s.process = .idle ∨ s.process = .entered →
      TeardownMoved s { s with teardown := .processingLocked } []
  | settled : s.teardown = .processingLocked →
      TeardownMoved s
        { s.setSession
            { s.session with converter := s.session.converter.map Converter.settle } with
          teardown := .settled } [.settled]
  | destroyed : s.teardown = .settled → s.control = .idle →
      TeardownMoved s { s with teardown := .destroyed, withheld := none } [.destroyed]

theorem teardownStep_moved {s next : State} {events : List Event}
    (taken : teardownStep s = some (next, events)) : TeardownMoved s next events := by
  simp only [teardownStep] at taken
  split at taken
  next phase =>
    split at taken
    next left =>
      cases taken
      exact .stopped phase left
    next => contradiction
  next phase =>
    split at taken
    next idle =>
      cases taken
      exact .lockedLoop phase idle
    next => contradiction
  next phase =>
    split at taken
    next outside =>
      cases taken
      exact .lockedProcessing phase outside
    next => contradiction
  next phase =>
    cases taken
    exact .settled phase
  next phase =>
    split at taken
    next idle =>
      cases taken
      exact .destroyed phase idle
    next => contradiction
  next => contradiction

end Quest.Capture
