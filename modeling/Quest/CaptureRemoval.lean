import Quest.CaptureInvariant

/-! What the converter still has of a producer buffer when `remove_buffer` returns. -/
namespace Quest.Capture

def Event.Released : Event → Prop
  | .removed _ imported reads => imported = false ∧ reads = false
  | _ => True

/-- A buffer that is removed while the session is stopping has no import. -/
def Removable (s : State) : Action → Prop
  | .control (.removeBuffer b) => s.session.stopping = true →
      ∀ c, s.session.converter = some c → c.Imported b = false
  | _ => True

/-- Only imported buffers are read. -/
theorem reads_imported {c : Converter φ} (covered : c.Covered) {b : Buffer}
    (missing : c.Imported b = false) : c.Reads b = false := by
  refine List.any_eq_false.mpr fun conversion member same => ?_
  have imported := covered.input conversion member
  rw [of_decide_eq_true same, missing] at imported
  contradiction

theorem remove_released {s : State} {c : Converter (Fin PoolSize)} (covered : c.Covered)
    (b : Buffer) : (removedEvent (s.session.setConverter (c.remove b)) b).Released := by
  have missing : (c.remove b).Imported b = false := by simp [Converter.remove, Converter.Imported]
  exact ⟨missing, reads_imported (Converter.remove_covered covered b) missing⟩

theorem kept_released {s : State} (valid : Invariant s) (b : Buffer) :
    (removedEvent s.session b).Released ↔
      ∀ c, s.session.converter = some c → c.Imported b = false := by
  unfold removedEvent
  split
  · simp_all [Event.Released]
  · rename_i c present
    constructor
    · rintro released other same
      obtain rfl := Option.some.inj (present.symm.trans same)
      exact released.1
    · intro missing
      exact ⟨missing c present, reads_imported (valid.covered c present) (missing c present)⟩

theorem control_released {s next : State} {a : ControlAction} {events : List Event}
    (valid : Invariant s) (moved : ControlMoved s a next events) :
    Removable s (.control a) ↔ ∀ e ∈ events, e.Released := by
  cases moved with
  | @kept b barred =>
    have exactly := kept_released valid b
    simp only [List.mem_singleton, forall_eq, Removable, exactly]
    refine ⟨fun removable c present => ?_, fun missing _ => missing⟩
    rcases barred with missing | stopping
    · simp [missing] at present
    · exact removable stopping c present
  | removing present running => simp [Removable, running]
  | @removed c b present =>
    have released := remove_released (s := s) (valid.covered c present) b
    simpa [Removable] using released
  | _ => simp [Removable]

theorem process_released {s next : State} {events : List Event}
    (moved : ProcessMoved s next events) : ∀ e ∈ events, e.Released := by
  cases moved <;> simp [Event.Released]

theorem worker_released {s next : State} {events : List Event}
    (moved : WorkerMoved s next events) : ∀ e ∈ events, e.Released := by
  cases moved with
  | took =>
    intro e member
    obtain ⟨f, _, rfl⟩ := List.mem_map.mp member
    trivial
  | _ => simp

theorem teardown_released {s next : State} {events : List Event}
    (moved : TeardownMoved s next events) : ∀ e ∈ events, e.Released := by
  cases moved <;> simp [Event.Released]

theorem step_released {s next : State} {a : Action} {events : List Event} (valid : Invariant s)
    (taken : step s a = some (next, events)) : Removable s a ↔ ∀ e ∈ events, e.Released := by
  cases a with
  | control a => exact control_released valid (controlStep_moved taken)
  | process a => exact ⟨fun _ => process_released (processStep_moved taken), fun _ => trivial⟩
  | worker a => exact ⟨fun _ => worker_released (workerStep_moved taken), fun _ => trivial⟩
  | teardown => exact ⟨fun _ => teardown_released (teardownStep_moved taken), fun _ => trivial⟩
  | gpu finished => cases taken; simp [Removable]

/-- In every run, every `remove_buffer` leaves the converter without the buffer if and only
if no imported buffer is removed while the session is stopping. -/
theorem removed_buffers_released {intel : Bool} {memory : Memory} {actions : List Action}
    {s : State} {trace : List Event}
    (run : Machine.exec step actions (.initial intel memory) = some (s, trace)) :
    (∀ e ∈ trace, e.Released) ↔ Machine.Along step Removable actions (.initial intel memory) :=
  (Machine.along_iff_emitted Invariant (fun _ _ _ _ valid taken => step_invariant valid taken)
    (fun _ _ _ _ valid taken => step_released valid taken) (initial_invariant intel memory)
    run).symm

theorem removed_buffers_released_sample :
    ∃ s trace, Machine.exec step
        (convertScreen .completed ++ [.control (.removeBuffer 7), .control .remove])
        (.initial true .auto) = some (s, trace) ∧
      Event.removed 7 false false ∈ trace ∧
      Machine.Along step Removable
        (convertScreen .completed ++ [.control (.removeBuffer 7), .control .remove])
        (.initial true .auto) := by
  have reached : (Machine.exec step
      (convertScreen .completed ++ [.control (.removeBuffer 7), .control .remove])
      (.initial true .auto)).map Prod.snd = some [.dequeued 7, .removed 7 false false] := by
    decide +kernel
  obtain ⟨⟨s, trace⟩, run, events⟩ := Option.map_eq_some_iff.mp reached
  have events : trace = _ := events
  refine ⟨s, trace, run, by simp [events], (removed_buffers_released run).mp ?_⟩
  simp [events, Event.Released]

/-- The conversion times out, the handler stops the session, and the producer removes the
buffer that the GPU still reads. -/
theorem removed_buffer_read :
    ¬∀ (actions : List Action) (s : State) (trace : List Event),
      Machine.exec step actions (.initial true .auto) = some (s, trace) →
      ∀ e ∈ trace, e.Released := by
  intro released
  have reached : (Machine.exec step
      (convertScreen (.syncFailed "operation timed out") ++
        [.process .handle, .control (.removeBuffer 7)])
      (.initial true .auto)).map Prod.snd =
        some [.dequeued 7, .caught 7 true, .withheld 7, .returned, .removed 7 true true] := by
    decide +kernel
  obtain ⟨⟨s, trace⟩, run, events⟩ := Option.map_eq_some_iff.mp reached
  have events : trace = _ := events
  have clear := released _ s trace run (.removed 7 true true) (by simp [events])
  simp [Event.Released] at clear

end Quest.Capture
