import Quest.DisplayHostSteps

/-! Any number of display hosts at once: the lock is held by the one live process that has come to
know the path of the state file, which is past `tryLock`. -/
namespace Quest.Displays

/-- Past `tryLock`, which makes the state path known, and not gone: the lock is given back when
`main` returns. -/
def Process.Locked (p : Process) : Prop := p.statePath = true ∧ p.phase.alive = true

/-- The phases that only a host under the lock comes to; those of `connectDisplay` and of the
end it shares with others. -/
def Phase.owning : Phase → Bool
  | .clearing => true
  | .inspecting => true
  | .creating => true
  | .awaiting => true
  | .running _ => true
  | .pumping _ => true
  | _ => false

/-- The state path is known from `tryLock` on, and a probe never comes to know it. -/
def Phase.Fits (run statePath : Bool) : Phase → Prop
  | .starting => statePath = false
  | .locking => statePath = false ∧ run = true
  | .clearing => statePath = true ∧ run = true
  | .connecting => statePath = run
  | .syncing _ _ => statePath = run
  | .probing => statePath = false
  | .inspecting => statePath = true
  | .creating => statePath = true
  | .awaiting => statePath = true
  | .running _ => statePath = true
  | .pumping _ => statePath = true
  | _ => True

variable {ι : Type*}

structure Holding (lock : Option ι) (t : ι) (p : Process) : Prop where
  owner : p.statePath = true → p.phase.alive = true → lock = some t
  owned : lock = some t → p.statePath = true ∧ p.phase.alive = true
  fits : p.phase.Fits p.run p.statePath

def Exclusive (s : System ι) : Prop := ∀ t, Holding s.lock t (s.processes t)

theorem alive_of_owning {phase : Phase} (owning : phase.owning = true) : phase.alive = true := by
  cases phase <;> first | rfl | contradiction

theorem alive_of_reaching {phase : Phase} (reaching : phase.reaching = true) :
    phase.alive = true := by
  cases phase <;> first | rfl | contradiction

theorem Phase.Fits.known {run statePath : Bool} {phase : Phase}
    (fits : phase.Fits run statePath) (owning : phase.owning = true) : statePath = true := by
  cases phase <;> first | exact fits | exact fits.1 | contradiction

theorem Phase.Fits.reached {run statePath : Bool} {phase : Phase}
    (fits : phase.Fits run statePath) (reaching : phase.reaching = true) : statePath = run := by
  cases phase <;> first | exact fits | contradiction

theorem Holding.holds {lock : Option ι} {t : ι} {p : Process} (holding : Holding lock t p)
    (owning : p.phase.owning = true) : lock = some t :=
  holding.owner (holding.fits.known owning) (alive_of_owning owning)

/-- A live process goes on, or a dead one is sent a signal. -/
theorem Follows.alive {p : Process} {phase : Phase} (follows : Follows p phase) :
    phase.alive = p.phase.alive := by
  cases follows with
  | same => rfl
  | leaving _ alive => exact alive.symm
  | connecting at_ => rw [at_]; rfl
  | locking at_ => rw [at_]; rfl
  | syncing _ _ reaching => rw [alive_of_reaching reaching]; rfl
  | probing reaching => rw [alive_of_reaching reaching]; rfl
  | inspecting reaching => rw [alive_of_reaching reaching]; rfl
  | running at_ => rw [at_]; rfl
  | pumping at_ => rw [at_]; rfl
  | pumped at_ => rw [at_]; rfl
  | awaiting at_ => rw [at_]; rfl
  | returning _ alive => exact alive.symm

theorem Follows.fits {p : Process} {phase : Phase} (follows : Follows p phase)
    (fits : p.phase.Fits p.run p.statePath) : phase.Fits p.run p.statePath := by
  cases follows with
  | same => exact fits
  | leaving => trivial
  | connecting at_ run =>
    rw [at_] at fits
    exact fits.trans run.symm
  | locking at_ run =>
    rw [at_] at fits
    exact ⟨fits, run⟩
  | syncing _ _ reaching => exact fits.reached reaching
  | probing reaching run => exact (fits.reached reaching).trans run
  | inspecting reaching run => exact (fits.reached reaching).trans run
  | running at_ => exact fits.known (by rw [at_]; rfl)
  | pumping at_ => exact fits.known (by rw [at_]; rfl)
  | pumped at_ => exact fits.known (by rw [at_]; rfl)
  | awaiting at_ => exact fits.known (by rw [at_]; rfl)
  | returning => trivial

theorem Holding.continued {lock : Option ι} {t : ι} {p q : Process} (holding : Holding lock t p)
    (continues : Continues p q) : Holding lock t q where
  owner := by
    rw [continues.statePath, continues.phase.alive]
    exact holding.owner
  owned := by
    rw [continues.statePath, continues.phase.alive]
    exact holding.owned
  fits := by
    rw [continues.statePath, continues.run]
    exact continues.phase.fits holding.fits

theorem Holding.onward {lock : Option ι} {t : ι} {p : Process} (holding : Holding lock t p)
    {phase : Phase} (alive : p.phase.alive = true) (living : phase.alive = true)
    (fits : phase.Fits p.run p.statePath) : Holding lock t { p with phase := phase } :=
  ⟨fun known _ => holding.owner known alive, fun held => ⟨(holding.owned held).1, living⟩, fits⟩

/-- A process that is gone has given the lock back. -/
theorem Holding.gone {lock : Option ι} {t : ι} (p : Process) {phase : Phase}
    (alive : phase.alive = false) (freed : lock ≠ some t) :
    Holding lock t { p with phase := phase } where
  owner _ living := absurd (alive.symm.trans living) (by simp)
  owned held := absurd held freed
  fits := by cases phase <;> trivial

variable [DecidableEq ι]

@[simp] theorem put_file (s : System ι) (t : ι) (p : Process) : (s.put t p).file = s.file := rfl

@[simp] theorem put_same (s : System ι) (t : ι) (p : Process) : (s.put t p).processes t = p :=
  Function.update_self ..

theorem put_other (s : System ι) {t u : ι} (other : u ≠ t) (p : Process) :
    (s.put t p).processes u = s.processes u :=
  Function.update_of_ne other ..

@[simp] theorem unlock_file (s : System ι) (t : ι) : (s.unlock t).file = s.file := by
  unfold System.unlock; split <;> rfl

@[simp] theorem unlock_processes (s : System ι) (t : ι) :
    (s.unlock t).processes = s.processes := by
  unfold System.unlock; split <;> rfl

theorem gone_processes (s : System ι) (t : ι) (p : Process) :
    ((s.unlock t).put t p).processes = Function.update s.processes t p := by
  simp only [System.put, unlock_processes]

theorem unlock_freed (s : System ι) (t : ι) : (s.unlock t).lock ≠ some t := by
  unfold System.unlock
  split
  · simp
  next other => exact other

/-- Nobody else's lock is given back. -/
theorem unlock_eq_some_iff (s : System ι) {t u : ι} (other : u ≠ t) :
    (s.unlock t).lock = some u ↔ s.lock = some u := by
  unfold System.unlock
  split
  next held => simp [held, Ne.symm other]
  next => rfl

theorem exclusive_put {s : System ι} {t : ι} {q : Process} (own : Holding s.lock t q)
    (others : ∀ u ≠ t, Holding s.lock u (s.processes u)) : Exclusive (s.put t q) := by
  intro u
  by_cases same : u = t
  · subst u
    rw [put_same]
    exact own
  · rw [put_other _ same]
    exact others u same

theorem Exclusive.gone {s : System ι} (exclusive : Exclusive s) (t : ι) {phase : Phase}
    (alive : phase.alive = false) :
    Exclusive ((s.unlock t).put t { s.processes t with phase := phase }) := by
  refine exclusive_put (.gone _ alive (unlock_freed s t)) fun u other => ?_
  rw [unlock_processes]
  have holding := exclusive u
  exact ⟨fun known living => (unlock_eq_some_iff s other).mpr (holding.owner known living),
    fun held => holding.owned ((unlock_eq_some_iff s other).mp held), holding.fits⟩

/-- `tryLock` succeeds only while no live process knows the path. -/
theorem Exclusive.locked {s : System ι} (exclusive : Exclusive s) {t : ι} (free : s.lock = none)
    (locking : (s.processes t).phase = .locking) :
    Exclusive ({ s with lock := some t }.put t
      { s.processes t with statePath := true, phase := .clearing }) := by
  refine exclusive_put ⟨fun _ _ => rfl, fun _ => ⟨rfl, rfl⟩, rfl, ?_⟩ fun u other => ?_
  · have fits := (exclusive t).fits
    rw [locking] at fits
    exact fits.2
  have holding := exclusive u
  rw [free] at holding
  refine ⟨fun known living => ?_, fun held => absurd (Option.some.inj held).symm other,
    holding.fits⟩
  have held := holding.owner known living
  contradiction

theorem Moved.exclusive {s next : System ι} {t : ι} {seen : List (Observation ι)}
    (moved : Moved s t next seen) (exclusive : Exclusive s) : Exclusive next := by
  have own := exclusive t
  have fits := own.fits
  cases moved with
  | continued continues => exact exclusive_put (own.continued continues) fun u _ => exclusive u
  | requested _ _ _ continues =>
    exact exclusive_put (own.continued continues) fun u _ => exclusive u
  | locked free locking => exact exclusive.locked free locking
  | cleared removed clearing =>
    rw [clearing] at fits
    exact exclusive_put (own.onward (by rw [clearing]; rfl) rfl (fits.1.trans fits.2.symm))
      fun u _ => exclusive u
  | printed probing =>
    exact exclusive_put (own.onward (by rw [probing]; rfl) rfl trivial) fun u _ => exclusive u
  | inspected inspecting =>
    rw [inspecting] at fits
    exact exclusive_put (own.onward (by rw [inspecting]; rfl) rfl fits) fun u _ => exclusive u
  | wrote running =>
    rw [running] at fits
    exact exclusive_put (own.onward (by rw [running]; rfl) rfl fits) fun u _ => exclusive u
  | left removed failed code leaving =>
    exact exclusive_put (own.onward (by rw [leaving]; rfl) rfl trivial) fun u _ => exclusive u
  | exited => exact exclusive.gone t rfl
  | killed => exact exclusive.gone t rfl

end Quest.Displays
