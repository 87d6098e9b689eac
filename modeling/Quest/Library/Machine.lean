import Mathlib.Data.List.Basic
import Mathlib.Data.List.Induction

/-! Labelled machines whose actions carry every choice of the scheduler and of the
environment, so that a schedule determines its run. Invariants, histories, guarded
runs and simulations are each proved once here, from what a single step does. -/
namespace Machine

/-- A disabled action has no successor; an enabled one also emits events. -/
abbrev Step (σ α ε : Type*) := σ → α → Option (σ × List ε)

variable {σ α ε τ β δ : Type*}

def exec (step : Step σ α ε) : List α → σ → Option (σ × List ε)
  | [], s => some (s, [])
  | a :: rest, s => (step s a).bind fun (next, emitted) =>
      (exec step rest next).map fun (final, trace) => (final, emitted ++ trace)

@[simp] theorem exec_nil (step : Step σ α ε) (s : σ) : exec step [] s = some (s, []) := rfl

theorem exec_cons_iff {step : Step σ α ε} {a : α} {rest : List α} {s final : σ} {trace : List ε} :
    exec step (a :: rest) s = some (final, trace) ↔
      ∃ next emitted later, step s a = some (next, emitted) ∧
        exec step rest next = some (final, later) ∧ trace = emitted ++ later := by
  simp only [exec, Option.bind_eq_some_iff, Option.map_eq_some_iff, Prod.exists, Prod.mk.injEq]
  constructor
  · rintro ⟨next, emitted, taken, _, later, run, rfl, rfl⟩
    exact ⟨next, emitted, later, taken, run, rfl⟩
  · rintro ⟨next, emitted, later, taken, run, rfl⟩
    exact ⟨next, emitted, taken, final, later, run, rfl, rfl⟩

theorem exec_single {step : Step σ α ε} {s next : σ} {a : α} {emitted : List ε}
    (taken : step s a = some (next, emitted)) : exec step [a] s = some (next, emitted) := by
  simp [exec, taken]

theorem exec_append_iff {step : Step σ α ε} {first rest : List α} {s final : σ} {trace : List ε} :
    exec step (first ++ rest) s = some (final, trace) ↔
      ∃ middle before after, exec step first s = some (middle, before) ∧
        exec step rest middle = some (final, after) ∧ trace = before ++ after := by
  induction first generalizing s trace with
  | nil =>
    simp only [List.nil_append, exec_nil, Option.some.injEq, Prod.mk.injEq]
    constructor
    · intro run; exact ⟨s, [], trace, ⟨rfl, rfl⟩, run, rfl⟩
    · rintro ⟨_, _, _, ⟨rfl, rfl⟩, run, rfl⟩; exact run
  | cons a first ih =>
    simp only [List.cons_append, exec_cons_iff, ih]
    constructor
    · rintro ⟨next, emitted, _, taken, ⟨middle, before, after, left, right, rfl⟩, rfl⟩
      exact ⟨middle, emitted ++ before, after, ⟨next, emitted, before, taken, left, rfl⟩, right,
        by simp⟩
    · rintro ⟨middle, _, after, ⟨next, emitted, before, taken, left, rfl⟩, right, rfl⟩
      exact ⟨next, emitted, before ++ after, taken, ⟨middle, before, after, left, right, rfl⟩,
        by simp⟩

theorem exec_append {step : Step σ α ε} {first rest : List α} {s middle final : σ}
    {before after : List ε} (left : exec step first s = some (middle, before))
    (right : exec step rest middle = some (final, after)) :
    exec step (first ++ rest) s = some (final, before ++ after) :=
  exec_append_iff.mpr ⟨middle, before, after, left, right, rfl⟩

theorem exec_snoc_iff {step : Step σ α ε} {first : List α} {a : α} {s final : σ} {trace : List ε} :
    exec step (first ++ [a]) s = some (final, trace) ↔
      ∃ middle before emitted, exec step first s = some (middle, before) ∧
        step middle a = some (final, emitted) ∧ trace = before ++ emitted := by
  rw [exec_append_iff]
  constructor
  · rintro ⟨middle, before, after, left, right, rfl⟩
    obtain ⟨next, emitted, later, taken, last, rfl⟩ := exec_cons_iff.mp right
    obtain ⟨rfl, rfl⟩ := Prod.mk.inj (Option.some.inj last)
    exact ⟨middle, before, emitted, left, taken, by simp⟩
  · rintro ⟨middle, before, emitted, left, taken, rfl⟩
    exact ⟨middle, before, emitted, left, exec_single taken, rfl⟩

/-- The history rule: a property of the schedule so far, of the state that it reaches and of
everything emitted holds at the end of a run if each step extends it. -/
theorem scheduled {step : Step σ α ε} {start : σ} (property : List α → σ → List ε → Prop)
    (initially : property [] start [])
    (extends_ : ∀ first s trace a next emitted, property first s trace →
      step s a = some (next, emitted) → property (first ++ [a]) next (trace ++ emitted))
    {actions : List α} {final : σ} {trace : List ε}
    (run : exec step actions start = some (final, trace)) : property actions final trace := by
  induction actions using List.reverseRecOn generalizing final trace with
  | nil =>
    obtain ⟨rfl, rfl⟩ := Prod.mk.inj (Option.some.inj run)
    exact initially
  | append_singleton first a ih =>
    obtain ⟨middle, before, emitted, left, taken, rfl⟩ := exec_snoc_iff.mp run
    exact extends_ _ _ _ _ _ _ (ih left) taken

theorem history {step : Step σ α ε} {start : σ} (property : σ → List ε → Prop)
    (initially : property start [])
    (extends_ : ∀ s trace a next emitted, property s trace → step s a = some (next, emitted) →
      property next (trace ++ emitted))
    {actions : List α} {final : σ} {trace : List ε}
    (run : exec step actions start = some (final, trace)) : property final trace :=
  scheduled (fun _ => property) initially (fun _ => extends_) run

theorem invariant {step : Step σ α ε} {start : σ} (property : σ → Prop)
    (initially : property start)
    (preserved : ∀ s a next emitted, property s → step s a = some (next, emitted) → property next)
    {actions : List α} {final : σ} {trace : List ε}
    (run : exec step actions start = some (final, trace)) : property final :=
  history (fun s _ => property s) initially
    (fun _ _ _ _ _ valid taken => preserved _ _ _ _ valid taken) run

/-- Every action of the schedule meets `condition` in the state where it is taken. -/
def Along (step : Step σ α ε) (condition : σ → α → Prop) : List α → σ → Prop
  | [], _ => True
  | a :: rest, s => condition s a ∧
      ∀ next emitted, step s a = some (next, emitted) → Along step condition rest next

/-- A condition on the actions alone. -/
theorem along_of_forall {step : Step σ α ε} {condition : σ → α → Prop} {actions : List α}
    (met : ∀ a ∈ actions, ∀ s, condition s a) (start : σ) :
    Along step condition actions start := by
  induction actions generalizing start with
  | nil => trivial
  | cons a rest ih =>
    exact ⟨met a List.mem_cons_self start, fun next _ _ =>
      ih (fun b member => met b (List.mem_cons_of_mem _ member)) next⟩

theorem along_cons_iff {step : Step σ α ε} {condition : σ → α → Prop} {a : α} {rest : List α}
    {s next : σ} {emitted : List ε} (taken : step s a = some (next, emitted)) :
    Along step condition (a :: rest) s ↔ condition s a ∧ Along step condition rest next := by
  refine and_congr_right fun _ => ⟨fun along => along next emitted taken, fun along => ?_⟩
  rintro other events same
  obtain ⟨rfl, rfl⟩ := Prod.mk.inj (Option.some.inj (taken.symm.trans same))
  exact along

/-- Where a condition can be decided, so can whether a schedule meets it throughout. -/
instance decidableAlong (step : Step σ α ε) (condition : σ → α → Prop)
    [∀ s a, Decidable (condition s a)] :
    (actions : List α) → (s : σ) → Decidable (Along step condition actions s)
  | [], _ => isTrue trivial
  | a :: rest, s =>
    match taken : step s a with
    | none => decidable_of_iff (condition s a) (by simp [Along, taken])
    | some (next, _) =>
      have := decidableAlong step condition rest next
      decidable_of_iff (condition s a ∧ Along step condition rest next) (along_cons_iff taken).symm

/-- `Along` read off the prefixes of a schedule. -/
theorem along_iff_prefixes {step : Step σ α ε} {condition : σ → α → Prop} {actions : List α}
    {start : σ} : Along step condition actions start ↔
      ∀ first a rest s trace, actions = first ++ a :: rest →
        exec step first start = some (s, trace) → condition s a := by
  induction actions generalizing start with
  | nil => simp [Along]
  | cons b tail ih =>
    constructor
    · rintro ⟨here, there⟩ first a rest s trace split run
      cases first with
      | nil =>
        obtain ⟨rfl, _⟩ := List.cons_eq_cons.mp split
        obtain ⟨rfl, _⟩ := Prod.mk.inj (Option.some.inj run)
        exact here
      | cons c first =>
        obtain ⟨rfl, after⟩ := List.cons_eq_cons.mp split
        obtain ⟨next, emitted, later, taken, run, _⟩ := exec_cons_iff.mp run
        exact ih.mp (there next emitted taken) first a rest s later after run
    · intro met
      refine ⟨met [] b tail start [] rfl rfl, fun next emitted taken => ih.mpr ?_⟩
      intro first a rest s trace split run
      apply met (b :: first) a rest s (emitted ++ trace) (congrArg _ split)
      exact exec_cons_iff.mpr ⟨next, emitted, trace, taken, run, rfl⟩

/-- At some place of the schedule `mark` holds of the schedule before it, of the state reached
there, of what has been emitted and of the action. -/
def Occurs (step : Step σ α ε) (mark : List α → σ → List ε → α → Prop) (actions : List α)
    (start : σ) : Prop :=
  ∃ first a rest s before, actions = first ++ a :: rest ∧
    exec step first start = some (s, before) ∧ mark first s before a

/-- Where each step emits something bad exactly at a marked place, so does a run. -/
theorem emitted_iff_not_occurs {step : Step σ α ε} {mark : List α → σ → List ε → α → Prop}
    {good : ε → Prop} {start : σ}
    (exactly : ∀ first s before a next emitted, exec step first start = some (s, before) →
      step s a = some (next, emitted) → ((∀ e ∈ emitted, good e) ↔ ¬mark first s before a))
    {actions : List α} {final : σ} {trace : List ε}
    (run : exec step actions start = some (final, trace)) :
    (∀ e ∈ trace, good e) ↔ ¬Occurs step mark actions start := by
  constructor
  · rintro all ⟨first, a, rest, s, before, rfl, left, marked⟩
    obtain ⟨_, _, _, left', right, rfl⟩ := exec_append_iff.mp run
    obtain ⟨rfl, rfl⟩ := Prod.mk.inj (Option.some.inj (left.symm.trans left'))
    obtain ⟨_, emitted, _, taken, _, rfl⟩ := exec_cons_iff.mp right
    exact (exactly first _ _ a _ emitted left taken).mp (fun e member => all e (by simp [member]))
      marked
  · intro unmarked
    have reached := scheduled (fun first s trace => exec step first start = some (s, trace) ∧
      ∀ rest, actions = first ++ rest → ∀ e ∈ trace, good e) (by simp) ?_ run
    · exact reached.2 [] (by simp)
    · rintro first s trace a next emitted ⟨left, met⟩ taken
      refine ⟨exec_snoc_iff.mpr ⟨s, trace, emitted, left, taken, rfl⟩, fun rest split e member => ?_⟩
      rw [List.append_assoc] at split
      rcases List.mem_append.mp member with earlier | now
      · exact met _ split e earlier
      · refine (exactly first s trace a next emitted left taken).mpr (fun marked => ?_) e now
        exact unmarked ⟨first, a, rest, s, trace, split, left, marked⟩

theorem Along.of_append {step : Step σ α ε} {condition : σ → α → Prop} {first rest : List α}
    {start : σ} (along : Along step condition (first ++ rest) start) :
    Along step condition first start := by
  rw [along_iff_prefixes] at along ⊢
  rintro before a after s trace rfl run
  exact along before a (after ++ rest) s trace (by simp) run

/-- A run meets a condition throughout if an invariant implies it at each enabled step. -/
theorem along_of_invariant {step : Step σ α ε} {condition : σ → α → Prop} (property : σ → Prop)
    (preserved : ∀ s a next emitted, property s → step s a = some (next, emitted) → property next)
    (meets : ∀ s a next emitted, property s → step s a = some (next, emitted) → condition s a)
    {actions : List α} {start final : σ} {trace : List ε} (initially : property start)
    (run : exec step actions start = some (final, trace)) : Along step condition actions start := by
  induction actions generalizing start trace with
  | nil => trivial
  | cons a rest ih =>
    obtain ⟨next, emitted, later, taken, tail, rfl⟩ := exec_cons_iff.mp run
    refine ⟨meets _ _ _ _ initially taken, fun other events same => ?_⟩
    obtain ⟨rfl, rfl⟩ := Prod.mk.inj (Option.some.inj (taken.symm.trans same))
    exact ih (preserved _ _ _ _ initially taken) tail

/-- A condition that each step meets exactly when all it emits is good is met throughout a
run exactly when everything the run emits is good. What decides it may depend on the past, and
need only outlast steps that meet the condition. -/
theorem along_iff_emitted_after {step : Step σ α ε} {condition : σ → α → Prop} {good : ε → Prop}
    (property : σ → List ε → Prop)
    (extends_ : ∀ s past a next emitted, property s past → condition s a →
      step s a = some (next, emitted) → property next (past ++ emitted))
    (exactly : ∀ s past a next emitted, property s past → step s a = some (next, emitted) →
      (condition s a ↔ ∀ e ∈ emitted, good e))
    {actions : List α} {start final : σ} (past : List ε) {trace : List ε}
    (initially : property start past) (run : exec step actions start = some (final, trace)) :
    Along step condition actions start ↔ ∀ e ∈ trace, good e := by
  induction actions generalizing start past trace with
  | nil =>
    obtain ⟨rfl, rfl⟩ := Prod.mk.inj (Option.some.inj run)
    simp [Along]
  | cons a rest ih =>
    obtain ⟨next, emitted, later, taken, tail, rfl⟩ := exec_cons_iff.mp run
    rw [along_cons_iff taken]
    simp only [List.mem_append, or_imp, forall_and, ← exactly _ _ _ _ _ initially taken]
    refine and_congr_right fun met => ?_
    rw [← ih _ (extends_ _ _ _ _ _ initially met taken) tail]

theorem along_iff_emitted {step : Step σ α ε} {condition : σ → α → Prop} {good : ε → Prop}
    (property : σ → Prop)
    (preserved : ∀ s a next emitted, property s → step s a = some (next, emitted) → property next)
    (exactly : ∀ s a next emitted, property s → step s a = some (next, emitted) →
      (condition s a ↔ ∀ e ∈ emitted, good e))
    {actions : List α} {start final : σ} {trace : List ε} (initially : property start)
    (run : exec step actions start = some (final, trace)) :
    Along step condition actions start ↔ ∀ e ∈ trace, good e :=
  along_iff_emitted_after (fun s _ => property s)
    (fun _ _ _ _ _ valid _ taken => preserved _ _ _ _ valid taken)
    (fun _ _ _ _ _ valid taken => exactly _ _ _ _ valid taken) [] initially run

/-- Histories of runs whose steps all meet a condition. -/
theorem guarded_history {step : Step σ α ε} {condition : σ → α → Prop}
    (property : σ → List ε → Prop)
    (extends_ : ∀ s trace a next emitted, property s trace → condition s a →
      step s a = some (next, emitted) → property next (trace ++ emitted))
    {actions : List α} {start final : σ} (past : List ε) {trace : List ε} (initially : property start past)
    (guarded : Along step condition actions start)
    (run : exec step actions start = some (final, trace)) : property final (past ++ trace) := by
  induction actions generalizing start past trace with
  | nil =>
    obtain ⟨rfl, rfl⟩ := Prod.mk.inj (Option.some.inj run)
    simpa using initially
  | cons a rest ih =>
    obtain ⟨next, emitted, later, taken, tail, rfl⟩ := exec_cons_iff.mp run
    have advanced := ih _ (extends_ _ _ _ _ _ initially guarded.1 taken) (guarded.2 _ _ taken) tail
    simpa using advanced

theorem guarded_invariant {step : Step σ α ε} {condition : σ → α → Prop} (property : σ → Prop)
    (preserved : ∀ s a next emitted, property s → condition s a →
      step s a = some (next, emitted) → property next)
    {actions : List α} {start final : σ} {trace : List ε} (initially : property start)
    (guarded : Along step condition actions start)
    (run : exec step actions start = some (final, trace)) : property final :=
  guarded_history (fun s _ => property s)
    (fun _ _ _ _ _ valid met taken => preserved _ _ _ _ valid met taken) [] initially guarded run

def Once (step : Step σ α ε) (mark : σ → α → Prop) : List α → σ → Prop
  | [], _ => False
  | a :: rest, s => mark s a ∨
      ∃ next emitted, step s a = some (next, emitted) ∧ Once step mark rest next

/-- Invariants that depend on whether a marked step has been taken. -/
theorem once_invariant {step : Step σ α ε} {condition mark : σ → α → Prop}
    (property : Prop → σ → Prop)
    (preserved : ∀ seen s a next emitted, property seen s → condition s a →
      step s a = some (next, emitted) → property (seen ∨ mark s a) next)
    (seen : Prop) {actions : List α} {start final : σ} {trace : List ε}
    (initially : property seen start) (guarded : Along step condition actions start)
    (run : exec step actions start = some (final, trace)) :
    property (seen ∨ Once step mark actions start) final := by
  induction actions generalizing seen start trace with
  | nil =>
    obtain ⟨rfl, rfl⟩ := Prod.mk.inj (Option.some.inj run)
    simpa [Once] using initially
  | cons a rest ih =>
    obtain ⟨next, emitted, later, taken, tail, rfl⟩ := exec_cons_iff.mp run
    have advanced := ih _ (preserved _ _ _ _ _ initially guarded.1 taken) (guarded.2 _ _ taken) tail
    simpa [Once, taken, or_assoc] using advanced

/-- Steps that lower a rank which none raises are bounded by it, whatever is taken between. -/
theorem countP_le_rank {step : Step σ α ε} {mark : α → Bool} (rank : σ → Nat) (property : σ → Prop)
    (preserved : ∀ s a next emitted, property s → step s a = some (next, emitted) → property next)
    (lowers : ∀ s a next emitted, property s → step s a = some (next, emitted) →
      rank next + (mark a).toNat ≤ rank s)
    {actions : List α} {start final : σ} {trace : List ε} (initially : property start)
    (run : exec step actions start = some (final, trace)) :
    rank final + actions.countP mark ≤ rank start := by
  induction actions generalizing start trace with
  | nil =>
    obtain ⟨rfl, _⟩ := Prod.mk.inj (Option.some.inj run)
    simp
  | cons a rest ih =>
    obtain ⟨next, emitted, later, taken, tail, _⟩ := exec_cons_iff.mp run
    have first := lowers _ _ _ _ initially taken
    have remaining := ih (preserved _ _ _ _ initially taken) tail
    cases marked : mark a <;> simp only [marked, Bool.toNat_true, Bool.toNat_false] at first <;>
      simp only [List.countP_cons, marked, if_true, if_false, Bool.false_eq_true] <;> omega

/-- The last event of a trace is the one it is split at, or comes after that. -/
theorem snoc_split {trace before after : List ε} {e b : ε}
    (split : trace ++ [e] = before ++ b :: after) :
    (after = [] ∧ e = b ∧ trace = before) ∨
      ∃ rest, after = rest ++ [e] ∧ trace = before ++ b :: rest := by
  rcases List.eq_nil_or_concat' after with rfl | ⟨rest, last, rfl⟩
  · obtain ⟨rfl, same⟩ := List.append_inj' split rfl
    exact .inl ⟨rfl, (List.cons_eq_cons.mp same).1, rfl⟩
  · rw [← List.cons_append, ← List.append_assoc] at split
    obtain ⟨rfl, same⟩ := List.append_inj' split rfl
    exact .inr ⟨rest, by rw [(List.cons_eq_cons.mp same).1], rfl⟩

/-- Every event of a trace is good after the ones before it. -/
def Each (good : List ε → ε → Prop) (trace : List ε) : Prop :=
  ∀ before e after, trace = before ++ e :: after → good before e

theorem each_nil (good : List ε → ε → Prop) : Each good [] := by
  intro before e after empty
  simp at empty

theorem each_append_iff {good : List ε → ε → Prop} {first rest : List ε} :
    Each good (first ++ rest) ↔ Each good first ∧ Each (fun past => good (first ++ past)) rest := by
  constructor
  · intro each
    constructor
    · rintro before e after rfl
      exact each before e (after ++ rest) (by simp)
    · rintro before e after rfl
      exact each (first ++ before) e after (by simp)
  · rintro ⟨left, right⟩ before e after split
    rcases List.append_eq_append_iff.mp split with ⟨further, rfl, tail⟩ | ⟨further, rfl, tail⟩
    · exact right further e after tail
    · cases further with
      | nil =>
        rw [List.append_nil] at right
        simpa using right [] e after tail.symm
      | cons b further =>
        obtain ⟨rfl, _⟩ := List.cons_eq_cons.mp tail
        exact left before e further rfl

theorem each_cons_iff {good : List ε → ε → Prop} {e : ε} {rest : List ε} :
    Each good (e :: rest) ↔ good [] e ∧ Each (fun past => good (e :: past)) rest := by
  constructor
  · intro each
    refine ⟨each [] e rest rfl, ?_⟩
    rintro before b after rfl
    exact each (e :: before) b after rfl
  · rintro ⟨here, there⟩ before b after split
    cases before with
    | nil =>
      obtain ⟨rfl, _⟩ := List.cons_eq_cons.mp split
      exact here
    | cons c before =>
      obtain ⟨rfl, tail⟩ := List.cons_eq_cons.mp split
      exact there before b after tail

/-- The abstract schedule obtained by replacing each concrete action with the abstract
actions that `place` puts at its position. -/
def placed (step : Step σ α ε) (place : σ → α → List β) : List α → σ → List β
  | [], _ => []
  | a :: rest, s => place s a ++
      match step s a with
      | none => []
      | some (next, _) => placed step place rest next

/-- Forward simulation with stuttering, over states together with their histories. -/
theorem simulates {concrete : Step σ α ε} {abstract : Step τ β δ} {place : σ → α → List β}
    (related : σ → List ε → τ → List δ → Prop)
    (matched : ∀ s past t seen a next emitted, related s past t seen →
      concrete s a = some (next, emitted) →
      ∃ next' emitted', exec abstract (place s a) t = some (next', emitted') ∧
        related next (past ++ emitted) next' (seen ++ emitted'))
    {actions : List α} {s final : σ} {t : τ} {past trace : List ε} {seen : List δ}
    (initially : related s past t seen) (run : exec concrete actions s = some (final, trace)) :
    ∃ final' trace', exec abstract (placed concrete place actions s) t = some (final', trace') ∧
      related final (past ++ trace) final' (seen ++ trace') := by
  induction actions generalizing s t past trace seen with
  | nil =>
    obtain ⟨rfl, rfl⟩ := Prod.mk.inj (Option.some.inj run)
    exact ⟨t, [], rfl, by simpa using initially⟩
  | cons a rest ih =>
    obtain ⟨next, emitted, later, taken, tail, rfl⟩ := exec_cons_iff.mp run
    obtain ⟨next', emitted', moved, between⟩ := matched _ _ _ _ _ _ _ initially taken
    obtain ⟨final', trace', rest', finally_⟩ := ih between tail
    refine ⟨final', emitted' ++ trace', ?_, by simpa using finally_⟩
    simp only [placed, taken]
    exact exec_append moved rest'

end Machine
