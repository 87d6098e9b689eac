import Mathlib.Algebra.BigOperators.Fin
import Quest.StreamProcessSteps

/-! How the stream process ends: what its exit code, its statistics and the physical displays say
of the streams, whatever the interleaving of the threads. -/
namespace Quest.StreamProcess

def hostTrace (trace : List Observation) : List Host.Observation :=
  trace.filterMap fun
    | .host event => some event
    | _ => none

def headsetTrace (trace : List Observation) : List HeadsetMode.Event :=
  trace.filterMap fun
    | .headset event => some event
    | _ => none

@[simp] theorem hostTrace_append (first rest : List Observation) :
    hostTrace (first ++ rest) = hostTrace first ++ hostTrace rest := List.filterMap_append

@[simp] theorem headsetTrace_append (first rest : List Observation) :
    headsetTrace (first ++ rest) = headsetTrace first ++ headsetTrace rest := List.filterMap_append

@[simp] theorem hostTrace_host (events : List Host.Observation) :
    hostTrace (events.map .host) = events := by
  simp [hostTrace, List.filterMap_map]

@[simp] theorem headsetTrace_host (events : List Host.Observation) :
    headsetTrace (events.map .host) = [] := by
  simp [headsetTrace]

@[simp] theorem hostTrace_headset (events : List HeadsetMode.Event) :
    hostTrace (events.map .headset) = [] := by
  simp [hostTrace]

@[simp] theorem headsetTrace_headset (events : List HeadsetMode.Event) :
    headsetTrace (events.map .headset) = events := by
  simp [headsetTrace, List.filterMap_map]

def staff (threads : Fin MonitorCount → Thread) : Nat := ∑ i, (threads i).active.toNat

theorem staff_update (threads : Fin MonitorCount → Thread) (i : Fin MonitorCount) (t : Thread) :
    staff (Function.update threads i t) + (threads i).active.toNat =
      staff threads + t.active.toNat := by
  have each : (fun j => (Function.update threads i t j).active.toNat) =
      Function.update (fun j => (threads j).active.toNat) i t.active.toNat := by
    funext j
    by_cases same : j = i
    · subst same; simp
    · simp [same]
  have split := Finset.sum_eq_add_sum_sdiff_singleton_of_mem (Finset.mem_univ i)
    fun j => (threads j).active.toNat
  rw [staff, each, Finset.sum_update_of_mem (Finset.mem_univ i), staff, split]
  omega

structure Staffed (s : Process) : Prop where
  counted : s.activeWorkers = staff s.threads
  selected : ∀ i, s.threads i ≠ .absent → selects s.settings.selection i = true
  started : ∀ i, selects s.settings.selection i = true → s.threads i = .absent →
    ∃ rest, s.main = .starting rest ∧ i ∈ rest
  waiting : ∀ rest, s.main = .starting rest → rest.Nodup ∧ ∀ i ∈ rest, s.threads i = .absent
  joined : ∀ saved code, s.main = .exited saved code → ∀ i, (s.threads i).active = false

theorem initial_staffed (settings : StreamSettings) : Staffed (.initial settings) where
  counted := by simp [Process.initial, staff, Thread.active]
  selected := by simp [Process.initial]
  started i _ _ := ⟨_, rfl, List.mem_finRange i⟩
  waiting rest main := by
    obtain rfl := MainThread.starting.inj main
    exact ⟨List.nodup_finRange _, fun _ _ => rfl⟩
  joined := by simp [Process.initial]

/-- A thread that is at work goes on. -/
theorem Staffed.place {s next : Process} (staffed : Staffed s) {i : Fin MonitorCount} {t : Thread}
    (working : (s.threads i).active = true) (threads : next.threads = Function.update s.threads i t)
    (present : t ≠ .absent) (settings : next.settings = s.settings) (main : next.main = s.main)
    (counted : next.activeWorkers + 1 = s.activeWorkers + t.active.toNat) : Staffed next := by
  have known : s.threads i ≠ .absent := by
    intro absent
    simp [absent, Thread.active] at working
  have balance := staff_update s.threads i t
  rw [working, Bool.toNat_true] at balance
  refine ⟨?_, fun j there => ?_, fun j chosen absent => ?_, fun rest starting => ?_,
    fun saved code exited => ?_⟩
  · have := staffed.counted
    rw [threads]
    omega
  · rw [settings]
    by_cases same : j = i
    · subst same
      exact staffed.selected j known
    · exact staffed.selected j (by rwa [threads, Function.update_of_ne same] at there)
  · rw [settings] at chosen
    rw [main]
    by_cases same : j = i
    · subst same
      rw [threads, Function.update_self] at absent
      exact absurd absent present
    · exact staffed.started j chosen (by rwa [threads, Function.update_of_ne same] at absent)
  · obtain ⟨distinct, absent⟩ := staffed.waiting rest (main ▸ starting)
    refine ⟨distinct, fun j member => ?_⟩
    have other : j ≠ i := by
      rintro rfl
      exact known (absent j member)
    rw [threads, Function.update_of_ne other]
    exact absent j member
  · have idle := staffed.joined saved code (main ▸ exited) i
    rw [working] at idle
    contradiction

/-- The main thread goes on, and neither starts a thread nor ends the process. -/
theorem Staffed.main {s next : Process} (staffed : Staffed s) (threads : next.threads = s.threads)
    (settings : next.settings = s.settings) (active : next.activeWorkers = s.activeWorkers)
    (started : ∀ i, ¬∃ rest, s.main = .starting rest ∧ i ∈ rest)
    (main : ∀ rest, next.main ≠ .starting rest)
    (joined : ∀ saved code, next.main = .exited saved code → ∀ i, (s.threads i).active = false) :
    Staffed next where
  counted := by rw [active, threads, staffed.counted]
  selected := by simpa only [threads, settings] using staffed.selected
  started i chosen absent := by
    rw [threads] at absent
    rw [settings] at chosen
    exact absurd (staffed.started i chosen absent) (started i)
  waiting rest starting := absurd starting (main rest)
  joined := by simpa only [threads] using joined

theorem after_working (host : Host.State) (i : Fin MonitorCount) :
    Process.after host i ≠ .absent ∧ (Process.after host i).active = true := by
  unfold Process.after
  split <;> exact ⟨by simp, rfl⟩

theorem Moved.staffed {s next : Process} {seen : List Observation} (moved : Moved s next seen)
    (staffed : Staffed s) : Staffed next := by
  have beyond {main : MainThread} (at_ : s.main = main) (other : ∀ i rest, main ≠ .starting (i :: rest))
      (i : Fin MonitorCount) : ¬∃ rest, s.main = .starting rest ∧ i ∈ rest := by
    rintro ⟨rest, starting, member⟩
    cases rest with
    | nil => contradiction
    | cons j rest => exact other j rest (at_ ▸ starting)
  cases moved with
  | signalled =>
    exact ⟨staffed.counted, staffed.selected, staffed.started, staffed.waiting, staffed.joined⟩
  | @skipped i rest main other =>
    obtain ⟨distinct, absent⟩ := staffed.waiting _ main
    refine ⟨staffed.counted, staffed.selected, fun j chosen gone => ?_, fun later starting => ?_,
      by simp⟩
    · obtain ⟨list, starting, member⟩ := staffed.started j chosen gone
      obtain rfl := MainThread.starting.inj (main.symm.trans starting)
      rcases List.mem_cons.mp member with rfl | later
      · exact absurd chosen (by simp [other])
      · exact ⟨rest, rfl, later⟩
    · obtain rfl := MainThread.starting.inj starting
      exact ⟨(List.nodup_cons.mp distinct).2, fun j member => absent j (List.mem_cons_of_mem _ member)⟩
  | @started i rest main chosen =>
    obtain ⟨distinct, absent⟩ := staffed.waiting _ main
    obtain ⟨fresh, distinct⟩ := List.nodup_cons.mp distinct
    have balance := staff_update s.threads i .setup
    have counted := staffed.counted
    have idle : (s.threads i).active = false := by simp [absent i List.mem_cons_self, Thread.active]
    have one : Thread.setup.active.toNat = 1 := rfl
    rw [idle, Bool.toNat_false, one] at balance
    refine ⟨by simp only [Process.place]; omega, fun j there => ?_, fun j picked gone => ?_,
      fun later starting => ?_, by simp [Process.place]⟩
    · by_cases same : j = i
      · exact same ▸ chosen
      · exact staffed.selected j (by simpa [Process.place, same] using there)
    · have other : j ≠ i := by
        rintro rfl
        simp [Process.place] at gone
      obtain ⟨list, starting, member⟩ := staffed.started j picked
        (by simpa [Process.place, other] using gone)
      obtain rfl := MainThread.starting.inj (main.symm.trans starting)
      exact ⟨rest, rfl, (List.mem_cons.mp member).resolve_left other⟩
    · obtain rfl := MainThread.starting.inj starting
      refine ⟨distinct, fun j member => ?_⟩
      have other : j ≠ i := fun same => fresh (same ▸ member)
      simpa [Process.place, other] using absent j (List.mem_cons_of_mem _ member)
  | opened now main => exact staffed.main rfl rfl rfl (beyond main (by simp)) (by simp) (by simp)
  | unwatched main => exact staffed.main rfl rfl rfl (beyond main (by simp)) (by simp) (by simp)
  | turned main => exact staffed.main rfl rfl rfl (beyond main (by simp)) (by simp) (by simp)
  | watched present stepped way =>
    generalize at_ : s.main = before at way
    cases way with
    | finish => exact staffed.main rfl rfl rfl (beyond at_ (by simp)) (by simp) (by simp)
    | poll p => exact staffed.main rfl rfl rfl (beyond at_ (by simp)) (by simp) (by simp)
    | relight displays =>
      subst at_
      exact ⟨staffed.counted, staffed.selected, staffed.started, staffed.waiting, staffed.joined⟩
  | exited saved main inactive =>
    exact staffed.main rfl rfl rfl (beyond main (by simp)) (by simp) (fun _ _ _ => inactive)
  | served acted =>
    exact ⟨staffed.counted, staffed.selected, staffed.started, staffed.waiting, staffed.joined⟩
  | prepared canRetry setup => exact staffed.place (by rw [setup]; rfl) rfl (by simp) rfl rfl rfl
  | @worked i a host first streaming own acted =>
    obtain ⟨present, working⟩ := after_working host i
    exact staffed.place (by rw [streaming]; rfl) rfl present rfl rfl (by rw [working]; rfl)
  | caught at_ =>
    exact staffed.place (by rcases at_ with at_ | at_ <;> rw [at_] <;> rfl) rfl (by simp) rfl rfl rfl
  | concluded ending => exact staffed.place (by rw [ending]; rfl) rfl (by simp) rfl rfl rfl
  | blamed caught => exact staffed.place (by rw [caught]; rfl) rfl (by simp) rfl rfl rfl
  | accused what blamed => exact staffed.place (by rw [blamed]; rfl) rfl (by simp) rfl rfl rfl
  | @left i reported =>
    have working : (s.threads i).active = true := by rw [reported]; rfl
    refine staffed.place working rfl (by simp) rfl rfl ?_
    have balance := staff_update s.threads i .returned
    have counted := staffed.counted
    have zero : Thread.returned.active.toNat = 0 := rfl
    rw [working, Bool.toNat_true, zero] at balance
    simp only [Process.place, zero]
    omega

structure Watched (s : Process) (trace : List Observation) : Prop where
  tracked : ∀ h, s.headset = some h → HeadsetMode.Tracked h (headsetTrace trace)
  absent : s.headset = none → headsetTrace trace = []
  before : ∀ rest, s.main = .starting rest → s.headset = none
  running : s.main = .watching ∨ s.main = .polling →
    ∃ h, s.headset = some h ∧ h.finished = false
  ended : s.main = .joining ∨ (∃ saved code, s.main = .exited saved code) →
    ∀ h, s.headset = some h → h.finished = true

theorem finish_finished {h next : HeadsetMode.State} {code : Int} {events : List HeadsetMode.Event}
    (taken : HeadsetMode.step h (.finish code) = some (next, events)) : next.finished = true := by
  simp only [HeadsetMode.step, Option.ite_none_right_eq_some, HeadsetMode.finishStep] at taken
  obtain ⟨_, result⟩ := taken
  split at result <;> cases result
  · rw [(HeadsetMode.setLaptop_kept _ _ _ _).2.2.2.1]
  · rfl

theorem poll_finished {h next : HeadsetMode.State} {p : HeadsetMode.Poll}
    {events : List HeadsetMode.Event}
    (taken : HeadsetMode.step h (.poll p) = some (next, events)) : next.finished = false := by
  simp only [HeadsetMode.step, Option.ite_none_right_eq_some, HeadsetMode.pollStep] at taken
  obtain ⟨⟨running, _⟩, result⟩ := taken
  have noted := (HeadsetMode.note_kept h p).2.2.1
  split at result <;> cases result
  · rw [noted, running]
  · rw [(HeadsetMode.setLaptop_kept _ _ _ _).2.2.2.1, noted, running]

theorem relight_finished {h next : HeadsetMode.State} {displays : List String}
    {events : List HeadsetMode.Event}
    (taken : HeadsetMode.step h (.relight displays) = some (next, events)) :
    next.finished = h.finished := by
  cases taken
  rfl

/-- A step that leaves the headset-mode loop alone. -/
theorem Watched.quiet {s next : Process} {trace seen : List Observation} (watched : Watched s trace)
    (headset : next.headset = s.headset) (silent : headsetTrace seen = [])
    (before : ∀ rest, next.main = .starting rest → s.headset = none)
    (running : next.main = .watching ∨ next.main = .polling →
      ∃ h, s.headset = some h ∧ h.finished = false)
    (ended : next.main = .joining ∨ (∃ saved code, next.main = .exited saved code) →
      ∀ h, s.headset = some h → h.finished = true) : Watched next (trace ++ seen) := by
  refine ⟨?_, ?_, ?_, ?_, ?_⟩
  · simpa only [headset, headsetTrace_append, silent, List.append_nil] using watched.tracked
  · simpa only [headset, headsetTrace_append, silent, List.append_nil] using watched.absent
  · simpa only [headset] using before
  · simpa only [headset] using running
  · simpa only [headset] using ended

theorem Moved.watched_step {s next : Process} {trace seen : List Observation}
    (moved : Moved s next seen) (watched : Watched s trace) : Watched next (trace ++ seen) := by
  have same : ∀ {after : Process} {later : List Observation}, after.headset = s.headset →
      after.main = s.main → headsetTrace later = [] → Watched after (trace ++ later) := by
    intro after later headset main silent
    refine watched.quiet headset silent ?_ ?_ ?_
    · rw [main]; exact watched.before
    · rw [main]; exact watched.running
    · rw [main]; exact watched.ended
  cases moved with
  | skipped main => exact watched.quiet rfl rfl (fun _ _ => watched.before _ main) (by simp) (by simp)
  | started main =>
    exact watched.quiet rfl rfl (fun _ _ => watched.before _ main) (by simp [Process.place])
      (by simp [Process.place])
  | opened now main =>
    have silent := watched.absent (watched.before _ main)
    refine ⟨fun h present => ?_, by simp, by simp, fun _ => ⟨_, rfl, rfl⟩, by simp⟩
    obtain rfl := Option.some.inj present
    rw [List.append_nil, silent]
    exact HeadsetMode.initial_tracked now
  | unwatched main =>
    have none_there := watched.before _ main
    exact watched.quiet rfl rfl (by simp) (by simp) (by simp [none_there])
  | turned main =>
    exact watched.quiet rfl rfl (by simp) (fun _ => watched.running (.inl main)) (by simp)
  | @watched h a after events main present stepped way =>
    have tracked := HeadsetMode.step_tracked (watched.tracked h present) stepped
    refine ⟨fun g there => ?_, by simp, fun rest starting => ?_, fun there => ⟨_, rfl, ?_⟩,
      fun ended g there => ?_⟩
    · obtain rfl := Option.some.inj there
      rwa [headsetTrace_append, headsetTrace_headset]
    · generalize at_ : s.main = before at way
      cases way with
      | finish => contradiction
      | poll => contradiction
      | relight =>
        rw [watched.before rest (at_.trans starting)] at present
        contradiction
    · generalize at_ : s.main = before at way
      cases way with
      | finish => simp at there
      | poll p => exact poll_finished stepped
      | relight =>
        obtain ⟨g, kept, running⟩ := watched.running (by rwa [at_])
        obtain rfl := Option.some.inj (present.symm.trans kept)
        rw [relight_finished stepped, running]
    · obtain rfl := Option.some.inj there
      generalize at_ : s.main = before at way
      cases way with
      | finish code => exact finish_finished stepped
      | poll p => simp at ended
      | relight displays =>
        rw [relight_finished stepped]
        exact watched.ended (by rwa [at_]) h present
  | exited saved main =>
    exact watched.quiet rfl rfl (by simp) (by simp) (fun _ => watched.ended (.inl main))
  | worked first streaming own acted permitted =>
    refine same rfl rfl ?_
    rcases permitted with rfl | ⟨rfl, _⟩ <;> simp [headsetTrace]
  | served => exact same rfl rfl (by simp)
  | _ => exact same rfl rfl rfl

theorem initial_watched (settings : StreamSettings) : Watched (.initial settings) [] where
  tracked := by simp [Process.initial]
  absent _ := rfl
  before _ _ := rfl
  running := by simp [Process.initial]
  ended := by simp [Process.initial]

/-- An iteration of a stream's loop begins only while nobody has asked to stop. -/
def Prompt (past : List Observation) : Observation → Prop
  | .iterated _ => .signalled ∉ past ∧ ∀ j, .failed j ∉ past
  | _ => True

structure Flagged (s : Process) (trace : List Observation) : Prop where
  interrupted : s.interrupted = true ↔ .signalled ∈ trace
  failed : s.failed = true ↔ ∃ i, .failed i ∈ trace
  prompt : Machine.Each Prompt trace
  code : ∀ saved code, s.main = .exited saved code →
    code = if saved = true ∧ s.failed = false then 0 else 1

theorem initial_flagged (settings : StreamSettings) : Flagged (.initial settings) [] where
  interrupted := by simp [Process.initial]
  failed := by simp [Process.initial]
  prompt := Machine.each_nil _
  code := by simp [Process.initial]

def Quiet : Observation → Prop
  | .signalled | .failed _ | .iterated _ => False
  | _ => True

theorem each_prompt {past seen : List Observation} (quiet : ∀ e ∈ seen, Quiet e) :
    Machine.Each (fun earlier => Prompt (past ++ earlier)) seen := by
  rintro before e after rfl
  have here := quiet e (by simp)
  cases e <;> trivial

/-- A step that touches no flag. -/
theorem Flagged.quiet {s next : Process} {trace seen : List Observation} (flagged : Flagged s trace)
    (interrupted : next.interrupted = s.interrupted) (failed : next.failed = s.failed)
    (silent : ∀ e ∈ seen, Quiet e)
    (code : ∀ saved code, next.main = .exited saved code →
      s.main = .exited saved code ∨ code = if saved = true ∧ s.failed = false then 0 else 1) :
    Flagged next (trace ++ seen) := by
  have unsignalled : .signalled ∉ seen := fun member => silent _ member
  have unfailed (i : Fin MonitorCount) : .failed i ∉ seen := fun member => silent _ member
  refine ⟨?_, ?_, Machine.each_append_iff.mpr ⟨flagged.prompt, each_prompt silent⟩,
    fun saved value exited => ?_⟩
  · rw [interrupted, List.mem_append]
    exact flagged.interrupted.trans (or_iff_left unsignalled).symm
  · rw [failed, flagged.failed]
    exact exists_congr fun i => by rw [List.mem_append, or_iff_left (unfailed i)]
  · rw [failed]
    exact (code saved value exited).elim (flagged.code saved value) id

theorem quiet_host (events : List Host.Observation) :
    ∀ e ∈ events.map Observation.host, Quiet e := by
  intro e member
  obtain ⟨event, _, rfl⟩ := List.mem_map.mp member
  trivial

theorem quiet_headset (events : List HeadsetMode.Event) :
    ∀ e ∈ events.map Observation.headset, Quiet e := by
  intro e member
  obtain ⟨event, _, rfl⟩ := List.mem_map.mp member
  trivial

theorem Moved.flagged {s next : Process} {trace seen : List Observation} (staffed : Staffed s)
    (moved : Moved s next seen) (flagged : Flagged s trace) : Flagged next (trace ++ seen) := by
  have none_seen : ∀ e ∈ ([] : List Observation), Quiet e := by simp
  cases moved with
  | signalled =>
    refine ⟨by simp, ?_, ?_, flagged.code⟩
    · rw [flagged.failed]
      exact exists_congr fun i => by simp
    · exact Machine.each_append_iff.mpr
        ⟨flagged.prompt, Machine.each_cons_iff.mpr ⟨trivial, Machine.each_nil _⟩⟩
  | @blamed i caught =>
    refine ⟨?_, by simp [Process.place], ?_, fun saved code exited => ?_⟩
    · exact flagged.interrupted.trans (by simp)
    · exact Machine.each_append_iff.mpr
        ⟨flagged.prompt, Machine.each_cons_iff.mpr ⟨trivial, Machine.each_nil _⟩⟩
    · have idle := staffed.joined saved code exited i
      rw [caught] at idle
      contradiction
  | @worked i a host first streaming own acted permitted =>
    rcases permitted with rfl | ⟨rfl, running, healthy⟩
    · exact flagged.quiet rfl rfl (quiet_host _) fun _ _ => .inl
    · have begun : Flagged s (trace ++ [.iterated i]) := by
        refine ⟨flagged.interrupted.trans (by simp), ?_, ?_, flagged.code⟩
        · rw [flagged.failed]
          exact exists_congr fun j => by simp
        · refine Machine.each_append_iff.mpr
            ⟨flagged.prompt, Machine.each_cons_iff.mpr ⟨?_, Machine.each_nil _⟩⟩
          rw [List.append_nil]
          refine ⟨fun member => ?_, fun j member => ?_⟩
          · exact absurd (flagged.interrupted.mpr member) (by simp [running])
          · exact absurd (flagged.failed.mpr ⟨j, member⟩) (by simp [healthy])
      rw [← List.append_assoc]
      exact begun.quiet rfl rfl (quiet_host _) fun _ _ => .inl
  | exited saved main inactive =>
    refine flagged.quiet rfl rfl (by simp [Quiet]) fun later code exited => .inr ?_
    obtain ⟨rfl, rfl⟩ := MainThread.exited.inj exited
    rfl
  | watched present stepped way =>
    refine flagged.quiet rfl rfl (quiet_headset _) fun saved code exited => .inl ?_
    generalize at_ : s.main = before at way
    cases way with
    | relight => exact exited
    | finish => contradiction
    | poll => contradiction
  | served => exact flagged.quiet rfl rfl (quiet_host _) fun _ _ => .inl
  | skipped | started | opened | unwatched | turned =>
    exact flagged.quiet rfl rfl none_seen (by simp [Process.place])
  | _ => exact flagged.quiet rfl rfl none_seen fun _ _ => .inl

def recordings (i : Fin MonitorCount) (trace : List Observation) : List EncodedPacket :=
  Host.recordings i (hostTrace trace)

/-- The report of one stream against its thread and the packets its sink has taken. -/
structure Entry (t : Thread) (w : Host.StreamWorker) (position : Transport.Publisher)
    (report : Option Report) (recorded : List EncodedPacket) (blamed : Prop) : Prop where
  fresh : t = .absent ∨ t = .setup → w.phase = .head ∧ position = .idle
  running : t = .streaming → w.phase ≠ .failed ∧ w.phase ≠ .finished
  ending : t = .ending → w.phase = .finished
  counted : Counted w recorded
  reported : report.isSome = true ↔ t = .reported ∨ t = .returned
  done : ∀ frames bytes adjusted, report = some (.done frames bytes adjusted) →
    frames = recorded.length ∧ bytes = (recorded.flatMap EncodedPacket.bytes).length
  blamed : blamed ↔ t = .blamed ∨ ∃ what, report = some (.error what)

structure Reported (s : Process) (trace : List Observation) : Prop where
  entries : ∀ i, Entry (s.threads i) (s.host.streams i) (s.host.transport.publishers i)
    (s.reports i) (recordings i trace) (.failed i ∈ trace)

theorem initial_reported (settings : StreamSettings) : Reported (.initial settings) [] where
  entries i := by
    refine ⟨fun _ => ⟨rfl, rfl⟩, ?_, ?_, fun _ => ⟨rfl, rfl⟩, ?_, ?_, ?_⟩ <;>
      simp [Process.initial]

def Thread.settled (t : Thread) : Prop := t = .blamed ∨ t = .reported ∨ t = .returned

section Entries

variable {t t' : Thread} {w w' : Host.StreamWorker} {position position' : Transport.Publisher}
  {report : Option Report} {recorded recorded' : List EncodedPacket} {blamed : Prop}

theorem Entry.unsettled (entry : Entry t w position report recorded blamed) (going : ¬t.settled) :
    report = none ∧ ¬blamed := by
  simp only [Thread.settled, not_or] at going
  have unreported : report = none := by
    cases report with
    | none => rfl
    | some report => exact absurd (entry.reported.mp rfl) (by simp [going])
  exact ⟨unreported, fun blame => by simpa [going, unreported] using entry.blamed.mp blame⟩

/-- A thread that has not ended its stream goes on. -/
theorem Entry.goes (entry : Entry t w position report recorded blamed) (going : ¬t.settled)
    (later : ¬t'.settled) (fresh : t' = .absent ∨ t' = .setup → w'.phase = .head ∧ position' = .idle)
    (running : t' = .streaming → w'.phase ≠ .failed ∧ w'.phase ≠ .finished)
    (ending : t' = .ending → w'.phase = .finished) (counted : Counted w' recorded') :
    Entry t' w' position' report recorded' blamed := by
  obtain ⟨rfl, innocent⟩ := entry.unsettled going
  simp only [Thread.settled, not_or] at later
  exact ⟨fresh, running, ending, counted, by simp [later], by simp, by simp [later, innocent]⟩

end Entries

structure Apart (i : Fin MonitorCount) (s next : Process) (seen : List Observation) : Prop where
  thread : next.threads i = s.threads i
  report : next.reports i = s.reports i
  host : Untouched i s.host next.host (hostTrace seen)
  unfailed : .failed i ∉ seen

theorem Reported.apart {s next : Process} {trace seen : List Observation} {i : Fin MonitorCount}
    (reported : Reported s trace) (apart : Apart i s next seen) :
    Entry (next.threads i) (next.host.streams i) (next.host.transport.publishers i)
      (next.reports i) (recordings i (trace ++ seen)) (.failed i ∈ trace ++ seen) := by
  have same : recordings i (trace ++ seen) = recordings i trace := by
    rw [recordings, hostTrace_append, Host.recordings_append, apart.host.recordings,
      List.append_nil, recordings]
  have failed : (.failed i ∈ trace ++ seen) = (.failed i ∈ trace) := by
    simp [apart.unfailed]
  rw [apart.thread, apart.report, apart.host.stream, apart.host.publisher, same, failed]
  exact reported.entries i

/-- A step of the thread of stream `i`. -/
theorem Reported.through {s next : Process} {trace seen : List Observation} (i : Fin MonitorCount)
    (reported : Reported s trace) (others : ∀ j ≠ i, Apart j s next seen)
    (own : Entry (next.threads i) (next.host.streams i) (next.host.transport.publishers i)
      (next.reports i) (recordings i (trace ++ seen)) (.failed i ∈ trace ++ seen)) :
    Reported next (trace ++ seen) := by
  refine ⟨fun j => ?_⟩
  by_cases same : j = i
  · exact same ▸ own
  · exact reported.apart (others j same)

/-- A step that leaves host and threads alone. -/
theorem Reported.quiet {s next : Process} {trace seen : List Observation}
    (reported : Reported s trace) (threads : next.threads = s.threads)
    (reports : next.reports = s.reports) (host : next.host = s.host) (silent : hostTrace seen = [])
    (unfailed : ∀ i, .failed i ∉ seen) : Reported next (trace ++ seen) where
  entries i := reported.apart ⟨by rw [threads], by rw [reports],
    ⟨by rw [host], by rw [host], by rw [silent]; rfl⟩, unfailed i⟩

theorem place_apart {s next : Process} {seen : List Observation} {i j : Fin MonitorCount}
    {t : Thread} (other : j ≠ i) (threads : next.threads = Function.update s.threads i t)
    (report : next.reports j = s.reports j)
    (host : Untouched j s.host next.host (hostTrace seen)) (unfailed : .failed j ∉ seen) :
    Apart j s next seen :=
  ⟨by rw [threads, Function.update_of_ne other], report, host, unfailed⟩

/-- A step of the thread of stream `i` outside its loop. -/
theorem Reported.place {s next : Process} {trace seen : List Observation} {i : Fin MonitorCount}
    {t : Thread} (reported : Reported s trace)
    (threads : next.threads = Function.update s.threads i t)
    (reports : ∀ j ≠ i, next.reports j = s.reports j) (host : next.host = s.host)
    (silent : hostTrace seen = []) (unfailed : ∀ j ≠ i, .failed j ∉ seen)
    (own : Entry t (s.host.streams i) (s.host.transport.publishers i) (next.reports i)
      (recordings i trace) (.failed i ∈ trace ++ seen)) : Reported next (trace ++ seen) := by
  refine reported.through i (fun j other => place_apart other threads (reports j other)
    ⟨by rw [host], by rw [host], by rw [silent]; rfl⟩ (unfailed j other)) ?_
  have same : recordings i (trace ++ seen) = recordings i trace := by
    rw [recordings, hostTrace_append, silent, List.append_nil, recordings]
  rw [threads, Function.update_self, host, same]
  exact own

/-- What the worker of a stream does in its loop. -/
theorem Reported.worked {s : Process} {host : Host.State} {trace first : List Observation}
    {i : Fin MonitorCount} {a : Host.Action} (reported : Reported s trace)
    (streaming : s.threads i = .streaming) (own : Own i a) (acted : Host.act s.host a = some host)
    (silent : hostTrace first = []) (unfailed : ∀ j, .failed j ∉ first) :
    Reported ({ s with host := s.keep host }.place i (Process.after host i))
      (trace ++ (first ++ (Host.observe s.host a).map .host)) := by
  have seen : hostTrace (first ++ (Host.observe s.host a).map .host) = Host.observe s.host a := by
    rw [hostTrace_append, silent, hostTrace_host, List.nil_append]
  have innocent (j : Fin MonitorCount) :
      .failed j ∉ first ++ (Host.observe s.host a).map Observation.host := by
    simp [unfailed j]
  refine reported.through i (fun j other => place_apart other rfl rfl
    (by rw [seen]; exact keep_untouched (own_untouched other own acted)) (innocent j)) ?_
  have entry := reported.entries i
  have same : (.failed i ∈ trace ++ (first ++ (Host.observe s.host a).map Observation.host)) =
      (.failed i ∈ trace) := by
    simp [unfailed i]
  have counted : Counted (host.streams i)
      (recordings i (trace ++ (first ++ (Host.observe s.host a).map .host))) := by
    rw [recordings, hostTrace_append, seen, Host.recordings_append]
    exact entry.counted.acted (Host.observedStep_acted (a := a) (by simp [Host.observedStep, acted]))
  have going : ¬(s.threads i).settled := by simp [streaming, Thread.settled]
  rw [same]
  simp only [Process.place_thread, Process.place_host, keep_streams]
  refine entry.goes going ?_ ?_ ?_ ?_ counted
  all_goals
    simp only [Process.after]
    split <;> simp_all [Thread.settled]

theorem Moved.reported {s next : Process} {trace seen : List Observation}
    (moved : Moved s next seen) (staffed : Staffed s) (reported : Reported s trace) :
    Reported next (trace ++ seen) := by
  cases moved with
  | @started i rest main chosen =>
    have absent : s.threads i = .absent := (staffed.waiting _ main).2 i List.mem_cons_self
    have entry := reported.entries i
    rw [absent] at entry
    refine reported.place rfl (fun _ _ => rfl) rfl rfl (by simp) ?_
    rw [List.append_nil]
    exact entry.goes (by simp [Thread.settled]) (by simp [Thread.settled])
      (fun _ => entry.fresh (.inl rfl)) (by simp) (by simp) entry.counted
  | @prepared i canRetry setup =>
    have entry := reported.entries i
    obtain ⟨head, idle⟩ := entry.fresh (.inr setup)
    have acted : Host.Acted s.host
        (s.host.put i { s.host.streams i with canRetry := canRetry }) [] :=
      .worked i idle (.kept (by simp [head]) (by simp [head]) rfl)
    have counted := entry.counted.acted acted
    refine reported.through i (fun j other => place_apart other rfl rfl
      (put_untouched other s.host _) (by simp)) ?_
    rw [List.append_nil]
    simp only [Process.place_thread]
    exact entry.goes (by simp [setup, Thread.settled]) (by simp [Thread.settled]) (by simp)
      (by simp [Host.State.put, head]) (by simp) (by simpa [Host.recordings] using counted)
  | @worked i a host first streaming own acted permitted =>
    rcases permitted with rfl | ⟨rfl, _⟩
    · exact reported.worked streaming own acted rfl (by simp)
    · exact reported.worked streaming own acted rfl (by simp)
  | @caught i at_ =>
    refine reported.place rfl (fun _ _ => rfl) rfl rfl (by simp) ?_
    rw [List.append_nil]
    refine (reported.entries i).goes ?_ (by simp [Thread.settled]) (by simp) (by simp) (by simp)
      (reported.entries i).counted
    rcases at_ with at_ | at_ <;> simp [at_, Thread.settled]
  | @concluded i ending =>
    have entry := reported.entries i
    obtain ⟨frames, bytes⟩ := entry.counted (by simp [entry.ending ending])
    obtain ⟨_, innocent⟩ := entry.unsettled (by simp [ending, Thread.settled])
    refine reported.place rfl (fun j other => by simp [Process.write, Process.place, other]) rfl rfl
      (by simp) ?_
    rw [List.append_nil]
    refine ⟨by simp, by simp, by simp, entry.counted, by simp [Process.write, Process.place], ?_, ?_⟩
    · intro count size adjusted written
      simp only [Process.write, Process.place, Function.update_self, Option.some.injEq,
        Report.done.injEq] at written
      obtain ⟨rfl, rfl, _⟩ := written
      exact ⟨frames, bytes⟩
    · simp [Process.write, Process.place, innocent]
  | @blamed i caught =>
    obtain ⟨unreported, _⟩ := (reported.entries i).unsettled (by simp [caught, Thread.settled])
    refine reported.place rfl (fun _ _ => rfl) rfl rfl (fun j other => by simpa using other) ?_
    exact ⟨by simp, by simp, by simp, (reported.entries i).counted,
      by simp [Process.place, unreported], by simp [Process.place, unreported], by simp⟩
  | @accused i what blamed =>
    have guilty := (reported.entries i).blamed.mpr (.inl blamed)
    refine reported.place rfl (fun j other => by simp [Process.write, Process.place, other]) rfl rfl
      (by simp) ?_
    rw [List.append_nil]
    exact ⟨by simp, by simp, by simp, (reported.entries i).counted,
      by simp [Process.write, Process.place], by simp [Process.write, Process.place],
      by simp [Process.write, Process.place, guilty]⟩
  | @left i gone =>
    have entry := reported.entries i
    refine reported.place rfl (fun _ _ => rfl) rfl rfl (by simp) ?_
    rw [List.append_nil]
    refine ⟨by simp, by simp, by simp, entry.counted, ?_, entry.done, ?_⟩
    · exact entry.reported.trans (by simp [gone])
    · exact entry.blamed.trans (by simp [gone, Process.place])
  | @served a transport _ acted =>
    refine ⟨fun i => reported.apart ⟨rfl, rfl, ?_, by simp⟩⟩
    rw [hostTrace_host]
    exact server_untouched acted i
  | watched => exact reported.quiet rfl rfl rfl (by simp) (by simp)
  | signalled | exited => exact reported.quiet rfl rfl rfl rfl (by simp)
  | _ => exact reported.quiet rfl rfl rfl rfl (by simp)

/-- The flags are never taken back. -/
theorem Moved.stopped {s next : Process} {seen : List Observation} (moved : Moved s next seen)
    (stopped : s.interrupted = true ∨ s.failed = true) :
    next.interrupted = true ∨ next.failed = true := by
  cases moved with
  | signalled => exact .inl rfl
  | blamed => exact .inr rfl
  | _ => exact stopped

theorem Moved.settings {s next : Process} {seen : List Observation} (moved : Moved s next seen) :
    next.settings = s.settings := by
  cases moved <;> rfl

structure Supervised (settings : StreamSettings) (s : Process) (trace : List Observation) :
    Prop where
  settings : s.settings = settings
  staffed : Staffed s
  watched : Watched s trace
  flagged : Flagged s trace
  reported : Reported s trace
  unused : s.settings.port = 0 → s.host.transport = .initial

/-- Without a port the transport is never used. -/
theorem Moved.unused {s next : Process} {seen : List Observation} (moved : Moved s next seen)
    (port : s.settings.port = 0) : next.host.transport = s.host.transport := by
  cases moved with
  | served listening => exact absurd port listening
  | worked => simp [Process.keep, port]
  | _ => rfl

theorem Supervised.step {settings : StreamSettings} {s next : Process} {a : Action}
    {trace seen : List Observation} (supervised : Supervised settings s trace)
    (taken : step s a = some (next, seen)) : Supervised settings next (trace ++ seen) := by
  have moved := step_moved taken
  exact ⟨moved.settings.trans supervised.settings, moved.staffed supervised.staffed,
    moved.watched_step supervised.watched, moved.flagged supervised.staffed supervised.flagged,
    moved.reported supervised.staffed supervised.reported,
    fun port => (moved.unused (moved.settings ▸ port)).trans (supervised.unused (moved.settings ▸ port))⟩

theorem run_supervised {settings : StreamSettings} {actions : List Action} {s : Process}
    {trace : List Observation}
    (run : Machine.exec step actions (.initial settings) = some (s, trace)) :
    Supervised settings s trace := by
  refine Machine.history (Supervised settings) ?_ ?_ run
  · exact ⟨rfl, initial_staffed settings, initial_watched settings, initial_flagged settings,
      initial_reported settings, fun _ => rfl⟩
  · exact fun _ _ _ _ _ supervised taken => supervised.step taken

/-- Once the main thread has joined the others, the selected streams are those with a report. -/
theorem Supervised.listed {settings : StreamSettings} {s : Process} {trace : List Observation}
    (supervised : Supervised settings s trace) {saved : Bool} {code : Nat}
    (exited : s.main = .exited saved code) (i : Fin MonitorCount) :
    (s.reports i).isSome = true ↔ selects settings.selection i = true := by
  obtain ⟨settings, staffed, _, _, reported, _⟩ := supervised
  have idle := staffed.joined saved code exited i
  rw [(reported.entries i).reported, ← settings]
  constructor
  · intro there
    refine staffed.selected i ?_
    rcases there with there | there <;> simp [there]
  · intro chosen
    by_cases absent : s.threads i = .absent
    · obtain ⟨rest, starting, _⟩ := staffed.started i chosen absent
      rw [exited] at starting
      contradiction
    · refine .inr (Decidable.byContradiction fun present => ?_)
      simp [Thread.active, absent, present] at idle

/-- How a run of the process ends. When it exits no thread is left; the statistics list just the
selected streams, with an error for those that failed and for the others the numbers of frames and
bytes that their sinks have taken; the exit code is 0 exactly if the statistics were saved and
list no error. The displays have been switched back on after each time that they were switched
off, and no stream has begun an iteration after a signal or a failure. -/
theorem exit_accounts {settings : StreamSettings} {actions : List Action} {s : Process}
    {trace : List Observation}
    (run : Machine.exec step actions (.initial settings) = some (s, trace))
    {saved : Bool} {code : Nat} (exited : s.main = .exited saved code) :
    s.activeWorkers = 0 ∧
    s.statistics.map Prod.fst = (List.finRange MonitorCount).filter (selects settings.selection) ∧
    (∀ i what, (i, .error what) ∈ s.statistics → .failed i ∈ trace) ∧
    (∀ i frames bytes adjusted, (i, .done frames bytes adjusted) ∈ s.statistics →
      .failed i ∉ trace ∧ frames = (recordings i trace).length ∧
        bytes = ((recordings i trace).flatMap EncodedPacket.bytes).length) ∧
    (code = 0 ↔ saved = true ∧ ∀ i what, (i, .error what) ∉ s.statistics) ∧
    (∃ n, HeadsetMode.commands (headsetTrace trace) = HeadsetMode.turns n) ∧
    Machine.Each Prompt trace := by
  have supervised := run_supervised run
  have listed := supervised.listed exited
  obtain ⟨_, staffed, watched, flagged, reported, _⟩ := supervised
  have entry (i : Fin MonitorCount) (report : Report) :
      (i, report) ∈ s.statistics ↔ s.reports i = some report := by
    simp [Process.statistics]
  have blamed (i : Fin MonitorCount) :
      .failed i ∈ trace ↔ ∃ what, s.reports i = some (.error what) := by
    refine (reported.entries i).blamed.trans (or_iff_right fun there => ?_)
    have idle := staffed.joined saved code exited i
    rw [there] at idle
    contradiction
  refine ⟨?_, ?_, ?_, ?_, ?_, ?_, flagged.prompt⟩
  · rw [staffed.counted, staff]
    exact Finset.sum_eq_zero fun i _ => by rw [staffed.joined saved code exited i]; rfl
  · rw [Process.statistics, List.map_filterMap]
    rw [← List.filterMap_eq_filter]
    refine List.filterMap_congr fun i _ => ?_
    have this := listed i
    cases there : s.reports i <;> cases chosen : selects settings.selection i <;>
      simp_all [Option.guard]
  · intro i what member
    exact (blamed i).mpr ⟨what, (entry i _).mp member⟩
  · intro i frames bytes adjusted member
    have written := (entry i _).mp member
    refine ⟨fun failed => ?_, (reported.entries i).done frames bytes adjusted written⟩
    obtain ⟨what, error⟩ := (blamed i).mp failed
    simp [written] at error
  · have healthy : s.failed = false ↔ ∀ i what, (i, .error what) ∉ s.statistics := by
      rw [← Bool.not_eq_true, flagged.failed]
      simp only [blamed, entry, not_exists]
    rw [flagged.code saved code exited, ← healthy]
    split <;> simp_all
  · cases present : s.headset with
    | none => exact ⟨0, by rw [watched.absent present]; rfl⟩
    | some h =>
      have tracked := watched.tracked h present
      obtain ⟨n, issued⟩ := tracked.turns
      have finished := watched.ended (.inr ⟨saved, code, exited⟩) h present
      refine ⟨n, ?_⟩
      rw [issued, tracked.finished finished]
      simp

def sampleSettings : StreamSettings :=
  ⟨⟨"auto", "", false, 60, 50⟩, "auto", 0, 24, 27183, "all", "artifacts/streams", true, true⟩

/-- A client connects, and stream 1 has a frame in its encoder. -/
def sampleStart : List Action := [
  .start 0, .start 0, .start 0, .setup (.last 1) (some false), .server (.head 0),
  .server (.polled ⟨true, false, false, false⟩ true), .server .accept, .turn 0,
  .poll ⟨true, 0, 0, 0, []⟩, .loop (.last 1) (.next (.sample 5)) false,
  .loop (.last 1) .take false, .loop (.last 1) (.encode false 7 true) false]

/-- The frame is sent, the displays are switched off, and stream 0 fails before its loop. -/
def sampleProcess : List Action := sampleStart ++ [
  .loop (.last 1) (.receive Host.samplePicture true) false, .publish (.last 1) .check,
  .publish (.last 1) .frame, .publish (.last 1) .enqueue, .loop (.last 1) .drained false,
  .turn 0, .poll ⟨true, 1600000000, 1600000000, 0, ["eDP-1"]⟩, .setup ⟨0, by decide⟩ none,
  .blame ⟨0, by decide⟩, .report ⟨0, by decide⟩ "No encoder", .leave ⟨0, by decide⟩,
  .loop (.last 1) (.leave true) false, .loop (.last 1) .drained false, .conclude (.last 1) true,
  .leave (.last 1), .turn 0, .exit true]

theorem exit_accounts_sample :
    ∃ s trace, Machine.exec step sampleProcess (.initial sampleSettings) = some (s, trace) ∧
      s.main = .exited true 1 ∧ s.activeWorkers = 0 ∧
      s.statistics = [(⟨0, by decide⟩, .error "No encoder"), (.last 1, .done 1 17 0)] ∧
      .failed ⟨0, by decide⟩ ∈ trace ∧ (recordings (.last 1) trace).length = 1 ∧
      HeadsetMode.commands (headsetTrace trace) = [.off, .on] ∧
      (∃ n, HeadsetMode.commands (headsetTrace trace) = HeadsetMode.turns n) ∧
      Machine.Each Prompt trace := by
  have runs : (Machine.exec step sampleProcess (.initial sampleSettings)).isSome = true := by
    decide +kernel
  obtain ⟨⟨s, trace⟩, run⟩ := Option.isSome_iff_exists.mp runs
  have reached : (Machine.exec step sampleProcess (.initial sampleSettings)).map
      (fun r => (r.1.main, r.1.statistics, HeadsetMode.commands (headsetTrace r.2))) =
      some (.exited true 1, [(⟨0, by decide⟩, .error "No encoder"), (.last 1, .done 1 17 0)],
        [.off, .on]) := by
    decide +kernel
  simp only [run, Option.map_some, Option.some.injEq, Prod.mk.injEq] at reached
  obtain ⟨exited, statistics, commands⟩ := reached
  obtain ⟨idle, _, errors, done, _, turns, prompt⟩ := exit_accounts run exited
  refine ⟨s, trace, run, exited, idle, statistics, errors _ "No encoder" (by simp [statistics]), ?_,
    commands, turns, prompt⟩
  exact (done (.last 1) 1 17 0 (by simp [statistics])).2.1.symm

end Quest.StreamProcess
