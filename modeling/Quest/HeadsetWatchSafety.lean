import Quest.HeadsetWatch

/-! What the USB watcher processes and when it stops the displays: exactly the complete
listings of each tracker, and the displays only after an absence as long as the grace. -/
namespace Quest.HeadsetWatch

open FramedStream (Reading complete)

variable {config : Config}

/-- Steps of the parser keep their place in the tracker's stream. -/
def Framed (s : State) : Prop :=
  ∃ taken upcoming, Reading Listing.frame s.sent taken upcoming s.buffer s.read ∧
    s.handled = taken.map Listing.text ∧
    (s.phase ≠ .parsing → ∀ l rest, upcoming = l :: rest → s.buffer.length < l.frame.length) ∧
    s.phase ≠ .crashed

theorem frame_length (l : Listing) : l.frame.length = 4 + l.text.length := by
  rw [Listing.frame, List.length_append, l.digits]

theorem initial_framed (start : Nat) (running : Bool) : Framed (.initial start running) :=
  ⟨[], [], FramedStream.reading_nil, rfl, by simp, by simp [State.initial]⟩

theorem processed_kept {s next : State} {listing : List UInt8} {now : Nat} {events : List Event}
    (processed : Processed config s listing now next events) :
    next.sent = s.sent ∧ next.read = s.read ∧ next.buffer = s.buffer ∧ next.phase = s.phase ∧
      next.handled = s.handled ++ [listing] := by
  cases processed <;> exact ⟨rfl, rfl, rfl, rfl, rfl⟩

/-- The next listing is in the buffer as a whole and is processed, or the parser waits. -/
theorem parse_cases (config : Config) {s : State} {taken upcoming : List Listing}
    (reading : Reading Listing.frame s.sent taken upcoming s.buffer s.read) (now : Nat) :
    (parseStep config s now = ({ s with phase := .testing }, []) ∧
      ∀ l rest, upcoming = l :: rest → s.buffer.length < l.frame.length) ∨
    ∃ l rest, upcoming = l :: rest ∧ l.frame.length ≤ s.buffer.length ∧
      parseStep config s now =
        process config { s with buffer := s.buffer.drop l.frame.length } l.text now := by
  by_cases short : s.buffer.length < 4
  · refine .inl ⟨by simp only [parseStep, if_pos short], fun l rest _ => ?_⟩
    rw [frame_length]
    omega
  -- Four bytes of a well-formed stream are the length of its next listing.
  obtain ⟨later, stream⟩ := reading.ahead
  cases upcoming with
  | nil =>
    have empty : s.buffer = [] := List.append_eq_nil_iff.mp stream |>.1
    simp [empty] at short
  | cons l rest =>
    have digits : s.buffer.take 4 = l.size := by
      have front := congrArg (List.take 4) stream
      rw [FramedStream.stream_cons, Listing.frame, List.append_assoc, List.take_left' l.digits,
        List.take_append_of_le_length (by omega)] at front
      exact front
    by_cases part : s.buffer.length < 4 + l.text.length
    · refine .inl ⟨by simp only [parseStep, if_neg short, digits, l.exact_, if_pos part], ?_⟩
      rintro _ _ ⟨⟩
      rw [frame_length]
      exact part
    · have whole : l.frame.length ≤ s.buffer.length := by rw [frame_length]; omega
      have text : (s.buffer.drop 4).take l.text.length = l.text := by
        have front := (reading.take whole).1
        rw [frame_length, List.take_add, digits, Listing.frame] at front
        exact List.append_cancel_left front
      refine .inr ⟨l, rest, rfl, whole, ?_⟩
      simp only [parseStep, if_neg short, digits, l.exact_, if_neg part, text, frame_length]

theorem step_framed {s next : State} {a : Action} {events : List Event} (framed : Framed s)
    (taken : step config s a = some (next, events)) : Framed next := by
  obtain ⟨done, upcoming, reading, handled, parsed, alive⟩ := framed
  simp only [step] at taken
  split at taken
  next l =>
    cases taken
    refine ⟨done, _, reading.send l, handled, fun idle other rest same => ?_, alive⟩
    cases upcoming with
    | nil =>
      obtain ⟨later, empty⟩ := reading.ahead
      rw [List.append_eq_nil_iff.mp empty |>.1, frame_length, List.length_nil]
      omega
    | cons first more =>
      obtain ⟨rfl, _⟩ := List.cons_eq_cons.mp same
      exact parsed idle first more rfl
  next limit phase =>
    split at taken <;> cases taken
    exact ⟨done, upcoming, reading.read limit, handled, by simp, by simp⟩
  next phase =>
    cases taken
    exact ⟨done, upcoming, reading, handled, fun _ => parsed (by simp [phase]), by simp⟩
  next now phase =>
    split at taken
    on_goal 2 => contradiction
    simp only [Option.some.injEq] at taken
    rcases parse_cases config reading now with ⟨waits, cut⟩ | ⟨l, rest, rfl, whole, does⟩
    · rw [waits] at taken
      cases taken
      exact ⟨done, upcoming, reading, handled, fun _ => cut, by simp⟩
    · rw [does] at taken
      have processed := process_processed config
        { s with buffer := s.buffer.drop l.frame.length } l.text now
      rw [taken] at processed
      obtain ⟨sent, read, buffer, still, heard⟩ := processed_kept processed
      refine ⟨done ++ [l], rest, ?_, ?_, fun idle => absurd (still.trans phase) idle, ?_⟩
      · rw [sent, read, buffer]
        exact (reading.take whole).2
      · apply heard.trans
        simp only [handled, List.map_append, List.map_cons, List.map_nil]
      · rw [still]
        exact alive
  next now phase =>
    split at taken
    on_goal 2 => contradiction
    have idle := parsed (by simp [phase])
    simp only [testStep, Option.some.injEq] at taken
    split at taken
    · cases taken
      exact ⟨done, upcoming, reading, handled, fun _ => idle, by simp⟩
    · split at taken <;> cases taken <;>
        exact ⟨done, upcoming, reading, handled, fun _ => idle, by simp⟩
  next phase =>
    cases taken
    exact ⟨done, upcoming, reading, handled, fun _ => parsed (by simp [phase]), by simp⟩
  next phase =>
    cases taken
    exact ⟨[], [], FramedStream.reading_nil, rfl, by simp, by simp⟩
  next => contradiction

/-- The listings processed since the last tracker was started. -/
def heard (past : List (List UInt8)) : Event → List (List UInt8)
  | .tracking => []
  | .processed listing _ => past ++ [listing]
  | _ => past

def listings (trace : List Event) : List (List UInt8) := trace.foldl heard []

def Questless (events : List Event) : Prop :=
  ∀ listing now, .processed listing now ∈ events → questSerials listing = []

def Unheard (events : List Event) : Prop := ∀ listing now, .processed listing now ∉ events

def Present (trace : List Event) : Prop :=
  ∃ before listing now after, trace = before ++ .processed listing now :: after ∧
    questSerials listing ≠ [] ∧ Unheard after

/-- At the end of `trace` an absence lasts that began at `began`, with the program or with
the first listing without a Quest, and `rest` has happened since. -/
def Absence (start : Nat) (trace : List Event) (began : Nat) (rest : List Event) : Prop :=
  Questless rest ∧
    (trace = rest ∧ began = start ∨
      ∃ before listing, trace = before ++ .processed listing began :: rest ∧
        questSerials listing = [] ∧ Present before)

/-- The displays are marked as running: a headset was attached after the last `detach`, or
there was none and they were running at the start. -/
def Owned (running : Bool) (trace : List Event) : Prop :=
  (∃ before serial after, trace = before ++ .attached serial :: after ∧ ∀ t, .detached t ∉ after) ∨
    running = true ∧ ∀ t, .detached t ∉ trace

theorem absence_snoc {start began : Nat} {trace rest : List Event} {e : Event} :
    Absence start (trace ++ [e]) began rest ↔
      (∃ earlier, rest = earlier ++ [e] ∧ Questless [e] ∧ Absence start trace began earlier) ∨
      rest = [] ∧ ∃ listing, e = .processed listing began ∧ questSerials listing = [] ∧
        Present trace := by
  constructor
  · rintro ⟨quiet, ⟨rfl, rfl⟩ | ⟨before, listing, split, none_, present⟩⟩
    · exact .inl ⟨trace, rfl, fun l now member => quiet l now (List.mem_append_right _ member),
        fun l now member => quiet l now (List.mem_append_left _ member), .inl ⟨rfl, rfl⟩⟩
    rcases Machine.snoc_split split with ⟨rfl, rfl, rfl⟩ | ⟨earlier, rfl, rfl⟩
    · exact .inr ⟨rfl, listing, rfl, none_, present⟩
    · exact .inl ⟨earlier, rfl, fun l now member => quiet l now (List.mem_append_right _ member),
        fun l now member => quiet l now (List.mem_append_left _ member),
        .inr ⟨before, listing, rfl, none_, present⟩⟩
  · rintro (⟨earlier, rfl, last, quiet, since⟩ | ⟨rfl, listing, rfl, none_, present⟩)
    · refine ⟨fun l now member => ?_, ?_⟩
      · exact (List.mem_append.mp member).elim (quiet l now) (last l now)
      · rcases since with ⟨rfl, rfl⟩ | ⟨before, listing, rfl, none_, present⟩
        · exact .inl ⟨rfl, rfl⟩
        · exact .inr ⟨before, listing, by simp, none_, present⟩
    · exact ⟨by simp [Questless], .inr ⟨trace, listing, rfl, none_, present⟩⟩

theorem present_snoc {trace : List Event} {e : Event} :
    Present (trace ++ [e]) ↔
      (∃ listing now, e = .processed listing now ∧ questSerials listing ≠ []) ∨
        Unheard [e] ∧ Present trace := by
  constructor
  · rintro ⟨before, listing, now, after, split, quest, unheard⟩
    rcases Machine.snoc_split split with ⟨rfl, rfl, _⟩ | ⟨earlier, rfl, rfl⟩
    · exact .inl ⟨listing, now, rfl, quest⟩
    · exact .inr ⟨fun l t member => unheard l t (List.mem_append_right _ member),
        before, listing, now, earlier, rfl, quest,
        fun l t member => unheard l t (List.mem_append_left _ member)⟩
  · rintro (⟨listing, now, rfl, quest⟩ | ⟨last, before, listing, now, after, rfl, quest, unheard⟩)
    · exact ⟨trace, listing, now, [], rfl, quest, by simp [Unheard]⟩
    · refine ⟨before, listing, now, after ++ [e], by simp, quest, fun l t member => ?_⟩
      exact (List.mem_append.mp member).elim (unheard l t) (last l t)

structure Watched (start : Nat) (running : Bool) (s : State) (trace : List Event) : Prop where
  present : Present trace ↔ s.missingSince = none
  absent : ∀ began, s.missingSince = some began → ∃ rest, Absence start trace began rest
  unique : ∀ began rest, Absence start trace began rest → s.missingSince = some began
  since : ∀ began, s.missingSince = some began → began ≤ s.clock
  spared : ∀ began rest t, Absence start trace began rest → .detached t ∈ rest →
    began + unplugGrace ≤ t ∧ t ≤ s.clock
  owned : s.attached.isSome = true ∨ s.displaysRunning = true → Owned running trace
  handled : s.handled = listings trace

theorem initial_watched (start : Nat) (running : Bool) :
    Watched start running (.initial start running) [] := by
  have only (began : Nat) (rest : List Event) (absence : Absence start [] began rest) :
      began = start ∧ rest = [] := by
    rcases absence.2 with ⟨rfl, same⟩ | ⟨before, listing, split, _⟩
    · exact ⟨same, rfl⟩
    · simp at split
  refine ⟨?_, ?_, ?_, ?_, ?_, ?_, rfl⟩
  · refine iff_of_false ?_ (by simp [State.initial])
    rintro ⟨before, listing, now, after, split, _⟩
    simp at split
  · rintro began ⟨⟩
    exact ⟨[], by simp [Questless], .inl ⟨rfl, rfl⟩⟩
  · intro began rest absence
    rw [(only began rest absence).1]
    rfl
  · rintro began ⟨⟩
    exact Nat.le_refl _
  · intro began rest t absence member
    rw [(only began rest absence).2] at member
    contradiction
  · rintro (attached | runs)
    · simp [State.initial] at attached
    · exact .inr ⟨runs, by simp⟩

theorem Owned.snoc {running : Bool} {trace : List Event} (owned : Owned running trace) {e : Event}
    (kept : ∀ t, e ≠ .detached t) : Owned running (trace ++ [e]) := by
  have none_ {after : List Event} (none_ : ∀ t, .detached t ∉ after) (t : Nat) :
      .detached t ∉ after ++ [e] := by
    simp [none_ t, Ne.symm (kept t)]
  rcases owned with ⟨before, serial, after, rfl, clear⟩ | ⟨runs, clear⟩
  · exact .inl ⟨before, serial, after ++ [e], by simp, none_ clear⟩
  · exact .inr ⟨runs, none_ clear⟩

variable {start : Nat} {running : Bool} {s next : State} {trace : List Event}

/-- The state changes in nothing that the events speak of. -/
theorem Watched.advance (watched : Watched start running s trace)
    (missing : next.missingSince = s.missingSince) (clock : s.clock ≤ next.clock)
    (owned : next.attached.isSome = true ∨ next.displaysRunning = true → Owned running trace)
    (handled : next.handled = s.handled) : Watched start running next trace where
  present := by rw [missing]; exact watched.present
  absent := by rw [missing]; exact watched.absent
  unique := by rw [missing]; exact watched.unique
  since := fun began absent => (watched.since began (missing ▸ absent)).trans clock
  spared := fun began rest t absence member =>
    (watched.spared began rest t absence member).imp_right fun before => before.trans clock
  owned := owned
  handled := handled.trans watched.handled

/-- An event that is no listing and does not stop the displays. -/
theorem Watched.emit (watched : Watched start running s trace) {e : Event} (unheard : Unheard [e])
    (kept : ∀ t, e ≠ .detached t) (handled : next.handled = listings (trace ++ [e]))
    (missing : next.missingSince = s.missingSince) (clock : s.clock ≤ next.clock)
    (owned : next.attached.isSome = true ∨ next.displaysRunning = true →
      Owned running (trace ++ [e])) : Watched start running next (trace ++ [e]) := by
  have questless : Questless [e] := fun l t member => absurd member (unheard l t)
  have unprocessed (l : List UInt8) (t : Nat) : e ≠ .processed l t := by
    rintro rfl
    exact unheard l t List.mem_cons_self
  have extend {began : Nat} {rest : List Event} :
      Absence start (trace ++ [e]) began rest ↔
        ∃ earlier, rest = earlier ++ [e] ∧ Absence start trace began earlier := by
    rw [absence_snoc]
    constructor
    · rintro (⟨earlier, same, _, absence⟩ | ⟨_, listing, same, _⟩)
      · exact ⟨earlier, same, absence⟩
      · exact absurd same (unprocessed _ _)
    · rintro ⟨earlier, same, absence⟩
      exact .inl ⟨earlier, same, questless, absence⟩
  refine ⟨?_, ?_, ?_, ?_, ?_, owned, handled⟩
  · rw [missing, ← watched.present, present_snoc]
    constructor
    · rintro (⟨l, t, same, _⟩ | ⟨_, present⟩)
      · exact absurd same (unprocessed l t)
      · exact present
    · exact fun present => .inr ⟨unheard, present⟩
  · intro began absent
    obtain ⟨rest, absence⟩ := watched.absent began (missing ▸ absent)
    exact ⟨rest ++ [e], extend.mpr ⟨rest, rfl, absence⟩⟩
  · intro began rest absence
    obtain ⟨earlier, _, before⟩ := extend.mp absence
    rw [missing]
    exact watched.unique began earlier before
  · intro began absent
    exact (watched.since began (missing ▸ absent)).trans clock
  · intro began rest t absence member
    obtain ⟨earlier, rfl, before⟩ := extend.mp absence
    have old : .detached t ∈ earlier := by
      simpa [Ne.symm (kept t)] using member
    exact (watched.spared began earlier t before old).imp_right fun bound => bound.trans clock

/-- A listing with a Quest ends the absence. -/
theorem Watched.return_ (watched : Watched start running s trace) {listing : List UInt8} {now : Nat}
    (quest : questSerials listing ≠ []) (missing : next.missingSince = none)
    (handled : next.handled = s.handled ++ [listing])
    (owned : next.attached.isSome = true ∨ next.displaysRunning = true →
      s.attached.isSome = true ∨ s.displaysRunning = true) :
    Watched start running next (trace ++ [.processed listing now]) := by
  have ended {began : Nat} {rest : List Event} :
      ¬Absence start (trace ++ [.processed listing now]) began rest := by
    rw [absence_snoc]
    rintro (⟨_, _, questless, _⟩ | ⟨_, other, same, none_, _⟩)
    · exact quest (questless listing now List.mem_cons_self)
    · cases same
      exact quest none_
  refine ⟨?_, ?_, fun _ _ absence => absurd absence ended, ?_,
    fun _ _ _ absence => absurd absence ended, ?_, ?_⟩
  · exact iff_of_true (present_snoc.mpr (.inl ⟨listing, now, rfl, quest⟩)) missing
  · intro began absent
    rw [missing] at absent
    contradiction
  · intro began absent
    rw [missing] at absent
    contradiction
  · exact fun runs => (watched.owned (owned runs)).snoc (by simp)
  · rw [handled, watched.handled, listings, listings, List.foldl_append]
    rfl

/-- A listing without one begins an absence, or leaves it as it is. -/
theorem Watched.vanish (watched : Watched start running s trace) {listing : List UInt8} {now : Nat}
    (none_ : questSerials listing = []) (later : s.clock ≤ now)
    (missing : next.missingSince = some (s.missingSince.getD now))
    (clock : next.clock = now) (handled : next.handled = s.handled ++ [listing])
    (owned : next.attached.isSome = true ∨ next.displaysRunning = true →
      s.attached.isSome = true ∨ s.displaysRunning = true) :
    Watched start running next (trace ++ [.processed listing now]) := by
  have questless : Questless [.processed listing now] := by
    intro l t member
    cases List.mem_singleton.mp member
    exact none_
  have gone : ¬Present (trace ++ [.processed listing now]) := by
    rw [present_snoc]
    rintro (⟨l, t, same, quest⟩ | ⟨unheard, _⟩)
    · cases same
      exact quest none_
    · exact unheard listing now List.mem_cons_self
  have heard : next.handled = listings (trace ++ [.processed listing now]) := by
    rw [handled, watched.handled, listings, listings, List.foldl_append]
    rfl
  have kept : next.attached.isSome = true ∨ next.displaysRunning = true →
      Owned running (trace ++ [.processed listing now]) :=
    fun runs => (watched.owned (owned runs)).snoc (by simp)
  refine ⟨iff_of_false gone (by simp [missing]), ?_, ?_, ?_, ?_, kept, heard⟩
  · intro began absent
    rw [missing] at absent
    obtain rfl := Option.some.inj absent
    cases lasting : s.missingSince with
    | none =>
      exact ⟨[], absence_snoc.mpr (.inr ⟨rfl, listing, rfl, none_, watched.present.mpr lasting⟩)⟩
    | some since =>
      obtain ⟨rest, absence⟩ := watched.absent since lasting
      exact ⟨_, absence_snoc.mpr (.inl ⟨rest, rfl, questless, absence⟩)⟩
  · intro began rest absence
    rw [missing]
    rcases absence_snoc.mp absence with ⟨earlier, rfl, _, before⟩ | ⟨rfl, other, same, _, present⟩
    · rw [watched.unique began earlier before]
      rfl
    · cases same
      rw [watched.present.mp present]
      rfl
  · intro began absent
    rw [missing] at absent
    obtain rfl := Option.some.inj absent
    rw [clock]
    cases lasting : s.missingSince with
    | none => exact Nat.le_refl now
    | some since => exact (watched.since since lasting).trans later
  · intro began rest t absence member
    rw [clock]
    rcases absence_snoc.mp absence with ⟨earlier, rfl, _, before⟩ | ⟨rfl, _⟩
    · have old : .detached t ∈ earlier := by simpa using member
      exact (watched.spared began earlier t before old).imp_right fun bound => bound.trans later
    · contradiction

/-- The displays stop once an absence has lasted as long as the grace. -/
theorem Watched.detach (watched : Watched start running s trace) {began now : Nat}
    (missing : s.missingSince = some began) (later : s.clock ≤ now)
    (long : unplugGrace ≤ now - began) :
    Watched start running
      { s with phase := .waiting, clock := now, attached := none, displaysRunning := false }
      (trace ++ [.detached now]) := by
  have since := watched.since began missing
  have unheard : Unheard [.detached now] := by simp [Unheard]
  have positive : 0 < unplugGrace := by decide
  refine ⟨?_, ?_, ?_, ?_, ?_, by simp, ?_⟩
  · rw [present_snoc, ← watched.present]
    constructor
    · rintro (⟨l, t, same, _⟩ | ⟨_, present⟩)
      · contradiction
      · exact present
    · exact fun present => .inr ⟨unheard, present⟩
  · intro other absent
    obtain ⟨rest, absence⟩ := watched.absent other absent
    exact ⟨_, absence_snoc.mpr (.inl ⟨rest, rfl, by simp [Questless], absence⟩)⟩
  · intro other rest absence
    rcases absence_snoc.mp absence with ⟨earlier, _, _, before⟩ | ⟨_, listing, same, _⟩
    · exact watched.unique other earlier before
    · contradiction
  · intro other absent
    have same : began = other := Option.some.inj (missing.symm.trans absent)
    show other ≤ now
    omega
  · intro other rest t absence member
    show _ ∧ t ≤ now
    rcases absence_snoc.mp absence with ⟨earlier, rfl, _, before⟩ | ⟨_, listing, same, _⟩
    · have same : began = other :=
        Option.some.inj (missing.symm.trans (watched.unique other earlier before))
      rcases List.mem_append.mp member with old | new
      · have bound := watched.spared other earlier t before old
        omega
      · cases List.mem_singleton.mp new
        omega
    · contradiction
  · rw [listings, List.foldl_append]
    exact watched.handled

/-- The commands of `attach` after its log line. -/
theorem Watched.commands (watched : Watched start running s trace) {events : List Event}
    (plain : ∀ e ∈ events, (∃ serial, e = .attached serial) ∨ (∃ serial port, e = .reverse serial port) ∨
      e = .started ∨ ∃ serial, e = .launched serial) : Watched start running s (trace ++ events) := by
  induction events generalizing trace with
  | nil => simpa using watched
  | cons e rest ih =>
    have first : Watched start running s (trace ++ [e]) := by
      have handled : s.handled = listings (trace ++ [e]) := by
        rw [watched.handled, listings, listings, List.foldl_append]
        rcases plain e List.mem_cons_self with ⟨_, rfl⟩ | ⟨_, _, rfl⟩ | rfl | ⟨_, rfl⟩ <;> rfl
      have kept : ∀ t, e ≠ .detached t := by
        rcases plain e List.mem_cons_self with ⟨_, rfl⟩ | ⟨_, _, rfl⟩ | rfl | ⟨_, rfl⟩ <;> simp
      refine watched.emit ?_ kept handled rfl (Nat.le_refl _)
        fun runs => (watched.owned runs).snoc kept
      rcases plain e List.mem_cons_self with ⟨_, rfl⟩ | ⟨_, _, rfl⟩ | rfl | ⟨_, rfl⟩ <;>
        simp [Unheard]
    rw [List.append_cons]
    exact ih first fun other member => plain other (List.mem_cons_of_mem _ member)

theorem processed_watched (watched : Watched start running s trace) {listing : List UInt8}
    {now : Nat} (later : s.clock ≤ now) {events : List Event}
    (processed : Processed config s listing now next events) :
    Watched start running next (trace ++ events) := by
  cases processed with
  | stayed attached listed present =>
    exact watched.return_ (List.ne_nil_of_mem listed) present rfl id
  | returned attached listed absent =>
    rw [List.append_cons]
    refine Watched.commands ?_ (by simp)
    exact watched.return_ (List.ne_nil_of_mem listed) rfl rfl id
  | @attached serial absent least =>
    have quest : questSerials listing ≠ [] := by
      rw [Ne, ← leastSerial_none, least]
      simp
    -- The headset is attached only after the listing has been taken note of.
    let noted := { s.hear listing now with missingSince := none }
    have returned : Watched start running noted (trace ++ [.processed listing now]) :=
      watched.return_ quest rfl rfl id
    let owner := { noted with attached := some serial, displaysRunning := true }
    have attached : Watched start running owner
        (trace ++ [.processed listing now] ++ [.attached serial]) := by
      refine returned.emit (by simp [Unheard]) (by simp) ?_ rfl (Nat.le_refl _) ?_
      · rw [listings, List.foldl_append]
        exact returned.handled
      · exact fun _ => .inl ⟨trace ++ [.processed listing now], serial, [], by simp, by simp⟩
    have commands : attach config serial = .attached serial ::
        ([.reverse serial config.port, .started] ++
          if config.launchAppOnConnect then [.launched serial] else []) := rfl
    rw [commands, List.append_cons, List.append_cons]
    apply attached.commands
    split <;> simp
  | missed none_ => exact watched.vanish none_ later rfl rfl rfl id

theorem moved_watched {a : Action} {events : List Event} (watched : Watched start running s trace)
    (moved : Moved config s a next events) : Watched start running next (trace ++ events) := by
  have same {t : State} (missing : t.missingSince = s.missingSince) (clock : s.clock ≤ t.clock)
      (owned : t.attached.isSome = true ∨ t.displaysRunning = true →
        s.attached.isSome = true ∨ s.displaysRunning = true)
      (handled : t.handled = s.handled) : Watched start running t (trace ++ []) := by
    rw [List.append_nil]
    exact watched.advance missing clock (fun runs => watched.owned (owned runs)) handled
  cases moved with
  | @processed now listing rest _ _ phase later front processed =>
    have shifted : Watched start running { s with buffer := rest } trace :=
      watched.advance rfl (Nat.le_refl _) watched.owned rfl
    exact processed_watched shifted later processed
  | tested phase later => exact same rfl later id rfl
  | detached phase later missing owned due => exact watched.detach missing later due
  | exited =>
    refine watched.emit (by simp [Unheard]) (by simp) ?_ rfl (Nat.le_refl _)
      fun runs => (watched.owned runs).snoc (by simp)
    rw [listings, List.foldl_append]
    exact watched.handled
  | restarted =>
    refine watched.emit (by simp [Unheard]) (by simp) ?_ rfl (Nat.le_refl _)
      fun runs => (watched.owned runs).snoc (by simp)
    rw [listings, List.foldl_append]
    rfl
  | _ => exact same rfl (Nat.le_refl _) id rfl

/-- When `detach` runs, and when a listing that is processed ends an absence in time. -/
def Graceful (start : Nat) (running : Bool) (past : List Event) : Event → Prop
  | .detached t => Owned running past ∧
      ∃ began rest, Absence start past began rest ∧ began + unplugGrace ≤ t
  | .processed _ ended => ∀ began rest, Absence start past began rest →
      ended < began + unplugGrace → ∀ t, .detached t ∉ rest
  | _ => True

theorem processed_graceful (watched : Watched start running s trace) {listing : List UInt8}
    {now : Nat} (later : s.clock ≤ now) {events : List Event}
    (processed : Processed config s listing now next events) :
    Machine.Each (fun past => Graceful start running (trace ++ past)) events := by
  have first : Graceful start running (trace ++ []) (.processed listing now) := by
    rw [List.append_nil]
    intro began rest absence early t member
    have bound := watched.spared began rest t absence member
    omega
  -- None of the commands stops the displays.
  have quiet {rest : List Event}
      (plain : ∀ e ∈ rest, (∀ t, e ≠ .detached t) ∧ ∀ l t, e ≠ .processed l t) :
      Machine.Each (fun past => Graceful start running (trace ++ past)) (.processed listing now :: rest) := by
    refine Machine.each_cons_iff.mpr ⟨first, ?_⟩
    rintro before e after rfl
    obtain ⟨undetached, unheard⟩ := plain e (by simp)
    cases e with
    | detached t => exact absurd rfl (undetached t)
    | processed l t => exact absurd rfl (unheard l t)
    | _ => trivial
  cases processed with
  | attached least =>
    apply quiet
    rw [attach]
    split <;> simp
  | _ => exact quiet (by simp)

theorem moved_graceful {a : Action} {events : List Event} (watched : Watched start running s trace)
    (moved : Moved config s a next events) :
    Machine.Each (fun past => Graceful start running (trace ++ past)) events := by
  cases moved with
  | @processed now listing rest _ _ phase later front processed =>
    have shifted : Watched start running { s with buffer := rest } trace :=
      watched.advance rfl (Nat.le_refl _) watched.owned rfl
    exact processed_graceful shifted later processed
  | @detached now began phase later missing owned due =>
    refine Machine.each_cons_iff.mpr ⟨?_, Machine.each_nil _⟩
    obtain ⟨rest, absence⟩ := watched.absent began missing
    have since := watched.since began missing
    have positive : 0 < unplugGrace := by decide
    rw [List.append_nil]
    exact ⟨watched.owned owned, began, rest, absence, by omega⟩
  | exited => exact Machine.each_cons_iff.mpr ⟨trivial, Machine.each_nil _⟩
  | restarted => exact Machine.each_cons_iff.mpr ⟨trivial, Machine.each_nil _⟩
  | _ => apply Machine.each_nil

/-- Displays that are stopped a second time have been started in between. -/
theorem Owned.attached {before middle : List Event} {t : Nat}
    (owned : Owned running (before ++ .detached t :: middle)) : ∃ serial, .attached serial ∈ middle := by
  rcases owned with ⟨front, serial, after, split, clear⟩ | ⟨_, clear⟩
  · refine ⟨serial, ?_⟩
    rcases List.append_eq_append_iff.mp split with ⟨further, rfl, tail⟩ | ⟨further, rfl, tail⟩
    · cases further with
      | nil => simp at tail
      | cons e further =>
        obtain ⟨rfl, rfl⟩ := List.cons_eq_cons.mp tail
        simp
    · cases further with
      | nil => simp at tail
      | cons e further =>
        obtain ⟨rfl, rfl⟩ := List.cons_eq_cons.mp tail
        exact absurd (by simp) (clear t)
  · exact absurd (by simp) (clear t)

/-- The watcher processes exactly the complete listings of each tracker, however they are
cut, and stops the displays only if they are marked as running and no Quest has been listed
for as long as the grace; never in a shorter absence, and never twice without an attach. -/
theorem detach_graceful {config : Config} {start : Nat} {running : Bool} {actions : List Action}
    {s : State} {trace : List Event}
    (run : Machine.exec (step config) actions (.initial start running) = some (s, trace)) :
    (s.phase ≠ .parsing →
      listings trace = (complete Listing.frame s.sent s.read).map Listing.text) ∧
    s.phase ≠ .crashed ∧
    (∀ past t after, trace = past ++ .detached t :: after → Owned running past ∧
      ∃ began rest, Absence start past began rest ∧ began + unplugGrace ≤ t) ∧
    (∀ past listing ended after, trace = past ++ .processed listing ended :: after →
      ∀ began rest, Absence start past began rest → ended < began + unplugGrace →
        ∀ t, .detached t ∉ rest) ∧
    ∀ before t middle t' after,
      trace = before ++ .detached t :: (middle ++ .detached t' :: after) →
        ∃ serial, .attached serial ∈ middle := by
  have kept := Machine.history
    (fun s trace => Framed s ∧ Watched start running s trace ∧
      Machine.Each (Graceful start running) trace)
    ⟨initial_framed start running, initial_watched start running, Machine.each_nil _⟩
    (by
      rintro s trace a next events ⟨framed, watched, each⟩ taken
      have moved := step_moved taken
      exact ⟨step_framed framed taken, moved_watched watched moved,
        Machine.each_append_iff.mpr ⟨each, moved_graceful watched moved⟩⟩) run
  obtain ⟨⟨taken, upcoming, reading, handled, parsed, alive⟩, watched, each⟩ := kept
  refine ⟨fun idle => ?_, alive, fun past t => each past (.detached t),
    fun past listing ended => each past (.processed listing ended), ?_⟩
  · rw [reading.complete_eq (parsed idle), ← watched.handled, handled]
  · intro before t middle t' after split
    have owned := (each (before ++ .detached t :: middle) (.detached t') after (by simp [split])).1
    exact owned.attached

def headset : Listing where
  size := [0x30, 0x30, 0x31, 0x34]
  text := "1 device model:Quest".toList.map fun c => c.toNat.toUInt8
  digits := rfl
  exact_ := by decide

def nothing : Listing := ⟨[0x30, 0x30, 0x30, 0x30], [], rfl, by decide⟩

def unplugged : List Action := [
  .send headset, .send nothing, .read 5, .parse 0, .test 0, .read 65536, .parse 0, .parse 1000000000,
  .parse 1000000000, .test 2000000000, .quiet, .test 4500000000]

theorem detach_graceful_sample :
    ∃ s past, Machine.exec (step ⟨27183, false⟩) unplugged (.initial 0 false) =
        some (s, past ++ [.detached 4500000000]) ∧
      ∃ began rest, Absence 0 past began rest ∧ began + unplugGrace ≤ 4500000000 := by
  have reached : (Machine.exec (step ⟨27183, false⟩) unplugged (.initial 0 false)).map Prod.snd =
      some ([.processed headset.text 0, .attached ['1'], .reverse ['1'] 27183, .started,
        .processed [] 1000000000] ++ [.detached 4500000000]) := by
    decide +kernel
  obtain ⟨⟨s, trace⟩, run, events⟩ := Option.map_eq_some_iff.mp reached
  obtain rfl : trace = _ := events
  exact ⟨s, _, run, ((detach_graceful run).2.2.1 _ _ [] rfl).2⟩

end Quest.HeadsetWatch
