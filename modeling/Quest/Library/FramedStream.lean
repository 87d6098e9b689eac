import Mathlib.Data.List.Basic

/-! A stream of frames that its reader meets in pieces cut at arbitrary places: how far the
frames are complete within what has been read, and what the reader's buffer then holds. -/
namespace FramedStream

variable {α φ : Type*} {encode : φ → List α}

def stream (encode : φ → List α) (frames : List φ) : List α := frames.flatMap encode

@[simp] theorem stream_append (first rest : List φ) :
    stream encode (first ++ rest) = stream encode first ++ stream encode rest :=
  List.flatMap_append

@[simp] theorem stream_cons (f : φ) (rest : List φ) :
    stream encode (f :: rest) = encode f ++ stream encode rest := List.flatMap_cons

/-- The frames that lie within the first `count` elements of their stream. -/
def complete (encode : φ → List α) : List φ → Nat → List φ
  | [], _ => []
  | f :: rest, count =>
    if (encode f).length ≤ count then f :: complete encode rest (count - (encode f).length) else []

/-- A reader has read `count` elements, has taken the frames `taken`, and has the rest of what
it has read in its buffer. -/
structure Reading (encode : φ → List α) (sent taken upcoming : List φ) (buffer : List α)
    (count : Nat) : Prop where
  split : sent = taken ++ upcoming
  ahead : buffer <+: stream encode upcoming
  size : count = (stream encode taken).length + buffer.length

variable {sent taken upcoming : List φ} {buffer : List α} {count : Nat}

theorem reading_nil : Reading encode [] [] [] [] 0 := ⟨rfl, List.nil_prefix, rfl⟩

theorem Reading.send (reading : Reading encode sent taken upcoming buffer count) (f : φ) :
    Reading encode (sent ++ [f]) taken (upcoming ++ [f]) buffer count where
  split := by rw [reading.split, List.append_assoc]
  ahead := by
    rw [stream_append]
    exact reading.ahead.trans (List.prefix_append _ _)
  size := reading.size

/-- The next piece of the stream goes to the end of the buffer. -/
theorem Reading.read (reading : Reading encode sent taken upcoming buffer count) (limit : Nat) :
    let chunk := ((stream encode sent).drop count).take limit
    Reading encode sent taken upcoming (buffer ++ chunk) (count + chunk.length) := by
  intro chunk
  obtain ⟨later, rest⟩ := reading.ahead
  have unread : (stream encode sent).drop count = later := by
    rw [reading.split, stream_append, reading.size, ← rest, ← List.append_assoc,
      ← List.length_append, List.drop_left]
  refine ⟨reading.split, ?_, ?_⟩
  · rw [← rest]
    apply (List.prefix_append_right_inj buffer).mpr
    simp only [chunk, unread]
    exact List.take_prefix _ _
  · rw [List.length_append, reading.size, Nat.add_assoc]

/-- A frame that the buffer holds as a whole is the next one. -/
theorem Reading.take {f : φ} {rest : List φ}
    (reading : Reading encode sent taken (f :: rest) buffer count)
    (whole : (encode f).length ≤ buffer.length) :
    buffer.take (encode f).length = encode f ∧
      Reading encode sent (taken ++ [f]) rest (buffer.drop (encode f).length) count := by
  obtain ⟨later, same⟩ := reading.ahead
  rw [stream_cons] at same
  obtain ⟨front, rfl⟩ : encode f <+: buffer :=
    List.prefix_of_prefix_length_le ⟨_, rfl⟩ ⟨later, same⟩ whole
  rw [List.append_assoc, List.append_cancel_left_eq] at same
  refine ⟨List.take_left, ?_, ?_, ?_⟩
  · rw [reading.split, List.append_assoc]; rfl
  · rw [List.drop_left]
    exact ⟨later, same⟩
  · rw [List.drop_left, reading.size, stream_append, List.length_append, List.length_append]
    simp [stream]
    omega

theorem complete_append (taken upcoming : List φ) (extra : Nat) :
    complete encode (taken ++ upcoming) ((stream encode taken).length + extra) =
      taken ++ complete encode upcoming extra := by
  induction taken with
  | nil => simp [stream]
  | cons f rest ih =>
    have within : (encode f).length ≤ (stream encode (f :: rest)).length + extra := by
      rw [stream_cons, List.length_append]
      omega
    have left : (stream encode (f :: rest)).length + extra - (encode f).length =
        (stream encode rest).length + extra := by
      rw [stream_cons, List.length_append]
      omega
    rw [List.cons_append, complete, if_pos within, left, ih, List.cons_append]

theorem complete_prefix (frames : List φ) (count : Nat) :
    complete encode frames count <+: frames := by
  induction frames generalizing count with
  | nil => exact List.prefix_rfl
  | cons f rest ih =>
    rw [complete]
    split
    · exact (List.prefix_cons_inj f).mpr (ih _)
    · exact List.nil_prefix

/-- A frame behind what is read of the stream changes nothing. -/
theorem complete_snoc {frames : List φ} {f : φ} {count : Nat}
    (within : count ≤ (stream encode frames).length) (solid : encode f ≠ []) :
    complete encode (frames ++ [f]) count = complete encode frames count := by
  induction frames generalizing count with
  | nil =>
    have positive := List.length_pos_iff.mpr solid
    have cut : ¬(encode f).length ≤ count := by
      simp only [stream, List.flatMap_nil, List.length_nil] at within
      omega
    simp only [List.nil_append, complete, if_neg cut]
  | cons g rest ih =>
    rw [stream_cons, List.length_append] at within
    simp only [List.cons_append, complete]
    split
    · rw [ih (by omega)]
    · rfl

/-- Once the next frame does not fit, exactly the complete frames have been taken. -/
theorem Reading.complete_eq (reading : Reading encode sent taken upcoming buffer count)
    (short : ∀ f rest, upcoming = f :: rest → buffer.length < (encode f).length) :
    complete encode sent count = taken := by
  rw [reading.split, reading.size, complete_append]
  cases upcoming with
  | nil => simp [complete]
  | cons f rest =>
    have cut := short f rest rfl
    rw [complete, if_neg (Nat.not_le.mpr cut), List.append_nil]

/-- No stream begins with two of the frames in question. -/
def Distinct (encode : φ → List α) (known : φ → Prop) : Prop :=
  ∀ f g bytes, known f → known g → encode f <+: bytes → encode g <+: bytes → f = g

/-- The greatest sequence of frames of a kind that stands at the front of a stream. -/
structure Longest (encode : φ → List α) (kind : List φ → Prop) (bytes : List α)
    (taken : List φ) : Prop where
  admitted : kind taken
  within : stream encode taken <+: bytes
  greatest : ∀ frames, kind frames → stream encode frames <+: bytes → frames <+: taken

/-- A sequence that cannot be continued with what is left of the stream is the greatest. -/
theorem prefix_of_blocked {known : φ → Prop} (distinct : Distinct encode known)
    {kind : List φ → Prop} (made : ∀ frames, kind frames → ∀ f ∈ frames, known f)
    (closed : ∀ first more, kind (first ++ more) → kind first) {taken frames : List φ}
    {rest : List α} (taken_kind : kind taken)
    (blocked : ∀ f, encode f <+: rest → ¬kind (taken ++ [f])) (frames_kind : kind frames)
    (within : stream encode frames <+: stream encode taken ++ rest) : frames <+: taken := by
  induction taken generalizing frames kind with
  | nil =>
    cases frames with
    | nil => exact List.nil_prefix
    | cons f later =>
      rw [stream_cons] at within
      exact absurd (closed [f] later frames_kind) (blocked f ((List.prefix_append _ _).trans within))
  | cons t taken ih =>
    cases frames with
    | nil => exact List.nil_prefix
    | cons f later =>
      rw [stream_cons, stream_cons, List.append_assoc] at within
      obtain rfl : f = t := distinct f t _ (made _ frames_kind f List.mem_cons_self)
        (made _ taken_kind t List.mem_cons_self) ((List.prefix_append _ _).trans within)
        (List.prefix_append _ _)
      have within := (List.prefix_append_right_inj _).mp within
      have made (frames : List φ) (more : kind (f :: frames)) : ∀ g ∈ frames, known g :=
        fun g member => made _ more g (List.mem_cons_of_mem _ member)
      have closed (first more : List φ) : kind (f :: (first ++ more)) → kind (f :: first) :=
        closed (f :: first) more
      exact (List.prefix_cons_inj f).mpr (ih made closed taken_kind blocked frames_kind within)

theorem longest_of_blocked {known : φ → Prop} (distinct : Distinct encode known)
    {kind : List φ → Prop} (made : ∀ frames, kind frames → ∀ f ∈ frames, known f)
    (closed : ∀ first more, kind (first ++ more) → kind first) {taken : List φ} {rest : List α}
    (taken_kind : kind taken) (blocked : ∀ f, encode f <+: rest → ¬kind (taken ++ [f])) :
    Longest encode kind (stream encode taken ++ rest) taken :=
  ⟨taken_kind, List.prefix_append _ _, fun _ frames_kind within =>
    prefix_of_blocked distinct made closed taken_kind blocked frames_kind within⟩

end FramedStream
