import Quest.Library.FramedStream
import Quest.ReceiverRoundTrip

/-! What `receiver.py` makes of bytes that anyone may have sent: it records the longest sequence
of acceptable frames that they begin with, and reports on exactly these. -/
namespace Quest.Receiver

open ChunkedStream

structure FrameHeader.Admitted (h : FrameHeader) : Prop where
  stream : h.stream ∈ streamIds
  pts : h.pts < 256 ^ 8
  size : 1 ≤ h.size ∧ h.size ≤ MaxPayload

def FrameHeader.fields (h : FrameHeader) : Fields :=
  ⟨[0x51, 0x53, 0x54, 0x56], 1, 1, h.stream, 1, 2560, 1440, 60, 1, h.pts, h.size, h.key.toNat⟩

def FrameHeader.bytes (h : FrameHeader) : List UInt8 := h.fields.pack

structure Frame.WellFormed (f : Frame) : Prop where
  admitted : f.header.Admitted
  size : f.payload.length = f.header.size

def Frame.wire (f : Frame) : List UInt8 := f.header.bytes ++ f.payload

def framesOf (stream : Nat) (frames : List Frame) : List Frame :=
  frames.filter (·.header.stream = stream)

/-- Sequences of frames in which every stream starts a decoder and goes forward in time. -/
structure Acceptable (frames : List Frame) : Prop where
  wellFormed : ∀ f ∈ frames, f.WellFormed
  starts : ∀ stream f, (framesOf stream frames).head? = some f →
    f.header.key = true ∧ [5, 7, 8] ⊆ annexbTypes f.payload
  increasing : ∀ stream, (framesOf stream frames).Pairwise (·.header.pts < ·.header.pts)

def statsOf (frames : List Frame) : Option Stats :=
  frames.head?.map fun first => {
    frames := frames.length
    bytes := (frames.map fun f => f.payload.length).sum
    firstPtsUs := first.header.pts
    lastPtsUs := (frames.getLastD first).header.pts
    keyframes := frames.countP (·.header.key) }

def Stop.error : Stop → Option String
  | .eof message => some message
  | .valueError message => some message
  | .deadline => none

/-- What `main` writes to `receiver.json`, apart from the time that it took. -/
structure Result where
  success : Bool
  error : Option String
  streams : Nat → Option Stats

/-- The end of `main`. No stream outside `streamIds` gets past the header check. -/
def result (s : Session) (stop : Stop) : Result :=
  let error :=
    if streamIds.any fun i => (s.streams i).isNone then
      some ((stop.error.filter (· ≠ "")).getD "Did not receive every stream")
    else stop.error
  ⟨error.isNone, error, s.streams⟩

theorem FrameHeader.fields_fit {h : FrameHeader} (admitted : h.Admitted) : h.fields.Fit := by
  have stream : h.stream = 0 ∨ h.stream = 1 := by simpa [streamIds] using admitted.stream
  have bounded := admitted.size.2
  have flag := h.key.toNat_le
  have pts := admitted.pts
  simp only [MaxPayload] at bounded
  constructor <;> simp only [FrameHeader.fields, List.length_cons, List.length_nil] <;> omega

@[simp] theorem FrameHeader.bytes_length (h : FrameHeader) : h.bytes.length = headerSize := by
  simp [FrameHeader.bytes, Fields.pack, FrameHeader.fields, put, headerSize]

@[simp] theorem Frame.wire_length (f : Frame) :
    f.wire.length = headerSize + f.payload.length := by
  simp [Frame.wire]

theorem field_lt (data : List UInt8) (offset width : Nat) : field data offset width < 256 ^ width :=
  (BigEndian.decode_lt _).trans_le
    (Nat.pow_le_pow_right (by decide) (List.length_take_le ..))

/-- The header check accepts exactly the packed headers. -/
theorem parseHeader_ok_iff {data : List UInt8} (length : data.length = headerSize)
    {h : FrameHeader} : parseHeader data = .ok h ↔ h.Admitted ∧ data = h.bytes := by
  constructor
  · intro ok
    obtain ⟨magic, version, kind, codec, stream, width, height, num, den, positive, bounded, flag,
      rfl⟩ := parseHeader_ok ok
    refine ⟨⟨stream, field_lt .., positive, bounded⟩, ?_⟩
    have key : (decide ((unpack data).flags % 2 = 1)).toNat = (unpack data).flags := by
      have : (unpack data).flags = 0 ∨ (unpack data).flags = 1 := by omega
      rcases this with h | h <;> simp [h]
    have same : FrameHeader.fields ⟨(unpack data).stream, (unpack data).pts, (unpack data).size,
        (unpack data).flags % 2 = 1⟩ = unpack data := by
      cases fields : unpack data
      simp_all [FrameHeader.fields]
    rw [FrameHeader.bytes, same, pack_unpack length]
  · rintro ⟨admitted, rfl⟩
    have unpacked : unpack h.bytes = h.fields := unpack_pack _ (FrameHeader.fields_fit admitted)
    have size : ¬(h.fields.size < 1 ∨ MaxPayload < h.fields.size ∨
        h.fields.flags - h.fields.flags % 2 ≠ 0) := by
      have flag := h.key.toNat_le
      have bounds := admitted.size
      simp only [FrameHeader.fields]
      omega
    have stream := admitted.stream
    unfold parseHeader
    simp only [unpacked, if_neg size]
    obtain ⟨id, pts, length, key⟩ := h
    cases key <;> simp [FrameHeader.fields] at stream ⊢ <;> exact stream

/-- Why no frame could be taken from what is left of the stream. -/
inductive Undelivered (bytes : List UInt8) : Stop → Prop where
  | header (short : bytes.length < headerSize) : Undelivered bytes (.eof (eofMessage bytes))
  | payload (h : FrameHeader) (admitted : h.Admitted) (starts : h.bytes <+: bytes)
      (short : bytes.length < headerSize + h.size) :
      Undelivered bytes (.eof (eofMessage (bytes.drop headerSize)))
  | refused (message : String) (whole : headerSize ≤ bytes.length)
      (error : parseHeader (bytes.take headerSize) = .error message) :
      Undelivered bytes (.valueError message)

theorem taken_header {f : Frame} {bytes : List UInt8} (within : f.wire <+: bytes) :
    bytes.take headerSize = f.header.bytes := by
  obtain ⟨rest, rfl⟩ := within
  rw [Frame.wire, List.append_assoc, List.take_left' f.header.bytes_length]

theorem Undelivered.no_frame {bytes : List UInt8} {stop : Stop}
    (undelivered : Undelivered bytes stop) {f : Frame} (wellFormed : f.WellFormed) :
    ¬f.wire <+: bytes := by
  intro within
  have long := within.length_le
  rw [Frame.wire_length] at long
  have parsed := (parseHeader_ok_iff f.header.bytes_length).mpr ⟨wellFormed.admitted, rfl⟩
  rw [← taken_header within] at parsed
  cases undelivered with
  | header short => omega
  | payload h admitted starts short =>
    have same : bytes.take headerSize = h.bytes := by
      obtain ⟨rest, rfl⟩ := starts
      rw [List.take_left' h.bytes_length]
    rw [same, (parseHeader_ok_iff h.bytes_length).mpr ⟨admitted, rfl⟩] at parsed
    obtain rfl := Except.ok.inj parsed
    have := wellFormed.size
    omega
  | refused message whole error =>
    rw [error] at parsed
    contradiction

/-- One round of the loop: a frame that stands next in the stream, or none. -/
theorem receiveBytes_succ (handle : σ → Frame → Except String σ) (rounds : Nat)
    (bytes : List UInt8) (s : σ) :
    (∃ f rest, f.WellFormed ∧ bytes = f.wire ++ rest ∧
      receiveBytes handle (rounds + 1) bytes s = match handle s f with
        | .error message => (s, .valueError message)
        | .ok next => receiveBytes handle rounds rest next) ∨
    ∃ stop, receiveBytes handle (rounds + 1) bytes s = (s, stop) ∧ Undelivered bytes stop := by
  by_cases short : bytes.length < headerSize
  · exact .inr ⟨_, by rw [receiveBytes, if_pos short], .header short⟩
  have whole := Nat.not_lt.mp short
  have length : (bytes.take headerSize).length = headerSize := by simpa using whole
  rw [receiveBytes, if_neg short]
  cases parsed : parseHeader (bytes.take headerSize) with
  | error message => exact .inr ⟨_, rfl, .refused message whole parsed⟩
  | ok h =>
    obtain ⟨admitted, same⟩ := (parseHeader_ok_iff length).mp parsed
    by_cases cut : (bytes.drop headerSize).length < h.size
    · refine .inr ⟨_, by simp only [if_pos cut], .payload h admitted ?_ ?_⟩
      · exact same ▸ List.take_prefix _ _
      · rw [List.length_drop] at cut
        omega
    · refine .inl ⟨⟨h, (bytes.drop headerSize).take h.size⟩, (bytes.drop headerSize).drop h.size,
        ⟨admitted, ?_⟩, ?_, ?_⟩
      · rw [List.length_take]
        exact Nat.min_eq_left (Nat.not_lt.mp cut)
      · rw [Frame.wire, ← same, List.append_assoc, List.take_append_drop, List.take_append_drop]
      · cases handled : handle s ⟨h, (bytes.drop headerSize).take h.size⟩ <;>
          simp only [if_neg cut, handled]

theorem framesOf_snoc_same (frames : List Frame) (f : Frame) :
    framesOf f.header.stream (frames ++ [f]) = framesOf f.header.stream frames ++ [f] := by
  simp [framesOf]

theorem framesOf_snoc_other (frames : List Frame) {f : Frame} {stream : Nat}
    (other : stream ≠ f.header.stream) :
    framesOf stream (frames ++ [f]) = framesOf stream frames := by
  simp [framesOf, Ne.symm other]

theorem statsOf_snoc (frames : List Frame) {f : Frame} (size : f.payload.length = f.header.size) :
    statsOf (frames ++ [f]) =
      some (((statsOf frames).getD ⟨0, 0, f.header.pts, -1, 0⟩).add f) := by
  cases frames with
  | nil => cases key : f.header.key <;> simp [statsOf, Stats.add, size, key]
  | cons first rest =>
    have last : (first :: (rest ++ [f])).getLast?.getD first = f := by
      rw [← List.cons_append, List.getLast?_concat, Option.getD_some]
    have keys : (first :: (rest ++ [f])).countP (·.header.key) =
        (first :: rest).countP (·.header.key) + f.header.key.toNat := by
      rw [← List.cons_append, List.countP_append]
      cases key : f.header.key <;> simp [key]
    simp [statsOf, Stats.add, size, keys, last, Nat.add_assoc]

/-- The last frame of a stream is its latest. -/
theorem pts_le_last {frames : List Frame}
    (increasing : frames.Pairwise (·.header.pts < ·.header.pts)) (first : Frame) :
    ∀ g ∈ frames, g.header.pts ≤ (frames.getLastD first).header.pts := by
  intro g member
  obtain rfl | ⟨earlier, last, rfl⟩ := frames.eq_nil_or_concat
  · contradiction
  · rw [List.concat_eq_append] at member increasing ⊢
    rw [List.getLastD_concat]
    rcases List.mem_append.mp member with before | now
    · exact ((List.pairwise_append.mp increasing).2.2 g before last (by simp)).le
    · rw [List.mem_singleton.mp now]

/-- Why a complete frame is not taken after `frames`. -/
inductive Refused (frames : List Frame) (f : Frame) : String → Prop where
  | start (first : framesOf f.header.stream frames = [])
      (idle : ¬(f.header.key = true ∧ [5, 7, 8] ⊆ annexbTypes f.payload)) :
      Refused frames f s!"Stream {f.header.stream} did not begin with IDR + SPS + PPS"
  | order (last : Frame) (member : last ∈ framesOf f.header.stream frames)
      (late : f.header.pts ≤ last.header.pts) :
      Refused frames f s!"Stream {f.header.stream} timestamps are not increasing"

theorem Refused.not_acceptable {frames : List Frame} {f : Frame} {message : String}
    (refused : Refused frames f message) : ¬Acceptable (frames ++ [f]) := by
  intro acceptable
  cases refused with
  | start first idle =>
    refine idle (acceptable.starts f.header.stream f ?_)
    rw [framesOf_snoc_same, first]
    rfl
  | order last member late =>
    have increasing := acceptable.increasing f.header.stream
    rw [framesOf_snoc_same] at increasing
    have := (List.pairwise_append.mp increasing).2.2 last member f (List.mem_singleton_self f)
    omega

theorem Acceptable.of_append {frames more : List Frame} (acceptable : Acceptable (frames ++ more)) :
    Acceptable frames := by
  have part (stream : Nat) : framesOf stream (frames ++ more) =
      framesOf stream frames ++ framesOf stream more := List.filter_append ..
  refine ⟨fun f member => acceptable.wellFormed f (List.mem_append_left _ member),
    fun stream f first => acceptable.starts stream f ?_, fun stream => ?_⟩
  · rw [part, List.head?_append, first]
    rfl
  · have increasing := acceptable.increasing stream
    rw [part] at increasing
    exact (List.pairwise_append.mp increasing).1

theorem Acceptable.snoc {frames : List Frame} (acceptable : Acceptable frames) {f : Frame}
    (wellFormed : f.WellFormed)
    (starts : framesOf f.header.stream frames = [] →
      f.header.key = true ∧ [5, 7, 8] ⊆ annexbTypes f.payload)
    (later : ∀ g ∈ framesOf f.header.stream frames, g.header.pts < f.header.pts) :
    Acceptable (frames ++ [f]) := by
  refine ⟨?_, fun stream first found => ?_, fun stream => ?_⟩
  · intro g member
    rcases List.mem_append.mp member with earlier | now
    · exact acceptable.wellFormed g earlier
    · exact List.mem_singleton.mp now ▸ wellFormed
  all_goals by_cases same : stream = f.header.stream
  · subst stream
    rw [framesOf_snoc_same] at found
    cases mine : framesOf f.header.stream frames with
    | nil =>
      obtain rfl : f = first := by simpa [mine] using found
      exact starts mine
    | cons g rest => exact acceptable.starts f.header.stream first (by simpa [mine] using found)
  · rw [framesOf_snoc_other _ same] at found
    exact acceptable.starts stream first found
  · subst stream
    rw [framesOf_snoc_same]
    exact List.pairwise_append.mpr ⟨acceptable.increasing _, List.pairwise_singleton ..,
      fun g member h now => List.mem_singleton.mp now ▸ later g member⟩
  · rw [framesOf_snoc_other _ same]
    exact acceptable.increasing stream

structure Session.Faithful (s : Session) : Prop where
  acceptable : Acceptable s.recorded
  files : ∀ i, s.files i = (framesOf i s.recorded).flatMap Frame.payload
  streams : ∀ i, s.streams i = statsOf (framesOf i s.recorded)

theorem empty_faithful : Session.empty.Faithful :=
  ⟨⟨by simp [Session.empty], by simp [Session.empty, framesOf], fun _ => .nil⟩, fun _ => rfl,
    fun _ => rfl⟩

/-- The effect of taking a frame whose stream is open with the statistics so far. -/
theorem Session.Faithful.added {s opened : Session} (faithful : s.Faithful) {f : Frame}
    (acceptable : Acceptable (s.recorded ++ [f])) {stats : Stats}
    (so_far : stats = (statsOf (framesOf f.header.stream s.recorded)).getD
      ⟨0, 0, f.header.pts, -1, 0⟩)
    (files : opened.files = s.files) (recorded : opened.recorded = s.recorded)
    (others : ∀ i ≠ f.header.stream, opened.streams i = s.streams i) :
    Session.Faithful {
      streams := Function.update opened.streams f.header.stream (some (stats.add f))
      files := Function.update opened.files f.header.stream
        (opened.files f.header.stream ++ f.payload)
      recorded := opened.recorded ++ [f] } := by
  have size := (acceptable.wellFormed f (by simp)).size
  refine ⟨recorded ▸ acceptable, fun i => ?_, fun i => ?_⟩ <;> simp only [recorded, files] <;>
    by_cases same : i = f.header.stream
  · subst i
    rw [Function.update_self, framesOf_snoc_same, faithful.files]
    simp
  · rw [Function.update_of_ne same, framesOf_snoc_other _ same, faithful.files]
  · subst i
    rw [Function.update_self, framesOf_snoc_same, statsOf_snoc _ size, so_far]
  · rw [Function.update_of_ne same, framesOf_snoc_other _ same, others i same, faithful.streams]

theorem Session.Faithful.record {s : Session} (faithful : s.Faithful) {f : Frame}
    (wellFormed : f.WellFormed) :
    (∃ next, record s f = .ok next ∧ next.recorded = s.recorded ++ [f] ∧ next.Faithful) ∨
    ∃ message, record s f = .error message ∧ Refused s.recorded f message := by
  have known := faithful.streams f.header.stream
  have filed := faithful.files f.header.stream
  simp only [Receiver.record, openStream]
  cases mine : framesOf f.header.stream s.recorded with
  | nil =>
    rw [mine, statsOf, List.head?_nil, Option.map_none] at known
    rw [mine, List.flatMap_nil] at filed
    simp only [known]
    by_cases starts : f.header.key = true ∧ [5, 7, 8] ⊆ annexbTypes f.payload
    · have admitted : ¬(f.header.key = false ∨ ¬[5, 7, 8] ⊆ annexbTypes f.payload) := by
        simpa using starts
      have positive : ¬(f.header.pts : Int) ≤ -1 := by omega
      have acceptable := faithful.acceptable.snoc wellFormed (fun _ => starts) (by simp [mine])
      simp only [if_neg admitted, bind, Except.bind, Function.update_self, if_neg positive]
      refine .inl ⟨_, rfl, rfl, ?_⟩
      let stats : Stats := ⟨0, 0, f.header.pts, -1, 0⟩
      let opened : Session := { s with
        streams := Function.update s.streams f.header.stream (some stats)
        files := Function.update s.files f.header.stream [] }
      have same : opened.files = s.files := Function.update_eq_self_iff.mpr filed.symm
      have fresh : stats = (statsOf (framesOf f.header.stream s.recorded)).getD stats := by
        rw [mine]; rfl
      have added := faithful.added acceptable fresh same rfl
        (fun i other => Function.update_of_ne other ..)
      simpa [opened, stats] using added
    · have refused : f.header.key = false ∨ ¬[5, 7, 8] ⊆ annexbTypes f.payload := by
        simpa [imp_iff_not_or] using starts
      simp only [if_pos refused, bind, Except.bind]
      exact .inr ⟨_, rfl, .start mine starts⟩
  | cons first rest =>
    rw [mine, statsOf, List.head?_cons, Option.map_some] at known
    simp only [known, bind, Except.bind]
    have last_mem : (first :: rest).getLastD first ∈ framesOf f.header.stream s.recorded := by
      rw [mine, List.getLastD_cons]
      exact List.getLastD_mem_cons ..
    split
    next late =>
      exact .inr ⟨_, rfl, .order _ last_mem (by simpa using late)⟩
    next later =>
      have acceptable := faithful.acceptable.snoc wellFormed (by simp [mine]) fun g member => by
        have latest := pts_le_last (faithful.acceptable.increasing _) first g member
        rw [mine] at latest
        omega
      refine .inl ⟨_, rfl, rfl, ?_⟩
      exact faithful.added acceptable (by rw [mine]; rfl) rfl rfl (fun _ _ => rfl)

/-- An acceptable sequence is recorded as a whole. -/
theorem foldlM_record {frames : List Frame} (acceptable : Acceptable frames) :
    ∃ s, frames.foldlM record .empty = .ok s ∧ s.recorded = frames ∧ s.Faithful := by
  induction frames using List.reverseRecOn with
  | nil => exact ⟨_, rfl, rfl, empty_faithful⟩
  | append_singleton frames f ih =>
    obtain ⟨s, folded, rfl, faithful⟩ := ih acceptable.of_append
    rcases faithful.record (acceptable.wellFormed f (by simp)) with
      ⟨next, ok, recorded, faithful⟩ | ⟨message, error, refused⟩
    · refine ⟨next, ?_, recorded, faithful⟩
      simp [List.foldlM_append, folded, ok, bind, Except.bind, pure, Except.pure]
    · exact absurd acceptable refused.not_acceptable

/-- Why the loop ended before its rounds, with `rest` left of the stream. -/
inductive Blocked (recorded : List Frame) (rest : List UInt8) : Stop → Prop where
  | undelivered (stop : Stop) (undelivered : Undelivered rest stop) : Blocked recorded rest stop
  | refused (f : Frame) (later : List UInt8) (message : String) (wellFormed : f.WellFormed)
      (next : rest = f.wire ++ later) (refused : Refused recorded f message) :
      Blocked recorded rest (.valueError message)

open FramedStream

theorem receiveBytes_record {rounds : Nat} {bytes : List UInt8} {s session : Session} {stop : Stop}
    (faithful : s.Faithful) (received : receiveBytes record rounds bytes s = (session, stop)) :
    ∃ more rest, session.recorded = s.recorded ++ more ∧ session.Faithful ∧
      bytes = stream Frame.wire more ++ rest ∧
      (more.length = rounds ∧ stop = .deadline ∨
        more.length < rounds ∧ Blocked session.recorded rest stop) := by
  induction rounds generalizing bytes s with
  | zero =>
    obtain ⟨rfl, rfl⟩ := Prod.mk.inj received
    exact ⟨[], bytes, by simp, faithful, rfl, .inl ⟨rfl, rfl⟩⟩
  | succ rounds ih =>
    rcases receiveBytes_succ record rounds bytes s with
      ⟨f, rest, wellFormed, rfl, round⟩ | ⟨ended, round, undelivered⟩
    · rw [round] at received
      rcases faithful.record wellFormed with
        ⟨next, ok, recorded, faithful⟩ | ⟨message, error, refused⟩
      · simp only [ok] at received
        obtain ⟨more, rest, whole, faithful, rfl, ends⟩ := ih faithful received
        refine ⟨f :: more, rest, by simp [whole, recorded], faithful, by simp, ?_⟩
        simpa using ends
      · simp only [error] at received
        obtain ⟨rfl, rfl⟩ := Prod.mk.inj received
        exact ⟨[], f.wire ++ rest, by simp, faithful, rfl,
          .inr ⟨by simp, .refused f rest message wellFormed rfl refused⟩⟩
    · obtain ⟨rfl, rfl⟩ := Prod.mk.inj (round.symm.trans received)
      exact ⟨[], bytes, by simp, faithful, rfl, .inr ⟨by simp, .undelivered _ undelivered⟩⟩

theorem wire_distinct : Distinct Frame.wire Frame.WellFormed := by
  intro f g bytes f_wellFormed g_wellFormed f_within g_within
  have headers : f.header = g.header := by
    have parsed (h : FrameHeader) (admitted : h.Admitted) : parseHeader h.bytes = .ok h :=
      (parseHeader_ok_iff h.bytes_length).mpr ⟨admitted, rfl⟩
    have same := parsed f.header f_wellFormed.admitted
    rw [← taken_header f_within, taken_header g_within,
      parsed g.header g_wellFormed.admitted] at same
    exact (Except.ok.inj same).symm
  have length : f.wire.length = g.wire.length := by
    rw [Frame.wire_length, Frame.wire_length, f_wellFormed.size, g_wellFormed.size, headers]
  have wires : f.wire = g.wire :=
    (List.prefix_of_prefix_length_le f_within g_within length.le).eq_of_length length
  rw [Frame.wire, Frame.wire, headers] at wires
  obtain ⟨header, payload⟩ := f
  obtain ⟨other, payload'⟩ := g
  obtain rfl : header = other := headers
  exact congrArg (Frame.mk header) (List.append_cancel_left wires)

theorem Blocked.not_acceptable {recorded : List Frame} {rest : List UInt8} {stop : Stop}
    (blocked : Blocked recorded rest stop) {f : Frame} (within : f.wire <+: rest) :
    ¬Acceptable (recorded ++ [f]) := by
  intro acceptable
  have wellFormed := acceptable.wellFormed f (by simp)
  cases blocked with
  | undelivered stop undelivered => exact undelivered.no_frame wellFormed within
  | refused g later message known next refused =>
    obtain rfl : f = g := wire_distinct f g rest wellFormed known within ⟨later, next.symm⟩
    exact refused.not_acceptable acceptable

theorem Blocked.error {recorded : List Frame} {rest : List UInt8} {stop : Stop}
    (blocked : Blocked recorded rest stop) : stop.error.isSome = true := by
  cases blocked with
  | undelivered stop undelivered => cases undelivered <;> rfl
  | refused => rfl

theorem Session.Faithful.streams_isNone {s : Session} (faithful : s.Faithful) (i : Nat) :
    (s.streams i).isNone = true ↔ framesOf i s.recorded = [] := by
  rw [faithful.streams i, statsOf, Option.isNone_map, Option.isNone_iff_eq_none,
    List.head?_eq_none_iff]

theorem result_success_iff {s : Session} (faithful : s.Faithful) {stop : Stop} :
    (result s stop).success = true ↔
      stop.error = none ∧ ∀ i ∈ streamIds, framesOf i s.recorded ≠ [] := by
  have streams : (streamIds.any fun i => (s.streams i).isNone) = false ↔
      ∀ i ∈ streamIds, framesOf i s.recorded ≠ [] := by
    simp only [List.any_eq_false, faithful.streams_isNone, ne_eq]
  simp only [result, Option.isNone_iff_eq_none, ← streams]
  split <;> simp_all

/-- Whatever is sent, the receiver records exactly the longest acceptable sequence of frames at
the front of it, within its rounds; files and statistics are those of the recorded frames; it
ends early only where what is left cannot go on, naming why; and it reports success exactly when
it was not stopped and has seen every stream. -/
theorem records_longest_acceptable {chunks : List (List UInt8)} (delivered : Delivered chunks)
    {rounds : Nat} {session : Session} {stop : Stop}
    (received : receiveLoop record rounds chunks .empty = (session, stop)) :
    Longest Frame.wire (fun frames => Acceptable frames ∧ frames.length ≤ rounds) chunks.flatten
      session.recorded ∧
    (∀ i, session.files i = (framesOf i session.recorded).flatMap Frame.payload ∧
      session.streams i = statsOf (framesOf i session.recorded)) ∧
    (session.recorded.length = rounds ∧ stop = .deadline ∨
      session.recorded.length < rounds ∧ ∃ rest,
        chunks.flatten = stream Frame.wire session.recorded ++ rest ∧
        Blocked session.recorded rest stop) ∧
    ((result session stop).success = true ↔
      session.recorded.length = rounds ∧ ∀ i ∈ streamIds, framesOf i session.recorded ≠ []) := by
  rw [receiveLoop_eq_bytes _ _ _ _ delivered] at received
  obtain ⟨more, rest, recorded, faithful, bytes, ends⟩ := receiveBytes_record empty_faithful received
  obtain rfl : session.recorded = more := by simpa [Session.empty] using recorded
  refine ⟨?_, fun i => ⟨faithful.files i, faithful.streams i⟩,
    ends.imp_right fun ⟨early, blocked⟩ => ⟨early, rest, bytes, blocked⟩, ?_⟩
  · have within : session.recorded.length ≤ rounds := by
      rcases ends with ⟨full, _⟩ | ⟨early, _⟩ <;> omega
    have closed (first more : List Frame)
        (kind : Acceptable (first ++ more) ∧ (first ++ more).length ≤ rounds) :
        Acceptable first ∧ first.length ≤ rounds :=
      ⟨kind.1.of_append, (List.length_append ▸ Nat.le_add_right ..).trans kind.2⟩
    have blocked (f : Frame) (next : f.wire <+: rest) :
        ¬(Acceptable (session.recorded ++ [f]) ∧ (session.recorded ++ [f]).length ≤ rounds) := by
      rintro ⟨acceptable, length⟩
      rcases ends with ⟨full, _⟩ | ⟨_, blocked⟩
      · simp only [List.length_append, List.length_singleton] at length
        omega
      · exact blocked.not_acceptable next acceptable
    rw [bytes]
    exact longest_of_blocked wire_distinct (fun _ kind => kind.1.wellFormed) closed
      ⟨faithful.acceptable, within⟩ blocked
  · rw [result_success_iff faithful]
    refine and_congr_left fun _ => ?_
    rcases ends with ⟨full, rfl⟩ | ⟨early, blocked⟩
    · simp [full, Stop.error]
    · have error := blocked.error
      have short : session.recorded.length ≠ rounds := by omega
      simp only [short, iff_false]
      intro nothing
      rw [nothing] at error
      contradiction

def sampleFrame : Frame :=
  ⟨⟨1, 7, 17, true⟩, [0, 0, 0, 1, 0x67, 1, 0, 0, 0, 1, 0x68, 2, 0, 0, 1, 0x65, 3]⟩

/-- The frame comes twice, cut inside its first header. -/
theorem records_longest_acceptable_sample :
    ∃ session stop, receiveLoop record 5
        [sampleFrame.wire.take 9, sampleFrame.wire.drop 9 ++ sampleFrame.wire] .empty =
          (session, stop) ∧
      stop = .valueError "Stream 1 timestamps are not increasing" ∧
      Longest Frame.wire (fun frames => Acceptable frames ∧ frames.length ≤ 5)
        [sampleFrame.wire.take 9, sampleFrame.wire.drop 9 ++ sampleFrame.wire].flatten
        session.recorded ∧
      session.streams 1 = some ⟨1, 17, 7, 7, 1⟩ ∧ (result session stop).success = false := by
  obtain ⟨session, stop, received⟩ : ∃ session stop, receiveLoop record 5
      [sampleFrame.wire.take 9, sampleFrame.wire.drop 9 ++ sampleFrame.wire] .empty =
        (session, stop) := ⟨_, _, rfl⟩
  have reached : (receiveLoop record 5
      [sampleFrame.wire.take 9, sampleFrame.wire.drop 9 ++ sampleFrame.wire] .empty).2 =
        .valueError "Stream 1 timestamps are not increasing" ∧
      (receiveLoop record 5 [sampleFrame.wire.take 9, sampleFrame.wire.drop 9 ++ sampleFrame.wire]
        .empty).1.recorded = [sampleFrame] := by decide +kernel
  rw [received] at reached
  obtain ⟨ends, recorded⟩ := reached
  obtain ⟨longest, streams, _, success⟩ := records_longest_acceptable (by decide +kernel) received
  refine ⟨session, stop, received, ends, longest, ?_, ?_⟩
  · rw [(streams 1).2, recorded]
    rfl
  · rw [Bool.eq_false_iff, ne_eq, success, recorded]
    simp

end Quest.Receiver
