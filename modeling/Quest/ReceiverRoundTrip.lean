import Quest.Library.FramedStream
import Quest.Receiver

/-! Host framing and receiver parsing are inverse. The chunked loop is first reduced to a
loop over the bytes alone; the codec facts are then about plain byte strings. -/
namespace Quest.Receiver

open ChunkedStream

theorem readExactFrom_ok {chunks : List (List UInt8)} {size : Nat} {data : List UInt8}
    (delivered : Delivered chunks) (bounded : data.length ≤ size)
    (enough : size ≤ data.length + chunks.flatten.length) :
    ∃ rest, readExactFrom chunks size data =
        .ok (data ++ chunks.flatten.take (size - data.length), rest) ∧
      rest.flatten = chunks.flatten.drop (size - data.length) ∧ Delivered rest := by
  fun_induction readExactFrom chunks size data with
  | case1 chunks data short ended =>
    have empty := (recv_eq_nil_iff delivered (by omega)).mp ended
    simp only [empty, List.length_nil] at enough
    omega
  | case2 chunks data short more ih =>
    have limited := recv_length_le chunks (size - data.length)
    have whole := recv_flatten chunks (size - data.length)
    generalize (recv chunks (size - data.length)).1 = block at *
    have rest_delivered := recv_delivered delivered (size - data.length)
    generalize (recv chunks (size - data.length)).2 = later at *
    have lengths := congrArg List.length whole
    simp only [List.length_append] at lengths
    obtain ⟨rest, read, remaining, still⟩ := ih rest_delivered
      (by simp only [List.length_append]; omega) (by simp only [List.length_append]; omega)
    refine ⟨rest, ?_, ?_, still⟩
    · rw [read, ← whole, List.take_append, List.take_of_length_le limited, List.append_assoc,
        List.length_append, Nat.sub_add_eq]
    · rw [remaining, ← whole, List.drop_append, List.drop_eq_nil_of_le limited, List.nil_append,
        List.length_append, Nat.sub_add_eq]
  | case3 chunks data full =>
    have exact_ : size - data.length = 0 := by omega
    exact ⟨chunks, by simp [exact_], by simp [exact_], delivered⟩

theorem readExactFrom_eof {chunks : List (List UInt8)} {size : Nat} {data : List UInt8}
    (delivered : Delivered chunks) (short : data.length + chunks.flatten.length < size) :
    readExactFrom chunks size data = .error (eofMessage (data ++ chunks.flatten)) := by
  fun_induction readExactFrom chunks size data with
  | case1 chunks data missing ended =>
    simp [(recv_eq_nil_iff delivered (by omega)).mp ended]
  | case2 chunks data _ more ih =>
    have whole := recv_flatten chunks (size - data.length)
    have lengths := congrArg List.length whole
    simp only [List.length_append] at lengths
    rw [ih (recv_delivered delivered _) (by simp only [List.length_append]; omega),
      List.append_assoc, whole]
  | case3 chunks data full => omega

theorem readExact_ok {chunks : List (List UInt8)} {size : Nat} (delivered : Delivered chunks)
    (enough : size ≤ chunks.flatten.length) :
    ∃ rest, readExact chunks size = .ok (chunks.flatten.take size, rest) ∧
      rest.flatten = chunks.flatten.drop size ∧ Delivered rest := by
  have limited : ([] : List UInt8).length ≤ size := Nat.zero_le _
  simpa [readExact] using readExactFrom_ok delivered limited (by simpa using enough)

theorem readExact_eof {chunks : List (List UInt8)} {size : Nat} (delivered : Delivered chunks)
    (short : chunks.flatten.length < size) :
    readExact chunks size = .error (eofMessage chunks.flatten) :=
  readExactFrom_eof delivered (by simpa using short)

/-- The frame loop over a byte string that has arrived as a whole. -/
def receiveBytes (handle : σ → Frame → Except String σ) : Nat → List UInt8 → σ → σ × Stop
  | 0, _, s => (s, .deadline)
  | rounds + 1, bytes, s =>
    if bytes.length < headerSize then (s, .eof (eofMessage bytes)) else
      match parseHeader (bytes.take headerSize) with
      | .error message => (s, .valueError message)
      | .ok header =>
        let rest := bytes.drop headerSize
        if rest.length < header.size then (s, .eof (eofMessage rest)) else
          match handle s ⟨header, rest.take header.size⟩ with
          | .error message => (s, .valueError message)
          | .ok next => receiveBytes handle rounds (rest.drop header.size) next

/-- Reassembly is independent of how the stream was cut. -/
theorem receiveLoop_eq_bytes (handle : σ → Frame → Except String σ) (rounds : Nat)
    (chunks : List (List UInt8)) (s : σ) (delivered : Delivered chunks) :
    receiveLoop handle rounds chunks s = receiveBytes handle rounds chunks.flatten s := by
  induction rounds generalizing chunks s with
  | zero => rfl
  | succ rounds ih =>
    simp only [receiveLoop, receiveBytes]
    by_cases short : chunks.flatten.length < headerSize
    · rw [readExact_eof delivered short, if_pos short]
    · obtain ⟨rest, read, remaining, delivered⟩ := readExact_ok delivered (Nat.not_lt.mp short)
      rw [read, if_neg short]
      cases parsed : parseHeader (chunks.flatten.take headerSize) with
      | error message => simp only [parsed]
      | ok header =>
        simp only [parsed, ← remaining]
        by_cases cut : rest.flatten.length < header.size
        · rw [readExact_eof delivered cut, if_pos cut]
        · obtain ⟨later, read, remaining, delivered⟩ := readExact_ok delivered (Nat.not_lt.mp cut)
          rw [read, if_neg cut]
          cases handled : handle s ⟨header, rest.flatten.take header.size⟩ with
          | error message => simp only [handled]
          | ok next => simp only [handled, ih later next delivered, remaining]

/-- The struct format in the packing direction. -/
def Fields.pack (f : Fields) : List UInt8 :=
  f.magic ++ (put f.version 1 ++ (put f.kind 1 ++ (put f.stream 1 ++ (put f.codec 1 ++
    (put f.width 2 ++ (put f.height 2 ++ (put f.fpsNum 2 ++ (put f.fpsDen 2 ++
      (put f.pts 8 ++ (put f.size 4 ++ put f.flags 4))))))))))

structure Fields.Fit (f : Fields) : Prop where
  magic : f.magic.length = 4
  octets : f.version < 256 ^ 1 ∧ f.kind < 256 ^ 1 ∧ f.stream < 256 ^ 1 ∧ f.codec < 256 ^ 1
  shorts : f.width < 256 ^ 2 ∧ f.height < 256 ^ 2 ∧ f.fpsNum < 256 ^ 2 ∧ f.fpsDen < 256 ^ 2
  pts : f.pts < 256 ^ 8
  size : f.size < 256 ^ 4
  flags : f.flags < 256 ^ 4

theorem field_here (value width : Nat) (fits : value < 256 ^ width) (rest : List UInt8) :
    field (put value width ++ rest) 0 width = value := by
  have length := BigEndian.encode_length width value
  simp [field, put, length, BigEndian.decode_encode_of_lt fits]

theorem field_skip (before rest : List UInt8) (offset width : Nat)
    (past : before.length ≤ offset) :
    field (before ++ rest) offset width = field rest (offset - before.length) width := by
  simp [field, List.drop_append, List.drop_eq_nil_of_le past]

theorem unpack_pack (f : Fields) (fit : f.Fit) : unpack f.pack = f := by
  have width (value bytes : Nat) : (put value bytes).length = bytes := BigEndian.encode_length _ _
  obtain ⟨magic, ⟨version, kind, stream, codec⟩, ⟨wide, high, num, den⟩, pts, size, flags⟩ := fit
  have whole (value : Nat) (fits : value < 256 ^ 4) : field (put value 4) 0 4 = value := by
    simpa using field_here value 4 fits []
  unfold unpack Fields.pack
  congr
  · simp [magic]
  all_goals
    simp (disch := first | assumption | simp [magic, width]) only
      [field_skip, field_here, whole, width, magic, Nat.reduceSub]

theorem put_field (data : List UInt8) (offset width : Nat) (inside : offset + width ≤ data.length) :
    put (field data offset width) width ++ data.drop (offset + width) = data.drop offset := by
  have length : ((data.drop offset).take width).length = width := by
    simp only [List.length_take, List.length_drop]; omega
  have slice := BigEndian.encode_decode ((data.drop offset).take width)
  rw [length] at slice
  rw [put, field, slice, ← List.drop_drop, List.take_append_drop]

theorem pack_unpack {data : List UInt8} (length : data.length = headerSize) :
    (unpack data).pack = data := by
  have size : data.length = 32 := length
  have last : put (field data 28 4) 4 = data.drop 28 := by
    rw [← put_field data 28 4 (by omega), List.drop_eq_nil_of_le (by omega), List.append_nil]
  simp only [Fields.pack, unpack]
  rw [last]
  rw [put_field data 24 4 (by omega), put_field data 16 8 (by omega), put_field data 14 2 (by omega),
    put_field data 12 2 (by omega), put_field data 10 2 (by omega), put_field data 8 2 (by omega),
    put_field data 7 1 (by omega), put_field data 6 1 (by omega), put_field data 5 1 (by omega),
    put_field data 4 1 (by omega), List.take_append_drop]

def fieldsOf (p : EncodedPacket) : Fields where
  magic := [0x51, 0x53, 0x54, 0x56]
  version := 1
  kind := 1
  stream := p.monitorId.toInt.toNat
  codec := 1
  width := 2560
  height := 1440
  fpsNum := 60
  fpsDen := 1
  pts := p.ptsUs.toInt.toNat
  size := p.bytes.length
  flags := p.keyframe.toNat

theorem fieldsOf_fit {p : EncodedPacket} (framable : p.Framable) : (fieldsOf p).Fit := by
  obtain ⟨_, inside, _, _, bounded⟩ := framable
  have pts := p.ptsUs.toInt_lt
  simp only [MonitorCount, MaxPayload] at inside bounded
  have flag := p.keyframe.toNat_le
  constructor <;> simp only [fieldsOf, List.length_cons, List.length_nil] <;> omega

theorem header_eq_pack (p : EncodedPacket) : header p = (fieldsOf p).pack := by
  have one : put (fieldsOf p).stream 1 = [UInt8.ofNat p.monitorId.toInt.toNat] := rfl
  have flag : (if p.keyframe then 1 else 0) = (fieldsOf p).flags := by
    cases key : p.keyframe <;> simp [fieldsOf, key]
  unfold header Fields.pack
  rw [one, flag]
  rfl

def announced (p : EncodedPacket) : Frame :=
  ⟨⟨p.monitorId.toInt.toNat, p.ptsUs.toInt.toNat, p.bytes.length, p.keyframe⟩, p.bytes⟩

theorem parseHeader_header {p : EncodedPacket} (framable : p.Framable) :
    parseHeader (header p) = .ok (announced p).header := by
  have unpacked : unpack (header p) = fieldsOf p := by
    rw [header_eq_pack, unpack_pack _ (fieldsOf_fit framable)]
  obtain ⟨_, inside, _, nonempty, bounded⟩ := framable
  have stream : (fieldsOf p).stream ∈ streamIds := by
    simp only [fieldsOf, streamIds, List.mem_cons, List.not_mem_nil, MonitorCount] at inside ⊢
    omega
  have size : ¬((fieldsOf p).size < 1 ∨ MaxPayload < (fieldsOf p).size ∨
      (fieldsOf p).flags - (fieldsOf p).flags % 2 ≠ 0) := by
    have positive := List.length_pos_iff.mpr nonempty
    have flag := p.keyframe.toNat_le
    simp only [fieldsOf]
    omega
  unfold parseHeader
  simp only [unpacked, if_neg size]
  cases key : p.keyframe <;> simp [fieldsOf, announced, key] at stream ⊢ <;> exact stream

theorem receiveBytes_frame (handle : σ → Frame → Except String σ) {p : EncodedPacket}
    (framable : p.Framable) (rounds : Nat) (rest : List UInt8) (s next : σ)
    (handled : handle s (announced p) = .ok next) :
    receiveBytes handle (rounds + 1) (header p ++ p.bytes ++ rest) s =
      receiveBytes handle rounds rest next := by
  have long : ¬(header p ++ (p.bytes ++ rest)).length < headerSize := by simp
  have taken : (header p ++ (p.bytes ++ rest)).take headerSize = header p := by
    rw [List.take_left' (header_length p)]
  have dropped : (header p ++ (p.bytes ++ rest)).drop headerSize = p.bytes ++ rest := by
    rw [List.drop_left' (header_length p)]
  have payload : ¬(p.bytes ++ rest).length < (announced p).header.size := by simp [announced]
  have handled : handle s ⟨(announced p).header, (p.bytes ++ rest).take (announced p).header.size⟩ =
      .ok next := by simpa [announced] using handled
  rw [List.append_assoc, receiveBytes, if_neg long]
  simp only [taken, dropped, parseHeader_header framable, if_neg payload, handled]
  simp [announced]

/-- A frame that is not there as a whole is never delivered. -/
theorem receiveBytes_cut (handle : σ → Frame → Except String σ) {p : EncodedPacket}
    (framable : p.Framable) (rounds : Nat) {bytes : List UInt8} (s : σ)
    (cut : bytes.length < headerSize + p.bytes.length) {rest : List UInt8}
    (within : bytes <+: header p ++ p.bytes ++ rest) :
    ∃ message, receiveBytes handle (rounds + 1) bytes s = (s, .eof message) := by
  unfold receiveBytes
  split
  · exact ⟨_, rfl⟩
  · rename_i long
    have taken : bytes.take headerSize = header p := by
      have := within.take headerSize
      rw [List.append_assoc, List.take_left' (header_length p)] at this
      exact this.eq_of_length (by simp; omega)
    have payload : (bytes.drop headerSize).length < (announced p).header.size := by
      simp only [List.length_drop, announced]; omega
    simp only [taken, parseHeader_header framable, if_pos payload]
    exact ⟨_, rfl⟩

/-- The packets whose frames lie wholly in the first `available` bytes of the stream. -/
def wholeFrames (available : Nat) (ps : List EncodedPacket) : List EncodedPacket :=
  FramedStream.complete wire ps available

@[simp] theorem wholeFrames_nil (available : Nat) : wholeFrames available [] = [] := rfl

theorem wholeFrames_cons (available : Nat) (p : EncodedPacket) (ps : List EncodedPacket) :
    wholeFrames available (p :: ps) =
      if headerSize + p.bytes.length ≤ available then
        p :: wholeFrames (available - (headerSize + p.bytes.length)) ps
      else [] := by
  rw [wholeFrames, FramedStream.complete, wire_length]
  rfl

theorem frames_cons_iff {p : EncodedPacket} {ps : List EncodedPacket} {framed : List (List UInt8)} :
    (p :: ps).mapM framePacket = .ok framed ↔
      ∃ later, p.Framable ∧ ps.mapM framePacket = .ok later ∧ framed = (header p ++ p.bytes) :: later := by
  simp only [List.mapM_cons, bind, Except.bind, pure, Except.pure]
  cases first : framePacket p with
  | error message => simp [(framePacket_error first).1]
  | ok bytes =>
    obtain ⟨framable, rfl⟩ := framePacket_ok_iff.mp first
    cases ps.mapM framePacket <;> simp [framable, eq_comm]

/-- The loop over any prefix of a framed stream treats exactly the frames that are
complete in it, then meets the end of the stream unless its rounds ran out before. -/
theorem receiveBytes_prefix (handle : σ → Frame → Except String σ) {ps : List EncodedPacket}
    {framed : List (List UInt8)} {bytes : List UInt8} {rounds : Nat} {s final : σ}
    (accepted : ps.mapM framePacket = .ok framed) (within : bytes <+: framed.flatten)
    (handled : (((wholeFrames bytes.length ps).take rounds).map announced).foldlM handle s = .ok final) :
    ∃ stop, receiveBytes handle rounds bytes s = (final, stop) ∧
      if rounds ≤ (wholeFrames bytes.length ps).length then stop = .deadline
      else ∃ message, stop = .eof message := by
  induction ps generalizing bytes rounds s framed with
  | nil =>
    obtain rfl : framed = [] := by simpa [pure, Except.pure, eq_comm] using accepted
    obtain rfl : bytes = [] := by simpa using within
    obtain rfl : s = final := by simpa [pure, Except.pure] using handled
    cases rounds with
    | zero => exact ⟨_, rfl, by simp⟩
    | succ rounds => exact ⟨_, rfl, by simp⟩
  | cons p ps ih =>
    obtain ⟨later, framable, acceptedLater, rfl⟩ := frames_cons_iff.mp accepted
    rw [List.flatten_cons] at within
    by_cases whole : headerSize + p.bytes.length ≤ bytes.length
    · have frame_length : (header p ++ p.bytes).length = headerSize + p.bytes.length := by simp
      obtain ⟨rest, rfl⟩ := List.prefix_of_prefix_length_le (List.prefix_append _ _) within
        (frame_length.le.trans whole)
      have within := (List.prefix_append_right_inj _).mp within
      have remaining : (header p ++ p.bytes ++ rest).length - (headerSize + p.bytes.length) =
          rest.length := by simp only [List.length_append, header_length]; omega
      simp only [wholeFrames_cons, if_pos whole, remaining] at handled ⊢
      cases rounds with
      | zero =>
        obtain rfl : s = final := by simpa [pure, Except.pure] using handled
        exact ⟨_, rfl, by simp⟩
      | succ rounds =>
        simp only [List.take_succ_cons, List.map_cons, List.foldlM_cons, bind, Except.bind] at handled
        cases first : handle s (announced p) with
        | error message => simp [first] at handled
        | ok next =>
          rw [receiveBytes_frame handle framable rounds rest s next first]
          simp only [first] at handled
          simpa using ih acceptedLater within handled
    · simp only [wholeFrames_cons, if_neg whole] at handled ⊢
      obtain rfl : s = final := by simpa [pure, Except.pure] using handled
      cases rounds with
      | zero => exact ⟨_, rfl, by simp⟩
      | succ rounds =>
        obtain ⟨message, cut⟩ := receiveBytes_cut handle framable rounds s (Nat.not_le.mp whole) within
        exact ⟨_, cut, by simp⟩

theorem parseHeader_ok {data : List UInt8} {parsed : FrameHeader}
    (ok : parseHeader data = .ok parsed) :
    (unpack data).magic = [0x51, 0x53, 0x54, 0x56] ∧ (unpack data).version = 1 ∧
      (unpack data).kind = 1 ∧ (unpack data).codec = 1 ∧ (unpack data).stream ∈ streamIds ∧
      (unpack data).width = 2560 ∧ (unpack data).height = 1440 ∧ (unpack data).fpsNum = 60 ∧
      (unpack data).fpsDen = 1 ∧ 1 ≤ (unpack data).size ∧ (unpack data).size ≤ MaxPayload ∧
      (unpack data).flags ≤ 1 ∧
      parsed = ⟨(unpack data).stream, (unpack data).pts, (unpack data).size,
        (unpack data).flags % 2 = 1⟩ := by
  simp only [parseHeader] at ok
  generalize unpack data = f at *
  split at ok
  · contradiction
  rename_i protocol
  split at ok
  · contradiction
  rename_i stream
  split at ok
  · contradiction
  rename_i size
  simp only [ne_eq, Prod.mk.injEq, Classical.not_not, not_or] at protocol stream size
  obtain ⟨magic, version, kind, codec⟩ := protocol
  obtain ⟨stream, width, height, num, den⟩ := stream
  exact ⟨magic, version, kind, codec, stream, width, height, num, den, by omega, by omega,
    by omega, (Except.ok.inj ok).symm⟩

def Frame.packet (frame : Frame) : EncodedPacket :=
  ⟨Int32.ofNat frame.header.stream, Int64.ofNat frame.header.pts, frame.header.key, frame.payload⟩

/-- An accepted header is exactly what the host writes for its decoded fields. -/
theorem framePacket_of_parsed {data payload : List UInt8} {parsed : FrameHeader}
    (length : data.length = headerSize) (ok : parseHeader data = .ok parsed)
    (signed : parsed.pts < 2 ^ 63) (sized : payload.length = parsed.size) :
    framePacket (Frame.packet ⟨parsed, payload⟩) = .ok (data ++ payload) := by
  obtain ⟨magic, version, kind, codec, stream, width, height, num, den, positive, bounded, flag,
    rfl⟩ := parseHeader_ok ok
  dsimp only at signed sized
  have two : (unpack data).stream = 0 ∨ (unpack data).stream = 1 := by
    simpa [streamIds] using stream
  have id : (Int32.ofNat (unpack data).stream).toInt = (unpack data).stream :=
    Int32.toInt_ofNat_of_lt (by omega)
  have pts : (Int64.ofNat (unpack data).pts).toInt = (unpack data).pts :=
    Int64.toInt_ofNat_of_lt signed
  have key : (decide ((unpack data).flags % 2 = 1)).toNat = (unpack data).flags := by
    have : (unpack data).flags = 0 ∨ (unpack data).flags = 1 := by omega
    rcases this with h | h <;> simp [h]
  apply framePacket_ok_iff.mpr
  refine ⟨⟨?_, ?_, ?_, ?_, ?_⟩, ?_⟩
  · simp only [Frame.packet, id]; omega
  · simp only [Frame.packet, id, MonitorCount]; omega
  · simp only [Frame.packet, pts]; omega
  · rintro rfl
    simp only [List.length_nil] at sized
    omega
  · simp only [Frame.packet, sized]; exact bounded
  · have same : fieldsOf (Frame.packet ⟨⟨(unpack data).stream, (unpack data).pts, (unpack data).size,
        (unpack data).flags % 2 = 1⟩, payload⟩) = unpack data := by
      cases fields : unpack data
      simp_all [fieldsOf, Frame.packet]
    rw [header_eq_pack, same, pack_unpack length]
    rfl

theorem foldlM_collect (frames seen : List Frame) :
    frames.foldlM collect seen = .ok (seen ++ frames) := by
  induction frames generalizing seen with
  | nil => simp [pure, Except.pure]
  | cons frame rest ih => simp [collect, bind, Except.bind, ih]

/-- Encoder and decoder of QSTV v1 are inverse, for every cut of every prefix of every
framed stream and for every accepted header. -/
theorem qstv_codec_inverse :
    (∀ (ps : List EncodedPacket) (framed chunks : List (List UInt8)) (rounds : Nat),
      ps.mapM framePacket = .ok framed → Delivered chunks → chunks.flatten <+: framed.flatten →
      ∃ stop, receiveLoop collect rounds chunks [] =
          (((wholeFrames chunks.flatten.length ps).take rounds).map announced, stop) ∧
        if rounds ≤ (wholeFrames chunks.flatten.length ps).length then stop = .deadline
        else ∃ message, stop = .eof message) ∧
    (∀ (data payload : List UInt8) (parsed : FrameHeader),
      data.length = headerSize → parseHeader data = .ok parsed → parsed.pts < 2 ^ 63 →
      payload.length = parsed.size →
      framePacket (Frame.packet ⟨parsed, payload⟩) = .ok (data ++ payload)) := by
  constructor
  · intro ps framed chunks rounds accepted delivered within
    rw [receiveLoop_eq_bytes _ _ _ _ delivered]
    exact receiveBytes_prefix collect accepted within (foldlM_collect _ [])
  · intro data payload parsed length ok signed sized
    exact framePacket_of_parsed length ok signed sized

theorem qstv_codec_inverse_sample :
    (∃ stop, receiveLoop collect 2
        [(header samplePacket).take 7, (header samplePacket).drop 7 ++ [0, 0], [1, 0x65]] [] =
        ([announced samplePacket], stop) ∧ ∃ message, stop = .eof message) ∧
      framePacket (Frame.packet (announced samplePacket)) =
        .ok (header samplePacket ++ samplePacket.bytes) := by
  constructor
  · exact qstv_codec_inverse.1 [samplePacket] [header samplePacket ++ samplePacket.bytes] _ 2
      (by decide +kernel) (by decide +kernel) (by decide +kernel)
  · exact qstv_codec_inverse.2 (header samplePacket) samplePacket.bytes (announced samplePacket).header
      (by decide +kernel) (by decide +kernel) (by decide +kernel) (by decide +kernel)

end Quest.Receiver
