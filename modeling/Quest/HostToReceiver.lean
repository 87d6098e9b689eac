import Quest.ReceiverSession
import Quest.VideoEncoder

/-! Host and receiver together: what the encoders emit passes the receiver's start-up and
timestamp checks, however the streams are interleaved and the bytes are cut. -/
namespace Quest.Receiver

open ChunkedStream NalUnit

theorem annexbTypes_skip {a : UInt8} {rest : List UInt8} (quiet : ¬StartsCode (a :: rest)) :
    annexbTypes (a :: rest) = annexbTypes rest := by
  rcases rest with _ | ⟨b, _ | ⟨c, _ | ⟨d, rest⟩⟩⟩
  · simp [annexbTypes]
  · simp [annexbTypes]
  · simp [annexbTypes]
  · obtain ⟨short, long⟩ := not_or.mp quiet
    rw [annexbTypes.eq_def]
    simp only [if_neg long, if_neg short]

/-- The regex finds every start code that the host wrote at a match position. -/
theorem annexbTypes_code (u : NalUnit) (rest : List UInt8) :
    annexbTypes (u.code ++ rest) =
      match rest with
      | [] => []
      | h :: _ => (h &&& 31).toNat :: annexbTypes rest := by
  cases long : u.long <;> cases rest <;> simp [code, long, annexbTypes]

/-- What comes before a start code hides nothing behind it, even where its last bytes and
the code run together. -/
theorem annexbTypes_quiet {body : List UInt8} (quiet : Quiet body) (u : NalUnit)
    (rest : List UInt8) :
    annexbTypes (u.code ++ rest) ⊆ annexbTypes (body ++ (u.code ++ rest)) := by
  induction body with
  | nil => exact List.Subset.refl _
  | cons a body ih =>
    have ih := ih quiet.2
    by_cases starts : StartsCode (a :: (body ++ (u.code ++ rest)))
    · rcases body with _ | ⟨b, _ | ⟨c, _ | ⟨d, body⟩⟩⟩
      · -- A last zero lengthens the short code and announces the same header.
        obtain ⟨rfl, short⟩ : a = 0 ∧ u.long = false := by
          cases long : u.long <;> simp_all [StartsCode, code]
        rw [annexbTypes_code]
        cases rest <;> simp [code, short, annexbTypes]
      · cases long : u.long <;> simp [StartsCode, code, long] at starts
      · -- A code cut short before the next one takes the zero that follows for its header.
        obtain ⟨rfl, rfl, rfl⟩ : a = 0 ∧ b = 0 ∧ c = 1 := by
          cases long : u.long <;> simpa [StartsCode, code, long] using starts
        change _ ⊆ annexbTypes (code ⟨false, [], trivial⟩ ++ (u.code ++ rest))
        rw [annexbTypes_code ⟨false, [], trivial⟩]
        split
        · rename_i nothing
          simp [nothing, annexbTypes]
        · exact List.subset_cons_self _ _
      · exact absurd starts quiet.1
    · rw [List.cons_append, annexbTypes_skip starts]
      exact ih

theorem type_mem_annexbTypes {units : List NalUnit} {u : NalUnit} (member : u ∈ units)
    (known : u.type ≠ 0) : u.type.toNat ∈ annexbTypes (all units) := by
  induction units with
  | nil => simp at member
  | cons v units ih =>
    rw [all_cons, annexbTypes_code]
    rcases List.mem_cons.mp member with rfl | member
    · cases body : u.body with
      | nil => simp [NalUnit.type, body] at known
      | cons h rest => simp [NalUnit.type, body]
    · cases units with
      | nil => simp at member
      | cons w units =>
        have rest := annexbTypes_quiet v.quiet w (w.body ++ all units)
        rw [← all_cons] at rest
        have found := rest (ih member)
        generalize v.body ++ all (w :: units) = tail at found ⊢
        cases tail with
        | nil => simp [annexbTypes] at found
        | cons h tail => exact List.mem_cons_of_mem _ found

theorem startable_types {units : List NalUnit} (startable : Startable units) :
    [5, 7, 8] ⊆ annexbTypes (all units) := by
  have found (type : UInt8) (wanted : type ∈ [5, 7, 8]) (known : type ≠ 0) :
      type.toNat ∈ annexbTypes (all units) := by
    obtain ⟨u, member, rfl⟩ := startable type wanted
    exact type_mem_annexbTypes member known
  intro type wanted
  simp only [List.mem_cons, List.not_mem_nil, or_false] at wanted
  rcases wanted with rfl | rfl | rfl
  · exact found 5 (by decide) (by decide)
  · exact found 7 (by decide) (by decide)
  · exact found 8 (by decide) (by decide)

def streamOf (p : EncodedPacket) : Nat := p.monitorId.toInt.toNat

def ofStream (stream : Nat) (ps : List EncodedPacket) : List EncodedPacket :=
  ps.filter (streamOf · = stream)

structure Playable (ps : List EncodedPacket) : Prop where
  starts : ∀ p, ps.head? = some p → p.keyframe = true ∧ [5, 7, 8] ⊆ annexbTypes p.bytes
  increasing : ps.Pairwise fun p q => p.ptsUs.toInt < q.ptsUs.toInt

theorem Playable.of_cut {first ps : List EncodedPacket} (playable : Playable ps)
    (within : first <+: ps) : Playable first := by
  refine ⟨fun p found => playable.starts p ?_, playable.increasing.sublist within.sublist⟩
  obtain ⟨rest, rfl⟩ := within
  cases first with
  | nil => simp at found
  | cons q first => simpa using found

theorem announced_wellFormed {p : EncodedPacket} (framable : p.Framable) :
    (announced p).WellFormed := by
  obtain ⟨positive, inside, later, some_, bounded⟩ := framable
  have low := p.ptsUs.toInt_lt
  have length := List.length_pos_iff.mpr some_
  simp only [MonitorCount] at inside
  refine ⟨⟨?_, ?_, length, bounded⟩, rfl⟩
  · simp only [announced, streamIds, List.mem_cons, List.not_mem_nil, or_false]
    omega
  · simp only [announced]
    omega

theorem framesOf_announced (stream : Nat) (ps : List EncodedPacket) :
    framesOf stream (ps.map announced) = (ofStream stream ps).map announced := List.filter_map ..

/-- Packets that play stream by stream are acceptable as frames. -/
theorem announced_acceptable {ps : List EncodedPacket} (framable : ∀ p ∈ ps, p.Framable)
    (playable : ∀ stream, Playable (ofStream stream ps)) : Acceptable (ps.map announced) := by
  refine ⟨fun f member => ?_, fun stream f first => ?_, fun stream => ?_⟩
  · obtain ⟨p, there, rfl⟩ := List.mem_map.mp member
    exact announced_wellFormed (framable p there)
  · rw [framesOf_announced, List.head?_map, Option.map_eq_some_iff] at first
    obtain ⟨p, first, rfl⟩ := first
    exact (playable stream).starts p first
  · rw [framesOf_announced, List.pairwise_map]
    refine (playable stream).increasing.imp_of_mem fun {p q} first second later => ?_
    have positive := (framable p (List.mem_of_mem_filter first)).2.2.1
    simp only [announced]
    omega

theorem framable_of_frames {ps : List EncodedPacket} {framed : List (List UInt8)}
    (accepted : ps.mapM framePacket = .ok framed) : ∀ p ∈ ps, p.Framable := by
  induction ps generalizing framed with
  | nil => simp
  | cons p ps ih =>
    obtain ⟨later, framable, rest, _⟩ := frames_cons_iff.mp accepted
    exact List.forall_mem_cons.mpr ⟨framable, ih rest⟩

/-- A segment of an encoder's packets that starts with a keyframe satisfies the receiver. -/
theorem emits_playable {id : Int32} {e : VideoEncoder} {emitted segment : List EncodedPacket}
    (emits : VideoEncoder.Emits id e emitted) (within : segment <:+: emitted)
    (starts : ∀ p, segment.head? = some p → p.keyframe = true)
    (framable : ∀ p ∈ segment, p.Framable) : Playable segment := by
  obtain ⟨before, after, rfl⟩ := within
  refine ⟨fun p first => ⟨starts p first, ?_⟩, emits.increasing framable⟩
  obtain ⟨units, bytes, startable⟩ := emits.startable p
    (List.mem_append_left _ (List.mem_append_right _ (List.mem_of_mem_head? first))) (starts p first)
  rw [bytes]
  exact startable_types startable

theorem streamIndex_eq_iff {p : EncodedPacket} (framable : p.Framable) (i : Fin MonitorCount) :
    streamIndex p.monitorId = some i ↔ streamOf p = i := by
  unfold streamIndex
  rw [dif_pos ⟨framable.1, framable.2.1⟩, Option.some.injEq, Fin.ext_iff]
  rfl

/-- An interleaving of playable segments is playable stream by stream. -/
theorem interleaved_playable {mix : List EncodedPacket}
    {segments : Fin MonitorCount → List EncodedPacket} (framable : ∀ p ∈ mix, p.Framable)
    (interleaved : ∀ i, mix.filter (fun p => streamIndex p.monitorId = some i) = segments i)
    (playable : ∀ i, Playable (segments i)) (stream : Nat) : Playable (ofStream stream mix) := by
  by_cases known : stream < MonitorCount
  · have same : ofStream stream mix = segments ⟨stream, known⟩ := by
      rw [← interleaved]
      refine List.filter_congr fun p member => ?_
      simp [streamIndex_eq_iff (framable p member)]
    rw [same]
    exact playable _
  · have none_there : ofStream stream mix = [] := by
      refine List.filter_eq_nil_iff.mpr fun p member => ?_
      intro found
      obtain rfl : streamOf p = stream := by simpa using found
      obtain ⟨positive, inside, _⟩ := framable p member
      unfold streamOf at known
      omega
    rw [none_there]
    exact ⟨by simp, .nil⟩

/-- Every stream the host can produce is accepted by the receiver: fed any prefix of any
interleaving of segments that start with keyframes, cut anyhow, the loop raises no
`ValueError` and records every complete frame. -/
theorem host_streams_accepted {calls : Fin MonitorCount → List VideoEncoder.Call}
    {emitted segments : Fin MonitorCount → List EncodedPacket} {mix : List EncodedPacket}
    {framed chunks : List (List UInt8)}
    (runs : ∀ i, ∃ e, Machine.exec VideoEncoder.step (calls i) (.initial (.ofNat i)) =
      some (e, emitted i))
    (contiguous : ∀ i, segments i <:+: emitted i)
    (starts : ∀ i p, (segments i).head? = some p → p.keyframe = true)
    (interleaved : ∀ i, mix.filter (fun p => streamIndex p.monitorId = some i) = segments i)
    (accepted : mix.mapM framePacket = .ok framed) (delivered : Delivered chunks)
    (within : chunks.flatten <+: framed.flatten) (rounds : Nat) :
    ∃ session stop, receiveLoop record rounds chunks .empty = (session, stop) ∧
      session.recorded = ((wholeFrames chunks.flatten.length mix).take rounds).map announced ∧
      if rounds ≤ (wholeFrames chunks.flatten.length mix).length then stop = .deadline
      else ∃ message, stop = .eof message := by
  have framable := framable_of_frames accepted
  have playable (i : Fin MonitorCount) : Playable (segments i) := by
    obtain ⟨e, run⟩ := runs i
    refine emits_playable (VideoEncoder.run_emits run) (contiguous i) (starts i) fun p member => ?_
    rw [← interleaved i] at member
    exact framable p (List.mem_of_mem_filter member)
  have whole : (wholeFrames chunks.flatten.length mix).take rounds <+: mix :=
    (List.take_prefix _ _).trans (FramedStream.complete_prefix _ _)
  obtain ⟨session, folded, recorded, _⟩ := foldlM_record (announced_acceptable
    (fun p member => framable p (whole.subset member))
    fun stream => (interleaved_playable framable interleaved playable stream).of_cut
      (whole.filter _))
  obtain ⟨stop, received, ends⟩ := receiveBytes_prefix record accepted within folded
  exact ⟨session, stop, by rw [receiveLoop_eq_bytes _ _ _ _ delivered, received], recorded,
    ends⟩

/-- Stream 1 repeats a timestamp and sends its parameter sets with the first picture only. -/
def sampleCalls : Fin MonitorCount → List VideoEncoder.Call
  | 0 => []
  | 1 => [.encode 20 true (-1) [[0, 0, 0, 1, 0x67, 1, 0, 0, 0, 1, 0x68, 2, 0, 0, 1, 0x65, 3]],
      .encode 20 true (-1) [[0, 0, 1, 0x65, 4]]]

def sampleEmitted : Fin MonitorCount → List EncodedPacket
  | 0 => []
  | 1 => [⟨1, 20, true, [0, 0, 0, 1, 0x67, 1, 0, 0, 0, 1, 0x68, 2, 0, 0, 1, 0x65, 3]⟩,
      ⟨1, 21, true, [0, 0, 0, 1, 0x67, 1, 0, 0, 0, 1, 0x68, 2, 0, 0, 1, 0x65, 4]⟩]

def sampleChunks : List (List UInt8) :=
  (sampleEmitted (.last 1)).map fun p => (wire p).take (if p.ptsUs = 20 then 49 else 40)

theorem host_streams_accepted_sample :
    ∃ session stop, receiveLoop record 3 sampleChunks .empty = (session, stop) ∧
      session.recorded = ((sampleEmitted 1).take 1).map announced ∧
        ∃ message, stop = .eof message := by
  have runs : ∀ i, ∃ e, Machine.exec VideoEncoder.step (sampleCalls i) (.initial (.ofNat i)) =
      some (e, sampleEmitted i) := Fin.forall_fin_two.mpr ⟨⟨_, rfl⟩, ⟨_, rfl⟩⟩
  have starts : ∀ i p, (sampleEmitted i).head? = some p → p.keyframe = true :=
    Fin.forall_fin_two.mpr ⟨by simp [sampleEmitted], by simp [sampleEmitted]⟩
  have interleaved : ∀ i, (sampleEmitted 1).filter (fun p => streamIndex p.monitorId = some i) =
      sampleEmitted i := by decide +kernel
  have accepted : (sampleEmitted 1).mapM framePacket = .ok ((sampleEmitted 1).map wire) := by
    decide +kernel
  have delivered : Delivered sampleChunks := by decide +kernel
  have within : sampleChunks.flatten <+: ((sampleEmitted 1).map wire).flatten := by decide +kernel
  obtain ⟨session, stop, received, recorded, ends⟩ := host_streams_accepted runs
    (fun i => List.infix_rfl) starts interleaved accepted delivered within 3
  have whole : wholeFrames sampleChunks.flatten.length (sampleEmitted 1) =
      (sampleEmitted 1).take 1 := by decide +kernel
  rw [whole] at recorded ends
  exact ⟨session, stop, received, recorded, ends⟩

end Quest.Receiver
