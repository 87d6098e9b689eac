import Mathlib.Data.List.Chain
import Quest.AnnexB
import Quest.Packet
import Quest.Library.Machine

/-! `VideoEncoder` with FFmpeg taken as a queue: it returns one packet per submitted frame,
in submission order, under the frame's timestamp, and its actions choose the contents.
The overflow of `lastPts + 1` is modelled as wraparound. -/
namespace Quest

structure Submission where
  pts : Int64
  forced : Bool
  deriving DecidableEq, Repr

structure VideoEncoder where
  id : Int32
  sets : ParameterSets
  lastPts : Int64
  frames : Nat
  bytes : Nat
  timestampAdjustments : Nat
  inside : List Submission
  deriving DecidableEq, Repr

namespace VideoEncoder

def initial (id : Int32) : VideoEncoder := ⟨id, ⟨[], []⟩, -1, 0, 0, 0, []⟩

/-- The timestamp asked for: the caller's, or the source frame's if that is negative. -/
def requestedPts (ptsUs presentationUs : Int64) : Int64 :=
  if 0 ≤ presentationUs then presentationUs else ptsUs

def repairedPts (e : VideoEncoder) (ptsUs presentationUs : Int64) : Int64 :=
  if requestedPts ptsUs presentationUs ≤ e.lastPts then e.lastPts + 1
  else requestedPts ptsUs presentationUs

def countAdjustment (e : VideoEncoder) (ptsUs presentationUs : Int64) : VideoEncoder :=
  if requestedPts ptsUs presentationUs ≤ e.lastPts then
    { e with timestampAdjustments := e.timestampAdjustments + 1 }
  else e

/-- `encode` up to the drain, when FFmpeg takes the frame. -/
def submit (e : VideoEncoder) (ptsUs : Int64) (forceKeyframe : Bool) (presentationUs : Int64) :
    VideoEncoder :=
  { e.countAdjustment ptsUs presentationUs with
    lastPts := e.repairedPts ptsUs presentationUs
    inside := e.inside ++ [⟨e.repairedPts ptsUs presentationUs, forceKeyframe⟩] }

/-- One round of `drain` for a packet of the given contents. -/
def receive (e : VideoEncoder) (data : List UInt8) :
    Option (VideoEncoder × Submission × Except String EncodedPacket) :=
  match e.inside with
  | [] => none
  | frame :: inside =>
    let taken := { e with inside := inside, frames := e.frames + 1 }
    match prepareAnnexB data e.sets with
    | (sets, .error message) => some ({ taken with sets := sets }, frame, .error message)
    | (sets, .ok (keyframe, au)) =>
      some ({ taken with sets := sets, bytes := e.bytes + au.length }, frame,
        .ok ⟨e.id, frame.pts, keyframe, au⟩)

/-- `drain` over the packets that FFmpeg has ready, while nothing throws. -/
def drain : List (List UInt8) → VideoEncoder → Option (VideoEncoder × List EncodedPacket)
  | [], e => some (e, [])
  | data :: rest, e =>
    match e.receive data with
    | some (next, _, .ok packet) =>
      (drain rest next).map fun (final, packets) => (final, packet :: packets)
    | _ => none

inductive Call where
  | encode (ptsUs : Int64) (forceKeyframe : Bool) (presentationUs : Int64)
      (contents : List (List UInt8))
  | sendFailed (ptsUs presentationUs : Int64)
  | flush (contents : List (List UInt8))

/-- One call on the encoder; a call whose drain throws has no successor. -/
def step : Machine.Step VideoEncoder Call EncodedPacket := fun e call =>
  match call with
  | .encode ptsUs forceKeyframe presentationUs contents =>
    drain contents (e.submit ptsUs forceKeyframe presentationUs)
  | .sendFailed ptsUs presentationUs => some (e.countAdjustment ptsUs presentationUs, [])
  | .flush contents => drain contents e

/-- A later timestamp is greater, unless the repair has wrapped around. -/
def Later (a b : Int64) : Prop := a.toInt < b.toInt ∨ b.toInt < 0

theorem repairedPts_later (e : VideoEncoder) (ptsUs presentationUs : Int64) :
    Later e.lastPts (e.repairedPts ptsUs presentationUs) := by
  unfold repairedPts Later
  split
  · have low := e.lastPts.le_toInt
    have high := e.lastPts.toInt_lt
    have one : (1 : Int64).toInt = 1 := rfl
    rw [Int64.toInt_add, one, Int.bmod_def]
    omega
  · rename_i greater
    exact .inl (Int64.lt_iff_toInt_lt.mp (Int64.not_le.mp greater))

def timeline (e : VideoEncoder) (emitted : List EncodedPacket) : List Int64 :=
  emitted.map EncodedPacket.ptsUs ++ e.inside.map Submission.pts

structure Emits (id : Int32) (e : VideoEncoder) (emitted : List EncodedPacket) : Prop where
  owner : e.id = id
  sets : e.sets.Valid
  ids : ∀ p ∈ emitted, p.monitorId = id
  startable : ∀ p ∈ emitted, p.keyframe = true →
    ∃ units, p.bytes = NalUnit.all units ∧ Startable units
  chain : (e.timeline emitted).IsChain Later
  last : ∀ pts, (e.timeline emitted).getLast? = some pts → pts = e.lastPts

theorem emits_initial (id : Int32) : Emits id (initial id) [] := by
  refine ⟨rfl, ⟨.inl rfl, .inl rfl⟩, ?_, ?_, ?_, ?_⟩ <;> simp [initial, timeline]

@[simp] theorem countAdjustment_lastPts (e : VideoEncoder) (ptsUs presentationUs : Int64) :
    (e.countAdjustment ptsUs presentationUs).lastPts = e.lastPts := by
  unfold countAdjustment; split <;> rfl

@[simp] theorem countAdjustment_inside (e : VideoEncoder) (ptsUs presentationUs : Int64) :
    (e.countAdjustment ptsUs presentationUs).inside = e.inside := by
  unfold countAdjustment; split <;> rfl

@[simp] theorem countAdjustment_sets (e : VideoEncoder) (ptsUs presentationUs : Int64) :
    (e.countAdjustment ptsUs presentationUs).sets = e.sets := by
  unfold countAdjustment; split <;> rfl

@[simp] theorem countAdjustment_id (e : VideoEncoder) (ptsUs presentationUs : Int64) :
    (e.countAdjustment ptsUs presentationUs).id = e.id := by
  unfold countAdjustment; split <;> rfl

theorem Emits.countAdjustment {id : Int32} {e : VideoEncoder} {emitted : List EncodedPacket}
    (emits : Emits id e emitted) (ptsUs presentationUs : Int64) :
    Emits id (e.countAdjustment ptsUs presentationUs) emitted := by
  obtain ⟨owner, sets, ids, startable, chain, last⟩ := emits
  have same : (e.countAdjustment ptsUs presentationUs).timeline emitted = e.timeline emitted := by
    simp [timeline]
  refine ⟨by simpa, by simpa, ids, startable, by rwa [same], ?_⟩
  rw [same, countAdjustment_lastPts]
  exact last

theorem Emits.submit {id : Int32} {e : VideoEncoder} {emitted : List EncodedPacket}
    (emits : Emits id e emitted) (ptsUs : Int64) (forceKeyframe : Bool) (presentationUs : Int64) :
    Emits id (e.submit ptsUs forceKeyframe presentationUs) emitted := by
  have grown : (e.submit ptsUs forceKeyframe presentationUs).timeline emitted =
      e.timeline emitted ++ [e.repairedPts ptsUs presentationUs] := by
    simp [timeline, VideoEncoder.submit]
  refine ⟨by simpa [VideoEncoder.submit] using emits.owner, by simpa [VideoEncoder.submit] using emits.sets,
    emits.ids, emits.startable, ?_, ?_⟩
  · rw [grown, List.isChain_append]
    refine ⟨emits.chain, by simp, fun before member next member' => ?_⟩
    obtain rfl := emits.last before (by simpa using member)
    obtain rfl : e.repairedPts ptsUs presentationUs = next := by simpa using member'
    exact e.repairedPts_later ptsUs presentationUs
  · rw [grown]
    intro pts found
    rw [List.getLast?_append, List.getLast?_singleton] at found
    simpa [VideoEncoder.submit, eq_comm] using found

/-- What FFmpeg hands back: the oldest frame inside, under its own timestamp. -/
theorem receive_frame {e next : VideoEncoder} {data : List UInt8} {frame : Submission}
    {result : Except String EncodedPacket} (received : e.receive data = some (next, frame, result)) :
    e.inside = frame :: next.inside ∧ next.id = e.id ∧ ∀ packet, result = .ok packet →
      packet.monitorId = e.id ∧ packet.ptsUs = frame.pts ∧
        (IsIdr data → packet.keyframe = true) := by
  unfold VideoEncoder.receive at received
  split at received
  · contradiction
  rename_i submission inside queue
  split at received
  · simp only [Option.some.injEq, Prod.mk.injEq] at received
    obtain ⟨rfl, rfl, rfl⟩ := received
    exact ⟨queue, rfl, by simp⟩
  · rename_i sets keyframe au prepared
    simp only [Option.some.injEq, Prod.mk.injEq] at received
    obtain ⟨rfl, rfl, rfl⟩ := received
    refine ⟨queue, rfl, ?_⟩
    rintro _ ⟨⟩
    exact ⟨rfl, rfl, fun idr => prepareAnnexB_idr idr (congrArg Prod.snd prepared)⟩

theorem Emits.receive {id : Int32} {e next : VideoEncoder} {emitted : List EncodedPacket}
    {data : List UInt8} {frame : Submission} {packet : EncodedPacket} (emits : Emits id e emitted)
    (received : e.receive data = some (next, frame, .ok packet)) :
    Emits id next (emitted ++ [packet]) := by
  unfold VideoEncoder.receive at received
  split at received
  · contradiction
  rename_i submission inside queue
  have spec := prepareAnnexB_spec data emits.sets
  split at received
  · simp at received
  rename_i sets keyframe au prepared
  rw [prepared] at spec
  simp only [Option.some.injEq, Prod.mk.injEq, Except.ok.injEq] at received
  obtain ⟨rfl, rfl, rfl⟩ := received
  have same : timeline { e with inside := inside, frames := e.frames + 1, sets := sets, bytes := e.bytes + au.length }
      (emitted ++ [⟨e.id, submission.pts, keyframe, au⟩]) = e.timeline emitted := by
    simp [timeline, queue]
  refine ⟨emits.owner, spec.1, ?_, ?_, ?_, ?_⟩
  · intro p member
    rcases List.mem_append.mp member with member | member
    · exact emits.ids p member
    · rw [List.mem_singleton.mp member]; exact emits.owner
  · intro p member key
    rcases List.mem_append.mp member with member | member
    · exact emits.startable p member key
    · rw [List.mem_singleton] at member
      subst p
      exact spec.2 au (by simp only at key; rw [key])
  · rw [same]; exact emits.chain
  · rw [same]; exact emits.last

theorem Emits.drain {id : Int32} {contents : List (List UInt8)} {e final : VideoEncoder}
    {emitted packets : List EncodedPacket} (emits : Emits id e emitted)
    (drained : drain contents e = some (final, packets)) : Emits id final (emitted ++ packets) := by
  induction contents generalizing e emitted packets with
  | nil =>
    obtain ⟨rfl, rfl⟩ := Prod.mk.inj (Option.some.inj drained)
    simpa using emits
  | cons data rest ih =>
    rw [VideoEncoder.drain] at drained
    split at drained
    · rename_i next _ packet received
      obtain ⟨⟨_, later⟩, tail, result⟩ := Option.map_eq_some_iff.mp drained
      obtain ⟨rfl, rfl⟩ := Prod.mk.inj result
      simpa using ih (emits.receive received) tail
    · contradiction

theorem Emits.step {id : Int32} {e next : VideoEncoder} {call : Call}
    {emitted packets : List EncodedPacket} (emits : Emits id e emitted)
    (taken : step e call = some (next, packets)) : Emits id next (emitted ++ packets) := by
  cases call with
  | encode ptsUs forceKeyframe presentationUs contents =>
    exact (emits.submit ptsUs forceKeyframe presentationUs).drain taken
  | sendFailed ptsUs presentationUs =>
    obtain ⟨rfl, rfl⟩ := Prod.mk.inj (Option.some.inj taken)
    simpa using emits.countAdjustment ptsUs presentationUs
  | flush contents => exact emits.drain taken

/-- Whatever the calls and the contents of the packets. -/
theorem run_emits {id : Int32} {calls : List Call} {e : VideoEncoder} {emitted : List EncodedPacket}
    (run : Machine.exec step calls (initial id) = some (e, emitted)) : Emits id e emitted :=
  Machine.history (Emits id) (emits_initial id)
    (fun _ _ _ _ _ emits taken => emits.step taken) run

/-- Within packets that can be framed the timestamps increase strictly. -/
theorem Emits.increasing {id : Int32} {e : VideoEncoder}
    {before segment after : List EncodedPacket} (emits : Emits id e (before ++ segment ++ after))
    (framable : ∀ p ∈ segment, p.Framable) :
    segment.Pairwise fun p q => p.ptsUs.toInt < q.ptsUs.toInt := by
  have part : (segment.map EncodedPacket.ptsUs).IsChain Later := by
    refine emits.chain.infix ⟨before.map EncodedPacket.ptsUs,
      after.map EncodedPacket.ptsUs ++ e.inside.map Submission.pts, ?_⟩
    simp [timeline]
  rw [List.isChain_map] at part
  have ordered : (segment.map fun p => p.ptsUs.toInt).IsChain (· < ·) := by
    rw [List.isChain_map]
    refine part.imp_of_mem_imp fun p q _ member later => ?_
    have positive := (framable q member).2.2.1
    exact later.resolve_right (Int.not_lt.mpr positive)
  exact List.pairwise_map.mp (List.isChain_iff_pairwise.mp ordered)

end VideoEncoder

end Quest
