import Mathlib.Algebra.Order.SuccPred
import Mathlib.Data.Int.SuccPred
import Quest.VideoEncoder
import Quest.Library.LeastIncreasing

/-! The timestamps that `encode` repairs and the map `submitted` in which `drain` finds when
the frame of a packet was submitted. FFmpeg may return the packets of the frames inside it in
any order. -/
namespace Quest

namespace Submitted

/-- `std::map::emplace`: an entry that is there already is kept. -/
def emplace (submitted : List (Int64 × Nat)) (pts : Int64) (started : Nat) : List (Int64 × Nat) :=
  if pts ∈ submitted.map Prod.fst then submitted else submitted ++ [(pts, started)]

def find (submitted : List (Int64 × Nat)) (pts : Int64) : Option Nat :=
  (submitted.find? (·.1 == pts)).map Prod.snd

def erase (submitted : List (Int64 × Nat)) (pts : Int64) : List (Int64 × Nat) :=
  submitted.filter (·.1 != pts)

end Submitted

open Submitted

/-- The encoder with its map. `awaited` has the timestamps of the frames inside FFmpeg with
the readings of the clock at their own submissions, which the source records in the map only. -/
structure TimedEncoder where
  encoder : VideoEncoder
  submitted : List (Int64 × Nat)
  awaited : List (Int64 × Nat)
  deriving DecidableEq, Repr

namespace TimedEncoder

def initial (id : Int32) : TimedEncoder := ⟨.initial id, [], []⟩

/-- A packet that FFmpeg has ready: its contents and which of the frames inside it shows. -/
structure Output where
  frame : Nat
  contents : List UInt8
  deriving DecidableEq, Repr

structure EncodeCall where
  ptsUs : Int64
  forceKeyframe : Bool
  presentationUs : Int64
  started : Nat
  outputs : List Output
  deriving DecidableEq, Repr

def EncodeCall.requested (call : EncodeCall) : Int64 :=
  VideoEncoder.requestedPts call.ptsUs call.presentationUs

/-- What is submitted under which timestamp, and what is returned: the packet, when its frame
was submitted, and what the map says of that. -/
inductive Event where
  | submitted (pts : Int64)
  | returned (packet : EncodedPacket) (own : Nat) (found : Option Nat)
  deriving DecidableEq, Repr

def EncodeCall.submittedPts (call : EncodeCall) (t : TimedEncoder) : Int64 :=
  t.encoder.repairedPts call.ptsUs call.presentationUs

/-- `encode` up to the drain. -/
def submit (t : TimedEncoder) (call : EncodeCall) : TimedEncoder where
  encoder := t.encoder.submit call.ptsUs call.forceKeyframe call.presentationUs
  submitted := emplace t.submitted (call.submittedPts t) call.started
  awaited := t.awaited ++ [(call.submittedPts t, call.started)]

/-- One round of `drain` that does not throw. -/
def receive (t : TimedEncoder) (o : Output) : Option (TimedEncoder × Event) :=
  match t.encoder.inside[o.frame]?, t.awaited[o.frame]? with
  | some frame, some own =>
    match { t.encoder with inside := frame :: t.encoder.inside.eraseIdx o.frame }.receive
        o.contents with
    | some (encoder, _, .ok packet) =>
      some (⟨encoder, erase t.submitted packet.ptsUs, t.awaited.eraseIdx o.frame⟩,
        .returned packet own.2 (find t.submitted packet.ptsUs))
    | _ => none
  | _, _ => none

def drain : List Output → TimedEncoder → Option (TimedEncoder × List Event)
  | [], t => some (t, [])
  | o :: rest, t =>
    (t.receive o).bind fun (next, event) =>
      (drain rest next).map fun (final, events) => (final, event :: events)

def step : Machine.Step TimedEncoder EncodeCall Event := fun t call =>
  (drain call.outputs (t.submit call)).map fun (next, events) =>
    (next, .submitted (call.submittedPts t) :: events)

def submittedPts (trace : List Event) : List Int64 :=
  trace.filterMap fun | .submitted pts => some pts | .returned _ _ _ => none

/-- A packet was found under the submission of its own frame. -/
def Event.Own : Event → Prop
  | .submitted _ => True
  | .returned _ own found => found = some own

end TimedEncoder

/-- Within a map that has each key once, a key finds and erases its own entry. -/
theorem find_erase {submitted : List (Int64 × Nat)} (keys : (submitted.map Prod.fst).Nodup)
    {i : Nat} {entry : Int64 × Nat} (present : submitted[i]? = some entry) :
    find submitted entry.1 = some entry.2 ∧ erase submitted entry.1 = submitted.eraseIdx i := by
  induction submitted generalizing i with
  | nil => simp at present
  | cons first rest ih =>
    obtain ⟨fresh, keys⟩ := List.nodup_cons.mp keys
    cases i with
    | zero =>
      obtain rfl : first = entry := by simpa using present
      have others : ∀ other ∈ rest, other.1 ≠ first.1 := fun other member same =>
        fresh (same ▸ List.mem_map_of_mem member)
      refine ⟨by simp [find], ?_⟩
      rw [erase, List.filter_cons_of_neg (by simp), List.eraseIdx_zero, List.tail_cons]
      exact List.filter_eq_self.mpr fun other member => by simpa using others other member
    | succ i =>
      have present : rest[i]? = some entry := by simpa using present
      have other : first.1 ≠ entry.1 := fun same =>
        fresh (same ▸ List.mem_map_of_mem (List.mem_of_getElem? present))
      obtain ⟨found, erased⟩ := ih keys present
      constructor
      · rw [← found, find, find, List.find?_cons_of_neg (by simpa using other)]
      · rw [List.eraseIdx_cons_succ, ← erased, erase, erase,
          List.filter_cons_of_pos (by simpa using other)]

namespace TimedEncoder

structure Matched (t : TimedEncoder) : Prop where
  entries : t.submitted = t.awaited
  inside : t.awaited.map Prod.fst = t.encoder.inside.map Submission.pts
  keys : (t.submitted.map Prod.fst).Nodup
  below : ∀ pts ∈ t.submitted.map Prod.fst, pts.toInt ≤ t.encoder.lastPts.toInt

theorem initial_matched (id : Int32) : Matched (initial id) := by
  constructor <;> simp [initial, VideoEncoder.initial]

end TimedEncoder

theorem VideoEncoder.receive_kept {e next : VideoEncoder} {data : List UInt8} {frame : Submission}
    {result : Except String EncodedPacket} (received : e.receive data = some (next, frame, result)) :
    next.lastPts = e.lastPts ∧ next.timestampAdjustments = e.timestampAdjustments := by
  simp only [VideoEncoder.receive] at received
  split at received
  · contradiction
  split at received
  all_goals
    obtain ⟨rfl, _⟩ := Prod.mk.inj (Option.some.inj received)
    exact ⟨rfl, rfl⟩

namespace TimedEncoder

theorem receive_matched {t next : TimedEncoder} {o : Output} {event : Event} (matched : t.Matched)
    (received : t.receive o = some (next, event)) :
    next.Matched ∧ event.Own ∧ submittedPts [event] = [] ∧
      next.encoder.lastPts = t.encoder.lastPts ∧
      next.encoder.timestampAdjustments = t.encoder.timestampAdjustments := by
  simp only [receive] at received
  split at received
  next frame own there here =>
    split at received
    next encoder _ packet taken =>
      obtain ⟨rfl, rfl⟩ := Prod.mk.inj (Option.some.inj received)
      obtain ⟨queue, _, returned⟩ := VideoEncoder.receive_frame taken
      obtain ⟨last, adjustments⟩ := VideoEncoder.receive_kept taken
      obtain ⟨rfl, rest⟩ := List.cons_eq_cons.mp queue
      obtain ⟨_, stamp, _⟩ := returned packet rfl
      have same : packet.ptsUs = own.1 := by
        have first := congrArg (·[o.frame]?) matched.inside
        simp only [List.getElem?_map, there, here, Option.map_some, Option.some.injEq] at first
        rw [stamp, first]
      obtain ⟨found, erased⟩ := find_erase matched.keys (matched.entries ▸ here)
      rw [same]
      refine ⟨⟨?_, ?_, ?_, ?_⟩, found, rfl, last, adjustments⟩
      · rw [erased, matched.entries]
      · rw [← List.eraseIdx_map, matched.inside, List.eraseIdx_map, rest]
      · rw [erased, ← List.eraseIdx_map]
        exact matched.keys.eraseIdx _
      · intro pts member
        rw [erased, ← List.eraseIdx_map] at member
        rw [last]
        exact matched.below pts (List.mem_of_mem_eraseIdx member)
    next => contradiction
  next => contradiction

theorem drain_matched {t final : TimedEncoder} {outputs : List Output} {events : List Event}
    (matched : t.Matched) (drained : drain outputs t = some (final, events)) :
    final.Matched ∧ (∀ e ∈ events, e.Own) ∧ submittedPts events = [] ∧
      final.encoder.lastPts = t.encoder.lastPts ∧
      final.encoder.timestampAdjustments = t.encoder.timestampAdjustments := by
  induction outputs generalizing t events with
  | nil =>
    obtain ⟨rfl, rfl⟩ := Prod.mk.inj (Option.some.inj drained)
    exact ⟨matched, by simp, rfl, rfl, rfl⟩
  | cons o rest ih =>
    obtain ⟨⟨next, event⟩, received, later⟩ := Option.bind_eq_some_iff.mp drained
    obtain ⟨⟨_, others⟩, tail, result⟩ := Option.map_eq_some_iff.mp later
    obtain ⟨rfl, rfl⟩ := Prod.mk.inj result
    obtain ⟨matched, own, silent, last, adjustments⟩ := receive_matched matched received
    obtain ⟨matched, owns, silents, lasts, same⟩ := ih matched tail
    refine ⟨matched, List.forall_mem_cons.mpr ⟨own, owns⟩, ?_, lasts.trans last,
      same.trans adjustments⟩
    rw [← List.singleton_append, submittedPts, List.filterMap_append]
    exact List.append_eq_nil_iff.mpr ⟨silent, silents⟩

/-- Below the limit of the timestamps the repair is that of integers. -/
theorem submittedPts_toInt {t : TimedEncoder} (call : EncodeCall)
    (room : t.encoder.lastPts.toInt + 1 < 9223372036854775808) :
    (call.submittedPts t).toInt = max call.requested.toInt (t.encoder.lastPts.toInt + 1) := by
  have low := t.encoder.lastPts.le_toInt
  have one : (1 : Int64).toInt = 1 := rfl
  simp only [EncodeCall.submittedPts, VideoEncoder.repairedPts, EncodeCall.requested]
  split
  · rename_i late
    have late := Int64.le_iff_toInt_le.mp late
    rw [Int64.toInt_add, one, Int.bmod_def]
    omega
  · rename_i later
    have later := Int64.lt_iff_toInt_lt.mp (Int64.not_le.mp later)
    omega

theorem submit_adjustments {t : TimedEncoder} (call : EncodeCall)
    (room : t.encoder.lastPts.toInt + 1 < 9223372036854775808) :
    (t.submit call).encoder.timestampAdjustments = t.encoder.timestampAdjustments +
      if call.submittedPts t ≠ call.requested then 1 else 0 := by
  have value := submittedPts_toInt call room
  simp only [submit, VideoEncoder.submit, VideoEncoder.countAdjustment]
  by_cases late : VideoEncoder.requestedPts call.ptsUs call.presentationUs ≤ t.encoder.lastPts
  · have moved : call.submittedPts t ≠ call.requested := by
      intro same
      have late : call.requested.toInt ≤ t.encoder.lastPts.toInt := Int64.le_iff_toInt_le.mp late
      rw [same] at value
      omega
    rw [if_pos late, if_pos moved]
  · have kept : call.submittedPts t = call.requested := by
      rw [EncodeCall.submittedPts, VideoEncoder.repairedPts, if_neg late, EncodeCall.requested]
    rw [if_neg late, if_neg (not_not.mpr kept), Nat.add_zero]

theorem submit_matched {t : TimedEncoder} (matched : t.Matched) (call : EncodeCall)
    (room : t.encoder.lastPts.toInt + 1 < 9223372036854775808) : (t.submit call).Matched := by
  have value := submittedPts_toInt call room
  have fresh : call.submittedPts t ∉ t.submitted.map Prod.fst := by
    intro member
    have := matched.below _ member
    omega
  have grown : (t.submit call).submitted = t.submitted ++ [(call.submittedPts t, call.started)] :=
    if_neg fresh
  refine ⟨?_, ?_, ?_, ?_⟩
  · rw [grown, matched.entries]
    rfl
  · simp [submit, VideoEncoder.submit, matched.inside, EncodeCall.submittedPts]
  · rw [grown, List.map_append]
    exact List.nodup_append.mpr ⟨matched.keys, by simp, by grind⟩
  · rw [grown, List.map_append]
    intro pts member
    show pts.toInt ≤ (call.submittedPts t).toInt
    rcases List.mem_append.mp member with member | member
    · have := matched.below pts member
      omega
    · rw [List.mem_singleton.mp member]

theorem step_matched {t next : TimedEncoder} {call : EncodeCall} {events : List Event}
    (matched : t.Matched) (room : t.encoder.lastPts.toInt + 1 < 9223372036854775808)
    (taken : step t call = some (next, events)) :
    next.Matched ∧ (∀ e ∈ events, e.Own) ∧ submittedPts events = [call.submittedPts t] ∧
      next.encoder.lastPts = call.submittedPts t ∧
      next.encoder.timestampAdjustments = t.encoder.timestampAdjustments +
        if call.submittedPts t ≠ call.requested then 1 else 0 := by
  obtain ⟨⟨_, others⟩, drained, result⟩ := Option.map_eq_some_iff.mp taken
  obtain ⟨rfl, rfl⟩ := Prod.mk.inj result
  obtain ⟨matched, owns, silent, last, adjustments⟩ :=
    drain_matched (submit_matched matched call room) drained
  refine ⟨matched, List.forall_mem_cons.mpr ⟨trivial, owns⟩, ?_, last, ?_⟩
  · exact congrArg (call.submittedPts t :: ·) silent
  · rw [adjustments, submit_adjustments call room]

def requests (calls : List EncodeCall) : List Int := calls.map (·.requested.toInt)

/-- How many calls have submitted another timestamp than the requested one. -/
def adjusted (calls : List EncodeCall) (submitted : List Int64) : Nat :=
  (calls.zip submitted).countP fun (call, pts) => pts ≠ call.requested

theorem run_matched {calls : List EncodeCall} {t final : TimedEncoder} {trace : List Event}
    (matched : t.Matched)
    (room : t.encoder.lastPts.toInt + calls.length < 9223372036854775808)
    (below : ∀ request ∈ requests calls, request + calls.length ≤ 9223372036854775808)
    (run : Machine.exec step calls t = some (final, trace)) :
    final.Matched ∧ (∀ e ∈ trace, e.Own) ∧
      (submittedPts trace).map Int64.toInt =
        LeastIncreasing.repair t.encoder.lastPts.toInt (requests calls) ∧
      final.encoder.timestampAdjustments =
        t.encoder.timestampAdjustments + adjusted calls (submittedPts trace) := by
  induction calls generalizing t trace with
  | nil =>
    obtain ⟨rfl, rfl⟩ := Prod.mk.inj (Option.some.inj run)
    exact ⟨matched, by simp, rfl, rfl⟩
  | cons call rest ih =>
    obtain ⟨next, events, later, taken, tail, rfl⟩ := Machine.exec_cons_iff.mp run
    simp only [List.length_cons, Nat.cast_add, Nat.cast_one] at room below
    have here : t.encoder.lastPts.toInt + 1 < 9223372036854775808 := by omega
    have value := submittedPts_toInt call here
    obtain ⟨matched, owns, submitted, last, adjustments⟩ := step_matched matched here taken
    have first := below call.requested.toInt List.mem_cons_self
    obtain ⟨matched, others, repaired, counted⟩ := ih matched (by rw [last]; omega)
      (fun request member => by have := below request (List.mem_cons_of_mem _ member); omega) tail
    have split : submittedPts (events ++ later) = call.submittedPts t :: submittedPts later := by
      rw [submittedPts, List.filterMap_append]
      exact congrArg (· ++ submittedPts later) submitted
    refine ⟨matched, List.forall_mem_append.mpr ⟨owns, others⟩, ?_, ?_⟩
    · rw [split, List.map_cons, repaired, last, value]
      rfl
    · rw [split, counted, adjustments, adjusted, adjusted, List.zip_cons_cons, List.countP_cons]
      simp only [decide_eq_true_eq]
      omega

/-- Strictly increasing sequences of timestamps, none negative and none below its request. -/
structure Repairs (requests values : List Int) : Prop where
  increasing : values.Pairwise (· < ·)
  nonnegative : ∀ value ∈ values, 0 ≤ value
  reaches : List.Forall₂ (· ≤ ·) requests values

theorem repairs_iff {requests values : List Int} :
    Repairs requests values ↔ LeastIncreasing.Meets (-1) requests values := by
  constructor
  · rintro ⟨increasing, nonnegative, reaches⟩
    refine ⟨List.isChain_iff_pairwise.mpr (List.pairwise_cons.mpr ⟨?_, increasing⟩), reaches⟩
    intro value member
    have := nonnegative value member
    omega
  · rintro ⟨increasing, reaches⟩
    obtain ⟨above, increasing⟩ := List.pairwise_cons.mp (List.isChain_iff_pairwise.mp increasing)
    refine ⟨increasing, fun value member => ?_, reaches⟩
    have := above value member
    omega

/-- Zero and the requests stay below the limit by at least the number of calls. -/
def Roomy (calls : List EncodeCall) : Prop :=
  ∀ request ∈ 0 :: requests calls, request + calls.length ≤ 9223372036854775808

instance (calls : List EncodeCall) : Decidable (Roomy calls) :=
  inferInstanceAs (Decidable (∀ request ∈ 0 :: requests calls, _))

/-- After any successful calls: what was submitted is the least that meets the requests, the
changes are counted, and every frame inside FFmpeg has an entry of its own, under which its
packet is found. -/
theorem timestamps_repaired {id : Int32} {calls : List EncodeCall} {t : TimedEncoder}
    {trace : List Event} (roomy : Roomy calls)
    (run : Machine.exec step calls (initial id) = some (t, trace)) :
    Repairs (requests calls) ((submittedPts trace).map Int64.toInt) ∧
      (∀ values, Repairs (requests calls) values →
        List.Forall₂ (· ≤ ·) ((submittedPts trace).map Int64.toInt) values) ∧
      t.encoder.timestampAdjustments = adjusted calls (submittedPts trace) ∧
      t.submitted = t.awaited ∧
      t.awaited.map Prod.fst = t.encoder.inside.map Submission.pts ∧
      (t.submitted.map Prod.fst).Nodup ∧
      ∀ packet own found, .returned packet own found ∈ trace → found = some own := by
  have start : (initial id).encoder.lastPts.toInt = -1 := rfl
  have zero := roomy 0 List.mem_cons_self
  obtain ⟨matched, owns, repaired, adjustments⟩ := run_matched (initial_matched id)
    (by rw [start]; omega) (fun request member => roomy request (List.mem_cons_of_mem _ member)) run
  rw [start] at repaired
  obtain ⟨meets, least⟩ := LeastIncreasing.repair_isLeast (-1) (requests calls)
  rw [repaired]
  refine ⟨repairs_iff.mpr meets, fun values repairs => least values (repairs_iff.mp repairs), ?_,
    matched.entries, matched.inside, matched.keys, fun _ _ _ member => owns _ member⟩
  rw [adjustments]
  exact Nat.zero_add _

/-- A late outlier shifts the calls behind it, and the packets come back out of order. -/
def outlier : List EncodeCall := [
  ⟨-7, true, -1, 100, []⟩,
  ⟨0, false, 50, 200, []⟩,
  ⟨0, false, 20, 300, [⟨1, [0, 0, 1, 0x41, 42]⟩, ⟨0, [0, 0, 1, 0x41, 42]⟩]⟩,
  ⟨0, false, 52, 400, []⟩]

theorem timestamps_repaired_outlier :
    ∃ t trace, Machine.exec step outlier (initial 0) = some (t, trace) ∧
      submittedPts trace = [0, 50, 51, 52] ∧ t.encoder.timestampAdjustments = 2 ∧
      t.submitted = [(51, 300), (52, 400)] ∧
      ∀ packet own found, .returned packet own found ∈ trace → found = some own := by
  have reached : (Machine.exec step outlier (initial 0)).map
      (fun r => (submittedPts r.2, r.1.encoder.timestampAdjustments, r.1.submitted)) =
        some ([0, 50, 51, 52], 2, [(51, 300), (52, 400)]) := by decide +kernel
  obtain ⟨⟨t, trace⟩, run, result⟩ := Option.map_eq_some_iff.mp reached
  obtain ⟨submitted, rest⟩ := Prod.mk.inj result
  obtain ⟨adjustments, entries⟩ := Prod.mk.inj rest
  obtain ⟨_, _, _, _, _, _, owns⟩ := timestamps_repaired (by decide) run
  exact ⟨t, trace, run, submitted, adjustments, entries, owns⟩

end TimedEncoder

end Quest
