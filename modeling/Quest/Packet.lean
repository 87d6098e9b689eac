import Mathlib.Data.Int.Notation
import Quest.Library.BigEndian

/-! Encoded access units and their QSTV v1 frames: a fixed 32-byte network-order header
and one Annex-B access unit. Timestamps and ids keep the widths of the source. -/
namespace Quest

abbrev MonitorCount : Nat := 2
def MaxPayload : Nat := 8 * 1024 * 1024
def headerSize : Nat := 32

structure EncodedPacket where
  monitorId : Int32
  ptsUs : Int64
  keyframe : Bool
  bytes : List UInt8
  deriving DecidableEq, Repr

/-- Checked indexing of an array over the streams, as `std::array::at`. -/
def streamIndex (monitorId : Int32) : Option (Fin MonitorCount) :=
  if inside : 0 ≤ monitorId.toInt ∧ monitorId.toInt < MonitorCount then
    some ⟨monitorId.toInt.toNat, by omega⟩
  else none

/-- The rejection test of `framePacket`. -/
def EncodedPacket.Framable (p : EncodedPacket) : Prop :=
  0 ≤ p.monitorId.toInt ∧ p.monitorId.toInt < MonitorCount ∧ 0 ≤ p.ptsUs.toInt ∧
    p.bytes ≠ [] ∧ p.bytes.length ≤ MaxPayload

instance (p : EncodedPacket) : Decidable p.Framable := inferInstanceAs (Decidable (_ ∧ _))

def prefixBytes (monitorId : Int32) : List UInt8 :=
  [0x51, 0x53, 0x54, 0x56, 1, 1, UInt8.ofNat monitorId.toInt.toNat, 1]

/-- `put` appends the low `bytes` octets of a value, most significant first. -/
def put (value bytes : Nat) : List UInt8 := BigEndian.encode bytes value

def header (p : EncodedPacket) : List UInt8 :=
  prefixBytes p.monitorId ++ put 2560 2 ++ put 1440 2 ++ put 60 2 ++ put 1 2 ++
    put p.ptsUs.toNatClampNeg 8 ++ put p.bytes.length 4 ++ put (if p.keyframe then 1 else 0) 4

def framePacket (p : EncodedPacket) : Except String (List UInt8) :=
  if p.Framable then .ok (header p ++ p.bytes) else .error "Invalid encoded packet"

def wire (p : EncodedPacket) : List UInt8 := header p ++ p.bytes

@[simp] theorem header_length (p : EncodedPacket) : (header p).length = headerSize := by
  simp [header, prefixBytes, put, headerSize]

theorem wire_length (p : EncodedPacket) :
    (wire p).length = headerSize + p.bytes.length := by
  rw [wire, List.length_append, header_length]

theorem framePacket_ok_iff {p : EncodedPacket} {framed : List UInt8} :
    framePacket p = .ok framed ↔ p.Framable ∧ framed = header p ++ p.bytes := by
  unfold framePacket
  split <;> simp_all [eq_comm]

theorem wire_of_framed {p : EncodedPacket} {framed : List UInt8} (ok : framePacket p = .ok framed) :
    wire p = framed := (framePacket_ok_iff.mp ok).2.symm

theorem framePacket_error {p : EncodedPacket} {message : String}
    (failed : framePacket p = .error message) :
    ¬p.Framable ∧ message = "Invalid encoded packet" := by
  unfold framePacket at failed
  split at failed <;> simp_all

/-- Every frame is longer than its header and within the bound on a pending packet. -/
theorem framed_length {p : EncodedPacket} {framed : List UInt8} (ok : framePacket p = .ok framed) :
    headerSize < framed.length ∧ framed.length ≤ MaxPayload + headerSize := by
  obtain ⟨framable, rfl⟩ := framePacket_ok_iff.mp ok
  have nonempty := List.length_pos_iff.mpr framable.2.2.2.1
  have bounded := framable.2.2.2.2
  simp only [List.length_append, header_length]
  omega

def samplePacket : EncodedPacket := ⟨1, 20, true, [0, 0, 1, 0x65]⟩

end Quest
