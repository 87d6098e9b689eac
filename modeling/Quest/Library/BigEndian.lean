import Mathlib.Data.Nat.Basic
import Mathlib.Tactic.Linarith
import Mathlib.Tactic.Positivity
import Mathlib.Tactic.Ring

/-! Fixed-width big-endian octet strings. Encoding truncates to its width; on values
that fit, encoding and decoding are inverse in both directions. -/
namespace BigEndian

/-- The low `width` octets of a value, most significant first. -/
def encode : Nat → Nat → List UInt8
  | 0, _ => []
  | width + 1, value => UInt8.ofNat (value >>> (8 * width)) :: encode width value

def decode (bytes : List UInt8) : Nat :=
  bytes.foldl (fun value byte => value * 256 + byte.toNat) 0

@[simp] theorem encode_length (width value : Nat) : (encode width value).length = width := by
  induction width with
  | zero => rfl
  | succ width ih => simp [encode, ih]

theorem foldl_eq (bytes : List UInt8) (value : Nat) :
    bytes.foldl (fun value byte => value * 256 + byte.toNat) value =
      value * 256 ^ bytes.length + decode bytes := by
  induction bytes generalizing value with
  | nil => simp [decode]
  | cons byte rest ih =>
    simp only [decode, List.foldl_cons, List.length_cons]
    rw [ih, ih (0 * 256 + byte.toNat)]
    ring

@[simp] theorem decode_nil : decode [] = 0 := rfl

theorem decode_cons (byte : UInt8) (rest : List UInt8) :
    decode (byte :: rest) = byte.toNat * 256 ^ rest.length + decode rest := by
  rw [decode, List.foldl_cons, foldl_eq]
  simp

theorem decode_lt (bytes : List UInt8) : decode bytes < 256 ^ bytes.length := by
  induction bytes with
  | nil => simp
  | cons byte rest ih =>
    have octet := byte.toNat_lt
    rw [decode_cons, List.length_cons, pow_succ]
    nlinarith

theorem decode_encode (width value : Nat) : decode (encode width value) = value % 256 ^ width := by
  induction width with
  | zero => simp [encode, Nat.mod_one]
  | succ width ih =>
    have shift : value >>> (8 * width) = value / 256 ^ width := by
      rw [Nat.shiftRight_eq_div_pow, pow_mul]; norm_num
    rw [encode, decode_cons, ih, encode_length, UInt8.toNat_ofNat', shift, pow_succ 256 width,
      Nat.mod_mul, show 2 ^ 8 = 256 by rfl]
    ring

theorem decode_encode_of_lt {width value : Nat} (fits : value < 256 ^ width) :
    decode (encode width value) = value := by
  rw [decode_encode, Nat.mod_eq_of_lt fits]

/-- Octets above the encoded width do not matter. -/
theorem encode_add_mul (width high value total : Nat) (within : width ≤ total) :
    encode width (high * 256 ^ total + value) = encode width value := by
  induction width with
  | zero => rfl
  | succ width ih =>
    have split : 256 ^ total = 256 ^ (total - width - 1) * 256 * 256 ^ width := by
      rw [← pow_succ, ← pow_add]; congr 1; omega
    have shift (v : Nat) : v >>> (8 * width) = v / 256 ^ width := by
      rw [Nat.shiftRight_eq_div_pow, pow_mul]; norm_num
    have octet : (high * 256 ^ total + value) / 256 ^ width =
        high * 256 ^ (total - width - 1) * 256 + value / 256 ^ width := by
      rw [split, ← mul_assoc, ← mul_assoc, Nat.add_comm, Nat.add_mul_div_right _ _ (by positivity),
        Nat.add_comm]
    rw [encode, encode, ih (by omega), shift, shift, octet]
    congr 1
    apply UInt8.toNat_inj.mp
    simp [UInt8.toNat_ofNat']

theorem encode_decode (bytes : List UInt8) : encode bytes.length (decode bytes) = bytes := by
  induction bytes with
  | nil => rfl
  | cons byte rest ih =>
    have lower := decode_lt rest
    have shift : decode (byte :: rest) >>> (8 * rest.length) = byte.toNat := by
      rw [Nat.shiftRight_eq_div_pow, pow_mul, decode_cons]
      rw [show 2 ^ 8 = 256 by rfl, Nat.add_comm, Nat.add_mul_div_right _ _ (by positivity),
        Nat.div_eq_of_lt lower, Nat.zero_add]
    rw [List.length_cons, encode, shift, decode_cons, encode_add_mul _ _ _ _ le_rfl, ih]
    simp

end BigEndian
