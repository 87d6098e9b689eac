import Mathlib.Data.Nat.Basic

/-! Memories by address, and copies of blocks from one memory into another. A loop of copies
into separate blocks leaves each block as its own source, and all other addresses alone. -/
namespace BlockCopy

abbrev Cells (β : Type*) := Nat → β

variable {β : Type*} {target source : Cells β} {start origin length : Nat}

/-- `length` cells of `source` from `origin` on, written from `start` on. -/
def copy (target source : Cells β) (start origin length : Nat) : Cells β :=
  fun address =>
    if start ≤ address ∧ address < start + length then source (origin + (address - start))
    else target address

@[simp] theorem copy_inside {x : Nat} (inside : x < length) :
    copy target source start origin length (start + x) = source (origin + x) := by
  simp [copy, inside]

theorem copy_outside {address : Nat}
    (outside : address < start ∨ start + length ≤ address) :
    copy target source start origin length address = target address := by
  have missed : ¬(start ≤ address ∧ address < start + length) := by omega
  simp only [copy, if_neg missed]

/-- The first `count` copies of a loop, block `y` from `origin y` to `start y`. -/
def copies (target source : Cells β) (start origin : Nat → Nat) (length : Nat) : Nat → Cells β
  | 0 => target
  | y + 1 => copy (copies target source start origin length y) source (start y) (origin y) length

variable {start origin : Nat → Nat} {count : Nat}

theorem copies_outside {address : Nat}
    (outside : ∀ y < count, address < start y ∨ start y + length ≤ address) :
    copies target source start origin length count address = target address := by
  induction count with
  | zero => rfl
  | succ count ih =>
    rw [copies, copy_outside (outside count (Nat.lt_succ_self count))]
    exact ih fun y earlier => outside y (Nat.lt_succ_of_lt earlier)

/-- Later copies do not touch the blocks of earlier ones. -/
theorem copies_block (separate : ∀ i j, i < j → start i + length ≤ start j) {y x : Nat}
    (copied : y < count) (inside : x < length) :
    copies target source start origin length count (start y + x) = source (origin y + x) := by
  induction count with
  | zero => exact absurd copied (Nat.not_lt_zero y)
  | succ count ih =>
    rw [copies]
    rcases Nat.lt_succ_iff_lt_or_eq.mp copied with earlier | rfl
    · have apart := separate y count earlier
      rw [copy_outside (by omega)]
      exact ih earlier
    · exact copy_inside inside

end BlockCopy
