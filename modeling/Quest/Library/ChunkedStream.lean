import Mathlib.Data.List.Basic

/-! A byte stream as its reader meets it: a peer delivers blocks cut at arbitrary places,
and one read returns at most one block. Nothing here depends on what the bytes mean. -/
namespace ChunkedStream

variable {α : Type*}

/-- An empty block would be taken for the end of the stream. -/
def Delivered (chunks : List (List α)) : Prop := [] ∉ chunks

instance [DecidableEq α] (chunks : List (List α)) : Decidable (Delivered chunks) :=
  inferInstanceAs (Decidable (_ ∉ _))

/-- One read of at most `limit` elements; an empty result is the end of the stream. -/
def recv (chunks : List (List α)) (limit : Nat) : List α × List (List α) :=
  match chunks with
  | [] => ([], [])
  | block :: rest =>
    if block.length ≤ limit then (block, rest) else (block.take limit, block.drop limit :: rest)

theorem Delivered.tail {block : List α} {rest : List (List α)}
    (delivered : Delivered (block :: rest)) : Delivered rest :=
  fun member => delivered (List.mem_cons_of_mem _ member)

theorem Delivered.head {block : List α} {rest : List (List α)}
    (delivered : Delivered (block :: rest)) : block ≠ [] := by
  rintro rfl; exact delivered List.mem_cons_self

/-- A read loses, reorders and invents nothing. -/
theorem recv_flatten (chunks : List (List α)) (limit : Nat) :
    (recv chunks limit).1 ++ (recv chunks limit).2.flatten = chunks.flatten := by
  cases chunks with
  | nil => rfl
  | cons block rest =>
    simp only [recv]
    split
    · simp
    · simp [← List.append_assoc]

theorem recv_length_le (chunks : List (List α)) (limit : Nat) :
    (recv chunks limit).1.length ≤ limit := by
  cases chunks with
  | nil => simp [recv]
  | cons block rest =>
    simp only [recv]
    split
    · assumption
    · exact List.length_take_le ..

theorem recv_delivered {chunks : List (List α)} (delivered : Delivered chunks) (limit : Nat) :
    Delivered (recv chunks limit).2 := by
  cases chunks with
  | nil => simpa [recv] using delivered
  | cons block rest =>
    simp only [recv]
    split
    · exact delivered.tail
    · rename_i long
      intro member
      rcases List.mem_cons.mp member with empty | member
      · exact long (List.drop_eq_nil_iff.mp empty.symm)
      · exact delivered.tail member

/-- A reader that asks for something sees the end of the stream exactly when it is there. -/
theorem recv_eq_nil_iff {chunks : List (List α)} (delivered : Delivered chunks) {limit : Nat}
    (positive : 0 < limit) : (recv chunks limit).1 = [] ↔ chunks.flatten = [] := by
  cases chunks with
  | nil => simp [recv]
  | cons block rest =>
    have nonempty := delivered.head
    simp only [recv]
    split
    · simp [nonempty]
    · simp [nonempty]; omega

end ChunkedStream
