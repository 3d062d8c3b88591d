import Mathlib.Data.List.Basic

/-! A buffer of fixed size that is written from its end to its beginning. Every write is a
copy of some bytes to the end of what is free, so writes compose as byte strings do. -/
namespace Hollywood

/-- A buffer of `n` bytes, of which the first `i` are free. -/
@[ext]
structure Backfill (n : Nat) where
  dAtA : List UInt8
  i : Nat
  length_eq : dAtA.length = n
  inside : i ≤ n

namespace Backfill

/-- A write to a buffer of any size; it is `none` where it would leave the buffer. -/
abbrev Write := ∀ n, Backfill n → Option (Backfill n)

/-- A buffer that nothing has been written to. -/
def fresh (dAtA : List UInt8) : Backfill dAtA.length := ⟨dAtA, dAtA.length, rfl, Nat.le_refl _⟩

def fill (b : Backfill n) (bytes : List UInt8) (room : bytes.length ≤ b.i) : Backfill n where
  dAtA := b.dAtA.take (b.i - bytes.length) ++ bytes ++ b.dAtA.drop b.i
  i := b.i - bytes.length
  length_eq := by
    have size := b.length_eq
    have inside := b.inside
    simp only [List.length_append, List.length_take, List.length_drop]
    omega
  inside := Nat.le_trans (Nat.sub_le _ _) b.inside

def copy (bytes : List UInt8) : Write := fun _ b =>
  if room : bytes.length ≤ b.i then some (b.fill bytes room) else none

def put (byte : UInt8) : Write := fun _ b =>
  if 0 < b.i then
    some ⟨b.dAtA.set (b.i - 1) byte, b.i - 1, by rw [List.length_set, b.length_eq],
      Nat.le_trans (Nat.sub_le _ _) b.inside⟩
  else none

def nothing : Write := fun _ b => some b

def andThen (first second : Write) : Write := fun n b => first n b >>= second n

/-- What is free, as a buffer of its own. -/
def free (b : Backfill n) : Backfill b.i where
  dAtA := b.dAtA.take b.i
  i := b.i
  length_eq := by rw [List.length_take, b.length_eq, Nat.min_eq_left b.inside]
  inside := Nat.le_refl _

/-- The buffer after a write to what was free. -/
def rejoin (b : Backfill n) (inner : Backfill b.i) : Backfill n where
  dAtA := inner.dAtA ++ b.dAtA.drop b.i
  i := inner.i
  length_eq := by
    rw [List.length_append, inner.length_eq, List.length_drop, b.length_eq, Nat.add_sub_cancel' b.inside]
  inside := Nat.le_trans inner.inside b.inside

theorem copy_some {bytes : List UInt8} {b : Backfill n} (room : bytes.length ≤ b.i) :
    copy bytes n b = some (b.fill bytes room) := dif_pos room

theorem copy_none {bytes : List UInt8} {b : Backfill n} (full : ¬ bytes.length ≤ b.i) :
    copy bytes n b = none := dif_neg full

theorem nothing_eq : nothing = copy [] := by
  funext n b
  rw [copy_some (Nat.zero_le _)]
  refine congrArg some (Backfill.ext ?_ rfl)
  simp only [fill, List.length_nil, Nat.sub_zero, List.append_nil, List.take_append_drop]

theorem put_eq (byte : UInt8) : put byte = copy [byte] := by
  funext n b
  have size := b.length_eq
  have inside := b.inside
  rw [put]
  split
  · rename_i room
    rw [copy_some (by exact room)]
    refine congrArg some (Backfill.ext ?_ rfl)
    have here : b.i - 1 < b.dAtA.length := by omega
    have next : b.i - 1 + 1 = b.i := Nat.sub_add_cancel room
    simp only [fill, List.length_singleton]
    rw [List.set_eq_take_append_cons_drop, if_pos here, next, List.append_assoc]
    rfl
  · rename_i full
    rw [copy_none (by exact full)]

theorem fill_fill (b : Backfill n) {first second : List UInt8} (room : first.length ≤ b.i)
    (more : second.length ≤ (b.fill first room).i) (both : (second ++ first).length ≤ b.i) :
    (b.fill first room).fill second more = b.fill (second ++ first) both := by
  have size := b.length_eq
  have inside := b.inside
  have upper : (b.dAtA.take (b.i - first.length)).length = b.i - first.length := by
    rw [List.length_take]
    omega
  have rest : (b.dAtA.take (b.i - first.length) ++ first ++ b.dAtA.drop b.i).drop (b.i - first.length) =
      first ++ b.dAtA.drop b.i := by
    rw [List.append_assoc, List.drop_left' upper]
  apply Backfill.ext
  · simp only [fill]
    rw [rest, List.append_assoc (b.dAtA.take _) first, List.take_append_of_le_length (by omega),
      List.take_take, Nat.min_eq_left (Nat.sub_le _ _), List.length_append, Nat.sub_sub,
      Nat.add_comm first.length]
    simp only [List.append_assoc]
  · simp only [fill, List.length_append]
    omega

/-- Two copies are one, of the second before the first. -/
theorem andThen_copy (first second : List UInt8) :
    andThen (copy first) (copy second) = copy (second ++ first) := by
  funext n b
  rw [andThen]
  by_cases room : first.length ≤ b.i
  · rw [copy_some room, Option.bind_eq_bind, Option.bind_some]
    by_cases both : (second ++ first).length ≤ b.i
    · have more : second.length ≤ (b.fill first room).i := by
        rw [List.length_append] at both
        exact Nat.le_sub_of_add_le both
      rw [copy_some more, copy_some both, fill_fill b room more both]
    · rw [copy_none both, copy_none]
      intro more
      have more : second.length ≤ b.i - first.length := more
      rw [List.length_append] at both
      omega
  · rw [copy_none room, copy_none]
    · rfl
    · rw [List.length_append]
      omega

/-- A copy to what is free is one to the buffer. -/
theorem rejoin_fill (b : Backfill n) {bytes : List UInt8} (room : bytes.length ≤ b.free.i) :
    b.rejoin (b.free.fill bytes room) = b.fill bytes room := by
  apply Backfill.ext
  · simp only [rejoin, fill, free]
    have whole : (b.dAtA.take b.i).drop b.i = [] := List.drop_of_length_le (List.length_take_le _ _)
    rw [whole, List.append_nil, List.take_take, Nat.min_eq_left (Nat.sub_le _ _)]
  · rfl

/-- A copy to a fresh buffer leaves what is before the bytes. -/
theorem copy_fresh (dAtA bytes : List UInt8) :
    (copy bytes _ (fresh dAtA)).map (fun b => (b.dAtA, dAtA.length - b.i)) =
      if bytes.length ≤ dAtA.length then
        some (dAtA.take (dAtA.length - bytes.length) ++ bytes, bytes.length)
      else none := by
  by_cases room : bytes.length ≤ dAtA.length
  · have size : dAtA.length - (dAtA.length - bytes.length) = bytes.length := Nat.sub_sub_self room
    rw [copy_some (by exact room), if_pos room]
    simp only [Option.map_some, fill, fresh, List.drop_length, List.append_nil, size]
  · rw [copy_none (by exact room), if_neg room]
    rfl

end Backfill
end Hollywood
