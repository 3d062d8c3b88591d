import Mathlib.Data.Nat.Bitwise
import Mathlib.Data.Nat.Log

/-! Numbers in base 128, least significant digit first, one digit a byte; the top bit of a
byte says that more digits follow. The reader collects them in a word of fixed width. -/
namespace Hollywood.Varint

inductive Failure where
  | overflow
  | truncated
  deriving DecidableEq, Repr

def encode (v : Nat) : List UInt8 :=
  if 0x80 ≤ v then (v &&& 0x7f ||| 0x80).toUInt8 :: encode (v >>> 7) else [v.toUInt8]
termination_by v
decreasing_by
  rw [Nat.shiftRight_eq_div_pow]
  omega

def decodeFrom (width shift acc : Nat) : List UInt8 → Except Failure (Nat × List UInt8)
  | [] => .error (if width ≤ shift then .overflow else .truncated)
  | b :: rest =>
    if width ≤ shift then .error .overflow
    else
      let acc := acc ||| (b.toNat &&& 0x7f) <<< shift % 2 ^ width
      if b < 0x80 then .ok (acc, rest) else decodeFrom width (shift + 7) acc rest

def decode (width : Nat) (bytes : List UInt8) : Except Failure (Nat × List UInt8) :=
  decodeFrom width 0 0 bytes

/-- At least one byte is read. -/
theorem decodeFrom_shortens (width : Nat) {bytes : List UInt8}
    (read : decodeFrom width shift acc bytes = .ok (v, rest)) : rest.length < bytes.length := by
  induction bytes generalizing shift acc with
  | nil => cases read
  | cons b bytes ih =>
    rw [decodeFrom] at read
    split at read
    · cases read
    · dsimp only at read
      split at read
      · cases read
        exact Nat.lt_succ_self _
      · exact (ih read).trans (Nat.lt_succ_self _)

/-- What is read depends on the bytes that are read only. -/
theorem decodeFrom_local (width : Nat) {bytes : List UInt8}
    (read : decodeFrom width shift acc bytes = .ok (v, rest)) :
    ∃ taken, bytes = taken ++ rest ∧
      ∀ more, decodeFrom width shift acc (taken ++ more) = .ok (v, more) := by
  induction bytes generalizing shift acc with
  | nil => cases read
  | cons b bytes ih =>
    rw [decodeFrom] at read
    split at read
    · cases read
    · rename_i room
      dsimp only at read
      split at read
      · rename_i last
        cases read
        refine ⟨[b], rfl, fun more => ?_⟩
        rw [List.singleton_append, decodeFrom, if_neg room]
        exact if_pos last
      · rename_i continued
        obtain ⟨taken, rfl, again⟩ := ih read
        refine ⟨b :: taken, rfl, fun more => ?_⟩
        rw [List.cons_append, decodeFrom, if_neg room]
        exact (if_neg continued).trans (again more)

/-- The digit that a byte holds. -/
theorem digit_eq (v : Nat) : v &&& 0x7f = v % 128 := Nat.and_two_pow_sub_one_eq_mod v 7

theorem continued_eq (v : Nat) : (v &&& 0x7f ||| 0x80).toUInt8.toNat = v % 128 + 128 := by
  have joined := Nat.two_pow_add_eq_or_of_lt (i := 7) (Nat.mod_lt v (by decide)) 1
  have byte : v &&& 0x7f ||| 0x80 = v % 128 + 128 := by
    rw [digit_eq, Nat.or_comm, Nat.add_comm]
    exact joined.symm
  rw [byte, Nat.toUInt8_eq, UInt8.toNat_ofNat', Nat.mod_eq_of_lt (by omega)]

/-- A digit goes above the ones that have been read. -/
theorem collect_eq (fits : digit <<< shift < 2 ^ width) (below : acc < 2 ^ shift) :
    acc ||| digit <<< shift % 2 ^ width = acc + digit <<< shift := by
  rw [Nat.mod_eq_of_lt fits, Nat.or_comm, ← Nat.shiftLeft_add_eq_or_of_lt below, Nat.add_comm]

theorem split_digit (v shift : Nat) :
    (v % 128) <<< shift + (v >>> 7) <<< (shift + 7) = v <<< shift := by
  simp only [Nat.shiftLeft_eq, Nat.shiftRight_eq_div_pow, Nat.pow_add]
  rw [Nat.mul_comm (2 ^ shift) (2 ^ 7), ← Nat.mul_assoc, ← Nat.add_mul]
  congr 1
  omega

theorem digit_bound (below : acc < 2 ^ shift) (v : Nat) :
    acc + (v % 128) <<< shift < 2 ^ (shift + 7) := by
  have digit : v % 128 + 1 ≤ 2 ^ 7 := Nat.mod_lt v (by decide)
  have bound := Nat.mul_le_mul_right (2 ^ shift) digit
  rw [Nat.add_mul, Nat.one_mul, Nat.mul_comm (2 ^ 7)] at bound
  rw [Nat.shiftLeft_eq, Nat.pow_add]
  omega

/-- Induction on the number, with what has been read below it. -/
theorem decodeFrom_encode (width v : Nat) (rest : List UInt8) (room : shift < width)
    (fits : v <<< shift < 2 ^ width) (below : acc < 2 ^ shift) :
    decodeFrom width shift acc (encode v ++ rest) = .ok (acc + v <<< shift, rest) := by
  induction v using Nat.strongRecOn generalizing shift acc with
  | ind v ih =>
    have digits := split_digit v shift
    have here : (v % 128) <<< shift < 2 ^ width := (Nat.le.intro digits).trans_lt fits
    have next : (v >>> 7) <<< (shift + 7) < 2 ^ width :=
      (Nat.le.intro ((Nat.add_comm _ _).trans digits)).trans_lt fits
    rw [encode]
    split
    · rename_i more
      have fewer : v >>> 7 < v ∧ 1 ≤ v >>> 7 := by
        rw [Nat.shiftRight_eq_div_pow]
        omega
      have room' : shift + 7 < width := by
        apply (Nat.pow_lt_pow_iff_right Nat.one_lt_two).mp
        refine lt_of_le_of_lt ?_ next
        rw [Nat.shiftLeft_eq]
        exact Nat.le_mul_of_pos_left _ fewer.2
      have continued : ¬ (v &&& 0x7f ||| 0x80).toUInt8 < 0x80 := by
        rw [UInt8.lt_iff_toNat_lt, continued_eq]
        exact Nat.not_lt_of_le (Nat.le_add_left _ _)
      have digit : (v % 128 + 128) &&& 0x7f = v % 128 := by
        rw [digit_eq]
        omega
      rw [List.cons_append, decodeFrom, if_neg (Nat.not_le_of_lt room)]
      simp only [continued_eq, digit, collect_eq here below, if_neg continued]
      rw [ih _ fewer.1 room' next (digit_bound below v), Nat.add_assoc, digits]
    · rename_i last
      have small : v.toUInt8.toNat = v := by
        rw [Nat.toUInt8_eq, UInt8.toNat_ofNat', Nat.mod_eq_of_lt (by omega)]
      have ends : v.toUInt8 < 0x80 := by
        rw [UInt8.lt_iff_toNat_lt, small]
        exact Nat.lt_of_not_le last
      have digit : v &&& 0x7f = v := by
        rw [digit_eq]
        omega
      rw [List.singleton_append, decodeFrom, if_neg (Nat.not_le_of_lt room)]
      simp only [small, digit, collect_eq fits below, if_pos ends]

theorem decode_encode (width v : Nat) (rest : List UInt8) (room : 0 < width) (fits : v < 2 ^ width) :
    decode width (encode v ++ rest) = .ok (v, rest) := by
  have nothing : 0 < 2 ^ 0 := Nat.one_pos
  have read := decodeFrom_encode width v rest room fits nothing
  rw [decode, read, Nat.shiftLeft_zero, Nat.zero_add]

/-- The number of digits, from the number of bits. -/
def size (v : Nat) : Nat := (Nat.log2 (v ||| 1) + 1 + 6) / 7

theorem log2_or_one (positive : v ≠ 0) : Nat.log2 (v ||| 1) = Nat.log2 v := by
  obtain ⟨low, high⟩ := (Nat.log2_eq_iff positive).mp rfl
  have above : v ≤ v ||| 1 := Nat.left_le_or
  refine (Nat.log2_eq_iff (by omega)).mpr ⟨low.trans above, ?_⟩
  exact Nat.or_lt_two_pow high (Nat.one_lt_two_pow (Nat.succ_ne_zero _))

theorem length_encode (v : Nat) : (encode v).length = size v := by
  induction v using Nat.strongRecOn with
  | ind v ih =>
    rw [encode]
    split
    · rename_i more
      have digits : v >>> 7 ≠ 0 := by
        rw [Nat.shiftRight_eq_div_pow]
        omega
      have less : v >>> 7 < v := by
        rw [Nat.shiftRight_eq_div_pow]
        omega
      have bits : Nat.log2 (v >>> 7) = Nat.log2 v - 7 := by
        rw [Nat.shiftRight_eq_div_pow, Nat.log2_eq_log_two, Nat.log2_eq_log_two, Nat.log_div_base_pow]
      have many : 7 ≤ Nat.log2 v := (Nat.le_log2 (by omega)).mpr more
      rw [List.length_cons, ih _ less, size, size, log2_or_one digits, log2_or_one (by omega), bits]
      omega
    · rename_i last
      have few : v ||| 1 < 2 ^ 7 := Nat.or_lt_two_pow (by omega) (by decide)
      have above : 1 ≤ v ||| 1 := Nat.right_le_or
      have bits : Nat.log2 (v ||| 1) < 7 := (Nat.log2_lt (by omega)).mpr few
      rw [List.length_singleton, size]
      omega

end Hollywood.Varint
