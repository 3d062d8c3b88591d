import Hollywood.Foundation.Backfill
import Hollywood.Foundation.Varint

/-! The parts that the generated codecs share (`actor/actor_vtproto.pb.go`,
`remote/remote_vtproto.pb.go`, `cluster/cluster_vtproto.pb.go`): `encodeVarint`, the
reading of a field that has a length, and `skip`. A reader looks only at the bytes it takes,
so that bytes can be added behind them. -/
namespace Hollywood.VT

open Backfill (Write)

inductive VTError where
  | intOverflow
  | unexpectedEOF
  | invalidLength
  | unexpectedEndOfGroup
  | endGroup (message : String)
  | illegalTag (message : String) (fieldNum : Int32) (wire : Nat)
  | wrongWireType (wireType : Nat) (field : String)
  | illegalWireType (wireType : Nat)
  deriving DecidableEq

def VTError.text : VTError → String
  | .intOverflow => "proto: integer overflow"
  | .unexpectedEOF => "unexpected EOF"
  | .invalidLength => "proto: negative length found during unmarshaling"
  | .unexpectedEndOfGroup => "proto: unexpected end of group"
  | .endGroup message => "proto: " ++ message ++ ": wiretype end group for non-group"
  | .illegalTag message fieldNum wire =>
    "proto: " ++ message ++ ": illegal tag " ++ toString fieldNum.toInt ++ " (wire type " ++
      toString wire ++ ")"
  | .wrongWireType wireType field => "proto: wrong wireType = " ++ toString wireType ++ " for field " ++ field
  | .illegalWireType wireType => "proto: illegal wireType " ++ toString wireType

/-- A length or an index from here on is negative as an `int`. -/
abbrev intLimit : Nat := 2 ^ 63

/-- The loop over `shift` that reads a number, with the bytes after it. -/
def varint (bytes : List UInt8) : Except VTError (Nat × List UInt8) :=
  match Varint.decode 64 bytes with
  | .ok read => .ok read
  | .error .overflow => .error .intOverflow
  | .error .truncated => .error .unexpectedEOF

/-- One pass of the loop in `skip`, at an index and a depth of groups. -/
def skipField (dAtA : List UInt8) (iNdEx depth : Nat) : Except VTError (Nat × Nat) := do
  let (wire, rest) ← varint (dAtA.drop iNdEx)
  let iNdEx := dAtA.length - rest.length
  match wire &&& 0x7 with
  | 0 =>
    let (_, rest) ← varint rest
    pure (dAtA.length - rest.length, depth)
  | 1 => pure (iNdEx + 8, depth)
  | 2 =>
    let (length, rest) ← varint rest
    if intLimit ≤ length then .error .invalidLength
    else pure (dAtA.length - rest.length + length, depth)
  | 3 => pure (iNdEx, depth + 1)
  | 4 => if depth = 0 then .error .unexpectedEndOfGroup else pure (iNdEx, depth - 1)
  | 5 => pure (iNdEx + 4, depth)
  | wireType => .error (.illegalWireType wireType)

theorem bind_ok {α β : Type} {x : Except VTError α} {f : α → Except VTError β} {result : β}
    (bound : (x >>= f) = .ok result) : ∃ a, x = .ok a ∧ f a = .ok result := by
  cases x with
  | error err => cases bound
  | ok a => exact ⟨a, rfl, bound⟩

theorem varint_shortens {bytes : List UInt8} (read : varint bytes = .ok (v, rest)) :
    rest.length < bytes.length := by
  rw [varint] at read
  split at read
  · cases read
    exact Varint.decodeFrom_shortens 64 (by assumption)
  · cases read
  · cases read

theorem skipField_advances {dAtA : List UInt8} (skipped : skipField dAtA iNdEx depth = .ok (next, depth')) :
    iNdEx < next := by
  obtain ⟨⟨wire, rest⟩, tag, skipped⟩ := bind_ok skipped
  have shorter := varint_shortens tag
  rw [List.length_drop] at shorter
  have start : iNdEx < dAtA.length - rest.length := by omega
  dsimp only at skipped
  split at skipped
  · obtain ⟨⟨v, after⟩, read, skipped⟩ := bind_ok skipped
    have shorter := varint_shortens read
    dsimp only at skipped
    cases skipped
    omega
  · cases skipped
    omega
  · obtain ⟨⟨length, after⟩, read, skipped⟩ := bind_ok skipped
    have shorter := varint_shortens read
    dsimp only at skipped
    split at skipped
    · cases skipped
    · cases skipped
      omega
  · cases skipped
    exact start
  · split at skipped
    · cases skipped
    · cases skipped
      exact start
  · cases skipped
    omega
  · cases skipped

def skipFrom (dAtA : List UInt8) (iNdEx depth : Nat) : Except VTError Nat :=
  if iNdEx < dAtA.length then
    match skipped : skipField dAtA iNdEx depth with
    | .error err => .error err
    | .ok (next, depth) =>
      have := skipField_advances skipped
      if intLimit ≤ next then .error .invalidLength
      else if depth = 0 then .ok next
      else skipFrom dAtA next depth
  else .error .unexpectedEOF
termination_by dAtA.length - iNdEx
decreasing_by omega

theorem skipFrom_advances {dAtA : List UInt8} (skipped : skipFrom dAtA iNdEx depth = .ok n) : iNdEx < n := by
  fun_induction skipFrom dAtA iNdEx depth with
  | case1 => cases skipped
  | case2 => cases skipped
  | case3 iNdEx _ _ next _ _ advances =>
    cases skipped
    exact advances
  | case4 _ _ _ _ _ _ advances _ _ ih => exact advances.trans (ih skipped)
  | case5 => cases skipped

/-- The number of bytes that the next field takes, whatever it is. -/
def skip (dAtA : List UInt8) : Except VTError Nat := skipFrom dAtA 0 0

/-- The loop of `encodeVarint`. An index outside the buffer is a panic. -/
def encodeDigits (dAtA : List UInt8) (offset v : Nat) : Option (List UInt8) :=
  if offset < dAtA.length then
    if 0x80 ≤ v then
      encodeDigits (dAtA.set offset (v &&& 0x7f ||| 0x80).toUInt8) (offset + 1) (v >>> 7)
    else some (dAtA.set offset v.toUInt8)
  else none
termination_by v
decreasing_by
  rw [Nat.shiftRight_eq_div_pow]
  omega

theorem encodeDigits_eq (dAtA : List UInt8) (offset v : Nat) :
    encodeDigits dAtA offset v =
      if offset + (Varint.encode v).length ≤ dAtA.length then
        some (dAtA.take offset ++ Varint.encode v ++ dAtA.drop (offset + (Varint.encode v).length))
      else none := by
  induction v using Nat.strongRecOn generalizing dAtA offset with
  | ind v ih =>
    have less : 0x80 ≤ v → v >>> 7 < v := by
      rw [Nat.shiftRight_eq_div_pow]
      omega
    rw [encodeDigits, Varint.encode]
    by_cases room : offset < dAtA.length
    · rw [if_pos room]
      by_cases more : 0x80 ≤ v
      · rw [if_pos more, if_pos more, ih _ (less more), List.length_set, List.length_cons]
        have place : offset + 1 + (Varint.encode (v >>> 7)).length =
            offset + ((Varint.encode (v >>> 7)).length + 1) := by omega
        rw [place]
        refine if_congr Iff.rfl (congrArg some ?_) rfl
        rw [List.drop_set_of_lt (by omega), List.take_succ_eq_append_getElem (by rwa [List.length_set]),
          List.take_set_of_le (Nat.le_refl _), List.getElem_set_self]
        simp only [List.append_assoc, List.cons_append, List.nil_append]
      · rw [if_neg more, if_neg more, List.length_singleton, if_pos (by exact room),
          List.set_eq_take_append_cons_drop, if_pos room, List.append_assoc]
        rfl
    · have long : 1 ≤ (if 0x80 ≤ v then (v &&& 0x7f ||| 0x80).toUInt8 :: Varint.encode (v >>> 7)
          else [v.toUInt8]).length := by
        split <;> simp only [List.length_cons, List.length_nil] <;> omega
      rw [if_neg room, if_neg (by omega)]

theorem encodeDigits_length {dAtA : List UInt8} (encoded : encodeDigits dAtA offset v = some after) :
    after.length = dAtA.length := by
  rw [encodeDigits_eq] at encoded
  split at encoded
  · cases encoded
    simp only [List.length_append, List.length_take, List.length_drop]
    omega
  · cases encoded

/-- `sov` is the number of digits; the number is written before the index. -/
def encodeVarint (v : Nat) : Write := fun _ b =>
  if Varint.size v ≤ b.i then
    match encoded : encodeDigits b.dAtA (b.i - Varint.size v) v with
    | some dAtA => some ⟨dAtA, b.i - Varint.size v, (encodeDigits_length encoded).trans b.length_eq,
        (Nat.sub_le _ _).trans b.inside⟩
    | none => none
  else none

theorem encodeVarint_eq (v : Nat) : encodeVarint v = Backfill.copy (Varint.encode v) := by
  funext n b
  have size := b.length_eq
  have inside := b.inside
  have length := Varint.length_encode v
  rw [encodeVarint]
  split
  · rename_i room
    have fits : (Varint.encode v).length ≤ b.i := length.trans_le room
    have digits : encodeDigits b.dAtA (b.i - Varint.size v) v = some (b.fill (Varint.encode v) fits).dAtA := by
      rw [encodeDigits_eq, length, if_pos (by omega), Nat.sub_add_cancel room, ← length]
      rfl
    rw [Backfill.copy_some fits]
    split
    · rename_i encoded
      cases digits.symm.trans encoded
      exact congrArg some (Backfill.ext rfl (congrArg (b.i - ·) length.symm))
    · rename_i encoded
      cases digits.symm.trans encoded
  · rename_i full
    rw [Backfill.copy_none (by rwa [length])]

theorem varint_encode (v : Nat) (fits : v < 2 ^ 64) (rest : List UInt8) :
    varint (Varint.encode v ++ rest) = .ok (v, rest) := by
  rw [varint, Varint.decode_encode 64 v rest (by decide) fits]

theorem varint_local {bytes : List UInt8} (read : varint bytes = .ok (v, rest)) :
    ∃ taken, bytes = taken ++ rest ∧ ∀ more, varint (taken ++ more) = .ok (v, more) := by
  rw [varint] at read
  split at read
  · rename_i decoded
    cases read
    obtain ⟨taken, split, again⟩ := Varint.decodeFrom_local 64 decoded
    refine ⟨taken, split, fun more => ?_⟩
    rw [varint, Varint.decode, again more]
  · cases read
  · cases read

/-- A reader takes some of the bytes, and looks at no others. -/
def Local (read : Nat → List UInt8 → Except VTError (V × List UInt8)) : Prop :=
  ∀ {l dAtA v rest}, dAtA.length ≤ l → read l dAtA = .ok (v, rest) →
    ∃ taken, taken ≠ [] ∧ dAtA = taken ++ rest ∧
      ∀ l' more, (taken ++ more).length ≤ l' → l' < intLimit → read l' (taken ++ more) = .ok (v, more)

/-- The length and then the bytes of a field, in what is left of `l` bytes. -/
def lengthDelimited (l : Nat) (dAtA : List UInt8) : Except VTError (List UInt8 × List UInt8) := do
  let (length, rest) ← varint dAtA
  let iNdEx := l - rest.length
  if intLimit ≤ length then .error .invalidLength
  else if intLimit ≤ iNdEx + length then .error .invalidLength
  else if l < iNdEx + length then .error .unexpectedEOF
  else pure (rest.take length, rest.drop length)

theorem lengthDelimited_local : Local lengthDelimited := by
  intro l dAtA bytes rest left delimited
  obtain ⟨⟨length, after⟩, prefixed, read⟩ := bind_ok delimited
  have shorter := varint_shortens prefixed
  obtain ⟨taken, rfl, again⟩ := varint_local prefixed
  dsimp only at read
  split at read
  · cases read
  rename_i small
  split at read
  · cases read
  split at read
  · cases read
  rename_i inside
  cases read
  rw [List.length_append] at left shorter
  have enough : length ≤ after.length := by omega
  have size : (after.take length).length = length := List.length_take_of_le enough
  refine ⟨taken ++ after.take length, ?_, ?_, ?_⟩
  · intro empty
    rw [(List.append_eq_nil_iff.mp empty).1, List.length_nil, Nat.zero_add] at shorter
    exact Nat.lt_irrefl _ shorter
  · rw [List.append_assoc, List.take_append_drop]
  · intro l' more room index
    have room : taken.length + (length + more.length) ≤ l' := by
      simpa only [List.length_append, size, Nat.add_assoc] using room
    rw [List.append_assoc, lengthDelimited, again]
    simp only [bind, Except.bind, if_neg small, List.length_append, size]
    rw [if_neg (by omega), if_neg (by omega)]
    simp only [pure, Except.pure]
    rw [List.take_left' size, List.drop_left' size]

theorem lengthDelimited_shortens {dAtA : List UInt8} (delimited : lengthDelimited l dAtA = .ok (bytes, rest)) :
    rest.length < dAtA.length := by
  obtain ⟨⟨length, after⟩, prefixed, read⟩ := bind_ok delimited
  have shorter := varint_shortens prefixed
  dsimp only at read
  split at read
  · cases read
  split at read
  · cases read
  split at read
  · cases read
  cases read
  rw [List.length_drop]
  omega

theorem lengthDelimited_encode (bytes rest : List UInt8) (room : bytes.length + rest.length ≤ l)
    (index : l < intLimit) :
    lengthDelimited l (Varint.encode bytes.length ++ bytes ++ rest) = .ok (bytes, rest) := by
  have small : bytes.length < 2 ^ 64 := by
    have : intLimit < 2 ^ 64 := by decide
    omega
  rw [List.append_assoc, lengthDelimited, varint_encode _ small]
  simp only [bind, Except.bind, List.length_append]
  rw [if_neg (by omega), if_neg (by omega), if_neg (by omega)]
  simp only [pure, Except.pure]
  rw [List.take_left, List.drop_left]

/-- A number at an index, in any bytes that are the same up to its end. -/
theorem varint_at {dAtA : List UInt8} (read : varint (dAtA.drop iNdEx) = .ok (v, rest)) :
    ∃ next, next = dAtA.length - rest.length ∧ rest = dAtA.drop next ∧ next ≤ dAtA.length ∧
      ∀ other : List UInt8, other.take next = dAtA.take next → next ≤ other.length →
        varint (other.drop iNdEx) = .ok (v, other.drop next) := by
  have shorter := varint_shortens read
  obtain ⟨taken, split, again⟩ := varint_local read
  have sizes := congrArg List.length split
  rw [List.length_append, List.length_drop] at sizes
  rw [List.length_drop] at shorter
  have place : dAtA.length - rest.length = iNdEx + taken.length := by omega
  refine ⟨_, rfl, ?_, Nat.sub_le _ _, fun other same inside => ?_⟩
  · rw [place, ← List.drop_drop, split, List.drop_left]
  · have start : (other.take (dAtA.length - rest.length)).drop iNdEx = taken := by
      rw [same, List.drop_take, split, place, Nat.add_sub_cancel_left, List.take_left]
    have whole : other.drop iNdEx = taken ++ other.drop (dAtA.length - rest.length) := by
      rw [← start, ← List.drop_append_of_le_length, List.take_append_drop]
      rw [List.length_take]
      omega
    rw [whole, again]

/-- `next` and the depth there depend on the bytes before `next` only. -/
theorem skipField_local {dAtA other : List UInt8} (skipped : skipField dAtA iNdEx depth = .ok (next, depth'))
    (inside : next ≤ dAtA.length) (same : other.take next = dAtA.take next) (room : next ≤ other.length) :
    skipField other iNdEx depth = .ok (next, depth') := by
  have up_to : ∀ n ≤ next, other.take n = dAtA.take n := by
    intro n below
    have taken := congrArg (List.take n) same
    rwa [List.take_take, List.take_take, Nat.min_eq_left below] at taken
  obtain ⟨⟨wire, rest⟩, tag, skipped⟩ := bind_ok skipped
  obtain ⟨after, index, left, -, tagged⟩ := varint_at tag
  dsimp only at skipped
  rw [← index] at skipped
  have started : after ≤ next → varint (other.drop iNdEx) = .ok (wire, other.drop after) :=
    fun below => tagged other (up_to after below) (below.trans room)
  have length : ∀ n ≤ next, other.length - (other.drop n).length = n := by
    intro n below
    rw [List.length_drop]
    omega
  subst left
  split at skipped
  · rename_i type
    obtain ⟨⟨v, rest⟩, number, skipped⟩ := bind_ok skipped
    have later := varint_shortens number
    obtain ⟨last, index', -, -, again⟩ := varint_at number
    cases skipped
    rw [← index'] at up_to length started room
    rw [List.length_drop] at later
    have below : after ≤ last := by omega
    rw [skipField, started (by omega)]
    simp only [bind, Except.bind, type]
    rw [again other (up_to _ (Nat.le_refl _)) room]
    simp only [pure, Except.pure]
    rw [length _ (Nat.le_refl _), index']
  · rename_i type
    cases skipped
    rw [skipField, started (Nat.le_add_right _ _)]
    simp only [bind, Except.bind, type, length after (Nat.le_add_right _ _), pure, Except.pure]
  · rename_i type
    obtain ⟨⟨v, rest⟩, number, skipped⟩ := bind_ok skipped
    have later := varint_shortens number
    obtain ⟨last, index', -, -, again⟩ := varint_at number
    dsimp only at skipped
    split at skipped
    · cases skipped
    rename_i small
    cases skipped
    rw [← index'] at up_to length started room ⊢
    rw [List.length_drop] at later
    have below : after ≤ last := by omega
    rw [skipField, started (by omega)]
    simp only [bind, Except.bind, type]
    rw [again other (up_to _ (Nat.le_add_right _ _)) (by omega)]
    simp only [if_neg small, pure, Except.pure, length last (Nat.le_add_right _ _)]
  · rename_i type
    cases skipped
    rw [skipField, started (Nat.le_refl _)]
    simp only [bind, Except.bind, type, pure, Except.pure]
    rw [length _ (Nat.le_refl _)]
  · rename_i type
    split at skipped
    · cases skipped
    rename_i deep
    cases skipped
    rw [skipField, started (Nat.le_refl _)]
    simp only [bind, Except.bind, type, if_neg deep, pure, Except.pure]
    rw [length _ (Nat.le_refl _)]
  · rename_i type
    cases skipped
    rw [skipField, started (Nat.le_add_right _ _)]
    simp only [bind, Except.bind, type, length after (Nat.le_add_right _ _), pure, Except.pure]
  · cases skipped

theorem skipFrom_local {dAtA other : List UInt8} (skipped : skipFrom dAtA iNdEx depth = .ok n)
    (inside : n ≤ dAtA.length) (same : other.take n = dAtA.take n) (room : n ≤ other.length) :
    skipFrom other iNdEx depth = .ok n := by
  fun_induction skipFrom dAtA iNdEx depth with
  | case1 => cases skipped
  | case2 => cases skipped
  | case3 iNdEx depth within next small here advances =>
    cases skipped
    have again := skipField_local here inside same room
    rw [skipFrom, if_pos (by omega)]
    split
    · rename_i failed
      cases again.symm.trans failed
    · rename_i again'
      cases again.symm.trans again'
      rw [if_neg small, if_pos rfl]
  | case4 iNdEx depth within next deeper here advances small deep ih =>
    have later := skipFrom_advances skipped
    have upTo : other.take next = dAtA.take next := by
      have taken := congrArg (List.take next) same
      rwa [List.take_take, List.take_take, Nat.min_eq_left later.le] at taken
    have again := skipField_local here (by omega) upTo (by omega)
    rw [skipFrom, if_pos (by omega)]
    split
    · rename_i failed
      cases again.symm.trans failed
    · rename_i again'
      cases again.symm.trans again'
      rw [if_neg small, if_neg deep]
      exact ih skipped
  | case5 => cases skipped

/-- The bytes of a field that is skipped, before any others. -/
theorem skip_local {dAtA : List UInt8} (skipped : skip dAtA = .ok n) (inside : n ≤ dAtA.length)
    (more : List UInt8) : skip (dAtA.take n ++ more) = .ok n := by
  have size : (dAtA.take n).length = n := List.length_take_of_le inside
  refine skipFrom_local skipped inside (List.take_left' size) ?_
  rw [List.length_append, size]
  exact Nat.le_add_right _ _

end Hollywood.VT
