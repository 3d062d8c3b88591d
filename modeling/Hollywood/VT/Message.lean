import Mathlib.Data.List.Pairwise
import Hollywood.VT.Field

/-! The methods that are generated for a message type: `SizeVT`, `MarshalToSizedBufferVT`,
`MarshalVT`, `UnmarshalVT` and `EqualVT`. They differ between the types only in the
fields. Of what a malformed field leaves in a message inside the receiver nothing is told. -/
namespace Hollywood.VT

open Backfill (Write)

/-- A field of the messages `T`, with the byte that `MarshalToSizedBufferVT` writes for it. -/
structure Field (T : Type) where
  number : Nat
  tag : UInt8
  name : String
  {Value : Type}
  format : Format Value
  get : T → Value
  set : T → Value → T
  tag_eq : tag.toNat = number <<< 3 ||| format.wireType := by decide
  bounds : 0 < number ∧ number < 16 ∧ format.wireType < 8 ∧ format.wireType ≠ 4 := by decide
  get_set : ∀ m v, get (set m v) = v := by intros; rfl
  set_set : ∀ m v w, set (set m v) w = set m w := by intros; rfl
  set_get : ∀ m, set m (get m) = m := by intros; rfl

namespace Field

def write (f : Field T) (m : T) : Write := f.format.write f.tag (f.get m)

def bytes (f : Field T) (m : T) : List UInt8 := f.format.bytes f.tag (f.get m)

def merge (f : Field T) (old m : T) : T := f.set old (f.format.merge (f.get old) (f.get m))

def unmarshal (f : Field T) (l : Nat) (m : T) (dAtA : List UInt8) : Except VTError (T × List UInt8) := do
  let (v, rest) ← f.format.read l (f.get m) dAtA
  pure (f.set m v, rest)

/-- Neither field is part of the other. -/
structure Apart (f g : Field T) : Prop where
  number : f.number ≠ g.number
  left : ∀ m v, g.get (f.set m v) = g.get m
  right : ∀ m v, f.get (g.set m v) = f.get m

instance : Std.Symm (Apart : Field T → Field T → Prop) :=
  ⟨fun _ _ apart => ⟨apart.number.symm, apart.right, apart.left⟩⟩

theorem unmarshal_ok {f : Field T} {dAtA : List UInt8} (read : f.unmarshal l m dAtA = .ok (m', rest)) :
    ∃ v, f.format.read l (f.get m) dAtA = .ok (v, rest) ∧ m' = f.set m v := by
  obtain ⟨⟨v, after⟩, read, stored⟩ := bind_ok read
  cases stored
  exact ⟨v, read, rfl⟩

theorem unmarshal_of_read {f : Field T} {v : f.Value} {dAtA : List UInt8}
    (read : f.format.read l (f.get m) dAtA = .ok (v, rest)) :
    f.unmarshal l m dAtA = .ok (f.set m v, rest) := by
  rw [unmarshal, read]
  rfl

end Field

structure MessageType (T : Type) where
  name : String
  zero : T
  fields : List (Field T)
  unknownFields : T → List UInt8
  setUnknown : T → List UInt8 → T
  apart : fields.Pairwise Field.Apart := by
    simp only [List.pairwise_cons, List.forall_mem_cons, List.not_mem_nil, false_imp_iff, implies_true,
      and_true, List.Pairwise.nil]
    try and_intros <;> exact ⟨by decide, fun _ _ => rfl, fun _ _ => rfl⟩
  field_zero : ∀ f ∈ fields, f.get zero = f.format.zero := by
    simp only [List.forall_mem_cons, List.not_mem_nil, false_imp_iff, implies_true, and_true]
    and_intros <;> rfl
  unknown_zero : unknownFields zero = [] := by rfl
  unknown_set : ∀ f ∈ fields, ∀ m v, unknownFields (f.set m v) = unknownFields m := by
    simp only [List.forall_mem_cons, List.not_mem_nil, false_imp_iff, implies_true, and_true]
  get_setUnknown : ∀ f ∈ fields, ∀ m u, f.get (setUnknown m u) = f.get m := by
    simp only [List.forall_mem_cons, List.not_mem_nil, false_imp_iff, implies_true, and_true]
  unknown_setUnknown : ∀ m u, unknownFields (setUnknown m u) = u := by intros; rfl
  ext : ∀ {a b}, (∀ f ∈ fields, f.get a = f.get b) → unknownFields a = unknownFields b → a = b := by
    intro a b
    cases a
    cases b
    simp only [List.forall_mem_cons, List.not_mem_nil, false_imp_iff, implies_true, and_true]
    rintro fields rfl
    simp_all only

namespace MessageType
variable {T : Type} (t : MessageType T)

def sizeVT (m : T) : Nat :=
  (t.fields.map fun f => f.format.size (f.get m)).sum + (t.unknownFields m).length

/-- The fields from the last to the first. -/
def writeFields (m : T) : List (Field T) → Write
  | [] => Backfill.nothing
  | f :: fs => Backfill.andThen (writeFields m fs) (f.write m)

def write (m : T) : Write := Backfill.andThen (Backfill.copy (t.unknownFields m)) (writeFields m t.fields)

/-- The buffer after the call and the number of bytes that were written. -/
def marshalToSizedBufferVT (m : T) (dAtA : List UInt8) : Option (List UInt8 × Nat) :=
  (t.write m _ (Backfill.fresh dAtA)).map fun b => (b.dAtA, dAtA.length - b.i)

/-- There is no buffer of a size that is not an `int`. -/
def marshalVT (m : T) : Option (List UInt8) :=
  if t.sizeVT m < intLimit then
    (t.marshalToSizedBufferVT m (List.replicate (t.sizeVT m) 0)).map fun (dAtA, n) => dAtA.take n
  else none

def keepUnknown (m : T) (bytes : List UInt8) : T := t.setUnknown m (t.unknownFields m ++ bytes)

/-- A field that is none of the message's is kept as it is. -/
def unmarshalUnknown (l : Nat) (m : T) (dAtA : List UInt8) : Except VTError (T × List UInt8) := do
  let iNdEx := l - dAtA.length
  let skippy ← skip dAtA
  if intLimit ≤ iNdEx + skippy then .error .invalidLength
  else if l < iNdEx + skippy then .error .unexpectedEOF
  else pure (t.keepUnknown m (dAtA.take skippy), dAtA.drop skippy)

/-- The case of the switch that a field number selects. -/
def fieldOf (fieldNum : Int32) : Option (Field T) := t.fields.find? fun f => fieldNum = Int32.ofNat f.number

/-- One pass of the loop in `UnmarshalVT` over what is left of `l` bytes. -/
def unmarshalField (l : Nat) (m : T) (dAtA : List UInt8) : Except VTError (T × List UInt8) := do
  let (wire, rest) ← varint dAtA
  let fieldNum := Int32.ofNat (wire >>> 3)
  let wireType := wire &&& 0x7
  if wireType = 4 then .error (.endGroup t.name)
  else if fieldNum ≤ 0 then .error (.illegalTag t.name fieldNum wire)
  else
    match t.fieldOf fieldNum with
    | some f => if wireType ≠ f.format.wireType then .error (.wrongWireType wireType f.name) else f.unmarshal l m rest
    | none => t.unmarshalUnknown l m dAtA

theorem unmarshalUnknown_ok {t : MessageType T} {dAtA : List UInt8}
    (read : t.unmarshalUnknown l m dAtA = .ok (m', rest)) :
    ∃ skippy, skip dAtA = .ok skippy ∧ l - dAtA.length + skippy < intLimit ∧ l - dAtA.length + skippy ≤ l ∧
      m' = t.keepUnknown m (dAtA.take skippy) ∧ rest = dAtA.drop skippy := by
  obtain ⟨skippy, skipped, read⟩ := bind_ok read
  split at read
  · cases read
  rename_i index
  split at read
  · cases read
  rename_i inside
  cases read
  exact ⟨skippy, skipped, Nat.lt_of_not_le index, Nat.le_of_not_lt inside, rfl, rfl⟩

theorem unmarshalField_shortens {t : MessageType T} {dAtA : List UInt8}
    (read : t.unmarshalField l m dAtA = .ok (m', rest)) : rest.length < dAtA.length := by
  obtain ⟨⟨wire, after⟩, tag, read⟩ := bind_ok read
  have shorter := varint_shortens tag
  dsimp only at read
  split at read
  · cases read
  split at read
  · cases read
  split at read
  · split at read
    · cases read
    obtain ⟨v, read, -⟩ := Field.unmarshal_ok read
    exact (Format.read_shortens _ read).trans shorter
  · obtain ⟨skippy, skipped, -, -, -, rfl⟩ := unmarshalUnknown_ok read
    have positive := skipFrom_advances skipped
    rw [List.length_drop]
    omega

/-- An error comes with what was read before it. -/
def unmarshalFrom (l : Nat) (m : T) (dAtA : List UInt8) : Except (T × VTError) T :=
  match dAtA with
  | [] => .ok m
  | b :: after =>
    match read : t.unmarshalField l m (b :: after) with
    | .error err => .error (m, err)
    | .ok (m', rest) =>
      have := unmarshalField_shortens read
      unmarshalFrom l m' rest
termination_by dAtA.length
decreasing_by assumption

/-- The message that is read into is the receiver. -/
def unmarshalVT (m : T) (dAtA : List UInt8) : Except VTError T :=
  (t.unmarshalFrom dAtA.length m dAtA).mapError Prod.snd

def equalVT (this that : T) : Bool :=
  (t.fields.all fun f => f.format.equal (f.get this) (f.get that)) && t.unknownFields this == t.unknownFields that

theorem unmarshalVT_ok {t : MessageType T} {dAtA : List UInt8} :
    t.unmarshalVT m dAtA = .ok m' ↔ t.unmarshalFrom dAtA.length m dAtA = .ok m' := by
  rw [unmarshalVT]
  cases t.unmarshalFrom dAtA.length m dAtA with
  | error err => exact iff_of_false (by rintro ⟨⟩) (by rintro ⟨⟩)
  | ok m => simp only [Except.mapError, Except.ok.injEq]

theorem unmarshalFrom_nil (l : Nat) (m : T) : t.unmarshalFrom l m [] = .ok m := by
  rw [unmarshalFrom]

theorem unmarshalFrom_read {t : MessageType T} {dAtA : List UInt8}
    (read : t.unmarshalField l m dAtA = .ok (m', rest)) :
    t.unmarshalFrom l m dAtA = t.unmarshalFrom l m' rest := by
  have shorter := unmarshalField_shortens read
  cases dAtA with
  | nil => cases shorter
  | cons b after =>
    rw [unmarshalFrom]
    split
    · rename_i failed
      cases read.symm.trans failed
    · rename_i read'
      cases read.symm.trans read'
      rfl

/-- Induction along the loop, for a byte string that is accepted. -/
theorem unmarshalFrom_induction {t : MessageType T} {l : Nat} {motive : T → List UInt8 → Prop} {last : T}
    (done : motive last [])
    (next : ∀ {m dAtA m' rest}, t.unmarshalField l m dAtA = .ok (m', rest) →
      t.unmarshalFrom l m' rest = .ok last → motive m' rest → motive m dAtA)
    {m : T} {dAtA : List UInt8} (read : t.unmarshalFrom l m dAtA = .ok last) : motive m dAtA := by
  fun_induction unmarshalFrom t l m dAtA with
  | case1 m =>
    cases read
    exact done
  | case2 => cases read
  | case3 m b after m' rest here _ ih => exact next here read (ih read)

/-! ### What is written -/

def bytes (m : T) : List UInt8 := t.fields.flatMap (fun f => f.bytes m) ++ t.unknownFields m

theorem writeFields_eq (m : T) (fs : List (Field T)) :
    writeFields m fs = Backfill.copy (fs.flatMap fun f => f.bytes m) := by
  induction fs with
  | nil => exact Backfill.nothing_eq
  | cons f fs ih => rw [writeFields, ih, Field.write, f.format.write_eq, Backfill.andThen_copy]; rfl

theorem write_eq (m : T) : t.write m = Backfill.copy (t.bytes m) := by
  rw [write, writeFields_eq, Backfill.andThen_copy, bytes]

theorem sizeVT_eq (m : T) : t.sizeVT m = (t.bytes m).length := by
  rw [sizeVT, bytes, List.length_append, List.length_flatMap]
  simp only [Field.bytes, ← Format.size_eq]

theorem marshalToSizedBufferVT_eq (m : T) (dAtA : List UInt8) :
    t.marshalToSizedBufferVT m dAtA =
      if t.sizeVT m ≤ dAtA.length then
        some (dAtA.take (dAtA.length - t.sizeVT m) ++ t.bytes m, t.sizeVT m)
      else none := by
  rw [marshalToSizedBufferVT, write_eq, Backfill.copy_fresh, sizeVT_eq]

theorem marshalVT_eq (m : T) :
    t.marshalVT m = if t.sizeVT m < intLimit then some (t.bytes m) else none := by
  rw [marshalVT, marshalToSizedBufferVT_eq, List.length_replicate, if_pos (Nat.le_refl _), Nat.sub_self,
    List.take_zero, List.nil_append, Option.map_some, sizeVT_eq]
  dsimp only
  rw [List.take_length]

theorem marshalVT_ok {t : MessageType T} {dAtA : List UInt8} (marshalled : t.marshalVT m = some dAtA) :
    dAtA = t.bytes m ∧ dAtA.length < intLimit := by
  rw [marshalVT_eq, sizeVT_eq] at marshalled
  split at marshalled
  · rename_i fits
    cases marshalled
    exact ⟨rfl, fits⟩
  · cases marshalled

/-! ### What is read -/

theorem ofNat_inj {a b : Nat} (ha : a < 16) (hb : b < 16) (same : Int32.ofNat a = Int32.ofNat b) : a = b := by
  have values := congrArg Int32.toInt same
  rw [Int32.toInt_ofNat_of_lt (by omega), Int32.toInt_ofNat_of_lt (by omega)] at values
  exact Int.ofNat.inj values

theorem find_number {fs : List (Field T)} (apart : fs.Pairwise Field.Apart) {f : Field T} (member : f ∈ fs) :
    (fs.find? fun g => Int32.ofNat f.number = Int32.ofNat g.number) = some f := by
  induction apart with
  | nil => cases member
  | @cons g fs others _ ih =>
    cases member with
    | head => exact List.find?_cons_of_pos (decide_eq_true rfl)
    | tail _ later =>
      have different : ¬ Int32.ofNat f.number = Int32.ofNat g.number := by
        intro same
        exact (others f later).number (ofNat_inj f.bounds.2.1 g.bounds.2.1 same).symm
      rw [List.find?_cons_of_neg (by simpa using different)]
      exact ih later

theorem fieldOf_number {f : Field T} (member : f ∈ t.fields) : t.fieldOf (Int32.ofNat f.number) = some f :=
  find_number t.apart member

theorem fieldOf_some {t : MessageType T} {f : Field T} (found : t.fieldOf fieldNum = some f) :
    f ∈ t.fields ∧ fieldNum = Int32.ofNat f.number :=
  ⟨List.mem_of_find?_eq_some found,
    of_decide_eq_true (List.find?_some (p := fun f : Field T => decide (fieldNum = Int32.ofNat f.number)) found)⟩

/-- A record of a field, with its tag. -/
theorem unmarshalField_field {t : MessageType T} {f : Field T} (member : f ∈ t.fields) {v : f.Value}
    {dAtA : List UInt8} (read : f.format.read l (f.get m) dAtA = .ok (v, rest)) :
    t.unmarshalField l m (f.tag :: dAtA) = .ok (f.set m v, rest) := by
  obtain ⟨positive, small, type, group⟩ := f.bounds
  have wire : f.tag.toNat = f.number * 8 + f.format.wireType := by
    rw [f.tag_eq, ← Nat.shiftLeft_add_eq_or_of_lt type, Nat.shiftLeft_eq]
  have tagged : varint (f.tag :: dAtA) = .ok (f.tag.toNat, dAtA) := by
    have last : f.tag < 0x80 := by
      rw [UInt8.lt_iff_toNat_lt, wire]
      show _ < 128
      omega
    have digit : f.tag.toNat &&& 0x7f = f.tag.toNat := by
      rw [Varint.digit_eq, wire]
      omega
    rw [varint, Varint.decode, Varint.decodeFrom, if_neg (by decide), digit]
    simp only [if_pos last, Nat.zero_or, Nat.shiftLeft_zero]
    rw [Nat.mod_eq_of_lt (f.tag.toNat_lt.trans (by decide))]
  have number : f.tag.toNat >>> 3 = f.number := by
    rw [wire, Nat.shiftRight_eq_div_pow]
    omega
  have kind : f.tag.toNat &&& 0x7 = f.format.wireType := by
    rw [Nat.and_two_pow_sub_one_eq_mod _ 3, wire]
    omega
  have legal : ¬ Int32.ofNat f.number ≤ 0 := by
    rw [Int32.le_iff_toInt_le, Int32.toInt_ofNat_of_lt (by omega)]
    show ¬ (f.number : Int) ≤ 0
    omega
  rw [unmarshalField, tagged]
  simp only [bind, Except.bind, number, kind]
  rw [if_neg group, if_neg legal, t.fieldOf_number member]
  simp only [ne_eq, not_true_eq_false, if_false]
  exact Field.unmarshal_of_read read

theorem unmarshalFrom_records {t : MessageType T} {f : Field T} (member : f ∈ t.fields) {x y : f.Value}
    {dAtA : List UInt8} (records : Records f.format.read f.tag x dAtA y) (m : T) (held : f.get m = x)
    (rest : List UInt8) (room : (dAtA ++ rest).length ≤ l) (index : l < intLimit) :
    t.unmarshalFrom l m (dAtA ++ rest) = t.unmarshalFrom l (f.set m y) rest := by
  induction records generalizing m with
  | nil =>
    rw [← held, f.set_get, List.nil_append]
  | @cons x y more z payload read _ ih =>
    rw [List.cons_append, List.length_cons, List.append_assoc] at room
    have here : f.format.read l (f.get m) (payload ++ (more ++ rest)) = .ok (y, more ++ rest) := by
      rw [held]
      exact read l _ (by omega) index
    rw [List.cons_append, List.append_assoc, unmarshalFrom_read (unmarshalField_field member here)]
    rw [List.length_append] at room
    rw [ih (f.set m y) (f.get_set m y) (by omega), f.set_set]

theorem unmarshalFrom_fields {t : MessageType T} {m : T} (fs : List (Field T)) (known : ∀ f ∈ fs, f ∈ t.fields)
    (sound : ∀ f ∈ fs, f.format.Sound (f.get m)) (old : T) (rest : List UInt8)
    (room : (fs.flatMap (fun f => f.bytes m) ++ rest).length ≤ l) (index : l < intLimit) :
    t.unmarshalFrom l old (fs.flatMap (fun f => f.bytes m) ++ rest) =
      t.unmarshalFrom l (fs.foldl (fun old f => f.merge old m) old) rest := by
  induction fs generalizing old with
  | nil => rfl
  | cons f fs ih =>
    obtain ⟨here, later⟩ := List.forall_mem_cons.mp known
    obtain ⟨sound, others⟩ := List.forall_mem_cons.mp sound
    rw [List.flatMap_cons, List.append_assoc] at room ⊢
    have records : Records f.format.read f.tag (f.get old) (f.bytes m) _ := f.format.records f.tag sound
    rw [unmarshalFrom_records here records old rfl _ room index]
    rw [List.length_append] at room
    exact ih later others _ (by omega)

/-- A field that the type does not know, whole. -/
structure UnknownField (u : List UInt8) : Prop where
  whole : skip u = .ok u.length
  tag : ∃ wire rest, varint u = .ok (wire, rest) ∧ wire &&& 0x7 ≠ 4 ∧ ¬ Int32.ofNat (wire >>> 3) ≤ 0 ∧
    t.fieldOf (Int32.ofNat (wire >>> 3)) = none

/-- Any number of them. -/
inductive Unknown : List UInt8 → Prop where
  | nil : Unknown []
  | snoc {us u : List UInt8} : Unknown us → t.UnknownField u → Unknown (us ++ u)

theorem get_keepUnknown {f : Field T} (member : f ∈ t.fields) (m : T) (u : List UInt8) :
    f.get (t.keepUnknown m u) = f.get m := t.get_setUnknown f member _ _

theorem unknown_keepUnknown (m : T) (u : List UInt8) :
    t.unknownFields (t.keepUnknown m u) = t.unknownFields m ++ u := t.unknown_setUnknown _ _

theorem keepUnknown_nil (m : T) : t.keepUnknown m [] = m :=
  t.ext (fun _ member => t.get_keepUnknown member _ _) (by rw [unknown_keepUnknown, List.append_nil])

theorem keepUnknown_append (m : T) (u v : List UInt8) :
    t.keepUnknown (t.keepUnknown m u) v = t.keepUnknown m (u ++ v) := by
  apply t.ext
  · intro f member
    simp only [t.get_keepUnknown member]
  · simp only [unknown_keepUnknown, List.append_assoc]

theorem UnknownField.unmarshalField {t : MessageType T} {u : List UInt8} (unknown : t.UnknownField u) (m : T)
    (rest : List UInt8) (room : (u ++ rest).length ≤ l) (index : l < intLimit) :
    t.unmarshalField l m (u ++ rest) = .ok (t.keepUnknown m u, rest) := by
  obtain ⟨wire, after, tag, group, legal, unfound⟩ := unknown.tag
  obtain ⟨taken, split, again⟩ := varint_local tag
  have tag' : varint (u ++ rest) = .ok (wire, after ++ rest) := by
    rw [split, List.append_assoc, again]
  have skipped : skip (u ++ rest) = .ok u.length := by
    have skipped := skip_local unknown.whole (Nat.le_refl _) rest
    rwa [List.take_length] at skipped
  rw [MessageType.unmarshalField, tag']
  simp only [bind, Except.bind]
  rw [if_neg group, if_neg legal, unfound]
  simp only [unmarshalUnknown, skipped, bind, Except.bind]
  rw [List.length_append] at room ⊢
  rw [if_neg (by omega), if_neg (by omega), List.take_left, List.drop_left]
  rfl

theorem Unknown.unmarshalFrom {t : MessageType T} {us : List UInt8} (unknown : t.Unknown us) (m : T)
    (rest : List UInt8) (room : (us ++ rest).length ≤ l) (index : l < intLimit) :
    t.unmarshalFrom l m (us ++ rest) = t.unmarshalFrom l (t.keepUnknown m us) rest := by
  induction unknown generalizing rest with
  | nil => rw [keepUnknown_nil, List.nil_append]
  | @snoc us u _ last ih =>
    rw [List.append_assoc] at room ⊢
    rw [ih _ room]
    rw [List.length_append] at room
    rw [unmarshalFrom_read (last.unmarshalField _ rest (by omega) index), keepUnknown_append]

/-- Well-formed messages: those of which every unknown field is one. -/
structure Sound (m : T) : Prop where
  unknown : t.Unknown (t.unknownFields m)
  fields : ∀ f ∈ t.fields, f.format.Sound (f.get m)

/-- The messages that a reader builds: well-formed and without nil elements. -/
structure Normal (m : T) : Prop where
  unknown : t.Unknown (t.unknownFields m)
  fields : ∀ f ∈ t.fields, f.format.Normal (f.get m)

theorem Normal.sound {t : MessageType T} {m : T} (normal : t.Normal m) : t.Sound m :=
  ⟨normal.unknown, fun f member => f.format.normal_sound (normal.fields f member)⟩

theorem normal_zero : t.Normal t.zero where
  unknown := by
    rw [t.unknown_zero]
    exact .nil
  fields f member := by
    rw [t.field_zero f member]
    exact f.format.normal_zero

/-- What reading a message leaves of an old one. -/
def merge (old m : T) : T :=
  t.keepUnknown (t.fields.foldl (fun old f => f.merge old m) old) (t.unknownFields m)

theorem unmarshalFrom_bytes {t : MessageType T} {m : T} (sound : t.Sound m) (old : T) (rest : List UInt8)
    (room : (t.bytes m ++ rest).length ≤ l) (index : l < intLimit) :
    t.unmarshalFrom l old (t.bytes m ++ rest) = t.unmarshalFrom l (t.merge old m) rest := by
  rw [bytes, List.append_assoc] at room ⊢
  rw [unmarshalFrom_fields t.fields (fun _ => id) sound.fields old _ room index]
  rw [List.length_append] at room
  rw [sound.unknown.unmarshalFrom _ rest (by omega) index, merge]

/-- Reading overwrites or adds to what there is, field by field. -/
theorem unmarshalVT_bytes {t : MessageType T} {m : T} (sound : t.Sound m) (fits : (t.bytes m).length < intLimit)
    (old : T) : t.unmarshalVT old (t.bytes m) = .ok (t.merge old m) := by
  have read := unmarshalFrom_bytes sound old [] (Nat.le_of_eq (by rw [List.append_nil])) fits
  rw [List.append_nil] at read
  rw [unmarshalVT_ok, read, unmarshalFrom_nil]

/-! ### The message as its fields -/

theorem get_foldl_other {fs : List (Field T)} {f : Field T} (apart : ∀ g ∈ fs, f.Apart g) (old m : T) :
    f.get (fs.foldl (fun old g => g.merge old m) old) = f.get old := by
  induction fs generalizing old with
  | nil => rfl
  | cons g fs ih =>
    obtain ⟨here, later⟩ := List.forall_mem_cons.mp apart
    rw [List.foldl_cons, ih later]
    exact here.right _ _

theorem get_foldl {fs : List (Field T)} (apart : fs.Pairwise Field.Apart) {f : Field T} (member : f ∈ fs)
    (old m : T) :
    f.get (fs.foldl (fun old g => g.merge old m) old) = f.format.merge (f.get old) (f.get m) := by
  induction apart generalizing old with
  | nil => cases member
  | @cons g fs others _ ih =>
    cases member with
    | head =>
      rw [List.foldl_cons, get_foldl_other others]
      exact f.get_set _ _
    | tail _ later =>
      rw [List.foldl_cons, ih later]
      exact congrArg (f.format.merge · _) ((others f later).left _ _)

theorem unknown_foldl {t : MessageType T} {fs : List (Field T)} (known : ∀ f ∈ fs, f ∈ t.fields) (old m : T) :
    t.unknownFields (fs.foldl (fun old g => g.merge old m) old) = t.unknownFields old := by
  induction fs generalizing old with
  | nil => rfl
  | cons f fs ih =>
    obtain ⟨here, later⟩ := List.forall_mem_cons.mp known
    rw [List.foldl_cons, ih later]
    exact t.unknown_set f here _ _

theorem get_merge {f : Field T} (member : f ∈ t.fields) (old m : T) :
    f.get (t.merge old m) = f.format.merge (f.get old) (f.get m) := by
  rw [merge, t.get_keepUnknown member, get_foldl t.apart member]

theorem unknown_merge (old m : T) :
    t.unknownFields (t.merge old m) = t.unknownFields old ++ t.unknownFields m := by
  rw [merge, unknown_keepUnknown, unknown_foldl (fun _ => id)]

theorem get_merge_zero {f : Field T} (member : f ∈ t.fields) (m : T) :
    f.get (t.merge t.zero m) = f.format.merge f.format.zero (f.get m) := by
  rw [t.get_merge member, t.field_zero f member]

theorem unknown_merge_zero (m : T) : t.unknownFields (t.merge t.zero m) = t.unknownFields m := by
  rw [unknown_merge, t.unknown_zero, List.nil_append]

theorem merge_zero {t : MessageType T} {m : T} (normal : t.Normal m) : t.merge t.zero m = m := by
  refine t.ext (fun f member => ?_) (t.unknown_merge_zero m)
  rw [t.get_merge_zero member, f.format.merge_zero (normal.fields f member)]

theorem bytes_zero : t.bytes t.zero = [] := by
  rw [bytes, t.unknown_zero, List.append_nil, List.flatMap_eq_nil_iff]
  intro f member
  rw [Field.bytes, t.field_zero f member, f.format.bytes_zero]

theorem bytes_merge (m : T) : t.bytes (t.merge t.zero m) = t.bytes m := by
  rw [bytes, bytes, unknown_merge_zero]
  refine congrArg (· ++ _) (List.flatMap_congr fun f member => ?_)
  rw [Field.bytes, t.get_merge_zero member, f.format.bytes_merge]
  rfl

theorem equalVT_iff (this that : T) :
    t.equalVT this that = true ↔ t.merge t.zero this = t.merge t.zero that := by
  simp only [equalVT, Bool.and_eq_true, List.all_eq_true, beq_iff_eq]
  constructor
  · rintro ⟨fields, unknown⟩
    refine t.ext (fun f member => ?_) (by simp only [unknown_merge_zero, unknown])
    rw [t.get_merge_zero member, t.get_merge_zero member]
    exact f.format.equal_iff.mp (fields f member)
  · intro same
    refine ⟨fun f member => f.format.equal_iff.mpr ?_, ?_⟩
    · rw [← t.get_merge_zero member, ← t.get_merge_zero member, same]
    · rw [← unknown_merge_zero, same, unknown_merge_zero]

/-! ### What an accepted byte string tells -/

theorem skip_tag {dAtA : List UInt8} (skipped : skip dAtA = .ok n) : ∃ wire rest, varint dAtA = .ok (wire, rest) := by
  rw [skip, skipFrom] at skipped
  split at skipped
  · split at skipped
    · cases skipped
    · rename_i here
      obtain ⟨⟨wire, rest⟩, tag, -⟩ := bind_ok here
      exact ⟨wire, rest, tag⟩
  · cases skipped

/-- A field that is skipped has the same tag without the bytes behind it. -/
theorem skip_tag_local {dAtA : List UInt8} (skipped : skip dAtA = .ok n) (inside : n ≤ dAtA.length)
    (tag : varint dAtA = .ok (wire, rest)) :
    skip (dAtA.take n) = .ok n ∧ ∃ rest', varint (dAtA.take n) = .ok (wire, rest') := by
  have alone := skip_local skipped inside []
  rw [List.append_nil] at alone
  obtain ⟨wire', rest', tag'⟩ := skip_tag alone
  obtain ⟨taken, split, again⟩ := varint_local tag'
  have whole : varint dAtA = .ok (wire', rest' ++ dAtA.drop n) := by
    rw [← again, ← List.append_assoc, ← split, List.take_append_drop]
  cases tag.symm.trans whole
  exact ⟨alone, rest', tag'⟩

/-- One pass of the loop: either a record of one of the fields, or bytes that are unknown. -/
inductive Pass (l : Nat) (m : T) : List UInt8 → T → List UInt8 → Prop where
  | field {f : Field T} {v : f.Value} {dAtA rest : List UInt8} (member : f ∈ t.fields)
      (read : f.format.read l (f.get m) dAtA = .ok (v, rest)) (tagged : List UInt8)
      (again : ∀ l' more, t.unmarshalField l' m (tagged ++ more) = f.unmarshal l' m more) :
      Pass l m (tagged ++ dAtA) (f.set m v) rest
  | unknown {u rest : List UInt8} (some : u ≠ []) (unknown : t.UnknownField u) :
      Pass l m (u ++ rest) (t.keepUnknown m u) rest

theorem unmarshalField_pass {t : MessageType T} {dAtA : List UInt8} (room : dAtA.length ≤ l)
    (read : t.unmarshalField l m dAtA = .ok (m', rest)) : t.Pass l m dAtA m' rest := by
  obtain ⟨⟨wire, after⟩, tag, read⟩ := bind_ok read
  dsimp only at read
  split at read
  · cases read
  rename_i group
  split at read
  · cases read
  rename_i legal
  split at read
  · rename_i f found
    split at read
    · cases read
    rename_i type
    obtain ⟨member, -⟩ := fieldOf_some found
    obtain ⟨v, value, rfl⟩ := Field.unmarshal_ok read
    obtain ⟨tagged, rfl, again⟩ := varint_local tag
    refine .field member value tagged fun l' more => ?_
    rw [unmarshalField, again]
    simp only [bind, Except.bind]
    rw [if_neg group, if_neg legal, found]
    exact if_neg type
  · rename_i unfound
    obtain ⟨n, skipped, -, below, rfl, rfl⟩ := unmarshalUnknown_ok read
    have inside : n ≤ dAtA.length := by omega
    have size : (dAtA.take n).length = n := List.length_take_of_le inside
    have positive := skipFrom_advances skipped
    obtain ⟨alone, rest', tag'⟩ := skip_tag_local skipped inside tag
    have some : dAtA.take n ≠ [] := fun empty => by
      rw [empty] at size
      exact Nat.lt_irrefl _ (size ▸ positive)
    have pass : t.Pass l m (dAtA.take n ++ dAtA.drop n) (t.keepUnknown m (dAtA.take n)) (dAtA.drop n) :=
      .unknown some ⟨by rw [alone, size], wire, rest', tag', group, legal, unfound⟩
    rwa [List.take_append_drop] at pass

theorem unmarshalField_local (m : T) : Local fun l => t.unmarshalField l m := by
  intro l dAtA m' rest room read
  cases unmarshalField_pass room read with
  | @field f v payload _ member value tagged again =>
    rw [List.length_append] at room
    obtain ⟨taken, some, split, value'⟩ := f.format.read_local _ (by omega) value
    refine ⟨tagged ++ taken, ?_, ?_, fun l' more room index => ?_⟩
    · exact fun empty => some (List.append_eq_nil_iff.mp empty).2
    · rw [split, List.append_assoc]
    · rw [List.append_assoc] at room ⊢
      rw [List.length_append] at room
      show t.unmarshalField l' m (tagged ++ (taken ++ more)) = _
      rw [again, Field.unmarshal_of_read (value' l' more (by omega) index)]
  | unknown some unknown => exact ⟨_, some, rfl, fun l' more room index => unknown.unmarshalField m more room index⟩

/-- Bytes behind an accepted byte string are read into what it left. -/
theorem unmarshalFrom_append {t : MessageType T} {dAtA : List UInt8} (room : dAtA.length ≤ l)
    (read : t.unmarshalFrom l m dAtA = .ok m') (more : List UInt8)
    (room' : (dAtA ++ more).length ≤ l') (index : l' < intLimit) :
    t.unmarshalFrom l' m (dAtA ++ more) = t.unmarshalFrom l' m' more := by
  have along : ∀ {m dAtA}, t.unmarshalFrom l m dAtA = .ok m' → dAtA.length ≤ l →
      (dAtA ++ more).length ≤ l' → t.unmarshalFrom l' m (dAtA ++ more) = t.unmarshalFrom l' m' more := by
    intro m dAtA read
    refine unmarshalFrom_induction
      (motive := fun m dAtA => dAtA.length ≤ l → (dAtA ++ more).length ≤ l' →
        t.unmarshalFrom l' m (dAtA ++ more) = t.unmarshalFrom l' m' more) ?_ ?_ read
    · intro _ _
      rfl
    · intro m dAtA m'' rest here _ ih room room'
      obtain ⟨taken, -, rfl, again⟩ := t.unmarshalField_local m room here
      rw [List.append_assoc] at room' ⊢
      have next : t.unmarshalField l' m (taken ++ (rest ++ more)) = .ok (m'', rest ++ more) := again _ _ room' index
      rw [List.length_append] at room room'
      rw [unmarshalFrom_read next, ih (by omega) (by omega)]
  exact along read room room'

theorem unmarshalVT_append {t : MessageType T} {first second : List UInt8} (read : t.unmarshalVT m first = .ok m')
    (index : (first ++ second).length < intLimit) :
    t.unmarshalVT m (first ++ second) = .ok last ↔ t.unmarshalVT m' second = .ok last := by
  have joined : t.unmarshalFrom (first ++ second).length m (first ++ second) =
      t.unmarshalFrom (first ++ second).length m' second :=
    unmarshalFrom_append (Nat.le_refl _) (unmarshalVT_ok.mp read) second (Nat.le_refl _) index
  have shorter : second.length ≤ (first ++ second).length := by
    rw [List.length_append]
    exact Nat.le_add_left _ _
  -- the index at which the second one starts decides about errors only
  have moved : ∀ {l l'}, second.length ≤ l → second.length ≤ l' → l' < intLimit →
      t.unmarshalFrom l m' second = .ok last → t.unmarshalFrom l' m' second = .ok last := by
    intro l l' room room' index read
    have again := unmarshalFrom_append room read [] (by rwa [List.append_nil]) index
    rwa [List.append_nil, unmarshalFrom_nil] at again
  rw [unmarshalVT_ok, unmarshalVT_ok, joined]
  exact ⟨moved shorter (Nat.le_refl _) (shorter.trans_lt index), moved (Nat.le_refl _) shorter index⟩

theorem unmarshalField_normal {t : MessageType T} {dAtA : List UInt8} (room : dAtA.length ≤ l)
    (read : t.unmarshalField l m dAtA = .ok (m', rest)) (normal : t.Normal m) : t.Normal m' := by
  cases unmarshalField_pass room read with
  | @field f v payload _ member value tagged again =>
    have room : payload.length ≤ l := by
      rw [List.length_append] at room
      omega
    constructor
    · rw [t.unknown_set f member]
      exact normal.unknown
    · intro g other
      obtain rfl | different := Classical.em (f = g)
      · rw [f.get_set]
        exact f.format.read_normal (normal.fields f member) room value
      · rw [(t.apart.forall member other different).left]
        exact normal.fields g other
  | @unknown u _ some unknown =>
    constructor
    · rw [t.unknown_keepUnknown]
      exact .snoc normal.unknown unknown
    · intro f member
      rw [t.get_keepUnknown member]
      exact normal.fields f member

theorem unmarshalVT_normal {t : MessageType T} {dAtA : List UInt8} (normal : t.Normal m)
    (read : t.unmarshalVT m dAtA = .ok m') : t.Normal m' := by
  refine unmarshalFrom_induction (motive := fun m rest => rest.length ≤ dAtA.length → t.Normal m → t.Normal m')
    ?_ ?_ (unmarshalVT_ok.mp read) (Nat.le_refl _) normal
  · exact fun _ normal => normal
  · intro m rest m'' after here _ ih room normal
    have shorter := unmarshalField_shortens here
    exact ih (by omega) (unmarshalField_normal room here normal)

end MessageType

/-! ### Messages inside messages -/

section Nested
variable {U : Type} (t : MessageType U)

/-- A nil message writes nothing. -/
def writePointer : Option U → Write
  | some u => t.write u
  | none => Backfill.nothing

def bytesPointer : Option U → List UInt8
  | some u => t.bytes u
  | none => []

theorem writePointer_eq (v : Option U) : writePointer t v = Backfill.copy (bytesPointer t v) := by
  cases v with
  | some u => exact t.write_eq u
  | none => exact Backfill.nothing_eq

def sizePointer : Option U → Nat
  | some u => t.sizeVT u
  | none => 0

theorem sizePointer_eq (v : Option U) : sizePointer t v = (bytesPointer t v).length := by
  cases v with
  | some u => exact t.sizeVT_eq u
  | none => rfl

/-- The message goes to the free part of the buffer, and the size that the call returned
before it. -/
def writeNested (v : Option U) : Write := fun n b => do
  let inner ← writePointer t v b.i b.free
  encodeVarint (b.i - inner.i) n (b.rejoin inner)

theorem writeNested_eq (v : Option U) :
    writeNested t v = Backfill.copy (Varint.encode (bytesPointer t v).length ++ bytesPointer t v) := by
  rw [← Backfill.andThen_copy]
  funext n b
  rw [writeNested, writePointer_eq, Backfill.andThen]
  by_cases room : (bytesPointer t v).length ≤ b.i
  · have free : (bytesPointer t v).length ≤ b.free.i := room
    have size : b.i - (b.free.fill (bytesPointer t v) free).i = (bytesPointer t v).length := Nat.sub_sub_self room
    rw [Backfill.copy_some free, Backfill.copy_some room]
    simp only [bind, Option.bind, size, encodeVarint_eq, Backfill.rejoin_fill]
  · rw [Backfill.copy_none (by exact room), Backfill.copy_none room]
    rfl

def readNested (l : Nat) (old : Option U) (dAtA : List UInt8) : Except VTError (Option U × List UInt8) := do
  let (bytes, rest) ← lengthDelimited l dAtA
  let u ← t.unmarshalVT (old.getD t.zero) bytes
  pure (some u, rest)

theorem readNested_ok {t : MessageType U} {dAtA : List UInt8} (read : readNested t l old dAtA = .ok (v, rest)) :
    ∃ bytes u, lengthDelimited l dAtA = .ok (bytes, rest) ∧
      t.unmarshalVT (old.getD t.zero) bytes = .ok u ∧ v = some u := by
  obtain ⟨⟨bytes, after⟩, delimited, read⟩ := bind_ok read
  obtain ⟨u, inner, read⟩ := bind_ok read
  cases read
  exact ⟨bytes, u, delimited, inner, rfl⟩

theorem readNested_of_read {t : MessageType U} {dAtA bytes : List UInt8}
    (delimited : lengthDelimited l dAtA = .ok (bytes, rest))
    (inner : t.unmarshalVT (old.getD t.zero) bytes = .ok u) :
    readNested t l old dAtA = .ok (some u, rest) := by
  rw [readNested, delimited]
  simp only [bind, Except.bind]
  rw [inner]
  rfl

def mergeNested (old v : Option U) : Option U :=
  match v with
  | some u => some (t.merge (old.getD t.zero) u)
  | none => some (old.getD t.zero)

theorem unmarshalVT_bytesPointer {t : MessageType U} {v : Option U} (sound : ∀ u, v = some u → t.Sound u)
    (fits : (bytesPointer t v).length < intLimit) (old : Option U) :
    ∃ u, t.unmarshalVT (old.getD t.zero) (bytesPointer t v) = .ok u ∧ mergeNested t old v = some u := by
  cases v with
  | some u => exact ⟨_, MessageType.unmarshalVT_bytes (sound u rfl) fits _, rfl⟩
  | none => exact ⟨_, MessageType.unmarshalVT_ok.mpr (t.unmarshalFrom_nil _ _), rfl⟩

theorem readNested_bytes {t : MessageType U} {v : Option U} (sound : ∀ u, v = some u → t.Sound u)
    (room : ((Varint.encode (bytesPointer t v).length ++ bytesPointer t v) ++ rest).length ≤ l)
    (index : l < intLimit) :
    readNested t l old ((Varint.encode (bytesPointer t v).length ++ bytesPointer t v) ++ rest) =
      .ok (mergeNested t old v, rest) := by
  rw [List.length_append, List.length_append] at room
  obtain ⟨u, inner, merged⟩ := unmarshalVT_bytesPointer sound (by omega) old
  rw [merged]
  exact readNested_of_read (lengthDelimited_encode _ rest (by omega) index) inner

theorem absent_iff_nil {v : Option U} : v.isSome = false ↔ v = none := by
  cases v <;> simp

/-- A pointer to a message. As a field of its own it is left out when nil; a nil element of a
slice is written as an empty message. -/
def Kind.message : Kind (Option U) where
  wireType := 2
  zero := none
  present := Option.isSome
  size v := sizePointer t v + Varint.size (sizePointer t v)
  write := writeNested t
  read := readNested t
  equal
    | some this, some that => t.equalVT this that
    | none, none => true
    | _, _ => false
  equalElement this that := t.equalVT (this.getD t.zero) (that.getD t.zero)
  bytes v := Varint.encode (bytesPointer t v).length ++ bytesPointer t v
  merge := mergeNested t
  Sound v := ∀ u, v = some u → t.Sound u
  Normal v := ∃ u, v = some u ∧ t.Normal u
  absent := absent_iff_nil
  merge_present := by
    intro v _
    cases v <;> rfl
  size_eq v := by
    rw [sizePointer_eq, List.length_append, Varint.length_encode, Nat.add_comm]
  write_eq := writeNested_eq t
  read_bytes := readNested_bytes
  read_local := by
    intro old l dAtA v rest room read
    obtain ⟨bytes, u, delimited, inner, rfl⟩ := readNested_ok read
    obtain ⟨taken, some, split, again⟩ := lengthDelimited_local room delimited
    exact ⟨taken, some, split, fun l' more room index => readNested_of_read (again l' more room index) inner⟩
  read_shortens := by
    intro l old dAtA v rest read
    obtain ⟨bytes, u, delimited, -⟩ := readNested_ok read
    exact lengthDelimited_shortens delimited
  read_normal := by
    intro l old dAtA v rest held _ read
    obtain ⟨bytes, u, delimited, inner, rfl⟩ := readNested_ok read
    refine ⟨u, rfl, MessageType.unmarshalVT_normal ?_ inner⟩
    obtain rfl | ⟨w, rfl, normal⟩ := held
    · exact t.normal_zero
    · exact normal
  normal_sound := by
    rintro v ⟨u, rfl, normal⟩ w same
    cases same
    exact normal.sound
  merge_zero := by
    rintro v ⟨u, rfl, normal⟩
    exact congrArg some (MessageType.merge_zero normal)
  bytes_merge v := by
    cases v with
    | some u => simp only [mergeNested, bytesPointer, Option.getD_none, t.bytes_merge]
    | none => simp only [mergeNested, bytesPointer, Option.getD_none, t.bytes_zero]
  equal_iff := by
    intro this that
    cases this <;> cases that <;> simp [mergeNested, t.equalVT_iff]
  equalElement_iff := by
    intro this that
    have normal := MessageType.merge_zero t.normal_zero
    cases this <;> cases that <;> simp [mergeNested, t.equalVT_iff, normal]

end Nested
end Hollywood.VT
