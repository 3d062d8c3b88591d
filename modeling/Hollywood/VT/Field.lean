import Hollywood.VT.Wire

/-! The kinds of values that the generated codecs write and read, and the two ways in which a
field holds them. A kind carries the meaning of its bytes with it: what they are, what
reading them leaves of an old value, and that both agree with the operations. -/
namespace Hollywood.VT

open Backfill (Write)

structure Kind (V : Type) where
  wireType : Nat
  zero : V
  /-- Whether a field that holds one value is written. -/
  present : V → Bool
  /-- The number of bytes after the tag. -/
  size : V → Nat
  write : V → Write
  /-- What becomes of an old value, and the bytes after it, in what is left of `l` bytes. -/
  read : Nat → V → List UInt8 → Except VTError (V × List UInt8)
  equal : V → V → Bool
  /-- The comparison of two elements of a slice. -/
  equalElement : V → V → Bool
  bytes : V → List UInt8
  merge : V → V → V
  /-- The unknown fields of every message inside are unknown to its type. -/
  Sound : V → Prop
  /-- Besides, no element of a slice is nil. -/
  Normal : V → Prop
  absent : ∀ {v}, present v = false ↔ v = zero
  merge_present : ∀ {v}, present v = true → present (merge zero v) = true
  size_eq : ∀ v, size v = (bytes v).length
  write_eq : ∀ v, write v = Backfill.copy (bytes v)
  read_bytes : ∀ {l old v rest}, Sound v → (bytes v ++ rest).length ≤ l → l < intLimit →
    read l old (bytes v ++ rest) = .ok (merge old v, rest)
  read_local : ∀ old, Local (fun l => read l old)
  read_shortens : ∀ {l old dAtA v rest}, read l old dAtA = .ok (v, rest) → rest.length < dAtA.length
  read_normal : ∀ {l old dAtA v rest}, old = zero ∨ Normal old → dAtA.length ≤ l →
    read l old dAtA = .ok (v, rest) → Normal v
  normal_sound : ∀ {v}, Normal v → Sound v
  merge_zero : ∀ {v}, Normal v → merge zero v = v
  bytes_merge : ∀ v, bytes (merge zero v) = bytes v
  equal_iff : ∀ {v w}, equal v w = true ↔ present v = present w ∧ merge zero v = merge zero w
  equalElement_iff : ∀ {v w}, equalElement v w = true ↔ merge zero v = merge zero w

/-- The bytes of a field, record by record, each with its tag, and what reading them makes of
an old value. -/
inductive Records (read : Nat → X → List UInt8 → Except VTError (X × List UInt8)) (tag : UInt8) :
    X → List UInt8 → X → Prop where
  | nil : Records read tag x [] x
  | cons {payload : List UInt8} :
      (∀ l rest, (payload ++ rest).length ≤ l → l < intLimit → read l x (payload ++ rest) = .ok (y, rest)) →
      Records read tag y more z → Records read tag x (tag :: (payload ++ more)) z

/-- A field of a message: none, one or many values of one kind. -/
structure Format (X : Type) where
  wireType : Nat
  zero : X
  size : X → Nat
  write : UInt8 → X → Write
  read : Nat → X → List UInt8 → Except VTError (X × List UInt8)
  equal : X → X → Bool
  bytes : UInt8 → X → List UInt8
  merge : X → X → X
  Sound : X → Prop
  Normal : X → Prop
  size_eq : ∀ tag x, size x = (bytes tag x).length
  write_eq : ∀ tag x, write tag x = Backfill.copy (bytes tag x)
  records : ∀ {old x} tag, Sound x → Records read tag old (bytes tag x) (merge old x)
  read_local : ∀ old, Local (fun l => read l old)
  read_shortens : ∀ {l old dAtA x rest}, read l old dAtA = .ok (x, rest) → rest.length < dAtA.length
  read_normal : ∀ {l old dAtA x rest}, Normal old → dAtA.length ≤ l → read l old dAtA = .ok (x, rest) →
    Normal x
  normal_zero : Normal zero
  normal_sound : ∀ {x}, Normal x → Sound x
  merge_zero : ∀ {x}, Normal x → merge zero x = x
  bytes_zero : ∀ tag, bytes tag zero = []
  bytes_merge : ∀ tag x, bytes tag (merge zero x) = bytes tag x
  equal_iff : ∀ {x y}, equal x y = true ↔ merge zero x = merge zero y

/-- A field with one value, which is left out when it is the default. -/
def Kind.singular (kind : Kind V) : Format V where
  wireType := kind.wireType
  zero := kind.zero
  size v := if kind.present v then 1 + kind.size v else 0
  write tag v := if kind.present v then Backfill.andThen (kind.write v) (Backfill.put tag) else Backfill.nothing
  read := kind.read
  equal := kind.equal
  bytes tag v := if kind.present v then tag :: kind.bytes v else []
  merge old v := if kind.present v then kind.merge old v else old
  Sound v := kind.present v = true → kind.Sound v
  Normal v := kind.present v = true → kind.Normal v
  size_eq tag v := by
    split
    · rw [List.length_cons, kind.size_eq, Nat.add_comm]
    · rfl
  write_eq tag v := by
    split
    · rw [kind.write_eq, Backfill.put_eq, Backfill.andThen_copy]
      rfl
    · exact Backfill.nothing_eq
  records := by
    intro old v tag sound
    by_cases present : kind.present v = true
    · rw [if_pos present, if_pos present, ← List.append_nil (kind.bytes v)]
      exact .cons (fun l rest room index => kind.read_bytes (sound present) room index) .nil
    · rw [if_neg present, if_neg present]
      exact .nil
  read_local := kind.read_local
  read_shortens := kind.read_shortens
  read_normal := by
    intro l old dAtA v rest normal room read present
    refine kind.read_normal ?_ room read
    cases held : kind.present old with
    | false => exact .inl (kind.absent.mp held)
    | true => exact .inr (normal held)
  normal_zero present := by
    rw [kind.absent.mpr rfl] at present
    cases present
  normal_sound normal present := kind.normal_sound (normal present)
  merge_zero := by
    intro v normal
    split
    · rename_i present
      exact kind.merge_zero (normal present)
    · rename_i absent
      exact (kind.absent.mp (Bool.eq_false_iff.mpr absent)).symm
  bytes_zero tag := if_neg (by rw [kind.absent.mpr rfl]; exact Bool.false_ne_true)
  bytes_merge tag v := by
    by_cases present : kind.present v = true
    · rw [if_pos present, if_pos present, if_pos (kind.merge_present present), kind.bytes_merge]
    · rw [if_neg present, if_neg present, if_neg]
      rw [kind.absent.mpr rfl]
      exact Bool.false_ne_true
  equal_iff := by
    intro v w
    rw [kind.equal_iff]
    by_cases hv : kind.present v = true <;> by_cases hw : kind.present w = true
    · rw [if_pos hv, if_pos hw, hv, hw]
      exact and_iff_right rfl
    · have absent := Bool.eq_false_iff.mpr hw
      have kept := kind.merge_present hv
      rw [if_pos hv, if_neg hw, hv, absent]
      refine ⟨fun both => (Bool.noConfusion both.1), fun same => ?_⟩
      rw [same, kind.absent.mpr rfl] at kept
      cases kept
    · have absent := Bool.eq_false_iff.mpr hv
      have kept := kind.merge_present hw
      rw [if_neg hv, if_pos hw, hw, absent]
      refine ⟨fun both => (Bool.noConfusion both.1), fun same => ?_⟩
      rw [← same, kind.absent.mpr rfl] at kept
      cases kept
    · have left := Bool.eq_false_iff.mpr hv
      have right := Bool.eq_false_iff.mpr hw
      rw [if_neg hv, if_neg hw, left, right, kind.absent.mp left, kind.absent.mp right]
      simp

/-- The elements of a slice, from the last to the first. -/
def Kind.writeAll (kind : Kind V) (tag : UInt8) : List V → Write
  | [] => Backfill.nothing
  | v :: vs => Backfill.andThen (kind.writeAll tag vs) (Backfill.andThen (kind.write v) (Backfill.put tag))

def Kind.bytesAll (kind : Kind V) (tag : UInt8) (vs : List V) : List UInt8 :=
  vs.flatMap fun v => tag :: kind.bytes v

def Kind.readNext (kind : Kind V) (l : Nat) (vs : List V) (dAtA : List UInt8) :
    Except VTError (List V × List UInt8) := do
  let (v, rest) ← kind.read l kind.zero dAtA
  pure (vs ++ [v], rest)

theorem Kind.writeAll_eq (kind : Kind V) (tag : UInt8) (vs : List V) :
    kind.writeAll tag vs = Backfill.copy (kind.bytesAll tag vs) := by
  induction vs with
  | nil => exact Backfill.nothing_eq
  | cons v vs ih =>
    rw [writeAll, ih, kind.write_eq, Backfill.put_eq, Backfill.andThen_copy, Backfill.andThen_copy]
    rfl

theorem Kind.readNext_ok {kind : Kind V} {dAtA : List UInt8}
    (read : kind.readNext l vs dAtA = .ok (ws, rest)) :
    ∃ v, kind.read l kind.zero dAtA = .ok (v, rest) ∧ ws = vs ++ [v] := by
  obtain ⟨⟨v, after⟩, read, appended⟩ := bind_ok read
  cases appended
  exact ⟨v, read, rfl⟩

theorem Kind.readNext_of_read {kind : Kind V} {dAtA : List UInt8}
    (read : kind.read l kind.zero dAtA = .ok (v, rest)) (vs : List V) :
    kind.readNext l vs dAtA = .ok (vs ++ [v], rest) := by
  rw [readNext, read]
  rfl

theorem Kind.records_all {kind : Kind V} {vs : List V} (tag : UInt8) (sound : ∀ v ∈ vs, kind.Sound v)
    (old : List V) :
    Records kind.readNext tag old (kind.bytesAll tag vs) (old ++ vs.map (kind.merge kind.zero)) := by
  induction vs generalizing old with
  | nil =>
    rw [List.map_nil, List.append_nil]
    exact .nil
  | cons v vs ih =>
    obtain ⟨here, later⟩ := List.forall_mem_cons.mp sound
    rw [bytesAll, List.flatMap_cons, List.cons_append, List.map_cons, List.append_cons]
    exact .cons (fun l rest room index => readNext_of_read (kind.read_bytes here room index) old) (ih later _)

/-- A field with a slice, every element of which is written. -/
def Kind.repeated (kind : Kind V) : Format (List V) where
  wireType := kind.wireType
  zero := []
  size vs := (vs.map fun v => 1 + kind.size v).sum
  write := kind.writeAll
  read := kind.readNext
  equal vs ws := vs.length == ws.length && (vs.zip ws).all fun (v, w) => kind.equalElement v w
  bytes := kind.bytesAll
  merge old vs := old ++ vs.map (kind.merge kind.zero)
  Sound vs := ∀ v ∈ vs, kind.Sound v
  Normal vs := ∀ v ∈ vs, kind.Normal v
  size_eq tag vs := by
    rw [Kind.bytesAll, List.length_flatMap]
    simp only [List.length_cons, kind.size_eq, Nat.add_comm]
  write_eq := kind.writeAll_eq
  records tag sound := Kind.records_all tag sound _
  read_local := by
    intro old l dAtA vs rest room next
    obtain ⟨v, read, rfl⟩ := Kind.readNext_ok next
    obtain ⟨taken, some, split, again⟩ := kind.read_local _ room read
    exact ⟨taken, some, split, fun l' more room index => Kind.readNext_of_read (again l' more room index) old⟩
  read_shortens := by
    intro l old dAtA vs rest read
    obtain ⟨v, read, -⟩ := Kind.readNext_ok read
    exact kind.read_shortens read
  read_normal := by
    intro l old dAtA vs rest normal room next
    obtain ⟨v, read, rfl⟩ := Kind.readNext_ok next
    intro w member
    cases List.mem_append.mp member with
    | inl earlier => exact normal w earlier
    | inr last =>
      obtain rfl := List.mem_singleton.mp last
      exact kind.read_normal (.inl rfl) room read
  normal_zero := fun _ member => absurd member List.not_mem_nil
  normal_sound normal v member := kind.normal_sound (normal v member)
  merge_zero := by
    intro vs normal
    rw [List.nil_append]
    exact (List.map_congr_left fun v member => kind.merge_zero (normal v member)).trans (List.map_id' vs)
  bytes_zero _ := rfl
  bytes_merge tag vs := by
    rw [List.nil_append, Kind.bytesAll, Kind.bytesAll, List.flatMap_map]
    simp only [kind.bytes_merge]
  equal_iff := by
    intro vs ws
    induction vs generalizing ws with
    | nil => cases ws <;> simp
    | cons v vs ih =>
      cases ws with
      | nil => simp
      | cons w ws =>
        have rest := @ih ws
        simp only [List.nil_append, Bool.and_eq_true, beq_iff_eq] at rest
        simp only [List.length_cons, List.zip_cons_cons, List.all_cons, List.nil_append, List.map_cons,
          List.cons.injEq, Bool.and_eq_true, beq_iff_eq, Nat.add_right_cancel_iff, kind.equalElement_iff, ← rest]
        exact and_left_comm

/-- A kind whose values are read without regard to the old one. -/
def Kind.plain [DecidableEq V] (wireType : Nat) (zero : V) (size : V → Nat) (write : V → Write)
    (read : Nat → List UInt8 → Except VTError (V × List UInt8)) (bytes : V → List UInt8)
    (size_eq : ∀ v, size v = (bytes v).length) (write_eq : ∀ v, write v = Backfill.copy (bytes v))
    (read_bytes : ∀ l v rest, (bytes v ++ rest).length ≤ l → l < intLimit →
      read l (bytes v ++ rest) = .ok (v, rest))
    (read_local : Local read)
    (read_shortens : ∀ l dAtA v rest, read l dAtA = .ok (v, rest) → rest.length < dAtA.length) : Kind V where
  wireType := wireType
  zero := zero
  present v := v ≠ zero
  size := size
  write := write
  read l _ := read l
  equal v w := v = w
  equalElement v w := v = w
  bytes := bytes
  merge _ v := v
  Sound _ := True
  Normal _ := True
  absent := by simp
  merge_present := id
  size_eq := size_eq
  write_eq := write_eq
  read_bytes _ room index := read_bytes _ _ _ room index
  read_local _ := read_local
  read_shortens := read_shortens _ _ _ _
  read_normal _ _ _ := trivial
  normal_sound := id
  merge_zero _ := rfl
  bytes_merge _ := rfl
  equal_iff := by
    intro v w
    simp only [decide_eq_true_eq]
    exact ⟨fun same => ⟨by rw [same], same⟩, And.right⟩
  equalElement_iff := decide_eq_true_iff

/-- A `string` or `[]byte`. Nothing asks whether a string is one of characters. -/
def Kind.bytestring : Kind (List UInt8) :=
  .plain 2 [] (fun v => v.length + Varint.size v.length)
    (fun v => Backfill.andThen (Backfill.copy v) (encodeVarint v.length)) lengthDelimited
    (fun v => Varint.encode v.length ++ v)
    (fun v => by rw [List.length_append, Varint.length_encode, Nat.add_comm])
    (fun v => by rw [encodeVarint_eq, Backfill.andThen_copy])
    (fun l v rest room index => by
      rw [List.length_append, List.length_append] at room
      exact lengthDelimited_encode v rest (by omega) index)
    lengthDelimited_local
    (fun l dAtA v rest read => lengthDelimited_shortens read)

def readNumber (ofNat : Nat → V) (dAtA : List UInt8) : Except VTError (V × List UInt8) := do
  let (n, rest) ← varint dAtA
  pure (ofNat n, rest)

theorem readNumber_local (ofNat : Nat → V) : Local fun _ => readNumber ofNat := by
  intro l dAtA v rest _ read
  obtain ⟨⟨n, after⟩, number, read⟩ := bind_ok read
  cases read
  have shorter := varint_shortens number
  obtain ⟨taken, rfl, again⟩ := varint_local number
  refine ⟨taken, ?_, rfl, fun l' more _ _ => ?_⟩
  · rintro rfl
    exact Nat.lt_irrefl _ shorter
  · show readNumber ofNat (taken ++ more) = _
    rw [readNumber, again]
    rfl

theorem readNumber_shortens {ofNat : Nat → V} {dAtA : List UInt8}
    (read : readNumber ofNat dAtA = .ok (v, rest)) : rest.length < dAtA.length := by
  obtain ⟨⟨n, after⟩, number, read⟩ := bind_ok read
  cases read
  exact varint_shortens number

theorem readNumber_encode {ofNat : Nat → V} (n : Nat) (fits : n < 2 ^ 64) (rest : List UInt8) :
    readNumber ofNat (Varint.encode n ++ rest) = .ok (ofNat n, rest) := by
  rw [readNumber, varint_encode n fits]
  rfl

/-- A number, as the word of 64 bits that is written. -/
def Kind.number [DecidableEq V] (zero : V) (word : V → UInt64) (ofNat : Nat → V)
    (inverse : ∀ v, ofNat (word v).toNat = v) : Kind V :=
  .plain 0 zero (fun v => Varint.size (word v).toNat) (fun v => encodeVarint (word v).toNat)
    (fun _ => readNumber ofNat) (fun v => Varint.encode (word v).toNat)
    (fun v => (Varint.length_encode _).symm) (fun v => encodeVarint_eq _)
    (fun l v rest _ _ => by rw [readNumber_encode _ (word v).toNat_lt, inverse])
    (readNumber_local ofNat) (fun _ _ _ _ => readNumber_shortens)

/-- The sign is extended; the reader keeps the low 32 bits. -/
theorem int32_word (v : Int32) : Int32.ofNat v.toInt64.toUInt64.toNat = v := by
  apply Int32.toBitVec.inj
  have extended : v.toInt64.toUInt64.toNat = (v.toBitVec.signExtend 64).toNat := rfl
  rw [Int32.toBitVec_ofNat', extended, BitVec.ofNat_toNat]
  ext i inside
  have low : i < 64 := by omega
  simp only [BitVec.getElem_setWidth, BitVec.getLsbD_signExtend, inside, low, decide_true, Bool.true_and, if_true]
  rfl

def Kind.int32 : Kind Int32 := .number 0 (fun v => v.toInt64.toUInt64) Int32.ofNat int32_word

def Kind.uint64 : Kind UInt64 := .number 0 id UInt64.ofNat (fun _ => UInt64.ofNat_toNat)

/-- Any number but zero is read as true; one byte is written. -/
def Kind.bool : Kind Bool :=
  .plain 0 false (fun _ => 1) (fun v => Backfill.put (if v then 1 else 0)) (fun _ => readNumber (· != 0))
    (fun v => [if v then 1 else 0]) (fun _ => rfl) (fun v => Backfill.put_eq _)
    (fun l v rest _ _ => by cases v <;> rfl)
    (readNumber_local _) (fun _ _ _ _ => readNumber_shortens)

end Hollywood.VT
