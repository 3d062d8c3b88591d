import Hollywood.VT.Types
import Mathlib.Data.List.Forall2
import Mathlib.Logic.Function.Basic

/-! The VT serializer (`VTProtoSerializer` of `remote/serialize.go`, `remote/protoreg.go`).
The registry holds one instance of a type; all messages of the type are decoded into it. -/
namespace Hollywood.Remote

/-- The generated code of a message type. What is assumed of it, for messages without unknown
fields: the fields in the bytes are overwritten, the ones that have their default are not in
the bytes and are left. -/
structure VTType where
  Message : Type
  Field : Type
  Value : Type
  get : Message → Field → Value
  default : Field → Value
  ext : ∀ m n, (∀ field, get m field = get n field) → m = n
  known : Message → Bool
  marshalVT : Message → Option (List UInt8)
  unmarshalVT : Message → List UInt8 → Message × Option String
  accepts : ∀ m old bytes, known m = true → marshalVT m = some bytes → (unmarshalVT old bytes).2 = none
  overwrites : ∀ m old bytes field, known m = true → marshalVT m = some bytes →
    get m field ≠ default field → get (unmarshalVT old bytes).1 field = get m field
  leaves : ∀ m old bytes field, known m = true → marshalVT m = some bytes →
    get m field = default field → get (unmarshalVT old bytes).1 field = get old field

/-- `Serialize` of the VT serializer. -/
def VTType.serialize (type : VTType) (msg : type.Message) : Option (List UInt8) := type.marshalVT msg

/-- What `m` omits has its default in `old`. -/
def VTType.Covers (type : VTType) (m old : type.Message) : Prop :=
  ∀ field, type.get m field = type.default field → type.get old field = type.default field

/-- A message is read back where the message that it is read into does not show through. -/
theorem VTType.reads_of_covers (type : VTType) {m old : type.Message} {bytes : List UInt8}
    (known : type.known m = true) (marshalled : type.marshalVT m = some bytes) (covers : type.Covers m old) :
    (type.unmarshalVT old bytes).1 = m := by
  apply type.ext
  intro field
  by_cases omitted : type.get m field = type.default field
  · rw [type.leaves m old bytes field known marshalled omitted, omitted]
    exact covers field omitted
  · exact type.overwrites m old bytes field known marshalled omitted

theorem VTType.covers_self (type : VTType) (m : type.Message) : type.Covers m m := by
  intro field omitted
  exact omitted

variable {types : String → VTType}

/-- The instances that there are of each type, by their address, and the one registered. -/
structure Registry (types : String → VTType) where
  heap : ∀ tname, Nat → (types tname).Message
  registry : String → Option Nat

namespace Registry

/-- `RegisterType`, which takes the name of the type from the instance. -/
def registerType (s : Registry types) (tname : String) (v : Nat) : Registry types :=
  { s with registry := Function.update s.registry tname (some v) }

def unregistered (t : String) : String :=
  "given type (" ++ t ++
    ") is not registered. Did you forget to register your type with remote.RegisterType(&instance\x7b\x7d)?"

def registryGetType (s : Registry types) (t : String) : Except String Nat :=
  match s.registry t with
  | some m => .ok m
  | none => .error (unregistered t)

/-- The pointer and the error that `Deserialize` returns. -/
structure Returned where
  value : Option Nat
  err : Option String
  deriving DecidableEq

def deserialize (s : Registry types) (data : List UInt8) (mtype : String) : Registry types × Returned :=
  match s.registryGetType mtype with
  | .error err => (s, ⟨none, some err⟩)
  | .ok v =>
    let decoded := (types mtype).unmarshalVT (s.heap mtype v) data
    ({ s with heap := Function.update s.heap mtype (Function.update (s.heap mtype) v decoded.1) },
      ⟨some v, decoded.2⟩)

end Registry

/-- A message and the bytes that `Serialize` made of it. -/
structure Sent (types : String → VTType) where
  tname : String
  msg : (types tname).Message
  data : List UInt8
  known : (types tname).known msg = true
  serialized : (types tname).serialize msg = some data

namespace Registry

/-- The calls of `Deserialize` in order, with what they return. -/
def deserializeAll (s : Registry types) : List (Sent types) → Registry types × List Returned
  | [] => (s, [])
  | sent :: rest =>
    let first := s.deserialize sent.data sent.tname
    let later := first.1.deserializeAll rest
    (later.1, first.2 :: later.2)

/-- The message can be read where a pointer leads. -/
def Shows (s : Registry types) (sent : Sent types) (returned : Returned) : Prop :=
  ∃ v, returned = ⟨some v, none⟩ ∧ s.heap sent.tname v = sent.msg

variable {s : Registry types} {v : Nat}

theorem deserialize_eq {sent : Sent types} (registered : s.registry sent.tname = some v) :
    s.deserialize sent.data sent.tname =
      ({ s with heap := Function.update s.heap sent.tname (Function.update (s.heap sent.tname) v
          ((types sent.tname).unmarshalVT (s.heap sent.tname v) sent.data).1) }, ⟨some v, none⟩) := by
  have accepted := (types sent.tname).accepts sent.msg (s.heap sent.tname v) sent.data sent.known
    sent.serialized
  rw [deserialize, registryGetType, registered]
  simp only [accepted]

theorem deserialize_registry (s : Registry types) (data : List UInt8) (mtype : String) :
    (s.deserialize data mtype).1.registry = s.registry := by
  rw [deserialize]
  split
  · rfl
  · rfl

/-- What a call reads stands at its own type only. -/
theorem deserialize_other {sent : Sent types} (registered : s.registry sent.tname = some v)
    (other : tname ≠ sent.tname) : (s.deserialize sent.data sent.tname).1.heap tname = s.heap tname := by
  rw [deserialize_eq registered]
  exact Function.update_of_ne other _ _

theorem deserialize_own (sent : Sent types) (registered : s.registry sent.tname = some v) :
    (s.deserialize sent.data sent.tname).1.heap sent.tname v =
      ((types sent.tname).unmarshalVT (s.heap sent.tname v) sent.data).1 := by
  rw [deserialize_eq registered]
  simp only [Function.update_self]

/-- All calls for one type return one pointer. -/
theorem returned_eq (sents : List (Sent types)) (s : Registry types)
    (registered : ∀ sent ∈ sents, (s.registry sent.tname).isSome = true) :
    (s.deserializeAll sents).2 = sents.map fun sent => ⟨s.registry sent.tname, none⟩ := by
  induction sents generalizing s with
  | nil => rfl
  | cons sent rest ih =>
    obtain ⟨here, later⟩ := List.forall_mem_cons.mp registered
    obtain ⟨v, here⟩ := Option.isSome_iff_exists.mp here
    have same := deserialize_registry s sent.data sent.tname
    rw [deserializeAll, List.map_cons, ih]
    · rw [same, deserialize_eq here, here]
    · rw [same]
      exact later

theorem shows_all_iff (sents : List (Sent types)) (s : Registry types)
    (registered : ∀ sent ∈ sents, (s.registry sent.tname).isSome = true) (t : Registry types) :
    List.Forall₂ t.Shows sents (s.deserializeAll sents).2 ↔
      ∀ sent ∈ sents, ∀ v, s.registry sent.tname = some v → t.heap sent.tname v = sent.msg := by
  rw [returned_eq sents s registered, List.forall₂_map_right_iff, List.forall₂_same]
  refine forall₂_congr fun sent member => ?_
  obtain ⟨v, here⟩ := Option.isSome_iff_exists.mp (registered sent member)
  simp [Shows, here]

/-- A field that no message of a type has stays what it was in the instance. -/
theorem omitted_kept (sents : List (Sent types)) (s : Registry types)
    (registered : ∀ sent ∈ sents, (s.registry sent.tname).isSome = true)
    (pointer : s.registry tname = some v) (field : (types tname).Field)
    (omitted : ∀ msg, (∃ sent ∈ sents, sent.tname = tname ∧ sent.msg ≍ msg) →
      (types tname).get msg field = (types tname).default field) :
    (types tname).get ((s.deserializeAll sents).1.heap tname v) field =
      (types tname).get (s.heap tname v) field := by
  induction sents generalizing s with
  | nil => rfl
  | cons sent rest ih =>
    obtain ⟨here, later⟩ := List.forall_mem_cons.mp registered
    obtain ⟨w, here⟩ := Option.isSome_iff_exists.mp here
    have same := deserialize_registry s sent.data sent.tname
    rw [deserializeAll, ih]
    · by_cases own : sent.tname = tname
      · subst own
        cases pointer.symm.trans here
        rw [deserialize_own sent here]
        exact (types sent.tname).leaves _ _ _ field sent.known sent.serialized
          (omitted sent.msg ⟨sent, List.mem_cons_self, rfl, HEq.rfl⟩)
      · rw [deserialize_other here (Ne.symm own)]
    · rw [same]
      exact later
    · rw [same]
      exact pointer
    · rintro msg ⟨other, member, named⟩
      exact omitted msg ⟨other, List.mem_cons_of_mem _ member, named⟩

/-- The instance shows a message that all messages of its type are equal to. -/
theorem shown_of_equal (sents : List (Sent types)) (s : Registry types)
    (registered : ∀ sent ∈ sents, (s.registry sent.tname).isSome = true)
    (pointer : s.registry tname = some v) (msg : (types tname).Message)
    (equal : ∀ sent ∈ sents, sent.tname = tname → sent.msg ≍ msg)
    (covers : (types tname).Covers msg (s.heap tname v))
    (present : s.heap tname v = msg ∨ ∃ sent ∈ sents, sent.tname = tname) :
    (s.deserializeAll sents).1.heap tname v = msg := by
  induction sents generalizing s with
  | nil =>
    rcases present with shown | ⟨sent, member, _⟩
    · exact shown
    · cases member
  | cons sent rest ih =>
    obtain ⟨here, later⟩ := List.forall_mem_cons.mp registered
    obtain ⟨w, here⟩ := Option.isSome_iff_exists.mp here
    have same := deserialize_registry s sent.data sent.tname
    have equal' : ∀ sent ∈ rest, sent.tname = tname → sent.msg ≍ msg :=
      fun other member => equal other (List.mem_cons_of_mem _ member)
    rw [deserializeAll]
    by_cases own : sent.tname = tname
    · subst own
      cases pointer.symm.trans here
      obtain rfl : sent.msg = msg := eq_of_heq (equal sent List.mem_cons_self rfl)
      have read : (s.deserialize sent.data sent.tname).1.heap sent.tname v = sent.msg := by
        rw [deserialize_own sent here]
        exact (types sent.tname).reads_of_covers sent.known sent.serialized covers
      apply ih
      · rw [same]
        exact later
      · rw [same]
        exact pointer
      · exact equal'
      · rw [read]
        exact (types sent.tname).covers_self sent.msg
      · exact .inl read
    · have kept := congrFun (deserialize_other here (Ne.symm own)) v
      apply ih
      · rw [same]
        exact later
      · rw [same]
        exact pointer
      · exact equal'
      · rw [kept]
        exact covers
      · rw [kept]
        rcases present with shown | ⟨other, member, named⟩
        · exact .inl shown
        · cases List.mem_cons.mp member with
          | inl first => exact absurd (first ▸ named) own
          | inr member => exact .inr ⟨other, member, named⟩

end Registry

/-- For all registered types and every sequence of messages that were serialized: after each
call all that was returned so far shows the messages that were serialized if and only if the
messages of each type are equal and the registered instance has its default in all the fields
that they omit. -/
theorem decoding_independent_iff (s : Registry types) (sents : List (Sent types))
    (registered : ∀ sent ∈ sents, (s.registry sent.tname).isSome = true) :
    (∀ earlier later, sents = earlier ++ later →
      List.Forall₂ (s.deserializeAll earlier).1.Shows earlier (s.deserializeAll earlier).2) ↔
    ∀ sent ∈ sents, (∀ other ∈ sents, other.tname = sent.tname → other.msg ≍ sent.msg) ∧
      ∀ v, s.registry sent.tname = some v → (types sent.tname).Covers sent.msg (s.heap sent.tname v) := by
  constructor
  · intro shown sent member
    have last := (Registry.shows_all_iff sents s registered _).mp (shown sents [] (List.append_nil _).symm)
    have equal (other : Sent types) (member' : other ∈ sents) (same : other.tname = sent.tname) :
        other.msg ≍ sent.msg := by
      obtain ⟨v, pointer⟩ := Option.isSome_iff_exists.mp (registered sent member)
      have here := last sent member v pointer
      have there := last other member' v (same ▸ pointer)
      rw [← here, ← there, same]
    refine ⟨equal, ?_⟩
    intro v pointer field omitted
    have kept := Registry.omitted_kept sents s registered pointer field ?_
    · rw [← kept, last sent member v pointer]
      exact omitted
    · rintro msg ⟨other, member', named, same⟩
      have read : sent.msg = msg := eq_of_heq ((equal other member' named).symm.trans same)
      rw [← read]
      exact omitted
  · rintro uniform earlier later rfl
    have inside {sent : Sent types} (member : sent ∈ earlier) : sent ∈ earlier ++ later :=
      List.mem_append_left later member
    have registered' : ∀ sent ∈ earlier, (s.registry sent.tname).isSome = true :=
      fun sent member => registered sent (inside member)
    apply (Registry.shows_all_iff earlier s registered' _).mpr
    intro sent member v pointer
    obtain ⟨equal, covers⟩ := uniform sent (inside member)
    apply Registry.shown_of_equal earlier s registered' pointer
    · exact fun other member => equal other (inside member)
    · exact covers v pointer
    · exact .inr ⟨sent, member, rfl⟩

namespace TestMessage

inductive Field where
  | data
  | unknownFields
  deriving DecidableEq

def get (m : VT.TestMessage) : Field → List UInt8
  | .data => m.data
  | .unknownFields => m.unknownFields

/-- The receiver after `UnmarshalVT`, which keeps what was read before an error, and the error. -/
def unmarshalVT (m : VT.TestMessage) (dAtA : List UInt8) : VT.TestMessage × Option VT.VTError :=
  match VT.TestMessage.type.unmarshalFrom dAtA.length m dAtA with
  | .ok m => (m, none)
  | .error (m, err) => (m, some err)

theorem unmarshal_marshal (m old : VT.TestMessage) (bytes : List UInt8) (known : m.unknownFields = [])
    (marshalled : VT.TestMessage.type.marshalVT m = some bytes) :
    unmarshalVT old bytes = (⟨if m.data = [] then old.data else m.data, old.unknownFields⟩, none) := by
  obtain ⟨rfl, fits⟩ := VT.MessageType.marshalVT_ok marshalled
  have sound : VT.TestMessage.type.Sound m := by
    constructor
    · rw [show VT.TestMessage.type.unknownFields m = [] from known]
      exact .nil
    · exact List.forall_mem_singleton.mpr fun _ => trivial
  rw [unmarshalVT, VT.MessageType.unmarshalVT_ok.mp (VT.MessageType.unmarshalVT_bytes sound fits old)]
  refine congrArg (·, none) (VT.TestMessage.type.ext ?_ ?_)
  · refine List.forall_mem_singleton.mpr ((VT.TestMessage.type.get_merge (List.mem_singleton_self _) old m).trans ?_)
    by_cases empty : m.data = []
    · simp [VT.Kind.singular, VT.Kind.bytestring, VT.Kind.plain, empty]
    · simp [VT.Kind.singular, VT.Kind.bytestring, VT.Kind.plain, empty]
  · rw [VT.MessageType.unknown_merge, show VT.TestMessage.type.unknownFields m = [] from known, List.append_nil]
    rfl

/-- The generated code is as assumed. -/
def vtType : VTType where
  Message := VT.TestMessage
  Field := Field
  Value := List UInt8
  get := get
  default _ := []
  ext := by
    intro m n same
    cases m
    cases n
    rw [VT.TestMessage.mk.injEq]
    exact ⟨same .data, same .unknownFields⟩
  known m := m.unknownFields.isEmpty
  marshalVT := VT.TestMessage.type.marshalVT
  unmarshalVT m dAtA := ((unmarshalVT m dAtA).1, (unmarshalVT m dAtA).2.map VT.VTError.text)
  accepts := by
    intro m old bytes known marshalled
    rw [unmarshal_marshal m old bytes (List.isEmpty_iff.mp known) marshalled]
    rfl
  overwrites := by
    intro m old bytes field known marshalled present
    rw [unmarshal_marshal m old bytes (List.isEmpty_iff.mp known) marshalled]
    cases field with
    | data => exact if_neg present
    | unknownFields => exact absurd (List.isEmpty_iff.mp known) present
  leaves := by
    intro m old bytes field known marshalled omitted
    rw [unmarshal_marshal m old bytes (List.isEmpty_iff.mp known) marshalled]
    cases field with
    | data => exact if_pos omitted
    | unknownFields => rfl

/-- A message with this data, serialized. -/
def sent (bytes : List UInt8) (fits : VT.TestMessage.type.sizeVT ⟨bytes, []⟩ < VT.intLimit) :
    Sent fun _ => vtType where
  tname := "remote.TestMessage"
  msg := (⟨bytes, []⟩ : VT.TestMessage)
  data := VT.TestMessage.type.bytes ⟨bytes, []⟩
  known := rfl
  serialized := (VT.TestMessage.type.marshalVT_eq _).trans (if_pos fits)

/-- An empty instance is registered. -/
def registered : Registry fun _ => vtType :=
  Registry.registerType ⟨fun _ _ => (⟨[], []⟩ : VT.TestMessage), fun _ => none⟩ "remote.TestMessage" 0

theorem deserialize_sent {s : Registry fun _ => vtType} (here : s.registry "remote.TestMessage" = some 0)
    (bytes : List UInt8) (fits : VT.TestMessage.type.sizeVT ⟨bytes, []⟩ < VT.intLimit) :
    (s.deserialize (sent bytes fits).data "remote.TestMessage").1.heap "remote.TestMessage" 0 =
      let old : VT.TestMessage := s.heap "remote.TestMessage" 0
      (⟨if bytes = [] then old.data else bytes, old.unknownFields⟩ : VT.TestMessage) := by
  refine (Registry.deserialize_own (sent bytes fits) here).trans ?_
  exact congrArg Prod.fst (unmarshal_marshal ⟨bytes, []⟩ _ _ rfl (sent bytes fits).serialized)

end TestMessage

theorem decoding_independent_iff_repeated :
    (TestMessage.registered.deserializeAll (List.replicate 3 (TestMessage.sent [1, 2] (by decide)))).2 =
        List.replicate 3 ⟨some 0, none⟩ ∧
      ∀ earlier later, List.replicate 3 (TestMessage.sent [1, 2] (by decide)) = earlier ++ later →
        List.Forall₂ (TestMessage.registered.deserializeAll earlier).1.Shows earlier
          (TestMessage.registered.deserializeAll earlier).2 := by
  have all : ∀ sent ∈ List.replicate 3 (TestMessage.sent [1, 2] (by decide)),
      (TestMessage.registered.registry sent.tname).isSome = true := by
    intro sent member
    obtain rfl := List.eq_of_mem_replicate member
    rfl
  constructor
  · exact (Registry.returned_eq _ TestMessage.registered all).trans List.map_replicate
  · apply (decoding_independent_iff TestMessage.registered _ all).mpr
    intro sent member
    obtain rfl := List.eq_of_mem_replicate member
    constructor
    · intro other member' _
      obtain rfl := List.eq_of_mem_replicate member'
      rfl
    · intro v _ field _
      cases field with
      | data => rfl
      | unknownFields => rfl

/-- A message without data is decoded after one with data and shows the data of that; and
what the first call returned shows the data of another message that is decoded later. -/
theorem data_of_other_message_shown :
    let s := TestMessage.registered
    let one := TestMessage.sent [1] (by decide)
    (s.deserializeAll [one]).2 = [⟨some 0, none⟩] ∧
      (s.deserializeAll [one]).1.heap "remote.TestMessage" 0 = (⟨[1], []⟩ : VT.TestMessage) ∧
    (s.deserializeAll [one, TestMessage.sent [] (by decide)]).2 = [⟨some 0, none⟩, ⟨some 0, none⟩] ∧
      (s.deserializeAll [one, TestMessage.sent [] (by decide)]).1.heap "remote.TestMessage" 0 =
        (⟨[1], []⟩ : VT.TestMessage) ∧
    (s.deserializeAll [one, TestMessage.sent [2] (by decide)]).2 = [⟨some 0, none⟩, ⟨some 0, none⟩] ∧
      (s.deserializeAll [one, TestMessage.sent [2] (by decide)]).1.heap "remote.TestMessage" 0 =
        (⟨[2], []⟩ : VT.TestMessage) := by
  intro s one
  have here : s.registry "remote.TestMessage" = some 0 := rfl
  have first := TestMessage.deserialize_sent here [1] (by decide)
  have still : (s.deserialize one.data "remote.TestMessage").1.registry "remote.TestMessage" = some 0 := by
    rw [Registry.deserialize_registry]
    exact here
  refine ⟨?_, first, ?_, ?_, ?_, ?_⟩
  · exact Registry.returned_eq [one] s (List.forall_mem_singleton.mpr rfl)
  · exact Registry.returned_eq [one, TestMessage.sent [] (by decide)] s
      (List.forall_mem_cons.mpr ⟨rfl, List.forall_mem_singleton.mpr rfl⟩)
  · refine (TestMessage.deserialize_sent still [] (by decide)).trans ?_
    rw [first]
    rfl
  · exact Registry.returned_eq [one, TestMessage.sent [2] (by decide)] s
      (List.forall_mem_cons.mpr ⟨rfl, List.forall_mem_singleton.mpr rfl⟩)
  · refine (TestMessage.deserialize_sent still [2] (by decide)).trans ?_
    rw [first]
    rfl

end Hollywood.Remote
