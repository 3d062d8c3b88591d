import Mathlib.Logic.Function.Basic
import Hollywood.VT.Codec

/-! The VT serializer on the messages of the repository (`VTProtoSerializer` of
`remote/serialize.go`, `remote/protoreg.go`). All messages of a type are read into the one
instance that is registered for it, and a slice is added to, so that the instance holds
everything that was ever read. -/
namespace Hollywood.VT

/-- The contents of the registered instances. -/
abbrev Registry := (name : MessageName) → Option name.Carrier

namespace Registry

/-- `RegisterType` of an instance without contents. -/
def registerType (registry : Registry) (name : MessageName) : Registry :=
  Function.update registry name (some name.type.zero)

inductive Failure where
  | unregistered (name : MessageName)
  | unmarshal (err : VTError)

/-- `Deserialize`. What it returns points to the registered instance. -/
def deserialize (registry : Registry) (data : List UInt8) (name : MessageName) : Except Failure Registry :=
  match registry name with
  | none => .error (.unregistered name)
  | some v =>
    match name.type.unmarshalVT v data with
    | .error err => .error (.unmarshal err)
    | .ok v => .ok (Function.update registry name (some v))

/-- A message and the bytes that `Serialize` made of it. -/
structure Sent where
  name : MessageName
  msg : name.Carrier
  data : List UInt8
  sound : name.type.Sound msg
  serialized : name.type.marshalVT msg = some data

def deserializeAll (registry : Registry) : List Sent → Except Failure Registry
  | [] => .ok registry
  | sent :: rest => do
    let registry ← registry.deserialize sent.data sent.name
    registry.deserializeAll rest

/-- What the instance of a type holds after the messages: those of the type, merged. -/
def absorb (name : MessageName) : name.Carrier → List Sent → name.Carrier
  | v, [] => v
  | v, sent :: rest =>
    if same : sent.name = name then absorb name (name.type.merge v (same ▸ sent.msg)) rest else absorb name v rest

theorem deserialize_sent {registry : Registry} {v : name.Carrier} (sent : Sent) (same : sent.name = name)
    (registered : registry name = some v) :
    registry.deserialize sent.data sent.name =
      .ok (Function.update registry name (some (name.type.merge v (same ▸ sent.msg)))) := by
  subst same
  obtain ⟨bytes, fits⟩ := MessageType.marshalVT_ok sent.serialized
  rw [bytes] at fits
  have read := MessageType.unmarshalVT_bytes sent.sound fits v
  rw [← bytes] at read
  rw [deserialize, registered]
  simp only [read]

/-- Each message of a registered type is read on top of all earlier ones of the type. -/
theorem deserialize_accumulates (sents : List Sent) (registry : Registry)
    (registered : ∀ sent ∈ sents, registry sent.name ≠ none) :
    ∃ after, registry.deserializeAll sents = .ok after ∧
      ∀ name, after name = (registry name).map fun v => absorb name v sents := by
  induction sents generalizing registry with
  | nil => exact ⟨registry, rfl, fun name => by simp only [absorb, Option.map_id']⟩
  | cons sent sents ih =>
    obtain ⟨here, later⟩ := List.forall_mem_cons.mp registered
    obtain ⟨v, held⟩ := Option.ne_none_iff_exists'.mp here
    have read := deserialize_sent sent rfl held
    have kept : ∀ other ∈ sents,
        Function.update registry sent.name (some (sent.name.type.merge v sent.msg)) other.name ≠ none := by
      intro other member
      by_cases same : other.name = sent.name
      · rw [same, Function.update_self]
        exact Option.some_ne_none _
      · rw [Function.update_of_ne same]
        exact later other member
    obtain ⟨after, rest, held'⟩ := ih _ kept
    refine ⟨after, ?_, fun name => ?_⟩
    · rw [deserializeAll, read]
      exact rest
    · rw [held' name]
      by_cases same : sent.name = name
      · subst same
        rw [Function.update_self, held]
        simp only [Option.map_some, absorb, dif_pos]
      · rw [Function.update_of_ne fun other => same other.symm]
        simp only [absorb, dif_neg same]

def announced (member : Member) : Members := ⟨[some member], []⟩

def first : Member := ⟨[0x61], [0x68], [], [], []⟩

def second : Member := ⟨[0x62], [0x69], [], [], []⟩

theorem announced_sound {member : Member} (known : member.unknownFields = []) :
    Members.type.Sound (announced member) := by
  refine members_sound _ fun v element u held => ?_
  obtain rfl := List.mem_singleton.mp element
  cases held
  refine ⟨by rw [show Member.type.unknownFields member = [] from known]; exact .nil, ?_⟩
  simp only [Member.type, List.forall_mem_cons, List.not_mem_nil, false_imp_iff, implies_true, and_true]
  exact ⟨fun _ => trivial, fun _ => trivial, fun _ => trivial, fun _ _ => trivial⟩

/-- The second list of members is read behind the first. -/
theorem deserialize_accumulates_members :
    ∃ after, (registerType (fun _ => none) .members).deserializeAll
        [⟨.members, announced first, [0xa, 6, 0xa, 1, 0x61, 0x12, 1, 0x68], announced_sound rfl, by decide +kernel⟩,
          ⟨.members, announced second, [0xa, 6, 0xa, 1, 0x62, 0x12, 1, 0x69], announced_sound rfl, by decide +kernel⟩] =
        .ok after ∧
      after .members = some ⟨[some first, some second], []⟩ := by
  obtain ⟨after, read, held⟩ := deserialize_accumulates
    [⟨.members, announced first, [0xa, 6, 0xa, 1, 0x61, 0x12, 1, 0x68], announced_sound rfl, by decide +kernel⟩,
      ⟨.members, announced second, [0xa, 6, 0xa, 1, 0x62, 0x12, 1, 0x69], announced_sound rfl, by decide +kernel⟩]
    (registerType (fun _ => none) .members) (by simp [registerType])
  exact ⟨after, read, held .members⟩

end Registry
end Hollywood.VT
