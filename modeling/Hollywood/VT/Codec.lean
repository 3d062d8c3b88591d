import Hollywood.VT.Types

/-! The codecs of all messages of the repository, by the name of the message. -/
namespace Hollywood.VT

/-- The messages of the three `.proto` files. -/
inductive MessageName where
  | pid | ping | pong
  | envelope | message | testMessage
  | cid | member | members | membersJoin | membersLeave | handshake | topology | actorInfo | actorTopology
  | activation | deactivation | activationRequest | activationResponse
  deriving DecidableEq

namespace MessageName

abbrev Carrier : MessageName → Type
  | pid => PID
  | ping => Ping
  | pong => Pong
  | envelope => Envelope
  | message => Message
  | testMessage => TestMessage
  | cid => CID
  | member => Member
  | members => Members
  | membersJoin => MembersJoin
  | membersLeave => MembersLeave
  | handshake => Handshake
  | topology => Topology
  | actorInfo => ActorInfo
  | actorTopology => ActorTopology
  | activation => Activation
  | deactivation => Deactivation
  | activationRequest => ActivationRequest
  | activationResponse => ActivationResponse

def type : (name : MessageName) → MessageType name.Carrier
  | pid => PID.type
  | ping => Ping.type
  | pong => Pong.type
  | envelope => Envelope.type
  | message => Message.type
  | testMessage => TestMessage.type
  | cid => CID.type
  | member => Member.type
  | members => Members.type
  | membersJoin => MembersJoin.type
  | membersLeave => MembersLeave.type
  | handshake => Handshake.type
  | topology => Topology.type
  | actorInfo => ActorInfo.type
  | actorTopology => ActorTopology.type
  | activation => Activation.type
  | deactivation => Deactivation.type
  | activationRequest => ActivationRequest.type
  | activationResponse => ActivationResponse.type

end MessageName

section Results
variable (name : MessageName)

/-- A buffer is filled from its end with the fields in the order of their numbers and the
unknown fields behind them, and what is before them is left; a buffer that is too short is
left by an index. `SizeVT` is the number of bytes that are written. -/
theorem marshal_fills_from_end (m : name.Carrier) (dAtA : List UInt8) :
    name.type.marshalToSizedBufferVT m dAtA =
        (if name.type.sizeVT m ≤ dAtA.length then
          some (dAtA.take (dAtA.length - name.type.sizeVT m) ++ name.type.bytes m, name.type.sizeVT m)
        else none) ∧
      name.type.marshalVT m =
        (if name.type.sizeVT m < intLimit then some (name.type.bytes m) else none) ∧
      (name.type.bytes m).length = name.type.sizeVT m :=
  ⟨name.type.marshalToSizedBufferVT_eq m dAtA, name.type.marshalVT_eq m, (name.type.sizeVT_eq m).symm⟩

/-- What `MarshalVT` makes of a message is read as an equal one, in which nil elements have
become empty messages; a message without any is read as it is. -/
theorem unmarshal_marshal_equal (m : name.Carrier) (dAtA : List UInt8) (sound : name.type.Sound m)
    (marshalled : name.type.marshalVT m = some dAtA) :
    ∃ m', name.type.unmarshalVT name.type.zero dAtA = .ok m' ∧ name.type.equalVT m m' = true ∧
      name.type.Normal m' ∧ (name.type.Normal m → m' = m) := by
  obtain ⟨rfl, fits⟩ := MessageType.marshalVT_ok marshalled
  have read := MessageType.unmarshalVT_bytes sound fits name.type.zero
  have normal := MessageType.unmarshalVT_normal name.type.normal_zero read
  refine ⟨_, read, ?_, normal, MessageType.merge_zero⟩
  rw [MessageType.equalVT_iff, MessageType.merge_zero normal]

/-- An envelope with a nil message and a field that no envelope has. -/
def halfNil : Envelope :=
  ⟨[[0x74]], [some ⟨[0x68], [0x61], []⟩], [], [some ⟨[1, 2], 0, 0, 0, true, []⟩, none], [0x28, 0x07]⟩

theorem halfNil_sound : Envelope.type.Sound halfNil := by
  have pid : PID.type.Sound ⟨[0x68], [0x61], []⟩ := by
    refine ⟨.nil, ?_⟩
    simp only [PID.type, List.forall_mem_cons, List.not_mem_nil, false_imp_iff, implies_true, and_true]
    exact ⟨fun _ => trivial, fun _ => trivial⟩
  have message : Message.type.Sound ⟨[1, 2], 0, 0, 0, true, []⟩ := by
    refine ⟨.nil, ?_⟩
    simp only [Message.type, List.forall_mem_cons, List.not_mem_nil, false_imp_iff, implies_true, and_true]
    exact ⟨fun _ => trivial, fun _ => trivial, fun _ => trivial, fun _ => trivial, fun _ => trivial⟩
  refine ⟨.snoc .nil ⟨by decide +kernel, 0x28, [0x07], by decide +kernel, by decide, by decide, rfl⟩, ?_⟩
  simp only [Envelope.type, List.forall_mem_cons, List.not_mem_nil, false_imp_iff, implies_true, and_true]
  refine ⟨fun _ _ => trivial, ?_, ?_, ?_⟩
  · intro pointer member u held
    obtain rfl := List.mem_singleton.mp member
    cases held
    exact pid
  · exact fun _ member => absurd member List.not_mem_nil
  · intro pointer member u held
    subst held
    simp only [halfNil, List.mem_cons, Option.some.injEq, List.not_mem_nil, or_false, reduceCtorEq] at member
    rw [member]
    exact message

theorem unmarshal_marshal_halfNil :
    Envelope.type.marshalVT halfNil = some [0xa, 1, 0x74, 0x12, 6, 0xa, 1, 0x68, 0x12, 1, 0x61, 0x22, 6, 0xa, 2, 1, 2,
        0x28, 1, 0x22, 0, 0x28, 0x07] ∧
      ∃ m', Envelope.type.unmarshalVT Envelope.type.zero [0xa, 1, 0x74, 0x12, 6, 0xa, 1, 0x68, 0x12, 1, 0x61, 0x22, 6,
          0xa, 2, 1, 2, 0x28, 1, 0x22, 0, 0x28, 0x07] = .ok m' ∧
        Envelope.type.equalVT halfNil m' = true ∧ Envelope.type.Normal m' := by
  have marshalled : Envelope.type.marshalVT halfNil = some [0xa, 1, 0x74, 0x12, 6, 0xa, 1, 0x68, 0x12, 1, 0x61, 0x22, 6,
      0xa, 2, 1, 2, 0x28, 1, 0x22, 0, 0x28, 0x07] := by decide +kernel
  obtain ⟨m', read, equal, normal, -⟩ := unmarshal_marshal_equal .envelope halfNil _ halfNil_sound marshalled
  exact ⟨marshalled, m', read, equal, normal⟩

/-- `EqualVT` holds between the messages with the same bytes. -/
theorem equal_iff_same_bytes (this that : name.Carrier) (left : name.type.Sound this)
    (right : name.type.Sound that) (fits : name.type.sizeVT this < intLimit)
    (fits' : name.type.sizeVT that < intLimit) :
    name.type.equalVT this that = true ↔ name.type.marshalVT this = name.type.marshalVT that := by
  rw [MessageType.equalVT_iff, MessageType.marshalVT_eq, MessageType.marshalVT_eq, if_pos fits, if_pos fits',
    Option.some_inj]
  rw [MessageType.sizeVT_eq] at fits fits'
  constructor
  · intro same
    rw [← name.type.bytes_merge this, same, name.type.bytes_merge]
  · intro same
    have first := MessageType.unmarshalVT_bytes left fits name.type.zero
    have second := MessageType.unmarshalVT_bytes right fits' name.type.zero
    rw [same] at first
    exact Except.ok.inj (first.symm.trans second)

theorem members_sound (members : List (Option Member)) (sound : ∀ v ∈ members, ∀ u, v = some u → Member.type.Sound u) :
    Members.type.Sound ⟨members, []⟩ := by
  refine ⟨.nil, ?_⟩
  simp only [Members.type, List.forall_mem_cons, List.not_mem_nil, false_imp_iff, implies_true, and_true]
  exact sound

theorem equal_nil_and_empty :
    Members.type.equalVT ⟨[none], []⟩ ⟨[some Member.type.zero], []⟩ = true ∧
      Members.type.marshalVT ⟨[none], []⟩ = Members.type.marshalVT ⟨[some Member.type.zero], []⟩ := by
  have nil : Members.type.Sound ⟨[none], []⟩ := by
    refine members_sound _ fun v member u held => ?_
    obtain rfl := List.mem_singleton.mp member
    cases held
  have empty : Members.type.Sound ⟨[some Member.type.zero], []⟩ := by
    refine members_sound _ fun v member u held => ?_
    obtain rfl := List.mem_singleton.mp member
    cases held
    exact Member.type.normal_zero.sound
  have equal : Members.type.equalVT ⟨[none], []⟩ ⟨[some Member.type.zero], []⟩ = true := by decide +kernel
  exact ⟨equal, (equal_iff_same_bytes .members _ _ nil empty (by decide +kernel) (by decide +kernel)).mp equal⟩

/-- Two accepted byte strings in a row are accepted, and read one after the other into the
same message. -/
theorem unmarshal_append (m m' last : name.Carrier) (first second : List UInt8)
    (read : name.type.unmarshalVT m first = .ok m') (fits : (first ++ second).length < intLimit) :
    name.type.unmarshalVT m (first ++ second) = .ok last ↔ name.type.unmarshalVT m' second = .ok last :=
  MessageType.unmarshalVT_append read fits

theorem unmarshal_append_address_id :
    PID.type.unmarshalVT PID.type.zero ([0xa, 1, 0x68] ++ [0x12, 1, 0x61]) = .ok ⟨[0x68], [0x61], []⟩ := by
  have first : PID.type.unmarshalVT PID.type.zero [0xa, 1, 0x68] = .ok ⟨[0x68], [], []⟩ := by decide +kernel
  exact (unmarshal_append .pid _ _ _ _ _ first (by decide)).mpr (by decide +kernel)

/-- What a reader accepts is well-formed: written again, it is read as the same message. -/
theorem accepted_is_stable (dAtA : List UInt8) (m : name.Carrier)
    (accepted : name.type.unmarshalVT name.type.zero dAtA = .ok m) :
    name.type.Normal m ∧ ∀ again, name.type.marshalVT m = some again →
      name.type.unmarshalVT name.type.zero again = .ok m := by
  have normal := MessageType.unmarshalVT_normal name.type.normal_zero accepted
  refine ⟨normal, fun again marshalled => ?_⟩
  obtain ⟨rfl, fits⟩ := MessageType.marshalVT_ok marshalled
  rw [MessageType.unmarshalVT_bytes normal.sound fits, MessageType.merge_zero normal]

/-- The field 3, which a PID does not have, before the address. -/
theorem accepted_out_of_order :
    PID.type.unmarshalVT PID.type.zero [0x1a, 1, 0x61, 0xa, 1, 0x68] = .ok ⟨[0x68], [], [0x1a, 1, 0x61]⟩ ∧
      PID.type.marshalVT ⟨[0x68], [], [0x1a, 1, 0x61]⟩ = some [0xa, 1, 0x68, 0x1a, 1, 0x61] ∧
      PID.type.unmarshalVT PID.type.zero [0xa, 1, 0x68, 0x1a, 1, 0x61] = .ok ⟨[0x68], [], [0x1a, 1, 0x61]⟩ := by
  have accepted : PID.type.unmarshalVT PID.type.zero [0x1a, 1, 0x61, 0xa, 1, 0x68] =
      .ok ⟨[0x68], [], [0x1a, 1, 0x61]⟩ := by decide +kernel
  have again : PID.type.marshalVT ⟨[0x68], [], [0x1a, 1, 0x61]⟩ = some [0xa, 1, 0x68, 0x1a, 1, 0x61] := by
    decide +kernel
  exact ⟨accepted, again, (accepted_is_stable .pid _ _ accepted).2 _ again⟩

end Results
end Hollywood.VT
