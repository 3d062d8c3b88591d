import Hollywood.VT.Message

/-! The messages of `actor/actor.proto`, `remote/remote.proto` and `cluster/cluster.proto`
as the generated codecs know them: a string is its bytes, a message in a message is a
pointer, and every message keeps the fields that its type does not know. -/
namespace Hollywood.VT

structure PID where
  address : List UInt8
  id : List UInt8
  unknownFields : List UInt8
  deriving DecidableEq

def PID.type : MessageType PID where
  name := "PID"
  zero := ⟨[], [], []⟩
  fields := [
    { number := 1, tag := 0xa, name := "Address", format := Kind.bytestring.singular,
      get := PID.address, set := fun m v => { m with address := v } },
    { number := 2, tag := 0x12, name := "ID", format := Kind.bytestring.singular,
      get := PID.id, set := fun m v => { m with id := v } }]
  unknownFields := PID.unknownFields
  setUnknown m u := { m with unknownFields := u }

structure Ping where
  from_ : Option PID
  unknownFields : List UInt8
  deriving DecidableEq

def Ping.type : MessageType Ping where
  name := "Ping"
  zero := ⟨none, []⟩
  fields := [
    { number := 1, tag := 0xa, name := "From", format := (Kind.message PID.type).singular,
      get := Ping.from_, set := fun m v => { m with from_ := v } }]
  unknownFields := Ping.unknownFields
  setUnknown m u := { m with unknownFields := u }

structure Pong where
  from_ : Option PID
  unknownFields : List UInt8
  deriving DecidableEq

def Pong.type : MessageType Pong where
  name := "Pong"
  zero := ⟨none, []⟩
  fields := [
    { number := 1, tag := 0xa, name := "From", format := (Kind.message PID.type).singular,
      get := Pong.from_, set := fun m v => { m with from_ := v } }]
  unknownFields := Pong.unknownFields
  setUnknown m u := { m with unknownFields := u }

structure Message where
  data : List UInt8
  targetIndex : Int32
  senderIndex : Int32
  typeNameIndex : Int32
  priority : Bool
  unknownFields : List UInt8
  deriving DecidableEq

def Message.type : MessageType Message where
  name := "Message"
  zero := ⟨[], 0, 0, 0, false, []⟩
  fields := [
    { number := 1, tag := 0xa, name := "Data", format := Kind.bytestring.singular,
      get := Message.data, set := fun m v => { m with data := v } },
    { number := 2, tag := 0x10, name := "TargetIndex", format := Kind.int32.singular,
      get := Message.targetIndex, set := fun m v => { m with targetIndex := v } },
    { number := 3, tag := 0x18, name := "SenderIndex", format := Kind.int32.singular,
      get := Message.senderIndex, set := fun m v => { m with senderIndex := v } },
    { number := 4, tag := 0x20, name := "TypeNameIndex", format := Kind.int32.singular,
      get := Message.typeNameIndex, set := fun m v => { m with typeNameIndex := v } },
    { number := 5, tag := 0x28, name := "Priority", format := Kind.bool.singular,
      get := Message.priority, set := fun m v => { m with priority := v } }]
  unknownFields := Message.unknownFields
  setUnknown m u := { m with unknownFields := u }

structure Envelope where
  typeNames : List (List UInt8)
  targets : List (Option PID)
  senders : List (Option PID)
  messages : List (Option Message)
  unknownFields : List UInt8
  deriving DecidableEq

def Envelope.type : MessageType Envelope where
  name := "Envelope"
  zero := ⟨[], [], [], [], []⟩
  fields := [
    { number := 1, tag := 0xa, name := "TypeNames", format := Kind.bytestring.repeated,
      get := Envelope.typeNames, set := fun m v => { m with typeNames := v } },
    { number := 2, tag := 0x12, name := "Targets", format := (Kind.message PID.type).repeated,
      get := Envelope.targets, set := fun m v => { m with targets := v } },
    { number := 3, tag := 0x1a, name := "Senders", format := (Kind.message PID.type).repeated,
      get := Envelope.senders, set := fun m v => { m with senders := v } },
    { number := 4, tag := 0x22, name := "Messages", format := (Kind.message Message.type).repeated,
      get := Envelope.messages, set := fun m v => { m with messages := v } }]
  unknownFields := Envelope.unknownFields
  setUnknown m u := { m with unknownFields := u }

structure TestMessage where
  data : List UInt8
  unknownFields : List UInt8
  deriving DecidableEq

def TestMessage.type : MessageType TestMessage where
  name := "TestMessage"
  zero := ⟨[], []⟩
  fields := [
    { number := 1, tag := 0xa, name := "Data", format := Kind.bytestring.singular,
      get := TestMessage.data, set := fun m v => { m with data := v } }]
  unknownFields := TestMessage.unknownFields
  setUnknown m u := { m with unknownFields := u }

structure CID where
  pid : Option PID
  id : List UInt8
  kind : List UInt8
  region : List UInt8
  unknownFields : List UInt8
  deriving DecidableEq

def CID.type : MessageType CID where
  name := "CID"
  zero := ⟨none, [], [], [], []⟩
  fields := [
    { number := 1, tag := 0xa, name := "PID", format := (Kind.message PID.type).singular,
      get := CID.pid, set := fun m v => { m with pid := v } },
    { number := 2, tag := 0x12, name := "ID", format := Kind.bytestring.singular,
      get := CID.id, set := fun m v => { m with id := v } },
    { number := 3, tag := 0x1a, name := "Kind", format := Kind.bytestring.singular,
      get := CID.kind, set := fun m v => { m with kind := v } },
    { number := 4, tag := 0x22, name := "Region", format := Kind.bytestring.singular,
      get := CID.region, set := fun m v => { m with region := v } }]
  unknownFields := CID.unknownFields
  setUnknown m u := { m with unknownFields := u }

structure Member where
  id : List UInt8
  host : List UInt8
  region : List UInt8
  kinds : List (List UInt8)
  unknownFields : List UInt8
  deriving DecidableEq

def Member.type : MessageType Member where
  name := "Member"
  zero := ⟨[], [], [], [], []⟩
  fields := [
    { number := 1, tag := 0xa, name := "ID", format := Kind.bytestring.singular,
      get := Member.id, set := fun m v => { m with id := v } },
    { number := 2, tag := 0x12, name := "Host", format := Kind.bytestring.singular,
      get := Member.host, set := fun m v => { m with host := v } },
    { number := 3, tag := 0x1a, name := "Region", format := Kind.bytestring.singular,
      get := Member.region, set := fun m v => { m with region := v } },
    { number := 4, tag := 0x22, name := "Kinds", format := Kind.bytestring.repeated,
      get := Member.kinds, set := fun m v => { m with kinds := v } }]
  unknownFields := Member.unknownFields
  setUnknown m u := { m with unknownFields := u }

structure Members where
  members : List (Option Member)
  unknownFields : List UInt8
  deriving DecidableEq

def Members.type : MessageType Members where
  name := "Members"
  zero := ⟨[], []⟩
  fields := [
    { number := 1, tag := 0xa, name := "Members", format := (Kind.message Member.type).repeated,
      get := Members.members, set := fun m v => { m with members := v } }]
  unknownFields := Members.unknownFields
  setUnknown m u := { m with unknownFields := u }

structure MembersJoin where
  members : List (Option Member)
  unknownFields : List UInt8
  deriving DecidableEq

def MembersJoin.type : MessageType MembersJoin where
  name := "MembersJoin"
  zero := ⟨[], []⟩
  fields := [
    { number := 1, tag := 0xa, name := "Members", format := (Kind.message Member.type).repeated,
      get := MembersJoin.members, set := fun m v => { m with members := v } }]
  unknownFields := MembersJoin.unknownFields
  setUnknown m u := { m with unknownFields := u }

structure MembersLeave where
  members : List (Option Member)
  unknownFields : List UInt8
  deriving DecidableEq

def MembersLeave.type : MessageType MembersLeave where
  name := "MembersLeave"
  zero := ⟨[], []⟩
  fields := [
    { number := 1, tag := 0xa, name := "Members", format := (Kind.message Member.type).repeated,
      get := MembersLeave.members, set := fun m v => { m with members := v } }]
  unknownFields := MembersLeave.unknownFields
  setUnknown m u := { m with unknownFields := u }

structure Handshake where
  member : Option Member
  unknownFields : List UInt8
  deriving DecidableEq

def Handshake.type : MessageType Handshake where
  name := "Handshake"
  zero := ⟨none, []⟩
  fields := [
    { number := 1, tag := 0xa, name := "Member", format := (Kind.message Member.type).singular,
      get := Handshake.member, set := fun m v => { m with member := v } }]
  unknownFields := Handshake.unknownFields
  setUnknown m u := { m with unknownFields := u }

structure Topology where
  hash : UInt64
  members : List (Option Member)
  left : List (Option Member)
  joined : List (Option Member)
  blocked : List (Option Member)
  unknownFields : List UInt8
  deriving DecidableEq

def Topology.type : MessageType Topology where
  name := "Topology"
  zero := ⟨0, [], [], [], [], []⟩
  fields := [
    { number := 1, tag := 0x8, name := "Hash", format := Kind.uint64.singular,
      get := Topology.hash, set := fun m v => { m with hash := v } },
    { number := 2, tag := 0x12, name := "Members", format := (Kind.message Member.type).repeated,
      get := Topology.members, set := fun m v => { m with members := v } },
    { number := 3, tag := 0x1a, name := "Left", format := (Kind.message Member.type).repeated,
      get := Topology.left, set := fun m v => { m with left := v } },
    { number := 4, tag := 0x22, name := "Joined", format := (Kind.message Member.type).repeated,
      get := Topology.joined, set := fun m v => { m with joined := v } },
    { number := 5, tag := 0x2a, name := "Blocked", format := (Kind.message Member.type).repeated,
      get := Topology.blocked, set := fun m v => { m with blocked := v } }]
  unknownFields := Topology.unknownFields
  setUnknown m u := { m with unknownFields := u }

structure ActorInfo where
  pid : Option PID
  unknownFields : List UInt8
  deriving DecidableEq

def ActorInfo.type : MessageType ActorInfo where
  name := "ActorInfo"
  zero := ⟨none, []⟩
  fields := [
    { number := 2, tag := 0x12, name := "PID", format := (Kind.message PID.type).singular,
      get := ActorInfo.pid, set := fun m v => { m with pid := v } }]
  unknownFields := ActorInfo.unknownFields
  setUnknown m u := { m with unknownFields := u }

structure ActorTopology where
  actors : List (Option ActorInfo)
  unknownFields : List UInt8
  deriving DecidableEq

def ActorTopology.type : MessageType ActorTopology where
  name := "ActorTopology"
  zero := ⟨[], []⟩
  fields := [
    { number := 1, tag := 0xa, name := "Actors", format := (Kind.message ActorInfo.type).repeated,
      get := ActorTopology.actors, set := fun m v => { m with actors := v } }]
  unknownFields := ActorTopology.unknownFields
  setUnknown m u := { m with unknownFields := u }

structure Activation where
  pid : Option PID
  unknownFields : List UInt8
  deriving DecidableEq

def Activation.type : MessageType Activation where
  name := "Activation"
  zero := ⟨none, []⟩
  fields := [
    { number := 1, tag := 0xa, name := "PID", format := (Kind.message PID.type).singular,
      get := Activation.pid, set := fun m v => { m with pid := v } }]
  unknownFields := Activation.unknownFields
  setUnknown m u := { m with unknownFields := u }

structure Deactivation where
  pid : Option PID
  unknownFields : List UInt8
  deriving DecidableEq

def Deactivation.type : MessageType Deactivation where
  name := "Deactivation"
  zero := ⟨none, []⟩
  fields := [
    { number := 1, tag := 0xa, name := "PID", format := (Kind.message PID.type).singular,
      get := Deactivation.pid, set := fun m v => { m with pid := v } }]
  unknownFields := Deactivation.unknownFields
  setUnknown m u := { m with unknownFields := u }

structure ActivationRequest where
  kind : List UInt8
  id : List UInt8
  region : List UInt8
  topologyHash : UInt64
  unknownFields : List UInt8
  deriving DecidableEq

def ActivationRequest.type : MessageType ActivationRequest where
  name := "ActivationRequest"
  zero := ⟨[], [], [], 0, []⟩
  fields := [
    { number := 1, tag := 0xa, name := "Kind", format := Kind.bytestring.singular,
      get := ActivationRequest.kind, set := fun m v => { m with kind := v } },
    { number := 2, tag := 0x12, name := "ID", format := Kind.bytestring.singular,
      get := ActivationRequest.id, set := fun m v => { m with id := v } },
    { number := 3, tag := 0x1a, name := "Region", format := Kind.bytestring.singular,
      get := ActivationRequest.region, set := fun m v => { m with region := v } },
    { number := 4, tag := 0x20, name := "TopologyHash", format := Kind.uint64.singular,
      get := ActivationRequest.topologyHash, set := fun m v => { m with topologyHash := v } }]
  unknownFields := ActivationRequest.unknownFields
  setUnknown m u := { m with unknownFields := u }

structure ActivationResponse where
  pid : Option PID
  success : Bool
  topologyHash : UInt64
  unknownFields : List UInt8
  deriving DecidableEq

def ActivationResponse.type : MessageType ActivationResponse where
  name := "ActivationResponse"
  zero := ⟨none, false, 0, []⟩
  fields := [
    { number := 1, tag := 0xa, name := "PID", format := (Kind.message PID.type).singular,
      get := ActivationResponse.pid, set := fun m v => { m with pid := v } },
    { number := 2, tag := 0x10, name := "Success", format := Kind.bool.singular,
      get := ActivationResponse.success, set := fun m v => { m with success := v } },
    { number := 3, tag := 0x18, name := "TopologyHash", format := Kind.uint64.singular,
      get := ActivationResponse.topologyHash, set := fun m v => { m with topologyHash := v } }]
  unknownFields := ActivationResponse.unknownFields
  setUnknown m u := { m with unknownFields := u }

end Hollywood.VT
