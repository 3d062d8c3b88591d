import Hollywood.Foundation.Table
import Hollywood.Process

/-! The wire format of the remote: the batch that a stream writer packs into one
envelope (`remote/stream_writer.go`) and what a stream reader makes of it
(`remote/stream_reader.go`). The hash, the serializer and the codec of envelopes
are parameters. -/
namespace Hollywood

/-- The bytes that `LookupKey` hashes: the address and, right after it, the id. -/
def PID.key (pid : PID) : List UInt8 := pid.address.toUTF8.data.toList ++ pid.id.toUTF8.data.toList

def PID.lookupKey (hash : List UInt8 → UInt64) (pid : PID) : UInt64 := hash pid.key

def PID.equals (pid other : PID) : Bool := pid.address == other.address && pid.id == other.id

namespace Remote

structure StreamDeliver (P : Type) where
  sender : Option PID
  target : PID
  msg : P
  priority : Bool
  deriving DecidableEq, Repr

structure Message where
  data : List UInt8
  typeNameIndex : Int32
  senderIndex : Int32
  targetIndex : Int32
  priority : Bool
  deriving DecidableEq, Repr

/-- A message is a pointer; one whose payload did not serialize stays nil. -/
structure Envelope where
  typeNames : List String
  targets : List PID
  senders : List PID
  messages : List (Option Message)
  deriving DecidableEq, Repr

/-- A `Serializer` and the `Deserializer` of the other side. -/
structure Serializer (P : Type) where
  typeName : P → String
  serialize : P → Except String (List UInt8)
  deserialize : List UInt8 → String → Except String P

def Serializer.serializes (serializer : Serializer P) (stream : StreamDeliver P) : Bool :=
  match serializer.serialize stream.msg with
  | .ok _ => true
  | .error _ => false

/-- The protobuf codec of envelopes. -/
structure Wire (B : Type) where
  marshal : Envelope → B
  unmarshal : B → Option Envelope

/-- Nothing is lost of an envelope without nil messages. -/
def Wire.Lossless (wire : Wire B) : Prop :=
  ∀ envelope : Envelope, none ∉ envelope.messages →
    wire.unmarshal (wire.marshal envelope) = some envelope

/-- The three pairs of a map and a slice that `Invoke` fills. -/
structure Lookups where
  types : Table String String
  senders : Table UInt64 PID
  targets : Table UInt64 PID

def Lookups.empty : Lookups := ⟨.empty, .empty, .empty⟩

def lookupPIDs (hash : List UInt8 → UInt64) (pids : Table UInt64 PID) :
    Option PID → Int32 × Table UInt64 PID
  | none => (0, pids)
  | some pid => pids.intern (pid.lookupKey hash) pid

def lookupTypeName (types : Table String String) (name : String) : Int32 × Table String String :=
  types.intern name name

section Writer
variable {P : Type} (hash : List UInt8 → UInt64) (serializer : Serializer P)

/-- The lookups of one pass of the loop in `Invoke`; they are made whether or not
the message serializes. -/
def lookup (lookups : Lookups) (stream : StreamDeliver P) : Lookups where
  types := (lookupTypeName lookups.types (serializer.typeName stream.msg)).2
  senders := (lookupPIDs hash lookups.senders stream.sender).2
  targets := (lookupPIDs hash lookups.targets (some stream.target)).2

def encode (lookups : Lookups) (stream : StreamDeliver P) : Option Message :=
  match serializer.serialize stream.msg with
  | .error _ => none
  | .ok data => some {
      data := data
      typeNameIndex := (lookupTypeName lookups.types (serializer.typeName stream.msg)).1
      senderIndex := (lookupPIDs hash lookups.senders stream.sender).1
      targetIndex := (lookupPIDs hash lookups.targets (some stream.target)).1
      priority := stream.priority }

def encodeAll : Lookups → List (StreamDeliver P) → List (Option Message) × Lookups
  | lookups, [] => ([], lookups)
  | lookups, stream :: rest =>
    let after := encodeAll (lookup hash serializer lookups stream) rest
    (encode hash serializer lookups stream :: after.1, after.2)

/-- The envelope that `Invoke` hands to `stream.Send`. -/
def invoke (msgs : List (StreamDeliver P)) : Envelope :=
  let packed := encodeAll hash serializer .empty msgs
  { senders := packed.2.senders.entries
    targets := packed.2.targets.entries
    typeNames := packed.2.types.entries
    messages := packed.1 }

end Writer

/-- A call of `SendLocal`, or of `SendPriorityLocal` for a priority message. -/
structure LocalSend (P : Type) where
  priority : Bool
  target : PID
  payload : P
  sender : Option PID
  deriving DecidableEq, Repr

/-- Why the reader gives up: an index out of range or a nil message, or a payload
that does not deserialize. -/
inductive Fault where
  | panic
  | deserialize (err : String)
  deriving DecidableEq, Repr

def fetch (entries : List E) (id : Int32) : Except Fault E :=
  match index entries id with
  | some entry => .ok entry
  | none => .error .panic

section Reader
variable {P : Type} (serializer : Serializer P)

def deserialize (data : List UInt8) (tname : String) : Except Fault P :=
  match serializer.deserialize data tname with
  | .ok payload => .ok payload
  | .error err => .error (.deserialize err)

def Envelope.sender (envelope : Envelope) (message : Message) : Except Fault (Option PID) :=
  if 0 < envelope.senders.length then (fetch envelope.senders message.senderIndex).map some
  else .ok none

def receiveMessage (envelope : Envelope) : Option Message → Except Fault (LocalSend P)
  | none => .error .panic
  | some message => do
    let tname ← fetch envelope.typeNames message.typeNameIndex
    let payload ← deserialize serializer message.data tname
    let target ← fetch envelope.targets message.targetIndex
    let sender ← envelope.sender message
    return ⟨message.priority, target, payload, sender⟩

/-- The local sends made, and the fault that ended them if there was one. -/
def receiveMessages (envelope : Envelope) : List (Option Message) → List (LocalSend P) × Option Fault
  | [] => ([], none)
  | message :: rest =>
    match receiveMessage serializer envelope message with
    | .error fault => ([], some fault)
    | .ok send =>
      let after := receiveMessages envelope rest
      (send :: after.1, after.2)

/-- `Receive`, given the envelopes that `Recv` returns. -/
def receive : List Envelope → List (LocalSend P) × Option Fault
  | [] => ([], none)
  | envelope :: rest =>
    match receiveMessages serializer envelope envelope.messages with
    | (sends, some fault) => (sends, some fault)
    | (sends, none) =>
      let after := receive rest
      (sends ++ after.1, after.2)

end Reader

end Remote

end Hollywood
