import Hollywood.Remote
import Mathlib.Data.List.Forall2

/-! What a reader makes of the envelope that a writer packed. The tables only
grow while a batch is packed, so every index handed out on the way resolves in
the tables at the end to an entry with the key that was looked up. -/
namespace Hollywood

theorem PID.key_eq_iff {p q : PID} : p.key = q.key ↔ p.address ++ p.id = q.address ++ q.id := by
  have bytes : ∀ pid : PID, pid.key = (pid.address ++ pid.id).toByteArray.data.toList := by
    intro pid
    rw [String.toByteArray_append, ByteArray.data_append, Array.toList_append]
    rfl
  rw [bytes, bytes, Array.toList_inj, ← ByteArray.ext_iff, String.toByteArray_inj]

theorem PID.key_injective {p q : PID} (address : p.address = q.address) (same : p.key = q.key) : p = q := by
  obtain ⟨_, id⟩ := p
  obtain ⟨_, other⟩ := q
  obtain rfl := address
  obtain rfl : id = other := (String.append_right_inj _).mp (PID.key_eq_iff.mp same)
  rfl

namespace Remote
variable {P B : Type} {hash : List UInt8 → UInt64} {serializer : Serializer P}

structure Lookups.Faithful (hash : List UInt8 → UInt64) (lookups : Lookups) : Prop where
  types : lookups.types.Faithful id
  senders : lookups.senders.Faithful (PID.lookupKey hash)
  targets : lookups.targets.Faithful (PID.lookupKey hash)

structure Lookups.Extends (lookups more : Lookups) : Prop where
  types : lookups.types.Extends more.types
  senders : lookups.senders.Extends more.senders
  targets : lookups.targets.Extends more.targets

/-- The entries come from the given messages, at most one from each. -/
structure Lookups.From (batch : List (StreamDeliver P)) (lookups : Lookups) : Prop where
  senders : ∀ pid ∈ lookups.senders.entries, ∃ stream ∈ batch, stream.sender = some pid
  targets : ∀ pid ∈ lookups.targets.entries, ∃ stream ∈ batch, stream.target = pid
  fewTypes : lookups.types.entries.length ≤ batch.length
  fewSenders : lookups.senders.entries.length ≤ batch.length
  fewTargets : lookups.targets.entries.length ≤ batch.length

theorem lookup_faithful (serializer : Serializer P) {lookups : Lookups} (faithful : lookups.Faithful hash)
    (stream : StreamDeliver P) :
    (lookup hash serializer lookups stream).Faithful hash := by
  constructor
  · exact Table.intern_faithful faithful.types _
  · cases sender : stream.sender with
    | none => simpa only [lookup, sender, lookupPIDs] using faithful.senders
    | some pid => simpa only [lookup, sender, lookupPIDs] using Table.intern_faithful faithful.senders pid
  · exact Table.intern_faithful faithful.targets _

theorem lookup_extends (hash : List UInt8 → UInt64) (serializer : Serializer P) (lookups : Lookups)
    (stream : StreamDeliver P) :
    lookups.Extends (lookup hash serializer lookups stream) := by
  constructor
  · exact Table.intern_extends _ _ _
  · cases sender : stream.sender with
    | none => simpa only [lookup, sender, lookupPIDs] using Table.Extends.refl _
    | some pid => simpa only [lookup, sender, lookupPIDs] using Table.intern_extends _ _ _
  · exact Table.intern_extends _ _ _

theorem Lookups.From.snoc {lookups : Lookups} {earlier : List (StreamDeliver P)}
    (origin : lookups.From earlier) (hash : List UInt8 → UInt64) (serializer : Serializer P)
    (stream : StreamDeliver P) :
    (lookup hash serializer lookups stream).From (earlier ++ [stream]) := by
  have recalled : ∀ old ∈ earlier, old ∈ earlier ++ [stream] := fun _ => List.mem_append_left _
  have last : stream ∈ earlier ++ [stream] := List.mem_append_right _ (List.mem_singleton_self _)
  constructor
  · intro pid member
    cases sender : stream.sender with
    | none =>
      simp only [lookup, sender, lookupPIDs] at member
      obtain ⟨old, known, sent⟩ := origin.senders pid member
      exact ⟨old, recalled old known, sent⟩
    | some author =>
      simp only [lookup, sender, lookupPIDs] at member
      rcases Table.mem_intern member with before | rfl
      · obtain ⟨old, known, sent⟩ := origin.senders pid before
        exact ⟨old, recalled old known, sent⟩
      · exact ⟨stream, last, sender⟩
  · intro pid member
    rcases Table.mem_intern member with before | rfl
    · obtain ⟨old, known, sent⟩ := origin.targets pid before
      exact ⟨old, recalled old known, sent⟩
    · exact ⟨stream, last, rfl⟩
  · have grown := Table.intern_length lookups.types (serializer.typeName stream.msg)
      (serializer.typeName stream.msg)
    have few := origin.fewTypes
    simp only [lookup, lookupTypeName, List.length_append, List.length_singleton]
    omega
  · have few := origin.fewSenders
    cases sender : stream.sender with
    | none =>
      simp only [lookup, sender, lookupPIDs, List.length_append, List.length_singleton]
      omega
    | some pid =>
      have grown := Table.intern_length lookups.senders (pid.lookupKey hash) pid
      simp only [lookup, sender, lookupPIDs, List.length_append, List.length_singleton]
      omega
  · have grown := Table.intern_length lookups.targets (stream.target.lookupKey hash) stream.target
    have few := origin.fewTargets
    simp only [lookup, lookupPIDs, List.length_append, List.length_singleton]
    omega

/-- The indices of a packed message are those of its keys in the tables. A message
without a sender has the sender index 0. -/
structure Packed (hash : List UInt8 → UInt64) (serializer : Serializer P) (lookups : Lookups)
    (stream : StreamDeliver P) (message : Message) : Prop where
  data : serializer.serialize stream.msg = .ok message.data
  typeName : lookups.types.lookup.lookup (serializer.typeName stream.msg) = some message.typeNameIndex
  target : lookups.targets.lookup.lookup (stream.target.lookupKey hash) = some message.targetIndex
  sender : ∀ pid, stream.sender = some pid →
    lookups.senders.lookup.lookup (pid.lookupKey hash) = some message.senderIndex
  anonymous : stream.sender = none → message.senderIndex = 0
  priority : message.priority = stream.priority

theorem Packed.mono {lookups more : Lookups} {stream : StreamDeliver P} {message : Message}
    (packed : Packed hash serializer lookups stream message) (extends_ : lookups.Extends more) :
    Packed hash serializer more stream message where
  data := packed.data
  typeName := extends_.types _ _ packed.typeName
  target := extends_.targets _ _ packed.target
  sender := fun pid sent => extends_.senders _ _ (packed.sender pid sent)
  anonymous := packed.anonymous
  priority := packed.priority

theorem encode_packed (hash : List UInt8 → UInt64) (lookups : Lookups) {stream : StreamDeliver P}
    (serializes : serializer.serialize stream.msg = .ok data) :
    ∃ message, encode hash serializer lookups stream = some message ∧
      Packed hash serializer (lookup hash serializer lookups stream) stream message := by
  refine ⟨_, by simp only [encode, serializes]; rfl, ?_⟩
  constructor
  · exact serializes
  · exact Table.intern_found _ _ _
  · exact Table.intern_found _ _ _
  · intro pid sent
    simp only [lookup, sent, lookupPIDs]
    exact Table.intern_found _ _ _
  · intro anonymous
    simp only [anonymous, lookupPIDs]
  · rfl

/-- What the loop leaves in the place of a message: nil if it does not serialize. -/
def Slot (hash : List UInt8 → UInt64) (serializer : Serializer P) (lookups : Lookups)
    (stream : StreamDeliver P) : Option Message → Prop
  | some message => Packed hash serializer lookups stream message
  | none => ∃ err, serializer.serialize stream.msg = .error err

theorem Slot.mono {lookups more : Lookups} {stream : StreamDeliver P} {slot : Option Message}
    (filled : Slot hash serializer lookups stream slot) (extends_ : lookups.Extends more) :
    Slot hash serializer more stream slot := by
  cases slot with
  | none => exact filled
  | some message => exact Packed.mono filled extends_

theorem encode_slot (hash : List UInt8 → UInt64) (lookups : Lookups) (stream : StreamDeliver P) :
    Slot hash serializer (lookup hash serializer lookups stream) stream
      (encode hash serializer lookups stream) := by
  cases serialized : serializer.serialize stream.msg with
  | ok data =>
    obtain ⟨message, encoded, packed⟩ := encode_packed hash lookups serialized
    rw [encoded]
    exact packed
  | error err =>
    rw [encode, serialized]
    exact ⟨err, serialized⟩

/-- One pass after the other: the messages of `rest` are packed with what the
messages before it left in the tables. -/
theorem encodeAll_slots (hash : List UInt8 → UInt64) (serializer : Serializer P)
    {earlier : List (StreamDeliver P)} {lookups : Lookups} (faithful : lookups.Faithful hash)
    (origin : lookups.From earlier) (rest : List (StreamDeliver P)) :
    (encodeAll hash serializer lookups rest).2.Faithful hash ∧
      (encodeAll hash serializer lookups rest).2.From (earlier ++ rest) ∧
      lookups.Extends (encodeAll hash serializer lookups rest).2 ∧
      List.Forall₂ (Slot hash serializer (encodeAll hash serializer lookups rest).2) rest
        (encodeAll hash serializer lookups rest).1 := by
  induction rest generalizing earlier lookups with
  | nil =>
    refine ⟨faithful, by simpa [encodeAll] using origin, ⟨?_, ?_, ?_⟩, .nil⟩
    · exact Table.Extends.refl _
    · exact Table.Extends.refl _
    · exact Table.Extends.refl _
  | cons stream rest ih =>
    obtain ⟨faithful, origin, extends_, all⟩ :=
      ih (lookup_faithful serializer faithful stream) (origin.snoc hash serializer stream)
    have first := lookup_extends hash serializer lookups stream
    refine ⟨faithful, by simpa [encodeAll] using origin, ?_, ?_⟩
    · exact ⟨first.types.trans extends_.types, first.senders.trans extends_.senders,
        first.targets.trans extends_.targets⟩
    · exact .cons ((encode_slot hash lookups stream).mono extends_) all

/-- Without failures there are no nil messages. -/
theorem slots_packed {lookups : Lookups} {streams : List (StreamDeliver P)} {slots : List (Option Message)}
    (all : List.Forall₂ (Slot hash serializer lookups) streams slots)
    (serializes : ∀ stream ∈ streams, ∃ data, serializer.serialize stream.msg = .ok data) :
    ∃ messages, slots = messages.map some ∧
      List.Forall₂ (Packed hash serializer lookups) streams messages := by
  induction all with
  | nil => exact ⟨[], rfl, .nil⟩
  | @cons stream slot streams slots first _ ih =>
    obtain ⟨messages, rfl, packed⟩ := ih fun other member => serializes other (List.mem_cons_of_mem _ member)
    cases slot with
    | some message => exact ⟨message :: messages, rfl, .cons first packed⟩
    | none =>
      obtain ⟨data, serialized⟩ := serializes stream List.mem_cons_self
      obtain ⟨err, failed⟩ := first
      cases serialized.symm.trans failed

/-- What the reader makes of a message: the payload and the target and sender that
the keys lead to. A message sent without a sender gets the first sender of the
batch. -/
structure Read (hash : List UInt8 → UInt64) (lookups : Lookups) (stream : StreamDeliver P)
    (send : LocalSend P) : Prop where
  priority : send.priority = stream.priority
  payload : send.payload = stream.msg
  target : send.target ∈ lookups.targets.entries ∧
    send.target.lookupKey hash = stream.target.lookupKey hash
  sender : ∀ pid, stream.sender = some pid →
    send.sender = lookups.senders.resolve (pid.lookupKey hash) ∧
      ∃ author ∈ lookups.senders.entries, send.sender = some author ∧
        author.lookupKey hash = pid.lookupKey hash
  anonymous : stream.sender = none → send.sender = lookups.senders.entries.head?

theorem fetch_ok {entries : List E} {index : Int32} (found : Hollywood.index entries index = some entry) :
    fetch entries index = .ok entry := by
  rw [fetch, found]

/-- The envelope with the entries of the tables. -/
def Lookups.envelope (lookups : Lookups) (messages : List (Option Message)) : Envelope :=
  ⟨lookups.types.entries, lookups.targets.entries, lookups.senders.entries, messages⟩

section
variable {lookups : Lookups} {batch : List (StreamDeliver P)} {stream : StreamDeliver P} {message : Message}

/-- The sender that the reader finds for a packed message. -/
theorem sender_read (faithful : lookups.Faithful hash) (origin : lookups.From batch)
    (fits : batch.length ≤ 2 ^ 31) (messages : List (Option Message))
    (packed : Packed hash serializer lookups stream message) :
    ∃ sender, (lookups.envelope messages).sender message = .ok sender ∧
      (∀ pid, stream.sender = some pid →
        sender = lookups.senders.resolve (pid.lookupKey hash) ∧
          ∃ author ∈ lookups.senders.entries, sender = some author ∧
            author.lookupKey hash = pid.lookupKey hash) ∧
      (stream.sender = none → sender = lookups.senders.entries.head?) := by
  cases sent : stream.sender with
  | none =>
    have first : message.senderIndex = Int32.ofNat 0 := packed.anonymous sent
    refine ⟨lookups.senders.entries.head?, ?_, ?_, ?_⟩
    · cases entries : lookups.senders.entries with
      | nil => simp only [Envelope.sender, Lookups.envelope, entries, List.length_nil,
          lt_self_iff_false, if_false, List.head?_nil]
      | cons author rest =>
        have found : Hollywood.index (author :: rest) (Int32.ofNat 0) = some author := by
          rw [index_ofNat (by decide)]
          rfl
        simp only [Envelope.sender, Lookups.envelope, entries, List.length_cons, Nat.zero_lt_succ,
          if_true, first, fetch_ok found, Except.map, List.head?_cons]
    · intro pid absurd
      cases absurd
    · intro _
      rfl
  | some pid =>
    obtain ⟨author, member, indexed, resolved, named⟩ :=
      faithful.senders.resolve (origin.fewSenders.trans fits) (packed.sender pid sent)
    have nonempty : 0 < lookups.senders.entries.length := List.length_pos_of_mem member
    refine ⟨some author, ?_, ?_, ?_⟩
    · simp only [Envelope.sender, Lookups.envelope, nonempty, if_true, fetch_ok indexed, Except.map]
    · rintro other ⟨⟩
      exact ⟨resolved.symm, author, member, rfl, named⟩
    · intro absurd
      cases absurd

theorem receiveMessage_read (faithful : lookups.Faithful hash) (origin : lookups.From batch)
    (fits : batch.length ≤ 2 ^ 31) (messages : List (Option Message))
    (packed : Packed hash serializer lookups stream message)
    (lossless : serializer.deserialize message.data (serializer.typeName stream.msg) = .ok stream.msg) :
    ∃ send, receiveMessage serializer (lookups.envelope messages) (some message) = .ok send ∧
      Read hash lookups stream send := by
  obtain ⟨name, -, typed, -, named⟩ :=
    faithful.types.resolve (origin.fewTypes.trans fits) packed.typeName
  obtain ⟨target, member, aimed, -, keyed⟩ :=
    faithful.targets.resolve (origin.fewTargets.trans fits) packed.target
  obtain ⟨sender, attributed, known, anonymous⟩ := sender_read faithful origin fits messages packed
  obtain rfl : name = serializer.typeName stream.msg := named
  have payload : deserialize serializer message.data (serializer.typeName stream.msg) = .ok stream.msg := by
    rw [deserialize, lossless]
  refine ⟨⟨message.priority, target, stream.msg, sender⟩, ?_, ?_⟩
  · simp only [receiveMessage, attributed, bind, Except.bind, pure, Except.pure]
    simp only [Lookups.envelope, fetch_ok typed, fetch_ok aimed, payload]
  · exact ⟨packed.priority, rfl, ⟨member, keyed⟩, known, anonymous⟩

end

/-- The reader's loop along a list of packed messages. -/
theorem receiveMessages_read {lookups : Lookups} {envelope : Envelope}
    {streams : List (StreamDeliver P)} {messages : List Message}
    (all : List.Forall₂ (fun stream message => ∃ send,
      receiveMessage serializer envelope (some message) = .ok send ∧ Read hash lookups stream send)
      streams messages) :
    ∃ sends, receiveMessages serializer envelope (messages.map some) = (sends, none) ∧
      List.Forall₂ (Read hash lookups) streams sends := by
  induction all with
  | nil => exact ⟨[], rfl, .nil⟩
  | cons first _ ih =>
    obtain ⟨send, received, read⟩ := first
    obtain ⟨sends, rest, reads⟩ := ih
    refine ⟨send :: sends, ?_, .cons read reads⟩
    simp only [List.map_cons, receiveMessages, received, rest]

theorem faithful_empty : Lookups.empty.Faithful hash :=
  ⟨Table.empty_faithful, Table.empty_faithful, Table.empty_faithful⟩

theorem from_empty : Lookups.empty.From ([] : List (StreamDeliver P)) := by
  constructor <;> simp [Lookups.empty, Table.empty]

/-- Nothing of the payloads is lost: every message serializes, and its bytes under
its type name deserialize to it. -/
def Serializer.Lossless (serializer : Serializer P) (batch : List (StreamDeliver P)) : Prop :=
  ∀ stream ∈ batch, ∃ data, serializer.serialize stream.msg = .ok data ∧
    serializer.deserialize data (serializer.typeName stream.msg) = .ok stream.msg

/-- A batch whose messages serialize arrives whole, each message read as its keys
in the final tables tell. -/
theorem receive_invoke (hash : List UInt8 → UInt64) (wire : Wire B) {batch : List (StreamDeliver P)}
    (lossless : serializer.Lossless batch) (faithful : wire.Lossless) (fits : batch.length ≤ 2 ^ 31) :
    ∃ lookups : Lookups, lookups.Faithful hash ∧ lookups.From batch ∧
      ∃ envelope sends, wire.unmarshal (wire.marshal (invoke hash serializer batch)) = some envelope ∧
        receive serializer [envelope] = (sends, none) ∧ List.Forall₂ (Read hash lookups) batch sends := by
  have serializes : ∀ stream ∈ batch, ∃ data, serializer.serialize stream.msg = .ok data := by
    intro stream member
    obtain ⟨data, serialized, -⟩ := lossless stream member
    exact ⟨data, serialized⟩
  obtain ⟨indexed, origin, -, slots⟩ :=
    encodeAll_slots hash serializer faithful_empty from_empty batch
  obtain ⟨messages, written, all⟩ := slots_packed slots serializes
  rw [List.nil_append] at origin
  generalize finished : (encodeAll hash serializer Lookups.empty batch).2 = lookups at *
  have packed : invoke hash serializer batch = lookups.envelope (messages.map some) := by
    rw [invoke, written, finished]
    rfl
  have reads : List.Forall₂ (fun stream message => ∃ send,
      receiveMessage serializer (lookups.envelope (messages.map some)) (some message) = .ok send ∧
        Read hash lookups stream send) batch messages := by
    refine ((List.forall₂_and_left _ _).mpr ⟨fun _ member => member, all⟩).imp ?_
    rintro stream message ⟨member, packed⟩
    obtain ⟨data, serialized, recovered⟩ := lossless stream member
    obtain rfl : data = message.data := Except.ok.inj (serialized.symm.trans packed.data)
    exact receiveMessage_read indexed origin fits _ packed recovered
  obtain ⟨sends, received, read⟩ := receiveMessages_read reads
  refine ⟨lookups, indexed, origin, lookups.envelope (messages.map some), sends, ?_, ?_, read⟩
  · rw [packed]
    apply faithful
    simp [Lookups.envelope]
  · have loop : receiveMessages serializer (lookups.envelope (messages.map some))
        (lookups.envelope (messages.map some)).messages = (sends, none) := received
    simp only [receive, loop, List.append_nil]

theorem map_eq_map_iff {streams : List α} {sends : List β} {f : α → γ} {g : β → γ} :
    sends.map g = streams.map f ↔ List.Forall₂ (fun stream send => g send = f stream) streams sends := by
  rw [eq_comm, ← List.forall₂_eq_eq_eq, List.forall₂_map_left_iff, List.forall₂_map_right_iff]
  simp only [eq_comm]

/-- The payloads, targets and priorities of a batch for one address survive the
wire: the reader makes one local send per message, in the order of the batch, and
runs into no index out of range. The indices are 32 bits wide, which `fits` makes
room for; a mailbox hands out far smaller batches. -/
theorem batch_round_trip (hash : List UInt8 → UInt64) (serializer : Serializer P) (wire : Wire B)
    (batch : List (StreamDeliver P)) (address : String)
    (addressed : ∀ stream ∈ batch, stream.target.address = address)
    (lossless : serializer.Lossless batch) (faithful : wire.Lossless)
    (distinct : ∀ stream ∈ batch, ∀ other ∈ batch,
      hash stream.target.key = hash other.target.key → stream.target.key = other.target.key)
    (fits : batch.length ≤ 2 ^ 31) :
    ∃ envelope sends, wire.unmarshal (wire.marshal (invoke hash serializer batch)) = some envelope ∧
      receive serializer [envelope] = (sends, none) ∧
      sends.map (fun send => (send.target, send.payload, send.priority)) =
        batch.map fun stream => (stream.target, stream.msg, stream.priority) := by
  obtain ⟨lookups, -, origin, envelope, sends, arrived, received, reads⟩ :=
    receive_invoke hash wire lossless faithful fits
  refine ⟨envelope, sends, arrived, received, map_eq_map_iff.mpr ?_⟩
  refine ((List.forall₂_and_left _ _).mpr ⟨fun _ member => member, reads⟩).imp ?_
  rintro stream send ⟨member, read⟩
  obtain ⟨entry, keyed⟩ := read.target
  obtain ⟨other, known, origin⟩ := origin.targets _ entry
  have same : other.target = stream.target := by
    apply PID.key_injective
    · rw [addressed _ known, addressed _ member]
    · rw [← origin] at keyed
      exact distinct _ known _ member keyed
  rw [← origin, same, read.payload, read.priority]

/-- Protobuf on a `TestMessage` of less than 128 bytes. -/
def testMessage : Serializer (List UInt8) where
  typeName _ := "remote.TestMessage"
  serialize data := .ok (if data.isEmpty then [] else 10 :: UInt8.ofNat data.length :: data)
  deserialize bytes tname :=
    if tname = "remote.TestMessage" then
      match bytes with
      | [] => .ok []
      | tag :: size :: data =>
        if tag = 10 ∧ size.toNat = data.length then .ok data else .error "cannot parse invalid wire-format data"
      | _ => .error "cannot parse invalid wire-format data"
    else .error "not found"

/-- A hash that tells the short keys below apart. -/
def polynomial (bytes : List UInt8) : UInt64 :=
  bytes.foldl (fun value byte => value * 257 + byte.toUInt64) 1

def untouched : Wire Envelope := ⟨id, some⟩

def twoTargets : List (StreamDeliver (List UInt8)) :=
  [⟨none, ⟨"h:1", "a"⟩, [102], false⟩, ⟨none, ⟨"h:1", "b"⟩, [103, 104], true⟩,
    ⟨some ⟨"h:2", "c"⟩, ⟨"h:1", "a"⟩, [], false⟩]

theorem batch_round_trip_two_targets :
    ∃ envelope sends, untouched.unmarshal (untouched.marshal (invoke polynomial testMessage twoTargets)) =
        some envelope ∧ receive testMessage [envelope] = (sends, none) ∧
      sends.map (fun send => (send.target, send.payload, send.priority)) =
        [(⟨"h:1", "a"⟩, [102], false), (⟨"h:1", "b"⟩, [103, 104], true), (⟨"h:1", "a"⟩, [], false)] := by
  refine batch_round_trip polynomial testMessage untouched twoTargets "h:1" ?_ ?_ (fun _ _ => rfl) ?_ ?_
  · decide
  · intro stream member
    refine ⟨_, rfl, ?_⟩
    simp only [twoTargets, List.mem_cons, List.not_mem_nil, or_false] at member
    rcases member with rfl | rfl | rfl <;> decide
  · decide +kernel
  · decide

/-- Whether the senders of a batch can be told apart by index: all messages have a
sender or none has, and an address followed by an id reads only one way. -/
def Attributable (batch : List (StreamDeliver P)) : Prop :=
  ((∀ stream ∈ batch, stream.sender = none) ∨ ∀ stream ∈ batch, stream.sender ≠ none) ∧
    ∀ stream ∈ batch, ∀ other ∈ batch, ∀ p q, stream.sender = some p → other.sender = some q →
      p.key = q.key → p = q

section
variable {lookups : Lookups} {batch : List (StreamDeliver P)} {sends : List (LocalSend P)}

theorem attributable_of_survive (reads : List.Forall₂ (Read hash lookups) batch sends)
    (survive : sends.map (·.sender) = batch.map (·.sender)) : Attributable batch := by
  have attributed : ∀ stream ∈ batch, ∃ send, Read hash lookups stream send ∧ send.sender = stream.sender := by
    intro stream member
    exact exists_related (List.Forall₂.mp (fun _ _ => And.intro) reads (map_eq_map_iff.mp survive)) member
  constructor
  · by_cases silent : ∀ stream ∈ batch, stream.sender = none
    · exact .inl silent
    · -- one named sender makes the table non-empty, and then nobody reads as anonymous
      push Not at silent
      obtain ⟨stream, member, named⟩ := silent
      obtain ⟨pid, sent⟩ := Option.ne_none_iff_exists'.mp named
      obtain ⟨send, read, -⟩ := attributed stream member
      obtain ⟨-, author, entry, -⟩ := read.sender pid sent
      refine .inr fun other known anonymous => ?_
      obtain ⟨send, read, same⟩ := attributed other known
      have first := read.anonymous anonymous
      rw [same, anonymous, eq_comm, List.head?_eq_none_iff] at first
      rw [first] at entry
      cases entry
  · intro stream member other known p q sent sentToo key
    obtain ⟨send, read, same⟩ := attributed stream member
    obtain ⟨later, readToo, sameToo⟩ := attributed other known
    have resolved := (read.sender p sent).1
    have resolvedToo := (readToo.sender q sentToo).1
    rw [same, sent, PID.lookupKey, key] at resolved
    rw [sameToo, sentToo, PID.lookupKey, ← resolved] at resolvedToo
    exact (Option.some.inj resolvedToo).symm

theorem survive_of_attributable (origin : lookups.From batch)
    (distinct : ∀ stream ∈ batch, ∀ other ∈ batch, ∀ p q, stream.sender = some p →
      other.sender = some q → hash p.key = hash q.key → p.key = q.key)
    (reads : List.Forall₂ (Read hash lookups) batch sends) (attributable : Attributable batch) :
    sends.map (·.sender) = batch.map (·.sender) := by
  refine map_eq_map_iff.mpr (((List.forall₂_and_left _ _).mpr ⟨fun _ member => member, reads⟩).imp ?_)
  rintro stream send ⟨member, read⟩
  obtain ⟨uniform, injective⟩ := attributable
  cases sent : stream.sender with
  | none =>
    rw [read.anonymous sent, List.head?_eq_none_iff, List.eq_nil_iff_forall_not_mem]
    intro author entry
    obtain ⟨other, known, named⟩ := origin.senders author entry
    rcases uniform with silent | named
    · rw [silent other known] at named
      cases named
    · exact named stream member sent
  | some pid =>
    obtain ⟨-, author, entry, attributed, keyed⟩ := read.sender pid sent
    obtain ⟨other, known, named⟩ := origin.senders author entry
    have same := injective other known stream member author pid named sent
      (distinct other known stream member author pid named sent keyed)
    rw [attributed, same]

end

/-- The senders of a batch survive the wire if and only if all messages have a
sender or none has, and no two different senders of the batch have the same
address and id in a row. -/
theorem senders_survive_iff (hash : List UInt8 → UInt64) (serializer : Serializer P) (wire : Wire B)
    (batch : List (StreamDeliver P)) (lossless : serializer.Lossless batch) (faithful : wire.Lossless)
    (distinct : ∀ stream ∈ batch, ∀ other ∈ batch, ∀ p q, stream.sender = some p →
      other.sender = some q → hash p.key = hash q.key → p.key = q.key)
    (fits : batch.length ≤ 2 ^ 31) :
    ∃ envelope sends, wire.unmarshal (wire.marshal (invoke hash serializer batch)) = some envelope ∧
      receive serializer [envelope] = (sends, none) ∧
      (sends.map (·.sender) = batch.map (·.sender) ↔ Attributable batch) := by
  obtain ⟨lookups, -, origin, envelope, sends, arrived, received, reads⟩ :=
    receive_invoke hash wire lossless faithful fits
  refine ⟨envelope, sends, arrived, received, ?_⟩
  constructor
  · exact attributable_of_survive reads
  · exact survive_of_attributable origin distinct reads

def allNamed : List (StreamDeliver (List UInt8)) :=
  [⟨some ⟨"h:2", "c"⟩, ⟨"h:1", "a"⟩, [102], false⟩, ⟨some ⟨"h:3", "c"⟩, ⟨"h:1", "a"⟩, [103], false⟩]

theorem allNamed_lossless : testMessage.Lossless allNamed := by
  intro stream member
  refine ⟨_, rfl, ?_⟩
  simp only [allNamed, List.mem_cons, List.not_mem_nil, or_false] at member
  rcases member with rfl | rfl <;> decide

theorem senders_survive_iff_all_named :
    ∃ envelope sends, untouched.unmarshal (untouched.marshal (invoke polynomial testMessage allNamed)) =
        some envelope ∧ receive testMessage [envelope] = (sends, none) ∧
      (sends.map (·.sender) = allNamed.map (·.sender) ↔ Attributable allNamed) := by
  refine senders_survive_iff polynomial testMessage untouched allNamed allNamed_lossless (fun _ _ => rfl) ?_
    (by decide)
  intro stream member other known p q sent sentToo same
  simp only [allNamed, List.mem_cons, List.not_mem_nil, or_false] at member known
  rcases member with rfl | rfl <;> rcases known with rfl | rfl <;>
    (cases sent; cases sentToo; revert same; decide +kernel)

/-- A message without a sender shares its batch with one that has a sender, and is
delivered as sent by the latter. -/
def oneNamed : List (StreamDeliver (List UInt8)) :=
  [⟨none, ⟨"h:1", "a"⟩, [102], false⟩, ⟨some ⟨"a", "b"⟩, ⟨"h:1", "a"⟩, [102], false⟩]

theorem anonymous_gets_first_sender :
    oneNamed.map (·.sender) = [none, some ⟨"a", "b"⟩] ∧
      untouched.unmarshal (untouched.marshal (invoke polynomial testMessage oneNamed)) =
        some (invoke polynomial testMessage oneNamed) ∧
      (receive testMessage [invoke polynomial testMessage oneNamed]).2 = none ∧
      (receive testMessage [invoke polynomial testMessage oneNamed]).1.map (·.sender) =
        [some ⟨"a", "b"⟩, some ⟨"a", "b"⟩] := by
  decide +kernel

end Remote

end Hollywood
