import Hollywood.Remote.RoundTrip
import Mathlib.Data.List.TakeWhile

/-! Batches with messages that do not serialize. Their slots in the envelope stay
nil, a nil message is marshalled as an empty one, and the reader takes an empty
message for one of the first type of the batch to the first target. -/
namespace Hollywood

namespace Table
variable {K E : Type} [DecidableEq K] {key : E → K}

/-- The first entry under a key is the one that the key leads to ever after. -/
theorem intern_resolve {table : Table K E} (faithful : table.Faithful key)
    (fits : table.entries.length < 2 ^ 31) (entry : E) (k : K) :
    (table.intern (key entry) entry).2.resolve k =
      (table.resolve k).or (if key entry = k then some entry else none) := by
  rcases table.intern_cases (key entry) entry with ⟨known, same⟩ | ⟨new, added⟩
  · rw [same]
    obtain ⟨first, -, -, resolved, -⟩ := faithful.resolve (Nat.le_of_lt fits) known
    by_cases named : key entry = k
    · rw [← named, resolved, Option.some_or]
    · rw [if_neg named, Option.or_none]
  · by_cases named : key entry = k
    · subst named
      have absent : table.resolve (key entry) = none := by rw [resolve, new, Option.bind_none]
      rw [absent, if_pos rfl, Option.none_or, added, resolve, List.lookup_cons_self, Option.bind_some,
        faithful.counted, index_ofNat fits, List.getElem?_concat_length]
    · have other : (k == key entry) = false := by simpa using fun same => named same.symm
      rw [if_neg named, Option.or_none, added, resolve, resolve, List.lookup_cons, other]
      cases found : table.lookup.lookup k with
      | none => rfl
      | some id =>
        obtain ⟨i, first, rfl, present, -⟩ := faithful.found found
        obtain ⟨inside, -⟩ := List.getElem?_eq_some_iff.mp present
        simp only [Option.bind_some, index_ofNat (Nat.lt_trans inside fits),
          List.getElem?_append_left inside]

end Table

namespace Remote
variable {P B : Type} {hash : List UInt8 → UInt64} {serializer : Serializer P}

/-- What a nil message is marshalled as. -/
def blank : Message := ⟨[], 0, 0, 0, false⟩

def Envelope.filled (envelope : Envelope) : Envelope :=
  { envelope with messages := envelope.messages.map fun message => some (message.getD blank) }

/-- Nothing is lost of an envelope but the difference between nil and empty messages. -/
def Wire.Fills (wire : Wire B) : Prop :=
  ∀ envelope : Envelope, wire.unmarshal (wire.marshal envelope) = some envelope.filled

/-- Whether no bytes at all are a payload of the type of `stream`. -/
def Serializer.readsBlank (serializer : Serializer P) (stream : StreamDeliver P) : Bool :=
  match serializer.deserialize [] (serializer.typeName stream.msg) with
  | .ok _ => true
  | .error _ => false

/-- What was serialized deserializes to the same message. -/
def Serializer.Recovers (serializer : Serializer P) (batch : List (StreamDeliver P)) : Prop :=
  ∀ stream ∈ batch, ∀ data, serializer.serialize stream.msg = .ok data →
    serializer.deserialize data (serializer.typeName stream.msg) = .ok stream.msg

/-- The first message of the batch whose target has the lookup key of this one's. -/
def namesake (hash : List UInt8 → UInt64) (batch : List (StreamDeliver P)) (stream : StreamDeliver P) :
    Option PID :=
  (batch.find? fun other => other.target.lookupKey hash = stream.target.lookupKey hash).map (·.target)

/-- The keys of the targets lead to the first targets that have them. -/
theorem encodeAll_resolve (serializer : Serializer P) {lookups : Lookups} {earlier : List (StreamDeliver P)}
    (faithful : lookups.Faithful hash) (origin : lookups.From earlier) (rest : List (StreamDeliver P))
    (fits : (earlier ++ rest).length ≤ 2 ^ 31) (k : UInt64) :
    (encodeAll hash serializer lookups rest).2.targets.resolve k =
      (lookups.targets.resolve k).or
        ((rest.find? fun other => other.target.lookupKey hash = k).map (·.target)) := by
  induction rest generalizing earlier lookups with
  | nil => simp [encodeAll]
  | cons stream rest ih =>
    have room : lookups.targets.entries.length < 2 ^ 31 := by
      have few := origin.fewTargets
      simp only [List.length_append, List.length_cons] at fits
      omega
    have interned := Table.intern_resolve faithful.targets room stream.target k
    have later := ih (lookup_faithful serializer faithful stream) (origin.snoc hash serializer stream)
      (by simpa using fits)
    rw [encodeAll, later]
    simp only [lookup, lookupPIDs, interned, Option.or_assoc, List.find?_cons]
    split <;> simp_all

/-- The type and the target of the first message have the index 0. -/
theorem first_indices (hash : List UInt8 → UInt64) (serializer : Serializer P) (first : StreamDeliver P)
    (rest : List (StreamDeliver P)) :
    (encodeAll hash serializer .empty (first :: rest)).2.types.lookup.lookup
        (serializer.typeName first.msg) = some 0 ∧
      (encodeAll hash serializer .empty (first :: rest)).2.targets.lookup.lookup
        (first.target.lookupKey hash) = some 0 := by
  have origin : (lookup hash serializer .empty first).From ([] ++ [first]) :=
    from_empty.snoc hash serializer first
  obtain ⟨-, -, extends_, -⟩ :=
    encodeAll_slots hash serializer (lookup_faithful serializer faithful_empty first) origin rest
  constructor
  · exact extends_.types _ _ (Table.intern_found Table.empty _ _)
  · exact extends_.targets _ _ (Table.intern_found Table.empty _ _)

section
variable {lookups : Lookups} {batch : List (StreamDeliver P)} {first stream : StreamDeliver P}

/-- What the reader makes of an empty message. -/
theorem blank_read (faithful : lookups.Faithful hash) (origin : lookups.From batch)
    (fits : batch.length ≤ 2 ^ 31)
    (typed : lookups.types.lookup.lookup (serializer.typeName first.msg) = some 0)
    (aimed : lookups.targets.lookup.lookup (first.target.lookupKey hash) = some 0)
    (messages : List (Option Message)) :
    if serializer.readsBlank first then
      ∃ send : LocalSend P, receiveMessage serializer (lookups.envelope messages) (some blank) = .ok send
    else ∃ fault, receiveMessage serializer (lookups.envelope messages) (some blank) = .error fault := by
  obtain ⟨name, -, typeAt, -, named⟩ := faithful.types.resolve (origin.fewTypes.trans fits) typed
  obtain ⟨target, -, targetAt, -, -⟩ := faithful.targets.resolve (origin.fewTargets.trans fits) aimed
  obtain rfl : name = serializer.typeName first.msg := named
  have sender : ∃ sender, (lookups.envelope messages).sender blank = .ok sender := by
    cases entries : lookups.senders.entries with
    | nil => exact ⟨none, by simp [Envelope.sender, Lookups.envelope, entries]⟩
    | cons author rest => exact ⟨some author, by
        simp [Envelope.sender, Lookups.envelope, entries, blank, fetch, index, Except.map]⟩
  obtain ⟨sender, attributed⟩ := sender
  have parts : receiveMessage serializer (lookups.envelope messages) (some blank) =
      (deserialize serializer [] (serializer.typeName first.msg)).map
        fun payload => ⟨false, target, payload, sender⟩ := by
    simp only [receiveMessage, attributed, bind, Except.bind, pure, Except.pure]
    simp only [Lookups.envelope, blank, fetch_ok typeAt, fetch_ok targetAt]
    cases deserialize serializer [] (serializer.typeName first.msg) <;> rfl
  rw [parts, deserialize, Serializer.readsBlank]
  cases serializer.deserialize [] (serializer.typeName first.msg) with
  | ok payload => exact ⟨_, rfl⟩
  | error err => exact ⟨_, rfl⟩

theorem received_target {envelope : Envelope} {message : Message} {send : LocalSend P}
    (received : receiveMessage serializer envelope (some message) = .ok send) :
    fetch envelope.targets message.targetIndex = .ok send.target := by
  simp only [receiveMessage, bind, Except.bind, pure, Except.pure] at received
  split at received
  · cases received
  · split at received
    · cases received
    · split at received
      · cases received
      · split at received
        · cases received
        · cases received
          assumption

/-- The target that the table has for the key of the message, and its own payload. -/
structure Arrives (hash : List UInt8 → UInt64) (lookups : Lookups) (stream : StreamDeliver P)
    (send : LocalSend P) : Prop where
  target : lookups.targets.resolve (stream.target.lookupKey hash) = some send.target
  payload : send.payload = stream.msg
  priority : send.priority = stream.priority

theorem packed_arrives (faithful : lookups.Faithful hash) (origin : lookups.From batch)
    (fits : batch.length ≤ 2 ^ 31) (messages : List (Option Message)) {message : Message}
    (packed : Packed hash serializer lookups stream message)
    (recovered : serializer.deserialize message.data (serializer.typeName stream.msg) = .ok stream.msg) :
    ∃ send, receiveMessage serializer (lookups.envelope messages) (some message) = .ok send ∧
      Arrives hash lookups stream send := by
  obtain ⟨send, received, read⟩ := receiveMessage_read faithful origin fits messages packed recovered
  obtain ⟨target, -, targetAt, resolved, -⟩ :=
    faithful.targets.resolve (origin.fewTargets.trans fits) packed.target
  have fetched := received_target received
  rw [Lookups.envelope, fetch_ok targetAt] at fetched
  refine ⟨send, received, ?_, read.payload, read.priority⟩
  rw [resolved, Except.ok.inj fetched]

end

theorem Slot.serializes {lookups : Lookups} {stream : StreamDeliver P} {slot : Option Message}
    (filled : Slot hash serializer lookups stream slot) : slot.isSome = serializer.serializes stream := by
  unfold Serializer.serializes
  cases slot with
  | some message =>
    rw [Packed.data filled]
    rfl
  | none =>
    obtain ⟨err, failed⟩ := filled
    rw [failed]
    rfl

/-- The reader's loop along the slots: it stops at the first slot that it cannot read. -/
theorem receiveMessages_slots {envelope : Envelope} {streams : List (StreamDeliver P)}
    {slots : List (Option Message)} {reads : StreamDeliver P → Bool}
    {Good : StreamDeliver P → LocalSend P → Prop}
    (all : List.Forall₂ (fun stream slot =>
      if reads stream then ∃ send, receiveMessage serializer envelope (some (slot.getD blank)) = .ok send ∧
        Good stream send
      else ∃ fault, receiveMessage serializer envelope (some (slot.getD blank)) = .error fault)
      streams slots) :
    List.Forall₂ Good (streams.takeWhile reads)
      (receiveMessages serializer envelope (slots.map fun slot => some (slot.getD blank))).1 := by
  induction all with
  | nil => exact .nil
  | @cons stream slot streams slots first _ ih =>
    rw [List.takeWhile_cons]
    split at first
    · rename_i readable
      obtain ⟨send, received, good⟩ := first
      simp only [List.map_cons, receiveMessages, received, readable, if_true]
      exact .cons good ih
    · rename_i unreadable
      obtain ⟨fault, failed⟩ := first
      simp only [List.map_cons, receiveMessages, failed, unreadable, Bool.false_eq_true, if_false]
      exact .nil

theorem receive_single (serializer : Serializer P) (envelope : Envelope) :
    (receive serializer [envelope]).1 = (receiveMessages serializer envelope envelope.messages).1 := by
  simp only [receive]
  generalize receiveMessages serializer envelope envelope.messages = received
  obtain ⟨sends, fault⟩ := received
  cases fault with
  | none => simp
  | some fault => rfl

/-- What a send keeps of its message, given where the key of the target leads. -/
def Kept (named : StreamDeliver P → Option PID) (stream : StreamDeliver P) (send : LocalSend P) : Prop :=
  named stream = some send.target ∧ send.payload = stream.msg ∧ send.priority = stream.priority

/-- The messages that the reader gets to, with what it makes of those that serialize. -/
theorem receive_filled (hash : List UInt8 → UInt64) (first : StreamDeliver P) (rest : List (StreamDeliver P))
    (recovers : serializer.Recovers (first :: rest)) (fits : (first :: rest).length ≤ 2 ^ 31) :
    List.Forall₂ (fun stream send => serializer.serializes stream = true →
        Kept (namesake hash (first :: rest)) stream send)
      ((first :: rest).takeWhile fun stream => serializer.serializes stream || serializer.readsBlank first)
      (receive serializer [(invoke hash serializer (first :: rest)).filled]).1 := by
  obtain ⟨typed, aimed⟩ := first_indices hash serializer first rest
  obtain ⟨faithful, origin, -, slots⟩ :=
    encodeAll_slots hash serializer faithful_empty from_empty (first :: rest)
  have resolves : ∀ k, (encodeAll hash serializer .empty (first :: rest)).2.targets.resolve k =
      ((first :: rest).find? fun other => other.target.lookupKey hash = k).map (·.target) := by
    intro k
    exact encodeAll_resolve serializer faithful_empty from_empty (first :: rest) fits k
  rw [List.nil_append] at origin
  rw [receive_single]
  refine receiveMessages_slots ?_
  refine ((List.forall₂_and_left _ _).mpr ⟨fun _ member => member, slots⟩).imp ?_
  rintro stream slot ⟨member, filled⟩
  have state := filled.serializes
  cases slot with
  | some message =>
    have packed : Packed hash serializer _ stream message := filled
    rw [← state, Option.isSome_some, Bool.true_or, if_pos rfl]
    obtain ⟨send, received, arrives⟩ := packed_arrives faithful origin fits _ packed
      (recovers stream member message.data packed.data)
    refine ⟨send, received, fun _ => ⟨?_, arrives.payload, arrives.priority⟩⟩
    rw [namesake, ← resolves]
    exact arrives.target
  | none =>
    have failed : serializer.serializes stream = false := state.symm
    have read := blank_read faithful origin fits typed aimed
      ((encodeAll hash serializer .empty (first :: rest)).1.map fun slot => some (slot.getD blank))
    rw [failed, Bool.false_or]
    split at read
    · rename_i reads
      rw [if_pos reads]
      obtain ⟨send, received⟩ := read
      exact ⟨send, received, nofun⟩
    · rename_i fails
      rw [if_neg fails]
      exact read

/-- The targets of the messages that serialize can be told apart by their lookup keys,
and either all messages serialize, or no bytes at all are no payload of the first
message's type and no message behind the first failure serializes. -/
def Harmless (hash : List UInt8 → UInt64) (serializer : Serializer P) (batch : List (StreamDeliver P)) : Prop :=
  (∀ stream ∈ batch, serializer.serializes stream = true → namesake hash batch stream = some stream.target) ∧
    ((∀ stream ∈ batch, serializer.serializes stream = true) ∨
      (∀ first ∈ batch.head?, serializer.readsBlank first = false) ∧
        ∀ stream ∈ batch.dropWhile serializer.serializes, serializer.serializes stream = false)

theorem filter_split (p : α → Bool) (l : List α) :
    l.filter p = l.takeWhile p ++ (l.dropWhile p).filter p := by
  have front : (l.takeWhile p).filter p = l.takeWhile p := by
    rw [List.filter_eq_self]
    intro a member
    exact List.mem_takeWhile_imp member
  calc l.filter p = (l.takeWhile p ++ l.dropWhile p).filter p := by rw [List.takeWhile_append_dropWhile]
    _ = _ := by rw [List.filter_append, front]

theorem length_filter_takeWhile {p : α → Bool} {l : List α}
    (same : (l.takeWhile p).length = (l.filter p).length) : ∀ a ∈ l.dropWhile p, p a = false := by
  rw [filter_split, List.length_append] at same
  have none : (l.dropWhile p).filter p = [] := List.eq_nil_of_length_eq_zero (by omega)
  simpa [List.filter_eq_nil_iff] using none

section
variable {streams : List (StreamDeliver P)} {sends : List (LocalSend P)}
  {named : StreamDeliver P → Option PID} {serializes : StreamDeliver P → Bool}

theorem arrivals_iff (all : ∀ stream ∈ streams, serializes stream = true)
    (arrive : List.Forall₂ (fun stream send => serializes stream = true → Kept named stream send) streams sends) :
    sends.map (fun send => (send.target, send.payload, send.priority)) =
        streams.map (fun stream => (stream.target, stream.msg, stream.priority)) ↔
      ∀ stream ∈ streams, named stream = some stream.target := by
  induction arrive with
  | nil => simp
  | @cons stream send streams sends first _ ih =>
    obtain ⟨now, later⟩ := List.forall_mem_cons.mp all
    obtain ⟨target, payload, priority⟩ := first now
    simp only [List.map_cons, List.cons.injEq, Prod.mk.injEq, payload, priority, and_true, ih later,
      List.forall_mem_cons, target, Option.some.injEq]

/-- When the reader delivers something for every slot, a failed message makes a
delivery too many. -/
theorem all_read_iff
    (arrive : List.Forall₂ (fun stream send => serializes stream = true → Kept named stream send) streams sends) :
    sends.map (fun send => (send.target, send.payload, send.priority)) =
        (streams.filter serializes).map (fun stream => (stream.target, stream.msg, stream.priority)) ↔
      (∀ stream ∈ streams, serializes stream = true → named stream = some stream.target) ∧
        ∀ stream ∈ streams, serializes stream = true := by
  constructor
  · intro same
    have count := congrArg List.length same
    rw [List.length_map, List.length_map, ← arrive.length_eq] at count
    have all := List.length_filter_eq_length_iff.mp count.symm
    rw [List.filter_eq_self.mpr all] at same
    refine ⟨?_, all⟩
    intro stream member _
    exact (arrivals_iff all arrive).mp same stream member
  · rintro ⟨own, all⟩
    rw [List.filter_eq_self.mpr all]
    apply (arrivals_iff all arrive).mpr
    intro stream member
    exact own stream member (all stream member)

/-- When the reader stops at the first failed slot, nothing that serializes may be
behind it. -/
theorem cut_read_iff
    (arrive : List.Forall₂ (fun stream send => serializes stream = true → Kept named stream send)
      (streams.takeWhile serializes) sends) :
    sends.map (fun send => (send.target, send.payload, send.priority)) =
        (streams.filter serializes).map (fun stream => (stream.target, stream.msg, stream.priority)) ↔
      (∀ stream ∈ streams, serializes stream = true → named stream = some stream.target) ∧
        ∀ stream ∈ streams.dropWhile serializes, serializes stream = false := by
  have reached : ∀ stream ∈ streams.takeWhile serializes, serializes stream = true :=
    fun stream member => List.mem_takeWhile_imp member
  have front (behind : ∀ stream ∈ streams.dropWhile serializes, serializes stream = false) :
      streams.filter serializes = streams.takeWhile serializes := by
    rw [filter_split, List.filter_eq_nil_iff.mpr (by simpa using behind), List.append_nil]
  constructor
  · intro same
    have count := congrArg List.length same
    rw [List.length_map, List.length_map, ← arrive.length_eq] at count
    have behind := length_filter_takeWhile count
    rw [front behind] at same
    refine ⟨?_, behind⟩
    intro stream member passes
    apply (arrivals_iff reached arrive).mp same
    rw [← front behind, List.mem_filter]
    exact ⟨member, passes⟩
  · rintro ⟨own, behind⟩
    rw [front behind]
    apply (arrivals_iff reached arrive).mpr
    intro stream member
    exact own stream ((List.takeWhile_sublist _).subset member) (reached stream member)

end

/-- The reader delivers exactly the messages that serialize, in order, to their own
targets and with their own payloads, if and only if the batch is harmless. -/
theorem failures_harmless_iff (hash : List UInt8 → UInt64) (serializer : Serializer P) (wire : Wire B)
    (batch : List (StreamDeliver P)) (recovers : serializer.Recovers batch) (fills : wire.Fills)
    (fits : batch.length ≤ 2 ^ 31) :
    ∃ envelope, wire.unmarshal (wire.marshal (invoke hash serializer batch)) = some envelope ∧
      ((receive serializer [envelope]).1.map (fun send => (send.target, send.payload, send.priority)) =
          (batch.filter serializer.serializes).map (fun stream => (stream.target, stream.msg, stream.priority)) ↔
        Harmless hash serializer batch) := by
  refine ⟨_, fills _, ?_⟩
  cases batch with
  | nil => simp [receive, receiveMessages, invoke, encodeAll, Envelope.filled, Harmless]
  | cons first rest =>
    have arrive := receive_filled hash first rest recovers fits
    unfold Harmless
    simp only [List.head?_cons, Option.mem_def, Option.some.injEq, forall_eq']
    cases reads : serializer.readsBlank first with
    | true =>
      simp only [reads, Bool.or_true] at arrive
      rw [List.takeWhile_eq_self_iff.mpr (fun _ _ => rfl)] at arrive
      simp only [Bool.true_eq_false, false_and, or_false]
      exact all_read_iff arrive
    | false =>
      simp only [reads, Bool.or_false] at arrive
      simp only [true_and]
      have none (all : ∀ stream ∈ first :: rest, serializer.serializes stream = true) :
          ∀ stream ∈ (first :: rest).dropWhile serializer.serializes, serializer.serializes stream = false := by
        rw [List.dropWhile_eq_nil_iff.mpr all]
        exact List.forall_mem_nil _
      rw [or_iff_right_of_imp none]
      exact cut_read_iff arrive

/-- Protobuf on a message with one string field, which must be valid; here it is ASCII. -/
def stringMessage : Serializer (List UInt8) where
  typeName _ := "remote.TestMessage"
  serialize data :=
    if data.all (· < 128) then testMessage.serialize data else .error "string field contains invalid UTF-8"
  deserialize := testMessage.deserialize

def filling : Wire Envelope := ⟨id, fun envelope => some envelope.filled⟩

theorem failures_harmless_iff_two_targets :
    stringMessage.Recovers twoTargets ∧
      ∃ envelope, filling.unmarshal (filling.marshal (invoke polynomial stringMessage twoTargets)) =
          some envelope ∧
        ((receive stringMessage [envelope]).1.map (fun send => (send.target, send.payload, send.priority)) =
            (twoTargets.filter stringMessage.serializes).map
              (fun stream => (stream.target, stream.msg, stream.priority)) ↔
          Harmless polynomial stringMessage twoTargets) := by
  have recovers : stringMessage.Recovers twoTargets := by
    intro stream member data serialized
    simp only [twoTargets, List.mem_cons, List.not_mem_nil, or_false] at member
    rcases member with rfl | rfl | rfl <;> (cases serialized; decide)
  exact ⟨recovers, failures_harmless_iff polynomial stringMessage filling twoTargets recovers (fun _ => rfl)
    (by decide)⟩

/-- The second of three messages does not serialize. -/
def oneInvalid : List (StreamDeliver (List UInt8)) :=
  [⟨none, ⟨"h:1", "a"⟩, [102], false⟩, ⟨none, ⟨"h:1", "b"⟩, [200], true⟩,
    ⟨none, ⟨"h:1", "b"⟩, [103], false⟩]

/-- The reader delivers an empty message to the first target in its place. -/
theorem blank_delivered_to_first_target :
    (oneInvalid.filter stringMessage.serializes).map (fun stream => (stream.target, stream.msg)) =
        [(⟨"h:1", "a"⟩, [102]), (⟨"h:1", "b"⟩, [103])] ∧
      filling.unmarshal (filling.marshal (invoke polynomial stringMessage oneInvalid)) =
        some (invoke polynomial stringMessage oneInvalid).filled ∧
      (receive stringMessage [(invoke polynomial stringMessage oneInvalid).filled]).1.map
          (fun send => (send.target, send.payload)) =
        [(⟨"h:1", "a"⟩, [102]), (⟨"h:1", "a"⟩, []), (⟨"h:1", "b"⟩, [103])] := by
  decide +kernel

end Remote

end Hollywood
