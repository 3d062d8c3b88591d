import Hollywood.Remote.Failures
import Hollywood.Remote.Tables
import Hollywood.VT.Codec

/-! The envelopes of the remote as bytes: what a stream writer hands to `stream.Send` goes
through `MarshalVT`, and what a stream reader gets from `stream.Recv` through `UnmarshalVT`
into a new envelope (`remote/remote_drpc.pb.go`). -/
namespace Hollywood.VT

open Remote (StreamDeliver LocalSend Serializer CollisionFree)

def ofString (s : String) : List UInt8 := s.toUTF8.data.toList

/-- Strings of characters; nothing is said of other bytes. -/
def toString? (bytes : List UInt8) : Option String := String.fromUTF8? bytes.toByteArray

theorem toString_ofString (s : String) : toString? (ofString s) = some s := by
  have bytes : s.toUTF8.data.toList.toByteArray = s.toByteArray := by
    apply ByteArray.ext
    rw [List.data_toByteArray, Array.toArray_toList]
    rfl
  rw [toString?, ofString, bytes, String.fromUTF8?, dif_pos s.isValidUTF8]
  rfl

def PID.of (pid : Hollywood.PID) : PID := ⟨ofString pid.address, ofString pid.id, []⟩

def PID.back (pid : PID) : Option Hollywood.PID := do
  let address ← toString? pid.address
  let id ← toString? pid.id
  pure ⟨address, id⟩

def Message.of (m : Remote.Message) : Message :=
  ⟨m.data, m.targetIndex, m.senderIndex, m.typeNameIndex, m.priority, []⟩

def Message.back (m : Message) : Remote.Message :=
  ⟨m.data, m.typeNameIndex, m.senderIndex, m.targetIndex, m.priority⟩

def Envelope.of (envelope : Remote.Envelope) : Envelope where
  typeNames := envelope.typeNames.map ofString
  targets := envelope.targets.map fun pid => some (.of pid)
  senders := envelope.senders.map fun pid => some (.of pid)
  messages := envelope.messages.map (Option.map .of)
  unknownFields := []

def Envelope.back (envelope : Envelope) : Option Remote.Envelope := do
  let typeNames ← envelope.typeNames.mapM toString?
  let targets ← envelope.targets.mapM fun pid => pid.bind PID.back
  let senders ← envelope.senders.mapM fun pid => pid.bind PID.back
  pure ⟨typeNames, targets, senders, envelope.messages.map (Option.map Message.back)⟩

theorem mapM_map_eq_some {f : α → β} {g : β → Option α} (inverse : ∀ x, g (f x) = some x) (xs : List α) :
    (xs.map f).mapM g = some xs := by
  induction xs with
  | nil => rfl
  | cons x xs ih => rw [List.map_cons, List.mapM_cons, inverse, ih]; rfl

theorem PID.back_of (pid : Hollywood.PID) : (PID.of pid).back = some pid := by
  simp only [back, of, toString_ofString, bind, Option.bind, pure]

theorem Envelope.back_of (envelope : Remote.Envelope) : (Envelope.of envelope).back = some envelope := by
  have pids := mapM_map_eq_some (f := fun pid => some (PID.of pid)) (g := fun pid => pid.bind PID.back) PID.back_of
  have messages : (envelope.messages.map (Option.map Message.of)).map (Option.map Message.back) =
      envelope.messages := by
    rw [List.map_map]
    refine (List.map_congr_left fun message _ => ?_).trans (List.map_id _)
    cases message <;> rfl
  simp only [back, of, mapM_map_eq_some toString_ofString, pids, messages, Option.bind_eq_bind, Option.bind_some,
    Option.pure_def]

theorem PID.normal_of (pid : Hollywood.PID) : PID.type.Normal (.of pid) := by
  refine ⟨.nil, ?_⟩
  simp only [PID.type, List.forall_mem_cons, List.not_mem_nil, false_imp_iff, implies_true, and_true]
  exact ⟨fun _ => trivial, fun _ => trivial⟩

theorem Message.normal_of (m : Remote.Message) : Message.type.Normal (.of m) := by
  refine ⟨.nil, ?_⟩
  simp only [Message.type, List.forall_mem_cons, List.not_mem_nil, false_imp_iff, implies_true, and_true]
  exact ⟨fun _ => trivial, fun _ => trivial, fun _ => trivial, fun _ => trivial, fun _ => trivial⟩

theorem Envelope.sound_of (envelope : Remote.Envelope) : Envelope.type.Sound (.of envelope) := by
  refine ⟨.nil, ?_⟩
  have pids : ∀ pids : List Hollywood.PID, (Kind.message PID.type).repeated.Sound
      (pids.map fun pid => some (.of pid)) := by
    intro pids pointer element u held
    obtain ⟨pid, -, rfl⟩ := List.mem_map.mp element
    cases held
    exact (PID.normal_of pid).sound
  simp only [Envelope.type, List.forall_mem_cons, List.not_mem_nil, false_imp_iff, implies_true, and_true]
  refine ⟨fun _ _ => trivial, pids _, pids _, ?_⟩
  intro pointer element u held
  obtain ⟨message, -, rfl⟩ := List.mem_map.mp element
  cases message with
  | none => cases held
  | some message =>
    cases held
    exact (Message.normal_of message).sound

/-- The nil messages are all that the bytes do not tell. -/
theorem Envelope.merge_of (envelope : Remote.Envelope) :
    Envelope.type.merge Envelope.type.zero (.of envelope) = .of envelope.filled := by
  have pids : ∀ pids : List Hollywood.PID, (pids.map fun pid => some (PID.of pid)).map
      (mergeNested PID.type none) = pids.map fun pid => some (PID.of pid) := by
    intro pids
    rw [List.map_map]
    exact List.map_congr_left fun pid _ => congrArg some (MessageType.merge_zero (PID.normal_of pid))
  have messages : (envelope.messages.map (Option.map Message.of)).map (mergeNested Message.type none) =
      (envelope.messages.map fun message => some (message.getD Remote.blank)).map (Option.map Message.of) := by
    rw [List.map_map, List.map_map]
    refine List.map_congr_left fun message _ => ?_
    cases message with
    | none => rfl
    | some message => exact congrArg some (MessageType.merge_zero (Message.normal_of message))
  refine Envelope.type.ext (fun f member => ?_) (Envelope.type.unknown_merge_zero _)
  rw [Envelope.type.get_merge_zero member]
  simp only [Envelope.type, List.mem_cons, List.not_mem_nil, or_false] at member
  rcases member with rfl | rfl | rfl | rfl
  · exact List.map_id _
  · exact pids _
  · exact pids _
  · exact messages

/-- An envelope as the bytes that are sent, and back. -/
def wire : Remote.Wire (Option (List UInt8)) where
  marshal envelope := Envelope.type.marshalVT (.of envelope)
  unmarshal bytes := do
    let envelope ← (Envelope.type.unmarshalVT Envelope.type.zero (← bytes)).toOption
    envelope.back

theorem wire_filled {envelope : Remote.Envelope} (fits : Envelope.type.sizeVT (.of envelope) < intLimit) :
    wire.unmarshal (wire.marshal envelope) = some envelope.filled := by
  have marshalled : Envelope.type.marshalVT (.of envelope) = some (Envelope.type.bytes (.of envelope)) := by
    rw [MessageType.marshalVT_eq, if_pos fits]
  rw [MessageType.sizeVT_eq] at fits
  have read := MessageType.unmarshalVT_bytes (Envelope.sound_of envelope) fits Envelope.type.zero
  rw [Envelope.merge_of] at read
  simp only [wire, marshalled, bind, Option.bind, read, Except.toOption]
  exact Envelope.back_of envelope.filled

theorem filled_of_whole {envelope : Remote.Envelope} (whole : none ∉ envelope.messages) :
    envelope.filled = envelope := by
  have messages : envelope.messages.map (fun message => some (message.getD Remote.blank)) = envelope.messages := by
    refine (List.map_congr_left fun message member => ?_).trans (List.map_id _)
    cases message with
    | none => exact absurd member whole
    | some message => rfl
  rw [Remote.Envelope.filled, messages]

/-- Nothing of an envelope is lost in its bytes but the difference between nil and empty
messages. -/
theorem envelope_survives_bytes (envelope : Remote.Envelope)
    (fits : Envelope.type.sizeVT (.of envelope) < intLimit) :
    wire.unmarshal (wire.marshal envelope) = some envelope.filled ∧
      (none ∉ envelope.messages → wire.unmarshal (wire.marshal envelope) = some envelope) := by
  have read := wire_filled fits
  exact ⟨read, fun whole => by rw [read, filled_of_whole whole]⟩

/-- A message of which the payload did not serialize, and its target. -/
def unserialized : Remote.Envelope := ⟨["t"], [⟨"h:1", "a"⟩], [], [none]⟩

theorem unserialized_arrives_empty :
    wire.marshal unserialized = some [0xa, 1, 0x74, 0x12, 8, 0xa, 3, 0x68, 0x3a, 0x31, 0x12, 1, 0x61, 0x22, 0] ∧
      wire.unmarshal (wire.marshal unserialized) = some ⟨["t"], [⟨"h:1", "a"⟩], [], [some Remote.blank]⟩ :=
  ⟨by decide +kernel, (envelope_survives_bytes unserialized (by decide +kernel)).1⟩

section Stream
variable {P : Type} {hash : List UInt8 → UInt64} {serializer : Serializer P}

theorem invoke_whole {batch : List (StreamDeliver P)} (lossless : serializer.Lossless batch) :
    none ∉ (Remote.invoke hash serializer batch).messages := by
  obtain ⟨-, -, -, slots⟩ :=
    Remote.encodeAll_slots hash serializer Remote.faithful_empty Remote.from_empty batch
  obtain ⟨messages, written, -⟩ := Remote.slots_packed slots fun stream member =>
    let ⟨data, serialized, _⟩ := lossless stream member
    ⟨data, serialized⟩
  have packed : (Remote.invoke hash serializer batch).messages = messages.map some := written
  rw [packed]
  simp

/-- What the reader makes of the envelope of a batch for one address. -/
theorem receive_batch {batch : List (StreamDeliver P)}
    (addressed : ∀ stream ∈ batch, stream.target.address = address) (lossless : serializer.Lossless batch)
    (distinct : CollisionFree hash (batch.map (·.target))) (fits : batch.length ≤ 2 ^ 31) :
    ∃ sends, Remote.receive serializer [Remote.invoke hash serializer batch] = (sends, none) ∧
      List.Forall₂ (fun (stream : StreamDeliver P) (send : LocalSend P) => send.target = stream.target ∧
        send.payload = stream.msg ∧ send.priority = stream.priority) batch sends := by
  obtain ⟨lookups, -, origin, envelope, sends, arrived, received, reads⟩ :=
    Remote.receive_invoke hash Remote.untouched lossless (fun _ _ => rfl) fits
  cases arrived
  refine ⟨sends, received, ?_⟩
  refine ((List.forall₂_and_left _ _).mpr ⟨fun _ member => member, reads⟩).imp ?_
  rintro stream send ⟨member, read⟩
  obtain ⟨entry, keyed⟩ := read.target
  obtain ⟨other, known, origin⟩ := origin.targets _ entry
  refine ⟨?_, read.payload, read.priority⟩
  rw [← origin] at keyed ⊢
  apply PID.key_injective
  · rw [addressed _ known, addressed _ member]
  · exact distinct _ (List.mem_map_of_mem known) _ (List.mem_map_of_mem member) keyed

theorem receive_cons {envelope : Remote.Envelope} {rest : List Remote.Envelope}
    (first : Remote.receive serializer [envelope] = (sends, none))
    (later : Remote.receive serializer rest = (more, none)) :
    Remote.receive serializer (envelope :: rest) = (sends ++ more, none) := by
  rw [Remote.receive] at first ⊢
  generalize Remote.receiveMessages serializer envelope envelope.messages = received at first ⊢
  obtain ⟨made, fault⟩ := received
  cases fault with
  | some fault => cases first
  | none =>
    simp only [Remote.receive, List.append_nil, Prod.mk.injEq, and_true] at first
    simp only [first, later]

/-- A writer that sends the batches of one address one after the other: the reader at the
other end of the bytes makes a local send for every message, in order, to its target. -/
theorem stream_survives_bytes (hash : List UInt8 → UInt64) (serializer : Serializer P) (address : String)
    (batches : List (List (StreamDeliver P)))
    (addressed : ∀ batch ∈ batches, ∀ stream ∈ batch, stream.target.address = address)
    (lossless : ∀ batch ∈ batches, serializer.Lossless batch)
    (distinct : ∀ batch ∈ batches, CollisionFree hash (batch.map (·.target)))
    (fits : ∀ batch ∈ batches, batch.length ≤ 2 ^ 31 ∧
      Envelope.type.sizeVT (.of (Remote.invoke hash serializer batch)) < intLimit) :
    ∃ envelopes sends,
      batches.mapM (fun batch => wire.unmarshal (wire.marshal (Remote.invoke hash serializer batch))) =
        some envelopes ∧
      Remote.receive serializer envelopes = (sends, none) ∧
      sends.map (fun send => (send.target, send.payload, send.priority)) =
        batches.flatten.map fun stream => (stream.target, stream.msg, stream.priority) := by
  induction batches with
  | nil => exact ⟨[], [], rfl, rfl, rfl⟩
  | cons batch batches ih =>
    simp only [List.forall_mem_cons] at addressed lossless distinct fits
    obtain ⟨envelopes, more, arrived, received, same⟩ := ih addressed.2 lossless.2 distinct.2 fits.2
    obtain ⟨sends, first, kept⟩ := receive_batch addressed.1 lossless.1 distinct.1 fits.1.1
    have whole : wire.unmarshal (wire.marshal (Remote.invoke hash serializer batch)) =
        some (Remote.invoke hash serializer batch) := by
      rw [wire_filled fits.1.2, filled_of_whole (invoke_whole lossless.1)]
    refine ⟨_ :: envelopes, sends ++ more, ?_, receive_cons first received, ?_⟩
    · rw [List.mapM_cons, whole, arrived]
      rfl
    · have here : sends.map (fun send => (send.target, send.payload, send.priority)) =
          batch.map fun stream => (stream.target, stream.msg, stream.priority) := by
        refine Remote.map_eq_map_iff.mpr (kept.imp ?_)
        rintro stream send ⟨target, payload, priority⟩
        rw [target, payload, priority]
      rw [List.map_append, here, same, List.flatten_cons, List.map_append]

end Stream
end Hollywood.VT
