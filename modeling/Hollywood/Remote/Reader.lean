import Hollywood.Remote.RoundTrip

/-! A reader and an envelope from any peer. The three tables of an envelope are
indexed by numbers that the peer has chosen, so the reader panics at the first
message that it gets to whose indices lead out of them. -/
namespace Hollywood

/-- An `int32` that a slice can be indexed by. -/
def Within (entries : List E) (id : Int32) : Prop := 0 ≤ id.toInt ∧ id.toInt < entries.length

theorem index_none_iff {entries : List E} {id : Int32} : index entries id = none ↔ ¬ Within entries id := by
  unfold index Within
  split
  · rw [List.getElem?_eq_none_iff]
    omega
  · rename_i negative
    simp [negative]

theorem index_some {entries : List E} {id : Int32} (within : Within entries id) :
    ∃ entry, index entries id = some entry := by
  cases found : index entries id with
  | some entry => exact ⟨entry, rfl⟩
  | none => exact absurd within (index_none_iff.mp found)

namespace Remote
variable {P : Type} {serializer : Serializer P}

/-- The payload of a message that names a type of the table and whose data the
deserializer reads under that name. -/
def Envelope.payload (serializer : Serializer P) (envelope : Envelope) : Option Message → Option P
  | none => none
  | some message =>
    (index envelope.typeNames message.typeNameIndex).bind fun tname =>
      (serializer.deserialize message.data tname).toOption

def Envelope.readable (serializer : Serializer P) (envelope : Envelope) (slot : Option Message) : Bool :=
  (envelope.payload serializer slot).isSome

/-- The target of a message is in its table, and so is its sender. Without any senders
the sender's index is not used. -/
def Envelope.Addressed (envelope : Envelope) (message : Message) : Prop :=
  Within envelope.targets message.targetIndex ∧
    (envelope.senders = [] ∨ Within envelope.senders message.senderIndex)

/-- What an envelope has to meet. Its messages are readable up to some place; all of
these are addressed, and the first one that is not readable, if there is one, is a
message whose type is in the table. -/
structure Envelope.Sound (serializer : Serializer P) (envelope : Envelope)
    (slots : List (Option Message)) : Prop where
  addressed : ∀ message, some message ∈ slots.takeWhile (envelope.readable serializer) →
    envelope.Addressed message
  typed : ∀ slot, (slots.dropWhile (envelope.readable serializer)).head? = some slot →
    ∃ message, slot = some message ∧ Within envelope.typeNames message.typeNameIndex

theorem sound_nil (envelope : Envelope) : envelope.Sound serializer [] :=
  ⟨by simp, by simp⟩

theorem sound_readable {envelope : Envelope} {message : Message} {payload : P}
    {rest : List (Option Message)} (reads : envelope.payload serializer (some message) = some payload) :
    envelope.Sound serializer (some message :: rest) ↔
      envelope.Addressed message ∧ envelope.Sound serializer rest := by
  have readable : envelope.readable serializer (some message) = true := by
    rw [Envelope.readable, reads]
    rfl
  constructor
  · rintro ⟨addressed, typed⟩
    simp only [List.takeWhile_cons_of_pos readable] at addressed
    simp only [List.dropWhile_cons_of_pos readable] at typed
    exact ⟨addressed message List.mem_cons_self,
      fun later mem => addressed later (List.mem_cons_of_mem _ mem), typed⟩
  · rintro ⟨first, addressed, typed⟩
    constructor
    · simp only [List.takeWhile_cons_of_pos readable, List.mem_cons, Option.some.injEq]
      rintro later (rfl | mem)
      · exact first
      · exact addressed later mem
    · simpa only [List.dropWhile_cons_of_pos readable] using typed

theorem sound_unreadable {envelope : Envelope} {slot : Option Message} {rest : List (Option Message)}
    (unread : envelope.payload serializer slot = none) :
    envelope.Sound serializer (slot :: rest) ↔
      ∃ message, slot = some message ∧ Within envelope.typeNames message.typeNameIndex := by
  have unreadable : ¬ envelope.readable serializer slot = true := by simp [Envelope.readable, unread]
  constructor
  · intro sound
    exact sound.typed slot (by rw [List.dropWhile_cons_of_neg unreadable]; rfl)
  · intro typed
    constructor
    · simp [List.takeWhile_cons_of_neg unreadable]
    · rw [List.dropWhile_cons_of_neg unreadable]
      rintro _ ⟨⟩
      exact typed

theorem fetch_panic {entries : List E} {id : Int32} (outside : ¬ Within entries id) :
    fetch entries id = .error .panic := by
  rw [fetch, index_none_iff.mpr outside]

theorem sender_total {envelope : Envelope} {message : Message}
    (within : envelope.senders = [] ∨ Within envelope.senders message.senderIndex) :
    ∃ sender, envelope.sender message = .ok sender := by
  cases within with
  | inl anonymous => exact ⟨none, by simp [Envelope.sender, anonymous]⟩
  | inr within =>
    obtain ⟨author, found⟩ := index_some within
    unfold Envelope.sender
    split
    · exact ⟨some author, by rw [fetch_ok found]; rfl⟩
    · exact ⟨none, rfl⟩

theorem sender_panic {envelope : Envelope} {message : Message}
    (outside : ¬ (envelope.senders = [] ∨ Within envelope.senders message.senderIndex)) :
    envelope.sender message = .error .panic := by
  rw [not_or] at outside
  rw [Envelope.sender, if_pos (List.length_pos_iff.mpr outside.1), fetch_panic outside.2]
  rfl

/-- How the loop body begins with a message that is readable. -/
theorem payload_some {envelope : Envelope} {message : Message} {payload : P}
    (reads : envelope.payload serializer (some message) = some payload) :
    ∃ tname, index envelope.typeNames message.typeNameIndex = some tname ∧
      serializer.deserialize message.data tname = .ok payload := by
  obtain ⟨tname, named, read⟩ := Option.bind_eq_some_iff.mp reads
  refine ⟨tname, named, ?_⟩
  cases result : serializer.deserialize message.data tname with
  | error err => simp [result, Except.toOption] at read
  | ok value => simpa [result, Except.toOption] using read

theorem receiveMessage_addressed {envelope : Envelope} {message : Message} {payload : P}
    (reads : envelope.payload serializer (some message) = some payload)
    (addressed : envelope.Addressed message) :
    ∃ send, receiveMessage serializer envelope (some message) = .ok send := by
  obtain ⟨tname, named, read⟩ := payload_some reads
  obtain ⟨target, found⟩ := index_some addressed.1
  obtain ⟨sender, attributed⟩ := sender_total addressed.2
  refine ⟨⟨message.priority, target, payload, sender⟩, ?_⟩
  simp only [receiveMessage, bind, Except.bind, pure, Except.pure, fetch_ok named, deserialize, read,
    fetch_ok found, attributed]

theorem receiveMessage_astray {envelope : Envelope} {message : Message} {payload : P}
    (reads : envelope.payload serializer (some message) = some payload)
    (astray : ¬ envelope.Addressed message) :
    receiveMessage serializer envelope (some message) = .error .panic := by
  obtain ⟨tname, named, read⟩ := payload_some reads
  simp only [receiveMessage, bind, Except.bind, pure, Except.pure, fetch_ok named, deserialize, read]
  by_cases aimed : Within envelope.targets message.targetIndex
  · obtain ⟨target, found⟩ := index_some aimed
    have outside := (not_and_or.mp astray).resolve_left (not_not_intro aimed)
    simp only [fetch_ok found, sender_panic outside]
  · simp only [fetch_panic aimed]

theorem receiveMessage_refused {envelope : Envelope} {message : Message}
    (unread : envelope.payload serializer (some message) = none)
    (typed : Within envelope.typeNames message.typeNameIndex) :
    ∃ err, receiveMessage serializer envelope (some message) = .error (.deserialize err) := by
  obtain ⟨tname, named⟩ := index_some typed
  cases read : serializer.deserialize message.data tname with
  | error err =>
    refine ⟨err, ?_⟩
    simp only [receiveMessage, bind, Except.bind, fetch_ok named, deserialize, read]
  | ok payload => simp [Envelope.payload, named, read, Except.toOption] at unread

theorem receiveMessage_untyped {envelope : Envelope} {slot : Option Message}
    (untyped : ¬ ∃ message, slot = some message ∧ Within envelope.typeNames message.typeNameIndex) :
    receiveMessage serializer envelope slot = .error .panic := by
  cases slot with
  | none => rfl
  | some message =>
    have outside : ¬ Within envelope.typeNames message.typeNameIndex :=
      fun typed => untyped ⟨message, rfl, typed⟩
    simp only [receiveMessage, bind, Except.bind, fetch_panic outside]

/-- The loop ends without a fault, having delivered every message, or with an error. -/
def Survives (serializer : Serializer P) (envelope : Envelope) (slots : List (Option Message)) : Prop :=
  (∃ sends, receiveMessages serializer envelope slots = (sends, none) ∧
    List.Forall₂ (fun slot send => receiveMessage serializer envelope slot = .ok send) slots sends) ∨
  ∃ sends err, receiveMessages serializer envelope slots = (sends, some (.deserialize err))

theorem survives_cons {envelope : Envelope} {slot : Option Message} {send : LocalSend P}
    {rest : List (Option Message)} (received : receiveMessage serializer envelope slot = .ok send) :
    Survives serializer envelope (slot :: rest) ↔ Survives serializer envelope rest := by
  unfold Survives
  simp only [receiveMessages, received]
  constructor
  · rintro (⟨sends, all, each⟩ | ⟨sends, err, failed⟩)
    · cases each with
      | cons first later =>
        obtain ⟨same, ended⟩ := Prod.mk.inj all
        obtain ⟨-, rfl⟩ := List.cons.inj same
        exact .inl ⟨_, Prod.ext rfl ended, later⟩
    · obtain ⟨-, ended⟩ := Prod.mk.inj failed
      exact .inr ⟨_, err, Prod.ext rfl ended⟩
  · rintro (⟨sends, all, each⟩ | ⟨sends, err, failed⟩)
    · rw [all]
      exact .inl ⟨send :: sends, rfl, .cons received each⟩
    · rw [failed]
      exact .inr ⟨send :: sends, err, rfl⟩

theorem not_survives_panic {envelope : Envelope} {slot : Option Message} {rest : List (Option Message)}
    (panics : receiveMessage serializer envelope slot = .error .panic) :
    ¬ Survives serializer envelope (slot :: rest) := by
  simp [Survives, receiveMessages, panics]

/-- Induction along the slots: the loop goes on exactly behind a message that is
readable and addressed. -/
theorem survives_iff (envelope : Envelope) (slots : List (Option Message)) :
    Survives serializer envelope slots ↔ envelope.Sound serializer slots := by
  induction slots with
  | nil => exact ⟨fun _ => sound_nil envelope, fun _ => .inl ⟨[], rfl, .nil⟩⟩
  | cons slot rest ih =>
    cases reads : envelope.payload serializer slot with
    | none =>
      rw [sound_unreadable reads]
      constructor
      · intro survives
        by_contra untyped
        exact not_survives_panic (receiveMessage_untyped untyped) survives
      · rintro ⟨message, rfl, typed⟩
        obtain ⟨err, failed⟩ := receiveMessage_refused reads typed
        exact .inr ⟨[], err, by simp [receiveMessages, failed]⟩
    | some payload =>
      cases slot with
      | none => simp [Envelope.payload] at reads
      | some message =>
        rw [sound_readable reads]
        by_cases addressed : envelope.Addressed message
        · obtain ⟨send, received⟩ := receiveMessage_addressed reads addressed
          rw [survives_cons received, ih]
          exact ⟨fun sound => ⟨addressed, sound⟩, And.right⟩
        · have panics := receiveMessage_astray reads addressed
          exact ⟨fun survives => absurd survives (not_survives_panic panics), fun sound => absurd sound.1 addressed⟩

/-- For every envelope, the reader either delivers each message or ends with an error
of the deserializer, if and only if its readable messages up to the first one that is
not are addressed inside the tables, and that one has a type of the table. -/
theorem reader_survives_iff (serializer : Serializer P) (envelope : Envelope) :
    ((∃ sends, receive serializer [envelope] = (sends, none) ∧
        List.Forall₂ (fun slot send => receiveMessage serializer envelope slot = .ok send)
          envelope.messages sends) ∨
      ∃ sends err, receive serializer [envelope] = (sends, some (.deserialize err))) ↔
      envelope.Sound serializer envelope.messages := by
  have single : receive serializer [envelope] = receiveMessages serializer envelope envelope.messages := by
    simp only [receive]
    cases receiveMessages serializer envelope envelope.messages with
    | mk sends fault => cases fault <;> simp
  rw [single]
  exact survives_iff envelope envelope.messages

/-- The indices of an empty table, a negative index, and a sender's index behind the
end of its table, each in an envelope with nothing else wrong. -/
theorem reader_panics_on_index :
    receive testMessage [⟨[], [⟨"h:1", "a"⟩], [], [some ⟨[], 0, 0, 0, false⟩]⟩] = ([], some .panic) ∧
      receive testMessage
          [⟨["remote.TestMessage"], [⟨"h:1", "a"⟩], [], [some ⟨[10, 1, 102], 0, 0, -1, false⟩]⟩] =
        ([], some .panic) ∧
      receive testMessage
          [⟨["remote.TestMessage"], [⟨"h:1", "a"⟩], [⟨"h:2", "b"⟩],
            [some ⟨[10, 1, 102], 0, 1, 0, false⟩]⟩] =
        ([], some .panic) := by
  decide +kernel

end Remote

end Hollywood
