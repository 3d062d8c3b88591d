import Hollywood.Dispatch
import Hollywood.Foundation.Divergence
import Mathlib.Data.Prod.Lex

/-! The event stream (`actor/event_stream.go`) of an engine. It takes one message at a
time out of its mailbox and forwards an event to every subscriber, in the order in
which Go happens to iterate the map. Each forward is one step; meanwhile the other
processes come, go and use their own mailboxes. -/
namespace Hollywood.Dispatch
open Transition

/-- `subs` are the keys of the map, `loop` the event that is being forwarded with the
subscribers that are still to get it. -/
structure EventStream (M : Type) where
  engine : Engine M
  subs : List Pointer
  loop : Option (Message M × List Pointer)

/-- `process` is what happens to another process: its mailbox is replaced, or it is added
to the registry or removed from it. -/
inductive StreamLabel (M : Type) where
  | broadcastEvent (msg : Message M)
  | subscribe (pid : Pointer)
  | unsubscribe (pid : Pointer)
  | process (id : String) (mailbox : Option (List (Letter M)))
  | receive (order : List Pointer)
  | forward

namespace StreamLabel
variable {M : Type}

def external : StreamLabel M → Bool
  | .broadcastEvent _ | .subscribe _ | .unsubscribe _ => true
  | _ => false

/-- A step of the event stream itself; a dead letter is broadcast within a forward. -/
def ofStream : StreamLabel M → Bool
  | .receive _ | .forward => true
  | _ => false

end StreamLabel

namespace EventStream
variable {M : Type}

/-- The mailbox of the event stream. -/
def mailbox (s : EventStream M) : List (Letter M) :=
  (s.engine.eventStream.bind fun pid => s.engine.registry pid.id).getD []

/-- The loop over the subscribers, when `rest` is still to come. -/
def forwarding (msg : Message M) (rest : List Pointer) : Option (Message M × List Pointer) :=
  if rest.isEmpty then none else some (msg, rest)

/-- `Receive` up to the loop; a pill is none of its messages. -/
def receive (s : EventStream M) (msg : Message M) (order : List Pointer) : Option (EventStream M) :=
  match msg with
  | .eventSub pid => some { s with subs := if pid ∈ s.subs then s.subs else s.subs ++ [pid] }
  | .eventUnsub pid => some { s with subs := s.subs.filter (· ≠ pid) }
  | .poisonPill _ _ => none
  | msg => if order.isPerm s.subs then some { s with loop := forwarding msg order } else none

/-- `Engine.Send` to the event stream. -/
def call (stack : Nat) (s : EventStream M) (msg : Message M) : Option (EventStream M) :=
  let result := s.engine.send stack s.engine.eventStream msg none
  if result.returned then some { s with engine := result.engine } else none

def step (stack : Nat) (s : EventStream M) : StreamLabel M → Option (EventStream M)
  | .broadcastEvent msg => call stack s msg
  | .subscribe pid => call stack s (.eventSub pid)
  | .unsubscribe pid => call stack s (.eventUnsub pid)
  | .process id mailbox =>
    if s.engine.isEventStream id then none
    else some { s with engine := { s.engine with registry := Function.update s.engine.registry id mailbox } }
  | .receive order =>
    match s.loop, s.engine.eventStream, s.mailbox with
    | none, some pid, letter :: _ =>
      receive { s with engine := s.engine.change pid.id List.tail } letter.msg order
    | _, _, _ => none
  | .forward =>
    match s.loop with
    | some (msg, sub :: rest) =>
      let result := s.engine.send stack sub.pid msg s.engine.eventStream
      if result.returned then some { s with engine := result.engine, loop := forwarding msg rest } else none
    | _ => none

end EventStream

namespace Engine
variable {M : Type}

/-- There is a process other than the event stream behind the PID. -/
def hosts (e : Engine M) (pid : PID) : Bool :=
  e.isLocalMessage pid && (e.registry pid.id).isSome && !e.isEventStream pid.id

/-- What is sent to the PID goes to a process of this engine other than the event stream,
or nowhere. What is sent to another node goes through the stream router and its writers,
which broadcast events of their own when they cannot reach it. -/
def reaches (e : Engine M) (pid : Option PID) : Bool := pid.all e.hosts

/-- The event stream is the same and has the same mailbox. -/
structure Quiet (e after : Engine M) : Prop where
  eventStream : after.eventStream = e.eventStream
  registry : ∀ id, e.isEventStream id = true → after.registry id = e.registry id

theorem Quiet.refl (e : Engine M) : e.Quiet e := ⟨rfl, fun _ _ => rfl⟩

theorem sendLocal_quiet {e : Engine M} {pid : PID} (hosted : e.hosts pid = true) (send : Send M)
    (msg : Message M) (sender : Option PID) : e.Quiet (e.sendLocal send (some pid) msg sender).engine := by
  simp only [hosts, Bool.and_eq_true, Bool.not_eq_true', Option.isSome_iff_exists] at hosted
  obtain ⟨⟨-, mailbox, found⟩, other⟩ := hosted
  simp only [sendLocal, get_registered found]
  refine ⟨rfl, ?_⟩
  intro id stream
  have different : id ≠ pid.id := by
    rintro rfl
    rw [other] at stream
    cases stream
  rw [change_registry, if_neg different]

theorem send_quiet (stack : Nat) {e : Engine M} {pid : Option PID} (reached : e.reaches pid = true)
    (msg : Message M) (sender : Option PID) : e.Quiet (e.send stack pid msg sender).engine := by
  cases stack with
  | zero => exact .refl e
  | succ stack =>
    cases pid with
    | none => exact .refl e
    | some pid =>
      have here : e.hosts pid = true := reached
      have near : e.isLocalMessage pid = true := by
        simp only [hosts, Bool.and_eq_true] at here
        exact here.1.1
      rw [send, if_pos near]
      exact sendLocal_quiet here _ _ _

end Engine

namespace EventStream
variable {M : Type}

theorem mailbox_quiet {s t : EventStream M} (quiet : s.engine.Quiet t.engine) : t.mailbox = s.mailbox := by
  unfold mailbox
  rw [quiet.eventStream]
  cases known : s.engine.eventStream with
  | none => rfl
  | some pid =>
    have stream : s.engine.isEventStream pid.id = true := by simp [Engine.isEventStream, known]
    simp only [Option.bind_some, quiet.registry _ stream]

def remaining : Option (Message M × List Pointer) → Nat
  | none => 0
  | some (_, rest) => rest.length

theorem remaining_forwarding (msg : Message M) (rest : List Pointer) :
    remaining (forwarding msg rest) = rest.length := by
  cases rest <;> rfl

/-- The messages to come, and before the next one the subscribers to come. -/
def rank (s : EventStream M) : ℕ ×ₗ ℕ := toLex (s.mailbox.length, remaining s.loop)

/-- An event is forwarded only to subscribers on this engine that can be reached, and not
to the event stream itself. -/
def answered (s : EventStream M) : StreamLabel M → Bool
  | .forward =>
    match s.loop with
    | some (_, sub :: _) => s.engine.reaches sub.pid
    | _ => true
  | _ => true

theorem receive_mailbox {s t : EventStream M} {order : List Pointer} (received : receive s msg order = some t) :
    t.engine = s.engine := by
  unfold receive at received
  split at received
  · cases received
    rfl
  · cases received
    rfl
  · cases received
  · split at received
    · cases received
      rfl
    · cases received

theorem step_receive {stack : Nat} {s t : EventStream M} {order : List Pointer}
    (stepped : step stack s (.receive order) = some t) : t.mailbox.length < s.mailbox.length := by
  simp only [step] at stepped
  split at stepped
  · rename_i pid letter rest idle known queued
    have engine := receive_mailbox stepped
    have found : (s.engine.registry pid.id).getD [] = letter :: rest := by
      simpa [mailbox, known] using queued
    have taken : t.mailbox = rest := by
      obtain ⟨queue, present⟩ : ∃ queue, s.engine.registry pid.id = some queue := by
        cases present : s.engine.registry pid.id with
        | none => simp [present] at found
        | some queue => exact ⟨queue, rfl⟩
      rw [present, Option.getD_some] at found
      simp [mailbox, engine, Engine.change, known, present, found]
    rw [taken, queued]
    exact Nat.lt_succ_self _
  · cases stepped

theorem step_forward {stack : Nat} {s t : EventStream M} (allowed : s.answered .forward = true)
    (stepped : step stack s .forward = some t) :
    t.mailbox = s.mailbox ∧ remaining t.loop < remaining s.loop := by
  simp only [step] at stepped
  split at stepped
  · rename_i msg sub rest going
    split at stepped
    · cases stepped
      have reached : s.engine.reaches sub.pid = true := by simpa [answered, going] using allowed
      refine ⟨mailbox_quiet (Engine.send_quiet stack reached msg _), ?_⟩
      rw [remaining_forwarding, going]
      exact Nat.lt_succ_self _
    · cases stepped
  · cases stepped

theorem step_process {stack : Nat} {s t : EventStream M} {id : String} {mailbox : Option (List (Letter M))}
    (stepped : step stack s (.process id mailbox) = some t) : t.mailbox = s.mailbox ∧ t.loop = s.loop := by
  simp only [step] at stepped
  split at stepped
  · cases stepped
  · rename_i other
    cases stepped
    refine ⟨mailbox_quiet ⟨rfl, ?_⟩, rfl⟩
    intro stream known
    have different : stream ≠ id := by
      rintro rfl
      exact other known
    simp [Function.update_of_ne different]

/-- The steps of the event stream end, once nobody else broadcasts any more, in every run
in which every subscriber that an event is forwarded to has a process on this engine. -/
theorem cascades_end (stack : Nat) (path : Nat → EventStream M) (labels : Nat → StreamLabel M)
    (endless : Endless (restrict answered (step stack)) path labels)
    (ended : ∀ n, (labels n).external = false) :
    ∃ bound, ∀ n, bound ≤ n → (labels n).ofStream = false := by
  let quiet (s : EventStream M) (label : StreamLabel M) : Bool := s.answered label && !label.external
  have restricted : Endless (restrict quiet (step stack)) path labels := by
    intro n
    obtain ⟨allowed, stepped⟩ := restrict_some (endless n)
    simpa [restrict, quiet, allowed, ended n] using stepped
  have never := restricted.eventually_never rank (·.ofStream = true) ?_ ?_
  · obtain ⟨bound, silent⟩ := never
    exact ⟨bound, fun n late => Bool.not_eq_true _ ▸ silent n late⟩
  · intro s label t stepped stream
    obtain ⟨allowed, stepped⟩ := restrict_some stepped
    obtain ⟨answered, -⟩ := Bool.and_eq_true_iff.mp allowed
    cases label with
    | receive order => exact Prod.Lex.toLex_lt_toLex.mpr (.inl (step_receive stepped))
    | forward =>
      obtain ⟨same, fewer⟩ := step_forward answered stepped
      exact Prod.Lex.toLex_lt_toLex.mpr (.inr ⟨congrArg List.length same, fewer⟩)
    | _ => cases stream
  · intro s label t stepped stream
    obtain ⟨allowed, stepped⟩ := restrict_some stepped
    cases label with
    | process id mailbox =>
      obtain ⟨same, loop⟩ := step_process stepped
      rw [rank, rank, same, loop]
    | receive order | forward => exact absurd rfl stream
    | _ => simp [quiet, StreamLabel.external] at allowed

/-- An event waits for one subscriber, whose process has the id `subscriber`. -/
def oneSubscriber (subscriber : String) : EventStream Nat where
  engine := {
    address := "local"
    eventStream := some ⟨"local", "eventstream/1"⟩
    remote := none
    registry := fun id =>
      if id = "eventstream/1" then some [⟨.user 7, none⟩] else if id = "a/1" then some [] else none }
  subs := [⟨1, some ⟨"local", subscriber⟩⟩]
  loop := none

theorem stay {stack : Nat} (s : EventStream M) {id : String} (other : s.engine.isEventStream id = false) :
    restrict answered (step stack) s (.process id (s.engine.registry id)) = some s := by
  simp [restrict, answered, step, other]

theorem cascades_end_one_subscriber :
    ∃ path labels, Endless (restrict answered (step 8)) path labels ∧
      path 0 = oneSubscriber "a/1" ∧ (labels 0).ofStream = true ∧
      ∃ bound, ∀ n, bound ≤ n → (labels n).ofStream = false := by
  let received := (step 8 (oneSubscriber "a/1") (.receive (oneSubscriber "a/1").subs)).getD (oneSubscriber "a/1")
  let forwarded := (step 8 received .forward).getD received
  let path : Nat → EventStream Nat
    | 0 => oneSubscriber "a/1"
    | 1 => received
    | _ + 2 => forwarded
  let labels : Nat → StreamLabel Nat
    | 0 => .receive (oneSubscriber "a/1").subs
    | 1 => .forward
    | _ + 2 => .process "b/1" (forwarded.engine.registry "b/1")
  have endless : Endless (restrict answered (step 8)) path labels := by
    intro n
    match n with
    | 0 => rfl
    | 1 => rfl
    | n + 2 => exact stay forwarded rfl
  have ended : ∀ n, (labels n).external = false := by
    intro n
    match n with
    | 0 | 1 | n + 2 => rfl
  exact ⟨path, labels, endless, rfl, rfl, cascades_end 8 path labels endless ended⟩

/-- The states of the cascade: the event waits in the mailbox or is about to be forwarded
to the only subscriber, who is gone. -/
structure Cascading (s : EventStream Nat) : Prop where
  address : s.engine.address = "local"
  eventStream : s.engine.eventStream = some ⟨"local", "eventstream/1"⟩
  gone : s.engine.registry "gone/1" = none
  subs : s.subs = [⟨1, some ⟨"local", "gone/1"⟩⟩]
  turns : (s.loop = none ∧ ∃ letter, s.engine.registry "eventstream/1" = some [letter] ∧
      (letter.msg.isEvent = true ∨ letter.msg = .user 7)) ∨
    ∃ msg, s.loop = some (msg, s.subs) ∧ s.engine.registry "eventstream/1" = some []

theorem receive_event {msg : Message M} (event : msg.isEvent = true ∨ ∃ m, msg = .user m) (s : EventStream M) :
    receive s msg s.subs = some { s with loop := forwarding msg s.subs } := by
  have whole : s.subs.isPerm s.subs = true := List.isPerm_iff.mpr (.refl _)
  cases msg with
  | user m | deadLetterEvent target message sender | engineRemoteMissingEvent target sender message =>
    simp only [receive, whole, if_true]
  | _ => simp [Message.isEvent] at event

/-- A forward to a process that is gone broadcasts a dead letter, on the same stream. -/
theorem send_gone {e : Engine Nat} (address : e.address = "local")
    (eventStream : e.eventStream = some ⟨"local", "eventstream/1"⟩) (gone : e.registry "gone/1" = none)
    (empty : e.registry "eventstream/1" = some []) (msg : Message Nat) (sender : Option PID) :
    e.send 8 (some ⟨"local", "gone/1"⟩) msg sender =
      ⟨e.change "eventstream/1" fun mailbox =>
        mailbox ++ [⟨.deadLetterEvent (some ⟨"local", "gone/1"⟩) msg sender, none⟩], true⟩ := by
  simp [Engine.send, Engine.isLocalMessage, address, Engine.sendLocal, Engine.get, gone,
    Engine.broadcastEvent, eventStream, empty]

theorem Cascading.progress (s : EventStream Nat) (cascading : s.Cascading) :
    ∃ label t, (label.external = false ∧ label.ofStream = true) ∧ step 8 s label = some t ∧ t.Cascading := by
  obtain ⟨e, subs, loop⟩ := s
  obtain ⟨address, eventStream, gone, rfl, turns⟩ := cascading
  dsimp only at address eventStream gone turns
  rcases turns with ⟨rfl, letter, queued, event⟩ | ⟨msg, rfl, empty⟩
  · let dead : Pointer := ⟨1, some ⟨"local", "gone/1"⟩⟩
    let taken : EventStream Nat := ⟨e.change "eventstream/1" List.tail, [dead], none⟩
    have mail : mailbox ⟨e, [⟨1, some ⟨"local", "gone/1"⟩⟩], none⟩ = [letter] := by
      simp [mailbox, eventStream, queued]
    refine ⟨.receive [dead], { taken with loop := forwarding letter.msg [dead] }, ⟨rfl, rfl⟩, ?_,
      address, eventStream, ?_, rfl, .inr ⟨letter.msg, rfl, ?_⟩⟩
    · simp only [step, eventStream, mail]
      exact receive_event (event.imp_right fun same => ⟨7, same⟩) taken
    · simp [taken, Engine.change_registry, gone]
    · simp [taken, Engine.change_registry, queued]
  · have sent := send_gone address eventStream gone empty msg e.eventStream
    let letter : Letter Nat := ⟨.deadLetterEvent (some ⟨"local", "gone/1"⟩) msg e.eventStream, none⟩
    refine ⟨.forward, ⟨e.change "eventstream/1" fun mailbox => mailbox ++ [letter], _, none⟩, ⟨rfl, rfl⟩, ?_,
      address, eventStream, ?_, rfl, .inl ⟨rfl, letter, ?_, .inl rfl⟩⟩
    · simp only [step, sent, if_true]
      rfl
    · simp [Engine.change_registry, gone]
    · simp only [Engine.change_registry, if_true, empty, Option.map_some, List.nil_append]

/-- One event and one subscriber that is gone: the event stream never comes to rest. -/
theorem dead_subscriber_cascades :
    ∃ path labels, path 0 = oneSubscriber "gone/1" ∧ Endless (step 8) path labels ∧
      ∀ n, (labels n).external = false ∧ (labels n).ofStream = true := by
  refine exists_endless Cascading.progress ?_
  refine ⟨rfl, rfl, rfl, rfl, .inl ⟨rfl, ⟨.user 7, none⟩, rfl, .inr rfl⟩⟩

end EventStream

end Hollywood.Dispatch
