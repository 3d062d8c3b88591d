import Hollywood.Process

/-! Sending within an engine (`actor/engine.go`, `actor/registry.go`). A process is its
mailbox, oldest message first. A message that cannot be delivered is broadcast as an
event, and broadcasting is sending to the process of the event stream, so that these
functions call each other: `stack` is the number of nested calls of `send` that there
is room for. -/
namespace Hollywood.Dispatch

/-- A `*PID`: the location and the PID found there, none at nil. -/
structure Pointer where
  loc : Nat
  pid : Option PID
  deriving DecidableEq, Repr

inductive Message (M : Type) where
  | user (msg : M)
  | poisonPill (ctx : Nat) (graceful : Bool)
  | eventSub (pid : Pointer)
  | eventUnsub (pid : Pointer)
  | deadLetterEvent (target : Option PID) (message : Message M) (sender : Option PID)
  | engineRemoteMissingEvent (target : PID) (sender : Option PID) (message : Message M)
  | streamDeliver (target : PID) (msg : Message M) (sender : Option PID) (priority : Bool)
  deriving DecidableEq, Repr

structure Letter (M : Type) where
  msg : Message M
  sender : Option PID
  deriving DecidableEq, Repr

structure Remoter where
  streamRouterPID : Option PID
  deriving DecidableEq, Repr

structure Engine (M : Type) where
  address : String
  eventStream : Option PID
  remote : Option Remoter
  registry : String → Option (List (Letter M))

/-- The engine as a call leaves it, and whether the call returned: without room on the
stack it ends the program. -/
structure Result (M : Type) where
  engine : Engine M
  returned : Bool

abbrev Send (M : Type) := Engine M → Option PID → Message M → Option PID → Result M

namespace Engine
variable {M : Type}

def isLocalMessage (e : Engine M) (pid : PID) : Bool := e.address = pid.address

/-- `Registry.get`: the id of the process found, which the address does not matter for. -/
def get (e : Engine M) : Option PID → Option String
  | none => none
  | some pid => if (e.registry pid.id).isSome then some pid.id else none

def change (e : Engine M) (id : String) (f : List (Letter M) → List (Letter M)) : Engine M :=
  { e with registry := Function.update e.registry id ((e.registry id).map f) }

section
variable (send : Send M)

def broadcastEvent (e : Engine M) (msg : Message M) : Result M :=
  match e.eventStream with
  | none => ⟨e, true⟩
  | some eventStream => send e (some eventStream) msg none

def sendLocal (e : Engine M) (pid : Option PID) (msg : Message M) (sender : Option PID) : Result M :=
  match e.get pid with
  | none => e.broadcastEvent send (.deadLetterEvent pid msg sender)
  | some id => ⟨e.change id fun mailbox => mailbox ++ [⟨msg, sender⟩], true⟩

def sendPriorityLocal (e : Engine M) (pid : Option PID) (msg : Message M) (sender : Option PID) :
    Result M :=
  match e.get pid with
  | none => e.broadcastEvent send (.deadLetterEvent pid msg sender)
  | some id => ⟨e.change id fun mailbox => ⟨msg, sender⟩ :: mailbox, true⟩

/-- `Remote.Send` and `Remote.SendPriority` of `remote/remote.go`. -/
def remoteSend (e : Engine M) (remote : Remoter) (pid : PID) (msg : Message M) (sender : Option PID)
    (priority : Bool) : Result M :=
  send e remote.streamRouterPID (.streamDeliver pid msg sender priority) none

end

def send : Nat → Send M
  | 0, e, _, _, _ => ⟨e, false⟩
  | _ + 1, e, none, _, _ => ⟨e, true⟩
  | stack + 1, e, some pid, msg, sender =>
    if e.isLocalMessage pid then e.sendLocal (send stack) (some pid) msg sender
    else match e.remote with
      | none => e.broadcastEvent (send stack) (.engineRemoteMissingEvent pid sender msg)
      | some remote => e.remoteSend (send stack) remote pid msg sender false

def sendPriority (stack : Nat) (e : Engine M) (pid : Option PID) (msg : Message M) (sender : Option PID) :
    Result M :=
  match pid with
  | none => ⟨e, true⟩
  | some target =>
    if e.isLocalMessage target then e.sendPriorityLocal (send stack) pid msg sender
    else match e.remote with
      | none => e.broadcastEvent (send stack) (.engineRemoteMissingEvent target sender msg)
      | some remote => e.remoteSend (send stack) remote target msg sender true

def sendPoisonPill (stack : Nat) (e : Engine M) (ctx : Nat) (graceful : Bool) (pid : Option PID) : Result M :=
  match e.get pid with
  | none => e.broadcastEvent (send stack) (.deadLetterEvent pid (.poisonPill ctx graceful) none)
  | some _ => e.sendLocal (send stack) pid (.poisonPill ctx graceful) none

def clearMailbox (e : Engine M) (pid : Option PID) : Engine M :=
  match e.get pid with
  | none => e
  | some id => e.change id fun _ => []

end Engine

/-- The calls on an engine that are given a PID; the contexts of pills are told apart by
numbers. -/
inductive Call (M : Type) where
  | send (msg : M)
  | sendPriority (msg : M)
  | sendWithSender (msg : M) (sender : Option PID)
  | stop (ctx : Nat)
  | poison (ctx : Nat)
  | poisonCtx (ctx : Nat)
  | clearMailbox
  deriving DecidableEq, Repr

def Engine.call (stack : Nat) (e : Engine M) (pid : Option PID) : Call M → Result M
  | .send msg => e.send stack pid (.user msg) none
  | .sendPriority msg => e.sendPriority stack pid (.user msg) none
  | .sendWithSender msg sender => e.send stack pid (.user msg) sender
  | .stop ctx => e.sendPoisonPill stack ctx false pid
  | .poison ctx | .poisonCtx ctx => e.sendPoisonPill stack ctx true pid
  | .clearMailbox => ⟨e.clearMailbox pid, true⟩

/-- The calls that look at the address of the PID. -/
def Call.addressed : Call M → Bool
  | .send _ | .sendPriority _ | .sendWithSender _ _ => true
  | _ => false

def Message.isEvent : Message M → Bool
  | .deadLetterEvent _ _ _ | .engineRemoteMissingEvent _ _ _ => true
  | _ => false

def Message.isStreamDeliver : Message M → Bool
  | .streamDeliver _ _ _ _ => true
  | _ => false

namespace Engine
variable {M : Type}

def isEventStream (e : Engine M) (id : String) : Bool := e.eventStream.any (·.id = id)

def isStreamRouter (e : Engine M) (id : String) : Bool :=
  e.remote.any fun remote => remote.streamRouterPID.any (·.id = id)

/-- What the engine puts into mailboxes of its own accord: events into the one of the
event stream, messages for other nodes into the one of the stream router. -/
def forwards (e : Engine M) (id : String) (letter : Letter M) : Bool :=
  e.isEventStream id && letter.msg.isEvent || e.isStreamRouter id && letter.msg.isStreamDeliver

/-- The mailbox under an id has seen nothing but what the engine forwards. -/
def Isolated (before after : Engine M) (id : String) : Prop :=
  ∃ forwarded, after.registry id = (before.registry id).map (· ++ forwarded) ∧
    ∀ letter ∈ forwarded, before.forwards id letter = true

theorem Isolated.refl (e : Engine M) (id : String) : e.Isolated e id := ⟨[], by simp, by simp⟩

theorem change_registry (e : Engine M) (id other : String) (f : List (Letter M) → List (Letter M)) :
    (e.change id f).registry other = if other = id then (e.registry id).map f else e.registry other := by
  simp only [change, Function.update_apply]

/-- A letter that the engine forwards reaches no mailbox that it is not forwarded to. -/
theorem isolated_push (e : Engine M) {id : String} {letter : Letter M} (forwarded : e.forwards id letter = true)
    (other : String) : e.Isolated (e.change id fun mailbox => mailbox ++ [letter]) other := by
  by_cases same : other = id
  · refine ⟨[letter], ?_, ?_⟩
    · rw [change_registry, if_pos same, same]
    · simpa [same] using forwarded
  · refine ⟨[], ?_, by simp⟩
    simp [change_registry, same]

theorem get_some {e : Engine M} {pid : Option PID} {id : String} (found : e.get pid = some id) :
    ∃ target, pid = some target ∧ target.id = id ∧ (e.registry id).isSome = true := by
  cases pid with
  | none => cases found
  | some target =>
    simp only [get, Option.ite_none_right_eq_some, Option.some.injEq] at found
    obtain ⟨present, rfl⟩ := found
    exact ⟨target, rfl, rfl, present⟩

/-- Where a call of `send` puts nothing but what the engine forwards: an event goes to
the event stream, a message for another node to the stream router, or the PID is one of
another node. -/
def Forwarding (e : Engine M) (pid : Option PID) (msg : Message M) : Prop :=
  (pid = e.eventStream ∧ msg.isEvent = true) ∨
    (∃ remote, e.remote = some remote ∧ pid = remote.streamRouterPID ∧ msg.isStreamDeliver = true) ∨
    ∀ target, pid = some target → target.address ≠ e.address

theorem Forwarding.letter {e : Engine M} {pid : PID} {msg : Message M} (forwarding : e.Forwarding (some pid) msg)
    (near : e.isLocalMessage pid = true) (sender : Option PID) : e.forwards pid.id ⟨msg, sender⟩ = true := by
  rcases forwarding with ⟨stream, event⟩ | ⟨remote, has, router, delivers⟩ | away
  · simp [forwards, isEventStream, ← stream, event]
  · simp [forwards, isStreamRouter, has, ← router, delivers]
  · simp only [isLocalMessage, decide_eq_true_eq] at near
    exact absurd near.symm (away pid rfl)

theorem broadcastEvent_isolated {e : Engine M} {send : Send M} {msg : Message M} (event : msg.isEvent = true)
    (sends : ∀ pid msg sender, e.Forwarding pid msg → ∀ id, e.Isolated (send e pid msg sender).engine id)
    (id : String) : e.Isolated (e.broadcastEvent send msg).engine id := by
  unfold broadcastEvent
  split
  · exact .refl e id
  · rename_i stream known
    exact sends _ _ _ (.inl ⟨known.symm, event⟩) id

/-- The induction is on the stack: what a nested call sends is forwarded as well. -/
theorem send_isolated (stack : Nat) (e : Engine M) (pid : Option PID) (msg : Message M) (sender : Option PID)
    (forwarding : e.Forwarding pid msg) (id : String) : e.Isolated (e.send stack pid msg sender).engine id := by
  induction stack generalizing pid msg sender id with
  | zero => exact .refl e id
  | succ stack ih =>
    cases pid with
    | none => exact .refl e id
    | some target =>
      unfold send
      split
      · rename_i near
        unfold sendLocal
        split
        · exact broadcastEvent_isolated rfl ih id
        · rename_i found
          obtain ⟨_, ⟨⟩, rfl, -⟩ := get_some found
          exact isolated_push e (forwarding.letter near sender) id
      · split
        · exact broadcastEvent_isolated rfl ih id
        · rename_i remote has
          exact ih _ _ _ (.inr (.inl ⟨remote, has, rfl, rfl⟩)) id

theorem sendPriority_isolated (stack : Nat) (e : Engine M) (pid : PID) (msg : Message M) (sender : Option PID)
    (away : pid.address ≠ e.address) (id : String) :
    e.Isolated (e.sendPriority stack (some pid) msg sender).engine id := by
  have distant : e.isLocalMessage pid = false := decide_eq_false (Ne.symm away)
  simp only [sendPriority, distant, Bool.false_eq_true, if_false]
  split
  · exact broadcastEvent_isolated rfl (send_isolated stack e) id
  · rename_i remote has
    exact send_isolated stack e _ _ _ (.inr (.inl ⟨remote, has, rfl, rfl⟩)) id

theorem get_registered {e : Engine M} {pid : PID} {mailbox : List (Letter M)}
    (found : e.registry pid.id = some mailbox) : e.get (some pid) = some pid.id := by
  simp [get, found]

theorem get_missing {e : Engine M} {pid : PID} (missing : e.registry pid.id = none) :
    e.get (some pid) = none := by
  simp [get, missing]

/-- A pill is nothing that the engine forwards. -/
theorem sendPoisonPill_isolated_iff (stack : Nat) (e : Engine M) (ctx : Nat) (graceful : Bool) (pid : PID) :
    e.Isolated (e.sendPoisonPill stack ctx graceful (some pid)).engine pid.id ↔ e.registry pid.id = none := by
  constructor
  · rintro ⟨forwarded, after, allowed⟩
    cases found : e.registry pid.id with
    | none => rfl
    | some mailbox =>
      simp only [sendPoisonPill, sendLocal, get_registered found, change_registry, if_true, found,
        Option.map_some, Option.some.injEq, List.append_cancel_left_eq] at after
      have pill := allowed ⟨.poisonPill ctx graceful, none⟩ (by simp [← after])
      simp [forwards, Message.isEvent, Message.isStreamDeliver] at pill
  · intro missing
    simp only [sendPoisonPill, get_missing missing]
    exact broadcastEvent_isolated rfl (send_isolated stack e) pid.id

theorem clearMailbox_isolated_iff (e : Engine M) (pid : PID) :
    e.Isolated (e.clearMailbox (some pid)) pid.id ↔ ∀ mailbox, e.registry pid.id = some mailbox → mailbox = [] := by
  constructor
  · rintro ⟨forwarded, after, -⟩ mailbox found
    simp only [clearMailbox, get_registered found, change_registry, if_true, found, Option.map_some,
      Option.some.injEq] at after
    exact (List.append_eq_nil_iff.mp after.symm).1
  · intro empty
    cases found : e.registry pid.id with
    | none =>
      simp only [clearMailbox, get_missing found]
      exact .refl e pid.id
    | some mailbox =>
      obtain rfl := empty mailbox found
      refine ⟨[], ?_, by simp⟩
      simp [clearMailbox, get_registered found, change_registry, found]

end Engine

/-- A call on the PID of another node leaves the mailbox under the same id alone, if and
only if it is one that looks at the address, or no process has the id, or it is
`ClearMailbox` and there is nothing to clear. -/
theorem address_isolation_iff (stack : Nat) (e : Engine M) (pid : PID) (away : pid.address ≠ e.address)
    (call : Call M) :
    e.Isolated (e.call stack (some pid) call).engine pid.id ↔
      call.addressed = true ∨ e.registry pid.id = none ∨
        (call = .clearMailbox ∧ e.registry pid.id = some []) := by
  have distant (msg : Message M) : e.Forwarding (some pid) msg := by
    refine .inr (.inr ?_)
    rintro target ⟨⟩
    exact away
  cases call with
  | send msg => exact iff_of_true (Engine.send_isolated stack e _ _ _ (distant _) _) (.inl rfl)
  | sendWithSender msg sender =>
    exact iff_of_true (Engine.send_isolated stack e _ _ _ (distant _) _) (.inl rfl)
  | sendPriority msg =>
    exact iff_of_true (Engine.sendPriority_isolated stack e pid _ _ away _) (.inl rfl)
  | stop ctx | poison ctx | poisonCtx ctx =>
    simp only [Engine.call, Engine.sendPoisonPill_isolated_iff, Call.addressed, reduceCtorEq, false_and,
      or_false, Bool.false_eq_true, false_or]
  | clearMailbox =>
    simp only [Engine.call, Engine.clearMailbox_isolated_iff, Call.addressed, Bool.false_eq_true, false_or,
      true_and]
    cases e.registry pid.id with
    | none => simp
    | some mailbox => simp

/-- An engine with one actor besides its event stream. -/
def twoProcesses : Engine Nat where
  address := "local"
  eventStream := some ⟨"local", "eventstream/1"⟩
  remote := none
  registry := fun id =>
    if id = "eventstream/1" then some [] else if id = "a/1" then some [⟨.user 5, none⟩] else none

theorem address_isolation_iff_stop :
    twoProcesses.Isolated (twoProcesses.call 8 (some ⟨"h:1", "a/1"⟩) (.stop 0)).engine "a/1" ↔
      (Call.stop 0 : Call Nat).addressed = true ∨ twoProcesses.registry "a/1" = none ∨
        ((.stop 0 : Call Nat) = .clearMailbox ∧ twoProcesses.registry "a/1" = some []) :=
  address_isolation_iff 8 twoProcesses ⟨"h:1", "a/1"⟩ (by decide) (.stop 0)

/-- `Stop` on a PID of another node puts a pill into the mailbox of the local actor that
has the same id. -/
theorem stop_reaches_local_actor :
    (⟨"h:1", "a/1"⟩ : PID).address ≠ twoProcesses.address ∧
      twoProcesses.registry "a/1" = some [⟨.user 5, none⟩] ∧
      (twoProcesses.call 8 (some ⟨"h:1", "a/1"⟩) (.stop 0)).engine.registry "a/1" =
        some [⟨.user 5, none⟩, ⟨.poisonPill 0 false, none⟩] := by
  decide

end Hollywood.Dispatch
