import Hollywood.Foundation.Transition
import Hollywood.Process

/-! One actor in its engine (`actor/engine.go`): the goroutines that send to it,
stop it or clear its mailbox, and those that run its process. A registry lookup
is one step. The actor is the only one of its id, and the caller of `Stop`,
`Poison` and `PoisonCtx` is the only one to cancel the context by other means. The
children of the actor, which it poisons in its cleanup, are taken to stop; in a tree of
actors (`Tree`) they are modelled themselves. -/
namespace Hollywood

/-- A call on the engine. `poison` is `sendPoisonPill` with its fresh context. -/
inductive Request (M : Type) where
  | send (envelope : Envelope M)
  | sendPriority (envelope : Envelope M)
  | poison (graceful : Bool) (ctx : Nat)
  | clearMailbox
  deriving DecidableEq, Repr

/-- Where a call stands: at the lookup of `sendPoisonPill`, at the lookup of
`SendLocal`, `SendPriorityLocal` or `ClearMailbox`, or inside the inbox. -/
inductive CallPc (M : Type) where
  | sendPoisonPill
  | lookup
  | inbox (pc : Inbox.Pc (Envelope M))
  | returned
  deriving DecidableEq, Repr

namespace Request

def entry : Request M → CallPc M
  | .poison _ _ => .sendPoisonPill
  | .send _ | .sendPriority _ | .clearMailbox => .lookup

/-- What the call asks of the inbox of the process that it finds. -/
def pc : Request M → Inbox.Pc (Envelope M)
  | .send envelope => .push envelope
  | .sendPriority envelope => .pushFront envelope
  | .poison graceful ctx => .push ⟨.poisonPill ctx graceful, none⟩
  | .clearMailbox => .clear

/-- What is broadcast when there is no process. -/
def undelivered : Request M → List (Event M)
  | .send envelope | .sendPriority envelope => [.deadLetter envelope]
  | .poison graceful ctx => [.deadLetter ⟨.poisonPill ctx graceful, none⟩]
  | .clearMailbox => []

def contexts : Request M → List Nat
  | .poison _ ctx => [ctx]
  | _ => []

end Request

inductive Goroutine (M : Type) where
  | caller (request : Request M) (pc : CallPc M)
  | proc (routine : Routine M)
  deriving DecidableEq, Repr

/-- A panic that nothing recovers ends the program. -/
def Goroutine.crashed : Goroutine M → Bool
  | .proc ⟨_, _, .panicked _⟩ => true
  | _ => false

/-- The choices of a goroutine: its next action, and inside the receiver how the
call ends or that it spawns a child. -/
inductive Action where
  | step
  | receive (outcome : Outcome)
  | spawnChild (child : PID)
  deriving DecidableEq, Repr

namespace Actor
variable {M W : Type} [Inhabited M]

def sendPoisonPill (a : Actor M W) (request : Request M) : Actor M W × CallPc M :=
  if a.registered then ({ a with accepted := a.accepted ++ request.contexts }, .lookup)
  else ({ a with
    events := a.events ++ request.undelivered
    refused := a.refused ++ request.contexts }, .returned)

def sendLocal (a : Actor M W) (request : Request M) : Actor M W × CallPc M :=
  if a.registered then (a, .inbox request.pc)
  else ({ a with events := a.events ++ request.undelivered }, .returned)

def call (a : Actor M W) (request : Request M) :
    CallPc M → Option (Actor M W × CallPc M × List (Routine M))
  | .sendPoisonPill => some ((a.sendPoisonPill request).1, (a.sendPoisonPill request).2, [])
  | .lookup => some ((a.sendLocal request).1, (a.sendLocal request).2, [])
  | .inbox pc => do
    let turn ← a.inbox.step pc
    let next := match turn.next with
      | .done => .returned
      | next => .inbox next
    pure (a.record pc turn, next, turn.spawned.map worker)
  | .returned => none

/-- `children.Delete`, called by a child in its own cleanup. -/
def deleteChild (a : Actor M W) (child : PID) : Actor M W :=
  { a with children := a.children.filter (·.id ≠ child.id) }

/-- `children.Set` at the end of `SpawnChild`. -/
def setChild (a : Actor M W) (child : PID) : Actor M W :=
  { a with children := (a.deleteChild child).children ++ [child] }

def act (a : Actor M W) : Goroutine M → Action → Option (Actor M W × Goroutine M × List (Goroutine M))
  | .caller request pc, .step =>
    (a.call request pc).map fun (b, next, spawned) => (b, .caller request next, spawned.map .proc)
  | .proc r, .step => (a.step r).map fun (b, next, spawned) => (b, .proc next, spawned.map .proc)
  | .proc r, .receive outcome =>
    match r.act with
    | .receiving site => some ((a.resume r site outcome).1, .proc (a.resume r site outcome).2, [])
    | _ => none
  | .proc r, .spawnChild child =>
    match r.act with
    | .receiving _ => some (a.setChild child, .proc r, [])
    | _ => none
  | .caller _ _, _ => none

end Actor

namespace Engine
variable {M W : Type} [Inhabited M] {i : Nat}

structure State (M W : Type) [Inhabited M] where
  actor : Actor M W
  pool : List (Goroutine M)
  contexts : Nat

inductive Call (M : Type) where
  | send (msg : M) (sender : Option PID)
  | sendPriority (msg : M) (sender : Option PID)
  | stop
  | poison
  | clearMailbox
  deriving DecidableEq, Repr

def Call.request (ctx : Nat) : Call M → Request M
  | .send msg sender => .send ⟨.user msg, sender⟩
  | .sendPriority msg sender => .sendPriority ⟨.user msg, sender⟩
  | .stop => .poison false ctx
  | .poison => .poison true ctx
  | .clearMailbox => .clearMailbox

inductive Label (M : Type) where
  | call (call : Call M)
  | act (goroutine : Nat) (action : Action)
  | childStopped (child : PID)
  deriving DecidableEq, Repr

/-- The actor right after it was added to the registry: its spawner is about to
call `Start`. -/
def initial (opts : Opts W) (positive : 0 < opts.inboxSize) (parent : Bool) : State M W where
  actor := .new opts positive parent
  pool := [.proc ⟨.spawner, 0, .start⟩]
  contexts := 0

def State.call (s : State M W) (call : Call M) : State M W :=
  { s with
    pool := s.pool ++ [.caller (call.request s.contexts) (call.request s.contexts).entry]
    contexts := s.contexts + (call.request s.contexts).contexts.length }

def State.step (s : State M W) (label : Label M) : Option (State M W) :=
  if s.pool.any Goroutine.crashed then none
  else match label with
    | .call call => some (s.call call)
    | .childStopped child => some { s with actor := s.actor.deleteChild child }
    | .act i action => do
      let g ← s.pool[i]?
      let (actor, next, spawned) ← s.actor.act g action
      pure { s with actor := actor, pool := s.pool.set i next ++ spawned }

end Engine

namespace Actor
variable {M W : Type} [Inhabited M]

/-- Everything a goroutine can do to the actor. -/
inductive Advance (a : Actor M W) :
    Goroutine M → Action → Actor M W → Goroutine M → List (Goroutine M) → Prop where
  | accepted : a.registered = true → Advance a (.caller request .sendPoisonPill) .step
      { a with accepted := a.accepted ++ request.contexts } (.caller request .lookup) []
  | rejected : a.registered = false → Advance a (.caller request .sendPoisonPill) .step
      { a with
        events := a.events ++ request.undelivered
        refused := a.refused ++ request.contexts } (.caller request .returned) []
  | found : a.registered = true → Advance a (.caller request .lookup) .step a
      (.caller request (.inbox request.pc)) []
  | missing : a.registered = false → Advance a (.caller request .lookup) .step
      { a with events := a.events ++ request.undelivered } (.caller request .returned) []
  | mailed : Inbox.Move a.inbox pc turn → turn.next ≠ .done →
      Advance a (.caller request (.inbox pc)) .step (a.record pc turn)
        (.caller request (.inbox turn.next)) (turn.spawned.map fun pc => .proc (worker pc))
  | returned : Inbox.Move a.inbox pc turn → turn.next = .done →
      Advance a (.caller request (.inbox pc)) .step (a.record pc turn)
        (.caller request .returned) (turn.spawned.map fun pc => .proc (worker pc))
  | moved : Move a r b next spawned → Advance a (.proc r) .step b (.proc next) (spawned.map .proc)
  | resumed : r.act = .receiving site → Advance a (.proc r) (.receive outcome)
      (a.resume r site outcome).1 (.proc (a.resume r site outcome).2) []
  | spawnedChild : r.act = .receiving site →
      Advance a (.proc r) (.spawnChild child) (a.setChild child) (.proc r) []

/-- What a goroutine starts runs in the process. -/
theorem Advance.spawns {a : Actor M W} (advance : Advance a g action b next spawned) :
    ∀ h ∈ spawned, ∃ r, h = .proc r := by
  cases advance with
  | mailed | returned =>
    intro h member
    obtain ⟨pc, -, rfl⟩ := List.mem_map.mp member
    exact ⟨_, rfl⟩
  | moved =>
    intro h member
    obtain ⟨r, -, rfl⟩ := List.mem_map.mp member
    exact ⟨r, rfl⟩
  | _ => exact List.forall_mem_nil _

theorem call_advance {a : Actor M W} (called : a.call request pc = some (b, next, spawned)) :
    Advance a (.caller request pc) .step b (.caller request next) (spawned.map .proc) := by
  cases pc with
  | sendPoisonPill =>
    cases called
    cases known : a.registered with
    | true => simpa [sendPoisonPill, known] using Advance.accepted known
    | false => simpa [sendPoisonPill, known] using Advance.rejected known
  | lookup =>
    cases called
    cases known : a.registered with
    | true => simpa [sendLocal, known] using Advance.found known
    | false => simpa [sendLocal, known] using Advance.missing known
  | inbox pc =>
    simp only [call, Option.bind_eq_bind, Option.bind_eq_some_iff, Option.pure_def,
      Option.some.injEq, Prod.mk.injEq] at called
    obtain ⟨turn, taken, rfl, rfl, rfl⟩ := called
    have move := Inbox.step_move taken
    rw [List.map_map]
    split
    · exact .returned move (by assumption)
    · exact .mailed move (by assumption)
  | returned => contradiction

theorem act_advance {a : Actor M W} (acted : a.act g action = some (b, next, spawned)) :
    Advance a g action b next spawned := by
  cases g with
  | caller request pc =>
    cases action with
    | step =>
      simp only [act, Option.map_eq_some_iff, Prod.mk.injEq, Prod.exists] at acted
      obtain ⟨b, next, spawned, called, rfl, rfl, rfl⟩ := acted
      exact call_advance called
    | receive outcome | spawnChild child => simp [act] at acted
  | proc r =>
    cases action with
    | step =>
      simp only [act, Option.map_eq_some_iff, Prod.mk.injEq, Prod.exists] at acted
      obtain ⟨b, next, spawned, stepped, rfl, rfl, rfl⟩ := acted
      exact .moved (step_move stepped)
    | receive outcome | spawnChild child =>
      simp only [act] at acted
      split at acted
      · cases acted
        first
        | exact .resumed (by assumption)
        | exact .spawnedChild (by assumption)
      · contradiction

end Actor

namespace Engine
variable {M W : Type} [Inhabited M] {i : Nat}

theorem step_cases {s t : State M W} (stepped : s.step label = some t) :
    (∃ call, label = .call call ∧ t = s.call call) ∨
    (∃ child, label = .childStopped child ∧ t = { s with actor := s.actor.deleteChild child }) ∨
    ∃ i action g b next spawned, label = .act i action ∧ s.pool[i]? = some g ∧
      s.actor.Advance g action b next spawned ∧
      t = { s with actor := b, pool := s.pool.set i next ++ spawned } := by
  unfold State.step at stepped
  split at stepped
  · contradiction
  · cases label with
    | call call => exact .inl ⟨call, rfl, (Option.some.inj stepped).symm⟩
    | childStopped child => exact .inr (.inl ⟨child, rfl, (Option.some.inj stepped).symm⟩)
    | act i action =>
      simp only [Option.bind_eq_bind, Option.bind_eq_some_iff, Option.pure_def,
        Option.some.injEq] at stepped
      obtain ⟨g, found, ⟨b, next, spawned⟩, acted, same⟩ := stepped
      exact .inr (.inr ⟨i, action, g, b, next, spawned, rfl, found, Actor.act_advance acted,
        same.symm⟩)

end Engine
end Hollywood
