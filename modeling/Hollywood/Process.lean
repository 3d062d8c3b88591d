import Hollywood.Inbox

/-! The process of one actor (`actor/process.go`), with its context, its entry
in the registry and its mailbox. A goroutine runs `Start`, `Invoke`,
`tryRestart` and `cleanup` up to the next action another goroutine can observe:
a call of the receiver, an operation on the inbox, the registry, the children map
or the count of restarts. `invokeMsg` writes the message and the sender into the
context and calls the receiver in one such action, which is all that anybody can
tell while one goroutine at a time is inside the process. Restart delays and stack
traces are left out; broadcasting an event appends it to the events of the actor.
The wait of `cleanup` for a child that it has poisoned is taken to end. -/
namespace Hollywood

structure PID where
  address : String
  id : String
  deriving DecidableEq, Repr

/-- The payload of an envelope. A pill carries the cancel function of the
context that its sender waits on, told apart by a number. -/
inductive Msg (M : Type) where
  | user (msg : M)
  | poisonPill (cancel : Nat) (graceful : Bool)
  deriving DecidableEq, Repr

structure Envelope (M : Type) where
  msg : Msg M
  sender : Option PID
  deriving DecidableEq, Repr

instance [Inhabited M] : Inhabited (Envelope M) := ⟨⟨.user default, none⟩⟩

def Envelope.isPill (envelope : Envelope M) : Bool :=
  match envelope.msg with
  | .poisonPill _ _ => true
  | .user _ => false

/-- A user message with its sender. -/
def Envelope.message (envelope : Envelope M) : Option (M × Option PID) :=
  match envelope.msg with
  | .user msg => some (msg, envelope.sender)
  | .poisonPill _ _ => none

/-- The context that an envelope asks to cancel. -/
def Envelope.context (envelope : Envelope M) : Option Nat :=
  match envelope.msg with
  | .user _ => none
  | .poisonPill ctx _ => some ctx

/-- What a receiver sees as the message of its context. -/
inductive Received (M : Type) where
  | initialized
  | started
  | stopped
  | user (msg : M)
  deriving DecidableEq, Repr

/-- One call of `Receive`: the instance called, the context's message and
sender, and the middleware the call went through, outermost first. -/
structure Delivery (M W : Type) where
  receiver : Nat
  message : Received M
  sender : Option PID
  chain : List W
  deriving DecidableEq, Repr

def Delivery.told (delivery : Delivery M W) : Option (M × Option PID) :=
  match delivery.message with
  | .user msg => some (msg, delivery.sender)
  | _ => none

/-- A panic is an `*InternalError` or any other value; calling a nil function
raises one of the latter. -/
inductive Panic where
  | internal
  | error
  deriving DecidableEq, Repr

inductive Outcome where
  | returns
  | panics (v : Panic)
  deriving DecidableEq, Repr

inductive Event (M : Type) where
  | actorInitialized
  | actorStarted
  | actorStopped
  | actorRestarted (restarts : Int32) (reason : Panic)
  | actorMaxRestartsExceeded
  | deadLetter (envelope : Envelope M)
  deriving DecidableEq, Repr

/-- The restarts that an actor has if its options do not say otherwise. -/
def defaultMaxRestarts : Nat := 3

structure Opts (W : Type) where
  maxRestarts : Int32
  inboxSize : Nat
  middleware : List W
  deriving DecidableEq, Repr

/-- The state of one actor that its goroutines share. `receiver` counts the
instances the producer has returned; the latest is the one in the context.
`parent` says whether the parent's children map lists the actor, `children` are
the values of its own map. The fields from `log` on only record what happened:
deliveries, broadcast events, contexts cancelled by `cleanup`, contexts cancelled
because the actor was not there, contexts whose call found it in the registry,
children waited for, and the traffic of the mailbox. -/
structure Actor (M W : Type) [Inhabited M] where
  opts : Opts W
  inbox : Inbox (Envelope M)
  registered : Bool
  parent : Bool
  children : List PID
  receiver : Nat
  sender : Option PID
  restarts : Int32
  mbuffer : List (Envelope M)
  log : List (Delivery M W)
  events : List (Event M)
  cancelled : List Nat
  refused : List Nat
  accepted : List Nat
  poisoned : List PID
  ops : List (Deque.Op (Envelope M))
  batches : List (List (Envelope M))

/-- The local variables of a call of `Invoke`, at the head of its loop. -/
structure Frame (M : Type) where
  msgs : List (Envelope M)
  i : Nat
  nproc : Nat
  processed : Nat
  deriving DecidableEq, Repr

def Frame.enter (msgs : List (Envelope M)) : Frame M := ⟨msgs, 0, 0, 0⟩

/-- `cleanup` runs for a pill inside `Invoke`, whose recover is still in force,
or for a crash beyond the restart limit, without a cancel function. -/
inductive Reason (M : Type) where
  | pill (frame : Frame M) (cancel : Nat)
  | limit
  deriving DecidableEq, Repr

/-- The places that call the receiver, with what is left to do afterwards. -/
inductive Site (M : Type) where
  | initialized
  | started
  | message (frame : Frame M)
  | flush (frame : Frame M) (rest : List (Envelope M)) (cancel : Nat)
  | crashedInvoke (frame : Frame M) (v : Panic)
  | crashedStart (v : Panic)
  | cleanup (reason : Reason M)
  deriving DecidableEq, Repr

/-- Sites that deliver `Stopped`. -/
def Site.stops : Site M → Bool
  | .crashedInvoke _ _ | .crashedStart _ | .cleanup _ => true
  | _ => false

/-- Sites that deliver a user message. -/
def Site.user : Site M → Bool
  | .message _ | .flush _ _ _ => true
  | _ => false

/-- Where a goroutine stands in the code of the process. -/
inductive Act (M : Type) where
  | loop (pc : Inbox.Pc (Envelope M))
  | start
  | receiving (site : Site M)
  | replayed
  | inboxStart (pc : Inbox.Pc (Envelope M))
  | recoverStart (v : Panic)
  | invoke (frame : Frame M)
  | flush (frame : Frame M) (rest : List (Envelope M)) (cancel : Nat)
  | recoverInvoke (frame : Frame M) (v : Panic)
  | tryRestart (v : Panic)
  | countRestart
  | announceRestart
  | cleanup (reason : Reason M)
  | childrenLen (reason : Reason M)
  | makeChildren (reason : Reason M)
  | fillChildren (reason : Reason M) (size : Nat)
  | poison (reason : Reason M) (rest : List (Option PID))
  | stopInbox (reason : Reason M)
  | unregister (reason : Reason M)
  | stopping (reason : Reason M)
  | cancel (reason : Reason M)
  | returned
  | panicked (v : Panic)
  deriving DecidableEq, Repr

/-- The panic that is on its way to `tryRestart` or not counted there yet. -/
def Act.raised : Act M → Option Panic
  | .recoverStart v | .recoverInvoke _ v | .tryRestart v | .receiving (.crashedStart v)
  | .receiving (.crashedInvoke _ v) => some v
  | .countRestart => some .error
  | _ => none

/-- The length `Children` made its slice for. -/
def Act.sized : Act M → Option Nat
  | .fillChildren _ size => some size
  | _ => none

/-- Who called into the process: the goroutine that spawned the actor calls
`Start`, a scheduled worker calls `Invoke` from `run`. -/
inductive Base where
  | spawner
  | worker
  deriving DecidableEq, Repr

/-- A goroutine inside the process. Both deferred functions end in a call, so a
frame whose recover has run has nothing left to do and is not kept; what is kept
are the `replays` calls of `Start` that wait for `Invoke` on the retry buffer. -/
structure Routine (M : Type) where
  base : Base
  replays : Nat
  act : Act M
  deriving DecidableEq, Repr

namespace Routine

def goto (r : Routine M) (act : Act M) : Routine M := { r with act := act }

/-- `Invoke` or the `Start` of a restart returns: to a waiting `Start`, to the
loop in `run`, or to the caller of `Spawn`. -/
def ret (r : Routine M) : Routine M :=
  match r.replays, r.base with
  | n + 1, _ => { r with replays := n, act := .replayed }
  | 0, .worker => r.goto (.loop .load)
  | 0, .spawner => r.goto .returned

/-- A panic leaves the current call: the nearest waiting `Start` recovers it,
without one it reaches the top of the goroutine. -/
def escape (r : Routine M) (v : Panic) : Routine M :=
  match r.replays with
  | n + 1 => { r with replays := n, act := .recoverStart v }
  | 0 => r.goto (.panicked v)

end Routine

namespace Actor
variable {M W : Type} [Inhabited M]

/-- `newProcess`, already in the registry; `parent` is set for `SpawnChild`. -/
def new (opts : Opts W) (positive : 0 < opts.inboxSize) (parent : Bool) : Actor M W where
  opts := opts
  inbox := .new opts.inboxSize positive
  registered := true
  parent := parent
  children := []
  receiver := 0
  sender := none
  restarts := 0
  mbuffer := []
  log := []
  events := []
  cancelled := []
  refused := []
  accepted := []
  poisoned := []
  ops := []
  batches := []

/-- `applyMiddleware`: the last middleware is wrapped first, so the first one is
outermost. A `ReceiveFunc` is given by the middleware around the receiver. -/
def applyMiddleware (rcv : List W) (middleware : List W) : List W :=
  middleware.foldr (fun m rcv => m :: rcv) rcv

/-- The user messages that the receiver was called with, over all instances. -/
def told (a : Actor M W) : List (M × Option PID) := a.log.filterMap Delivery.told

def deliver (a : Actor M W) (message : Received M) (chain : List W) : Actor M W :=
  { a with log := a.log ++ [⟨a.receiver, message, a.sender, chain⟩] }

def broadcast (a : Actor M W) (event : Event M) : Actor M W :=
  { a with events := a.events ++ [event] }

/-- The part of `invokeMsg` after the pill check. Without middleware the
receiver is called directly, which is the empty chain. -/
def invokeMsg (a : Actor M W) (msg : M) (sender : Option PID) : Actor M W :=
  { a with sender := sender }.deliver (.user msg) (applyMiddleware [] a.opts.middleware)

/-- One pass of the loop in `Invoke`. -/
def invoke (a : Actor M W) (r : Routine M) (f : Frame M) : Actor M W × Routine M :=
  match f.msgs[f.i]? with
  | none => (a, r.ret)
  | some envelope =>
    let f := { f with nproc := f.nproc + 1 }
    match envelope.msg with
    | .poisonPill cancel true => (a, r.goto (.flush f (f.msgs.drop f.processed) cancel))
    | .poisonPill cancel false => (a, r.goto (.cleanup (.pill f cancel)))
    | .user msg => (a.invokeMsg msg envelope.sender, r.goto (.receiving (.message f)))

/-- The inner loop of a graceful stop; `invokeMsg` drops pills. -/
def flush (a : Actor M W) (r : Routine M) (f : Frame M) (rest : List (Envelope M)) (cancel : Nat) :
    Actor M W × Routine M :=
  match rest with
  | [] => (a, r.goto (.cleanup (.pill f cancel)))
  | envelope :: rest =>
    match envelope.msg with
    | .poisonPill _ _ => (a, r.goto (.flush f rest cancel))
    | .user msg => (a.invokeMsg msg envelope.sender, r.goto (.receiving (.flush f rest cancel)))

/-- `tryRestart` up to the increment of the count, which is an access of its own; so
is the one that reads the count for the event. -/
def tryRestart (a : Actor M W) (r : Routine M) (v : Panic) : Actor M W × Routine M :=
  if v = .internal then (a, r.goto .start)
  else if a.restarts = a.opts.maxRestarts then
    (a.broadcast .actorMaxRestartsExceeded, r.goto (.cleanup .limit))
  else (a, r.goto .countRestart)

/-- A panic inside `cleanup`: its deferred `cancel()` runs first, which is a
panic of its own if there is no cancel function. -/
def abort (a : Actor M W) (r : Routine M) (v : Panic) : Reason M → Actor M W × Routine M
  | .pill f cancel => ({ a with cancelled := a.cancelled ++ [cancel] }, r.goto (.recoverInvoke f v))
  | .limit => (a, r.escape .error)

/-- `Context.Children` writes what the map holds into a slice made for its
earlier length. Entries that stay nil are poisoned like an unknown actor. -/
def fillChildren (a : Actor M W) (r : Routine M) (reason : Reason M) (size : Nat) :
    Actor M W × Routine M :=
  if a.children.length ≤ size then
    (a, r.goto (.poison reason (a.children.map some ++
      List.replicate (size - a.children.length) none)))
  else a.abort r .error reason

/-- The deferred `cancel()` of `cleanup` on its normal way out. -/
def cancel (a : Actor M W) (r : Routine M) : Reason M → Actor M W × Routine M
  | .pill _ cancel => ({ a with cancelled := a.cancelled ++ [cancel] }, r.ret)
  | .limit => (a, r.escape .error)

/-- The traffic that an action on the inbox leaves in the record of the actor. -/
def record (a : Actor M W) (pc : Inbox.Pc (Envelope M)) (turn : Inbox.Turn (Envelope M)) :
    Actor M W :=
  { a with
    inbox := turn.inbox
    ops := a.ops ++ pc.op.toList
    batches := a.batches ++ turn.next.batch }

def worker (pc : Inbox.Pc (Envelope M)) : Routine M := ⟨.worker, 0, .loop pc⟩

/-- `Inbox.process` and `run`: the batch goes to `Invoke`, the end of `process`
ends the goroutine. -/
def loop (a : Actor M W) (r : Routine M) (pc : Inbox.Pc (Envelope M)) :
    Option (Actor M W × Routine M × List (Routine M)) :=
  match pc with
  | .invoke msgs => some (a, r.goto (.invoke (.enter msgs)), [])
  | pc => do
    let turn ← a.inbox.step pc
    let act := match turn.next with
      | .done => .returned
      | next => .loop next
    pure (a.record pc turn, r.goto act, turn.spawned.map worker)

/-- `p.inbox.Start(p)`, the last statement of `Start`. -/
def inboxStart (a : Actor M W) (r : Routine M) (pc : Inbox.Pc (Envelope M)) :
    Option (Actor M W × Routine M × List (Routine M)) := do
  let turn ← a.inbox.step pc
  let next := match turn.next with
    | .done => r.ret
    | next => r.goto (.inboxStart next)
  pure (a.record pc turn, next, turn.spawned.map worker)

/-- One action of a goroutine that is not inside the receiver. -/
def step (a : Actor M W) (r : Routine M) : Option (Actor M W × Routine M × List (Routine M)) :=
  match r.act with
  | .loop pc => a.loop r pc
  | .start => some ({ a with receiver := a.receiver + 1 }.deliver .initialized
      (applyMiddleware [] a.opts.middleware), r.goto (.receiving .initialized), [])
  | .receiving _ => none
  | .replayed => some ({ a with mbuffer := [] }, r.goto (.inboxStart .start), [])
  | .inboxStart pc => a.inboxStart r pc
  | .recoverStart v => some (a.deliver .stopped [], r.goto (.receiving (.crashedStart v)), [])
  | .invoke f => some ((a.invoke r f).1, (a.invoke r f).2, [])
  | .flush f rest cancel => some ((a.flush r f rest cancel).1, (a.flush r f rest cancel).2, [])
  | .recoverInvoke f v => some (a.deliver .stopped [], r.goto (.receiving (.crashedInvoke f v)), [])
  | .tryRestart v => some ((a.tryRestart r v).1, (a.tryRestart r v).2, [])
  | .countRestart => some ({ a with restarts := a.restarts + 1 }, r.goto .announceRestart, [])
  | .announceRestart => some (a.broadcast (.actorRestarted a.restarts .error), r.goto .start, [])
  | .cleanup reason => some ({ a with parent := false }, r.goto (.childrenLen reason), [])
  | .childrenLen reason =>
    some (a, r.goto (if a.children.length > 0 then .makeChildren reason else .stopInbox reason), [])
  | .makeChildren reason => some (a, r.goto (.fillChildren reason a.children.length), [])
  | .fillChildren reason size =>
    some ((a.fillChildren r reason size).1, (a.fillChildren r reason size).2, [])
  | .poison reason [] => some (a, r.goto (.stopInbox reason), [])
  | .poison reason (child :: rest) =>
    some ({ a with poisoned := a.poisoned ++ child.toList }, r.goto (.poison reason rest), [])
  | .stopInbox reason =>
    some ({ a with inbox := { a.inbox with procStatus := .stopped } }, r.goto (.unregister reason), [])
  | .unregister reason => some ({ a with registered := false }, r.goto (.stopping reason), [])
  | .stopping reason => some (a.deliver .stopped (applyMiddleware [] a.opts.middleware),
      r.goto (.receiving (.cleanup reason)), [])
  | .cancel reason => some ((a.cancel r reason).1, (a.cancel r reason).2, [])
  | .returned | .panicked _ => none

/-- The receiver returns or panics. A panic in the body of `Invoke` or `Start`
is recovered there; one in a deferred function leaves the call. -/
def resume (a : Actor M W) (r : Routine M) : Site M → Outcome → Actor M W × Routine M
  | .initialized, .returns => (a.broadcast .actorInitialized |>.deliver .started
      (applyMiddleware [] a.opts.middleware), r.goto (.receiving .started))
  | .initialized, .panics v => (a, r.goto (.recoverStart v))
  | .started, .returns =>
    if a.mbuffer.length > 0 then (a.broadcast .actorStarted,
      { r with replays := r.replays + 1, act := .invoke (.enter a.mbuffer) })
    else (a.broadcast .actorStarted, r.goto (.inboxStart .start))
  | .started, .panics v => (a, r.goto (.recoverStart v))
  | .message f, .returns => (a, r.goto (.invoke { f with i := f.i + 1, processed := f.processed + 1 }))
  | .message f, .panics v => (a, r.goto (.recoverInvoke f v))
  | .flush f rest cancel, .returns => (a, r.goto (.flush f rest cancel))
  | .flush f _ _, .panics v => (a, r.goto (.recoverInvoke f v))
  | .crashedInvoke f v, .returns => ({ a with mbuffer := f.msgs.drop f.nproc }, r.goto (.tryRestart v))
  | .crashedInvoke _ _, .panics v => (a, r.escape v)
  | .crashedStart v, .returns => (a, r.goto (.tryRestart v))
  | .crashedStart _, .panics v => (a, r.escape v)
  | .cleanup reason, .returns => (a.broadcast .actorStopped, r.goto (.cancel reason))
  | .cleanup reason, .panics v => a.abort r v reason

/-- Everything a goroutine can do outside the receiver, with the condition under
which it does it. -/
inductive Move (a : Actor M W) (r : Routine M) : Actor M W → Routine M → List (Routine M) → Prop
  where
  | invoked : r.act = .loop (.invoke msgs) → Move a r a (r.goto (.invoke (.enter msgs))) []
  | looped : r.act = .loop pc → Inbox.Move a.inbox pc turn → turn.next ≠ .done →
      pc.batch = [] → Move a r (a.record pc turn) (r.goto (.loop turn.next)) (turn.spawned.map worker)
  | left : r.act = .loop pc → Inbox.Move a.inbox pc turn → turn.next = .done →
      Move a r (a.record pc turn) (r.goto .returned) (turn.spawned.map worker)
  | start : r.act = .start → Move a r ({ a with receiver := a.receiver + 1 }.deliver .initialized
      (applyMiddleware [] a.opts.middleware)) (r.goto (.receiving .initialized)) []
  | replayed : r.act = .replayed → Move a r { a with mbuffer := [] } (r.goto (.inboxStart .start)) []
  | inboxStarting : r.act = .inboxStart pc → Inbox.Move a.inbox pc turn → turn.next ≠ .done →
      Move a r (a.record pc turn) (r.goto (.inboxStart turn.next)) (turn.spawned.map worker)
  | inboxStarted : r.act = .inboxStart pc → Inbox.Move a.inbox pc turn → turn.next = .done →
      Move a r (a.record pc turn) r.ret (turn.spawned.map worker)
  | recoverStart : r.act = .recoverStart v →
      Move a r (a.deliver .stopped []) (r.goto (.receiving (.crashedStart v))) []
  | invokeEnd : r.act = .invoke f → f.msgs[f.i]? = none → Move a r a r.ret []
  | invokeGraceful : r.act = .invoke f → f.msgs[f.i]? = some ⟨.poisonPill ctx true, author⟩ →
      Move a r a (r.goto (.flush { f with nproc := f.nproc + 1 } (f.msgs.drop f.processed) ctx)) []
  | invokeStop : r.act = .invoke f → f.msgs[f.i]? = some ⟨.poisonPill ctx false, author⟩ →
      Move a r a (r.goto (.cleanup (.pill { f with nproc := f.nproc + 1 } ctx))) []
  | invokeUser : r.act = .invoke f → f.msgs[f.i]? = some ⟨.user msg, author⟩ →
      Move a r (a.invokeMsg msg author)
        (r.goto (.receiving (.message { f with nproc := f.nproc + 1 }))) []
  | flushEnd : r.act = .flush f [] ctx → Move a r a (r.goto (.cleanup (.pill f ctx))) []
  | flushPill : r.act = .flush f (⟨.poisonPill other graceful, author⟩ :: rest) ctx →
      Move a r a (r.goto (.flush f rest ctx)) []
  | flushUser : r.act = .flush f (⟨.user msg, author⟩ :: rest) ctx →
      Move a r (a.invokeMsg msg author) (r.goto (.receiving (.flush f rest ctx))) []
  | recoverInvoke : r.act = .recoverInvoke f v →
      Move a r (a.deliver .stopped []) (r.goto (.receiving (.crashedInvoke f v))) []
  | restartInternal : r.act = .tryRestart .internal → Move a r a (r.goto .start) []
  | restartLimit : r.act = .tryRestart .error → a.restarts = a.opts.maxRestarts →
      Move a r (a.broadcast .actorMaxRestartsExceeded) (r.goto (.cleanup .limit)) []
  | restart : r.act = .tryRestart .error → a.restarts ≠ a.opts.maxRestarts →
      Move a r a (r.goto .countRestart) []
  | countRestart : r.act = .countRestart →
      Move a r { a with restarts := a.restarts + 1 } (r.goto .announceRestart) []
  | announceRestart : r.act = .announceRestart →
      Move a r (a.broadcast (.actorRestarted a.restarts .error)) (r.goto .start) []
  | cleanup : r.act = .cleanup reason →
      Move a r { a with parent := false } (r.goto (.childrenLen reason)) []
  | someChildren : r.act = .childrenLen reason → 0 < a.children.length →
      Move a r a (r.goto (.makeChildren reason)) []
  | noChildren : r.act = .childrenLen reason → a.children = [] →
      Move a r a (r.goto (.stopInbox reason)) []
  | makeChildren : r.act = .makeChildren reason →
      Move a r a (r.goto (.fillChildren reason a.children.length)) []
  | fillChildren : r.act = .fillChildren reason size → a.children.length ≤ size →
      Move a r a (r.goto (.poison reason (a.children.map some ++
        List.replicate (size - a.children.length) none))) []
  | fillPanics : r.act = .fillChildren reason size → size < a.children.length →
      Move a r (a.abort r .error reason).1 (a.abort r .error reason).2 []
  | poisonEnd : r.act = .poison reason [] → Move a r a (r.goto (.stopInbox reason)) []
  | poison : r.act = .poison reason (child :: rest) →
      Move a r { a with poisoned := a.poisoned ++ child.toList } (r.goto (.poison reason rest)) []
  | stopInbox : r.act = .stopInbox reason →
      Move a r { a with inbox := { a.inbox with procStatus := .stopped } }
        (r.goto (.unregister reason)) []
  | unregister : r.act = .unregister reason →
      Move a r { a with registered := false } (r.goto (.stopping reason)) []
  | stopping : r.act = .stopping reason →
      Move a r (a.deliver .stopped (applyMiddleware [] a.opts.middleware))
        (r.goto (.receiving (.cleanup reason))) []
  | cancelPill : r.act = .cancel (.pill f ctx) →
      Move a r { a with cancelled := a.cancelled ++ [ctx] } r.ret []
  | cancelNil : r.act = .cancel .limit → Move a r a (r.escape .error) []

@[simp] theorem told_deliver (a : Actor M W) (chain : List W) (lifecycle : ∀ msg, message ≠ .user msg) :
    (a.deliver message chain).told = a.told := by
  rw [told, deliver, List.filterMap_append]
  cases message with
  | user msg => exact absurd rfl (lifecycle msg)
  | _ => exact List.append_nil _

@[simp] theorem told_invokeMsg (a : Actor M W) (msg : M) (sender : Option PID) :
    (a.invokeMsg msg sender).told = a.told ++ [(msg, sender)] := by
  rw [told, invokeMsg, deliver, List.filterMap_append]
  rfl

theorem loop_move {a : Actor M W} {r : Routine M} (position : r.act = .loop pc)
    (stepped : a.loop r pc = some (b, next, spawned)) : Move a r b next spawned := by
  by_cases batch : ∃ msgs, pc = .invoke msgs
  · obtain ⟨msgs, rfl⟩ := batch
    cases stepped
    exact .invoked position
  · have silent : pc.batch = [] := by
      cases pc <;> first | rfl | exact absurd ⟨_, rfl⟩ batch
    unfold loop at stepped
    split at stepped
    · exact absurd ⟨_, rfl⟩ batch
    · simp only [Option.bind_eq_bind, Option.bind_eq_some_iff, Option.pure_def,
        Option.some.injEq, Prod.mk.injEq] at stepped
      obtain ⟨turn, taken, rfl, rfl, rfl⟩ := stepped
      have move := Inbox.step_move taken
      split
      · exact .left position move (by assumption)
      · exact .looped position move (by assumption) silent

theorem inboxStart_move {a : Actor M W} {r : Routine M} (position : r.act = .inboxStart pc)
    (stepped : a.inboxStart r pc = some (b, next, spawned)) : Move a r b next spawned := by
  simp only [inboxStart, Option.bind_eq_bind, Option.bind_eq_some_iff, Option.pure_def,
    Option.some.injEq, Prod.mk.injEq] at stepped
  obtain ⟨turn, taken, rfl, rfl, rfl⟩ := stepped
  have move := Inbox.step_move taken
  split
  · exact .inboxStarted position move (by assumption)
  · exact .inboxStarting position move (by assumption)

theorem invoke_move (a : Actor M W) {r : Routine M} (position : r.act = .invoke f) :
    Move a r (a.invoke r f).1 (a.invoke r f).2 [] := by
  cases current : f.msgs[f.i]? with
  | none => simpa [invoke, current] using Move.invokeEnd position current
  | some envelope =>
    obtain ⟨msg, author⟩ := envelope
    cases msg with
    | user msg => simpa [invoke, current] using Move.invokeUser position current
    | poisonPill ctx graceful =>
      cases graceful
      · simpa [invoke, current] using Move.invokeStop position current
      · simpa [invoke, current] using Move.invokeGraceful position current

theorem flush_move (a : Actor M W) {r : Routine M} (position : r.act = .flush f rest ctx) :
    Move a r (a.flush r f rest ctx).1 (a.flush r f rest ctx).2 [] := by
  cases rest with
  | nil => exact .flushEnd position
  | cons envelope rest =>
    obtain ⟨msg, author⟩ := envelope
    cases msg with
    | user msg => exact .flushUser position
    | poisonPill other graceful => exact .flushPill position

theorem tryRestart_move (a : Actor M W) {r : Routine M} (position : r.act = .tryRestart v) :
    Move a r (a.tryRestart r v).1 (a.tryRestart r v).2 [] := by
  cases v with
  | internal => exact .restartInternal position
  | error =>
    by_cases limit : a.restarts = a.opts.maxRestarts
    · simpa [tryRestart, limit] using Move.restartLimit position limit
    · simpa [tryRestart, limit] using Move.restart position limit

theorem fillChildren_move (a : Actor M W) {r : Routine M}
    (position : r.act = .fillChildren reason size) :
    Move a r (a.fillChildren r reason size).1 (a.fillChildren r reason size).2 [] := by
  by_cases fits : a.children.length ≤ size
  · simpa [fillChildren, fits] using Move.fillChildren position fits
  · simpa [fillChildren, fits] using Move.fillPanics position (by omega)

theorem step_move {a : Actor M W} {r : Routine M} (stepped : a.step r = some (b, next, spawned)) :
    Move a r b next spawned := by
  cases position : r.act with
  | loop pc =>
    simp only [step, position] at stepped
    exact loop_move position stepped
  | inboxStart pc =>
    simp only [step, position] at stepped
    exact inboxStart_move position stepped
  | receiving site | returned | panicked v => simp [step, position] at stepped
  | childrenLen reason =>
    simp only [step, position, Option.some.injEq, Prod.mk.injEq] at stepped
    obtain ⟨rfl, rfl, rfl⟩ := stepped
    by_cases none : a.children = []
    · simpa [none] using Move.noChildren position none
    · have some := List.length_pos_iff.mpr none
      simpa [some] using Move.someChildren position some
  | poison reason rest =>
    cases rest <;> simp only [step, position, Option.some.injEq, Prod.mk.injEq] at stepped
    · obtain ⟨rfl, rfl, rfl⟩ := stepped
      exact .poisonEnd position
    · obtain ⟨rfl, rfl, rfl⟩ := stepped
      exact .poison position
  | cancel reason =>
    simp only [step, position, Option.some.injEq, Prod.mk.injEq] at stepped
    obtain ⟨rfl, rfl, rfl⟩ := stepped
    cases reason with
    | pill f ctx => exact .cancelPill position
    | limit => exact .cancelNil position
  | start | replayed | recoverStart v | invoke f | flush f rest ctx | recoverInvoke f v
  | tryRestart v | countRestart | announceRestart | cleanup reason | makeChildren reason
  | fillChildren reason size | stopInbox reason | unregister reason | stopping reason =>
    simp only [step, position, Option.some.injEq, Prod.mk.injEq] at stepped
    obtain ⟨rfl, rfl, rfl⟩ := stepped
    first
    | exact .start position
    | exact .replayed position
    | exact .recoverStart position
    | exact invoke_move a position
    | exact flush_move a position
    | exact .recoverInvoke position
    | exact tryRestart_move a position
    | exact .countRestart position
    | exact .announceRestart position
    | exact .cleanup position
    | exact .makeChildren position
    | exact fillChildren_move a position
    | exact .stopInbox position
    | exact .unregister position
    | exact .stopping position

end Actor
end Hollywood
