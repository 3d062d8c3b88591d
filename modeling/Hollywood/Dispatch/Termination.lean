import Hollywood.Dispatch

/-! Whether sending comes to an end. What cannot be delivered is broadcast as an event,
which is sent in turn: to the event stream, or through the stream router if that is a PID of
another node. The calls end when one of these PIDs has a process. -/
namespace Hollywood.Dispatch

/-- The calls that send a message. -/
inductive Sending (M : Type) where
  | send (pid : Option PID) (msg : Message M) (sender : Option PID)
  | sendLocal (pid : Option PID) (msg : Message M) (sender : Option PID)
  | sendPriorityLocal (pid : Option PID) (msg : Message M) (sender : Option PID)
  | broadcastEvent (msg : Message M)
  | sendPoisonPill (ctx : Nat) (graceful : Bool) (pid : Option PID)
  deriving DecidableEq, Repr

namespace Engine
variable {M : Type}

/-- A call with room for `stack` nested calls of `send`. -/
def perform (stack : Nat) (e : Engine M) : Sending M → Result M
  | .send pid msg sender => e.send stack pid msg sender
  | .sendLocal pid msg sender => e.sendLocal (send stack) pid msg sender
  | .sendPriorityLocal pid msg sender => e.sendPriorityLocal (send stack) pid msg sender
  | .broadcastEvent msg => e.broadcastEvent (send stack) msg
  | .sendPoisonPill ctx graceful pid => e.sendPoisonPill stack ctx graceful pid

/-- What is sent to the PID gets to a process of this engine; to nil nothing is sent. -/
def arrives (e : Engine M) : Option PID → Bool
  | none => true
  | some pid => e.isLocalMessage pid && (e.registry pid.id).isSome

/-- There is no event stream, or it has a process, or it is one of another node and the
stream router has a process. -/
def hears (e : Engine M) : Bool :=
  e.eventStream.all fun stream => e.arrives (some stream) ||
    !e.isLocalMessage stream && e.remote.any fun remote => e.arrives remote.streamRouterPID

/-- The stream router has a process, or it is local and there is no event stream or one that
has a process. -/
def routes (e : Engine M) (remote : Remoter) : Bool :=
  e.arrives remote.streamRouterPID ||
    remote.streamRouterPID.any e.isLocalMessage && e.eventStream.all fun stream => e.arrives (some stream)

/-- The process that a call is for is there, or what takes its place is. -/
def settles (e : Engine M) : Sending M → Bool
  | .send none _ _ => true
  | .send (some pid) _ _ =>
    if e.isLocalMessage pid then (e.registry pid.id).isSome || e.hears
    else match e.remote with
      | none => e.hears
      | some remote => e.routes remote
  | .sendLocal pid _ _ | .sendPriorityLocal pid _ _ | .sendPoisonPill _ _ pid => (e.get pid).isSome || e.hears
  | .broadcastEvent _ => e.hears

/-- The PID that a message, or an event about it, is sent to next. -/
def relay (e : Engine M) (pid : PID) : Option PID :=
  if e.isLocalMessage pid then
    if (e.registry pid.id).isSome then none else e.eventStream
  else match e.remote with
    | none => e.eventStream
    | some remote => remote.streamRouterPID

variable {e : Engine M}

theorem send_relay {pid next : PID} (relayed : e.relay pid = some next) (stack : Nat) (msg : Message M)
    (sender : Option PID) :
    ∃ msg' sender', e.send (stack + 1) (some pid) msg sender = e.send stack (some next) msg' sender' := by
  rw [relay] at relayed
  rw [send]
  split at relayed
  · rename_i near
    rw [if_pos near, sendLocal]
    split at relayed
    · cases relayed
    · rename_i missing
      simp only [get_missing (Option.not_isSome_iff_eq_none.mp missing), broadcastEvent, relayed]
      exact ⟨_, _, rfl⟩
  · rename_i away
    rw [if_neg away]
    cases has : e.remote with
    | none =>
      rw [has] at relayed
      simp only [broadcastEvent, relayed]
      exact ⟨_, _, rfl⟩
    | some remote =>
      rw [has] at relayed
      simp only [remoteSend, relayed]
      exact ⟨_, _, rfl⟩

/-- From PIDs that relay to each other no call returns, however much room there is. -/
theorem send_endless {P : PID → Prop} (closed : ∀ pid, P pid → ∃ next, e.relay pid = some next ∧ P next)
    {pid : PID} (inside : P pid) (stack : Nat) (msg : Message M) (sender : Option PID) :
    (e.send stack (some pid) msg sender).returned = false := by
  induction stack generalizing pid msg sender with
  | zero => rfl
  | succ stack ih =>
    obtain ⟨next, relayed, within⟩ := closed pid inside
    obtain ⟨msg', sender', same⟩ := send_relay relayed stack msg sender
    rw [same]
    exact ih within msg' sender'

theorem send_arrives {pid : Option PID} (arrives : e.arrives pid = true) (stack : Nat) (msg : Message M)
    (sender : Option PID) : (e.send (stack + 1) pid msg sender).returned = true := by
  cases pid with
  | none => rfl
  | some pid =>
    obtain ⟨near, present⟩ := Bool.and_eq_true_iff.mp arrives
    obtain ⟨mailbox, found⟩ := Option.isSome_iff_exists.mp present
    rw [send, if_pos near, sendLocal, get_registered found]

theorem exists_of_missing {pid : Option PID} (missing : e.arrives pid = false) :
    ∃ target, pid = some target := by
  cases pid with
  | none => cases missing
  | some target => exact ⟨target, rfl⟩

theorem relay_local {pid : PID} (missing : e.arrives (some pid) = false) (near : e.isLocalMessage pid = true) :
    e.relay pid = e.eventStream := by
  rw [arrives, near, Bool.true_and] at missing
  rw [relay, if_pos near, if_neg (by simp [missing])]

theorem relay_remote {pid : PID} {remote : Remoter} (away : e.isLocalMessage pid = false)
    (has : e.remote = some remote) : e.relay pid = remote.streamRouterPID := by
  rw [relay, if_neg (by simp [away]), has]

theorem broadcastEvent_returns (hears : e.hears = true) (stack : Nat) (msg : Message M) :
    (e.broadcastEvent (send (stack + 2)) msg).returned = true := by
  rw [broadcastEvent]
  cases known : e.eventStream with
  | none => rfl
  | some stream =>
    rw [Engine.hears, known, Option.all_some, Bool.or_eq_true] at hears
    rcases hears with arrives | routed
    · exact send_arrives arrives (stack + 1) msg none
    · obtain ⟨away, routed⟩ := Bool.and_eq_true_iff.mp routed
      obtain ⟨remote, has, arrives⟩ := (Option.any_eq_true _ _).mp routed
      have distant : ¬ e.isLocalMessage stream = true := by simpa using away
      change (e.send (stack + 1 + 1) (some stream) msg none).returned = true
      rw [send, if_neg distant, has]
      exact send_arrives arrives stack _ none

theorem broadcastEvent_endless (deaf : e.hears = false) (stack : Nat) (msg : Message M) :
    (e.broadcastEvent (send stack) msg).returned = false := by
  rw [broadcastEvent]
  cases known : e.eventStream with
  | none => simp [hears, known] at deaf
  | some stream =>
    rw [hears, known, Option.all_some, Bool.or_eq_false_iff] at deaf
    obtain ⟨missing, unrouted⟩ := deaf
    -- the event stream and, where it is one of another node, the stream router
    refine send_endless (P := fun pid => pid = stream ∨ e.isLocalMessage stream = false ∧
      ∃ remote, e.remote = some remote ∧ remote.streamRouterPID = some pid) ?_ (.inl rfl) stack msg none
    rintro pid (rfl | ⟨away, remote, has, router⟩)
    · cases near : e.isLocalMessage pid with
      | true => exact ⟨pid, (relay_local missing near).trans known, .inl rfl⟩
      | false =>
        rw [near, Bool.not_false, Bool.true_and] at unrouted
        cases has : e.remote with
        | none => exact ⟨pid, by rw [relay, near, has, known]; rfl, .inl rfl⟩
        | some remote =>
          rw [has, Option.any_some] at unrouted
          obtain ⟨next, router⟩ := exists_of_missing unrouted
          exact ⟨next, (relay_remote near has).trans router, .inr ⟨rfl, remote, rfl, router⟩⟩
    · rw [away, Bool.not_false, Bool.true_and, has, Option.any_some, router] at unrouted
      cases near : e.isLocalMessage pid with
      | true => exact ⟨stream, (relay_local unrouted near).trans known, .inl rfl⟩
      | false => exact ⟨pid, (relay_remote near has).trans router, .inr ⟨away, remote, has, router⟩⟩

theorem router_returns {remote : Remoter} (routes : e.routes remote = true) (stack : Nat) (msg : Message M)
    (sender : Option PID) : (e.send (stack + 3) remote.streamRouterPID msg sender).returned = true := by
  rw [Engine.routes, Bool.or_eq_true] at routes
  rcases routes with arrives | substituted
  · exact send_arrives arrives (stack + 2) msg sender
  · obtain ⟨near, heard⟩ := Bool.and_eq_true_iff.mp substituted
    obtain ⟨router, known, near⟩ := (Option.any_eq_true _ _).mp near
    rw [known]
    cases found : e.registry router.id with
    | some mailbox => exact send_arrives (by rw [Engine.arrives, near, found]; rfl) (stack + 2) msg sender
    | none =>
      have hears : e.hears = true := by
        rw [Engine.hears]
        cases known : e.eventStream with
        | none => rfl
        | some stream =>
          rw [known, Option.all_some] at heard
          rw [Option.all_some, heard, Bool.true_or]
      change (e.send (stack + 2 + 1) (some router) msg sender).returned = true
      rw [send, if_pos near, sendLocal, get_missing found]
      exact broadcastEvent_returns hears stack _

theorem router_endless {remote : Remoter} (has : e.remote = some remote) (unrouted : e.routes remote = false)
    (stack : Nat) (msg : Message M) (sender : Option PID) :
    (e.send stack remote.streamRouterPID msg sender).returned = false := by
  rw [routes, Bool.or_eq_false_iff] at unrouted
  obtain ⟨missing, unheard⟩ := unrouted
  obtain ⟨router, known⟩ := exists_of_missing missing
  rw [known] at missing unheard ⊢
  rw [Option.any_some] at unheard
  -- the stream router and, where it is local, the event stream that gets its dead letters
  refine send_endless (P := fun pid => pid = router ∨ e.eventStream = some pid ∧
    e.isLocalMessage router = true ∧ e.arrives (some pid) = false) ?_ (.inl rfl) stack msg sender
  rintro pid (rfl | ⟨stream, near, gone⟩)
  · cases near : e.isLocalMessage pid with
    | false => exact ⟨pid, (relay_remote near has).trans known, .inl rfl⟩
    | true =>
      rw [near, Bool.true_and] at unheard
      cases stream : e.eventStream with
      | none => simp [stream] at unheard
      | some next =>
        rw [stream, Option.all_some] at unheard
        exact ⟨next, (relay_local missing near).trans stream, .inr ⟨rfl, rfl, unheard⟩⟩
  · cases close : e.isLocalMessage pid with
    | true => exact ⟨pid, (relay_local gone close).trans stream, .inr ⟨stream, near, gone⟩⟩
    | false => exact ⟨router, (relay_remote close has).trans known, .inl rfl⟩

theorem undelivered_returns {pid : Option PID} (settles : ((e.get pid).isSome || e.hears) = true)
    (missing : e.get pid = none) (stack : Nat) (msg : Message M) :
    (e.broadcastEvent (send (stack + 3)) msg).returned = true := by
  rw [missing, Option.isSome_none, Bool.false_or] at settles
  exact broadcastEvent_returns settles (stack + 1) msg

theorem perform_returns {call : Sending M} (settles : e.settles call = true) (stack : Nat) :
    (e.perform (stack + 4) call).returned = true := by
  cases call with
  | broadcastEvent msg => exact broadcastEvent_returns settles (stack + 2) msg
  | sendLocal pid msg sender =>
    rw [perform, sendLocal]
    cases found : e.get pid with
    | some id => rfl
    | none => exact undelivered_returns settles found (stack + 1) _
  | sendPriorityLocal pid msg sender =>
    rw [perform, sendPriorityLocal]
    cases found : e.get pid with
    | some id => rfl
    | none => exact undelivered_returns settles found (stack + 1) _
  | sendPoisonPill ctx graceful pid =>
    rw [perform, sendPoisonPill]
    cases found : e.get pid with
    | some id => simp only [sendLocal, found]
    | none => exact undelivered_returns settles found (stack + 1) _
  | send pid msg sender =>
    cases pid with
    | none => rfl
    | some pid =>
      change (e.send (stack + 3 + 1) (some pid) msg sender).returned = true
      rw [Engine.settles] at settles
      rw [send]
      by_cases near : e.isLocalMessage pid = true
      · rw [if_pos near] at settles ⊢
        rw [sendLocal]
        cases found : e.registry pid.id with
        | some mailbox => rw [get_registered found]
        | none =>
          rw [found, Option.isSome_none, Bool.false_or] at settles
          rw [get_missing found]
          exact broadcastEvent_returns settles (stack + 1) _
      · rw [if_neg near] at settles ⊢
        cases has : e.remote with
        | none =>
          rw [has] at settles
          exact broadcastEvent_returns settles (stack + 1) _
        | some remote =>
          rw [has] at settles
          exact router_returns settles stack _ none

theorem missing_of_unsettled {α : Type} {found : Option α} (unsettled : (found.isSome || e.hears) = false) :
    found = none ∧ e.hears = false := by
  obtain ⟨missing, deaf⟩ := Bool.or_eq_false_iff.mp unsettled
  exact ⟨Option.isNone_iff_eq_none.mp (Option.isSome_eq_false_iff.mp missing), deaf⟩

theorem perform_endless {call : Sending M} (unsettled : e.settles call = false) (stack : Nat) :
    (e.perform stack call).returned = false := by
  cases call with
  | broadcastEvent msg => exact broadcastEvent_endless unsettled stack msg
  | sendLocal pid msg sender =>
    obtain ⟨missing, deaf⟩ := missing_of_unsettled unsettled
    rw [perform, sendLocal, missing]
    exact broadcastEvent_endless deaf stack _
  | sendPriorityLocal pid msg sender =>
    obtain ⟨missing, deaf⟩ := missing_of_unsettled unsettled
    rw [perform, sendPriorityLocal, missing]
    exact broadcastEvent_endless deaf stack _
  | sendPoisonPill ctx graceful pid =>
    obtain ⟨missing, deaf⟩ := missing_of_unsettled unsettled
    rw [perform, sendPoisonPill, missing]
    exact broadcastEvent_endless deaf stack _
  | send pid msg sender =>
    cases pid with
    | none => cases unsettled
    | some pid =>
      cases stack with
      | zero => rfl
      | succ stack =>
        rw [Engine.settles] at unsettled
        rw [perform, send]
        by_cases near : e.isLocalMessage pid = true
        · rw [if_pos near] at unsettled ⊢
          obtain ⟨missing, deaf⟩ := missing_of_unsettled unsettled
          rw [sendLocal, get_missing missing]
          exact broadcastEvent_endless deaf stack _
        · rw [if_neg near] at unsettled ⊢
          cases has : e.remote with
          | none =>
            rw [has] at unsettled
            exact broadcastEvent_endless unsettled stack _
          | some remote =>
            rw [has] at unsettled
            exact router_endless has unsettled stack _ none

end Engine

/-- For every engine, every content of its registry and every call: the call makes finitely
many nested calls and returns if and only if the process that it is for is there, or what
takes its place is. Four nested calls of `send` are enough then. -/
theorem sending_returns_iff (e : Engine M) (call : Sending M) :
    (∃ bound, ∀ stack, bound ≤ stack → (e.perform stack call).returned = true) ↔ e.settles call = true := by
  constructor
  · rintro ⟨bound, returns⟩
    by_contra unsettled
    have endless := Engine.perform_endless (Bool.not_eq_true _ ▸ unsettled) bound
    rw [returns bound le_rfl] at endless
    cases endless
  · intro settles
    refine ⟨4, ?_⟩
    intro stack room
    obtain ⟨rest, rfl⟩ := Nat.exists_eq_add_of_le' room
    exact Engine.perform_returns settles rest

/-- The process of the event stream has been removed from the registry. -/
def streamStopped : Engine Nat where
  address := "local"
  eventStream := some ⟨"local", "eventstream/1"⟩
  remote := none
  registry := fun id => if id = "a/1" then some [] else none

/-- The event that its own `cleanup` broadcasts then never returns, nor does a message to an
actor that is gone. -/
theorem stopped_stream_recurses :
    (∀ stack, (streamStopped.perform stack (.broadcastEvent (.user 0))).returned = false) ∧
      ∀ stack, (streamStopped.perform stack
        (.send (some ⟨"local", "gone/1"⟩) (.user 1) none)).returned = false := by
  constructor
  · exact Engine.perform_endless rfl
  · exact Engine.perform_endless rfl

end Hollywood.Dispatch
