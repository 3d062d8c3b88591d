import Hollywood.Engine

/-! The calls of `Receive`. The context of an actor keeps its message and its sender apart:
`invokeMsg` writes both, while the places that deliver a lifecycle message write the message
only. Of these the deferred functions of `Invoke` and `Start` leave the middleware out. -/
namespace Hollywood
variable {M W : Type} [Inhabited M]

def Received.isUser : Received M → Bool
  | .user _ => true
  | _ => false

/-- What the receiver should see of an envelope: its message and its sender. -/
def Envelope.due : Envelope M → Option (Received M × Option PID)
  | ⟨.user msg, sender⟩ => some (.user msg, sender)
  | ⟨.poisonPill _ _, _⟩ => none

/-- What the receiver should see of the message that an action delivers; there is no sender
of a lifecycle message. -/
def Act.due : Act M → Action → Option (Received M × Option PID)
  | .start, .step => some (.initialized, none)
  | .receiving .initialized, .receive .returns => some (.started, none)
  | .recoverStart _, .step | .recoverInvoke _ _, .step | .stopping _, .step => some (.stopped, none)
  | .invoke f, .step => f.msgs[f.i]?.bind Envelope.due
  | .flush _ (envelope :: _) _, .step => envelope.due
  | _, _ => none

omit [Inhabited M] in
theorem Act.due_spawnChild (site : Site M) (child : PID) :
    (Act.receiving site).due (.spawnChild child) = none := by
  cases site with
  | _ => rfl

def Goroutine.due (action : Action) : Goroutine M → Option (Received M × Option PID)
  | .proc r => r.act.due action
  | .caller _ _ => none

/-- The position of a deferred function that has recovered a panic. -/
def Act.recovers : Act M → Bool
  | .recoverStart _ | .recoverInvoke _ _ => true
  | _ => false

def Goroutine.recovers : Goroutine M → Bool
  | .proc r => r.act.recovers
  | .caller _ _ => false

namespace Actor
variable {a b : Actor M W} {r next : Routine M} {spawned : List (Routine M)}

/-- What one action hands to the receiver, given whether it is a recovery and what it should
hand over. A user message comes with its own sender, which stays in the context, any other
with what is there; all come through the middleware but the Stopped of a recovery. -/
inductive Hands (a b : Actor M W) : Bool → Option (Received M × Option PID) → Prop where
  | nothing : b.opts = a.opts → b.log = a.log → b.sender = a.sender → Hands a b false none
  | user : b.opts = a.opts →
      b.log = a.log ++ [⟨k, .user msg, author, applyMiddleware [] a.opts.middleware⟩] →
      b.sender = author → Hands a b false (some (.user msg, author))
  | lifecycle : b.opts = a.opts →
      b.log = a.log ++ [⟨k, message, a.sender, applyMiddleware [] a.opts.middleware⟩] →
      b.sender = a.sender → message.isUser = false → Hands a b false (some (message, none))
  | recovery : b.opts = a.opts → b.log = a.log ++ [⟨k, .stopped, a.sender, []⟩] →
      b.sender = a.sender → Hands a b true (some (.stopped, none))

theorem Hands.opts {due : Option (Received M × Option PID)} (hands : Hands a b recovered due) :
    b.opts = a.opts := by
  cases hands with
  | nothing opts | user opts | lifecycle opts | recovery opts => exact opts

theorem abort_hands (a : Actor M W) (r : Routine M) (v : Panic) (reason : Reason M) :
    Hands a (a.abort r v reason).1 false none := by
  cases reason with
  | pill f ctx | limit => exact .nothing rfl rfl rfl

theorem Move.hands (move : Move a r b next spawned) : Hands a b r.act.recovers (r.act.due .step) := by
  cases move with
  | start position | stopping position =>
    rw [position]
    exact .lifecycle rfl rfl rfl rfl
  | recoverStart position | recoverInvoke position =>
    rw [position]
    exact .recovery rfl rfl rfl
  | invokeUser position current =>
    rw [position, Act.due, current]
    exact .user rfl rfl rfl
  | flushUser position =>
    rw [position]
    exact .user rfl rfl rfl
  | invokeEnd position current | invokeGraceful position current | invokeStop position current =>
    rw [position, Act.due, current]
    exact .nothing rfl rfl rfl
  | fillPanics position _ =>
    rw [position]
    exact abort_hands a r .error _
  | _ position =>
    rw [position]
    exact .nothing rfl rfl rfl

theorem resume_hands (a : Actor M W) (r : Routine M) (site : Site M) (outcome : Outcome) :
    Hands a (a.resume r site outcome).1 false ((Act.receiving site).due (.receive outcome)) := by
  cases outcome with
  | returns =>
    cases site with
    | initialized => exact .lifecycle rfl rfl rfl rfl
    | started =>
      rw [resume]
      split
      · exact .nothing rfl rfl rfl
      · exact .nothing rfl rfl rfl
    | message f | flush f rest ctx | crashedInvoke f v | crashedStart v | cleanup reason =>
      exact .nothing rfl rfl rfl
  | panics v =>
    cases site with
    | cleanup reason => exact abort_hands a r v reason
    | initialized | started | message f | flush f rest ctx | crashedInvoke f v | crashedStart v =>
      exact .nothing rfl rfl rfl

theorem Advance.hands {g h : Goroutine M} {action : Action} {others : List (Goroutine M)}
    (advance : Advance a g action b h others) : Hands a b g.recovers (g.due action) := by
  cases advance with
  | moved move => exact move.hands
  | resumed position =>
    rw [Goroutine.recovers, Goroutine.due, position]
    exact resume_hands a _ _ _
  | spawnedChild position =>
    rw [Goroutine.recovers, Goroutine.due, position, Act.due_spawnChild]
    exact .nothing rfl rfl rfl
  | accepted | rejected | found | missing | mailed | returned => exact .nothing rfl rfl rfl

end Actor

namespace Engine

/-- What the receiver should see of the message that a step delivers, if it does. -/
def due (s : State M W) : Label M → Option (Received M × Option PID)
  | .act i action => s.pool[i]?.bind (Goroutine.due action)
  | .call _ | .childStopped _ => none

/-- The step of a goroutine that has recovered a panic. -/
def recovering (s : State M W) : Label M → Bool
  | .act i _ => s.pool[i]?.any Goroutine.recovers
  | .call _ | .childStopped _ => false

theorem step_hands {s t : State M W} {label : Label M} (stepped : s.step label = some t) :
    s.actor.Hands t.actor (recovering s label) (due s label) := by
  rcases step_cases stepped with ⟨call, rfl, rfl⟩ | ⟨child, rfl, rfl⟩ |
    ⟨i, action, g, b, next, spawned, rfl, found, advance, rfl⟩
  · exact .nothing rfl rfl rfl
  · exact .nothing rfl rfl rfl
  · rw [recovering, due, found, Option.any_some, Option.bind_some]
    exact advance.hands

end Engine
end Hollywood
