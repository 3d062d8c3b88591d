import Hollywood.Engine.Deliveries
import Hollywood.Engine.Exclusion

/-! The sender in the context of an actor. Lifecycle messages come with the one that is
there. There is one context, so a second goroutine inside the process would write what the
receiver called by the first one is still to read. -/
namespace Hollywood
open Transition
variable {M W : Type} [Inhabited M]

/-- The receiver is running, and may read its context. -/
def Goroutine.inReceive : Goroutine M → Bool
  | .proc ⟨_, _, .receiving _⟩ => true
  | _ => false

omit [Inhabited M] in
theorem Goroutine.inReceive_inProcess {g : Goroutine M} (inReceive : g.inReceive = true) :
    g.inProcess = true := by
  unfold Goroutine.inReceive at inReceive
  split at inReceive
  · rfl
  · cases inReceive

omit [Inhabited M] in
/-- A user message is delivered by `Invoke`, outside of the receiver. -/
theorem Goroutine.due_user {g : Goroutine M} {action : Action}
    (due : g.due action = some (.user msg, author)) : g.inProcess = true ∧ g.inReceive = false := by
  cases g with
  | caller request pc => cases due
  | proc r =>
    obtain ⟨base, replays, act⟩ := r
    cases act with
    | loop pc | inboxStart pc | returned | panicked v => cases due
    | receiving site =>
      cases action with
      | step | spawnChild child => cases site <;> cases due
      | receive outcome => cases site <;> cases outcome <;> cases due
    | _ => exact ⟨rfl, rfl⟩

namespace Actor
variable {a b : Actor M W} {r next : Routine M} {spawned : List (Routine M)}

/-- The sender of the last user message that the actor got. -/
def lastSender (a : Actor M W) : Option PID :=
  (a.log.filter (·.message.isUser)).getLast?.bind (·.sender)

variable {due : Option (Received M × Option PID)}

/-- The context keeps the sender of the last user message. -/
theorem Hands.kept (hands : Hands a b recovered due) (kept : a.sender = a.lastSender) :
    b.sender = b.lastSender := by
  cases hands with
  | nothing _ log sender => rw [lastSender, sender, log, kept, lastSender]
  | user _ log sender => simp [lastSender, log, sender, Received.isUser]
  | lifecycle _ log sender lifecycle => simp [lastSender, sender, log, kept, lifecycle]
  | recovery _ log sender => simp [lastSender, sender, log, kept, Received.isUser]

/-- Only a user message changes the sender in the context. -/
theorem Hands.sender (hands : Hands a b recovered due) :
    b.sender = a.sender ∨ ∃ msg author, due = some (.user msg, author) := by
  cases hands with
  | nothing _ _ sender | lifecycle _ _ sender | recovery _ _ sender => exact .inl sender
  | user => exact .inr ⟨_, _, rfl⟩

/-- A message is seen with its own sender if and only if it is a user message or there is
no sender in the context. -/
theorem Hands.exact_iff (hands : Hands a b recovered due) :
    b.log[a.log.length]?.map (fun d => (d.message, d.sender)) = due ↔
      ∀ x ∈ due, x.1.isUser = false → a.sender = none := by
  cases hands with
  | nothing _ log => simp [log]
  | user _ log => simp [log, Received.isUser]
  | lifecycle _ log _ lifecycle => simp [log, lifecycle]
  | recovery _ log => simp [log, Received.isUser]

end Actor

namespace Engine

/-- The call of `Receive` that a step makes, if it does. -/
def delivered (s : State M W) (label : Label M) : Option (Delivery M W) :=
  (s.step label).bind fun t => t.actor.log[s.actor.log.length]?

/-- When the receiver is called, the message and the sender in the context belong together,
and a call of the receiver that goes on meanwhile keeps the sender that it has. -/
def Current (s : State M W) (label : Label M) : Prop :=
  (delivered s label).map (fun d => (d.message, d.sender)) = due s label ∧
    ∀ t (j : Nat) (g : Goroutine M), s.step label = some t → s.pool[j]? = some g →
      t.pool[j]? = some g → g.inReceive = true → t.actor.sender = s.actor.sender

/-- When a lifecycle message is delivered, the last user message before it, if there was
one, had no sender. -/
def Unaddressed (s : State M W) (label : Label M) : Prop :=
  ∀ x ∈ due s label, x.1.isUser = false → s.actor.lastSender = none

instance (s : State M W) (label : Label M) : Decidable (Unaddressed s label) :=
  inferInstanceAs (Decidable (∀ x ∈ due s label, _))

/-- While one goroutine at a time is inside the process, the call of the receiver that it
is in keeps its sender. -/
theorem step_keeps_sender {s t : State M W} {label : Label M} {j : Nat} (single : alone s label = true)
    (stepped : s.step label = some t) (calling : s.pool[j]? = some g) (inReceive : g.inReceive = true) :
    t.actor.sender = s.actor.sender := by
  rcases (step_hands stepped).sender with same | ⟨msg, author, delivers⟩
  · exact same
  · cases label with
    | call call | childStopped child => cases delivers
    | act i action =>
      obtain ⟨mover, found, delivers⟩ := Option.bind_eq_some_iff.mp delivers
      obtain ⟨inProcess, outside⟩ := Goroutine.due_user delivers
      have here := Pool.index_unique (of_decide_eq_true single) found calling inProcess
        (Goroutine.inReceive_inProcess inReceive)
      subst here
      cases found.symm.trans calling
      rw [inReceive] at outside
      cases outside

/-- For every run of an actor in which one goroutine at a time is inside the process: at
every call of `Receive`, and until it ends, the sender in the context is that of the
envelope that is delivered, and nil for a lifecycle message, if and only if no lifecycle
message follows a user message with a sender before another user message without one. -/
theorem sender_current_iff (opts : Opts W) (positive : 0 < opts.inboxSize) (parent : Bool)
    (labels : List (Label M)) (s : State M W)
    (ran : run (restrict alone State.step) (initial opts positive parent) labels = some s) :
    Steps (restrict alone State.step) Current (initial opts positive parent : State M W) labels ↔
      Steps (restrict alone State.step) Unaddressed (initial opts positive parent : State M W) labels := by
  refine steps_congr (I := fun s => s.actor.sender = s.actor.lastSender) ?_ ?_ rfl ran
  · intro s label t kept stepped
    exact (step_hands (restrict_some stepped).2).kept kept
  · intro s label t kept stepped
    obtain ⟨single, stepped⟩ := restrict_some stepped
    have undisturbed : ∀ u (j : Nat) (g : Goroutine M), s.step label = some u →
        s.pool[j]? = some g → u.pool[j]? = some g → g.inReceive = true → u.actor.sender = s.actor.sender :=
      fun u j g moved calling _ inReceive => step_keeps_sender single moved calling inReceive
    rw [Current, and_iff_left undisturbed, delivered, stepped, Option.bind_some,
      (step_hands stepped).exact_iff, kept, Unaddressed]

/-- A message with a sender, one without, and a stop. -/
def askedFirst : List (Label Nat) :=
  [.call (.send 1 (some ⟨"h:1", "a"⟩)), .call (.send 2 none), .call .stop] ++ steps 1 3 ++
    steps 2 3 ++ steps 3 4 ++ steps 0 1 ++ [returns 0, returns 0] ++ steps 0 3 ++ steps 4 4 ++
    [returns 4] ++ steps 4 1 ++ [returns 4] ++ steps 4 6

theorem sender_current_iff_asked_first :
    ∃ s : State Nat Nat, s.actor.log.length = 5 ∧
      run (restrict alone State.step) (initial ⟨3, 1, []⟩ Nat.one_pos false)
        askedFirst = some s ∧
      Steps (restrict alone State.step) Current
        (initial ⟨3, 1, []⟩ Nat.one_pos false : State Nat Nat) askedFirst := by
  obtain ⟨s, ran, ends⟩ := (Option.any_eq_true (fun s : State Nat Nat =>
      decide (s.actor.log.length = 5))
    (run (restrict (fun s label => decide (Unaddressed s label)) (restrict alone State.step))
      (initial ⟨3, 1, []⟩ Nat.one_pos false) askedFirst)).mp (by decide)
  have single := run_of_restrict ran
  refine ⟨s, of_decide_eq_true ends, single, ?_⟩
  exact (sender_current_iff ⟨3, 1, []⟩ Nat.one_pos false askedFirst s single).mpr
    (steps_of_restrict of_decide_eq_true ran)

/-- The Stopped of a stop that follows a message with a sender comes with that sender; so
do the Stopped, the Initialized and the Started that follow a panic. -/
theorem lifecycle_with_sender :
    (run State.step (initial ⟨3, 1, []⟩ Nat.one_pos false : State Nat Nat)
        ([.call (.send 1 (some ⟨"h:1", "a"⟩)), .call .stop] ++ steps 1 3 ++ steps 2 4 ++
          steps 0 1 ++ [returns 0, returns 0] ++ steps 0 3 ++ steps 3 4 ++ [returns 3] ++
          steps 3 6)).map (fun s => s.actor.log.map fun d => (d.message, d.sender)) =
      some [(.initialized, none), (.started, none), (.user 1, some ⟨"h:1", "a"⟩),
        (.stopped, some ⟨"h:1", "a"⟩)] ∧
    (run State.step (initial ⟨3, 1, []⟩ Nat.one_pos false : State Nat Nat)
        ([.call (.send 1 (some ⟨"h:1", "a"⟩))] ++ steps 1 3 ++ steps 0 1 ++
          [returns 0, returns 0] ++ steps 0 3 ++ steps 2 4 ++
          [.act 2 (.receive (.panics .error))] ++ steps 2 1 ++ [returns 2] ++ steps 2 4 ++
          [returns 2])).map (fun s => s.actor.log.map fun d => (d.message, d.sender)) =
      some [(.initialized, none), (.started, none), (.user 1, some ⟨"h:1", "a"⟩),
        (.stopped, some ⟨"h:1", "a"⟩), (.initialized, some ⟨"h:1", "a"⟩),
        (.started, some ⟨"h:1", "a"⟩)] := by
  decide

end Engine
end Hollywood
