import Hollywood.Engine.Deliveries
import Hollywood.Engine.Lifecycle

/-! The middleware around the receiver. Of the places that call `Receive` the deferred
functions of `Invoke` and `Start` leave it out. -/
namespace Hollywood
open Transition
variable {M W : Type} [Inhabited M]

namespace Engine

/-- Runs in which no panic is recovered, and all runs of an actor without middleware. -/
def unrecovered (s : State M W) (label : Label M) : Bool :=
  s.actor.opts.middleware.isEmpty || !recovering s label

/-- Every delivery so far went through the whole chain. -/
def Wrapped (s : State M W) : Prop := ∀ d ∈ s.actor.log, d.chain = s.actor.opts.middleware

/-- A step loses the property only by a recovery past some middleware. -/
theorem wrapped_step {s t : State M W} {label : Label M} (stepped : s.step label = some t) :
    Wrapped t ↔ Wrapped s ∧ unrecovered s label = true := by
  have hands := step_hands stepped
  rw [unrecovered, Wrapped, hands.opts, Wrapped]
  generalize recovering s label = recovered at hands ⊢
  generalize due s label = due at hands
  cases hands with
  | nothing _ log => simp [log]
  | user _ log | lifecycle _ log =>
    rw [log, List.forall_mem_append, List.forall_mem_singleton, Bool.not_false, Bool.or_true]
    exact and_congr_right fun _ => iff_of_true List.foldr_cons_nil rfl
  | recovery _ log =>
    rw [log, List.forall_mem_append, List.forall_mem_singleton, Bool.not_true, Bool.or_false,
      List.isEmpty_iff]
    exact and_congr_right fun _ => eq_comm

/-- For every list of middleware and every run of an actor: each message its receiver got
came through all the middleware in order if and only if the run recovered no panic or there
is no middleware. -/
theorem middleware_passed_iff (opts : Opts W) (positive : 0 < opts.inboxSize) (parent : Bool)
    (labels : List (Label M)) (s : State M W)
    (ran : run State.step (initial opts positive parent) labels = some s) :
    (∀ d ∈ s.actor.log, d.chain = opts.middleware) ↔
      run (restrict unrecovered State.step) (initial opts positive parent)
        labels = some s := by
  have kept : s.actor.opts = opts := by
    refine (reaches_of_run ran).invariant (P := fun s => s.actor.opts = opts) ?_ rfl
    intro s label t same stepped
    exact (step_hands stepped).opts.trans same
  have exact_ := holds_iff_restrict (I := fun _ => True) (P := Wrapped)
    (fun _ _ => trivial) (fun _ stepped => wrapped_step stepped) trivial ran
  have silent : Wrapped (initial opts positive parent : State M W) := List.forall_mem_nil _
  rw [Wrapped, kept] at exact_
  exact exact_.trans (and_iff_right silent)

/-- Without a panic the lifecycle messages and a message come through both. -/
def messageDelivered : List (Label Nat) :=
  [.call (.send 1 none)] ++ steps 1 3 ++ steps 0 1 ++ [returns 0, returns 0] ++ steps 0 3 ++
    steps 2 4 ++ [returns 2]

theorem middleware_passed_iff_delivered :
    ∃ s : State Nat Nat, s.actor.log.map (·.message) = [.initialized, .started, .user 1] ∧
      ∀ d ∈ s.actor.log, d.chain = [7, 8] := by
  obtain ⟨s, ran, ends⟩ := (Option.any_eq_true (fun s : State Nat Nat =>
      decide (s.actor.log.map (·.message) = [.initialized, .started, .user 1]))
    (run (restrict unrecovered State.step)
      (initial ⟨3, 1, [7, 8]⟩ Nat.one_pos false) messageDelivered)).mp (by decide)
  refine ⟨s, of_decide_eq_true ends, ?_⟩
  exact (middleware_passed_iff ⟨3, 1, [7, 8]⟩ Nat.one_pos false messageDelivered s
    (run_of_restrict ran)).mpr ran

/-- The Stopped that follows a panic reaches the receiver without the middleware, from
`Start` and from `Invoke`; the one that `cleanup` delivers does not. -/
theorem stopped_past_middleware :
    (run State.step (initial ⟨3, 1, [7]⟩ Nat.one_pos false : State Nat Nat)
        [.act 0 .step, .act 0 (.receive (.panics .error)), .act 0 .step]).map
      (fun s => s.actor.log.map fun d => (d.message, d.chain)) =
        some [(.initialized, [7]), (.stopped, [])] ∧
    (run State.step (initial ⟨0, 1, [7]⟩ Nat.one_pos false : State Nat Nat)
        panicBeyondLimit).map (fun s => s.actor.log.map fun d => (d.message, d.chain)) =
      some [(.initialized, [7]), (.started, [7]), (.user 1, [7]), (.stopped, []),
        (.stopped, [7])] := by
  decide

end Engine
end Hollywood
