import Hollywood.Tree.Registry

/-! Actors that follow one another under one id. `cleanup` frees the id before it
delivers `Stopped`: whoever spawns the id in between starts the next actor while the
previous one is still saving its state. -/
namespace Hollywood
variable {M W : Type} [Inhabited M]

def Event.isActorStopped : Event M → Bool
  | .actorStopped => true
  | _ => false

/-- The receiver has returned from its final `Stopped`: the event that follows was
broadcast. -/
def Actor.hasStopped (a : Actor M W) : Bool := a.events.any Event.isActorStopped

namespace Tree
open Transition
variable {id : String} {n m : Nat}

/-- No actor of this id is between its removal from the registry and the end of its
`Stopped`. -/
def State.vacated (s : State M W) (pid : PID) : Bool :=
  s.nodes.all fun node => node.pid.id ≠ pid.id || node.engine.actor.registered ||
    node.engine.actor.hasStopped

/-- An id is asked for only when it is vacated. -/
def spawnsVacated (s : State M W) : Label M W → Bool
  | .spawn kind id _ => s.vacated (newPID s.address kind id)
  | .act n _ (.spawnChild name id _) =>
    s.nodes[n]?.all fun node => s.vacated (newPID s.address (node.pid.id ++ pidSeparator ++ name) id)
  | _ => true

theorem look_length {s : State M W} {nodes : List (Node M W)} (look : Look s target call pc nodes pc') :
    nodes.length = s.nodes.length := by
  cases look with
  | found => exact List.length_set
  | _ => rfl

/-- An actor is added under an id that is vacated. -/
theorem Move.vacated {s t : State M W} {new : Node M W} (move : Move s label t)
    (allowed : spawnsVacated s label = true) (added : t.nodes[s.nodes.length]? = some new) :
    s.vacated new.pid = true := by
  have beyond {nodes : List (Node M W)} (length : nodes.length = s.nodes.length) :
      nodes[s.nodes.length]? ≠ some new := by
    rw [← length, List.getElem?_length]
    exact (Option.some_ne_none new).symm
  cases move with
  | spawn =>
    rw [List.getElem?_concat_length] at added
    cases added
    exact allowed
  | spawnChild positive there _ _ _ named =>
    rename_i n node i child name opts r site id
    rw [List.getElem?_append_right (by simp), List.length_set, Nat.sub_self] at added
    cases added
    simp only [spawnsVacated, there, Option.all_some] at allowed
    exact named ▸ allowed
  | taken | call => exact absurd added (beyond rfl)
  | caller look => exact absurd added (beyond (look_length look))
  | look _ _ look => exact absurd added (beyond (by simpa using look_length look))
  | deleted => exact absurd added (beyond (by simp))
  | _ => exact absurd added (beyond List.length_set)

/-- Each actor has stopped before the next of its id is there. -/
def Successive (s : State M W) : Prop :=
  ∀ (m n : Nat) a b, m < n → s.nodes[m]? = some a → s.nodes[n]? = some b → a.pid.id = b.pid.id →
    a.engine.actor.hasStopped = true

theorem hasStopped_evolves {a b : Node M W} (evolves : a.Evolves b)
    (stopped : a.engine.actor.hasStopped = true) : b.engine.actor.hasStopped = true := by
  obtain ⟨event, member, last⟩ := List.any_eq_true.mp stopped
  exact List.any_eq_true.mpr ⟨event, Engine.reaches_events evolves.runs member, last⟩

theorem Successive.next {s t : State M W} (successive : Successive s) (stepped : s.step label = some t)
    (allowed : spawnsVacated s label = true) : Successive t := by
  obtain ⟨move, running⟩ := step_move stepped
  have follows := move.follows running
  intro m n a b earlier first second same
  have bound : n ≤ s.nodes.length := by
    cases follows.back second with
    | inl old =>
      obtain ⟨before, found, -⟩ := old
      exact Nat.le_of_lt (List.getElem?_eq_some_iff.mp found).1
    | inr new => exact Nat.le_of_eq new.1
  have known : ∃ before, s.nodes[m]? = some before ∧ before.Evolves a := by
    cases follows.back first with
    | inl old => exact old
    | inr new => omega
  obtain ⟨a', present, evolves⟩ := known
  refine hasStopped_evolves evolves ?_
  rw [evolves.pid] at same
  cases follows.back second with
  | inl old =>
    obtain ⟨b', present', evolves'⟩ := old
    exact successive m n a' b' earlier present present' (same.trans (by rw [evolves'.pid]))
  | inr new =>
    -- the new actor has found its id free, so the previous one was out of the registry
    obtain ⟨rfl, fresh⟩ := new
    have unregistered (registered : a'.engine.actor.registered = true) : False :=
      get_none fresh.free present registered same
    have vacated := List.all_eq_true.mp (move.vacated allowed second) a' (List.mem_of_getElem? present)
    simpa [same, Bool.eq_false_iff.mpr unregistered] using vacated

/-- In every run in which an id is asked for only when it is vacated: of two actors of one
id, the earlier one has handled its `Stopped` by the time that the later one is given its
`Initialized`. -/
theorem incarnations_do_not_overlap (address : String) (s : State M W)
    (reached : Reaches (restrict spawnsVacated State.step) (initial address) s)
    (m n : Nat) (earlier : m < n) (a b : Node M W) (first : s.nodes[m]? = some a)
    (second : s.nodes[n]? = some b) (same : a.pid.id = b.pid.id) :
    .initialized ∈ b.engine.actor.log.map (·.message) → .actorStopped ∈ a.engine.actor.events := by
  intro _
  have successive : Successive s := by
    refine reached.invariant (P := Successive) ?_ ?_
    · intro s label t successive stepped
      obtain ⟨allowed, stepped⟩ := restrict_some stepped
      exact successive.next stepped allowed
    · intro m n a b _ there
      simp [initial] at there
  obtain ⟨event, member, last⟩ := List.any_eq_true.mp (successive m n a b earlier first second same)
  cases event with
  | actorStopped => exact member
  | _ => cases last

/-- An actor that a call of `Stop` has reached. -/
def stoppedOnce : List (Label Nat Nat) :=
  [.spawn "k" "1" ⟨3, 1, []⟩] ++ steps 0 0 1 ++ [.act 0 0 .returns, .act 0 0 .returns] ++ steps 0 0 3 ++
    [.call ⟨"local", "k/1"⟩ .stop, .caller 0, .caller 0] ++ steps 0 2 2

theorem incarnations_do_not_overlap_stopped :
    ∃ (s : State Nat Nat) (a b : Node Nat Nat),
      Reaches (restrict spawnsVacated State.step) (initial "local") s ∧ s.nodes = [a, b] ∧
        a.pid.id = b.pid.id ∧ .initialized ∈ b.engine.actor.log.map (·.message) ∧
        .actorStopped ∈ a.engine.actor.events := by
  obtain ⟨s, reached, ends⟩ := exists_of_run (restrict spawnsVacated State.step)
    (initial "local" : State Nat Nat)
    (stoppedOnce ++ steps 0 1 9 ++ [.act 0 1 .returns, .spawn "k" "1" ⟨3, 1, []⟩] ++ steps 1 0 1)
    (fun s => s.nodes.map (fun node => (node.pid.id, node.engine.actor.log.map (·.message))) =
      [("k/1", [.initialized, .started, .stopped]), ("k/1", [.initialized])]) (by decide +kernel)
  obtain ⟨a, rest, nodes, old, more⟩ := List.map_eq_cons_iff.mp (of_decide_eq_true ends)
  obtain ⟨b, rest, rfl, new, more⟩ := List.map_eq_cons_iff.mp more
  cases List.map_eq_nil_iff.mp more
  obtain ⟨id, -⟩ := Prod.mk.inj old
  obtain ⟨id', log⟩ := Prod.mk.inj new
  have same : a.pid.id = b.pid.id := id.trans id'.symm
  have delivered : .initialized ∈ b.engine.actor.log.map (·.message) := by simp [log]
  exact ⟨s, a, b, reached, nodes, same, delivered, incarnations_do_not_overlap "local" s reached 0 1
    (by decide) a b (by simp [nodes]) (by simp [nodes]) same delivered⟩

/-- The successor is initialized while the previous actor has yet to receive its
`Stopped`. -/
theorem successor_initialized_early :
    ∃ s : State Nat Nat, Reaches State.step (initial "local") s ∧
      s.nodes.map (fun node => (node.pid.id, node.engine.actor.log.map (·.message))) =
        [("k/1", [.initialized, .started]), ("k/1", [.initialized])] ∧
      s.nodes.map (fun node => node.engine.actor.events) = [[.actorInitialized, .actorStarted], []] := by
  obtain ⟨s, reached, ends⟩ := exists_of_run State.step (initial "local" : State Nat Nat)
    (stoppedOnce ++ steps 0 1 8 ++ [.spawn "k" "1" ⟨3, 1, []⟩] ++ steps 1 0 1)
    (fun s => s.nodes.map (fun node => (node.pid.id, node.engine.actor.log.map (·.message))) =
        [("k/1", [.initialized, .started]), ("k/1", [.initialized])] ∧
      s.nodes.map (fun node => node.engine.actor.events) = [[.actorInitialized, .actorStarted], []])
    (by decide +kernel)
  exact ⟨s, reached, of_decide_eq_true ends⟩

end Tree
end Hollywood
