import Hollywood.Foundation.Pool
import Hollywood.Inbox
import Mathlib.Data.List.TakeWhile

/-! Exactly-once, in-order hand-over. While every Stop comes after the Starts and
no Start follows it, at most one goroutine at a time is past winning the
mailbox, so batches reach `Invoke` in the order they left the ring. -/
namespace Hollywood
open Transition

/-- An idle mailbox is one that a goroutine may win. -/
def Status.vacant : Status → Nat
  | .idle => 1
  | _ => 0

namespace Inbox
variable {α : Type} [Inhabited α] {i : Nat}

def Pc.isStop : Pc α → Bool
  | .stop => true
  | _ => false

def Event.isStopped : Event α → Bool
  | .stopped => true
  | .ring _ => false

/-- The goroutine executes `Start`. -/
def Pc.inStart : Pc α → Bool
  | .start | .starting | .schedule .start => true
  | _ => false

/-- The goroutine is the one in charge: between winning a swap and giving the
mailbox back. -/
def Pc.owns : Pc α → Bool
  | .starting | .load | .popN | .invoke _ | .invoking | .toIdle => true
  | _ => false

def Pc.pops : Pc α → Bool
  | .popN => true
  | _ => false

def Event.isPop : Event α → Bool
  | .ring (.popN _) => true
  | _ => false

/-- Stop was called, whether or not its store has happened yet. -/
def State.stopRequested (s : State α) : Bool :=
  s.pool.any Pc.isStop || s.history.any Event.isStopped

/-- Stop is called after every Start has returned and is not followed by
another Start. -/
def disciplined (s : State α) : Label α → Bool
  | .call .start => !s.stopRequested
  | .call .stop => !s.pool.any Pc.inStart
  | _ => true

/-- The batch that has left the ring and is not yet passed to `Invoke`. -/
def State.inHand (s : State α) : List α := s.pool.flatMap fun pc => pc.batch.flatten

def sinceStop (history : List (Event α)) : List (Event α) :=
  history.dropWhile (!·.isStopped)

structure Orderly (s : State α) : Prop where
  exclusive : s.pool.countP Pc.owns + s.inbox.procStatus.vacant ≤ 1
  unstarted : s.history.any Event.isStopped = false → s.inbox.procStatus = .stopped →
    s.pool.countP Pc.owns = 0
  closed : s.stopRequested = true → ∀ pc ∈ s.pool, pc.inStart = false
  final : s.history.any Event.isStopped = true → s.inbox.procStatus = .stopped
  served : Deque.replay s.ops = (s.invoked.flatten ++ s.inHand, s.inbox.rb.toList)
  last : s.history.any Event.isStopped = true →
    (sinceStop s.history).countP Event.isPop + s.pool.countP Pc.pops ≤ 1

theorem Orderly.call {s : State α} (orderly : Orderly s) (request : Call α)
    (allowed : disciplined s (.call request) = true) :
    Orderly { s with pool := s.pool ++ [request.entry] } where
  exclusive := by cases request <;> simpa [Call.entry, Pc.owns] using orderly.exclusive
  unstarted := by cases request <;> simpa [Call.entry, Pc.owns] using orderly.unstarted
  closed requested pc member := by
    simp only [List.mem_append, List.mem_singleton] at member
    cases request with
    | start =>
      simp only [disciplined, Bool.not_eq_true'] at allowed
      have same : State.stopRequested { s with pool := s.pool ++ [Call.entry .start] } =
          s.stopRequested := by
        simp [State.stopRequested, Call.entry, Pc.isStop]
      rw [same, allowed] at requested
      contradiction
    | stop =>
      simp only [disciplined, Bool.not_eq_true', List.any_eq_false, Bool.not_eq_true] at allowed
      rcases member with earlier | rfl
      · exact allowed pc earlier
      · rfl
    | send msg | sendPriority msg | clear =>
      rcases member with earlier | rfl
      · exact orderly.closed (by simpa [State.stopRequested, Call.entry, Pc.isStop] using requested)
          pc earlier
      · rfl
  final := orderly.final
  served := by
    have same : State.inHand { s with pool := s.pool ++ [request.entry] } = s.inHand := by
      cases request <;> simp [State.inHand, Call.entry, Pc.batch]
    rw [same]
    exact orderly.served
  last := by cases request <;> simpa [Call.entry, Pc.pops] using orderly.last

/-- The mailbox changes hands by swaps only: one owner goes as the next comes. -/
theorem exclusive_move {s : State α} (orderly : Orderly s) (found : s.pool[i]? = some pc)
    (move : Move s.inbox pc turn) :
    (s.pool.set i turn.next ++ turn.spawned).countP Pc.owns +
      turn.inbox.procStatus.vacant ≤ 1 := by
  have count := Pool.countP_step Pc.owns found turn.next turn.spawned
  have exclusive := orderly.exclusive
  cases move with
  | start stopped =>
    have unrequested : s.stopRequested = false := by
      by_contra requested
      have closed := orderly.closed (by simpa using requested) .start (List.mem_of_getElem? found)
      simp [Pc.inStart] at closed
    simp only [State.stopRequested, Bool.or_eq_false_iff] at unrequested
    have none := orderly.unstarted unrequested.2 stopped
    simp [Pc.owns] at count
    simp only [List.append_nil, Status.vacant]
    omega
  | won idle =>
    simp only [idle, Status.vacant] at exclusive
    simp only [Pc.owns, Bool.false_eq_true, if_false, List.countP_singleton, if_true] at count
    simp only [Status.vacant]
    omega
  | started | stop | released running =>
    simp [Pc.owns] at count
    simp only [List.append_nil, Status.vacant]
    omega
  | push | pushFront | lost | enter | leave | batch | empty | invoke | returned | abandoned |
      again | finished | refused | clear =>
    simp [Pc.owns] at count
    simp only [List.append_nil, ring_procStatus]
    omega

theorem unstarted_move {s : State α} (orderly : Orderly s) (found : s.pool[i]? = some pc)
    (move : Move s.inbox pc turn) (running : (s.history ++ pc.event).any Event.isStopped = false)
    (stopped : turn.inbox.procStatus = .stopped) :
    (s.pool.set i turn.next ++ turn.spawned).countP Pc.owns = 0 := by
  have count := Pool.countP_step Pc.owns found turn.next turn.spawned
  rw [List.any_append, Bool.or_eq_false_iff] at running
  have unstarted := orderly.unstarted running.1
  cases move with
  | won | start | started | released => simp at stopped
  | stop => simp [Pc.event, Event.isStopped] at running
  | push | pushFront | lost | enter | leave | batch | empty | invoke | returned | abandoned |
      again | finished | refused | clear =>
    have none := unstarted stopped
    simp [Pc.owns] at count
    simp only [List.append_nil]
    omega

/-- No step makes up a Stop that was not called. -/
theorem stopRequested_move {s : State α} (found : s.pool[i]? = some pc)
    (move : Move s.inbox pc turn)
    (requested : State.stopRequested ⟨turn.inbox, s.pool.set i turn.next ++ turn.spawned,
      s.history ++ pc.event, s.invoked ++ pc.batch⟩ = true) : s.stopRequested = true := by
  by_contra unrequested
  simp only [State.stopRequested, Bool.not_eq_true, Bool.or_eq_false_iff, List.any_eq_false]
    at unrequested
  have quiet : ∀ pc ∈ s.pool.set i turn.next ++ turn.spawned, pc.isStop = false := by
    apply Pool.forall_step found unrequested.1 (fun _ kept => kept)
    · intro _
      cases move <;> rfl
    · cases move <;> simp [Pc.isStop]
  have mine := unrequested.1 pc (List.mem_of_getElem? found)
  have silent : pc.event.any Event.isStopped = false := by
    cases pc <;> first | rfl | simp [Pc.isStop] at mine
  simp only [State.stopRequested, Bool.or_eq_true] at requested
  rcases requested with stops | stopped
  · obtain ⟨other, member, stops⟩ := List.any_eq_true.mp stops
    simp [quiet other member] at stops
  · rw [List.any_append, silent, Bool.or_false] at stopped
    obtain ⟨event, member, stopped⟩ := List.any_eq_true.mp stopped
    simp [unrequested.2 event member] at stopped

theorem closed_move {s : State α} (orderly : Orderly s) (found : s.pool[i]? = some pc)
    (move : Move s.inbox pc turn)
    (requested : State.stopRequested ⟨turn.inbox, s.pool.set i turn.next ++ turn.spawned,
      s.history ++ pc.event, s.invoked ++ pc.batch⟩ = true) :
    ∀ pc ∈ s.pool.set i turn.next ++ turn.spawned, pc.inStart = false := by
  have closed := orderly.closed (stopRequested_move found move requested)
  have mine := closed pc (List.mem_of_getElem? found)
  apply Pool.forall_step found closed (fun _ kept => kept)
  · intro _
    cases move <;> first | rfl | exact mine
  · cases move <;> simp [Pc.inStart]

theorem stopRequested_of_stopped {s : State α} (ended : s.history.any Event.isStopped = true) :
    s.stopRequested = true := by
  rw [State.stopRequested, ended, Bool.or_true]

theorem final_move {s : State α} (orderly : Orderly s) (found : s.pool[i]? = some pc)
    (move : Move s.inbox pc turn) (ended : (s.history ++ pc.event).any Event.isStopped = true) :
    turn.inbox.procStatus = .stopped := by
  by_cases stopping : pc = .stop
  · subst pc
    cases move
    rfl
  have before : s.history.any Event.isStopped = true := by
    rw [List.any_append, Bool.or_eq_true] at ended
    refine ended.resolve_right ?_
    cases move <;> simp_all [Pc.event, Pc.op, Event.isStopped]
  have status := orderly.final before
  have outside := orderly.closed (stopRequested_of_stopped before) pc (List.mem_of_getElem? found)
  cases move with
  | stop => rfl
  | start | started => simp [Pc.inStart] at outside
  | won idle => simp [status] at idle
  | released running => simp [status] at running
  | push | pushFront | lost | enter | leave | batch | empty | invoke | returned | abandoned |
      again | finished | refused | clear => exact status

theorem ops_snoc (s : State α) (pc : Pc α) (inbox : Inbox α) (pool : List (Pc α))
    (invoked : List (List α)) :
    State.ops ⟨inbox, pool, s.history ++ pc.event, invoked⟩ = s.ops ++ pc.op.toList := by
  simp only [State.ops, List.filterMap_append]
  cases pc <;> rfl

theorem replay_silent (ops : List (Deque.Op α)) {pc : Pc α} (silent : pc.op = none) :
    Deque.replay (ops ++ pc.op.toList) = Deque.replay ops := by
  rw [silent, Option.toList_none, List.append_nil]

theorem replay_performed (ops : List (Deque.Op α)) {pc : Pc α} (performed : pc.op = some op) :
    Deque.replay (ops ++ pc.op.toList) = Deque.advance (Deque.replay ops) op := by
  rw [performed, Option.toList_some, Deque.replay_snoc]

omit [Inhabited α] in
theorem carried_by_owner (pc : Pc α) (bystander : pc.owns = false) : pc.batch.flatten = [] := by
  cases pc <;> simp_all [Pc.owns, Pc.batch]

/-- The order of hand-over is the order of service of the queue. A batch leaves
the ring into the hands of the only owner and from there to `Invoke`. -/
theorem served_move {s : State α} (orderly : Orderly s) (found : s.pool[i]? = some pc)
    (move : Move s.inbox pc turn) :
    Deque.replay (s.ops ++ pc.op.toList) = ((s.invoked ++ pc.batch).flatten ++
      (s.pool.set i turn.next ++ turn.spawned).flatMap (fun pc => pc.batch.flatten),
      turn.inbox.rb.toList) := by
  have served := orderly.served
  have alone : s.pool.countP Pc.owns ≤ 1 := by
    have := orderly.exclusive
    omega
  have kept := Pool.flatMap_step (fun pc : Pc α => pc.batch.flatten) found turn.next turn.spawned
  have mine (owner : pc.owns = true) := Pool.flatMap_exclusive
    (fun pc : Pc α => pc.batch.flatten) Pc.owns found owner alone carried_by_owner
  cases move with
  | push | pushFront | clear =>
    rw [kept rfl rfl, replay_performed s.ops rfl, served]
    simp [Deque.advance, Deque.perform, Deque.Result.released, Pc.batch, State.inHand]
  | batch queued =>
    obtain ⟨before, after⟩ := mine rfl
    rw [after, replay_performed s.ops rfl, served, State.inHand, before]
    simp [Deque.advance, Deque.perform, Deque.Result.released, Pc.batch, queued]
  | empty drained =>
    rw [kept rfl rfl, replay_performed s.ops rfl, served]
    simp [Deque.advance, Deque.perform, Deque.Result.released, Pc.batch, State.inHand, drained]
  | invoke =>
    obtain ⟨before, after⟩ := mine rfl
    rw [after, replay_silent s.ops rfl, served, State.inHand, before]
    simp [Pc.batch]
  | won | lost | enter | leave | returned | released | abandoned | again | finished | start |
      refused | started | stop =>
    rw [kept rfl rfl, replay_silent s.ops rfl, served]
    simp [Pc.batch, State.inHand]

omit [Inhabited α] in
theorem sinceStop_append {history : List (Event α)} (ended : history.any Event.isStopped = true)
    (events : List (Event α)) : sinceStop (history ++ events) = sinceStop history ++ events := by
  obtain ⟨event, member, stopped⟩ := List.any_eq_true.mp ended
  have nonempty : ¬ (history.dropWhile (!·.isStopped)).isEmpty = true := by
    intro empty
    have all := List.dropWhile_eq_nil_iff.mp (List.isEmpty_iff.mp empty) event member
    simp [stopped] at all
  rw [sinceStop, List.dropWhile_append, if_neg nonempty, sinceStop]

omit [Inhabited α] in
theorem sinceStop_first {history : List (Event α)}
    (running : history.any Event.isStopped = false) :
    sinceStop (history ++ [.stopped]) = [.stopped] := by
  have empty : history.dropWhile (!·.isStopped) = [] := by
    rw [List.dropWhile_eq_nil_iff]
    intro event member
    simpa using List.any_eq_false.mp running event member
  rw [sinceStop, List.dropWhile_append, empty]
  rfl

omit [Inhabited α] in
theorem pops_le_owns (pool : List (Pc α)) : pool.countP Pc.pops ≤ pool.countP Pc.owns := by
  apply List.countP_mono_left
  intro pc _ pops
  cases pc <;> first | rfl | simp [Pc.pops] at pops

/-- After the store of Stop the owner can finish one pop; nobody enters the
loop again. -/
theorem last_move {s : State α} (orderly : Orderly s) (found : s.pool[i]? = some pc)
    (move : Move s.inbox pc turn) (ended : (s.history ++ pc.event).any Event.isStopped = true) :
    (sinceStop (s.history ++ pc.event)).countP Event.isPop +
      (s.pool.set i turn.next ++ turn.spawned).countP Pc.pops ≤ 1 := by
  have count := Pool.countP_step Pc.pops found turn.next turn.spawned
  by_cases before : s.history.any Event.isStopped = true
  · have status := orderly.final before
    have last := orderly.last before
    rw [sinceStop_append before, List.countP_append]
    cases move with
    | enter running => exact absurd status running
    | won idle => simp [status] at idle
    | push | pushFront | lost | leave | batch | empty | invoke | returned | released | abandoned |
        again | finished | start | refused | started | stop | clear =>
      simp [Pc.pops] at count
      simp [Pc.event, Pc.op, Event.isPop]
      omega
  · rw [Bool.not_eq_true] at before
    have stopping : pc = .stop := by
      rw [List.any_append, before, Bool.false_or] at ended
      cases pc <;> first | rfl | simp [Pc.event, Pc.op, Event.isStopped] at ended
    subst pc
    cases move
    have exclusive := orderly.exclusive
    have fewer := pops_le_owns s.pool
    have first : sinceStop (s.history ++ Pc.event .stop) = [.stopped] := sinceStop_first before
    rw [first]
    simp [Pc.pops] at count
    simp [Event.isPop]
    omega

theorem Orderly.step {s t : State α} (orderly : Orderly s)
    (stepped : restrict disciplined State.step s label = some t) : Orderly t := by
  obtain ⟨allowed, stepped⟩ := restrict_some stepped
  rcases step_cases stepped with ⟨request, rfl, rfl⟩ | ⟨i, pc, turn, rfl, found, taken, rfl⟩
  · exact orderly.call request allowed
  · have move := step_move taken
    exact {
      exclusive := exclusive_move orderly found move
      unstarted := unstarted_move orderly found move
      closed := closed_move orderly found move
      final := final_move orderly found move
      served := by
        rw [ops_snoc]
        exact served_move orderly found move
      last := last_move orderly found move }

theorem orderly_initial (size : Nat) (positive : 0 < size) :
    Orderly (initial size positive : State α) where
  exclusive := by simp [initial, new, Status.vacant]
  unstarted := by simp [initial]
  closed := by simp [initial]
  final := by simp [initial]
  served := by simp [initial, new, State.ops, State.inHand, Ring.new_toList, Deque.replay,
    Deque.replayFrom]
  last := by simp [initial]

/-- What the mailbox has handed over, has in hand and still holds is what a
double-ended queue fed with the pushes in their mutex order has released and
still holds; at most one batch leaves the ring after Stop. -/
theorem exactly_once_in_order (size : Nat) (positive : 0 < size) (s : State α)
    (reached : Reaches (restrict disciplined State.step) (initial size positive) s) :
    s.invoked.flatten ++ s.inHand = (Deque.replay s.ops).1 ∧
    s.inbox.rb.toList = (Deque.replay s.ops).2 ∧
    s.pool.countP (fun pc => !pc.batch.isEmpty) ≤ 1 ∧
    List.Subperm (s.invoked.flatten ++ s.inHand ++ s.inbox.rb.toList) (Deque.pushed s.ops) ∧
    (∀ mine : α → Bool, (∀ msg, .pushFront msg ∈ s.ops → mine msg = false) →
      List.Sublist ((s.invoked.flatten ++ s.inHand ++ s.inbox.rb.toList).filter mine)
        ((Deque.pushed s.ops).filter mine)) ∧
    (∀ first later urgent msg, s.ops = first ++ .pushFront urgent :: later →
      (Deque.pushed s.ops).Nodup → msg ∈ (Deque.replay first).2 →
      msg ∈ s.invoked.flatten ++ s.inHand ++ s.inbox.rb.toList →
      List.Sublist [urgent, msg] (s.invoked.flatten ++ s.inHand ++ s.inbox.rb.toList)) ∧
    (∀ first later, s.ops = first ++ .clear :: later →
      s.invoked.flatten ++ s.inHand ++ s.inbox.rb.toList =
        (Deque.replay first).1 ++ Deque.service (Deque.replay later)) ∧
    (∀ first later, s.history = first ++ .stopped :: later → later.countP Event.isPop ≤ 1) := by
  have orderly := reached.invariant Orderly.step (orderly_initial size positive)
  have served := orderly.served
  have whole : s.invoked.flatten ++ s.inHand ++ s.inbox.rb.toList =
      Deque.service (Deque.replay s.ops) := by
    rw [served, Deque.service]
  rw [whole]
  refine ⟨by rw [served], by rw [served], ?_, Deque.replay_subperm s.ops,
    fun mine back => Deque.service_order mine s.ops back, ?_, ?_, ?_⟩
  · have exclusive := orderly.exclusive
    have fewer : s.pool.countP (fun pc => !pc.batch.isEmpty) ≤ s.pool.countP Pc.owns := by
      apply List.countP_mono_left
      intro pc _ carries
      cases pc <;> first | rfl | simp [Pc.batch] at carries
    omega
  · intro first later urgent msg split distinct waiting present
    rw [split] at distinct present ⊢
    exact Deque.service_urgent first later urgent distinct waiting present
  · intro first later split
    rw [split, Deque.replay_clear, Deque.service, Deque.service, List.append_assoc]
  · intro first later split
    rw [← List.singleton_append, ← List.append_assoc] at split
    have ended : (first ++ [Event.stopped]).any Event.isStopped = true := by
      simp [Event.isStopped]
    have last := orderly.last (by rw [split, List.any_append, ended, Bool.true_or])
    rw [split, sinceStop_append ended, List.countP_append] at last
    omega

/-- A priority message overtakes one sent before it and both are handed over;
then Stop is called and a last message stays in the ring. -/
theorem exactly_once_in_order_stopped :
    ∃ s : State Nat, s.invoked = [[8, 7]] ∧ s.inbox.rb.toList = [9] ∧
      (Deque.replay s.ops).1 = [8, 7] ∧ (Deque.replay s.ops).2 = [9] := by
  obtain ⟨s, reached, ends⟩ := exists_of_run
    (restrict disciplined State.step) (initial 1 Nat.one_pos)
    [.call (.send 7), .step 0, .step 0, .call (.sendPriority 8), .step 1, .step 1,
      .call .start, .step 2, .step 2, .step 2, .step 3, .step 3, .step 3,
      .call .stop, .step 4, .call (.send 9), .step 5, .step 5, .step 3, .step 3, .step 3]
    (fun s => decide (s.invoked = [[8, 7]] ∧ s.inHand = [] ∧ s.inbox.rb.toList = [9])) (by decide)
  obtain ⟨invoked, none, queued⟩ := of_decide_eq_true ends
  have ordered := exactly_once_in_order 1 Nat.one_pos s reached
  refine ⟨s, invoked, queued, ?_, ?_⟩
  · rw [← ordered.1, invoked, none]
    rfl
  · rw [← ordered.2.1, queued]

end Inbox
end Hollywood
