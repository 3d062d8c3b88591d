import Hollywood.Foundation.Pool
import Hollywood.Inbox

/-! No message is left waiting while the mailbox is idle. Stop and Start may
leave several workers alive; the invariant asks only for one that is still in
charge and holds for any number of them. -/
namespace Hollywood.Inbox
open Transition
variable {α : Type} [Inhabited α]

/-- A schedule attempt or the length check is still ahead of the goroutine: a
sender after its push, `Start` after its swap to idle, `process` after its swap. -/
def Pc.attempts : Pc α → Bool
  | .schedule _ | .recheck => true
  | _ => false

/-- A scheduled or executing worker before its final swap from running to idle. -/
def Pc.works : Pc α → Bool
  | .load | .popN | .invoke _ | .invoking | .toIdle => true
  | _ => false

structure Awake (s : State α) : Prop where
  noticed : s.inbox.procStatus = .idle → s.inbox.rb.toList ≠ [] → ∃ pc ∈ s.pool, pc.attempts
  staffed : s.inbox.procStatus = .running → ∃ pc ∈ s.pool, pc.works

theorem Awake.call {s : State α} (awake : Awake s) (entry : Pc α) :
    Awake { s with pool := s.pool ++ [entry] } where
  noticed idle queued := by
    obtain ⟨pc, member, attempts⟩ := awake.noticed idle queued
    exact ⟨pc, List.mem_append_left _ member, attempts⟩
  staffed running := by
    obtain ⟨pc, member, works⟩ := awake.staffed running
    exact ⟨pc, List.mem_append_left _ member, works⟩

/-- An action that leaves messages in an idle mailbox has a look at them ahead, or has
found them there and was not the one to look. -/
theorem Move.notices {inbox : Inbox α} (move : Move inbox pc turn)
    (idle : turn.inbox.procStatus = .idle) (queued : turn.inbox.rb.toList ≠ []) :
    turn.next.attempts = true ∨
      (inbox.procStatus = .idle ∧ inbox.rb.toList ≠ [] ∧ pc.attempts = false) := by
  cases move with
  | push | pushFront | released | started | again => exact .inl rfl
  | won | start | stop => simp at idle
  | lost notIdle => exact absurd idle notIdle
  | clear => simp [Deque.perform] at queued
  | batch queued' => exact .inr ⟨idle, queued', rfl⟩
  | empty drained => simp [drained, Deque.perform] at queued
  | finished drained => exact absurd drained queued
  | enter | leave | invoke | returned | abandoned | refused => exact .inr ⟨idle, queued, rfl⟩

/-- Either the moving goroutine is the one that will look at the ring again, or
another one was and still is. -/
theorem noticed_move {s : State α} (awake : Awake s) (found : s.pool[i]? = some pc)
    (move : Move s.inbox pc turn) (idle : turn.inbox.procStatus = .idle)
    (queued : turn.inbox.rb.toList ≠ []) :
    ∃ pc ∈ s.pool.set i turn.next ++ turn.spawned, pc.attempts := by
  cases move.notices idle queued with
  | inl ahead => exact Pool.exists_moved found ahead
  | inr before =>
    obtain ⟨idle, queued, aside⟩ := before
    exact Pool.exists_kept found (awake.noticed idle queued) (by simp [aside])

/-- Only a successful swap to idle takes a worker out of charge. -/
theorem staffed_move {s : State α} (awake : Awake s) (found : s.pool[i]? = some pc)
    (move : Move s.inbox pc turn) (running : turn.inbox.procStatus = .running) :
    ∃ pc ∈ s.pool.set i turn.next ++ turn.spawned, pc.works := by
  cases move with
  | won => exact ⟨.load, by simp, rfl⟩
  | enter | leave | batch | empty | invoke | returned => exact Pool.exists_moved found rfl
  | released | start | started | stop => simp at running
  | abandoned notRunning => exact absurd running notRunning
  | push | pushFront | lost | again | finished | refused | clear =>
    exact Pool.exists_kept found (awake.staffed running) (by simp [Pc.works])

theorem Awake.step {s t : State α} (awake : Awake s) (stepped : s.step label = some t) :
    Awake t := by
  rcases step_cases stepped with ⟨request, -, rfl⟩ | ⟨i, pc, turn, -, found, taken, rfl⟩
  · exact awake.call request.entry
  · have move := step_move taken
    exact ⟨noticed_move awake found move, staffed_move awake found move⟩

/-- For every interleaving of the methods of the inbox with its workers, an idle
mailbox that holds messages is about to be looked at, and a running one has a
worker that has not given up yet. -/
theorem no_lost_wakeup (size : Nat) (positive : 0 < size) (s : State α)
    (reached : Reaches State.step (initial size positive) s) :
    (s.inbox.procStatus = .idle → s.inbox.rb.toList ≠ [] → ∃ pc ∈ s.pool, pc.attempts) ∧
    (s.inbox.procStatus = .running → ∃ pc ∈ s.pool, pc.works) := by
  have start : Awake (initial size positive : State α) :=
    ⟨fun idle => by simp [initial, new] at idle, fun running => by simp [initial, new] at running⟩
  have awake := reached.invariant Awake.step start
  exact ⟨awake.noticed, awake.staffed⟩

/-- A message sent before Start waits in an idle mailbox, and Start has its
schedule attempt ahead of it. -/
theorem no_lost_wakeup_after_start :
    ∃ s : State Nat, s.inbox.procStatus = .idle ∧ s.inbox.rb.toList = [7] ∧
      ∃ pc ∈ s.pool, pc.attempts := by
  obtain ⟨s, reached, ends⟩ := exists_of_run State.step (initial 1 Nat.one_pos)
    [.call (.send 7), .step 0, .call .start, .step 1, .step 1]
    (fun s => decide (s.inbox.procStatus = .idle ∧ s.inbox.rb.toList = [7])) (by decide)
  obtain ⟨idle, queued⟩ := of_decide_eq_true ends
  exact ⟨s, idle, queued, (no_lost_wakeup 1 Nat.one_pos s reached).1 idle (by simp [queued])⟩

end Hollywood.Inbox
