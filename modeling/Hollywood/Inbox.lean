import Hollywood.Foundation.Transition
import Hollywood.RingBuffer.Refinement

/-! The mailbox of `actor/inbox.go` and the goroutines that use it. One step is
one mutex-protected ring operation or one atomic operation on `procStatus`; the
`go` statement of the scheduler belongs to the compare-and-swap before it. The
throughput counter of `run` only yields the processor and is left out. -/
namespace Hollywood

inductive Status where
  | stopped
  | starting
  | idle
  | running
  deriving DecidableEq, Repr

def messageBatchSize : Nat := 1024 * 4

structure Inbox (α : Type) [Inhabited α] where
  rb : Ring α
  procStatus : Status

namespace Inbox

/-- The functions that call `schedule`. -/
inductive Caller where
  | send
  | start
  | process
  deriving DecidableEq, Repr

/-- The next atomic action of a goroutine that executes code of the inbox. -/
inductive Pc (α : Type) where
  | push (msg : α)
  | pushFront (msg : α)
  | schedule (caller : Caller)
  | load
  | popN
  | invoke (msgs : List α)
  | invoking
  | toIdle
  | recheck
  | start
  | starting
  | stop
  | clear
  | done
  deriving DecidableEq, Repr

/-- The operation on the ring buffer that an action performs. -/
def Pc.op : Pc α → Option (Deque.Op α)
  | .push msg => some (.push msg)
  | .pushFront msg => some (.pushFront msg)
  | .popN => some (.popN messageBatchSize)
  | .clear => some .clear
  | _ => none

variable {α : Type} [Inhabited α]

/-- The effect of one action: the inbox after it, where its goroutine goes on,
and the goroutines it started. -/
structure Turn (α : Type) [Inhabited α] where
  inbox : Inbox α
  next : Pc α
  spawned : List (Pc α)

def new (size : Nat) (positive : 0 < size) : Inbox α where
  rb := .new size positive
  procStatus := .stopped

def compareAndSwap (inbox : Inbox α) (old new : Status) : Bool × Inbox α :=
  if inbox.procStatus = old then (true, { inbox with procStatus := new }) else (false, inbox)

def ring (inbox : Inbox α) (op : Deque.Op α) : Inbox α :=
  { inbox with rb := (inbox.rb.perform op).2 }

/-- `schedule`: the goroutine that wins the swap starts a worker at the top of
the loop in `run`. -/
def schedule (inbox : Inbox α) : Turn α :=
  match inbox.compareAndSwap .idle .running with
  | (true, inbox) => ⟨inbox, .done, [.load]⟩
  | (false, inbox) => ⟨inbox, .done, []⟩

/-- `run`: the batch that `PopN` returns is handed to `proc.Invoke`, an empty
ring ends the loop. -/
def popBatch (inbox : Inbox α) : Turn α :=
  match inbox.rb.perform (.popN messageBatchSize) with
  | (.items (msg :: msgs) true, rb) => ⟨{ inbox with rb := rb }, .invoke (msg :: msgs), []⟩
  | (_, rb) => ⟨{ inbox with rb := rb }, .toIdle, []⟩

def step (inbox : Inbox α) : Pc α → Option (Turn α)
  | .push msg => some ⟨inbox.ring (.push msg), .schedule .send, []⟩
  | .pushFront msg => some ⟨inbox.ring (.pushFront msg), .schedule .send, []⟩
  | .schedule _ => some inbox.schedule
  | .load => some ⟨inbox, if inbox.procStatus ≠ .stopped then .popN else .toIdle, []⟩
  | .popN => some inbox.popBatch
  | .invoke _ => some ⟨inbox, .invoking, []⟩
  | .invoking => some ⟨inbox, .load, []⟩
  | .toIdle =>
    match inbox.compareAndSwap .running .idle with
    | (true, inbox) => some ⟨inbox, .recheck, []⟩
    | (false, inbox) => some ⟨inbox, .done, []⟩
  | .recheck => some ⟨inbox, if inbox.rb.len > 0 then .schedule .process else .done, []⟩
  | .start =>
    match inbox.compareAndSwap .stopped .starting with
    | (true, inbox) => some ⟨inbox, .starting, []⟩
    | (false, inbox) => some ⟨inbox, .done, []⟩
  | .starting => some ⟨{ inbox with procStatus := .idle }, .schedule .start, []⟩
  | .stop => some ⟨{ inbox with procStatus := .stopped }, .done, []⟩
  | .clear => some ⟨inbox.ring .clear, .done, []⟩
  | .done => none

/-- What an observer of the atomic order sees of one action. -/
inductive Event (α : Type) where
  | ring (op : Deque.Op α)
  | stopped
  deriving DecidableEq, Repr

def Pc.event : Pc α → List (Event α)
  | .stop => [.stopped]
  | pc => pc.op.toList.map .ring

/-- The batch whose hand-over to `proc.Invoke` is the goroutine's next action. -/
def Pc.batch : Pc α → List (List α)
  | .invoke msgs => [msgs]
  | _ => []

/-- An inbox with the goroutines inside its methods. The history lists the
atomic operations in their order, `invoked` the batches passed to `Invoke`. -/
structure State (α : Type) [Inhabited α] where
  inbox : Inbox α
  pool : List (Pc α)
  history : List (Event α)
  invoked : List (List α)

inductive Call (α : Type) where
  | send (msg : α)
  | sendPriority (msg : α)
  | clear
  | start
  | stop
  deriving DecidableEq, Repr

def Call.entry : Call α → Pc α
  | .send msg => .push msg
  | .sendPriority msg => .pushFront msg
  | .clear => .clear
  | .start => .start
  | .stop => .stop

inductive Label (α : Type) where
  | call (request : Call α)
  | step (goroutine : Nat)
  deriving DecidableEq, Repr

def initial (size : Nat) (positive : 0 < size) : State α where
  inbox := .new size positive
  pool := []
  history := []
  invoked := []

/-- Any goroutine may call a method at any time; the scheduler picks whose
action comes next. -/
def State.step (s : State α) : Label α → Option (State α)
  | .call request => some { s with pool := s.pool ++ [request.entry] }
  | .step i => do
    let pc ← s.pool[i]?
    let turn ← s.inbox.step pc
    pure {
      inbox := turn.inbox
      pool := s.pool.set i turn.next ++ turn.spawned
      history := s.history ++ pc.event
      invoked := s.invoked ++ pc.batch }

/-- The ring operations in the order of the mutex. -/
def State.ops (s : State α) : List (Deque.Op α) :=
  s.history.filterMap fun
    | .ring op => some op
    | .stopped => none

@[simp] theorem ring_procStatus (inbox : Inbox α) (op : Deque.Op α) :
    (inbox.ring op).procStatus = inbox.procStatus := rfl

@[simp] theorem ring_toList (inbox : Inbox α) (op : Deque.Op α) :
    (inbox.ring op).rb.toList = (Deque.perform inbox.rb.toList op).2 :=
  inbox.rb.perform_toList op

theorem ring_popN (inbox : Inbox α) (n : Nat) :
    (inbox.ring (.popN n)).rb.toList = inbox.rb.toList.drop n := by
  cases queue : inbox.rb.toList <;> simp [Deque.perform, queue]

/-- Everything an action can do, with the condition under which it does it. -/
inductive Move (inbox : Inbox α) : Pc α → Turn α → Prop where
  | push : Move inbox (.push msg) ⟨inbox.ring (.push msg), .schedule .send, []⟩
  | pushFront : Move inbox (.pushFront msg) ⟨inbox.ring (.pushFront msg), .schedule .send, []⟩
  | won : inbox.procStatus = .idle →
      Move inbox (.schedule caller) ⟨{ inbox with procStatus := .running }, .done, [.load]⟩
  | lost : inbox.procStatus ≠ .idle → Move inbox (.schedule caller) ⟨inbox, .done, []⟩
  | enter : inbox.procStatus ≠ .stopped → Move inbox .load ⟨inbox, .popN, []⟩
  | leave : inbox.procStatus = .stopped → Move inbox .load ⟨inbox, .toIdle, []⟩
  | batch : inbox.rb.toList ≠ [] →
      Move inbox .popN ⟨inbox.ring (.popN messageBatchSize),
        .invoke (inbox.rb.toList.take messageBatchSize), []⟩
  | empty : inbox.rb.toList = [] →
      Move inbox .popN ⟨inbox.ring (.popN messageBatchSize), .toIdle, []⟩
  | invoke : Move inbox (.invoke msgs) ⟨inbox, .invoking, []⟩
  | returned : Move inbox .invoking ⟨inbox, .load, []⟩
  | released : inbox.procStatus = .running →
      Move inbox .toIdle ⟨{ inbox with procStatus := .idle }, .recheck, []⟩
  | abandoned : inbox.procStatus ≠ .running → Move inbox .toIdle ⟨inbox, .done, []⟩
  | again : inbox.rb.toList ≠ [] → Move inbox .recheck ⟨inbox, .schedule .process, []⟩
  | finished : inbox.rb.toList = [] → Move inbox .recheck ⟨inbox, .done, []⟩
  | start : inbox.procStatus = .stopped →
      Move inbox .start ⟨{ inbox with procStatus := .starting }, .starting, []⟩
  | refused : inbox.procStatus ≠ .stopped → Move inbox .start ⟨inbox, .done, []⟩
  | started : Move inbox .starting ⟨{ inbox with procStatus := .idle }, .schedule .start, []⟩
  | stop : Move inbox .stop ⟨{ inbox with procStatus := .stopped }, .done, []⟩
  | clear : Move inbox .clear ⟨inbox.ring .clear, .done, []⟩

theorem popBatch_move (inbox : Inbox α) : Move inbox .popN inbox.popBatch := by
  have result := inbox.rb.perform_result (.popN messageBatchSize)
  cases queue : inbox.rb.toList with
  | nil =>
    simp only [queue, Deque.perform, List.isEmpty_nil, if_true] at result
    have same : inbox.popBatch = ⟨inbox.ring (.popN messageBatchSize), .toIdle, []⟩ := by
      unfold popBatch ring
      split
      · rename_i msg msgs rb found
        simp [found] at result
      · rename_i rb _ found
        simp [found]
    rw [same]
    exact .empty queue
  | cons msg rest =>
    simp only [queue, Deque.perform, List.isEmpty_cons, Bool.false_eq_true, if_false] at result
    have taken : (msg :: rest).take messageBatchSize =
        msg :: rest.take (messageBatchSize - 1) := rfl
    have same : inbox.popBatch = ⟨inbox.ring (.popN messageBatchSize),
        .invoke (inbox.rb.toList.take messageBatchSize), []⟩ := by
      unfold popBatch ring
      split
      · rename_i head tail rb found
        simp only [found, Deque.Result.items.injEq, and_true] at result
        rw [queue, ← result, found]
      · rename_i other rb mismatch found
        rw [found, taken] at result
        exact absurd result (mismatch _ _)
    rw [same]
    exact .batch (by simp [queue])

theorem step_move {inbox : Inbox α} (stepped : inbox.step pc = some turn) :
    Move inbox pc turn := by
  cases pc with
  | push msg =>
    cases stepped
    exact .push
  | pushFront msg =>
    cases stepped
    exact .pushFront
  | schedule caller =>
    cases stepped
    by_cases ready : inbox.procStatus = .idle
    · simpa [schedule, compareAndSwap, ready] using Move.won ready
    · simpa [schedule, compareAndSwap, ready] using Move.lost ready
  | load =>
    cases stepped
    by_cases ended : inbox.procStatus = .stopped
    · simpa [ended] using Move.leave ended
    · simpa [ended] using Move.enter ended
  | popN =>
    cases stepped
    exact popBatch_move inbox
  | invoke msgs =>
    cases stepped
    exact .invoke
  | invoking =>
    cases stepped
    exact .returned
  | toIdle =>
    by_cases ready : inbox.procStatus = .running
    · simp only [step, compareAndSwap, ready, if_true, Option.some.injEq] at stepped
      subst turn
      exact .released ready
    · simp only [step, compareAndSwap, ready, if_false, Option.some.injEq] at stepped
      subst turn
      exact .abandoned ready
  | recheck =>
    cases stepped
    by_cases queued : inbox.rb.toList = []
    · simpa [Ring.len_eq, queued] using Move.finished queued
    · simpa [Ring.len_eq, List.length_pos_iff.mpr queued] using Move.again queued
  | start =>
    by_cases ready : inbox.procStatus = .stopped
    · simp only [step, compareAndSwap, ready, if_true, Option.some.injEq] at stepped
      subst turn
      exact .start ready
    · simp only [step, compareAndSwap, ready, if_false, Option.some.injEq] at stepped
      subst turn
      exact .refused ready
  | starting =>
    cases stepped
    exact .started
  | stop =>
    cases stepped
    exact .stop
  | clear =>
    cases stepped
    exact .clear
  | done => contradiction

theorem step_cases {s t : State α} (stepped : s.step label = some t) :
    (∃ request, label = .call request ∧ t = { s with pool := s.pool ++ [request.entry] }) ∨
    ∃ i pc turn, label = .step i ∧ s.pool[i]? = some pc ∧ s.inbox.step pc = some turn ∧
      t = ⟨turn.inbox, s.pool.set i turn.next ++ turn.spawned, s.history ++ pc.event,
        s.invoked ++ pc.batch⟩ := by
  cases label with
  | call request => exact .inl ⟨request, rfl, (Option.some.inj stepped).symm⟩
  | step i =>
    simp only [State.step, Option.bind_eq_bind, Option.bind_eq_some_iff, Option.pure_def,
      Option.some.injEq] at stepped
    obtain ⟨pc, found, turn, taken, same⟩ := stepped
    exact .inr ⟨i, pc, turn, rfl, found, taken, same.symm⟩

end Inbox
end Hollywood
