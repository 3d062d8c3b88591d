import Hollywood.Foundation.Inevitable
import Hollywood.Inbox.Handover
import Hollywood.Inbox.Wakeup

/-! Progress of the mailbox: once the calls stop, the goroutines inside it come to an end
however they are scheduled, and then it is stopped or has handed over every message. The
loop in `run` gives back the mailbox and may win it again; that it does not do so for ever
is counted in three parts: the messages that still can be popped, the calls that still can
change the status, and where the workers stand. -/
namespace Hollywood.Inbox
open Transition
variable {α : Type} [Inhabited α]

/-- A goroutine of the pool goes on. -/
def Label.moves : Label α → Prop
  | .step _ => True
  | .call _ => False

/-- The messages that a goroutine may still put into the ring. -/
def Pc.posts : Pc α → Nat
  | .push _ | .pushFront _ => 1
  | _ => 0

/-- What is ahead of a call before it can change neither the ring nor the status from outside
the loop. -/
def Pc.ahead : Pc α → Nat
  | .start => 2
  | .push _ | .pushFront _ | .starting | .stop | .clear => 1
  | _ => 0

/-- What the places of the workers are read against. -/
structure Mode where
  drained : Bool
  stopped : Bool

def mode (inbox : Inbox α) : Mode := ⟨inbox.rb.toList.isEmpty, inbox.procStatus = .stopped⟩

/-- Where a worker stands, in the order of an empty ring, of a stopped mailbox and of one
with messages to take. -/
def Pc.place (mode : Mode) : Pc α → Nat
  | .invoke _ => 7
  | .invoking => 6
  | .schedule _ => if mode.drained then 6 else if mode.stopped then 1 else 3
  | .load => if mode.drained then 5 else if mode.stopped then 5 else 2
  | .popN => if mode.drained then 4 else if mode.stopped then 4 else 1
  | .toIdle => if mode.drained then 3 else if mode.stopped then 3 else 5
  | .recheck => if mode.drained then 2 else if mode.stopped then 2 else 4
  | _ => 0

def State.rank (s : State α) : Nat ×ₗ Nat ×ₗ Nat :=
  Pool.rank s.inbox.rb.toList.length s.inbox.mode Pc.posts Pc.ahead Pc.place s.pool

/-- What an action on the inbox does to the rank. -/
abbrev Sinks (inbox : Inbox α) (pc : Pc α) (turn : Turn α) : Prop :=
  Pool.Sinks inbox.rb.toList.length turn.inbox.rb.toList.length inbox.mode turn.inbox.mode
    Pc.posts Pc.ahead Pc.place pc turn.next turn.spawned

/-- An action that brings a call nearer to its end. -/
theorem sinks_nearer {inbox : Inbox α} {pc : Pc α} {turn : Turn α} (alone : turn.spawned = [])
    (kept : turn.inbox.rb.toList.length + turn.next.posts ≤ inbox.rb.toList.length + pc.posts)
    (falls : turn.next.ahead < pc.ahead) : Sinks inbox pc turn := by
  refine .nearer ?_ ?_ <;> rw [alone]
  · exact kept
  · exact falls

/-- An action of a worker that leaves the ring as it is and the mailbox open or stopped. -/
theorem sinks_onward {inbox : Inbox α} {pc : Pc α} {turn : Turn α} (alone : turn.spawned = [])
    (ring : turn.inbox.rb.toList = inbox.rb.toList)
    (status : turn.inbox.procStatus = .stopped ↔ inbox.procStatus = .stopped)
    (outside : turn.next.posts = 0 ∧ turn.next.ahead = 0)
    (falls : turn.next.place inbox.mode < pc.place inbox.mode) : Sinks inbox pc turn := by
  have same : turn.inbox.mode = inbox.mode := by
    rw [mode, mode, ring, decide_eq_decide.mpr status]
  refine .onward ?_ ?_ same ?_ <;> rw [alone]
  · rw [ring, outside.1]
    exact Nat.le_add_right _ _
  · rw [outside.2]
    exact Nat.zero_le _
  · exact falls

omit [Inhabited α] in
theorem place_pos_of_waits (mode : Mode) : (∀ caller, 0 < (Pc.schedule caller : Pc α).place mode) ∧
    0 < (Pc.toIdle : Pc α).place mode ∧ 0 < (Pc.recheck : Pc α).place mode := by
  obtain ⟨drained, stopped⟩ := mode
  cases drained <;> cases stopped <;> exact ⟨fun _ => by simp [Pc.place], by simp [Pc.place], by simp [Pc.place]⟩

theorem Move.sinks {inbox : Inbox α} (move : Move inbox pc turn) : Sinks inbox pc turn := by
  cases move with
  | push | pushFront => exact sinks_nearer rfl (by simp [Deque.perform, Pc.posts]) Nat.one_pos
  | clear => exact sinks_nearer rfl (by simp [Deque.perform, Pc.posts]) Nat.one_pos
  | start | refused | started | stop => exact sinks_nearer rfl (Nat.le_refl _) (by simp [Pc.ahead])
  | won idle =>
    have same : mode { inbox with procStatus := .running } = inbox.mode := by simp [mode, idle]
    refine .onward (Nat.le_refl _) (Nat.le_refl _) same ?_
    by_cases empty : inbox.rb.toList = [] <;> simp [Pc.place, mode, idle, empty]
  | lost => exact sinks_onward rfl rfl Iff.rfl ⟨rfl, rfl⟩ ((place_pos_of_waits _).1 _)
  | abandoned => exact sinks_onward rfl rfl Iff.rfl ⟨rfl, rfl⟩ (place_pos_of_waits _).2.1
  | finished => exact sinks_onward rfl rfl Iff.rfl ⟨rfl, rfl⟩ (place_pos_of_waits _).2.2
  | enter active =>
    refine sinks_onward rfl rfl Iff.rfl ⟨rfl, rfl⟩ ?_
    by_cases empty : inbox.rb.toList = [] <;> simp [Pc.place, mode, active, empty]
  | leave ended =>
    refine sinks_onward rfl rfl Iff.rfl ⟨rfl, rfl⟩ ?_
    by_cases empty : inbox.rb.toList = [] <;> simp [Pc.place, mode, ended, empty]
  | batch queued =>
    have some := List.length_pos_iff.mpr queued
    refine .drained ?_
    simp only [ring_popN, List.length_drop, messageBatchSize, Pc.posts, List.map_nil, List.sum_nil]
    omega
  | empty drained =>
    refine sinks_onward rfl ?_ Iff.rfl ⟨rfl, rfl⟩ ?_
    · rw [ring_popN, drained, List.drop_nil]
    · simp [Pc.place, mode, drained]
  | invoke => exact sinks_onward rfl rfl Iff.rfl ⟨rfl, rfl⟩ (by simp [Pc.place])
  | returned =>
    refine sinks_onward rfl rfl Iff.rfl ⟨rfl, rfl⟩ ?_
    simp only [Pc.place]
    split
    · decide
    · split <;> decide
  | released running =>
    refine sinks_onward rfl rfl (by simp [running]) ⟨rfl, rfl⟩ ?_
    by_cases empty : inbox.rb.toList = [] <;> simp [Pc.place, mode, running, empty]
  | again queued =>
    refine sinks_onward rfl rfl Iff.rfl ⟨rfl, rfl⟩ ?_
    have drained : inbox.rb.toList.isEmpty = false := by simpa using queued
    simp only [Pc.place, mode, drained, Bool.false_eq_true, if_false]
    split <;> decide

theorem rank_lowers {s t : State α} (moves : label.moves) (stepped : s.step label = some t) :
    t.rank < s.rank := by
  rcases step_cases stepped with ⟨request, rfl, -⟩ | ⟨i, pc, turn, -, found, taken, rfl⟩
  · cases moves
  · exact (step_move taken).sinks.lowers found

/-- `Start` is between its swap and its store. -/
theorem starting_step {s t : State α} (begun : s.inbox.procStatus = .starting → .starting ∈ s.pool)
    (stepped : s.step label = some t) : t.inbox.procStatus = .starting → .starting ∈ t.pool := by
  rcases step_cases stepped with ⟨request, -, rfl⟩ | ⟨i, pc, turn, -, found, taken, rfl⟩
  · exact fun status => List.mem_append_left _ (begun status)
  · intro status
    have others : ∀ (_ : s.inbox.procStatus = .starting) (_ : pc ≠ .starting),
        .starting ∈ s.pool.set i turn.next ++ turn.spawned := by
      intro before other
      obtain ⟨pc', member, rfl⟩ := Pool.exists_kept (P := (· = .starting)) found ⟨_, begun before, rfl⟩ other
      exact member
    cases step_move taken with
    | start => exact List.mem_append_left _ (Pool.mem_moved found)
    | started | stop | won | released => simp at status
    | push | pushFront | lost | enter | leave | batch | empty | invoke | returned | abandoned | again | finished
      | refused | clear => exact others status (by simp)

theorem step_enabled (inbox : Inbox α) {pc : Pc α} (unfinished : pc ≠ .done) : inbox.step pc ≠ none := by
  cases pc with
  | done => exact absurd rfl unfinished
  | toIdle => by_cases ready : inbox.procStatus = .running <;> simp [step, compareAndSwap, ready]
  | start => by_cases ready : inbox.procStatus = .stopped <;> simp [step, compareAndSwap, ready]
  | _ => simp [step]

theorem done_of_stuck {s : State α} (stuck : Stuck State.step Label.moves s) :
    ∀ pc ∈ s.pool, pc = .done := by
  intro pc member
  by_contra unfinished
  obtain ⟨i, found⟩ := List.mem_iff_getElem?.mp member
  obtain ⟨turn, taken⟩ := Option.ne_none_iff_exists'.mp (step_enabled s.inbox unfinished)
  have blocked := stuck (.step i) trivial
  simp only [State.step, found, taken, Option.bind_eq_bind, Option.bind_some, Option.pure_def,
    reduceCtorEq] at blocked

/-- What a mailbox keeps to whatever is called. -/
structure Watched (s : State α) : Prop where
  awake : Awake s
  begun : s.inbox.procStatus = .starting → .starting ∈ s.pool

theorem Watched.step {s t : State α} (watched : Watched s) (stepped : s.step label = some t) : Watched t :=
  ⟨watched.awake.step stepped, starting_step watched.begun stepped⟩

theorem watched_initial (size : Nat) (positive : 0 < size) : Watched (initial size positive : State α) where
  awake := ⟨fun idle => by simp [initial, new] at idle, fun running => by simp [initial, new] at running⟩
  begun starting := by simp [initial, new] at starting

/-- With nobody inside, a mailbox is stopped, or idle and empty. -/
theorem Watched.settled {s : State α} (watched : Watched s) (finished : ∀ pc ∈ s.pool, pc = .done) :
    s.inbox.procStatus = .stopped ∨ s.inbox.procStatus = .idle ∧ s.inbox.rb.toList = [] := by
  cases status : s.inbox.procStatus with
  | stopped => exact .inl rfl
  | starting => cases finished _ (watched.begun status)
  | idle =>
    refine .inr ⟨rfl, ?_⟩
    by_contra queued
    obtain ⟨pc, member, attempts⟩ := watched.awake.noticed status queued
    rw [finished pc member] at attempts
    cases attempts
  | running =>
    obtain ⟨pc, member, works⟩ := watched.awake.staffed status
    rw [finished pc member] at works
    cases works

/-- In whatever state the calls have left a mailbox, the goroutines inside it finish under
every scheduling. Then it is stopped, or idle with an empty ring. -/
theorem mailbox_settles (size : Nat) (positive : 0 < size) (s : State α)
    (reached : Reaches State.step (initial size positive) s) :
    Inevitable State.step Label.moves
      (fun t => (∀ pc ∈ t.pool, pc = .done) ∧
        (t.inbox.procStatus = .stopped ∨ t.inbox.procStatus = .idle ∧ t.inbox.rb.toList = [])) s := by
  refine inevitable_of_rank (I := Watched) State.rank ?_ ?_ ?_ ?_
  · exact fun watched _ stepped => watched.step stepped
  · exact fun _ moves stepped => rank_lowers moves stepped
  · intro t watched stuck
    have finished := done_of_stuck stuck
    exact ⟨finished, watched.settled finished⟩
  · exact reached.invariant Watched.step (watched_initial size positive)

/-- A mailbox that is started again while a message waits: in the end it is stopped or
empty. -/
theorem mailbox_settles_restarted :
    ∃ s t : State Nat, s.inbox.procStatus = .starting ∧ s.inbox.rb.toList = [7] ∧
      Reaches State.step s t ∧ (∀ pc ∈ t.pool, pc = .done) ∧
      (t.inbox.procStatus = .stopped ∨ t.inbox.procStatus = .idle ∧ t.inbox.rb.toList = []) := by
  obtain ⟨s, reached, ends⟩ := exists_of_run State.step (initial 1 Nat.one_pos)
    [.call .start, .step 0, .step 0, .step 0, .call .stop, .step 2, .call (.send 7), .step 3, .call .start, .step 4]
    (fun s => decide (s.inbox.procStatus = .starting ∧ s.inbox.rb.toList = [7])) (by decide)
  obtain ⟨starting, queued⟩ := of_decide_eq_true ends
  obtain ⟨labels, t, -, ran, -, finished, settled⟩ := (mailbox_settles 1 Nat.one_pos s reached).exists_end
  exact ⟨s, t, starting, queued, reaches_of_run ran, finished, settled⟩

/-- Started, and with no Stop under way. -/
def State.open (s : State α) : Prop := s.inbox.procStatus ≠ .stopped ∧ .stop ∉ s.pool

theorem open_step {s t : State α} (opened : s.open) (moves : label.moves) (stepped : s.step label = some t) :
    t.open := by
  rcases step_cases stepped with ⟨request, rfl, -⟩ | ⟨i, pc, turn, -, found, taken, rfl⟩
  · cases moves
  obtain ⟨active, unstopped⟩ := opened
  have other : pc ≠ .stop := by
    rintro rfl
    exact unstopped (List.mem_of_getElem? found)
  have next : turn.inbox.procStatus ≠ .stopped ∧ turn.next ≠ .stop ∧ .stop ∉ turn.spawned := by
    cases step_move taken with
    | stop => exact absurd rfl other
    | push | pushFront | won | lost | enter | leave | batch | empty | invoke | returned | released | abandoned | again
      | finished | start | refused | started | clear => simp [active]
  refine ⟨next.1, fun member => ?_⟩
  rcases List.mem_append.mp member with kept | fresh
  · rcases List.mem_or_eq_of_mem_set kept with earlier | moved
    · exact unstopped earlier
    · exact next.2.1 moved.symm
  · exact next.2.2 fresh

/-- A mailbox that was started and that nobody stops hands every message that entered its
ring to `Invoke`, in the order in which they left it. -/
theorem mailbox_delivers (size : Nat) (positive : 0 < size) (s : State α)
    (reached : Reaches (restrict disciplined State.step) (initial size positive) s)
    (opened : s.open) :
    Inevitable State.step Label.moves
      (fun t => (∀ pc ∈ t.pool, pc = .done) ∧ t.inbox.procStatus = .idle ∧
        Deque.replay t.ops = (t.invoked.flatten, [])) s := by
  have watched : Watched s :=
    (reached.mono fun stepped => (restrict_some stepped).2).invariant Watched.step
      (watched_initial size positive)
  have orderly := reached.invariant Orderly.step (orderly_initial size positive)
  refine inevitable_of_rank (I := fun s => Watched s ∧ Orderly s ∧ s.open) State.rank ?_ ?_ ?_
    ⟨watched, orderly, opened⟩
  · rintro s label t ⟨watched, orderly, opened⟩ moves stepped
    have allowed : restrict disciplined State.step s label = some t := by
      cases label with
      | step i => exact stepped
      | call request => cases moves
    exact ⟨watched.step stepped, orderly.step allowed, open_step opened moves stepped⟩
  · exact fun _ moves stepped => rank_lowers moves stepped
  · rintro t ⟨watched, orderly, opened⟩ stuck
    have finished := done_of_stuck stuck
    rcases watched.settled finished with stopped | ⟨idle, drained⟩
    · exact absurd stopped opened.1
    · refine ⟨finished, idle, ?_⟩
      have nothing : t.inHand = [] := by
        rw [State.inHand, List.flatMap_eq_nil_iff]
        intro pc member
        rw [finished pc member]
        rfl
      rw [orderly.served, nothing, drained, List.append_nil]

/-- Two messages, the second while the first is being worked on: whatever is scheduled, both
are handed over. -/
theorem mailbox_delivers_two :
    ∃ s t : State Nat, s.inbox.procStatus = .running ∧ s.inbox.rb.toList = [8] ∧
      Reaches State.step s t ∧ t.inbox.procStatus = .idle ∧ Deque.replay t.ops = (t.invoked.flatten, []) := by
  obtain ⟨s, reached, ends⟩ := exists_of_run
    (restrict disciplined State.step) (initial 1 Nat.one_pos)
    [.call .start, .step 0, .step 0, .step 0, .step 1, .step 1, .step 1, .step 1, .call (.send 7), .step 2, .step 2,
      .step 3, .step 3, .call (.send 8), .step 4]
    (fun s => decide (s.inbox.procStatus = .running ∧ s.inbox.rb.toList = [8] ∧ Pc.stop ∉ s.pool)) (by decide)
  obtain ⟨running, queued, unstopped⟩ := of_decide_eq_true ends
  have delivers := mailbox_delivers 1 Nat.one_pos s reached ⟨by simp [running], unstopped⟩
  obtain ⟨labels, t, -, ran, -, -, idle, served⟩ := delivers.exists_end
  exact ⟨s, t, running, queued, reaches_of_run ran, idle, served⟩

end Hollywood.Inbox
