import Hollywood.Engine.Quiescence
import Hollywood.Engine.LastBatch
import Hollywood.Engine.Ledger
import Hollywood.Inbox.Progress

/-! Progress of an actor: once nobody calls the engine and the receiver returns from every
call, all goroutines of the actor come to an end however they are scheduled. The messages in
the ring and on their way into it count most, then what a goroutine has ahead of it in the
process, then where it stands in the loop of the inbox. -/
namespace Hollywood
open Transition
variable {M W : Type} [Inhabited M]

/-- The steps in the process before the loop of the inbox goes on, with so many children. -/
def Act.ahead (children : Nat) : Act M → Nat
  | .start => 5
  | .receiving .initialized => 4
  | .receiving .started => 3
  | .inboxStart pc => pc.ahead
  | .loop (.invoke msgs) => 13 + children + 4 * msgs.length
  | .loop pc => pc.ahead
  | .invoke f => 12 + children + 2 * f.msgs.length + 2 * (f.msgs.length - f.i)
  | .receiving (.message f) => 13 + children + 2 * f.msgs.length + 2 * (f.msgs.length - (f.i + 1))
  | .flush _ rest _ => 11 + children + 2 * rest.length
  | .receiving (.flush _ rest _) => 12 + children + 2 * rest.length
  | .cleanup _ => 10 + children
  | .childrenLen _ => 9 + children
  | .makeChildren _ => 8 + children
  | .fillChildren _ size => 7 + size
  | .poison _ rest => 6 + rest.length
  | .stopInbox _ => 5
  | .unregister _ => 4
  | .stopping _ => 3
  | .receiving (.cleanup _) => 2
  | .cancel _ => 1
  | _ => 0

/-- What a goroutine does by itself, with a receiver that returns. -/
def Action.goes : Action → Prop
  | .step | .receive .returns => True
  | _ => False

theorem Action.goes_calm {action : Action} (goes : action.goes) : action.calm = true := by
  cases action with
  | receive outcome => cases outcome <;> first | rfl | cases goes
  | _ => rfl

namespace Goroutine

/-- The messages that a goroutine may still put into the mailbox. -/
def posts : Goroutine M → Nat
  | .caller request .sendPoisonPill | .caller request .lookup => request.pc.posts
  | .caller _ (.inbox pc) | .proc ⟨_, _, .loop pc⟩ | .proc ⟨_, _, .inboxStart pc⟩ => pc.posts
  | _ => 0

def ahead (children : Nat) : Goroutine M → Nat
  | .caller _ .sendPoisonPill => 3
  | .caller _ .lookup => 2
  | .caller _ (.inbox pc) => pc.ahead
  | .caller _ .returned => 0
  | .proc r => r.act.ahead children

def place (mode : Inbox.Mode) : Goroutine M → Nat
  | .caller _ (.inbox pc) | .proc ⟨_, _, .loop pc⟩ | .proc ⟨_, _, .inboxStart pc⟩ => pc.place mode
  | _ => 0

end Goroutine

namespace Actor

/-- What a step from one state of the actor to another does to the rank. -/
abbrev Sinks (a b : Actor M W) (g next : Goroutine M) (spawned : List (Goroutine M)) : Prop :=
  Pool.Sinks a.inbox.rb.toList.length b.inbox.rb.toList.length a.inbox.mode b.inbox.mode
    Goroutine.posts (Goroutine.ahead a.children.length) Goroutine.place g next spawned

/-- A step in the process, outside the inbox. -/
theorem sinks_process {a b : Actor M W} {r next : Routine M} (ring : b.inbox.rb = a.inbox.rb)
    (silent : (Goroutine.proc next).posts = 0)
    (falls : next.act.ahead a.children.length < r.act.ahead a.children.length) :
    a.Sinks b (.proc r) (.proc next) [] := by
  refine .nearer ?_ ?_
  · rw [ring, silent]
    exact Nat.le_add_right _ _
  · exact falls

omit [Inhabited M] in
/-- A call that returns leaves nothing ahead and is not on its way into the mailbox. -/
theorem ret_ahead {r : Routine M} (alone : r.replays = 0) (children : Nat) :
    r.ret.act.ahead children = 0 ∧ (Goroutine.proc r.ret).posts = 0 := by
  obtain ⟨base, replays, act⟩ := r
  subst alone
  cases base <;> exact ⟨rfl, rfl⟩

/-- An action on the inbox by a goroutine that goes on in it, or that comes to its end. -/
theorem sinks_inbox {a : Actor M W} {g next : Goroutine M} (move : Inbox.Move a.inbox pc turn)
    (before : g.posts = pc.posts ∧ g.ahead a.children.length = pc.ahead ∧
      ∀ mode, g.place mode = pc.place mode)
    (after : next.posts ≤ turn.next.posts ∧ next.ahead a.children.length ≤ turn.next.ahead ∧
      ∀ mode, next.place mode ≤ turn.next.place mode) :
    a.Sinks (a.record pc turn) g next (turn.spawned.map fun pc => .proc (worker pc)) := by
  refine move.sinks.lift before after ?_
  intro w member
  have loads : w = .load := by
    cases move with
    | won => simpa using member
    | _ => cases member
  subst loads
  exact ⟨rfl, rfl, fun _ => rfl⟩

/-- A batch is taken out of the ring, and with it the largest part of the rank. -/
theorem sinks_batch {a : Actor M W} {g : Goroutine M} {r : Routine M} (move : Inbox.Move a.inbox pc turn)
    (taken : turn.next = .invoke msgs) :
    a.Sinks (a.record pc turn) g (.proc (r.goto (.loop (.invoke msgs))))
      (turn.spawned.map fun pc => .proc (worker pc)) := by
  cases move with
  | batch queued =>
    have some := List.length_pos_iff.mpr queued
    refine .drained ?_
    have silent : (Goroutine.proc (r.goto (.loop (.invoke msgs)))).posts = 0 := rfl
    simp only [record, Inbox.ring_popN, List.length_drop, messageBatchSize, silent, List.map_nil,
      List.sum_nil]
    omega
  | _ => cases taken

theorem Move.sinks {a : Actor M W} {r : Routine M} (sound : r.Sound a)
    (known : r.act.stage.holds = true → r.Untroubled a) (move : Move a r b next spawned) :
    a.Sinks b (.proc r) (.proc next) (spawned.map .proc) := by
  obtain ⟨base, replays, act⟩ := r
  cases move with
  | @looped pc turn position move notDone silent =>
    subst position
    rw [List.map_map]
    cases after : turn.next with
    | invoke msgs => exact sinks_batch move after
    | _ =>
      refine sinks_inbox move ⟨rfl, ?_, fun _ => rfl⟩ ?_
      · cases pc <;> first | rfl | cases silent
      · rw [after]
        exact ⟨Nat.le_refl _, Nat.le_refl _, fun _ => Nat.le_refl _⟩
  | @left pc turn position move done =>
    subst position
    rw [List.map_map]
    refine sinks_inbox move ⟨rfl, ?_, fun _ => rfl⟩ ⟨Nat.zero_le _, Nat.zero_le _, fun _ => Nat.zero_le _⟩
    cases move <;> first | rfl | cases done
  | @inboxStarting pc turn position move notDone =>
    subst position
    rw [List.map_map]
    exact sinks_inbox move ⟨rfl, rfl, fun _ => rfl⟩
      ⟨Nat.le_refl _, Nat.le_refl _, fun _ => Nat.le_refl _⟩
  | @inboxStarted pc turn position move done =>
    subst position
    rw [List.map_map]
    have placed := sound.placed
    generalize a.inbox.procStatus = status at placed
    generalize a.mbuffer = buffer at placed
    cases pc with
    | schedule caller =>
      -- only the spawner wakes the mailbox at the end of `Start`
      cases placed
      exact sinks_inbox move ⟨rfl, rfl, fun _ => rfl⟩ ⟨Nat.zero_le _, Nat.zero_le _, fun _ => Nat.zero_le _⟩
    | start =>
      have untroubled := known rfl
      cases move with
      | start => cases done
      | refused =>
        obtain ⟨near, posts⟩ := ret_ahead (r := ⟨base, replays, .inboxStart .start⟩) untroubled.alone
          a.children.length
        refine sinks_process rfl posts ?_
        rw [near]
        exact Nat.two_pos
    | starting =>
      cases move
      cases done
    | _ => exact absurd placed Routine.Placed.not_astray
  | invokeEnd position | cancelPill position =>
    subst position
    have returned := ret_ahead (known rfl).alone
    refine sinks_process rfl (returned 0).2 ?_
    rw [(returned _).1]
    simp only [Act.ahead]
    omega
  | @invokeGraceful f ctx author position found =>
    subst position
    refine sinks_process rfl rfl ?_
    simp only [Routine.goto, Act.ahead, List.length_drop]
    omega
  | @invokeUser f msg author position found =>
    subst position
    have inside := (List.getElem?_eq_some_iff.mp found).1
    refine sinks_process rfl rfl ?_
    simp only [Routine.goto, Act.ahead]
    omega
  | @fillChildren reason size position fits =>
    subst position
    refine sinks_process rfl rfl ?_
    simp only [Routine.goto, Act.ahead, List.length_append, List.length_map, List.length_replicate]
    omega
  | fillPanics position more => exact absurd more (sound.room position)
  | cancelNil position => exact absurd position sound.not_limit
  | replayed position | recoverStart position | recoverInvoke position | restartInternal position
  | restartLimit position | restart position | countRestart position | announceRestart position =>
    subst position
    cases (known rfl).steady
  | _ position =>
    subst position
    refine sinks_process rfl rfl ?_
    simp only [Routine.goto, Act.ahead, Frame.enter, List.length_cons, List.length_nil]
    omega

theorem resume_sinks {a : Actor M W} {r : Routine M} (sound : r.Sound a) (untroubled : r.Untroubled a)
    (position : r.act = .receiving site) :
    a.Sinks (a.resume r site .returns).1 (.proc r) (.proc (a.resume r site .returns).2) [] := by
  obtain ⟨base, replays, act⟩ := r
  subst position
  cases site with
  | started =>
    simp only [resume, untroubled.empty, List.length_nil, gt_iff_lt, lt_self_iff_false, if_false]
    exact sinks_process rfl rfl (by simp [Routine.goto, Act.ahead, Inbox.Pc.ahead])
  | crashedInvoke f v | crashedStart v => cases untroubled.steady
  | _ =>
    refine sinks_process rfl rfl ?_
    simp only [resume, Routine.goto, Act.ahead]
    omega

theorem Advance.sinks {a : Actor M W} (inside : a.Inside g) (known : g.holds = true → Engine.Untroubled a g)
    (goes : action.goes) (advance : Advance a g action b next spawned) :
    a.Sinks b g next spawned ∧ b.children = a.children := by
  cases advance with
  | accepted => exact ⟨.nearer (Nat.le_refl _) (by simp [Goroutine.ahead]), rfl⟩
  | @found request =>
    refine ⟨.nearer (Nat.le_refl _) ?_, rfl⟩
    cases request <;> simp [Goroutine.ahead, Request.pc, Inbox.Pc.ahead]
  | rejected | missing =>
    refine ⟨.nearer ?_ ?_, rfl⟩
    · exact Nat.add_le_add_left (Nat.zero_le _) _
    · simp [Goroutine.ahead]
  | mailed move =>
    exact ⟨sinks_inbox move ⟨rfl, rfl, fun _ => rfl⟩ ⟨Nat.le_refl _, Nat.le_refl _, fun _ => Nat.le_refl _⟩, rfl⟩
  | returned move =>
    exact ⟨sinks_inbox move ⟨rfl, rfl, fun _ => rfl⟩
      ⟨Nat.zero_le _, Nat.zero_le _, fun _ => Nat.zero_le _⟩, rfl⟩
  | moved move => exact ⟨move.sinks inside known, (move.fades inside).2⟩
  | @resumed r outcome site position =>
    cases outcome with
    | panics v => cases goes
    | returns =>
      exact ⟨resume_sinks inside (known (receiving_holds inside position)) position, (a.resume_fades r site).2⟩
  | spawnedChild => cases goes

/-- Without a panic of the receiver, nothing leaves the process by a panic. -/
theorem Move.survives {a : Actor M W} {r : Routine M} (sound : r.Sound a) (move : Move a r b next spawned) :
    (Goroutine.proc next).crashed = false := by
  obtain ⟨base, replays, act⟩ := r
  cases move with
  | inboxStarted | invokeEnd | cancelPill => cases replays <;> cases base <;> rfl
  | fillPanics position more => exact absurd more (sound.room position)
  | cancelNil position => exact absurd position sound.not_limit
  | _ => rfl

theorem Advance.survives {a : Actor M W} (inside : a.Inside g) (calm : action.calm = true)
    (advance : Advance a g action b next spawned) : next.crashed = false ∧ ∀ h ∈ spawned, h.crashed = false := by
  have workers {pcs : List (Inbox.Pc (Envelope M))} :
      ∀ h ∈ pcs.map fun pc => Goroutine.proc (worker pc), h.crashed = false := by
    intro h member
    obtain ⟨pc, -, rfl⟩ := List.mem_map.mp member
    rfl
  cases advance with
  | mailed | returned => exact ⟨rfl, workers⟩
  | moved move =>
    refine ⟨move.survives inside, fun h member => ?_⟩
    obtain ⟨r, spawned, rfl⟩ := List.mem_map.mp member
    obtain ⟨pc, rfl⟩ := move.spawns r spawned
    rfl
  | @resumed r outcome site position =>
    refine ⟨?_, List.forall_mem_nil _⟩
    cases outcome with
    | panics v => cases calm
    | returns =>
      cases site with
      | started =>
        simp only [resume]
        split <;> rfl
      | _ => rfl
  | @spawnedChild r child site position =>
    obtain ⟨base, replays, act⟩ := r
    subst position
    exact ⟨rfl, List.forall_mem_nil _⟩
  | _ => exact ⟨rfl, List.forall_mem_nil _⟩

/-- A goroutine that has not returned can go on. -/
theorem act_enabled {a : Actor M W} {g : Goroutine M} (inside : a.Inside g) (alive : g.crashed = false)
    (busy : g.done = false) : ∃ action, action.goes ∧ a.act g action ≠ none := by
  cases g with
  | caller request pc =>
    refine ⟨.step, trivial, ?_⟩
    cases pc with
    | returned => cases busy
    | inbox pc =>
      have unfinished : pc ≠ .done := by
        rintro rfl
        cases inside.1
      obtain ⟨turn, taken⟩ := Option.ne_none_iff_exists'.mp (a.inbox.step_enabled unfinished)
      simp [act, call, taken]
    | _ => simp [act, call]
  | proc r =>
    obtain ⟨base, replays, place⟩ := r
    have placed := Routine.Sound.placed inside
    cases place with
    | receiving site => exact ⟨.receive .returns, trivial, by simp [act]⟩
    | returned => cases busy
    | panicked v => cases alive
    | loop pc | inboxStart pc =>
      refine ⟨.step, trivial, ?_⟩
      have unfinished : pc ≠ .done := by
        rintro rfl
        exact absurd placed Routine.Placed.not_astray
      obtain ⟨turn, taken⟩ := Option.ne_none_iff_exists'.mp (a.inbox.step_enabled unfinished)
      cases pc <;> simp [act, step, loop, inboxStart, taken]
    | poison reason rest => exact ⟨.step, trivial, by cases rest <;> simp [act, step]⟩
    | _ => exact ⟨.step, trivial, by simp [act, step]⟩

end Actor

namespace Engine
variable {i : Nat}

/-- Nobody calls, and the receiver returns. -/
def Label.moves : Label M → Prop
  | .act _ action => action.goes
  | _ => False

def State.rank (s : State M W) : Nat ×ₗ Nat ×ₗ Nat :=
  Pool.rank s.actor.inbox.rb.toList.length s.actor.inbox.mode Goroutine.posts
    (Goroutine.ahead s.actor.children.length) Goroutine.place s.pool

theorem rank_lowers {s t : State M W} (departure : Departure s) (moves : label.moves)
    (stepped : s.step label = some t) : t.rank < s.rank := by
  rcases step_cases stepped with ⟨call, rfl, -⟩ | ⟨child, rfl, -⟩ |
    ⟨i, action, g, b, next, spawned, rfl, found, advance, rfl⟩
  · cases moves
  · cases moves
  · obtain ⟨inside, known⟩ := departure.inside g (List.mem_of_getElem? found)
    obtain ⟨sinks, children⟩ := advance.sinks inside (fun holder => (known holder).1) moves
    have lowers := sinks.lowers found
    rw [State.rank]
    dsimp only
    rwa [children]

/-- A run without panics of the receiver does not end the program. -/
theorem Runs.survives {s : State M W} (runs : Runs s) : ∀ g ∈ s.pool, g.crashed = false := by
  obtain ⟨opts, positive, parent, reached⟩ := runs
  have both : Departure s ∧ ∀ g ∈ s.pool, g.crashed = false := by
    refine reached.invariant (P := fun s => Departure s ∧ ∀ g ∈ s.pool, g.crashed = false) ?_ ⟨?_, ?_⟩
    · rintro s label t ⟨departure, alive⟩ stepped
      refine ⟨departure.step stepped, ?_⟩
      obtain ⟨allowed, stepped⟩ := restrict_some stepped
      rcases step_cases stepped with ⟨call, rfl, rfl⟩ | ⟨child, rfl, rfl⟩ |
        ⟨i, action, g, b, next, spawned, rfl, found, advance, rfl⟩
      · intro g member
        rcases List.mem_append.mp member with old | new
        · exact alive g old
        · rw [List.mem_singleton.mp new]
          rfl
      · exact alive
      · have inside := (departure.inside g (List.mem_of_getElem? found)).1
        obtain ⟨mine, fresh⟩ := advance.survives inside allowed
        exact Pool.forall_step found alive (fun _ same => same) (fun _ => mine) fresh
    · exact Runs.departure ⟨opts, positive, parent, .refl _⟩
    · simp [initial, Goroutine.crashed]
  exact both.2

theorem Runs.moves {s t : State M W} (runs : Runs s) (moves : label.moves) (stepped : s.step label = some t) :
    Runs t := by
  have allowed : calm s label = true := by
    cases label with
    | act i action => exact Action.goes_calm moves
    | _ => cases moves
  refine runs.trans (.next (.refl _) (l := label) ?_)
  rw [restrict, if_pos allowed, stepped]

theorem Runs.quiescent {s : State M W} (runs : Runs s) (stuck : Stuck State.step Label.moves s) :
    s.quiescent = true := by
  rw [State.quiescent, List.all_eq_true]
  intro g member
  by_contra busy
  obtain ⟨i, found⟩ := List.mem_iff_getElem?.mp member
  have inside := (runs.departure.inside g member).1
  obtain ⟨action, goes, enabled⟩ :=
    Actor.act_enabled inside (runs.survives g member) (Bool.eq_false_of_not_eq_true busy)
  obtain ⟨⟨b, next, spawned⟩, acted⟩ := Option.ne_none_iff_exists'.mp enabled
  have alive : s.pool.any Goroutine.crashed = false := List.any_eq_false.mpr fun g member => by
    simp [runs.survives g member]
  have blocked := stuck (.act i action) goes
  simp [State.step, alive, found, acted] at blocked

/-- An actor at rest waits for mail with an empty mailbox, or has left the engine. -/
theorem Runs.rested {s : State M W} (runs : Runs s) (quiet : s.quiescent = true) :
    s.actor.inbox.procStatus = .idle ∧ s.actor.inbox.rb.toList = [] ∧ s.actor.registered = true ∨
      s.actor.inbox.procStatus = .stopped ∧ s.actor.departed = true ∧ s.actor.parent = false := by
  have away := (runs.departure.rest (quiescent_pending quiet).2).2
  rcases quiescent_inbox runs quiet with ⟨idle, drained⟩ | stopped
  · exact .inl ⟨idle, drained, ((Actor.away_running (by simp [idle])).mp away).1⟩
  · rw [Actor.Away, if_pos stopped] at away
    exact .inr ⟨stopped, away⟩

/-- In whatever state an actor is whose receiver has not panicked, all of its goroutines
finish under every scheduling once the calls stop. Then it waits for mail with an empty
mailbox, or it has left the engine with Stopped as the last thing it was told. -/
theorem actor_comes_to_rest (s : State M W) (runs : Runs s) :
    Inevitable State.step Label.moves
      (fun t => t.quiescent = true ∧
        (t.actor.inbox.procStatus = .idle ∧ t.actor.inbox.rb.toList = [] ∧ t.actor.registered = true ∨
          t.actor.inbox.procStatus = .stopped ∧ t.actor.departed = true ∧ t.actor.parent = false)) s := by
  refine inevitable_of_rank (I := Runs) State.rank ?_ ?_ ?_ runs
  · exact fun runs moves stepped => runs.moves moves stepped
  · exact fun runs moves stepped => rank_lowers runs.departure moves stepped
  · intro t runs stuck
    have quiet := runs.quiescent stuck
    exact ⟨quiet, runs.rested quiet⟩

/-- The receiver is at its second message, and a pill and a third message are in the mailbox. -/
theorem actor_comes_to_rest_busy :
    ∃ s t : State Nat Nat, s.quiescent = false ∧ s.actor.inbox.rb.toList.length = 2 ∧
      Reaches State.step s t ∧ t.quiescent = true ∧
      (t.actor.inbox.procStatus = .idle ∧ t.actor.inbox.rb.toList = [] ∧ t.actor.registered = true ∨
        t.actor.inbox.procStatus = .stopped ∧ t.actor.departed = true ∧ t.actor.parent = false) := by
  obtain ⟨s, reached, ends⟩ := exists_of_run (restrict calm State.step)
    (initial ⟨3, 1, []⟩ Nat.one_pos false : State Nat Nat)
    ([.call (.send 1 none), .call (.send 2 none)] ++ steps 1 3 ++ steps 2 3 ++ steps 0 1 ++ [returns 0, returns 0] ++
      steps 0 3 ++ steps 3 4 ++ [returns 3] ++ steps 3 1 ++
      [.call .stop, .call (.send 3 none)] ++ steps 4 3 ++ steps 5 2)
    (fun s => s.quiescent = false ∧ s.actor.inbox.rb.toList.length = 2) (by decide +kernel)
  obtain ⟨busy, queued⟩ := of_decide_eq_true ends
  obtain ⟨labels, t, -, ran, -, quiet, rest⟩ :=
    (actor_comes_to_rest s ⟨_, Nat.one_pos, false, reached⟩).exists_end
  exact ⟨s, t, busy, queued, reaches_of_run ran, quiet, rest⟩

end Engine
end Hollywood
