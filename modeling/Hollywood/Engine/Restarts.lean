import Hollywood.Engine.Exclusion
import Hollywood.Process.Thread

/-! The restart budget. `tryRestart` compares the counter with the limit for equality, then
increments it and reads it once more for the event, so that the limit holds only as long as
the counter grows by one at a time from below. Two goroutines that make the comparison
before either increments go past it. -/
namespace Hollywood
open Transition
variable {M W : Type} [Inhabited M]

/-- The number and the reason in an `ActorRestartedEvent`. -/
def Event.restart : Event M → Option (Int32 × Panic)
  | .actorRestarted restarts reason => some (restarts, reason)
  | _ => none

namespace Goroutine

/-- The panic that a goroutine takes to `tryRestart`. -/
def raised : Goroutine M → Option Panic
  | .proc r => r.act.raised
  | .caller _ _ => none

/-- The goroutine has found restarts left and has yet to count its own. -/
def counting : Goroutine M → Bool
  | .proc ⟨_, _, .countRestart⟩ => true
  | _ => false

/-- The goroutine has counted its restart and has yet to broadcast it. -/
def announcing : Goroutine M → Bool
  | .proc ⟨_, _, .announceRestart⟩ => true
  | _ => false

omit [Inhabited M] in
theorem counting_inProcess {g : Goroutine M} (counting : g.counting = true) : g.inProcess = true := by
  unfold Goroutine.counting at counting
  split at counting
  · rfl
  · cases counting

omit [Inhabited M] in
theorem announcing_inProcess {g : Goroutine M} (announcing : g.announcing = true) :
    g.inProcess = true := by
  unfold Goroutine.announcing at announcing
  split at announcing
  · rfl
  · cases announcing

end Goroutine

namespace Routine

omit [Inhabited M] in
theorem ret_restarts (r : Routine M) :
    (Goroutine.proc r.ret).counting = false ∧ (Goroutine.proc r.ret).announcing = false := by
  obtain ⟨base, replays, act⟩ := r
  cases replays <;> cases base <;> exact ⟨rfl, rfl⟩

omit [Inhabited M] in
theorem escape_restarts (r : Routine M) (v : Panic) :
    (Goroutine.proc (r.escape v)).counting = false ∧
      (Goroutine.proc (r.escape v)).announcing = false := by
  obtain ⟨base, replays, act⟩ := r
  cases replays <;> exact ⟨rfl, rfl⟩

end Routine

namespace Actor
variable {a b : Actor M W} {r next : Routine M} {spawned : List (Routine M)}

def restartEvents (a : Actor M W) : List (Int32 × Panic) := a.events.filterMap Event.restart

/-- What one action does to the budget. Most do nothing, one of them finds that the limit
is not reached yet; one counts a restart, and one broadcasts it. -/
inductive Counts (a b : Actor M W) (g next : Goroutine M) : Prop where
  | same : b.opts = a.opts → b.restarts = a.restarts → b.restartEvents = a.restartEvents →
      g.announcing = false → next.announcing = false →
      (next.counting = true → a.restarts ≠ a.opts.maxRestarts) → Counts a b g next
  | counted : b.opts = a.opts → b.restarts = a.restarts + 1 → b.restartEvents = a.restartEvents →
      g.counting = true → g.announcing = false → next.announcing = true → next.counting = false →
      g.raised = some .error → Counts a b g next
  | announced : b.opts = a.opts → b.restarts = a.restarts →
      b.restartEvents = a.restartEvents ++ [(a.restarts, .error)] →
      g.announcing = true → next.announcing = false → next.counting = false → g.raised = none →
      Counts a b g next

/-- Most goroutines are nowhere near `tryRestart`. -/
theorem Counts.idle {g next : Goroutine M} (opts : b.opts = a.opts) (restarts : b.restarts = a.restarts)
    (events : b.restartEvents = a.restartEvents) (silent : g.announcing = false)
    (away : next.counting = false ∧ next.announcing = false) : Counts a b g next := by
  refine .same opts restarts events silent away.2 ?_
  rw [away.1]
  rintro ⟨⟩

/-- Any other event, and any number of them. -/
theorem restartEvents_append (others : List (Event M)) (events : b.events = a.events ++ others)
    (silent : others.filterMap Event.restart = []) : b.restartEvents = a.restartEvents := by
  rw [restartEvents, events, List.filterMap_append, silent, List.append_nil, restartEvents]

theorem abort_counts (a : Actor M W) (r : Routine M) (v : Panic) (reason : Reason M)
    (silent : (Goroutine.proc r).announcing = false) :
    Counts a (a.abort r v reason).1 (.proc r) (.proc (a.abort r v reason).2) := by
  cases reason with
  | pill f ctx => exact .idle rfl rfl rfl silent ⟨rfl, rfl⟩
  | limit => exact .idle rfl rfl rfl silent (r.escape_restarts .error)

theorem Move.counts (move : Move a r b next spawned) : Counts a b (.proc r) (.proc next) := by
  obtain ⟨base, replays, act⟩ := r
  cases move with
  | restart position below =>
    subst position
    exact .same rfl rfl rfl rfl rfl fun _ => below
  | countRestart position =>
    subst position
    exact .counted rfl rfl rfl rfl rfl rfl rfl rfl
  | announceRestart position =>
    subst position
    refine .announced rfl rfl ?_ rfl rfl rfl rfl
    rw [restartEvents, broadcast, List.filterMap_append]
    rfl
  | restartLimit position limit =>
    subst position
    exact .idle rfl rfl (restartEvents_append [.actorMaxRestartsExceeded] rfl rfl) rfl ⟨rfl, rfl⟩
  | fillPanics position _ =>
    subst position
    exact abort_counts a _ .error _ rfl
  | inboxStarted position | invokeEnd position | cancelPill position =>
    subst position
    exact .idle rfl rfl rfl rfl (Routine.ret_restarts _)
  | cancelNil position =>
    subst position
    exact .idle rfl rfl rfl rfl (Routine.escape_restarts _ .error)
  | _ position =>
    subst position
    exact .idle rfl rfl rfl rfl ⟨rfl, rfl⟩

theorem resume_counts (a : Actor M W) {r : Routine M} (site : Site M) (outcome : Outcome)
    (position : r.act = .receiving site) :
    Counts a (a.resume r site outcome).1 (.proc r) (.proc (a.resume r site outcome).2) := by
  obtain ⟨base, replays, act⟩ := r
  subst position
  cases outcome with
  | returns =>
    cases site with
    | initialized =>
      exact .idle rfl rfl (restartEvents_append [.actorInitialized] rfl rfl) rfl ⟨rfl, rfl⟩
    | started =>
      rw [resume]
      split
      · exact .idle rfl rfl (restartEvents_append [.actorStarted] rfl rfl) rfl ⟨rfl, rfl⟩
      · exact .idle rfl rfl (restartEvents_append [.actorStarted] rfl rfl) rfl ⟨rfl, rfl⟩
    | cleanup reason =>
      exact .idle rfl rfl (restartEvents_append [.actorStopped] rfl rfl) rfl ⟨rfl, rfl⟩
    | message f | flush f rest ctx | crashedInvoke f v | crashedStart v =>
      exact .idle rfl rfl rfl rfl ⟨rfl, rfl⟩
  | panics v =>
    cases site with
    | cleanup reason => exact abort_counts a _ v reason rfl
    | initialized | started | message f | flush f rest ctx =>
      exact .idle rfl rfl rfl rfl ⟨rfl, rfl⟩
    | crashedInvoke f w | crashedStart w =>
      exact .idle rfl rfl rfl rfl (Routine.escape_restarts _ v)

omit [Inhabited M] in
theorem undelivered_restart (request : Request M) :
    request.undelivered.filterMap Event.restart = [] := by
  cases request with
  | send | sendPriority | poison | clearMailbox => rfl

theorem Advance.counts {g h : Goroutine M} {action : Action} {others : List (Goroutine M)}
    (advance : Advance a g action b h others) : Counts a b g h := by
  cases advance with
  | moved move => exact move.counts
  | resumed position => exact resume_counts a _ _ position
  | rejected _ | missing _ =>
    exact .idle rfl rfl (restartEvents_append _ rfl (undelivered_restart _)) rfl ⟨rfl, rfl⟩
  | @spawnedChild r child site position =>
    obtain ⟨base, replays, act⟩ := r
    subst position
    exact .idle rfl rfl rfl rfl ⟨rfl, rfl⟩
  | accepted | found | mailed | returned => exact .idle rfl rfl rfl rfl ⟨rfl, rfl⟩

/-- What is spawned is a worker at its loop. -/
theorem Advance.fresh {g h : Goroutine M} {action : Action} {others : List (Goroutine M)}
    (advance : Advance a g action b h others) :
    others.countP Goroutine.counting = 0 ∧ others.countP Goroutine.announcing = 0 := by
  have workers : ∀ other ∈ others, ∃ pc, other = .proc (worker pc) := by
    cases advance with
    | mailed move | returned move =>
      intro other member
      obtain ⟨pc, -, rfl⟩ := List.mem_map.mp member
      exact ⟨pc, rfl⟩
    | moved move =>
      intro other member
      obtain ⟨w, started, rfl⟩ := List.mem_map.mp member
      obtain ⟨pc, rfl⟩ := move.spawns w started
      exact ⟨pc, rfl⟩
    | _ => exact List.forall_mem_nil _
  have none (p : Goroutine M → Bool) (away : ∀ pc, p (.proc (worker pc)) = false) : others.countP p = 0 := by
    rw [List.countP_eq_zero]
    intro other member
    obtain ⟨pc, rfl⟩ := workers other member
    exact Bool.eq_false_iff.mp (away pc)
  exact ⟨none _ fun _ => rfl, none _ fun _ => rfl⟩

end Actor

namespace Engine

/-- The events are numbered from one on, and the counter is their number and that of the
restarts that are still to be broadcast. -/
structure Budgeted (opts : Opts W) (s : State M W) : Prop where
  same : s.actor.opts = opts
  within : s.actor.restarts.toInt ≤ opts.maxRestarts.toInt
  counted : (s.actor.restartEvents.length : Int) + s.pool.countP Goroutine.announcing =
    s.actor.restarts.toInt
  numbered : ∀ (n : Nat) e, s.actor.restartEvents[n]? = some e → e.1.toInt = n + 1 ∧ e.2 = .error
  room : 0 < s.pool.countP Goroutine.counting → s.actor.restarts ≠ opts.maxRestarts

theorem Budgeted.advance {opts : Opts W} {s : State M W} {i : Nat} (budgeted : Budgeted opts s)
    (single : s.pool.countP Goroutine.inProcess ≤ 1) (found : s.pool[i]? = some g)
    (advance : s.actor.Advance g action b next spawned) :
    Budgeted opts { s with actor := b, pool := s.pool.set i next ++ spawned } := by
  obtain ⟨same, within, counted, numbered, room⟩ := budgeted
  have counting := Pool.countP_step Goroutine.counting found next spawned
  have announcing := Pool.countP_step Goroutine.announcing found next spawned
  rw [advance.fresh.1] at counting
  rw [advance.fresh.2] at announcing
  cases advance.counts with
  | same opts restarts events silent unannouncing below =>
    simp only [silent, unannouncing, Bool.false_eq_true, if_false] at announcing
    refine ⟨opts.trans same, ?_, ?_, ?_, ?_⟩
    · rwa [restarts]
    · rw [events, restarts, ← counted]
      dsimp only
      omega
    · rwa [events]
    · intro some
      dsimp only at some ⊢
      rw [restarts]
      by_cases passed : next.counting = true
      · rw [← same]
        exact below passed
      · rw [if_neg passed] at counting
        exact room (by omega)
  | counted opts restarts events counts silent announces uncounting _ =>
    -- nobody else counts meanwhile, so the limit that was not reached is not reached yet
    have sole := Pool.countP_sole (q := Goroutine.counting) single found
      (Goroutine.counting_inProcess counts) fun _ => Goroutine.counting_inProcess
    simp only [counts, uncounting, if_true, Bool.false_eq_true, if_false] at sole counting
    simp only [silent, announces, if_true, Bool.false_eq_true, if_false] at announcing
    obtain ⟨more, bound⟩ := restart_toInt within (room (by omega))
    refine ⟨opts.trans same, ?_, ?_, ?_, ?_⟩
    · rw [restarts, more]
      exact bound
    · rw [events, restarts, more, ← counted]
      dsimp only
      omega
    · rwa [events]
    · intro some
      dsimp only at some
      omega
  | announced opts restarts events announces unannouncing uncounting _ =>
    have sole := Pool.countP_sole (q := Goroutine.announcing) single found
      (Goroutine.announcing_inProcess announces) fun _ => Goroutine.announcing_inProcess
    simp only [announces, unannouncing, if_true, Bool.false_eq_true, if_false] at sole announcing
    refine ⟨opts.trans same, ?_, ?_, ?_, ?_⟩
    · rwa [restarts]
    · rw [events, restarts, ← counted, List.length_append, List.length_singleton]
      dsimp only
      omega
    · intro n e at_n
      rw [events, List.getElem?_append] at at_n
      split at at_n
      · exact numbered n e at_n
      · have position := (List.getElem?_eq_some_iff.mp at_n).1
        rw [List.length_singleton] at position
        have here : n = s.actor.restartEvents.length := by omega
        rw [here, Nat.sub_self] at at_n
        cases at_n
        rw [here, ← counted, sole]
        exact ⟨rfl, rfl⟩
    · intro some
      dsimp only at some ⊢
      rw [restarts]
      simp only [uncounting, Bool.false_eq_true, if_false] at counting
      exact room (by omega)

theorem Budgeted.step {opts : Opts W} {s t : State M W} (budgeted : Budgeted opts s)
    (stepped : restrict alone State.step s label = some t) : Budgeted opts t := by
  obtain ⟨single, stepped⟩ := restrict_some stepped
  rcases step_cases stepped with ⟨call, rfl, rfl⟩ | ⟨child, rfl, rfl⟩ |
    ⟨i, action, g, b, next, spawned, rfl, found, advance, rfl⟩
  · have announcing : (s.call call).pool.countP Goroutine.announcing =
        s.pool.countP Goroutine.announcing := by
      simp [State.call, Goroutine.announcing]
    have counting : (s.call call).pool.countP Goroutine.counting =
        s.pool.countP Goroutine.counting := by
      simp [State.call, Goroutine.counting]
    refine ⟨budgeted.same, budgeted.within, ?_, budgeted.numbered, ?_⟩
    · rw [announcing]
      exact budgeted.counted
    · rw [counting]
      exact budgeted.room
  · exact ⟨budgeted.same, budgeted.within, budgeted.counted, budgeted.numbered, budgeted.room⟩
  · exact budgeted.advance (of_decide_eq_true single) found advance

/-- For every limit that is not negative, in every state that an actor can get into by any
panics of its receiver while one goroutine at a time is inside the process: the counter does
not exceed the limit, the `ActorRestartedEvent`s that were broadcast are numbered from one
on, as many as the counter says up to one that is yet to be broadcast, none is for an
`*InternalError`, and while such an error is on its way to the restart that follows it
neither changes. -/
theorem restarts_counted (opts : Opts W) (positive : 0 < opts.inboxSize) (parent : Bool)
    (limited : 0 ≤ opts.maxRestarts) (s : State M W)
    (reached : Reaches (restrict alone State.step) (initial opts positive parent) s) :
    s.actor.restarts ≤ opts.maxRestarts ∧
    (s.actor.restartEvents.length : Int) + s.pool.countP Goroutine.announcing =
      s.actor.restarts.toInt ∧
    (∀ (n : Nat) e, s.actor.restartEvents[n]? = some e → e.1.toInt = n + 1 ∧ e.2 = .error) ∧
    ∀ i action g t, s.pool[i]? = some g → g.raised = some .internal →
      s.step (.act i action) = some t →
      t.actor.restarts = s.actor.restarts ∧ t.actor.restartEvents = s.actor.restartEvents := by
  have budgeted : Budgeted opts s := by
    refine reached.invariant Budgeted.step ⟨rfl, Int32.le_iff_toInt_le.mp limited, rfl, ?_, ?_⟩
    · rintro n e ⟨⟩
    · rintro ⟨⟩
  refine ⟨Int32.le_iff_toInt_le.mpr budgeted.within, budgeted.counted, budgeted.numbered, ?_⟩
  intro i action g t found internal stepped
  rcases step_cases stepped with ⟨call, named, -⟩ | ⟨child, named, -⟩ |
    ⟨i, action, g', b, next, spawned, named, found', advance, rfl⟩
  · cases named
  · cases named
  · cases named
    cases found.symm.trans found'
    cases advance.counts with
    | same _ restarts events => exact ⟨restarts, events⟩
    | counted _ _ _ _ _ _ _ raised | announced _ _ _ _ _ _ raised =>
      rw [internal] at raised
      cases raised

/-- Initialized panics, then Started with an `*InternalError`, then Initialized again, when
the one restart is used up. -/
def panicsInStart : List (Label Nat) :=
  steps 0 1 ++ [.act 0 (.receive (.panics .error))] ++ steps 0 1 ++ [returns 0] ++ steps 0 4 ++
    [returns 0, .act 0 (.receive (.panics .internal))] ++ steps 0 1 ++ [returns 0] ++ steps 0 2 ++
    [.act 0 (.receive (.panics .error))] ++ steps 0 1 ++ [returns 0] ++ steps 0 1

theorem restarts_counted_at_limit :
    ∃ s : State Nat Nat, s.actor.receiver = 3 ∧ s.actor.restartEvents = [(1, .error)] ∧
      .actorMaxRestartsExceeded ∈ s.actor.events ∧ s.actor.restarts ≤ 1 := by
  obtain ⟨s, reached, ends⟩ := exists_of_run (restrict alone State.step)
    (initial ⟨1, 1, []⟩ Nat.one_pos false) panicsInStart
    (fun s : State Nat Nat => decide (s.actor.receiver = 3 ∧ s.actor.restartEvents = [(1, .error)] ∧
      .actorMaxRestartsExceeded ∈ s.actor.events)) (by decide)
  obtain ⟨third, restarted, exceeded⟩ := of_decide_eq_true ends
  exact ⟨s, third, restarted, exceeded,
    (restarts_counted ⟨1, 1, []⟩ Nat.one_pos false (by decide) s reached).1⟩

/-- The worker that a replayed pill leaves behind and the new one each get a message that
panics, from senders who had found the actor before it left the registry. Both find a
restart left before either counts its own. -/
def panicsOfTwoWorkers : List (Label Nat) :=
  pillBehindPanic.take 28 ++ [.call (.send 2 none), .call (.send 3 none)] ++ steps 4 1 ++ steps 5 1 ++
    pillBehindPanic.drop 28 ++ steps 4 1 ++ steps 3 2 ++ steps 5 1 ++ steps 6 2 ++
    steps 3 2 ++ [.act 3 (.receive (.panics .error))] ++ steps 3 1 ++ [returns 3] ++ steps 3 1 ++
    steps 6 2 ++ [.act 6 (.receive (.panics .error))] ++ steps 6 1 ++ [returns 6] ++ steps 6 1 ++
    steps 3 1 ++ steps 6 1 ++ steps 3 1 ++ steps 6 1

/-- The counter passes the limit of two, and the third restart is broadcast twice and the
second never. -/
theorem two_workers_exceed_limit :
    ∃ s : State Nat Nat,
      Reaches (restrict userPanics State.step)
        (initial ⟨2, 1, []⟩ Nat.one_pos false) s ∧
      s.actor.restarts = 3 ∧
      s.actor.restartEvents = [(1, .error), (3, .error), (3, .error)] := by
  obtain ⟨s, reached, ends⟩ := exists_of_run
    (restrict userPanics State.step) (initial ⟨2, 1, []⟩ Nat.one_pos false)
    panicsOfTwoWorkers (fun s : State Nat Nat => s.actor.restarts = 3 ∧
      s.actor.restartEvents = [(1, .error), (3, .error), (3, .error)]) (by decide)
  exact ⟨s, reached, of_decide_eq_true ends⟩

end Engine
end Hollywood
