import Hollywood.Engine.Departure
import Hollywood.Engine.Mail
import Hollywood.Inbox.Wakeup

/-! An actor at rest. When every goroutine has returned from a run without panics, the
inbox is idle and empty, or stopped. -/
namespace Hollywood
open Transition
variable {M W : Type} [Inhabited M]

/-- A schedule attempt or the length check is still ahead of the goroutine. -/
def Goroutine.attempts : Goroutine M → Bool
  | .caller _ (.inbox pc) | .proc ⟨_, _, .loop pc⟩ | .proc ⟨_, _, .inboxStart pc⟩ => pc.attempts
  | _ => false

namespace Actor

/-- Whoever gives up the right to the mailbox leaves the inbox idle or stopped. -/
theorem Proceeds.yields {a : Actor M W} {act : Act M} (free : next.stage.holds = false)
    (proceeds : Proceeds a act b next) :
    b.inbox.procStatus = .idle ∨ b.inbox.procStatus = .stopped := by
  cases proceeds with
  | released | started => exact .inl rfl
  | abandoned stopped => exact .inr stopped
  | _ => cases free

theorem Move.notices {a : Actor M W} {r : Routine M} (move : Move a r b next spawned)
    (idle : b.inbox.procStatus = .idle) (queued : b.inbox.rb.toList ≠ []) :
    (Goroutine.proc next).attempts = true ∨
      (a.inbox.procStatus = .idle ∧ a.inbox.rb.toList ≠ [] ∧ (Goroutine.proc r).attempts = false) := by
  obtain ⟨base, replays, act⟩ := r
  cases move with
  | looped position move | inboxStarting position move =>
    subst position
    exact move.notices idle queued
  | left position move done | inboxStarted position move done =>
    subst position
    cases move.notices idle queued with
    | inl ahead =>
      rw [done] at ahead
      cases ahead
    | inr before => exact .inr before
  | invoked position =>
    subst position
    exact .inr ⟨idle, queued, rfl⟩
  | stopInbox => cases idle
  | @fillPanics reason _ position =>
    subst position
    cases reason <;> exact .inr ⟨idle, queued, rfl⟩
  | _ position =>
    subst position
    exact .inr ⟨idle, queued, rfl⟩

theorem Advance.notices {a : Actor M W} (advance : Advance a g action b next spawned)
    (idle : b.inbox.procStatus = .idle) (queued : b.inbox.rb.toList ≠ []) :
    next.attempts = true ∨
      (a.inbox.procStatus = .idle ∧ a.inbox.rb.toList ≠ [] ∧ g.attempts = false) := by
  cases advance with
  | mailed move => exact move.notices idle queued
  | returned move done =>
    cases move.notices idle queued with
    | inl ahead =>
      rw [done] at ahead
      cases ahead
    | inr before => exact .inr before
  | moved move => exact move.notices idle queued
  | @resumed r outcome site position =>
    obtain ⟨base, replays, act⟩ := r
    subst position
    rw [(a.resume_traffic _ site outcome).2.2.1] at idle queued
    exact .inr ⟨idle, queued, rfl⟩
  | @spawnedChild r child site position =>
    obtain ⟨base, replays, act⟩ := r
    subst position
    exact .inr ⟨idle, queued, rfl⟩
  | _ => exact .inr ⟨idle, queued, rfl⟩

end Actor

namespace Engine
variable {i : Nat}

/-- Somebody has the right to a mailbox that is neither idle nor stopped, and somebody
will look at an idle one that is not empty. -/
structure Awake (s : State M W) : Prop where
  staffed : s.actor.inbox.procStatus ≠ .idle → s.actor.inbox.procStatus ≠ .stopped →
    ∃ g ∈ s.pool, g.holds = true
  noticed : s.actor.inbox.procStatus = .idle → s.actor.inbox.rb.toList ≠ [] →
    ∃ g ∈ s.pool, g.attempts = true

theorem staffed_advance {s : State M W} {g : Goroutine M} (departure : Departure s) (awake : Awake s)
    (found : s.pool[i]? = some g) (calm : action.calm = true)
    (advance : s.actor.Advance g action b next spawned) (busy : b.inbox.procStatus ≠ .idle)
    (active : b.inbox.procStatus ≠ .stopped) :
    ∃ g ∈ s.pool.set i next ++ spawned, g.holds = true := by
  obtain ⟨inside, known⟩ := departure.inside g (List.mem_of_getElem? found)
  by_cases kept : next.holds = true
  · exact Pool.exists_moved found kept
  · by_cases holder : g.holds = true
    · -- the holder gives the mailbox up
      have free := Bool.eq_false_of_not_eq_true kept
      cases advance with
      | accepted | rejected | found | missing | mailed | returned => cases holder
      | moved move =>
        cases (move.proceeds inside (known holder).1 holder).yields free with
        | inl idle => exact absurd idle busy
        | inr stopped => exact absurd stopped active
      | @resumed r outcome site position =>
        cases outcome with
        | panics v => cases calm
        | returns =>
          have untroubled : r.Untroubled s.actor := (known holder).1
          obtain ⟨base, replays, act⟩ := r
          subst position
          cases site with
          | started =>
            simp only [Actor.resume, untroubled.empty, List.length_nil, gt_iff_lt, lt_self_iff_false,
              if_false] at free
            cases free
          | crashedInvoke f v | crashedStart v => cases untroubled.steady
          | cleanup reason =>
            cases reason with
            | pill f ctx => cases free
            | limit => exact absurd (Routine.Sound.placed inside) Routine.Placed.not_astray
          | _ => cases free
      | spawnedChild => exact absurd holder kept
    · obtain ⟨workers, rfl, aside, -⟩ := advance.aside inside (Bool.eq_false_of_not_eq_true holder)
      cases aside.status with
      | inl same =>
        obtain ⟨same, rfl⟩ := same
        rw [same] at busy active
        exact Pool.exists_kept found (awake.staffed busy active) holder
      | inr woken =>
        obtain ⟨-, -, rfl⟩ := woken
        exact ⟨.proc (Actor.worker .load), by simp, rfl⟩

theorem Awake.step {s t : State M W} (departure : Departure s) (awake : Awake s)
    (stepped : restrict calm State.step s label = some t) : Awake t := by
  obtain ⟨allowed, stepped⟩ := restrict_some stepped
  rcases step_cases stepped with ⟨call, rfl, rfl⟩ | ⟨child, rfl, rfl⟩ |
    ⟨i, action, g, b, next, spawned, rfl, found, advance, rfl⟩
  · constructor
    · intro busy active
      obtain ⟨g, member, holder⟩ := awake.staffed busy active
      exact ⟨g, List.mem_append_left _ member, holder⟩
    · intro idle queued
      obtain ⟨g, member, attempts⟩ := awake.noticed idle queued
      exact ⟨g, List.mem_append_left _ member, attempts⟩
  · exact ⟨awake.staffed, awake.noticed⟩
  · constructor
    · exact staffed_advance departure awake found allowed advance
    · intro idle queued
      cases advance.notices idle queued with
      | inl ahead => exact Pool.exists_moved found ahead
      | inr before =>
        obtain ⟨idle, queued, aside⟩ := before
        exact Pool.exists_kept found (awake.noticed idle queued) (by simp [aside])

theorem Runs.awake {s : State M W} (runs : Runs s) : Awake s := by
  obtain ⟨opts, positive, parent, reached⟩ := runs
  have both : Departure s ∧ Awake s := by
    refine reached.invariant (P := fun s => Departure s ∧ Awake s) ?_ ⟨?_, ?_, ?_⟩
    · rintro s label t ⟨departure, awake⟩ stepped
      exact ⟨departure.step stepped, awake.step departure stepped⟩
    · exact Runs.departure ⟨opts, positive, parent, .refl _⟩
    · intro _ active
      exact absurd rfl active
    · intro idle
      cases idle
  exact both.2

/-- Where everybody has returned, the inbox is idle and empty, or stopped. -/
theorem quiescent_inbox {s : State M W} (runs : Runs s) (quiet : s.quiescent = true) :
    (s.actor.inbox.procStatus = .idle ∧ s.actor.inbox.rb.toList = []) ∨
      s.actor.inbox.procStatus = .stopped := by
  have awake := runs.awake
  have done := List.all_eq_true.mp quiet
  by_cases stopped : s.actor.inbox.procStatus = .stopped
  · exact .inr stopped
  · have idle : s.actor.inbox.procStatus = .idle := by
      by_contra busy
      obtain ⟨g, member, holder⟩ := awake.staffed busy stopped
      have none := List.countP_eq_zero.mp (quiescent_pending quiet).2 g member
      exact none holder
    refine .inl ⟨idle, ?_⟩
    by_contra queued
    obtain ⟨g, member, attempts⟩ := awake.noticed idle queued
    have ended := done g member
    cases g with
    | caller request pc =>
      cases pc with
      | returned => cases attempts
      | _ => cases ended
    | proc r =>
      obtain ⟨base, replays, act⟩ := r
      cases act with
      | returned => cases attempts
      | _ => cases ended

end Engine
end Hollywood
