import Hollywood.Foundation.Iteration
import Hollywood.Process

/-! One goroutine alone in the process: a call of `Invoke` or `Start` from its
entry until it returns or lets a panic escape. The receiver behaves by a pattern
of outcomes that the sites in question draw from one after another; other calls
of the receiver return. Workers that the call spawns do not run here. -/
namespace Hollywood
variable {M W : Type} [Inhabited M]

structure Thread (M W : Type) [Inhabited M] where
  actor : Actor M W
  routine : Routine M
  clock : Nat

namespace Thread

/-- `Invoke` as the mailbox loop calls it. -/
def invoke (a : Actor M W) (msgs : List (Envelope M)) : Thread M W :=
  ⟨a, ⟨.worker, 0, .invoke (.enter msgs)⟩, 0⟩

/-- `Start` as the registry calls it. -/
def start (a : Actor M W) : Thread M W := ⟨a, ⟨.spawner, 0, .start⟩, 0⟩

def returned (t : Thread M W) : Bool :=
  match t.routine.act with
  | .loop .load | .returned => true
  | _ => false

def next (asks : Site M → Bool) (pattern : Nat → Outcome) (t : Thread M W) : Thread M W :=
  match t.routine.act with
  | .loop _ => t
  | .receiving site =>
    if asks site then
      ⟨(t.actor.resume t.routine site (pattern t.clock)).1,
        (t.actor.resume t.routine site (pattern t.clock)).2, t.clock + 1⟩
    else
      ⟨(t.actor.resume t.routine site .returns).1, (t.actor.resume t.routine site .returns).2, t.clock⟩
  | _ =>
    match t.actor.step t.routine with
    | some (actor, routine, _) => ⟨actor, routine, t.clock⟩
    | none => t

/-- Receivers that do not panic on Stopped. -/
def unlessStopped (site : Site M) : Bool := !site.stops

omit [Inhabited M] in
theorem unlessStopped_polite (site : Site M) (asked : unlessStopped site = true) :
    site.stops = false := by
  simpa [unlessStopped] using asked

omit [Inhabited M] in
theorem user_polite (site : Site M) (user : site.user = true) : site.stops = false := by
  cases site <;> first | rfl | cases user

inductive Turn (asks : Site M → Bool) (pattern : Nat → Outcome) (t : Thread M W) :
    Thread M W → Prop where
  | halted : Turn asks pattern t t
  | moved : t.actor.Move t.routine b r spawned → (∀ pc, t.routine.act ≠ .loop pc) →
      Turn asks pattern t ⟨b, r, t.clock⟩
  | asked : t.routine.act = .receiving site → asks site = true → Turn asks pattern t
      ⟨(t.actor.resume t.routine site (pattern t.clock)).1,
        (t.actor.resume t.routine site (pattern t.clock)).2, t.clock + 1⟩
  | unasked : t.routine.act = .receiving site → asks site = false → Turn asks pattern t
      ⟨(t.actor.resume t.routine site .returns).1, (t.actor.resume t.routine site .returns).2, t.clock⟩

theorem next_turn (asks : Site M → Bool) (pattern : Nat → Outcome) (t : Thread M W) :
    Turn asks pattern t (t.next asks pattern) := by
  unfold next
  split
  · exact .halted
  · rename_i site position
    cases asked : asks site with
    | true => exact .asked position asked
    | false => exact .unasked position asked
  · split
    · exact .moved (Actor.step_move (by assumption)) (by assumption)
    · exact .halted

end Thread

def errors (pattern : Nat → Outcome) (n : Nat) : Nat :=
  (List.range n).countP fun k => pattern k = .panics .error

theorem errors_succ (pattern : Nat → Outcome) (n : Nat) :
    errors pattern (n + 1) = errors pattern n + if pattern n = .panics .error then 1 else 0 := by
  simp [errors, List.range_succ, List.countP_append, List.countP_singleton]

theorem within_budget {pattern : Nat → Outcome} {made limit : Int}
    (budget : ∀ n, errors pattern n ≤ limit - made) : made ≤ limit := by
  have room := budget 0
  simp only [errors, List.range_zero, List.countP_nil] at room
  omega

/-- A panic that `tryRestart` has still to count. -/
def Act.debt (act : Act M) : Nat := if act.raised = some .error then 1 else 0

def Reason.limited : Reason M → Bool
  | .pill _ _ => false
  | .limit => true

/-- The goroutine is in the `cleanup` of a crash beyond the restart limit. -/
def Act.limited : Act M → Bool
  | .cleanup reason | .childrenLen reason | .makeChildren reason | .fillChildren reason _
  | .poison reason _ | .stopInbox reason | .unregister reason | .stopping reason
  | .cancel reason | .receiving (.cleanup reason) => reason.limited
  | _ => false

theorem restart_toInt {restarts limit : Int32} (within : restarts.toInt ≤ limit.toInt)
    (spared : restarts ≠ limit) :
    (restarts + 1).toInt = restarts.toInt + 1 ∧ restarts.toInt + 1 ≤ limit.toInt := by
  have less : restarts.toInt < limit.toInt :=
    lt_of_le_of_ne within fun same => spared (Int32.toInt_inj.mp same)
  have upper := limit.toInt_lt
  have lower := restarts.le_toInt
  refine ⟨?_, less⟩
  rw [Int32.toInt_add, Int32.toInt_one]
  apply Int.bmod_eq_of_le <;> omega

namespace Routine

omit [Inhabited M] in
@[simp] theorem ret_debt (r : Routine M) : r.ret.act.debt = 0 := by
  obtain ⟨base, replays, act⟩ := r
  cases replays <;> cases base <;> rfl

omit [Inhabited M] in
@[simp] theorem ret_limited (r : Routine M) : r.ret.act.limited = false := by
  obtain ⟨base, replays, act⟩ := r
  cases replays <;> cases base <;> rfl

omit [Inhabited M] in
@[simp] theorem ret_countRestart (r : Routine M) : r.ret.act ≠ .countRestart := by
  obtain ⟨base, replays, act⟩ := r
  cases replays <;> cases base <;> rintro ⟨⟩

omit [Inhabited M] in
@[simp] theorem ret_sized (r : Routine M) : r.ret.act.sized = none := by
  obtain ⟨base, replays, act⟩ := r
  cases replays <;> cases base <;> rfl

/-- The restarts made and the counted panic on its way to the next one add up to
`total`, and the limit is not passed. -/
structure Accounted (config : Opts W) (total : Int) (a : Actor M W) (r : Routine M) : Prop where
  opts : a.opts = config
  balance : a.restarts.toInt + r.act.debt = total
  within : a.restarts.toInt ≤ config.maxRestarts.toInt
  fits : ∀ size, r.act.sized = some size → a.children.length ≤ size
  unlimited : r.act.limited = false
  room : r.act = .countRestart → a.restarts ≠ config.maxRestarts

end Routine

namespace Actor

/-- Outside the receiver only `tryRestart` settles a counted panic. -/
theorem Move.accounted {a : Actor M W} {r : Routine M} (accounted : r.Accounted config total a)
    (spared : r.act.raised = some .error → a.restarts ≠ a.opts.maxRestarts)
    (move : Move a r b next spawned) : next.Accounted config total b := by
  obtain ⟨base, replays, act⟩ := r
  obtain ⟨rfl, balance, within, fits, unlimited, room⟩ := accounted
  cases move with
  | restart position other =>
    subst position
    exact ⟨rfl, balance, within, nofun, unlimited, fun _ => other⟩
  | countRestart position =>
    subst position
    obtain ⟨counted, bound⟩ := restart_toInt within (room rfl)
    refine ⟨rfl, ?_, counted ▸ bound, nofun, rfl, nofun⟩
    calc (a.restarts + 1).toInt + ((0 : Nat) : Int) = a.restarts.toInt + ((1 : Nat) : Int) := by
          rw [counted]
          simp
      _ = total := balance
  | restartLimit position limit =>
    subst position
    exact absurd limit (spared rfl)
  | fillPanics position more =>
    subst position
    exact absurd (fits _ rfl) (Nat.not_le.mpr more)
  | cancelNil position =>
    subst position
    cases unlimited
  | inboxStarted position | invokeEnd position | cancelPill position =>
    subst position
    exact ⟨rfl, by rw [Routine.ret_debt]; exact balance, within, by simp, by simp, by simp⟩
  | makeChildren position =>
    subst position
    exact ⟨rfl, balance, within, fun size same => (Option.some.inj same).le, unlimited, nofun⟩
  | _ position =>
    subst position
    exact ⟨rfl, balance, within, nofun, unlimited, nofun⟩

theorem resume_accounted {a : Actor M W} {r : Routine M} (accounted : r.Accounted config total a)
    (position : r.act = .receiving site) (outcome : Outcome)
    (polite : outcome ≠ .returns → site.stops = false) :
    (a.resume r site outcome).2.Accounted config
      (total + if outcome = .panics .error then 1 else 0) (a.resume r site outcome).1 := by
  obtain ⟨base, replays, act⟩ := r
  obtain ⟨rfl, balance, within, fits, unlimited, -⟩ := accounted
  subst position
  cases outcome with
  | returns =>
    simp only [reduceCtorEq, if_false, add_zero]
    cases site with
    | started =>
      by_cases buffered : 0 < a.mbuffer.length <;> simp only [resume, gt_iff_lt, buffered] <;>
        exact ⟨rfl, balance, within, nofun, unlimited, nofun⟩
    | _ => exact ⟨rfl, balance, within, nofun, unlimited, nofun⟩
  | panics v =>
    have raising : ∀ act : Act M, act.raised = some v → (Act.receiving site).debt = 0 →
        a.restarts.toInt + act.debt = total + if Outcome.panics v = .panics .error then 1 else 0 := by
      intro act same none
      rw [← balance, none]
      cases v <;> simp [Act.debt, same]
    cases site with
    | initialized | started | message f | flush f rest ctx =>
      exact ⟨rfl, raising _ rfl rfl, within, nofun, rfl, nofun⟩
    | crashedStart w | crashedInvoke f w | cleanup reason => cases polite (by rintro ⟨⟩)

end Actor

namespace Thread

/-- A call begun with `made` restarts keeps count of the counted panics since. -/
def Accounted (config : Opts W) (made : Int) (pattern : Nat → Outcome) (t : Thread M W) : Prop :=
  t.routine.Accounted config (made + errors pattern t.clock) t.actor

theorem invoke_accounted {a : Actor M W} {pattern : Nat → Outcome}
    (within : a.restarts.toInt ≤ a.opts.maxRestarts.toInt) (msgs : List (Envelope M)) :
    (invoke a msgs).Accounted a.opts a.restarts.toInt pattern :=
  ⟨rfl, rfl, within, nofun, rfl, nofun⟩

theorem start_accounted {a : Actor M W} {pattern : Nat → Outcome}
    (within : a.restarts.toInt ≤ a.opts.maxRestarts.toInt) :
    (start a).Accounted a.opts a.restarts.toInt pattern :=
  ⟨rfl, rfl, within, nofun, rfl, nofun⟩

theorem next_accounted {asks : Site M → Bool} {pattern : Nat → Outcome} {t : Thread M W}
    (polite : ∀ site, asks site = true → site.stops = false)
    (accounted : t.Accounted config made pattern)
    (spared : t.routine.act.raised = some .error → t.actor.restarts ≠ t.actor.opts.maxRestarts) :
    (t.next asks pattern).Accounted config made pattern := by
  have turn := next_turn asks pattern t
  generalize t.next asks pattern = u at turn
  cases turn with
  | halted => exact accounted
  | moved move => exact move.accounted accounted spared
  | asked position asked =>
    have resumed := Actor.resume_accounted accounted position (pattern t.clock)
      fun _ => polite _ asked
    have total : made + (errors pattern (t.clock + 1) : Int) = made + errors pattern t.clock +
        if pattern t.clock = .panics .error then 1 else 0 := by
      rw [errors_succ]
      split <;> omega
    unfold Accounted
    rwa [total]
  | unasked position =>
    have resumed := Actor.resume_accounted accounted position .returns
      fun panicked => absurd rfl panicked
    simpa [Accounted] using resumed

end Thread
end Hollywood
