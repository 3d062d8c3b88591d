import Hollywood.Process.Thread

/-! Exceeding the restart limit. `tryRestart` calls `cleanup` without a cancel
function, whose deferred call then panics. A waiting `Start` recovers that panic,
finds the limit reached once more and repeats the `cleanup`; at the outermost
call nothing recovers it. -/
namespace Hollywood
variable {M W : Type} [Inhabited M]

/-- How many actions a call that has passed the limit takes, at most, before its
current `cleanup` panics. -/
def Act.fuse (children : Nat) : Act M → Nat
  | .recoverStart _ | .recoverInvoke _ _ => children + 14
  | .receiving (.crashedStart _) | .receiving (.crashedInvoke _ _) => children + 13
  | .tryRestart _ => children + 12
  | .cleanup _ => children + 11
  | .childrenLen _ => children + 10
  | .makeChildren _ => children + 9
  | .fillChildren _ size => size + 8
  | .poison _ rest => rest.length + 7
  | .stopInbox _ => 6
  | .unregister _ => 5
  | .stopping _ => 4
  | .receiving (.cleanup _) => 3
  | .cancel _ => 2
  | _ => 0

namespace Thread

/-- The limit is reached and the next counted panic is there, or the panic of
the missing cancel function has escaped. -/
def Doomed (t : Thread M W) : Prop :=
  t.actor.restarts = t.actor.opts.maxRestarts ∧
      (t.routine.act.raised = some .error ∧ t.routine.act ≠ .countRestart ∨
        t.routine.act.limited = true) ∨
    t.routine.act = .panicked .error

def fuse (t : Thread M W) : Nat :=
  t.routine.replays * (t.actor.children.length + 20) + t.routine.act.fuse t.actor.children.length

/-- Each waiting `Start` recovers the panic of the missing cancel function only
to run into it again. -/
theorem escape_doomed {a : Actor M W} (limit : a.restarts = a.opts.maxRestarts) (base : Base)
    (replays : Nat) (act : Act M) (clock : Nat) (burns : 0 < act.fuse a.children.length) :
    Doomed ⟨a, Routine.escape ⟨base, replays, act⟩ .error, clock⟩ ∧
      fuse ⟨a, Routine.escape ⟨base, replays, act⟩ .error, clock⟩ <
        fuse ⟨a, ⟨base, replays, act⟩, clock⟩ := by
  cases replays with
  | zero => exact ⟨.inr rfl, by simpa [fuse, Routine.escape, Routine.goto, Act.fuse] using burns⟩
  | succ n =>
    refine ⟨.inl ⟨limit, .inl ⟨rfl, by rintro ⟨⟩⟩⟩, ?_⟩
    simp only [fuse, Routine.escape, Act.fuse]
    rw [Nat.succ_mul]
    omega

/-- The panic that passed the limit is recovered and handed to `tryRestart`. -/
theorem raised_next {asks : Site M → Bool} {pattern : Nat → Outcome} {a : Actor M W} {r : Routine M}
    {clock : Nat} (unasked : ∀ site : Site M, site.stops = true → asks site = false)
    (limit : a.restarts = a.opts.maxRestarts) (raised : r.act.raised = some .error)
    (uncounted : r.act ≠ .countRestart) :
    (next asks pattern ⟨a, r, clock⟩).Doomed ∧
      (next asks pattern ⟨a, r, clock⟩).fuse < fuse ⟨a, r, clock⟩ := by
  obtain ⟨base, replays, act⟩ := r
  cases act with
  | recoverStart v | recoverInvoke f v =>
    exact ⟨.inl ⟨limit, .inl ⟨raised, by rintro ⟨⟩⟩⟩, Nat.lt_succ_self _⟩
  | tryRestart v =>
    obtain rfl : v = .error := Option.some.inj raised
    simp only [next, Actor.step, Actor.tryRestart, limit, reduceCtorEq, if_false, if_true]
    exact ⟨.inl ⟨limit, .inr rfl⟩, Nat.lt_succ_self _⟩
  | receiving site =>
    cases site with
    | crashedStart v =>
      simp only [next, unasked (.crashedStart v) rfl, Bool.false_eq_true, if_false]
      exact ⟨.inl ⟨limit, .inl ⟨raised, by rintro ⟨⟩⟩⟩, Nat.lt_succ_self _⟩
    | crashedInvoke f v =>
      simp only [next, unasked (.crashedInvoke f v) rfl, Bool.false_eq_true, if_false]
      exact ⟨.inl ⟨limit, .inl ⟨raised, by rintro ⟨⟩⟩⟩, Nat.lt_succ_self _⟩
    | _ => cases raised
  | countRestart => exact absurd rfl uncounted
  | _ => cases raised

/-- The `cleanup` beyond the limit runs to its missing cancel function. -/
theorem limited_next {asks : Site M → Bool} {pattern : Nat → Outcome} {a : Actor M W} {r : Routine M}
    {clock : Nat} (unasked : ∀ site : Site M, site.stops = true → asks site = false)
    (limit : a.restarts = a.opts.maxRestarts) (limited : r.act.limited = true) :
    (next asks pattern ⟨a, r, clock⟩).Doomed ∧
      (next asks pattern ⟨a, r, clock⟩).fuse < fuse ⟨a, r, clock⟩ := by
  obtain ⟨base, replays, act⟩ := r
  cases act with
  | cleanup reason | makeChildren reason | stopInbox reason | unregister reason
  | stopping reason => exact ⟨.inl ⟨limit, .inr limited⟩, Nat.lt_succ_self _⟩
  | childrenLen reason =>
    simp only [next, Actor.step]
    split
    · exact ⟨.inl ⟨limit, .inr limited⟩, Nat.lt_succ_self _⟩
    · refine ⟨.inl ⟨limit, .inr limited⟩, ?_⟩
      simp only [fuse, Routine.goto, Act.fuse]
      omega
  | fillChildren reason size =>
    by_cases fits : a.children.length ≤ size
    · simp only [next, Actor.step, Actor.fillChildren, fits, if_true]
      refine ⟨.inl ⟨limit, .inr limited⟩, ?_⟩
      simp only [fuse, Routine.goto, Act.fuse, List.length_append, List.length_map,
        List.length_replicate]
      omega
    · cases reason with
      | pill f ctx => cases limited
      | limit =>
        simp only [next, Actor.step, Actor.fillChildren, fits, if_false]
        exact escape_doomed limit base replays _ clock (Nat.succ_pos _)
  | poison reason rest =>
    cases rest with
    | nil => exact ⟨.inl ⟨limit, .inr limited⟩, Nat.lt_succ_self _⟩
    | cons child rest => exact ⟨.inl ⟨limit, .inr limited⟩, Nat.lt_succ_self _⟩
  | cancel reason =>
    cases reason with
    | pill f ctx => cases limited
    | limit => exact escape_doomed limit base replays _ clock (Nat.succ_pos _)
  | receiving site =>
    cases site with
    | cleanup reason =>
      simp only [next, unasked (.cleanup reason) rfl, Bool.false_eq_true, if_false]
      exact ⟨.inl ⟨limit, .inr limited⟩, Nat.lt_succ_self _⟩
    | _ => cases limited
  | _ => cases limited

theorem doomed_next {asks : Site M → Bool} {pattern : Nat → Outcome} {t : Thread M W}
    (polite : ∀ site, asks site = true → site.stops = false) (doomed : t.Doomed) :
    t.routine.act = .panicked .error ∨
      (t.next asks pattern).Doomed ∧ (t.next asks pattern).fuse < t.fuse := by
  have unasked : ∀ site : Site M, site.stops = true → asks site = false := by
    intro site stops
    by_contra asked
    rw [polite site (by simpa using asked)] at stops
    contradiction
  rcases doomed with ⟨limit, ⟨raised, uncounted⟩ | limited⟩ | ended
  · exact .inr (raised_next unasked limit raised uncounted)
  · exact .inr (limited_next unasked limit limited)
  · exact .inl ended

theorem panicked_halts {asks : Site M → Bool} {pattern : Nat → Outcome} {t : Thread M W}
    (ended : t.routine.act = .panicked v) : t.next asks pattern = t := by
  simp [next, ended, Actor.step]

theorem returned_halts {asks : Site M → Bool} {pattern : Nat → Outcome} {t : Thread M W}
    (ended : t.returned = true) : t.next asks pattern = t := by
  unfold returned at ended
  split at ended
  · simp [next, *]
  · simp [next, Actor.step, *]
  · contradiction

theorem accounted_or_doomed {asks : Site M → Bool} {pattern : Nat → Outcome} {t : Thread M W}
    (polite : ∀ site, asks site = true → site.stops = false)
    (kept : t.Accounted config made pattern ∨ t.Doomed) :
    (t.next asks pattern).Accounted config made pattern ∨ (t.next asks pattern).Doomed := by
  have sealed : t.Doomed → (t.next asks pattern).Doomed := by
    intro doomed
    rcases doomed_next polite doomed with ended | ⟨doomed, -⟩
    · rwa [panicked_halts ended]
    · exact doomed
  rcases kept with accounted | doomed
  · by_cases spared : t.routine.act.raised = some .error →
        t.actor.restarts ≠ t.actor.opts.maxRestarts
    · exact .inl (next_accounted polite accounted spared)
    · push Not at spared
      obtain ⟨raised, limit⟩ := spared
      refine .inr (sealed (.inl ⟨limit, .inl ⟨raised, ?_⟩⟩))
      intro counting
      exact accounted.room counting (accounted.opts ▸ limit)
  · exact .inr (sealed doomed)

/-- More counted panics than the budget has room for have passed the limit. -/
theorem Accounted.doomed {pattern : Nat → Outcome} {t : Thread M W}
    (accounted : t.Accounted config made pattern)
    (exceeded : config.maxRestarts.toInt < made + errors pattern t.clock) : t.Doomed := by
  have balance := accounted.balance
  have within := accounted.within
  unfold Act.debt at balance
  split at balance
  · rename_i raised
    have limit : t.actor.restarts = config.maxRestarts := Int32.toInt_inj.mp (by omega)
    refine .inl ⟨by rw [accounted.opts, limit], .inl ⟨raised, ?_⟩⟩
    exact fun counting => accounted.room counting limit
  · omega

theorem escapes {asks : Site M → Bool} {pattern : Nat → Outcome} {entry : Thread M W} {n : Nat}
    (polite : ∀ site, asks site = true → site.stops = false)
    (began : entry.Accounted config made pattern)
    (exceeded : config.maxRestarts.toInt < made + errors pattern ((next asks pattern)^[n] entry).clock) :
    ∃ m, ((next asks pattern)^[m] entry).routine.act = .panicked .error := by
  have kept : Accounted config made pattern ((next asks pattern)^[n] entry) ∨
      Doomed ((next asks pattern)^[n] entry) :=
    Iteration.invariant (fun t => Accounted config made pattern t ∨ Doomed t)
      (fun _ => accounted_or_doomed polite) n (.inl began)
  have doomed : Doomed ((next asks pattern)^[n] entry) :=
    kept.elim (fun accounted => accounted.doomed exceeded) id
  obtain ⟨m, ended, -⟩ := Iteration.eventually Doomed (·.routine.act = .panicked .error) fuse
    (fun _ => doomed_next polite) doomed
  rw [← Function.iterate_add_apply] at ended
  exact ⟨m + n, ended⟩

/-- Whenever a call of `Invoke` or `Start` raises more counted panics than are
left of the budget, a panic escapes it and it never returns. -/
theorem exceeding_limit_escapes (a : Actor M W) (pattern : Nat → Outcome) (entry : Thread M W)
    (enters : entry = start a ∨ ∃ batch, entry = invoke a batch)
    (within : a.restarts.toInt ≤ a.opts.maxRestarts.toInt) (n : Nat)
    (exceeded : a.opts.maxRestarts.toInt - a.restarts.toInt <
      errors pattern ((next unlessStopped pattern)^[n] entry).clock) :
    (∃ m, ((next unlessStopped pattern)^[m] entry).routine.act = .panicked .error) ∧
    ∀ m, ((next unlessStopped pattern)^[m] entry).returned = false := by
  have began : entry.Accounted a.opts a.restarts.toInt pattern := by
    rcases enters with rfl | ⟨batch, rfl⟩
    · exact start_accounted within
    · exact invoke_accounted within batch
  obtain ⟨m, ended⟩ := escapes (n := n) unlessStopped_polite began (by omega)
  refine ⟨⟨m, ended⟩, fun k => ?_⟩
  by_contra returns
  rw [Bool.not_eq_false] at returns
  rw [Iteration.halts_unique (returned_halts returns) (panicked_halts ended)] at returns
  simp [returned, ended] at returns

/-- An actor that may not restart gets a message on which it panics. -/
def unforgiven : Thread Nat Nat := invoke (.new ⟨0, 1, []⟩ Nat.one_pos false) [⟨.user 1, none⟩]

theorem panic_escapes_first_crash :
    errors (fun _ => .panics .error)
      ((next unlessStopped fun _ => .panics .error)^[12] unforgiven).clock = 1 ∧
    ((next unlessStopped fun _ => .panics .error)^[12] unforgiven).routine.act = .panicked .error := by
  decide

theorem exceeding_limit_escapes_first_crash :
    (∃ m, ((next unlessStopped fun _ => .panics .error)^[m] unforgiven).routine.act =
      .panicked .error) ∧
    ∀ m, ((next unlessStopped fun _ => .panics .error)^[m] unforgiven).returned = false :=
  exceeding_limit_escapes (.new ⟨0, 1, []⟩ Nat.one_pos false) _ unforgiven (.inr ⟨_, rfl⟩)
    (by decide) 12 (by decide)

end Thread
end Hollywood
