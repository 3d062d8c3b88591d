import Hollywood.Process.Pills
import Hollywood.Process.Redelivery
import Hollywood.Process.RestartLimit

/-! A graceful pill in a batch. `Invoke` delivers what is ahead of the pill as any
other batch, flushes what is behind it and cleans up. A panic in the flush takes
the way of any other panic: the retry buffer gets all that is behind the pill,
and the pill itself is gone. -/
namespace Hollywood
variable {M W : Type} [Inhabited M]

/-- A call of the receiver for a user message is counted as received before it
draws from the pattern. -/
def Act.inflight : Act M → Nat
  | .receiving site => if site.user then 1 else 0
  | _ => 0

omit [Inhabited M] in
@[simp] theorem Routine.ret_inflight (r : Routine M) : r.ret.act.inflight = 0 := by
  obtain ⟨base, replays, act⟩ := r
  cases replays <;> cases base <;> rfl

omit [Inhabited M] in
@[simp] theorem Routine.escape_inflight (r : Routine M) (v : Panic) : (r.escape v).act.inflight = 0 := by
  obtain ⟨base, replays, act⟩ := r
  cases replays <;> rfl

omit [Inhabited M] in
theorem contents_plain {envelopes : List (Envelope M)} (plain : ∀ e ∈ envelopes, e.isPill = false) :
    (envelopes.filterMap Envelope.message).length = envelopes.length := by
  induction envelopes with
  | nil => rfl
  | cons first rest ih =>
    obtain ⟨msg, author⟩ := first
    have others := ih fun e member => plain e (List.mem_cons_of_mem _ member)
    cases msg with
    | user msg => simpa [Envelope.message] using others
    | poisonPill ctx graceful =>
      have absurd := plain _ List.mem_cons_self
      cases absurd

namespace Actor

@[simp] theorem told_broadcast (a : Actor M W) (event : Event M) :
    (a.broadcast event).told = a.told := rfl

theorem abort_told (a : Actor M W) (r : Routine M) (v : Panic) (reason : Reason M) :
    (a.abort r v reason).1.told = a.told := by
  cases reason <;> rfl

theorem abort_inflight (a : Actor M W) (r : Routine M) (v : Panic) (reason : Reason M) :
    (a.abort r v reason).2.act.inflight = 0 := by
  cases reason with
  | pill f ctx => rfl
  | limit => exact r.escape_inflight .error

/-- Outside the receiver a message is received when its call begins. -/
theorem Move.inflight {a : Actor M W} {r : Routine M} (move : Move a r b next spawned) :
    r.act.inflight = 0 ∧ b.told.length = a.told.length + next.act.inflight := by
  cases move with
  | invokeUser position | flushUser position =>
    rw [position]
    exact ⟨rfl, by simp [Routine.goto, Act.inflight, Site.user]⟩
  | inboxStarted position | invokeEnd position | cancelPill position =>
    rw [position, Routine.ret_inflight]
    exact ⟨rfl, rfl⟩
  | cancelNil position =>
    rw [position, Routine.escape_inflight]
    exact ⟨rfl, rfl⟩
  | fillPanics position =>
    rw [position, abort_inflight, abort_told]
    exact ⟨rfl, rfl⟩
  | start position | recoverStart position | recoverInvoke position | stopping position =>
    rw [position, told_deliver _ _ (by rintro _ ⟨⟩)]
    exact ⟨rfl, rfl⟩
  | _ position =>
    rw [position]
    exact ⟨rfl, rfl⟩

/-- The receiver comes back to code that is not inside a user message. -/
theorem resume_inflight (a : Actor M W) (r : Routine M) (site : Site M) (outcome : Outcome) :
    (a.resume r site outcome).2.act.inflight = 0 ∧
      (a.resume r site outcome).1.told = a.told := by
  cases outcome with
  | returns =>
    cases site with
    | initialized => exact ⟨rfl, told_deliver _ _ (by rintro _ ⟨⟩)⟩
    | started =>
      simp only [resume]
      split <;> exact ⟨rfl, rfl⟩
    | _ => exact ⟨rfl, rfl⟩
  | panics v =>
    cases site with
    | crashedInvoke f w | crashedStart w => exact ⟨r.escape_inflight v, rfl⟩
    | cleanup reason => exact ⟨a.abort_inflight r v reason, a.abort_told r v reason⟩
    | _ => exact ⟨rfl, rfl⟩

end Actor

namespace Thread

/-- The pattern has been drawn from once for every user message received. -/
def Clocked (before : Nat) (t : Thread M W) : Prop :=
  t.actor.told.length = before + t.clock + t.routine.act.inflight

theorem clocked_next {pattern : Nat → Outcome} {t : Thread M W} (clocked : t.Clocked before) :
    (t.next Site.user pattern).Clocked before := by
  have turn := next_turn Site.user pattern t
  generalize t.next Site.user pattern = u at turn
  unfold Clocked at clocked ⊢
  cases turn with
  | halted => exact clocked
  | moved move outside =>
    obtain ⟨none, received⟩ := move.inflight
    rw [received, clocked, none]
    rfl
  | @asked site position user =>
    obtain ⟨none, received⟩ := t.actor.resume_inflight t.routine site (pattern t.clock)
    have flying : t.routine.act.inflight = 1 := by simp [position, Act.inflight, user]
    dsimp only
    rw [received, none, clocked, flying]
    rfl
  | @unasked site position silent =>
    obtain ⟨none, received⟩ := t.actor.resume_inflight t.routine site .returns
    have flying : t.routine.act.inflight = 0 := by simp [position, Act.inflight, silent]
    dsimp only
    rw [received, none, clocked, flying]

/-- While what is ahead of `tail` is delivered, the clock counts the messages of
it that have been taken. -/
theorem Delivering.clock {t : Thread M W} (delivering : Delivering a pattern ahead tail t)
    (plain : ∀ e ∈ ahead, e.isPill = false) (clocked : t.Clocked a.told.length) :
    ∃ later, t.rest = later ++ tail ∧
      t.clock + t.routine.act.inflight + later.length = ahead.length := by
  obtain ⟨later, left, suffix⟩ := delivering.left
  have whole := congrArg List.length delivering.delivers
  have behind := contents_plain fun e member => plain e (suffix.subset member)
  have all := contents_plain plain
  unfold Clocked at clocked
  simp only [left, List.filterMap_append, List.length_append, behind, all] at whole
  exact ⟨later, left, by omega⟩

section
variable {a : Actor M W} {pattern : Nat → Outcome} {ahead : List (Envelope M)}

/-- The loop comes to the pill with all that was ahead of it delivered. -/
theorem reaches_pill (pill : Envelope M) (behind : List (Envelope M)) (plain : ∀ e ∈ ahead, e.isPill = false)
    (stops : pill.isPill = true) (empty : a.mbuffer = [])
    (budget : ∀ n, errors pattern n ≤ a.opts.maxRestarts.toInt - a.restarts.toInt) :
    ∃ b f n, Iteration.Leads (next Site.user pattern) (invoke a (ahead ++ pill :: behind))
        ⟨b, ⟨.worker, n, .invoke f⟩, ahead.length⟩ ∧
      f.msgs.drop f.i = pill :: behind ∧ f.nproc = f.i ∧ f.processed = f.i ∧
      b.told = a.told ++ ahead.filterMap Envelope.message ∧ b.cancelled = a.cancelled := by
  obtain ⟨n, through, delivering, clocked⟩ := Iteration.eventually
    (fun t => Delivering a pattern ahead (pill :: behind) t ∧ t.Clocked a.told.length)
    (Through (pill :: behind)) (weight pattern ahead.length)
    (by
      rintro t ⟨delivering, clocked⟩
      have settled : ∀ site, t.routine.act = .receiving site → site.user = true →
          ahead.length ≤ t.clock → pattern t.clock = .returns := by
        intro site position user late
        obtain ⟨later, -, counted⟩ := delivering.clock plain clocked
        simp only [position, Act.inflight, user, if_true] at counted
        omega
      refine (delivering_next user_polite settled budget plain (by simp [stops]) delivering).imp_right ?_
      rintro ⟨kept, lighter⟩
      exact ⟨⟨kept, clocked_next clocked⟩, lighter⟩)
    ⟨invoke_delivering ahead (pill :: behind) empty (within_budget budget), rfl⟩
  obtain ⟨later, left, counted⟩ := delivering.clock plain clocked
  have delivered := delivering.delivers
  have cancelled := delivering.cancelled
  have underway := delivering.underway
  generalize passed : (next Site.user pattern)^[n] (invoke a (ahead ++ pill :: behind)) = t
    at through left counted delivered cancelled underway
  obtain ⟨b, ⟨base, replays, act⟩, clock⟩ := t
  obtain ⟨rfl, paced⟩ := underway
  rcases through with ⟨-, absurd⟩ | ⟨f, rfl, unread, -⟩
  · cases absurd
  · obtain ⟨counters, processed, -⟩ := paced
    have none : later = [] := List.append_left_eq_self.mp (left.symm.trans unread)
    obtain rfl : clock = ahead.length := by simpa [none, Act.inflight] using counted
    refine ⟨b, f, replays, ⟨n, passed⟩, unread, counters, processed, ?_, cancelled⟩
    rw [left, none, List.nil_append, List.filterMap_append, ← List.append_assoc] at delivered
    exact List.append_cancel_right delivered

theorem flush_user {f : Frame M} {r : Routine M} {rest : List (Envelope M)} {clock ctx : Nat}
    (drawn : pattern clock = outcome) :
    Iteration.Leads (next Site.user pattern)
      ⟨a, r.goto (.flush f (⟨.user msg, author⟩ :: rest) ctx), clock⟩
      ⟨((a.invokeMsg msg author).resume r (.flush f rest ctx) outcome).1,
        ((a.invokeMsg msg author).resume r (.flush f rest ctx) outcome).2, clock + 1⟩ := by
  refine ⟨2, ?_⟩
  rw [← drawn]
  cases received : pattern clock <;>
    simp [next, Actor.step, Actor.flush, Actor.resume, Routine.goto, Site.user, received]

/-- A flush whose calls all return delivers the rest of the batch. -/
theorem flush_delivers (a : Actor M W) (r : Routine M) (f : Frame M) (rest : List (Envelope M))
    (ctx clock : Nat) (quiet : ∀ k, clock ≤ k → k < clock + (rest.filterMap Envelope.message).length →
      pattern k = .returns) :
    ∃ b later, Iteration.Leads (next Site.user pattern) ⟨a, r.goto (.flush f rest ctx), clock⟩
        ⟨b, r.goto (.cleanup (.pill f ctx)), later⟩ ∧
      b.told = a.told ++ rest.filterMap Envelope.message ∧ b.cancelled = a.cancelled := by
  induction rest generalizing a clock with
  | nil => exact ⟨a, clock, ⟨1, rfl⟩, (List.append_nil _).symm, rfl⟩
  | cons first rest ih =>
    obtain ⟨msg, author⟩ := first
    cases msg with
    | poisonPill other graceful =>
      obtain ⟨b, later, leads, received, cancelled⟩ := ih a clock quiet
      exact ⟨b, later, .step leads, received, cancelled⟩
    | user msg =>
      have counted : ((⟨.user msg, author⟩ :: rest).filterMap Envelope.message).length =
          (rest.filterMap Envelope.message).length + 1 := rfl
      rw [counted] at quiet
      obtain ⟨b, later, leads, received, cancelled⟩ := ih (a.invokeMsg msg author) (clock + 1)
        fun k late early => quiet k (by omega) (by omega)
      refine ⟨b, later, (flush_user (quiet clock le_rfl (by omega))).trans leads, ?_, cancelled⟩
      rw [received, Actor.told_invokeMsg, List.append_assoc]
      rfl

/-- A flush with a call that panics ends in the recovery of `Invoke`. -/
theorem flush_crashes (a : Actor M W) (r : Routine M) (f : Frame M) (rest : List (Envelope M))
    (ctx clock : Nat) (late : clock ≤ k) (early : k < clock + (rest.filterMap Envelope.message).length)
    (panics : pattern k ≠ .returns) :
    ∃ b v later, Iteration.Leads (next Site.user pattern) ⟨a, r.goto (.flush f rest ctx), clock⟩
        ⟨b, r.goto (.recoverInvoke f v), later⟩ ∧ b.cancelled = a.cancelled := by
  induction rest generalizing a clock with
  | nil => exact absurd early (by simpa using late)
  | cons first rest ih =>
    obtain ⟨msg, author⟩ := first
    cases msg with
    | poisonPill other graceful =>
      obtain ⟨b, v, later, leads, cancelled⟩ := ih a clock late early
      exact ⟨b, v, later, .step leads, cancelled⟩
    | user msg =>
      have counted : ((⟨.user msg, author⟩ :: rest).filterMap Envelope.message).length =
          (rest.filterMap Envelope.message).length + 1 := rfl
      rw [counted] at early
      cases drawn : pattern clock with
      | panics v => exact ⟨_, v, _, flush_user drawn, rfl⟩
      | returns =>
        have after : clock ≠ k := by
          rintro rfl
          exact panics drawn
        obtain ⟨b, v, later, leads, cancelled⟩ := ih (a.invokeMsg msg author) (clock + 1)
          (by omega) (by omega)
        exact ⟨b, v, later, (flush_user drawn).trans leads, cancelled⟩

end

section
variable (asks : Site M → Bool) (pattern : Nat → Outcome) (a : Actor M W) (r : Routine M)
  (reason : Reason M) (clock : Nat)

theorem poison_runs (rest : List (Option PID)) :
    ∃ poisoned, Iteration.Leads (next asks pattern) ⟨a, r.goto (.poison reason rest), clock⟩
      ⟨{ a with poisoned := poisoned }, r.goto (.stopInbox reason), clock⟩ := by
  induction rest generalizing a with
  | nil => exact ⟨a.poisoned, 1, rfl⟩
  | cons child rest ih =>
    obtain ⟨poisoned, leads⟩ := ih { a with poisoned := a.poisoned ++ child.toList }
    exact ⟨poisoned, .step leads⟩

/-- The children are poisoned one after another, if there are any. -/
theorem children_runs :
    ∃ poisoned, Iteration.Leads (next asks pattern) ⟨a, r.goto (.childrenLen reason), clock⟩
      ⟨{ a with poisoned := poisoned }, r.goto (.stopInbox reason), clock⟩ := by
  by_cases parent : a.children.length > 0
  · obtain ⟨poisoned, leads⟩ := poison_runs asks pattern a r reason clock (a.children.map some)
    refine ⟨poisoned, .trans ⟨3, ?_⟩ leads⟩
    simp [next, Actor.step, Actor.fillChildren, Routine.goto, parent]
  · refine ⟨a.poisoned, 1, ?_⟩
    simp only [Function.iterate_one, next, Actor.step, Routine.goto, parent, if_false]

/-- `cleanup` with a receiver that returns from Stopped comes to its deferred
`cancel()`, with the actor out of the registry. -/
theorem cleanup_runs (silent : asks (.cleanup reason) = false) :
    ∃ b, Iteration.Leads (next asks pattern) ⟨a, r.goto (.cleanup reason), clock⟩
        ⟨b, r.goto (.cancel reason), clock⟩ ∧
      b.registered = false ∧ b.told = a.told ∧ b.cancelled = a.cancelled := by
  obtain ⟨poisoned, leads⟩ := children_runs asks pattern { a with parent := false } r reason clock
  have stopped : ∀ b : Actor M W,
      next asks pattern ⟨b, r.goto (.receiving (.cleanup reason)), clock⟩ =
        ⟨b.broadcast .actorStopped, r.goto (.cancel reason), clock⟩ := by
    intro b
    simp only [next, Routine.goto, silent, Bool.false_eq_true, if_false, Actor.resume]
  refine ⟨_, .step (leads.trans (.step (.step (.step ⟨1, stopped _⟩)))), rfl, ?_, rfl⟩
  rw [Actor.told_broadcast, Actor.told_deliver _ _ (by rintro _ ⟨⟩)]
  rfl

theorem inboxStart_next (taken : a.inbox.step pc = some turn) :
    next asks pattern ⟨a, r.goto (.inboxStart pc), clock⟩ =
      ⟨a.record pc turn, match turn.next with
        | .done => r.ret
        | next => r.goto (.inboxStart next), clock⟩ := by
  simp only [next, Actor.step, Routine.goto, Actor.inboxStart, taken, Option.bind_eq_bind,
    Option.bind_some, Option.pure_def]
  cases turn.next <;> rfl

/-- `inbox.Start` comes to its return. -/
theorem inboxStart_runs :
    ∃ b, Iteration.Leads (next asks pattern) ⟨a, r.goto (.inboxStart .start), clock⟩
        ⟨b, r.ret, clock⟩ ∧
      b.registered = a.registered ∧ b.told = a.told ∧ b.cancelled = a.cancelled := by
  by_cases stopped : a.inbox.procStatus = .stopped
  · have swapped : a.inbox.step .start =
        some ⟨{ a.inbox with procStatus := .starting }, .starting, []⟩ := by
      simp [Inbox.step, Inbox.compareAndSwap, stopped]
    exact ⟨_, .head (inboxStart_next asks pattern a r clock swapped)
      (.head (inboxStart_next asks pattern _ r clock rfl)
        (.head (inboxStart_next asks pattern _ r clock rfl) (.refl _))), rfl, rfl, rfl⟩
  · have ignored : a.inbox.step .start = some ⟨a.inbox, .done, []⟩ := by
      simp [Inbox.step, Inbox.compareAndSwap, stopped]
    exact ⟨_, .head (inboxStart_next asks pattern a r clock ignored) (.refl _), rfl, rfl, rfl⟩

/-- Each waiting `Start` clears the retry buffer, starts the inbox and returns. -/
theorem ret_runs (n : Nat) (act : Act M) :
    ∃ b, Iteration.Leads (next asks pattern) ⟨a, Routine.ret ⟨.worker, n, act⟩, clock⟩
        ⟨b, ⟨.worker, 0, .loop .load⟩, clock⟩ ∧
      b.registered = a.registered ∧ b.told = a.told ∧ b.cancelled = a.cancelled := by
  induction n generalizing a act with
  | zero => exact ⟨a, .refl _, rfl, rfl, rfl⟩
  | succ n ih =>
    obtain ⟨b, starts, registered, received, cancelled⟩ :=
      inboxStart_runs asks pattern { a with mbuffer := [] } ⟨.worker, n, .replayed⟩ clock
    obtain ⟨c, returns, unregistered, same, kept⟩ := ih b .replayed
    exact ⟨c, .step (starts.trans returns), unregistered.trans registered, same.trans received,
      kept.trans cancelled⟩

end

end Thread

namespace Thread

/-- After a panic in the flush nothing is left that could cancel the context. -/
theorem confined_next {pattern : Nat → Outcome} {t : Thread M W}
    (confined : t.routine.Confined allowed t.actor) :
    (t.next Site.user pattern).routine.Confined allowed (t.next Site.user pattern).actor := by
  have turn := next_turn Site.user pattern t
  generalize t.next Site.user pattern = u at turn
  cases turn with
  | halted => exact confined
  | moved move outside => exact move.confined confined fun pc position => absurd position (outside pc)
  | asked position user => exact Actor.resume_confined confined position _ fun _ => user
  | unasked position => exact Actor.resume_confined confined position _ fun panicked => absurd rfl panicked

/-- A batch whose first pill is graceful, and panics on user messages within the
budget: the call returns with every message of the batch delivered once and in
order, the actor out of the registry and the context of the pill cancelled if
and only if no call for a message behind the pill panics. -/
theorem graceful_stop_completes_iff (a : Actor M W) (ahead behind : List (Envelope M)) (ctx : Nat)
    (author : Option PID) (pattern : Nat → Outcome) (plain : ∀ e ∈ ahead, e.isPill = false)
    (empty : a.mbuffer = []) (fresh : ctx ∉ a.cancelled) (single : ∀ e ∈ behind, e.context ≠ some ctx)
    (budget : ∀ n, errors pattern n ≤ a.opts.maxRestarts.toInt - a.restarts.toInt) :
    (∃ t, Iteration.Leads (next Site.user pattern)
        (invoke a (ahead ++ ⟨.poisonPill ctx true, author⟩ :: behind)) t ∧
      t.returned = true ∧
      t.actor.told = a.told ++ (ahead ++ behind).filterMap Envelope.message ∧
      t.actor.registered = false ∧ ctx ∈ t.actor.cancelled) ↔
    ∀ k, ahead.length ≤ k → k < ahead.length + (behind.filterMap Envelope.message).length →
      pattern k = .returns := by
  obtain ⟨b, f, n, arrives, unread, counted, processed, received, cancelled⟩ :=
    reaches_pill ⟨.poisonPill ctx true, author⟩ behind plain rfl empty budget
  have found : f.msgs[f.i]? = some ⟨.poisonPill ctx true, author⟩ := by
    rw [← List.head?_drop, unread]
    rfl
  have left : f.msgs.drop (f.nproc + 1) = behind := by
    rw [counted, ← List.tail_drop, unread]
    rfl
  have flushes := arrives.trans (.head
    (t := ⟨b, ⟨.worker, n, .flush { f with nproc := f.nproc + 1 }
      (⟨.poisonPill ctx true, author⟩ :: behind) ctx⟩, ahead.length⟩)
    (by simp [next, Actor.step, Actor.invoke, found, processed, unread, Routine.goto]) (.refl _))
  constructor
  · rintro ⟨t, ends, returned, -, -, completed⟩ k late early
    by_contra panics
    obtain ⟨c, v, later, crashes, same⟩ := flush_crashes b ⟨.worker, n, .invoke f⟩
      { f with nproc := f.nproc + 1 } (⟨.poisonPill ctx true, author⟩ :: behind) ctx ahead.length late early panics
    have confined : Routine.Confined (· ≠ ctx) c
        ⟨.worker, n, .recoverInvoke { f with nproc := f.nproc + 1 } v⟩ := by
      refine ⟨?_, ?_, by rintro _ ⟨⟩⟩
      · rintro served member rfl
        rw [same, cancelled] at member
        exact fresh member
      · rintro e member served pill rfl
        exact single e (left ▸ member) pill
    have remains := (flushes.trans crashes).halt ends (returned_halts returned)
    exact (remains.invariant (fun t : Thread M W => t.routine.Confined (· ≠ ctx) t.actor)
      (fun _ => confined_next) confined).cancelled ctx completed rfl
  · intro quiet
    obtain ⟨c, later, delivers, all, same⟩ := flush_delivers b ⟨.worker, n, .invoke f⟩
      { f with nproc := f.nproc + 1 } (⟨.poisonPill ctx true, author⟩ :: behind) ctx ahead.length quiet
    obtain ⟨d, cleans, unregistered, kept, -⟩ := cleanup_runs Site.user pattern c
      ⟨.worker, n, .invoke f⟩ (.pill { f with nproc := f.nproc + 1 } ctx) later rfl
    obtain ⟨e, returns, registered, final, completed⟩ := ret_runs Site.user pattern
      { d with cancelled := d.cancelled ++ [ctx] } later n (.invoke f)
    refine ⟨_, flushes.trans (delivers.trans (cleans.trans (.step returns))), rfl, ?_, ?_, ?_⟩
    · calc e.told = b.told ++ behind.filterMap Envelope.message :=
            final.trans (kept.trans all)
        _ = a.told ++ (ahead ++ behind).filterMap Envelope.message := by
            rw [received, List.filterMap_append, List.append_assoc]
    · exact registered.trans unregistered
    · rw [completed]
      exact List.mem_append_right _ (List.mem_singleton_self _)

/-- A receiver that panics on the first user message it is called for. -/
def panicsOnce (k : Nat) : Outcome := if k = 0 then .panics .error else .returns

theorem graceful_stop_completes_iff_panic_ahead :
    ∃ t : Thread Nat Nat, t.returned = true ∧ t.actor.told = [(1, none), (2, none)] ∧
      t.actor.registered = false ∧ 0 ∈ t.actor.cancelled := by
  have later : ∀ k, 1 ≤ k → panicsOnce k = .returns := by
    intro k late
    simp [panicsOnce, show k ≠ 0 by omega]
  have counted : ∀ n, errors panicsOnce n ≤ 1 := errors_settled 1 fun k late => by simp [later k late]
  have completes := graceful_stop_completes_iff
    (.new ⟨3, 1, []⟩ Nat.one_pos false : Actor Nat Nat) [⟨.user 1, none⟩] [⟨.user 2, none⟩] 0 none
    panicsOnce (by decide) rfl List.not_mem_nil (by decide)
    (fun n => le_trans (Int.ofNat_le.mpr (counted n)) (by decide))
  obtain ⟨t, -, completed⟩ := completes.mpr fun k late _ => later k late
  exact ⟨t, completed⟩

/-- A pill with one message behind it. -/
def flushed : Thread Nat Nat :=
  invoke (.new ⟨3, 1, []⟩ Nat.one_pos false) [⟨.poisonPill 0 true, none⟩, ⟨.user 1, none⟩]

/-- The message that panics in the flush is delivered again and the pill is lost. -/
theorem panic_in_flush_loses_pill :
    ((next Site.user panicsOnce)^[19] flushed).returned = true ∧
    ((next Site.user panicsOnce)^[19] flushed).actor.told = [(1, none), (1, none)] ∧
    ((next Site.user panicsOnce)^[19] flushed).actor.registered = true ∧
    ((next Site.user panicsOnce)^[19] flushed).actor.cancelled = [] := by
  decide

end Thread
end Hollywood
