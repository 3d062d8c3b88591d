import Hollywood.Process.Thread

/-! Delivery across crashes. What a call of `Invoke` still has to deliver stays
in the frame of the loop until a panic moves it into the retry buffer, and goes
back into a frame when the restarted instance is started; the message that
panicked is not retried. -/
namespace Hollywood
variable {M W : Type} [Inhabited M]

/-- What the goroutine has left to deliver, given the retry buffer. -/
def Act.rest (buffer : List (Envelope M)) : Act M → List (Envelope M)
  | .invoke f => f.msgs.drop f.i
  | .receiving (.message f) | .recoverInvoke f _ | .receiving (.crashedInvoke f _) =>
    f.msgs.drop f.nproc
  | .replayed | .inboxStart _ | .loop _ => []
  | _ => buffer

/-- The places of an `Invoke` that has not met a pill. The counters of the loop
agree, and only an outermost call finds the retry buffer empty. -/
def Act.paced (buffer : List (Envelope M)) (replays : Nat) : Act M → Prop
  | .invoke f => f.nproc = f.i ∧ f.processed = f.i ∧ (replays = 0 → buffer = [])
  | .receiving (.message f) =>
    f.nproc = f.i + 1 ∧ f.processed = f.i ∧ (replays = 0 → buffer = [])
  | .recoverInvoke _ _ | .receiving (.crashedInvoke _ _) | .tryRestart _ | .countRestart
  | .announceRestart | .start | .receiving .initialized | .receiving .started | .recoverStart _
  | .receiving (.crashedStart _) | .replayed => True
  | .inboxStart .start | .inboxStart .starting | .inboxStart (.schedule _) => buffer = []
  | .loop .load => buffer = [] ∧ replays = 0
  | _ => False

/-- How many actions lie between a place and the next message or the return, at
most. -/
def Act.rank : Act M → Nat
  | .recoverInvoke _ _ | .recoverStart _ => 15
  | .receiving (.crashedInvoke _ _) | .receiving (.crashedStart _) => 14
  | .tryRestart _ => 13
  | .countRestart => 12
  | .announceRestart => 11
  | .start => 10
  | .receiving .initialized => 9
  | .receiving .started => 8
  | .replayed => 5
  | .inboxStart .start => 4
  | .inboxStart .starting => 3
  | .inboxStart _ => 2
  | .receiving _ => 2
  | .invoke _ => 1
  | _ => 0

/-- Panics of the pattern from a given call of the receiver on, before `bound`. -/
def panicsLeft (pattern : Nat → Outcome) (bound clock : Nat) : Nat :=
  (List.range' clock (bound - clock)).countP fun k => pattern k ≠ .returns

theorem panicsLeft_succ (pattern : Nat → Outcome) (bound clock : Nat) :
    panicsLeft pattern bound (clock + 1) ≤ panicsLeft pattern bound clock := by
  unfold panicsLeft
  by_cases inside : clock < bound
  · obtain ⟨k, same⟩ := Nat.exists_eq_add_of_lt inside
    rw [show bound - clock = (bound - (clock + 1)) + 1 by omega, List.range'_succ, List.countP_cons]
    omega
  · rw [show bound - (clock + 1) = 0 by omega]
    exact Nat.zero_le _

theorem panicsLeft_panics {pattern : Nat → Outcome}
    (settled : bound ≤ clock → pattern clock = .returns) (panics : pattern clock = .panics v) :
    panicsLeft pattern bound (clock + 1) < panicsLeft pattern bound clock := by
  have inside : clock < bound := by
    by_contra outside
    rw [settled (by omega)] at panics
    contradiction
  unfold panicsLeft
  rw [show bound - clock = (bound - (clock + 1)) + 1 by omega, List.range'_succ, List.countP_cons]
  simp [panics]

namespace Thread

def rest (t : Thread M W) : List (Envelope M) := t.routine.act.rest t.actor.mbuffer

/-- An `Invoke` on its way from message to message. -/
structure Underway (t : Thread M W) : Prop where
  worker : t.routine.base = .worker
  paced : t.routine.act.paced t.actor.mbuffer t.routine.replays

def weight (pattern : Nat → Outcome) (bound : Nat) (t : Thread M W) : Nat :=
  18 * panicsLeft pattern bound t.clock + 2 * t.rest.length + 6 * t.routine.replays +
    t.routine.act.rank

/-- One action delivers the next message or gets closer to doing so. -/
structure Closer (pattern : Nat → Outcome) (bound : Nat) (t u : Thread M W) : Prop where
  underway : u.Underway
  delivers : u.actor.told ++ u.rest.filterMap Envelope.message =
    t.actor.told ++ t.rest.filterMap Envelope.message
  consumed : u.rest = t.rest ∨ ∃ e, e.isPill = false ∧ t.rest = e :: u.rest
  cancelled : u.actor.cancelled = t.actor.cancelled
  lighter : u.weight pattern bound < t.weight pattern bound

theorem ret_closer {pattern : Nat → Outcome} {a b : Actor M W} {act : Act M} {clock : Nat}
    (received : b.told = a.told) (cancelled : b.cancelled = a.cancelled)
    (empty : n = 0 → b.mbuffer = []) (drained : act.rest a.mbuffer = []) (ranked : 0 < act.rank) :
    Closer pattern bound ⟨a, ⟨.worker, n, act⟩, clock⟩ ⟨b, Routine.ret ⟨.worker, n, act⟩, clock⟩ := by
  have before : Thread.rest ⟨a, ⟨.worker, n, act⟩, clock⟩ = [] := drained
  have after : Thread.rest ⟨b, Routine.ret ⟨.worker, n, act⟩, clock⟩ = [] := by cases n <;> rfl
  refine ⟨?_, by rw [before, after, received], .inl (by rw [before, after]), cancelled, ?_⟩
  · cases n with
    | zero => exact ⟨rfl, empty rfl, rfl⟩
    | succ n => exact ⟨rfl, trivial⟩
  · unfold weight
    rw [before, after]
    cases n with
    | zero => simpa [Routine.ret, Routine.goto, Act.rank] using ranked
    | succ n =>
      simp only [Routine.ret, Act.rank]
      omega

/-- An action that delivers nothing and comes closer by its weight. -/
theorem Closer.of {pattern : Nat → Outcome} {a b : Actor M W} {act other : Act M}
    {clock later n m : Nat} (received : b.told = a.told)
    (cancelled : b.cancelled = a.cancelled) (same : other.rest b.mbuffer = act.rest a.mbuffer) (paced : other.paced b.mbuffer m)
    (lighter : 18 * panicsLeft pattern bound later + 6 * m + other.rank <
      18 * panicsLeft pattern bound clock + 6 * n + act.rank) :
    Closer pattern bound ⟨a, ⟨.worker, n, act⟩, clock⟩ ⟨b, ⟨.worker, m, other⟩, later⟩ := by
  have left : Thread.rest ⟨b, ⟨.worker, m, other⟩, later⟩ =
      Thread.rest ⟨a, ⟨.worker, n, act⟩, clock⟩ := same
  refine ⟨⟨rfl, paced⟩, by rw [left, received], .inl left, cancelled, ?_⟩
  unfold weight
  rw [left]
  dsimp only
  omega

/-- A call of the receiver returns, or it uses up a panic of the pattern. -/
theorem next_receiving {pattern : Nat → Outcome} {r : Routine M} {clock : Nat}
    (settled : asks site = true → bound ≤ clock → pattern clock = .returns)
    (position : r.act = .receiving site) (a : Actor M W) :
    ∃ outcome later, next asks pattern ⟨a, r, clock⟩ =
        ⟨(a.resume r site outcome).1, (a.resume r site outcome).2, later⟩ ∧
      (outcome = .returns ∧ panicsLeft pattern bound later ≤ panicsLeft pattern bound clock ∨
        ∃ v, outcome = .panics v ∧ asks site = true ∧
          panicsLeft pattern bound later < panicsLeft pattern bound clock) := by
  cases asked : asks site with
  | false => exact ⟨.returns, clock, by simp [next, position, asked], .inl ⟨rfl, le_rfl⟩⟩
  | true =>
    refine ⟨pattern clock, clock + 1, by simp [next, position, asked], ?_⟩
    cases drawn : pattern clock with
    | returns => exact .inl ⟨rfl, panicsLeft_succ pattern bound clock⟩
    | panics v => exact .inr ⟨v, rfl, rfl, panicsLeft_panics (settled asked) drawn⟩

section
variable {asks : Site M → Bool} {pattern : Nat → Outcome} {a : Actor M W} {n clock : Nat}

theorem start_closer :
    Closer pattern bound ⟨a, ⟨.worker, n, .start⟩, clock⟩
      (next asks pattern ⟨a, ⟨.worker, n, .start⟩, clock⟩) := by
  refine .of ?_ rfl rfl trivial (Nat.lt_succ_self _)
  exact Actor.told_deliver _ _ (by rintro _ ⟨⟩)

theorem tryRestart_closer
    (spared : v = .error → a.restarts ≠ a.opts.maxRestarts) :
    Closer pattern bound ⟨a, ⟨.worker, n, .tryRestart v⟩, clock⟩
      (next asks pattern ⟨a, ⟨.worker, n, .tryRestart v⟩, clock⟩) := by
  cases v with
  | internal => exact .of rfl rfl rfl trivial (by simp only [Act.rank]; omega)
  | error =>
    simp only [next, Actor.step, Actor.tryRestart, spared rfl, reduceCtorEq, if_false]
    exact .of rfl rfl rfl trivial (Nat.lt_succ_self _)

theorem receiving_closer (polite : ∀ site, asks site = true → site.stops = false)
    {site : Site M} (settled : asks site = true → bound ≤ clock → pattern clock = .returns)
    (paced : (Act.receiving site).paced a.mbuffer n) :
    Closer pattern bound ⟨a, ⟨.worker, n, .receiving site⟩, clock⟩
      (next asks pattern ⟨a, ⟨.worker, n, .receiving site⟩, clock⟩) := by
  obtain ⟨outcome, later, same, drawn⟩ := next_receiving
    (r := ⟨.worker, n, .receiving site⟩) settled rfl a
  rw [same]
  rcases drawn with ⟨rfl, fewer⟩ | ⟨v, rfl, asked, fewer⟩
  · cases site with
    | initialized =>
      refine .of ?_ rfl rfl trivial (by simp only [Act.rank]; omega)
      simp [Actor.resume, Actor.told, Actor.deliver, Actor.broadcast, Delivery.told]
    | started =>
      by_cases empty : a.mbuffer = []
      · simp only [Actor.resume, empty, List.length_nil, gt_iff_lt, lt_self_iff_false, if_false]
        exact .of rfl rfl empty.symm empty (by simp only [Act.rank]; omega)
      · simp only [Actor.resume, gt_iff_lt, List.length_pos_iff.mpr empty, if_true]
        exact .of rfl rfl rfl ⟨rfl, rfl, by rintro ⟨⟩⟩ (by simp only [Act.rank]; omega)
    | message f =>
      obtain ⟨counted, processed, empty⟩ := paced
      refine .of rfl rfl ?_ ⟨counted, congrArg (· + 1) processed, empty⟩ (by simp only [Act.rank]; omega)
      simp only [Act.rest, counted]
    | crashedInvoke f v => exact .of rfl rfl rfl trivial (by simp only [Act.rank]; omega)
    | crashedStart v => exact .of rfl rfl rfl trivial (by simp only [Act.rank]; omega)
    | flush f rest ctx => exact paced.elim
    | cleanup reason => exact paced.elim
  · have continues := polite site asked
    cases site with
    | initialized | started | message f =>
      exact .of rfl rfl rfl trivial (by simp only [Act.rank]; omega)
    | crashedInvoke f v | crashedStart v => cases continues
    | flush f rest ctx | cleanup reason => exact paced.elim

theorem inboxStart_closer {pc : Inbox.Pc (Envelope M)} (paced : (Act.inboxStart pc).paced a.mbuffer n) :
    Closer pattern bound ⟨a, ⟨.worker, n, .inboxStart pc⟩, clock⟩
      (next asks pattern ⟨a, ⟨.worker, n, .inboxStart pc⟩, clock⟩) := by
  cases pc with
  | start =>
    by_cases stopped : a.inbox.procStatus = .stopped
    · simp only [next, Actor.step, Actor.inboxStart, Inbox.step, Inbox.compareAndSwap, stopped, if_true]
      exact .of rfl rfl rfl paced (Nat.lt_succ_self _)
    · simp only [next, Actor.step, Actor.inboxStart, Inbox.step, Inbox.compareAndSwap, stopped, if_false]
      exact ret_closer rfl rfl (fun _ => paced) rfl (Nat.succ_pos _)
  | starting => exact .of rfl rfl rfl paced (Nat.lt_succ_self _)
  | schedule caller =>
    have ends : a.inbox.schedule.next = .done := by
      unfold Inbox.schedule
      split <;> rfl
    simp only [next, Actor.step, Actor.inboxStart, Inbox.step, Option.bind_eq_bind,
      Option.bind_some, ends, Option.pure_def]
    exact ret_closer rfl rfl (fun _ => paced) rfl (Nat.succ_pos _)
  | _ => exact paced.elim

/-- The loop of `Invoke` returns, delivers the next message or meets a pill. -/
theorem invoke_closer {f : Frame M} (paced : (Act.invoke f).paced a.mbuffer n) :
    (∃ e, f.msgs[f.i]? = some e ∧ e.isPill = true) ∨
      Closer pattern bound ⟨a, ⟨.worker, n, .invoke f⟩, clock⟩
        (next asks pattern ⟨a, ⟨.worker, n, .invoke f⟩, clock⟩) := by
  obtain ⟨counted, processed, empty⟩ := paced
  cases current : f.msgs[f.i]? with
  | none =>
    right
    simp only [next, Actor.step, Actor.invoke, current]
    refine ret_closer rfl rfl empty ?_ Nat.one_pos
    exact List.drop_eq_nil_iff.mpr (List.getElem?_eq_none_iff.mp current)
  | some envelope =>
    obtain ⟨msg, sender⟩ := envelope
    cases msg with
    | poisonPill ctx graceful => exact .inl ⟨_, rfl, rfl⟩
    | user msg =>
      right
      simp only [next, Actor.step, Actor.invoke, current]
      obtain ⟨inside, found⟩ := List.getElem?_eq_some_iff.mp current
      have ahead : Thread.rest ⟨a, ⟨.worker, n, .invoke f⟩, clock⟩ =
          ⟨.user msg, sender⟩ :: f.msgs.drop (f.nproc + 1) := by
        rw [Thread.rest, Act.rest, List.drop_eq_getElem_cons inside, found, counted]
      refine ⟨⟨rfl, congrArg (· + 1) counted, processed, empty⟩, ?_,
        .inr ⟨_, rfl, ahead⟩, rfl, ?_⟩
      · rw [ahead]
        simp [Thread.rest, Act.rest, Routine.goto, Envelope.message]
      · unfold weight
        rw [ahead]
        simp only [Thread.rest, Act.rest, Routine.goto, Act.rank, List.length_cons]
        omega

end

/-- As long as counted panics leave a restart, `Invoke` returns or meets a pill
after delivering what was ahead of it. -/
theorem next_closer {asks : Site M → Bool} {pattern : Nat → Outcome} {t : Thread M W}
    (polite : ∀ site, asks site = true → site.stops = false)
    (settled : ∀ site, t.routine.act = .receiving site → asks site = true →
      bound ≤ t.clock → pattern t.clock = .returns) (underway : t.Underway)
    (spared : t.routine.act.raised = some .error → t.actor.restarts ≠ t.actor.opts.maxRestarts) :
    t.routine.act = .loop .load ∨
      (∃ f e, t.routine.act = .invoke f ∧ f.msgs[f.i]? = some e ∧ e.isPill = true) ∨
      Closer pattern bound t (t.next asks pattern) := by
  obtain ⟨a, ⟨base, n, act⟩, clock⟩ := t
  obtain ⟨rfl, paced⟩ := underway
  cases act with
  | loop pc =>
    cases pc with
    | load => exact .inl rfl
    | _ => exact paced.elim
  | invoke f =>
    refine .inr ((invoke_closer paced).imp ?_ id)
    rintro ⟨e, found, pill⟩
    exact ⟨f, e, rfl, found, pill⟩
  | start => exact .inr (.inr start_closer)
  | receiving site => exact .inr (.inr (receiving_closer polite (settled site rfl) paced))
  | replayed => exact .inr (.inr (.of rfl rfl rfl rfl (Nat.lt_succ_self _)))
  | inboxStart pc => exact .inr (.inr (inboxStart_closer paced))
  | recoverStart v | recoverInvoke f v =>
    exact .inr (.inr (.of (a.told_deliver [] (by rintro _ ⟨⟩)) rfl rfl trivial (Nat.lt_succ_self _)))
  | tryRestart v => exact .inr (.inr (tryRestart_closer fun same => spared (congrArg some same)))
  | countRestart | announceRestart => exact .inr (.inr (.of rfl rfl rfl trivial (Nat.lt_succ_self _)))
  | _ => exact paced.elim

/-- Within the budget a counted panic always leaves a restart. -/
theorem Accounted.spared {pattern : Nat → Outcome} {t : Thread M W}
    (accounted : t.Accounted config made pattern)
    (budget : ∀ n, errors pattern n ≤ config.maxRestarts.toInt - made)
    (raised : t.routine.act.raised = some .error) :
    t.actor.restarts ≠ t.actor.opts.maxRestarts := by
  intro limit
  have balance := accounted.balance
  have room := budget t.clock
  rw [limit, accounted.opts, Act.debt, if_pos raised] at balance
  omega

/-- Along a call for a batch `ahead ++ tail`, what was received and what is left
make up the batch, and `tail` has not been touched. -/
structure Delivering (a : Actor M W) (pattern : Nat → Outcome) (ahead tail : List (Envelope M))
    (t : Thread M W) : Prop where
  underway : t.Underway
  accounted : t.Accounted a.opts a.restarts.toInt pattern
  delivers : t.actor.told ++ t.rest.filterMap Envelope.message =
    a.told ++ (ahead ++ tail).filterMap Envelope.message
  left : ∃ later, t.rest = later ++ tail ∧ later <:+ ahead
  cancelled : t.actor.cancelled = a.cancelled

section
variable {a : Actor M W} {pattern : Nat → Outcome} {asks : Site M → Bool}
  {ahead tail : List (Envelope M)} {t : Thread M W}

theorem invoke_delivering (ahead tail : List (Envelope M)) (empty : a.mbuffer = [])
    (within : a.restarts.toInt ≤ a.opts.maxRestarts.toInt) :
    Delivering a pattern ahead tail (invoke a (ahead ++ tail)) :=
  ⟨⟨rfl, rfl, rfl, fun _ => empty⟩, invoke_accounted within _, rfl, ⟨ahead, rfl, List.suffix_rfl⟩,
    rfl⟩

theorem Delivering.closer (delivering : Delivering a pattern ahead tail t)
    (accounted : u.Accounted a.opts a.restarts.toInt pattern)
    (barred : ∀ e ∈ tail.head?, e.isPill = true) (closer : Closer pattern bound t u) :
    Delivering a pattern ahead tail u := by
  refine ⟨closer.underway, accounted, closer.delivers.trans delivering.delivers, ?_,
    closer.cancelled.trans delivering.cancelled⟩
  obtain ⟨later, left, suffix⟩ := delivering.left
  rcases closer.consumed with same | ⟨e, plain, taken⟩
  · exact ⟨later, same.trans left, suffix⟩
  · rw [left] at taken
    cases later with
    | nil =>
      rw [List.nil_append] at taken
      rw [barred e (by simp [taken])] at plain
      contradiction
    | cons first later =>
      obtain ⟨-, rest⟩ := List.cons.inj taken
      exact ⟨later, rest.symm, (List.suffix_cons _ _).trans suffix⟩

/-- The head of what is left is a pill only when all that was ahead of the first
pill has been delivered. -/
theorem Delivering.met (delivering : Delivering a pattern ahead tail t)
    (plain : ∀ e ∈ ahead, e.isPill = false) (position : t.routine.act = .invoke f)
    (found : f.msgs[f.i]? = some e) (pill : e.isPill = true) :
    f.msgs.drop f.i = tail ∧ tail ≠ [] := by
  obtain ⟨later, left, suffix⟩ := delivering.left
  obtain ⟨inside, found⟩ := List.getElem?_eq_some_iff.mp found
  have start : t.rest = e :: f.msgs.drop (f.i + 1) := by
    rw [rest, position, Act.rest, List.drop_eq_getElem_cons inside, found]
  rw [start] at left
  cases later with
  | nil =>
    rw [List.nil_append] at left
    exact ⟨by rw [List.drop_eq_getElem_cons inside, found, left], by simp [← left]⟩
  | cons first later =>
    obtain ⟨rfl, -⟩ := List.cons.inj left
    rw [plain e (suffix.subset List.mem_cons_self)] at pill
    contradiction

/-- The call has delivered what is ahead of `tail`: it has returned, or `tail` is
what the loop has before it. -/
def Through (tail : List (Envelope M)) (t : Thread M W) : Prop :=
  t.routine.act = .loop .load ∧ tail = [] ∨
    ∃ f, t.routine.act = .invoke f ∧ f.msgs.drop f.i = tail ∧ tail ≠ []

theorem delivering_next (polite : ∀ site, asks site = true → site.stops = false)
    (settled : ∀ site, t.routine.act = .receiving site → asks site = true →
      bound ≤ t.clock → pattern t.clock = .returns)
    (budget : ∀ n, errors pattern n ≤ a.opts.maxRestarts.toInt - a.restarts.toInt)
    (plain : ∀ e ∈ ahead, e.isPill = false) (barred : ∀ e ∈ tail.head?, e.isPill = true)
    (delivering : Delivering a pattern ahead tail t) :
    t.Through tail ∨ Delivering a pattern ahead tail (t.next asks pattern) ∧
      (t.next asks pattern).weight pattern bound < t.weight pattern bound := by
  have spared := delivering.accounted.spared budget
  rcases next_closer polite settled delivering.underway spared with
    ended | ⟨f, e, position, found, pill⟩ | closer
  · obtain ⟨later, left, -⟩ := delivering.left
    rw [rest, ended, Act.rest] at left
    exact .inl (.inl ⟨ended, (List.append_eq_nil_iff.mp left.symm).2⟩)
  · exact .inl (.inr ⟨f, position, delivering.met plain position found pill⟩)
  · exact .inr ⟨delivering.closer (next_accounted polite delivering.accounted spared) barred closer,
      closer.lighter⟩

end

end Thread

theorem errors_mono (pattern : Nat → Outcome) (ordered : n ≤ m) :
    errors pattern n ≤ errors pattern m := by
  induction ordered with
  | refl => exact le_rfl
  | step _ ih =>
    rw [errors_succ]
    exact ih.trans (Nat.le_add_right _ _)

theorem errors_settled {pattern : Nat → Outcome} (start : Nat)
    (quiet : ∀ k, start ≤ k → pattern k ≠ .panics .error) (n : Nat) :
    errors pattern n ≤ errors pattern start := by
  induction n with
  | zero => exact Nat.zero_le _
  | succ n ih =>
    by_cases late : start ≤ n
    · rwa [errors_succ, if_neg (quiet n late)]
    · exact errors_mono pattern (by omega)

/-- A pattern with boundedly many counted panics raises none from some call on. -/
theorem errors_end {pattern : Nat → Outcome} (gap n : Nat)
    (bounded : ∀ m, errors pattern m ≤ errors pattern n + gap) :
    ∃ start, ∀ k, start ≤ k → pattern k ≠ .panics .error := by
  induction gap generalizing n with
  | zero =>
    refine ⟨n, fun k late error => ?_⟩
    have grown := bounded (k + 1)
    have kept := errors_mono pattern late
    rw [errors_succ, if_pos error] at grown
    omega
  | succ gap ih =>
    by_cases another : ∃ k, n ≤ k ∧ pattern k = .panics .error
    · obtain ⟨k, late, error⟩ := another
      have kept := errors_mono pattern late
      have counted := errors_succ pattern k
      rw [if_pos error] at counted
      exact ih (k + 1) fun m => (bounded m).trans (by omega)
    · push Not at another
      exact ⟨n, another⟩

/-- Within a budget, and with finitely many internal errors, the pattern settles. -/
theorem settles {pattern : Nat → Outcome} {room : Int} (budget : ∀ n, errors pattern n ≤ room)
    (finite : ∃ start, ∀ k, start ≤ k → pattern k ≠ .panics .internal) :
    ∃ bound, ∀ k, bound ≤ k → pattern k = .returns := by
  obtain ⟨start, quiet⟩ := finite
  have bounded : ∀ m, errors pattern m ≤ errors pattern 0 + room.toNat := by
    intro m
    have counted := budget m
    omega
  obtain ⟨later, uncounted⟩ := errors_end room.toNat 0 bounded
  refine ⟨max start later, fun k late => ?_⟩
  cases drawn : pattern k with
  | returns => rfl
  | panics v =>
    cases v with
    | internal => exact absurd drawn (quiet k (le_of_max_le_left late))
    | error => exact absurd drawn (uncounted k (le_of_max_le_right late))

namespace Thread

/-- For every batch without pills and every pattern of panics, on its messages
and on Initialized and Started, that raises finitely many internal errors and
stays within the budget, `Invoke` returns with every message of the batch
delivered once and in order and nothing left to retry. -/
theorem invoke_delivers_batch (a : Actor M W) (batch : List (Envelope M)) (pattern : Nat → Outcome)
    (plain : ∀ e ∈ batch, e.isPill = false) (empty : a.mbuffer = [])
    (budget : ∀ n, errors pattern n ≤ a.opts.maxRestarts.toInt - a.restarts.toInt)
    (finite : ∃ start, ∀ k, start ≤ k → pattern k ≠ .panics .internal) :
    ∃ n, ((next unlessStopped pattern)^[n] (invoke a batch)).routine = ⟨.worker, 0, .loop .load⟩ ∧
      ((next unlessStopped pattern)^[n] (invoke a batch)).actor.told =
        a.told ++ batch.filterMap Envelope.message ∧
      ((next unlessStopped pattern)^[n] (invoke a batch)).actor.mbuffer = [] := by
  obtain ⟨bound, settled⟩ := settles budget finite
  obtain ⟨n, ends, delivering⟩ := Iteration.eventually (Delivering a pattern batch [])
    (Through []) (weight pattern bound)
    (fun t => delivering_next unlessStopped_polite (fun _ _ _ => settled t.clock) budget plain (by simp))
    (invoke_delivering batch [] empty (within_budget budget))
  rw [List.append_nil] at ends delivering
  refine ⟨n, ?_⟩
  generalize (next unlessStopped pattern)^[n] (invoke a batch) = t at ends delivering
  obtain ⟨b, ⟨base, replays, act⟩, clock⟩ := t
  rcases ends with ⟨rfl, -⟩ | ⟨f, -, -, absurd⟩
  · obtain ⟨rfl, drained, rfl⟩ := delivering.underway
    exact ⟨rfl, by simpa [rest, Act.rest] using delivering.delivers, drained⟩
  · cases absurd rfl

/-- The first message crashes its instance and Initialized the next one, the
latter with an internal error. -/
def crashTwice (k : Nat) : Outcome :=
  if k = 0 then .panics .error else if k = 1 then .panics .internal else .returns

theorem invoke_delivers_batch_crashing_twice :
    ∃ t : Thread Nat Nat, t.routine = ⟨.worker, 0, .loop .load⟩ ∧
      t.actor.told = [(1, none), (2, none)] ∧ t.actor.mbuffer = [] := by
  have quiet : ∀ k, 2 ≤ k → crashTwice k = .returns := by
    intro k late
    simp [crashTwice, show k ≠ 0 by omega, show k ≠ 1 by omega]
  have counted : ∀ n, errors crashTwice n ≤ 1 :=
    errors_settled 2 fun k late => by simp [quiet k late]
  obtain ⟨n, returned, received, drained⟩ := invoke_delivers_batch
    (.new ⟨3, 1, []⟩ Nat.one_pos false : Actor Nat Nat) [⟨.user 1, none⟩, ⟨.user 2, none⟩] crashTwice
    (by decide) rfl
    (fun n => le_trans (Int.ofNat_le.mpr (counted n)) (by decide))
    ⟨2, fun k late => by simp [quiet k late]⟩
  exact ⟨_, returned, received, drained⟩

end Thread

/-- Places of a call that keeps restarting on internal errors. -/
def Act.redials : Act M → Bool
  | .receiving (.message _) | .recoverInvoke _ .internal | .receiving (.crashedInvoke _ .internal)
  | .tryRestart .internal | .start | .receiving .initialized | .recoverStart .internal
  | .receiving (.crashedStart .internal) => true
  | _ => false

namespace Thread

theorem next_redials {t : Thread M W} (redials : t.routine.act.redials = true) :
    (t.next unlessStopped fun _ => .panics .internal).routine.act.redials = true := by
  obtain ⟨a, ⟨base, n, act⟩, clock⟩ := t
  cases act with
  | receiving site =>
    cases site with
    | initialized | message f => rfl
    | crashedStart v | crashedInvoke f v =>
      cases v with
      | internal => rfl
      | error => cases redials
    | _ => cases redials
  | recoverStart v | recoverInvoke f v | tryRestart v =>
    cases v with
    | internal => rfl
    | error => cases redials
  | start => rfl
  | _ => cases redials

theorem redials_returned {t : Thread M W} (redials : t.routine.act.redials = true) :
    t.returned = false := by
  obtain ⟨a, ⟨base, n, act⟩, clock⟩ := t
  cases act with
  | loop pc | returned => cases redials
  | _ => rfl

/-- A message and every Initialized fail with an internal error. -/
def unreachable : Thread Nat Nat := invoke (.new ⟨3, 1, []⟩ Nat.one_pos false) [⟨.user 1, none⟩]

/-- The failing instances are restarted without end, within the budget. -/
theorem internal_errors_never_return :
    (∀ n, errors (fun _ => .panics .internal) n ≤
      unreachable.actor.opts.maxRestarts.toInt - unreachable.actor.restarts.toInt) ∧
    ∀ n, ((next unlessStopped fun _ => .panics .internal)^[n] unreachable).returned = false := by
  constructor
  · intro n
    have none : errors (fun _ => .panics .internal) n ≤ 0 := errors_settled 0 (by simp) n
    exact le_trans (Int.ofNat_le.mpr none) (by decide)
  · intro n
    cases n with
    | zero => rfl
    | succ n =>
      have first : (next unlessStopped (fun _ => .panics .internal) unreachable).routine.act.redials
          = true := rfl
      rw [Function.iterate_succ_apply]
      exact redials_returned (Iteration.invariant
        (fun t : Thread Nat Nat => t.routine.act.redials = true) (fun _ => next_redials) n first)

end Thread
end Hollywood
