import Hollywood.Engine.Exclusion

/-! The lifecycle grammar. Each receiver instance sees Initialized, Started, user
messages and one last Stopped, a panic cutting the sequence short before it. It
holds in every run that stays within the restart budget and meets no pill in a
retry buffer: beyond the budget `cleanup` repeats the Stopped that the recovery
has sent, and a replayed pill leaves a worker behind that delivers after Stopped. -/
namespace Hollywood
open Transition
variable {M W : Type}

/-- An instance that is still in use. -/
def Open (seen : List (Received M)) : Prop :=
  seen = [.initialized] ∨ ∃ users : List M, seen = .initialized :: .started :: users.map .user

def Live (seen : List (Received M)) : Prop :=
  ∃ users : List M, seen = .initialized :: .started :: users.map .user

/-- An instance that has been stopped. -/
def Complete (seen : List (Received M)) : Prop :=
  ∃ before, Open before ∧ seen = before ++ [.stopped]

theorem Live.open {seen : List (Received M)} (live : Live seen) : Open seen := .inr live

theorem Live.user {seen : List (Received M)} (live : Live seen) (msg : M) :
    Live (seen ++ [.user msg]) := by
  obtain ⟨users, rfl⟩ := live
  exact ⟨users ++ [msg], by simp⟩

theorem Open.complete {seen : List (Received M)} (opened : Open seen) :
    Complete (seen ++ [.stopped]) := ⟨seen, opened, rfl⟩

/-- How far the current instance has come. -/
inductive Chapter where
  | unborn
  | initialized
  | started
  | failed
  | live
  | crashed
  | closed
  | unclaimed
  deriving DecidableEq, Repr

def Act.chapter : Act M → Chapter
  | .start => .unborn
  | .receiving .initialized => .initialized
  | .receiving .started => .started
  | .recoverStart _ => .failed
  | .receiving (.crashedStart _) | .receiving (.crashedInvoke _ _) | .tryRestart _
  | .countRestart | .announceRestart => .crashed
  | .receiving (.cleanup _) | .cancel _ => .closed
  | .loop .popN | .loop (.invoke _) => .live
  | .loop _ | .inboxStart (.schedule _) | .returned | .panicked _ => .unclaimed
  | _ => .live

namespace Actor
variable [Inhabited M]

/-- The messages that the `k`-th instance has received. -/
def seen (a : Actor M W) (k : Nat) : List (Received M) :=
  (a.log.filter (·.receiver = k)).map (·.message)

/-- What the current instance has seen, chapter by chapter. Without a goroutine
in charge, and at the two ends of the mailbox loop, the status of the inbox
tells whether the actor is still running. -/
def Tells (a : Actor M W) : Chapter → Prop
  | .unborn => (a.receiver = 0 ∨ Complete (a.seen a.receiver)) ∧ ¬ a.finished
  | .initialized => a.seen a.receiver = [.initialized] ∧ ¬ a.finished
  | .started => a.seen a.receiver = [.initialized, .started] ∧ ¬ a.finished
  | .failed => Open (a.seen a.receiver) ∧ ¬ a.finished
  | .live => Live (a.seen a.receiver) ∧ ¬ a.finished
  | .crashed => Complete (a.seen a.receiver) ∧ ¬ a.finished
  | .closed => Complete (a.seen a.receiver)
  | .unclaimed =>
    if a.inbox.procStatus = .stopped then Complete (a.seen a.receiver)
    else Live (a.seen a.receiver) ∧ ¬ a.finished

/-- The instances before the current one are complete, those after it unborn. -/
structure Archived (a : Actor M W) : Prop where
  none : a.seen 0 = []
  earlier : ∀ k, 0 < k → k < a.receiver → Complete (a.seen k)
  later : ∀ k, a.receiver < k → a.seen k = []

structure Told (a : Actor M W) (chapter : Chapter) : Prop where
  archived : a.Archived
  tells : a.Tells chapter

theorem seen_deliver (a : Actor M W) (message : Received M) (chain : List W) (k : Nat) :
    (a.deliver message chain).seen k =
      if a.receiver = k then a.seen k ++ [message] else a.seen k := by
  by_cases same : a.receiver = k <;> simp [seen, deliver, List.filter_append, same]

theorem Archived.deliver {a : Actor M W} (archived : a.Archived) (born : 0 < a.receiver)
    (message : Received M) (chain : List W) : (a.deliver message chain).Archived where
  none := by rw [seen_deliver, if_neg (by omega), archived.none]
  earlier k positive bound := by
    have bound : k < a.receiver := bound
    rw [seen_deliver, if_neg (by omega)]
    exact archived.earlier k positive bound
  later k bound := by
    have bound : a.receiver < k := bound
    rw [seen_deliver, if_neg (by omega), archived.later k bound]

theorem Archived.born {a : Actor M W} (archived : a.Archived) (opened : Open (a.seen a.receiver)) :
    0 < a.receiver := by
  by_contra unborn
  obtain zero : a.receiver = 0 := by omega
  rw [zero, archived.none] at opened
  rcases opened with absurd | ⟨users, absurd⟩ <;> cases absurd

/-- Nothing that happens outside the receiver changes the story. -/
theorem Told.same {a b : Actor M W} (told : a.Told chapter) (log : b.log = a.log)
    (receiver : b.receiver = a.receiver) (finished : b.finished ↔ a.finished)
    (status : chapter = .unclaimed → b.inbox.procStatus = a.inbox.procStatus) :
    b.Told chapter := by
  have seen : b.seen = a.seen := by
    funext k
    rw [Actor.seen, log, Actor.seen]
  obtain ⟨⟨none, earlier, later⟩, tells⟩ := told
  refine ⟨⟨by rw [seen]; exact none, by rw [seen, receiver]; exact earlier,
    by rw [seen, receiver]; exact later⟩, ?_⟩
  cases chapter with
  | unclaimed =>
    simp only [Tells, seen, receiver, finished, status rfl] at tells ⊢
    exact tells
  | _ =>
    simp only [Tells, seen, receiver, finished] at tells ⊢
    exact tells

/-- A delivery to an instance in use extends what it has seen. -/
theorem Told.deliver {a : Actor M W} (archived : a.Archived) (opened : Open (a.seen a.receiver))
    (message : Received M) (chain : List W)
    (tells : (a.deliver message chain).seen a.receiver = a.seen a.receiver ++ [message] →
      (a.deliver message chain).Tells chapter) : (a.deliver message chain).Told chapter :=
  ⟨archived.deliver (archived.born opened) message chain,
    tells (by rw [seen_deliver, if_pos rfl])⟩

theorem Told.stopped {a : Actor M W} (archived : a.Archived) (opened : Open (a.seen a.receiver))
    (running : ¬ a.finished) (chain : List W) : (a.deliver .stopped chain).Told .crashed :=
  .deliver archived opened .stopped chain fun seen => by
    change Complete ((a.deliver .stopped chain).seen a.receiver) ∧ ¬ a.finished
    rw [seen]
    exact ⟨opened.complete, running⟩

theorem Told.user {a : Actor M W} (told : a.Told .live) (msg : M) (sender : Option PID) :
    (a.invokeMsg msg sender).Told .live := by
  obtain ⟨archived, live, running⟩ := told.same (b := { a with sender := sender }) rfl rfl Iff.rfl (by rintro ⟨⟩)
  refine .deliver archived live.open (.user msg) _ fun seen => ?_
  change Live ((Actor.deliver { a with sender := sender } (.user msg) _).seen a.receiver) ∧ ¬ a.finished
  rw [seen]
  exact ⟨live.user msg, running⟩

theorem Told.start {a : Actor M W} (told : a.Told .unborn) (chain : List W) :
    ({ a with receiver := a.receiver + 1 }.deliver .initialized chain).Told .initialized := by
  obtain ⟨archived, born, running⟩ := told
  have opened : Actor.Archived { a with receiver := a.receiver + 1 } := {
    none := archived.none
    earlier := by
      intro k positive bound
      change k < a.receiver + 1 at bound
      rcases Nat.lt_succ_iff_lt_or_eq.mp bound with earlier | rfl
      · exact archived.earlier k positive earlier
      · exact born.resolve_left (by omega)
    later := fun k bound => archived.later k (by change a.receiver + 1 < k at bound; omega) }
  refine ⟨opened.deliver (Nat.succ_pos _) _ _, ?_, running⟩
  change Actor.seen (Actor.deliver { a with receiver := a.receiver + 1 } .initialized chain)
    (a.receiver + 1) = _
  rw [seen_deliver, if_pos rfl]
  exact congrArg (· ++ [_]) (archived.later _ (Nat.lt_succ_self _))

theorem Told.unclaimed {a : Actor M W} (told : a.Told .live) (running : a.inbox.procStatus ≠ .stopped) :
    a.Told .unclaimed :=
  ⟨told.archived, by simpa [Tells, running] using told.tells⟩

theorem Told.retired {a : Actor M W} (told : a.Told .closed) (stopped : a.inbox.procStatus = .stopped) :
    a.Told .unclaimed :=
  ⟨told.archived, by simpa [Tells, stopped] using told.tells⟩

theorem Told.ret {a : Actor M W} {r : Routine M} (told : a.Told .live)
    (running : a.inbox.procStatus ≠ .stopped) : a.Told r.ret.act.chapter := by
  obtain ⟨base, replays, act⟩ := r
  cases replays with
  | succ n => exact told
  | zero => cases base <;> exact told.unclaimed running

theorem Move.told {a : Actor M W} {r : Routine M} (sound : r.Sound a)
    (holder : r.act.stage.holds = true) (told : a.Told r.act.chapter)
    (move : Move a r b next spawned) : b.Told next.act.chapter := by
  obtain ⟨base, replays, act⟩ := r
  have placed := sound.placed
  cases move with
  | restartInternal position =>
    subst position
    exact ⟨told.archived, .inr told.tells.1, told.tells.2⟩
  | announceRestart position =>
    subst position
    refine .same ⟨told.archived, .inr told.tells.1, told.tells.2⟩ rfl rfl ?_ (by rintro ⟨⟩)
    simp [finished, broadcast]
  | restartLimit position limit =>
    subst position
    exact absurd limit (sound.spared rfl)
  | fillPanics position more => exact absurd more (sound.room position)
  | start position =>
    subst position
    exact told.start _
  | recoverStart position =>
    subst position
    exact .stopped told.archived told.tells.1 told.tells.2 _
  | recoverInvoke position =>
    subst position
    exact .stopped told.archived told.tells.1.open told.tells.2 _
  | stopping position =>
    subst position
    have crashed := Told.stopped told.archived told.tells.1.open told.tells.2
      (applyMiddleware [] a.opts.middleware)
    exact ⟨crashed.archived, crashed.tells.1⟩
  | invokeUser position _ | flushUser position =>
    subst position
    exact told.user _ _
  | invokeEnd position _ =>
    subst position
    have running := placed.running (.inl rfl)
    exact told.ret (by simp [running])
  | cancelPill position =>
    subst position
    obtain ⟨stopped, rfl, rfl⟩ := placed.retired_elim
    exact .same (told.retired stopped) rfl rfl Iff.rfl fun _ => rfl
  | cancelNil position => exact absurd position sound.not_limit
  | looped position move notDone silent =>
    subst position
    cases move with
    | enter running =>
      have tells := told.tells
      simp only [Act.chapter, Tells, running, if_false] at tells
      exact .same ⟨told.archived, tells⟩ rfl rfl Iff.rfl (by rintro ⟨⟩)
    | leave => exact told.same rfl rfl Iff.rfl fun _ => rfl
    | batch => exact told.same rfl rfl Iff.rfl (by rintro ⟨⟩)
    | empty =>
      have running := placed.running (.inr (.inl rfl))
      exact .same (told.unclaimed (by simp [running])) rfl rfl Iff.rfl fun _ => rfl
    | released running =>
      have tells := told.tells
      simp only [Act.chapter, Tells, running, reduceCtorEq, if_false] at tells
      have live : a.Told .live := ⟨told.archived, tells⟩
      exact .unclaimed (.same live rfl rfl Iff.rfl (by rintro ⟨⟩)) (by rintro ⟨⟩)
    | won | lost | abandoned | finished => exact absurd rfl notDone
    | invoke => cases silent
    | _ =>
      cases holder
  | left position move done =>
    subst position
    cases move with
    | abandoned => exact told.same rfl rfl Iff.rfl fun _ => rfl
    | enter | leave | batch | empty | released | again | invoke => cases done
    | _ =>
      cases holder
  | inboxStarting position move notDone =>
    subst position
    cases move with
    | start => exact told.same rfl rfl Iff.rfl (by rintro ⟨⟩)
    | started => exact .unclaimed (.same told rfl rfl Iff.rfl (by rintro ⟨⟩)) (by rintro ⟨⟩)
    | refused => exact absurd rfl notDone
    | _ => cases holder
  | inboxStarted position move done =>
    subst position
    cases move with
    | refused running => exact .ret (.same told rfl rfl Iff.rfl (by rintro ⟨⟩)) running
    | start | started => cases done
    | _ => cases holder
  | _ position =>
    subst position
    exact told.same rfl rfl Iff.rfl (by rintro ⟨⟩)

theorem resume_told {a : Actor M W} {r : Routine M} (told : a.Told r.act.chapter)
    (position : r.act = .receiving site) (endured : a.endures site outcome = true) :
    (a.resume r site outcome).1.Told (a.resume r site outcome).2.act.chapter := by
  obtain ⟨base, replays, act⟩ := r
  subst position
  cases outcome with
  | returns =>
    cases site with
    | message f | flush f rest ctx | crashedStart v | crashedInvoke f v =>
      exact told.same rfl rfl Iff.rfl (by rintro ⟨⟩)
    | initialized =>
      obtain ⟨archived, begun, running⟩ : (a.broadcast .actorInitialized).Told .initialized :=
        told.same rfl rfl (by simp [finished, broadcast]) (by rintro ⟨⟩)
      refine .deliver archived (.inl begun) .started _ fun seen => ⟨?_, running⟩
      rw [begun] at seen
      exact seen
    | started =>
      obtain ⟨archived, begun, running⟩ : (a.broadcast .actorStarted).Told .started :=
        told.same rfl rfl (by simp [finished, broadcast]) (by rintro ⟨⟩)
      have live : (a.broadcast .actorStarted).Told .live := ⟨archived, ⟨[], begun⟩, running⟩
      by_cases buffered : 0 < a.mbuffer.length <;> simp only [resume, gt_iff_lt, buffered] <;>
        exact live
    | cleanup reason =>
      obtain ⟨⟨none, earlier, later⟩, complete⟩ := told
      exact ⟨⟨none, earlier, later⟩, complete⟩
  | panics v =>
    cases site with
    | initialized => exact ⟨told.archived, .inl told.tells.1, told.tells.2⟩
    | started => exact ⟨told.archived, .inr ⟨[], told.tells.1⟩, told.tells.2⟩
    | message f | flush f rest ctx => exact told
    | crashedStart v | crashedInvoke f v | cleanup reason => simp [endures, Site.stops] at endured

end Actor

namespace Engine
variable [Inhabited M] {i : Nat}

def Story (a : Actor M W) : Goroutine M → Prop
  | .caller _ _ => True
  | .proc r => a.Told r.act.chapter

theorem told_aside {a b : Actor M W} (aside : a.Aside b []) (told : a.Told chapter) :
    b.Told chapter := by
  have same := aside.same
  exact told.same (by rw [same]) (by rw [same]) aside.finished fun _ => aside.still

/-- A goroutine without the right to the mailbox leaves the story as it is when
nobody has that right. -/
theorem idle_chapter {a : Actor M W} {r : Routine M} (sound : r.Sound a)
    (idle : r.act.stage.holds = false) : r.act.chapter = .unclaimed := by
  obtain ⟨base, replays, act⟩ := r
  have placed := sound.placed
  cases act with
  | loop pc =>
    cases pc with
    | popN | invoke msgs => cases idle
    | _ => rfl
  | inboxStart pc =>
    cases pc with
    | schedule caller => rfl
    | start | starting => cases idle
    | _ => exact absurd placed Routine.Placed.not_astray
  | receiving site =>
    cases site with
    | cleanup reason =>
      cases reason with
      | pill f ctx => cases idle
      | limit => exact absurd placed Routine.Placed.not_astray
    | _ => cases idle
  | returned | panicked v => rfl
  | cleanup reason | childrenLen reason | makeChildren reason | fillChildren reason size
  | poison reason rest | stopInbox reason | unregister reason | stopping reason | cancel reason =>
    cases reason with
    | pill f ctx => cases idle
    | limit => exact absurd placed Routine.Placed.not_astray
  | _ => cases idle

theorem advance_told {a : Actor M W} {r : Routine M} (sound : r.Sound a)
    (holder : r.act.stage.holds = true) (told : a.Told r.act.chapter)
    (permitted : a.permits (.proc r) action = true)
    (advance : a.Advance (.proc r) action b (.proc next) spawned) : b.Told next.act.chapter := by
  cases advance with
  | moved move => exact move.told sound holder told
  | @resumed r outcome site position =>
    obtain ⟨base, replays, act⟩ := r
    subst position
    exact Actor.resume_told told rfl permitted
  | spawnedChild position => exact told.same rfl rfl Iff.rfl fun _ => rfl

theorem lifecycle_account :
    Account Actor.permits (Story (M := M) (W := W)) (fun a => a.Told .unclaimed) where
  permitted _ _ admitted := admitted
  kept {a b g action next} inside holder story permitted advance := by
    cases g with
    | caller => cases holder
    | proc r =>
      cases next with
      | caller => cases advance
      | proc next =>
        have told := advance_told inside holder story permitted advance
        split
        · exact told
        · rename_i idle
          have sound := advance.inside inside permitted (.proc next) (by simp)
          rwa [idle_chapter sound (Bool.not_eq_true _ ▸ idle)] at told
  aside {a b g} aside story := by
    cases g with
    | caller => trivial
    | proc r => exact told_aside aside story
  resting := told_aside
  taken {a b} aside told := by
    have same := aside.same
    obtain ⟨idle, running⟩ := aside.woken
    obtain ⟨archived, tells⟩ := told
    simp only [Actor.Tells, idle, reduceCtorEq, if_false] at tells
    have live : a.Told .live := ⟨archived, tells⟩
    refine .unclaimed (live.same (by rw [same]) (by rw [same]) (aside.finished) (by rintro ⟨⟩)) ?_
    simp [running]
  orphaned {a g} child story := by
    cases g with
    | caller => trivial
    | proc r => exact Actor.Told.same story rfl rfl Iff.rfl fun _ => rfl
  settled child told := told.same rfl rfl Iff.rfl fun _ => rfl

theorem told_of_ordered {s : State M W}
    (ordered : Ordered Story (fun a => a.Told .unclaimed) s) : ∃ chapter, s.actor.Told chapter := by
  rcases ordered.somebody with ⟨g, -, holder, -, story⟩ | told
  · cases g with
    | caller => cases holder
    | proc r => exact ⟨_, story holder⟩
  · exact ⟨_, told⟩

theorem told_grammar {a : Actor M W} (told : a.Told chapter) (born : 0 < a.receiver) :
    Complete (a.seen a.receiver) ∨ Open (a.seen a.receiver) ∧ ¬ a.finished := by
  obtain ⟨-, tells⟩ := told
  cases chapter with
  | unborn => exact .inl (tells.1.resolve_left (by omega))
  | initialized => exact .inr ⟨.inl tells.1, tells.2⟩
  | started => exact .inr ⟨.inr ⟨[], tells.1⟩, tells.2⟩
  | failed => exact .inr tells
  | live => exact .inr ⟨tells.1.open, tells.2⟩
  | crashed => exact .inl tells.1
  | closed => exact .inl tells
  | unclaimed =>
    by_cases stopped : a.inbox.procStatus = .stopped
    · simp only [Actor.Tells, stopped, if_true] at tells
      exact .inl tells
    · simp only [Actor.Tells, stopped, if_false] at tells
      exact .inr ⟨tells.1.open, tells.2⟩

/-- In every run within the restart budget that meets no pill in a retry buffer,
every instance but the current one has seen Initialized, Started, user messages
and one last Stopped, a panic cutting the sequence short; the current one has
seen a beginning of such a sequence, and all of it once the actor has stopped. -/
theorem lifecycle_grammar (opts : Opts W) (positive : 0 < opts.inboxSize) (parent : Bool)
    (s : State M W)
    (reached : Reaches (restrict disciplined State.step) (initial opts positive parent) s) :
    (∀ k, 0 < k → k < s.actor.receiver → Complete (s.actor.seen k)) ∧
    (0 < s.actor.receiver → Complete (s.actor.seen s.actor.receiver) ∨
      Open (s.actor.seen s.actor.receiver) ∧ .actorStopped ∉ s.actor.events) ∧
    (∀ k, k = 0 ∨ s.actor.receiver < k → s.actor.seen k = []) := by
  have unborn : (Actor.new opts positive parent : Actor M W).Told .unborn :=
    ⟨⟨rfl, fun k _ bound => absurd bound (Nat.not_lt_zero k), fun _ _ => rfl⟩, .inl rfl, (by rintro ⟨⟩)⟩
  have ordered := reached.invariant (Ordered.step lifecycle_account disciplined_permits)
    (ordered_initial opts positive parent unborn)
  obtain ⟨chapter, told⟩ := told_of_ordered ordered
  refine ⟨told.archived.earlier, told_grammar told, ?_⟩
  rintro k (rfl | later)
  · exact told.archived.none
  · exact told.archived.later k later

theorem lifecycle_grammar_restarted :
    ∃ s : State Nat Nat, s.actor.receiver = 2 ∧ Complete (s.actor.seen 1) := by
  obtain ⟨s, reached, ends⟩ := exists_of_run
    (restrict disciplined State.step) (initial ⟨3, 1, []⟩ Nat.one_pos false)
    (pillBehindPanic.take 28) (fun s : State Nat Nat => s.actor.receiver = 2) (by decide)
  have current := of_decide_eq_true ends
  have grammar := lifecycle_grammar ⟨3, 1, []⟩ Nat.one_pos false s reached
  exact ⟨s, current, grammar.1 1 Nat.one_pos (by omega)⟩

/-- Receivers that panic on anything but Stopped. -/
def panicsBeforeStopped (s : State M W) (label : Label M) : Bool :=
  judged (fun _ site outcome => !site.stops || outcome = .returns) s label

/-- With no restart left the recovery and `cleanup` both deliver Stopped. -/
def panicBeyondLimit : List (Label Nat) :=
  [.call (.send 1 none)] ++ steps 1 3 ++ steps 0 1 ++ [returns 0, returns 0] ++ steps 0 3 ++
    steps 2 4 ++ [.act 2 (.receive (.panics .error))] ++ steps 2 1 ++ [returns 2] ++ steps 2 6

/-- The worker that a replayed pill leaves behind delivers a message sent late. -/
def messageAfterReplayedPill : List (Label Nat) :=
  pillBehindPanic.take 28 ++ [.call (.send 2 none)] ++ steps 4 3 ++ pillBehindPanic.drop 28 ++
    steps 5 4

theorem stopped_twice_and_not_last :
    (∃ s : State Nat Nat,
      Reaches (restrict panicsBeforeStopped State.step)
        (initial ⟨0, 1, []⟩ Nat.one_pos false) s ∧
      s.actor.seen 1 = [.initialized, .started, .user 1, .stopped, .stopped]) ∧
    ∃ s : State Nat Nat,
      Reaches (restrict panicsBeforeStopped State.step)
        (initial ⟨3, 1, []⟩ Nat.one_pos false) s ∧
      s.actor.seen 2 = [.initialized, .started, .stopped, .user 2] := by
  constructor
  · obtain ⟨s, reached, ends⟩ := exists_of_run
      (restrict panicsBeforeStopped State.step) (initial ⟨0, 1, []⟩ Nat.one_pos false)
      panicBeyondLimit (fun s : State Nat Nat =>
        s.actor.seen 1 = [.initialized, .started, .user 1, .stopped, .stopped]) (by decide)
    exact ⟨s, reached, of_decide_eq_true ends⟩
  · obtain ⟨s, reached, ends⟩ := exists_of_run
      (restrict panicsBeforeStopped State.step) (initial ⟨3, 1, []⟩ Nat.one_pos false)
      messageAfterReplayedPill (fun s : State Nat Nat =>
        s.actor.seen 2 = [.initialized, .started, .stopped, .user 2]) (by decide)
    exact ⟨s, reached, of_decide_eq_true ends⟩

end Engine
end Hollywood
