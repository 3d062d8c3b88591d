import Hollywood.Engine.Exclusion

/-! Runs without panics. No call of `Start` is ever waiting and the retry buffer
stays empty, so such runs keep to the discipline under which the mailbox has one
owner. -/
namespace Hollywood
variable {M W : Type} [Inhabited M]

def Action.calm : Action → Bool
  | .receive (.panics _) => false
  | _ => true

/-- The places of a process that no panic has reached. -/
def Act.steady : Act M → Bool
  | .replayed | .recoverStart _ | .recoverInvoke _ _ | .tryRestart _ | .countRestart
  | .announceRestart | .panicked _ | .receiving (.crashedStart _)
  | .receiving (.crashedInvoke _ _) => false
  | _ => true

structure Routine.Untroubled (a : Actor M W) (r : Routine M) : Prop where
  alone : r.replays = 0
  empty : a.mbuffer = []
  steady : r.act.steady = true

namespace Actor

theorem ret_untroubled {b : Actor M W} {r : Routine M} (alone : r.replays = 0) (empty : b.mbuffer = []) :
    r.ret.Untroubled b := by
  obtain ⟨base, replays, act⟩ := r
  subst alone
  cases base <;> exact ⟨rfl, empty, rfl⟩

theorem Move.untroubled {a : Actor M W} {r : Routine M} (sound : r.Sound a)
    (untroubled : r.Untroubled a) (move : Move a r b next spawned) : next.Untroubled b := by
  obtain ⟨base, replays, act⟩ := r
  obtain ⟨alone, empty, steady⟩ := untroubled
  cases move with
  | inboxStarted position | invokeEnd position | cancelPill position => exact ret_untroubled alone empty
  | replayed position | recoverStart position | recoverInvoke position | restartInternal position
  | restartLimit position | restart position | countRestart position | announceRestart position =>
    subst position
    cases steady
  | fillPanics position more => exact absurd more (sound.room position)
  | cancelNil position => exact absurd position sound.not_limit
  | _ => exact ⟨alone, empty, rfl⟩

/-- The moves of the goroutine in the process in a run without panics, from place to
place. Beside what `Move` says, the status of the inbox is known where it is needed. -/
inductive Proceeds (a : Actor M W) : Act M → Actor M W → Act M → Prop where
  | invoked : Proceeds a (.loop (.invoke msgs)) a (.invoke (.enter msgs))
  | enter : a.inbox.procStatus ≠ .stopped →
      Proceeds a (.loop .load) (a.record .load ⟨a.inbox, .popN, []⟩) (.loop .popN)
  | leave : Proceeds a (.loop .load) (a.record .load ⟨a.inbox, .toIdle, []⟩) (.loop .toIdle)
  | batch : Proceeds a (.loop .popN)
      (a.record .popN ⟨a.inbox.ring (.popN messageBatchSize),
        .invoke (a.inbox.rb.toList.take messageBatchSize), []⟩)
      (.loop (.invoke (a.inbox.rb.toList.take messageBatchSize)))
  | empty : a.inbox.procStatus = .running → Proceeds a (.loop .popN)
      (a.record .popN ⟨a.inbox.ring (.popN messageBatchSize), .toIdle, []⟩) (.loop .toIdle)
  | released : a.inbox.procStatus = .running → Proceeds a (.loop .toIdle)
      (a.record .toIdle ⟨{ a.inbox with procStatus := .idle }, .recheck, []⟩) (.loop .recheck)
  | abandoned : a.inbox.procStatus = .stopped →
      Proceeds a (.loop .toIdle) (a.record .toIdle ⟨a.inbox, .done, []⟩) .returned
  | start : Proceeds a .start ({ a with receiver := a.receiver + 1 }.deliver .initialized
      (applyMiddleware [] a.opts.middleware)) (.receiving .initialized)
  | claim : Proceeds a (.inboxStart .start)
      (a.record .start ⟨{ a.inbox with procStatus := .starting }, .starting, []⟩) (.inboxStart .starting)
  | started : Proceeds a (.inboxStart .starting)
      (a.record .starting ⟨{ a.inbox with procStatus := .idle }, .schedule .start, []⟩)
      (.inboxStart (.schedule .start))
  | refused : a.inbox.procStatus = .running →
      Proceeds a (.inboxStart .start) (a.record .start ⟨a.inbox, .done, []⟩) (.loop .load)
  | invokeEnd : a.inbox.procStatus = .running → f.msgs[f.i]? = none →
      Proceeds a (.invoke f) a (.loop .load)
  | invokeGraceful : f.msgs[f.i]? = some ⟨.poisonPill ctx true, author⟩ →
      Proceeds a (.invoke f) a
        (.flush { f with nproc := f.nproc + 1 } (f.msgs.drop f.processed) ctx)
  | invokeStop : f.msgs[f.i]? = some ⟨.poisonPill ctx false, author⟩ →
      Proceeds a (.invoke f) a (.cleanup (.pill { f with nproc := f.nproc + 1 } ctx))
  | invokeUser : f.msgs[f.i]? = some ⟨.user msg, author⟩ →
      Proceeds a (.invoke f) (a.invokeMsg msg author)
        (.receiving (.message { f with nproc := f.nproc + 1 }))
  | flushEnd : Proceeds a (.flush f [] ctx) a (.cleanup (.pill f ctx))
  | flushPill : Proceeds a (.flush f (⟨.poisonPill other graceful, author⟩ :: rest) ctx) a
      (.flush f rest ctx)
  | flushUser : Proceeds a (.flush f (⟨.user msg, author⟩ :: rest) ctx) (a.invokeMsg msg author)
      (.receiving (.flush f rest ctx))
  | cleanup : Proceeds a (.cleanup (.pill f ctx)) { a with parent := false } (.childrenLen (.pill f ctx))
  | someChildren : Proceeds a (.childrenLen (.pill f ctx)) a (.makeChildren (.pill f ctx))
  | noChildren : Proceeds a (.childrenLen (.pill f ctx)) a (.stopInbox (.pill f ctx))
  | makeChildren : Proceeds a (.makeChildren (.pill f ctx)) a
      (.fillChildren (.pill f ctx) a.children.length)
  | fillChildren : Proceeds a (.fillChildren (.pill f ctx) size) a (.poison (.pill f ctx)
      (a.children.map some ++ List.replicate (size - a.children.length) none))
  | poisonEnd : Proceeds a (.poison (.pill f ctx) []) a (.stopInbox (.pill f ctx))
  | poison : Proceeds a (.poison (.pill f ctx) (child :: rest))
      { a with poisoned := a.poisoned ++ child.toList } (.poison (.pill f ctx) rest)
  | stopInbox : Proceeds a (.stopInbox (.pill f ctx))
      { a with inbox := { a.inbox with procStatus := .stopped } } (.unregister (.pill f ctx))
  | unregister : Proceeds a (.unregister (.pill f ctx)) { a with registered := false }
      (.stopping (.pill f ctx))
  | stopping : Proceeds a (.stopping (.pill f ctx))
      (a.deliver .stopped (applyMiddleware [] a.opts.middleware)) (.receiving (.cleanup (.pill f ctx)))
  | cancel : a.inbox.procStatus = .stopped → Proceeds a (.cancel (.pill f ctx))
      { a with cancelled := a.cancelled ++ [ctx] } (.loop .load)

omit [Inhabited M] in
/-- With nothing to replay, `Invoke` and a second `Start` return to the loop of `run`. -/
theorem ret_act {r : Routine M} (worker : r.base = .worker) (alone : r.replays = 0) :
    r.ret.act = .loop .load := by
  obtain ⟨base, replays, act⟩ := r
  subst worker alone
  rfl

theorem Move.proceeds {a : Actor M W} {r : Routine M} (sound : r.Sound a) (untroubled : r.Untroubled a)
    (holder : r.act.stage.holds = true) (move : Move a r b next spawned) :
    Proceeds a r.act b next.act := by
  obtain ⟨base, replays, act⟩ := r
  have placed := sound.placed
  have alone := untroubled.alone
  generalize same : a.inbox.procStatus = status at placed
  generalize a.mbuffer = buffer at placed
  cases move with
  | looped position move notDone silent =>
    subst position
    cases move with
    | enter running => exact .enter running
    | leave => exact .leave
    | batch => exact .batch
    | empty =>
      cases placed
      exact .empty same
    | released running => exact .released running
    | again => cases holder
    | won | lost | abandoned | finished => exact absurd rfl notDone
    | invoke => cases silent
    | _ => cases placed
  | left position move done =>
    subst position
    cases move with
    | abandoned notRunning =>
      cases placed with
      | loop => exact absurd same notRunning
      | leave => exact .abandoned same
    | won | lost | finished => cases holder
    | released | enter | leave | batch | empty | invoke | again => cases done
    | _ => cases placed
  | inboxStarting position move notDone =>
    subst position
    cases move with
    | start => exact .claim
    | started => exact .started
    | won | lost | abandoned | finished | refused => exact absurd rfl notDone
    | _ => cases placed
  | inboxStarted position move done =>
    subst position
    cases move with
    | refused running =>
      cases placed with
      | boot => exact absurd same running
      | restart =>
        rw [ret_act rfl alone]
        exact .refused same
    | won | lost => cases holder
    | push | pushFront | enter | leave | batch | empty | invoke | returned | released | again
    | start | started => cases done
    | abandoned | finished | stop | clear => cases placed
  | invokeEnd position ends =>
    subst position
    cases placed
    rw [ret_act rfl alone]
    exact .invokeEnd same ends
  | cancelPill position =>
    subst position
    cases placed
    exact .cancel same
  | replayed position | recoverStart position | recoverInvoke position | restartInternal position
  | restartLimit position | restart position | countRestart position | announceRestart position =>
    subst position
    cases untroubled.steady
  | fillPanics position more => exact absurd more (sound.room position)
  | cancelNil position => exact absurd position sound.not_limit
  | @cleanup reason position | @someChildren reason position | @noChildren reason position
  | @makeChildren reason position | @fillChildren reason _ position
  | @poisonEnd reason position | @poison reason _ _ position | @stopInbox reason position
  | @unregister reason position | @stopping reason position =>
    subst position
    -- the limit of restarts is not reached without a panic
    cases reason with
    | pill f ctx => constructor
    | limit => cases placed
  | invoked position | start position | flushEnd position | flushPill position | flushUser position =>
    subst position
    constructor
  | invokeGraceful position found | invokeStop position found | invokeUser position found =>
    subst position
    constructor
    exact found

theorem resume_untroubled {a : Actor M W} {r : Routine M} (untroubled : r.Untroubled a)
    (position : r.act = .receiving site) :
    (a.resume r site .returns).2.Untroubled (a.resume r site .returns).1 := by
  obtain ⟨base, replays, act⟩ := r
  obtain ⟨alone, empty, steady⟩ := untroubled
  subst position
  cases site with
  | started =>
    simp only [resume, empty, List.length_nil, gt_iff_lt, lt_self_iff_false, if_false]
    exact ⟨alone, empty, rfl⟩
  | crashedInvoke f v | crashedStart v => cases steady
  | _ => exact ⟨alone, empty, rfl⟩

end Actor

namespace Engine

/-- Runs in which the receiver always returns. -/
def calm (_ : State M W) : Label M → Bool
  | .act _ action => action.calm
  | _ => true

def Untroubled (a : Actor M W) : Goroutine M → Prop
  | .caller _ _ => True
  | .proc r => r.Untroubled a

/-- Knowledge that can rely on what another account knows. -/
theorem Account.extend {admits : Actor M W → Goroutine M → Action → Bool}
    {knows also : Actor M W → Goroutine M → Prop} {rest settles : Actor M W → Prop}
    (account : Account admits knows rest)
    (kept : ∀ {a b g action next}, a.Inside g → g.holds = true → knows a g → also a g →
      admits a g action = true → a.Advance g action b next [] →
      if next.holds then also b next else settles b)
    (aside : ∀ {a b g}, a.Aside b [] → also a g → also b g)
    (resting : ∀ {a b}, a.Aside b [] → settles a → settles b)
    (taken : ∀ {a b}, a.Aside b [Actor.worker .load] → settles a →
      also b (.proc (Actor.worker .load)))
    (orphaned : ∀ {a g} child, also a g → also (a.deleteChild child) g)
    (settled : ∀ {a} child, settles a → settles (a.deleteChild child)) :
    Account admits (fun a g => knows a g ∧ also a g) (fun a => rest a ∧ settles a) where
  permitted inside known admitted := account.permitted inside (fun holder => (known holder).1) admitted
  kept inside holder known admitted advance := by
    have first := account.kept inside holder known.1 admitted advance
    have second := kept inside holder known.1 known.2 admitted advance
    split
    · simp only [*, if_true] at first second
      exact ⟨first, second⟩
    · simp only [*] at first second
      exact ⟨first, second⟩
  aside moved known := ⟨account.aside moved known.1, aside moved known.2⟩
  resting moved idle := ⟨account.resting moved idle.1, resting moved idle.2⟩
  taken moved idle := ⟨account.taken moved idle.1, taken moved idle.2⟩
  orphaned child known := ⟨account.orphaned child known.1, orphaned child known.2⟩
  settled child idle := ⟨account.settled child idle.1, settled child idle.2⟩

/-- Without panics a pill is met by an outermost `Invoke` only. -/
theorem calm_permits {a : Actor M W} {g : Goroutine M} (known : g.holds = true → Untroubled a g)
    (calm : action.calm = true) : a.permits g action = true := by
  cases g with
  | caller request pc => cases action <;> rfl
  | proc r =>
    obtain ⟨base, replays, act⟩ := r
    cases action with
    | step =>
      cases act with
      | invoke f =>
        obtain rfl : replays = 0 := (known rfl).alone
        simp [Actor.permits]
      | _ => rfl
    | spawnChild child => rfl
    | receive outcome =>
      cases outcome with
      | returns => cases act <;> rfl
      | panics v => cases calm

theorem advance_untroubled {a : Actor M W} {g : Goroutine M} (inside : a.Inside g)
    (holder : g.holds = true) (known : Untroubled a g) (calm : action.calm = true)
    (advance : a.Advance g action b next spawned) :
    if next.holds then Untroubled b next else b.mbuffer = [] := by
  have moved : ∀ r : Routine M, r.Untroubled b →
      if (Goroutine.proc r).holds then Untroubled b (.proc r) else b.mbuffer = [] := by
    intro r untroubled
    split
    · exact untroubled
    · exact untroubled.empty
  cases advance with
  | accepted | rejected | found | missing | mailed | returned => cases holder
  | moved move => exact moved _ (move.untroubled inside known)
  | @resumed r outcome site position =>
    cases outcome with
    | returns => exact moved _ (Actor.resume_untroubled known position)
    | panics v => cases calm
  | spawnedChild position => exact moved _ ⟨known.alone, known.empty, known.steady⟩

theorem calm_account :
    Account (fun (_ : Actor M W) _ action => action.calm) Untroubled (·.mbuffer = []) where
  permitted _ known admitted := calm_permits known admitted
  kept := advance_untroubled
  aside {a b g} aside known := by
    cases g with
    | caller => trivial
    | proc r => exact ⟨known.alone, by rw [aside.same]; exact known.empty, known.steady⟩
  resting {a b} aside empty := by
    rw [aside.same]
    exact empty
  taken {a b} aside empty := ⟨rfl, by rw [aside.same]; exact empty, rfl⟩
  orphaned {a g} child known := by
    cases g with
    | caller => trivial
    | proc r => exact ⟨known.alone, known.empty, known.steady⟩
  settled _ empty := empty

end Engine
end Hollywood
