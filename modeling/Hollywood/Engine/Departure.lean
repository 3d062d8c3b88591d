import Hollywood.Engine.Calm

/-! How an actor leaves its engine, in runs without panics. `cleanup` first deletes
it from the children map of its parent, then sees to its own children, leaves the
registry, delivers `Stopped` and at last cancels the context of the pill. -/
namespace Hollywood
open Transition
variable {M W : Type} [Inhabited M]

def Received.isStopped : Received M → Bool
  | .stopped => true
  | _ => false

namespace Actor

/-- Out of the registry, with `Stopped` as the last message delivered. -/
def departed (a : Actor M W) : Bool :=
  !a.registered && a.log.getLast?.any (·.message.isStopped)

def Present (a : Actor M W) : Prop := a.registered = true ∧ a.cancelled = []

/-- What the status of the inbox tells once nobody is in the process. -/
def Away (a : Actor M W) : Prop :=
  if a.inbox.procStatus = .stopped then a.departed = true ∧ a.parent = false else a.Present

/-- How far `cleanup` has come, place by place. -/
def Leaving (a : Actor M W) : Act M → Prop
  | .childrenLen _ | .makeChildren _ | .fillChildren _ _ | .poison _ _ | .stopInbox _
  | .unregister _ => a.Present ∧ a.parent = false
  | .stopping _ => a.registered = false ∧ a.parent = false ∧ a.cancelled = []
  | .receiving (.cleanup _) | .cancel _ => a.departed = true ∧ a.parent = false ∧ a.cancelled = []
  | .loop .load | .loop .toIdle => a.Away
  | _ => a.Present

theorem away_running {a : Actor M W} (running : a.inbox.procStatus ≠ .stopped) :
    a.Away ↔ a.Present := by
  simp [Away, running]

theorem departed_registered {a : Actor M W} (gone : a.departed = true) : a.registered = false := by
  rw [departed, Bool.and_eq_true] at gone
  simpa using gone.1

theorem departed_deliver (a : Actor M W) (chain : List W) (unregistered : a.registered = false) :
    (a.deliver .stopped chain).departed = true := by
  simp [departed, deliver, unregistered, Received.isStopped]

theorem Proceeds.leaving {a : Actor M W} {act : Act M} (leaving : a.Leaving act)
    (proceeds : Proceeds a act b next) :
    if next.stage.holds then b.Leaving next else b.Away := by
  cases proceeds with
  | enter running => exact (away_running running).mp leaving
  | empty running => exact (away_running (by simp [record, running])).mpr leaving
  | released running =>
    simp only [Act.stage, Inbox.Pc.loopStage, Stage.holds, Bool.false_eq_true, if_false]
    have present : a.Present := (away_running (by simp [running])).mp leaving
    exact (away_running (by simp [record])).mpr present
  | started =>
    simp only [Act.stage, Inbox.Pc.startStage, Stage.holds, Bool.false_eq_true, if_false]
    exact (away_running (by simp [record])).mpr leaving
  | refused running | invokeEnd running => exact (away_running (by simp [record, running])).mpr leaving
  | cancel stopped =>
    obtain ⟨gone, deleted, -⟩ := leaving
    simp only [Act.stage, Inbox.Pc.loopStage, Stage.holds, if_true, Leaving, Away, stopped]
    exact ⟨gone, deleted⟩
  | cleanup => exact ⟨leaving, rfl⟩
  | unregister => exact ⟨rfl, leaving.2, leaving.1.2⟩
  | stopping => exact ⟨a.departed_deliver _ leaving.1, leaving.2.1, leaving.2.2⟩
  | _ => exact leaving

theorem resume_leaving {a : Actor M W} {r : Routine M} (sound : r.Sound a) (untroubled : r.Untroubled a)
    (leaving : a.Leaving r.act) (position : r.act = .receiving site) :
    if (a.resume r site .returns).2.act.stage.holds then
      (a.resume r site .returns).1.Leaving (a.resume r site .returns).2.act
    else (a.resume r site .returns).1.Away := by
  obtain ⟨base, replays, act⟩ := r
  subst position
  cases site with
  | started =>
    simp only [resume, untroubled.empty, List.length_nil, gt_iff_lt, lt_self_iff_false, if_false]
    exact leaving
  | initialized | message f | flush f rest ctx => exact leaving
  | crashedInvoke f v | crashedStart v => cases untroubled.steady
  | cleanup reason =>
    cases reason with
    | pill f ctx => exact leaving
    | limit => exact absurd sound.placed Routine.Placed.not_astray

theorem Aside.leaving {a : Actor M W} {act : Act M} (aside : Aside a b []) (leaving : a.Leaving act) :
    b.Leaving act := by
  have present (held : a.Present) : b.Present := by
    rw [aside.same]
    exact held
  have away (held : a.Away) : b.Away := by
    unfold Away at held ⊢
    rw [aside.still]
    split
    · rw [if_pos (by assumption)] at held
      rwa [aside.same]
    · rw [if_neg (by assumption)] at held
      exact present held
  cases act with
  | loop pc =>
    cases pc with
    | load | toIdle => exact away leaving
    | _ => exact present leaving
  | receiving site =>
    cases site with
    | cleanup reason =>
      rw [aside.same]
      exact leaving
    | _ => exact present leaving
  | _ =>
    rw [aside.same]
    exact leaving

/-- Once the actor has departed it stays so. -/
theorem Move.departed {a : Actor M W} {r : Routine M} (untroubled : r.Untroubled a)
    (leaving : a.Leaving r.act) (move : Move a r b next spawned) (gone : a.departed = true) :
    b.departed = true := by
  obtain ⟨base, replays, act⟩ := r
  have unregistered := departed_registered gone
  have absent (present : a.Present) : b.departed = true := by
    rw [present.1] at unregistered
    cases unregistered
  cases move with
  | start position | invokeUser position | flushUser position =>
    subst position
    exact absent leaving
  | replayed position | recoverStart position | recoverInvoke position | restartInternal position
  | restartLimit position | restart position | countRestart position | announceRestart position =>
    subst position
    cases untroubled.steady
  | fillPanics position =>
    subst position
    exact absent leaving.1
  | unregister position =>
    subst position
    exact absent leaving.1
  | stopping => exact a.departed_deliver _ unregistered
  | _ => exact gone

theorem resume_departed {a : Actor M W} {r : Routine M} (untroubled : r.Untroubled a)
    (leaving : a.Leaving r.act) (position : r.act = .receiving site) (gone : a.departed = true) :
    (a.resume r site .returns).1.departed = true := by
  obtain ⟨base, replays, act⟩ := r
  subst position
  cases site with
  | initialized =>
    have present : a.Present := leaving
    exact absurd present.1 (by simp [departed_registered gone])
  | started =>
    simp only [resume]
    split <;> exact gone
  | crashedInvoke f v | crashedStart v => cases untroubled.steady
  | _ => exact gone

end Actor

namespace Engine

def Departing (a : Actor M W) : Goroutine M → Prop
  | .caller _ _ => True
  | .proc r => a.Leaving r.act

theorem advance_departing {a : Actor M W} {g : Goroutine M} (inside : a.Inside g)
    (holder : g.holds = true) (untroubled : Untroubled a g) (departing : Departing a g)
    (calm : action.calm = true) (advance : a.Advance g action b next spawned) :
    if next.holds then Departing b next else b.Away := by
  cases advance with
  | accepted | rejected | found | missing | mailed | returned => cases holder
  | moved move => exact (move.proceeds inside untroubled holder).leaving departing
  | @resumed r outcome site position =>
    cases outcome with
    | panics v => cases calm
    | returns => exact Actor.resume_leaving inside untroubled departing position
  | @spawnedChild r child site position =>
    rw [if_pos holder]
    obtain ⟨base, replays, act⟩ := r
    subst position
    cases site <;> exact departing

theorem departure_account : Account (fun (_ : Actor M W) _ action => action.calm)
    (fun a g => Untroubled a g ∧ Departing a g) (fun a => a.mbuffer = [] ∧ a.Away) := by
  refine calm_account.extend advance_departing ?_ ?_ ?_ ?_ ?_
  · rintro a b (request | r) aside departing
    · trivial
    · exact aside.leaving departing
  · intro a b aside away
    have loading : a.Leaving (.loop .load) := away
    exact aside.leaving loading
  · intro a b aside away
    obtain ⟨idle, running⟩ := aside.woken
    have present : a.Present := (Actor.away_running (by simp [idle])).mp away
    refine (Actor.away_running (by simp [running])).mpr ?_
    rw [aside.same]
    exact present
  · rintro a (request | r) child departing
    · trivial
    · cases position : r.act with
      | receiving site =>
        simp only [Departing, position] at departing ⊢
        cases site <;> exact departing
      | _ =>
        simp only [Departing, position] at departing ⊢
        exact departing
  · exact fun child away => away

/-- What a run without panics can lead to. -/
def Runs (s : State M W) : Prop :=
  ∃ opts positive parent,
    Reaches (restrict calm State.step) (initial opts positive parent) s

def Departure : State M W → Prop :=
  Ordered (fun a g => Untroubled a g ∧ Departing a g) (fun a => a.mbuffer = [] ∧ a.Away)

theorem Departure.step {s t : State M W} (departure : Departure s)
    (stepped : restrict calm State.step s label = some t) : Departure t :=
  Ordered.step departure_account (fun allowed _ => allowed) departure stepped

theorem Runs.departure {s : State M W} (runs : Runs s) : Departure s := by
  obtain ⟨opts, positive, parent, reached⟩ := runs
  refine reached.invariant (P := Departure) Departure.step ?_
  exact ordered_initial _ _ _ ⟨⟨rfl, rfl, rfl⟩, rfl, rfl⟩

end Engine

/-- The places from which `cleanup` does not come back to its children, and those it
has still to wait for. -/
def Act.awaits : Act M → Option (List (Option PID))
  | .poison _ rest => some rest
  | .stopInbox _ | .unregister _ | .stopping _ | .cancel _ | .receiving (.cleanup _) => some []
  | _ => none

namespace Actor

/-- What the flags tell, wherever the holder of the mailbox stands. -/
theorem Leaving.flags {a : Actor M W} {act : Act M} (leaving : a.Leaving act) :
    a.Present ∨ (a.parent = false ∧ (a.departed = true ∨ a.cancelled = [])) := by
  have away (held : a.Away) :
      a.Present ∨ (a.parent = false ∧ (a.departed = true ∨ a.cancelled = [])) := by
    unfold Away at held
    split at held
    · exact .inr ⟨held.2, .inl held.1⟩
    · exact .inl held
  cases act with
  | loop pc =>
    cases pc with
    | load | toIdle => exact away leaving
    | _ => exact .inl leaving
  | receiving site =>
    cases site with
    | cleanup reason => exact .inr ⟨leaving.2.1, .inl leaving.1⟩
    | _ => exact .inl leaving
  | childrenLen | makeChildren | fillChildren | poison | stopInbox | unregister => exact .inl leaving.1
  | stopping => exact .inr ⟨leaving.2.1, .inr leaving.2.2⟩
  | cancel => exact .inr ⟨leaving.2.1, .inl leaving.1⟩
  | _ => exact .inl leaving

end Actor

namespace Engine
variable {i j : Nat}

theorem Departure.flags {s : State M W} (departure : Departure s) :
    s.actor.Present ∨ (s.actor.parent = false ∧ (s.actor.departed = true ∨ s.actor.cancelled = [])) := by
  rcases departure.somebody with ⟨g, -, holder, -, known⟩ | ⟨-, away⟩
  · cases g with
    | caller => cases holder
    | proc r => exact Actor.Leaving.flags (known holder).2
  · have loading : s.actor.Leaving (.loop .load) := away
    exact loading.flags

/-- An actor whose `cleanup` is over has departed. -/
theorem Departure.completed {s : State M W} (departure : Departure s) (done : s.actor.cancelled ≠ []) :
    s.actor.departed = true := by
  rcases departure.flags with present | ⟨-, gone | open_⟩
  · exact absurd present.2 done
  · exact gone
  · exact absurd open_ done

/-- An actor leaves the registry after it was deleted from its parent's map. -/
theorem Departure.deleted {s : State M W} (departure : Departure s)
    (listed : s.actor.parent = true) : s.actor.registered = true := by
  rcases departure.flags with present | ⟨deleted, -⟩
  · exact present.1
  · rw [listed] at deleted
    cases deleted

theorem Departure.holder {s : State M W} {r : Routine M} (departure : Departure s)
    (found : s.pool[i]? = some (.proc r)) (holder : r.act.stage.holds = true) :
    r.Sound s.actor ∧ r.Untroubled s.actor ∧ s.actor.Leaving r.act := by
  obtain ⟨inside, known⟩ := departure.inside _ (List.mem_of_getElem? found)
  exact ⟨inside, known holder⟩

/-- Only one goroutine at a time is in the process. -/
theorem Departure.unique {s : State M W} {r q : Routine M} (departure : Departure s)
    (first : s.pool[i]? = some (.proc r)) (second : s.pool[j]? = some (.proc q))
    (holder : r.act.stage.holds = true) (holder' : q.act.stage.holds = true) : i = j :=
  Pool.index_unique (Nat.le_of_add_right_le departure.exclusive) first second holder holder'

theorem Departure.receiving {s : State M W} {r : Routine M} (departure : Departure s)
    (found : s.pool[i]? = some (.proc r)) (position : r.act = .receiving site) :
    r.act.stage.holds = true ∧ s.actor.cancelled = [] := by
  have inside := (departure.inside _ (List.mem_of_getElem? found)).1
  have holder : r.act.stage.holds = true := Actor.receiving_holds inside position
  obtain ⟨-, -, leaving⟩ := departure.holder found holder
  rw [position] at leaving
  refine ⟨holder, ?_⟩
  cases site with
  | cleanup reason => exact leaving.2.2
  | _ => exact leaving.2

end Engine

namespace Actor

/-- The flags of an actor are only ever cleared, and a context is cancelled at the end
of `cleanup`. -/
structure Fades (a b : Actor M W) (act : Act M) : Prop where
  registered : b.registered = true → a.registered = true
  parent : b.parent = true → a.parent = true
  cancelled : b.cancelled ≠ [] → a.cancelled ≠ [] ∨ ∃ reason, act = .cancel reason

theorem Fades.same {a b : Actor M W} {act : Act M} (registered : b.registered = a.registered)
    (parent : b.parent = a.parent) (cancelled : b.cancelled = a.cancelled) : Fades a b act :=
  ⟨fun held => registered ▸ held, fun held => parent ▸ held, fun done => .inl (cancelled ▸ done)⟩

theorem Move.fades {a : Actor M W} {r : Routine M} (sound : r.Sound a) (move : Move a r b next spawned) :
    Fades a b r.act ∧ b.children = a.children := by
  cases move with
  | fillPanics position more => exact absurd more (sound.room position)
  | cleanup => exact ⟨⟨id, nofun, .inl⟩, rfl⟩
  | unregister => exact ⟨⟨nofun, id, .inl⟩, rfl⟩
  | cancelPill position => exact ⟨⟨id, id, fun _ => .inr ⟨_, position⟩⟩, rfl⟩
  | _ => exact ⟨.same rfl rfl rfl, rfl⟩

theorem resume_fades (a : Actor M W) (r : Routine M) (site : Site M) :
    Fades a (a.resume r site .returns).1 r.act ∧ (a.resume r site .returns).1.children = a.children := by
  cases site with
  | started =>
    simp only [resume]
    split <;> exact ⟨.same rfl rfl rfl, rfl⟩
  | _ => exact ⟨.same rfl rfl rfl, rfl⟩

/-- What `cleanup` has still to wait for shrinks by one child at a time, from what the
children map held when it was read. -/
inductive Awaits (a : Actor M W) : Act M → List (Option PID) → Prop where
  | kept {act : Act M} : act.awaits = some rest → Awaits a act rest
  | poisoned : Awaits a (.poison reason (child :: rest)) rest
  | childless : a.children = [] → Awaits a (.childrenLen reason) []
  | read : Awaits a (.fillChildren reason size)
      (a.children.map some ++ List.replicate (size - a.children.length) none)

omit [Inhabited M] in
theorem ret_awaits (r : Routine M) : r.ret.act.awaits = none := by
  obtain ⟨base, replays, act⟩ := r
  cases replays with
  | zero => cases base <;> rfl
  | succ => rfl

theorem Move.awaits {a : Actor M W} {r : Routine M} (sound : r.Sound a) (move : Move a r b next spawned)
    (waits : next.act.awaits = some rest) : Awaits a r.act rest := by
  cases move with
  | inboxStarted | invokeEnd | cancelPill =>
    rw [ret_awaits] at waits
    cases waits
  | noChildren position empty =>
    cases waits
    exact position ▸ .childless empty
  | fillChildren position =>
    cases waits
    exact position ▸ .read
  | poison position =>
    cases waits
    exact position ▸ .poisoned
  | poisonEnd position | stopInbox position | unregister position | stopping position =>
    cases waits
    exact .kept (by rw [position]; rfl)
  | fillPanics position more => exact absurd more (sound.room position)
  | cancelNil position => exact absurd position sound.not_limit
  | _ => cases waits

theorem resume_awaits {a : Actor M W} {r : Routine M} (untroubled : r.Untroubled a)
    (position : r.act = .receiving site) (waits : (a.resume r site .returns).2.act.awaits = some rest) :
    Awaits a r.act rest := by
  cases site with
  | cleanup reason =>
    cases waits
    exact .kept (by rw [position]; rfl)
  | started =>
    simp only [resume, untroubled.empty, List.length_nil, gt_iff_lt, lt_self_iff_false, if_false] at waits
    cases waits
  | _ => cases waits

end Actor

namespace Engine
variable {i j : Nat}

/-- A departed actor stays departed. -/
theorem Departure.keeps {s t : State M W} (departure : Departure s)
    (stepped : restrict calm State.step s label = some t) (gone : s.actor.departed = true) :
    t.actor.departed = true := by
  obtain ⟨allowed, stepped⟩ := restrict_some stepped
  rcases step_cases stepped with ⟨call, rfl, rfl⟩ | ⟨child, rfl, rfl⟩ |
    ⟨i, action, g, b, next, spawned, rfl, found, advance, rfl⟩
  · exact gone
  · exact gone
  · obtain ⟨inside, known⟩ := departure.inside g (List.mem_of_getElem? found)
    by_cases holder : g.holds = true
    · obtain ⟨untroubled, departing⟩ := known holder
      cases advance with
      | accepted | rejected | found | missing | mailed | returned => cases holder
      | moved move => exact move.departed untroubled departing gone
      | @resumed r outcome site position =>
        cases outcome with
        | panics v => cases allowed
        | returns =>
          have after := Actor.resume_departed untroubled departing position gone
          exact after
      | spawnedChild => exact gone
    · obtain ⟨workers, -, aside, -⟩ := advance.aside inside (Bool.eq_false_of_not_eq_true holder)
      change b.departed = true
      rw [aside.same]
      exact gone

/-- What a step does to the flags of an actor. -/
theorem Departure.fades {s t : State M W} (departure : Departure s)
    (stepped : restrict calm State.step s label = some t) :
    (t.actor.registered = true → s.actor.registered = true) ∧
      (t.actor.parent = true → s.actor.parent = true) ∧
      (t.actor.cancelled ≠ [] → s.actor.cancelled ≠ [] ∨ ∃ i r reason, label = .act i .step ∧
        s.pool[i]? = some (.proc r) ∧ r.act = .cancel reason) := by
  obtain ⟨allowed, stepped⟩ := restrict_some stepped
  rcases step_cases stepped with ⟨call, rfl, rfl⟩ | ⟨child, rfl, rfl⟩ |
    ⟨i, action, g, b, next, spawned, rfl, found, advance, rfl⟩
  · exact ⟨id, id, .inl⟩
  · exact ⟨id, id, .inl⟩
  · obtain ⟨inside, -⟩ := departure.inside g (List.mem_of_getElem? found)
    cases advance with
    | @moved r b next spawned move =>
      obtain ⟨⟨registered, parent, cancelled⟩, -⟩ := move.fades inside
      refine ⟨registered, parent, fun done => ?_⟩
      cases cancelled done with
      | inl before => exact .inl before
      | inr ending =>
        obtain ⟨reason, position⟩ := ending
        exact .inr ⟨i, r, reason, rfl, found, position⟩
    | @resumed r outcome site position =>
      cases outcome with
      | panics v => cases allowed
      | returns =>
        obtain ⟨⟨registered, parent, cancelled⟩, -⟩ := Actor.resume_fades s.actor r site
        refine ⟨registered, parent, fun done => ?_⟩
        cases cancelled done with
        | inl before => exact .inl before
        | inr ending =>
          obtain ⟨reason, other⟩ := ending
          rw [position] at other
          cases other
    | _ => exact ⟨id, id, .inl⟩

theorem Runs.trans {s t : State M W} (runs : Runs s)
    (path : Reaches (restrict calm State.step) s t) : Runs t := by
  obtain ⟨opts, positive, parent, reached⟩ := runs
  exact ⟨opts, positive, parent, reached.trans path⟩

/-- The flags of an actor along a run. -/
theorem Runs.fades {s t : State M W} (runs : Runs s)
    (path : Reaches (restrict calm State.step) s t) :
    (t.actor.registered = true → s.actor.registered = true) ∧
      (t.actor.parent = true → s.actor.parent = true) ∧
      (s.actor.departed = true → t.actor.departed = true) := by
  induction path with
  | refl => exact ⟨id, id, id⟩
  | next before stepped ih =>
    have departure := (runs.trans before).departure
    obtain ⟨registered, parent, -⟩ := departure.fades stepped
    obtain ⟨registered', parent', departed⟩ := ih
    exact ⟨fun held => registered' (registered held), fun held => parent' (parent held),
      fun gone => departure.keeps stepped (departed gone)⟩

end Engine

/-- The places of `cleanup` behind its first statement. -/
def Act.leaving : Act M → Bool
  | .childrenLen _ | .makeChildren _ | .fillChildren _ _ | .poison _ _ | .stopInbox _ | .unregister _
  | .stopping _ | .receiving (.cleanup _) | .cancel _ => true
  | _ => false

namespace Actor

/-- Only the first statement of `cleanup` clears the flag. -/
theorem Move.flag {a : Actor M W} {r : Routine M} (sound : r.Sound a) (move : Move a r b next spawned) :
    b.parent = a.parent ∨ ∃ reason, r.act = .cleanup reason ∧ next.act = .childrenLen reason := by
  cases move with
  | cleanup position => exact .inr ⟨_, position, rfl⟩
  | fillPanics position more => exact absurd more (sound.room position)
  | _ => exact .inl rfl

theorem resume_flag (a : Actor M W) (r : Routine M) (site : Site M) :
    (a.resume r site .returns).1.parent = a.parent := by
  cases site with
  | started =>
    simp only [resume]
    split <;> rfl
  | _ => rfl

/-- A goroutine leaves `cleanup` by its last statement. -/
theorem Move.leaves {a : Actor M W} {r : Routine M} (sound : r.Sound a) (move : Move a r b next spawned)
    (inside : r.act.leaving = true) : next.act.leaving = true ∨ ∃ reason, r.act = .cancel reason := by
  cases move with
  | someChildren | noChildren | makeChildren | fillChildren | poisonEnd | poison | stopInbox
  | unregister | stopping => exact .inl rfl
  | fillPanics position more => exact absurd more (sound.room position)
  | cancelPill position | cancelNil position => exact .inr ⟨_, position⟩
  | _ position =>
    rw [position] at inside
    cases inside

theorem resume_leaves {a : Actor M W} {r : Routine M} (position : r.act = .receiving site)
    (inside : r.act.leaving = true) : (a.resume r site .returns).2.act.leaving = true := by
  rw [position] at inside
  cases site with
  | cleanup reason => rfl
  | _ => cases inside

end Actor

namespace Engine
variable {i j : Nat}

/-- The flag is as at first, or `cleanup` is under way or done. -/
def Flagged (parent : Bool) (s : State M W) : Prop :=
  s.actor.parent = parent ∨ s.actor.departed = true ∨
    ∃ r, .proc r ∈ s.pool ∧ r.act.leaving = true

theorem Departure.flagged {s t : State M W} (departure : Departure s)
    (stepped : restrict calm State.step s label = some t) (flagged : Flagged parent s) :
    Flagged parent t := by
  have keeps := departure.keeps stepped
  obtain ⟨allowed, stepped⟩ := restrict_some stepped
  rcases step_cases stepped with ⟨call, rfl, rfl⟩ | ⟨child, rfl, rfl⟩ |
    ⟨i, action, g, b, next, spawned, rfl, found, advance, rfl⟩
  · obtain same | gone | ⟨r, member, leaving⟩ := flagged
    · exact .inl same
    · exact .inr (.inl gone)
    · exact .inr (.inr ⟨r, List.mem_append_left _ member, leaving⟩)
  · exact flagged
  · obtain ⟨inside, known⟩ := departure.inside g (List.mem_of_getElem? found)
    -- the one who moves is in `cleanup` now, or was there and is still, or has left it
    have mine {r : Routine M} (same : next = .proc r) (leaving : r.act.leaving = true) :
        ∃ r, .proc r ∈ s.pool.set i next ++ spawned ∧ r.act.leaving = true :=
      ⟨r, List.mem_append_left _ (same ▸ Pool.mem_moved found), leaving⟩
    obtain same | gone | ⟨r, member, leaving⟩ := flagged
    · cases advance with
      | moved move =>
        cases move.flag inside with
        | inl kept => exact .inl (kept.trans same)
        | inr begun =>
          obtain ⟨reason, -, position⟩ := begun
          exact .inr (.inr (mine rfl (by rw [position]; rfl)))
      | @resumed r outcome site position =>
        cases outcome with
        | panics v => cases allowed
        | returns => exact .inl ((Actor.resume_flag _ _ _).trans same)
      | _ => exact .inl same
    · exact .inr (.inl (keeps gone))
    · obtain ⟨j, place⟩ := List.mem_iff_getElem?.mp member
      by_cases self : j = i
      · subst self
        rw [found] at place
        cases place
        cases advance with
        | moved move =>
          cases move.leaves inside leaving with
          | inl still => exact .inr (.inr (mine rfl still))
          | inr ending =>
            obtain ⟨reason, position⟩ := ending
            have holder : r.act.stage.holds = true := by
              have placed := Routine.Sound.placed inside
              rw [position] at placed ⊢
              cases reason with
              | pill => rfl
              | limit => exact absurd placed Routine.Placed.not_astray
            have leaving : s.actor.Leaving r.act := (known holder).2
            rw [position] at leaving
            exact .inr (.inl (keeps leaving.1))
        | @resumed r outcome site position =>
          cases outcome with
          | panics v => cases allowed
          | returns => exact .inr (.inr (mine rfl (Actor.resume_leaves position leaving)))
        | spawnedChild => exact .inr (.inr (mine rfl leaving))
      · refine .inr (.inr ⟨r, List.mem_append_left _ ?_, leaving⟩)
        exact List.mem_of_getElem? (by rw [List.getElem?_set_ne (Ne.symm self), place])

theorem Runs.flagged {s t : State M W} (runs : Runs s)
    (path : Reaches (restrict calm State.step) s t) (flagged : Flagged parent s) :
    Flagged parent t := by
  induction path with
  | refl => exact flagged
  | next before stepped ih => exact (runs.trans before).departure.flagged stepped ih

end Engine

/-! What was broadcast stays broadcast. -/
namespace Actor

theorem Move.events {a : Actor M W} {r : Routine M} (move : Move a r b next spawned) :
    a.events ⊆ b.events := by
  cases move with
  | restartLimit | announceRestart => exact List.subset_append_left _ _
  | @fillPanics reason => cases reason <;> exact List.Subset.refl _
  | _ => exact List.Subset.refl _

theorem resume_events (a : Actor M W) (r : Routine M) (site : Site M) (outcome : Outcome) :
    a.events ⊆ (a.resume r site outcome).1.events := by
  cases outcome with
  | returns =>
    cases site with
    | initialized | cleanup => exact List.subset_append_left _ _
    | started =>
      simp only [resume]
      split <;> exact List.subset_append_left _ _
    | _ => exact List.Subset.refl _
  | panics v =>
    cases site with
    | cleanup reason => cases reason <;> exact List.Subset.refl _
    | _ => exact List.Subset.refl _

theorem Advance.events {a : Actor M W} (advance : Advance a g action b next spawned) :
    a.events ⊆ b.events := by
  cases advance with
  | rejected | missing => exact List.subset_append_left _ _
  | moved move => exact move.events
  | resumed => exact resume_events _ _ _ _
  | _ => exact List.Subset.refl _

end Actor

namespace Engine

theorem reaches_events {admits : State M W → Label M → Bool} {s t : State M W}
    (path : Reaches (restrict admits State.step) s t) :
    s.actor.events ⊆ t.actor.events := by
  induction path with
  | refl => exact List.Subset.refl _
  | next _ stepped ih =>
    refine List.Subset.trans ih ?_
    rcases step_cases (restrict_some stepped).2 with ⟨call, -, rfl⟩ | ⟨child, -, rfl⟩ |
      ⟨i, action, g, b, next, spawned, -, found, advance, rfl⟩
    · exact List.Subset.refl _
    · exact List.Subset.refl _
    · exact advance.events

end Engine
end Hollywood
