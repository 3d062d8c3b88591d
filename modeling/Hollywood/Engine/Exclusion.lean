import Hollywood.Engine
import Hollywood.Foundation.Token
import Hollywood.Inbox.Handover

/-! At most one worker per actor. The right to run the mailbox loop is a token:
the spawner holds it until its `Inbox.Start` makes the inbox idle, an idle inbox
offers it, and the worker that wins the swap holds it until it swaps back or
finds the inbox stopped. A restart inside `Invoke` keeps it, because `Inbox.Start`
is refused while the status is running. The one way to break the scheme is a pill
that is met in the retry buffer of a restart: `cleanup` stops the inbox and the
waiting `Start` then starts it again. -/
namespace Hollywood
open Transition

/-- The parts of a goroutine's way through the process that differ in what it
may assume about the inbox. -/
inductive Stage where
  | booting
  | claiming
  | scheduling
  | looping
  | popping
  | rescheduling
  | serving
  | retiring
  | retired
  | gone
  | astray
  deriving DecidableEq, Repr

def Reason.stage (next : Stage) : Reason M → Stage
  | .pill _ _ => next
  | .limit => .astray

def Site.stage : Site M → Stage
  | .initialized | .started | .crashedStart _ => .booting
  | .message _ | .crashedInvoke _ _ => .serving
  | .flush _ _ _ => .retiring
  | .cleanup reason => reason.stage .retired

/-- The actions on the inbox that need no right to it. -/
def Inbox.Pc.aside : Inbox.Pc α → Bool
  | .push _ | .pushFront _ | .clear | .schedule _ | .recheck => true
  | _ => false

/-- What the action puts into the mailbox. -/
def Inbox.Pc.letter : Inbox.Pc α → Option α
  | .push msg | .pushFront msg => some msg
  | _ => none

/-- The stage of a worker that executes `Inbox.process`. -/
def Inbox.Pc.loopStage : Inbox.Pc α → Stage
  | .load | .toIdle => .looping
  | .popN | .invoke _ => .popping
  | .recheck | .schedule _ => .rescheduling
  | _ => .astray

/-- The stage of a goroutine that executes `Inbox.Start`. -/
def Inbox.Pc.startStage : Inbox.Pc α → Stage
  | .start => .booting
  | .starting => .claiming
  | .schedule _ => .scheduling
  | _ => .astray

def Act.stage : Act M → Stage
  | .loop pc => pc.loopStage
  | .start | .replayed | .recoverStart _ | .tryRestart _ | .countRestart
  | .announceRestart => .booting
  | .inboxStart pc => pc.startStage
  | .receiving site => site.stage
  | .invoke _ | .recoverInvoke _ _ => .serving
  | .flush _ _ _ => .retiring
  | .cleanup reason | .childrenLen reason | .makeChildren reason | .fillChildren reason _
  | .poison reason _ | .stopInbox reason => reason.stage .retiring
  | .unregister reason | .stopping reason | .cancel reason => reason.stage .retired
  | .returned | .panicked _ => .gone

/-- The goroutine has the right to run the mailbox loop. -/
def Stage.holds : Stage → Bool
  | .scheduling | .rescheduling | .gone | .astray => false
  | _ => true

def Goroutine.holds : Goroutine M → Bool
  | .caller _ _ => false
  | .proc r => r.act.stage.holds

def Act.inLoop : Act M → Bool
  | .loop .load | .loop .popN | .loop (.invoke _) => true
  | .loop _ | .returned | .panicked _ => false
  | _ => true

/-- A goroutine in `Inbox.run` or in the `Invoke` called from it. -/
def Goroutine.inLoop : Goroutine M → Bool
  | .caller _ _ => false
  | .proc r => r.base = .worker && r.act.inLoop

def Act.inProcess : Act M → Bool
  | .loop _ | .inboxStart _ | .returned | .panicked _ => false
  | _ => true

/-- A goroutine in the code of the process, not in that of its inbox. -/
def Goroutine.inProcess : Goroutine M → Bool
  | .caller _ _ => false
  | .proc r => r.act.inProcess

/-- The next message of the loop in `Invoke` is a pill. -/
def Act.atPill : Act M → Bool
  | .invoke f => f.msgs[f.i]?.any Envelope.isPill
  | _ => false

namespace Routine
variable {M W : Type} [Inhabited M]

/-- Where a goroutine can be, given the status of the inbox and the retry buffer:
its stage, who called into the process, and how many calls of `Start` wait. -/
inductive Placed : Status → List (Envelope M) → Stage → Base → Nat → Prop where
  | boot : Placed .stopped [] .booting .spawner 0
  | claim : Placed .starting buffer .claiming .spawner 0
  | schedule : Placed status buffer .scheduling .spawner 0
  | restart : Placed .running buffer .booting .worker n
  | serve : Placed .running buffer .serving .worker n
  | loop : Placed .running buffer .looping .worker 0
  | leave : Placed .stopped buffer .looping .worker 0
  | pop : Placed .running buffer .popping .worker 0
  | reschedule : Placed status buffer .rescheduling .worker n
  | retire : Placed .running buffer .retiring .worker 0
  | retired : Placed .stopped buffer .retired .worker 0
  | gone : Placed status buffer .gone caller n

omit [Inhabited M] in
theorem Placed.not_astray {buffer : List (Envelope M)} :
    ¬ Placed status buffer .astray caller n := nofun

omit [Inhabited M] in
theorem Placed.running {buffer : List (Envelope M)} (placed : Placed status buffer stage caller n)
    (busy : stage = .serving ∨ stage = .popping ∨ stage = .retiring) : status = .running := by
  cases placed with
  | serve | pop | retire => rfl
  | _ => simp at busy

omit [Inhabited M] in
theorem Placed.retired_elim {buffer : List (Envelope M)} (placed : Placed status buffer .retired caller n) :
    status = .stopped ∧ caller = .worker ∧ n = 0 := by
  cases placed
  exact ⟨rfl, rfl, rfl⟩

/-- What a goroutine can rely on. A counted panic leaves restarts in the budget,
and the slice of `Children` is long enough. -/
structure Sound (a : Actor M W) (r : Routine M) : Prop where
  placed : Placed a.inbox.procStatus a.mbuffer r.act.stage r.base r.replays
  spared : r.act.raised = some .error → a.restarts ≠ a.opts.maxRestarts
  fits : ∀ size, r.act.sized = some size → a.children.length ≤ size

theorem Sound.room {a : Actor M W} {r : Routine M} (sound : r.Sound a) (position : r.act = .fillChildren reason size) :
    ¬ size < a.children.length := by
  have fits := sound.fits size (by rw [position]; rfl)
  exact Nat.not_lt.mpr fits

/-- Nobody is in `cleanup` for the limit of restarts. -/
theorem Sound.not_limit {a : Actor M W} {r : Routine M} (sound : r.Sound a) : r.act ≠ .cancel .limit := by
  intro position
  have placed := sound.placed
  rw [position] at placed
  exact Placed.not_astray placed

end Routine

namespace Actor
variable {M W : Type} [Inhabited M]
open Routine (Placed)

omit [Inhabited M] in
theorem ret_placed {r : Routine M} (worker : r.base = .worker) (running : status = .running) :
    Placed status buffer r.ret.act.stage r.ret.base r.ret.replays := by
  obtain ⟨base, replays, act⟩ := r
  subst worker running
  cases replays with
  | zero => exact .loop
  | succ n => exact .restart

theorem worker_placed {inbox : Inbox (Envelope M)} (move : Inbox.Move inbox pc turn) :
    ∀ w ∈ turn.spawned.map worker,
      Placed turn.inbox.procStatus buffer w.act.stage w.base w.replays := by
  cases move with
  | won =>
    simp only [List.map_cons, List.map_nil, List.mem_singleton]
    rintro w rfl
    exact .loop
  | _ => exact List.forall_mem_nil _

theorem Move.placed {a : Actor M W} {r : Routine M} (sound : r.Sound a)
    (move : Move a r b next spawned) (calm : r.act.atPill = true → r.replays = 0) :
    Placed b.inbox.procStatus b.mbuffer next.act.stage next.base next.replays ∧
      ∀ w ∈ spawned, Placed b.inbox.procStatus b.mbuffer w.act.stage w.base w.replays := by
  obtain ⟨base, replays, act⟩ := r
  have placed := sound.placed
  generalize same : a.inbox.procStatus = status at placed
  generalize kept : a.mbuffer = buffer at placed
  cases move with
  | replayed position =>
    subst position same
    refine ⟨?_, List.forall_mem_nil _⟩
    generalize a.inbox.procStatus = status at placed
    cases placed with
    | boot => exact .boot
    | restart => exact .restart
  | invoked position =>
    subst position
    cases placed
    exact ⟨same ▸ .serve, List.forall_mem_nil _⟩
  | looped position move notDone silent =>
    subst position
    cases move with
    | enter running =>
      cases placed with
      | loop => exact ⟨same ▸ .pop, List.forall_mem_nil _⟩
      | leave => exact absurd same running
    | leave | batch =>
      subst same kept
      exact ⟨placed, List.forall_mem_nil _⟩
    | empty =>
      cases placed
      exact ⟨same ▸ .loop, List.forall_mem_nil _⟩
    | released | again =>
      cases placed <;> exact ⟨.reschedule, List.forall_mem_nil _⟩
    | won | lost | abandoned | finished => exact absurd rfl notDone
    | invoke => cases silent
    | _ => cases placed
  | left position move done => exact ⟨.gone, worker_placed move⟩
  | inboxStarting position move notDone =>
    subst position
    cases move with
    | start stopped =>
      cases placed with
      | boot => exact ⟨.claim, List.forall_mem_nil _⟩
      | restart => cases stopped.symm.trans same
    | started =>
      cases placed
      exact ⟨.schedule, List.forall_mem_nil _⟩
    | won | lost | abandoned | finished | refused => exact absurd rfl notDone
    | _ => cases placed
  | inboxStarted position move done =>
    subst position
    refine ⟨?_, worker_placed move⟩
    cases move with
    | refused running =>
      cases placed with
      | boot => exact absurd same running
      | restart => exact ret_placed rfl same
    | won | lost =>
      cases placed
      exact .gone
    | push | pushFront | enter | leave | batch | empty | invoke | returned | released | again
    | start | started => cases done
    | abandoned | finished | stop | clear => cases placed
  | invokeEnd position _ =>
    subst position
    cases placed
    exact ⟨ret_placed rfl same, List.forall_mem_nil _⟩
  | invokeGraceful position pill | invokeStop position pill =>
    subst position
    obtain rfl : replays = 0 := calm (by simp [Act.atPill, pill, Envelope.isPill])
    cases placed
    exact ⟨same ▸ .retire, List.forall_mem_nil _⟩
  | restartLimit position limit =>
    subst position
    exact absurd limit (sound.spared rfl)
  | fillPanics position more => exact absurd more (sound.room position)
  | @stopInbox reason position =>
    subst position
    cases reason with
    | pill f ctx =>
      cases placed
      exact ⟨.retired, List.forall_mem_nil _⟩
    | limit => cases placed
  | cancelPill position =>
    subst position
    cases placed
    exact ⟨same ▸ .leave, List.forall_mem_nil _⟩
  | cancelNil position => exact absurd position sound.not_limit
  | _ position =>
    -- the stage and the status are those before
    subst position same kept
    exact ⟨placed, List.forall_mem_nil _⟩

theorem Move.spared {a : Actor M W} {r : Routine M} (sound : r.Sound a)
    (move : Move a r b next spawned) (raised : next.act.raised = some .error) :
    b.restarts ≠ b.opts.maxRestarts := by
  obtain ⟨base, replays, act⟩ := r
  cases move with
  | recoverStart position | recoverInvoke position =>
    subst position
    exact sound.spared raised
  | restart position below => exact below
  | fillPanics position more => exact absurd more (sound.room position)
  | inboxStarted position | invokeEnd position | cancelPill position =>
    cases replays <;> cases base <;> cases raised
  | cancelNil position => exact absurd position sound.not_limit
  | _ => cases raised

theorem Move.fits {a : Actor M W} {r : Routine M} (sound : r.Sound a)
    (move : Move a r b next spawned) (sized : next.act.sized = some size) :
    b.children.length ≤ size := by
  obtain ⟨base, replays, act⟩ := r
  cases move with
  | makeChildren position => exact (Option.some.inj sized).le
  | fillPanics position more => exact absurd more (sound.room position)
  | inboxStarted position | invokeEnd position | cancelPill position =>
    cases replays <;> cases base <;> cases sized
  | cancelNil position => cases replays <;> cases sized
  | _ => cases sized

theorem worker_sound {b : Actor M W} {spawned : List (Routine M)}
    (placed : ∀ w ∈ spawned, Placed b.inbox.procStatus b.mbuffer w.act.stage w.base w.replays)
    (loads : ∀ w ∈ spawned, ∃ pc, w = worker pc) : ∀ w ∈ spawned, w.Sound b := by
  intro w member
  obtain ⟨pc, rfl⟩ := loads w member
  exact ⟨placed _ member, nofun, nofun⟩

theorem Move.spawns {a : Actor M W} {r : Routine M} (move : Move a r b next spawned) :
    ∀ w ∈ spawned, ∃ pc, w = worker pc := by
  cases move with
  | looped | left | inboxStarting | inboxStarted =>
    intro w member
    obtain ⟨pc, _, rfl⟩ := List.mem_map.mp member
    exact ⟨pc, rfl⟩
  | _ => exact List.forall_mem_nil _

theorem Move.sound {a : Actor M W} {r : Routine M} (sound : r.Sound a)
    (move : Move a r b next spawned) (calm : r.act.atPill = true → r.replays = 0) :
    next.Sound b ∧ ∀ w ∈ spawned, w.Sound b := by
  obtain ⟨placed, workers⟩ := move.placed sound calm
  exact ⟨⟨placed, move.spared sound, fun _ sized => move.fits sound sized⟩,
    worker_sound workers move.spawns⟩

/-- The outcomes of a call of the receiver that leave room for a restart. -/
def endures (a : Actor M W) (site : Site M) : Outcome → Bool
  | .returns => true
  | .panics v => !site.stops && (v = .internal || a.restarts ≠ a.opts.maxRestarts)

theorem resume_sound {a : Actor M W} {r : Routine M} (sound : r.Sound a)
    (position : r.act = .receiving site) (endured : a.endures site outcome = true) :
    (a.resume r site outcome).2.Sound (a.resume r site outcome).1 := by
  obtain ⟨base, replays, act⟩ := r
  subst position
  have placed := sound.placed
  cases outcome with
  | returns =>
    cases site with
    | initialized | flush f rest ctx | message f | cleanup reason => exact ⟨placed, nofun, nofun⟩
    | crashedStart v => exact ⟨placed, sound.spared, nofun⟩
    | crashedInvoke f v =>
      refine ⟨?_, sound.spared, nofun⟩
      generalize same : a.inbox.procStatus = status at placed
      generalize a.mbuffer = buffer at placed
      cases placed
      exact same ▸ .restart
    | started =>
      generalize same : a.inbox.procStatus = status at placed
      generalize kept : a.mbuffer = buffer at placed
      by_cases empty : a.mbuffer = []
      · simp only [resume, empty, List.length_nil, gt_iff_lt, lt_self_iff_false, if_false]
        subst same kept
        exact ⟨placed, nofun, nofun⟩
      · simp only [resume, gt_iff_lt, List.length_pos_iff.mpr empty, if_true]
        cases placed with
        | boot => exact absurd kept empty
        | restart => exact ⟨same ▸ .serve, nofun, nofun⟩
  | panics v =>
    simp only [endures, Bool.and_eq_true, Bool.not_eq_true', Bool.or_eq_true,
      decide_eq_true_eq] at endured
    obtain ⟨continues, budget⟩ := endured
    have spared : some v = some .error → a.restarts ≠ a.opts.maxRestarts := by
      rintro ⟨⟩
      exact budget.resolve_left nofun
    cases site with
    | initialized | started | message f => exact ⟨placed, spared, nofun⟩
    | flush f rest ctx =>
      refine ⟨?_, spared, nofun⟩
      generalize same : a.inbox.procStatus = status at placed
      generalize a.mbuffer = buffer at placed
      cases placed
      exact same ▸ .serve
    | crashedStart v | crashedInvoke f v | cleanup reason => cases continues

/-- A pill comes into the mailbox from a call that found the actor, and at the
back. -/
def vouches (a : Actor M W) (pc : Inbox.Pc (Envelope M)) : Prop :=
  ∀ e ctx, pc.letter = some e → e.context = some ctx → ctx ∈ a.accepted ∧ pc = .push e

theorem vouches_mono {a b : Actor M W} {pc : Inbox.Pc (Envelope M)} (grown : a.accepted ⊆ b.accepted)
    (vouched : a.vouches pc) : b.vouches pc := by
  intro e ctx letter pill
  obtain ⟨taken, back⟩ := vouched e ctx letter pill
  exact ⟨grown taken, back⟩

/-- The effects of a goroutine without the right to the mailbox: an action aside
of the loop, or a caller's registry lookup. -/
inductive Aside (a : Actor M W) : Actor M W → List (Routine M) → Prop where
  | mailbox : Inbox.Move a.inbox pc turn → pc.aside = true → a.vouches pc →
      Aside a (a.record pc turn) (turn.spawned.map worker)
  | lookup : (∀ event ∈ letters, ∃ envelope, event = .deadLetter envelope) →
      Aside a { a with
        events := a.events ++ letters, refused := done, accepted := a.accepted ++ taken } []

theorem Aside.quiet (a : Actor M W) (taken : List Nat) :
    Aside a { a with accepted := a.accepted ++ taken } [] := by
  have silent : Aside a { a with
      events := a.events ++ [], refused := a.refused, accepted := a.accepted ++ taken } [] :=
    .lookup (List.forall_mem_nil _)
  rwa [List.append_nil] at silent

theorem Aside.missed {a : Actor M W} {letters : List (Event M)}
    (dead : ∀ event ∈ letters, ∃ envelope, event = .deadLetter envelope) (done : List Nat) :
    Aside a { a with events := a.events ++ letters, refused := done } [] := by
  have missed : Aside a { a with
      events := a.events ++ letters, refused := done, accepted := a.accepted ++ [] } [] :=
    .lookup dead
  rwa [List.append_nil] at missed

theorem Aside.accepted {a : Actor M W} (aside : Aside a b spawned) : a.accepted ⊆ b.accepted := by
  cases aside with
  | mailbox => exact List.Subset.refl _
  | lookup => exact List.subset_append_left _ _

theorem Aside.same {a : Actor M W} (aside : Aside a b spawned) :
    b = { a with inbox := b.inbox, events := b.events, refused := b.refused
                 accepted := b.accepted, ops := b.ops } := by
  cases aside with
  | mailbox move outer =>
    cases move with
    | push | pushFront | clear | won | lost | again | finished => simp [record, Inbox.Pc.batch]
    | _ => cases outer
  | lookup => rfl

/-- `cleanup` has announced its end. -/
def finished (a : Actor M W) : Prop := .actorStopped ∈ a.events

theorem Aside.finished {a : Actor M W} (aside : Aside a b spawned) : b.finished ↔ a.finished := by
  cases aside with
  | mailbox move outer => exact Iff.rfl
  | lookup letters =>
    simp only [Actor.finished, List.mem_append]
    refine ⟨fun present => present.resolve_right fun late => ?_, .inl⟩
    obtain ⟨envelope, same⟩ := letters _ late
    cases same

theorem Aside.status {a : Actor M W} (aside : Aside a b spawned) :
    b.inbox.procStatus = a.inbox.procStatus ∧ spawned = [] ∨
      a.inbox.procStatus = .idle ∧ b.inbox.procStatus = .running ∧ spawned = [worker .load] := by
  cases aside with
  | mailbox move outer =>
    cases move with
    | won idle => exact .inr ⟨idle, rfl, rfl⟩
    | push | pushFront | clear | lost | again | finished => exact .inl ⟨rfl, rfl⟩
    | _ => cases outer
  | lookup => exact .inl ⟨rfl, rfl⟩

theorem Aside.still {a : Actor M W} (aside : Aside a b []) :
    b.inbox.procStatus = a.inbox.procStatus := by
  rcases aside.status with ⟨same, -⟩ | ⟨-, -, absurd⟩
  · exact same
  · cases absurd

theorem Aside.woken {a : Actor M W} (aside : Aside a b [worker .load]) :
    a.inbox.procStatus = .idle ∧ b.inbox.procStatus = .running := by
  rcases aside.status with ⟨-, absurd⟩ | ⟨idle, running, -⟩
  · cases absurd
  · exact ⟨idle, running⟩

end Actor

namespace Routine
variable {M W : Type} [Inhabited M]

omit [Inhabited M] in
theorem Placed.occupied {buffer : List (Envelope M)} (placed : Placed status buffer stage caller n)
    (holder : stage.holds = true) : status ≠ .idle := by
  cases placed with
  | schedule | reschedule | gone => cases holder
  | _ => exact nofun

omit [Inhabited M] in
/-- Without the right to the mailbox nothing is assumed about it. -/
theorem Placed.idle {buffer other : List (Envelope M)} (placed : Placed status buffer stage caller n)
    (idle : stage.holds = false) : Placed later other stage caller n := by
  cases placed with
  | schedule => exact .schedule
  | reschedule => exact .reschedule
  | gone => exact .gone
  | _ => cases idle

omit [Inhabited M] in
theorem raised_holds {act : Act M} (raised : act.raised = some v) : act.stage.holds = true := by
  cases act with
  | receiving site =>
    cases site with
    | crashedStart v | crashedInvoke f v => rfl
    | _ => cases raised
  | recoverStart v | recoverInvoke f v | tryRestart v | countRestart => rfl
  | _ => cases raised

theorem Sound.idle {a b : Actor M W} {r : Routine M} (sound : r.Sound a)
    (idle : r.act.stage.holds = false) : r.Sound b where
  placed := sound.placed.idle idle
  spared raised := by
    rw [raised_holds raised] at idle
    contradiction
  fits size sized := by
    obtain ⟨base, replays, act⟩ := r
    cases act with
    | fillChildren reason =>
      cases reason with
      | pill f ctx => cases idle
      | limit => exact absurd sound.placed Placed.not_astray
    | _ => cases sized

/-- Others do not disturb a goroutine that has the right to the mailbox. -/
theorem Sound.aside {a b : Actor M W} {r : Routine M} (sound : r.Sound a)
    (aside : a.Aside b spawned) : r.Sound b := by
  by_cases holder : r.act.stage.holds = true
  · have status : b.inbox.procStatus = a.inbox.procStatus := by
      rcases aside.status with ⟨same, -⟩ | ⟨idle, -⟩
      · exact same
      · exact absurd idle (sound.placed.occupied holder)
    have same := aside.same
    refine ⟨?_, ?_, ?_⟩
    · rw [status, same]
      exact sound.placed
    · rw [same]
      exact sound.spared
    · rw [same]
      exact sound.fits
  · exact sound.idle (Bool.not_eq_true _ ▸ holder)

end Routine

namespace Actor
variable {M W : Type} [Inhabited M]
open Routine (Placed)

def Inside (a : Actor M W) : Goroutine M → Prop
  | .caller request .sendPoisonPill => ∃ graceful ctx, request = .poison graceful ctx
  | .caller request .lookup => a.vouches request.pc
  | .caller _ (.inbox pc) => pc.aside = true ∧ a.vouches pc
  | .caller _ .returned => True
  | .proc r => r.Sound a

theorem Move.aside {a : Actor M W} {r : Routine M} (sound : r.Sound a)
    (idle : r.act.stage.holds = false) (move : Move a r b next spawned) :
    Aside a b spawned ∧ next.act.stage.holds = false := by
  obtain ⟨base, replays, act⟩ := r
  have placed := sound.placed
  generalize a.inbox.procStatus = status at placed
  generalize a.mbuffer = buffer at placed
  cases move with
  | looped position move notDone silent =>
    subst position
    cases move with
    | again queued => exact ⟨.mailbox (.again queued) rfl nofun, rfl⟩
    | won | lost | finished => exact absurd rfl notDone
    | enter | leave | batch | empty | invoke | released | abandoned => cases idle
    | _ => cases placed
  | left position move done =>
    subst position
    cases move with
    | won ready => exact ⟨.mailbox (.won ready) rfl nofun, rfl⟩
    | lost busy => exact ⟨.mailbox (.lost busy) rfl nofun, rfl⟩
    | finished drained => exact ⟨.mailbox (.finished drained) rfl nofun, rfl⟩
    | again => cases done
    | enter | leave | batch | empty | invoke | released | abandoned => cases idle
    | _ => cases placed
  | inboxStarting position move notDone =>
    subst position
    cases move with
    | won | lost => exact absurd rfl notDone
    | start | refused | started => cases idle
    | _ => cases placed
  | inboxStarted position move done =>
    subst position
    cases move with
    | won ready =>
      cases placed
      exact ⟨.mailbox (.won ready) rfl nofun, rfl⟩
    | lost busy =>
      cases placed
      exact ⟨.mailbox (.lost busy) rfl nofun, rfl⟩
    | start | refused | started => cases idle
    | _ => cases placed
  | @cleanup reason position | @someChildren reason position | @noChildren reason position
  | @makeChildren reason position | @fillChildren reason _ position | @fillPanics reason _ position
  | @poisonEnd reason position | @poison reason _ _ position | @stopInbox reason position
  | @unregister reason position | @stopping reason position =>
    subst position
    cases reason with
    | pill f ctx => cases idle
    | limit => cases placed
  | cancelNil position => exact absurd position sound.not_limit
  | _ position =>
    subst position
    cases idle

theorem Move.occupied {a : Actor M W} {r : Routine M} (move : Move a r b next spawned)
    (holder : r.act.stage.holds = true) : spawned = [] := by
  obtain ⟨base, replays, act⟩ := r
  cases move with
  | looped position move | left position move | inboxStarting position move
  | inboxStarted position move =>
    subst position
    cases move with
    | won => cases holder
    | _ => rfl
  | _ => rfl

/-- What lets a goroutine go on: a pill is not met while a `Start` waits, and a
panic leaves room for a restart. -/
def permits (a : Actor M W) : Goroutine M → Action → Bool
  | .proc r, .step => !r.act.atPill || r.replays = 0
  | .proc ⟨_, _, .receiving site⟩, .receive outcome => a.endures site outcome
  | _, _ => true

theorem inside_caller {a b : Actor M W} {request : Request M} {pc : CallPc M}
    (grown : a.accepted ⊆ b.accepted) (inside : a.Inside (.caller request pc)) :
    b.Inside (.caller request pc) := by
  cases pc with
  | sendPoisonPill => exact inside
  | lookup => exact vouches_mono grown inside
  | inbox pc => exact ⟨inside.1, vouches_mono grown inside.2⟩
  | returned => trivial

theorem Inside.idle {a b : Actor M W} {g : Goroutine M} (grown : a.accepted ⊆ b.accepted)
    (inside : a.Inside g) (idle : g.holds = false) : b.Inside g := by
  cases g with
  | caller request pc => exact inside_caller grown inside
  | proc r => exact Routine.Sound.idle inside idle

theorem Inside.aside {a b : Actor M W} {g : Goroutine M} (inside : a.Inside g)
    (aside : Aside a b spawned) : b.Inside g := by
  cases g with
  | caller request pc => exact inside_caller aside.accepted inside
  | proc r => exact Routine.Sound.aside inside aside

/-- The process itself answers no call. -/
theorem Move.requests {a : Actor M W} {r : Routine M} (move : Move a r b next spawned) :
    b.accepted = a.accepted ∧ b.refused = a.refused := by
  cases move with
  | @fillPanics reason => cases reason <;> exact ⟨rfl, rfl⟩
  | _ => exact ⟨rfl, rfl⟩

theorem resume_requests (a : Actor M W) (r : Routine M) (site : Site M) (outcome : Outcome) :
    (a.resume r site outcome).1.accepted = a.accepted ∧
      (a.resume r site outcome).1.refused = a.refused := by
  cases outcome with
  | returns =>
    cases site with
    | started =>
      simp only [resume]
      split <;> exact ⟨rfl, rfl⟩
    | _ => exact ⟨rfl, rfl⟩
  | panics v =>
    cases site with
    | cleanup reason => cases reason <;> exact ⟨rfl, rfl⟩
    | _ => exact ⟨rfl, rfl⟩

theorem Advance.grows {a : Actor M W} (advance : Advance a g action b next spawned) :
    a.accepted ⊆ b.accepted := by
  cases advance with
  | accepted => exact List.subset_append_left _ _
  | moved move => rw [move.requests.1]; exact List.Subset.refl _
  | resumed => rw [(resume_requests _ _ _ _).1]; exact List.Subset.refl _
  | _ => exact List.Subset.refl _

theorem receiving_holds {a : Actor M W} {r : Routine M} (sound : r.Sound a)
    (position : r.act = .receiving site) : r.act.stage.holds = true := by
  obtain ⟨base, replays, act⟩ := r
  subst position
  cases site with
  | cleanup reason =>
    cases reason with
    | pill f ctx => rfl
    | limit => exact absurd sound.placed Placed.not_astray
  | _ => rfl

omit [Inhabited M] in
theorem undelivered_letters (request : Request M) :
    ∀ event ∈ request.undelivered, ∃ envelope, event = .deadLetter envelope := by
  cases request <;> simp [Request.undelivered]

theorem Advance.aside {a : Actor M W} (inside : a.Inside g) (idle : g.holds = false)
    (advance : Advance a g action b next spawned) :
    ∃ workers, spawned = workers.map .proc ∧ Aside a b workers ∧ next.holds = false := by
  cases advance with
  | accepted => exact ⟨[], rfl, .quiet _ _, rfl⟩
  | found => exact ⟨[], rfl, by simpa using Aside.quiet b [], rfl⟩
  | rejected | missing => exact ⟨[], rfl, .missed (undelivered_letters _) _, rfl⟩
  | @mailed pc turn request move | @returned pc turn request move =>
    exact ⟨turn.spawned.map worker, by simp, .mailbox move inside.1 inside.2, rfl⟩
  | @moved r b next workers move =>
    obtain ⟨aside, idle⟩ := move.aside inside idle
    exact ⟨workers, rfl, aside, idle⟩
  | resumed position | spawnedChild position =>
    have holder : Goroutine.holds (.proc _) = true := receiving_holds inside position
    rw [holder] at idle
    contradiction

/-- With the right to the mailbox nothing is spawned but the goroutine itself goes on. -/
theorem Advance.occupied {a : Actor M W} (holder : g.holds = true)
    (advance : Advance a g action b next spawned) : spawned = [] := by
  cases advance with
  | mailed | returned => cases holder
  | moved move =>
    rw [move.occupied holder]
    rfl
  | _ => rfl

theorem Advance.inside {a : Actor M W} (inside : a.Inside g)
    (permitted : a.permits g action = true) (advance : Advance a g action b next spawned) :
    ∀ h ∈ next :: spawned, b.Inside h := by
  have workers {pc} {turn : Inbox.Turn (Envelope M)} (move : Inbox.Move a.inbox pc turn) :
      ∀ h ∈ turn.spawned.map fun pc => Goroutine.proc (worker pc), (a.record pc turn).Inside h := by
    intro h member
    obtain ⟨pc, started, rfl⟩ := List.mem_map.mp member
    exact worker_sound (worker_placed move) (by simp) _ (List.mem_map_of_mem started)
  cases advance with
  | accepted =>
    simp only [List.mem_singleton]
    rintro h rfl
    obtain ⟨graceful, ctx, rfl⟩ := inside
    rintro e served ⟨⟩ ⟨⟩
    exact ⟨List.mem_append_right _ List.mem_cons_self, rfl⟩
  | rejected | missing => simp [Inside]
  | @found request =>
    simp only [List.mem_singleton]
    rintro h rfl
    refine ⟨?_, inside⟩
    cases request <;> rfl
  | @mailed pc turn request move notDone =>
    refine List.forall_mem_cons.mpr ⟨?_, workers move⟩
    cases move with
    | push | pushFront | again => exact ⟨rfl, nofun⟩
    | won | lost | clear | finished => exact absurd rfl notDone
    | _ => cases inside.1
  | returned move => exact List.forall_mem_cons.mpr ⟨trivial, workers move⟩
  | @moved r b next spawned move =>
    have calm : r.act.atPill = true → r.replays = 0 := by
      intro pill
      simpa [permits, pill] using permitted
    obtain ⟨moved, fresh⟩ := move.sound inside calm
    refine List.forall_mem_cons.mpr ⟨moved, ?_⟩
    intro h member
    obtain ⟨w, started, rfl⟩ := List.mem_map.mp member
    exact fresh w started
  | @resumed r outcome site position =>
    obtain ⟨base, replays, act⟩ := r
    subst position
    simp only [List.mem_singleton]
    rintro h rfl
    exact resume_sound inside rfl permitted
  | @spawnedChild r child site position =>
    obtain ⟨base, replays, act⟩ := r
    subst position
    simp only [List.mem_singleton]
    rintro h rfl
    have sound : Routine.Sound a _ := inside
    exact ⟨sound.placed, sound.spared, nofun⟩

theorem Inside.occupied {a : Actor M W} {g : Goroutine M} (inside : a.Inside g)
    (holder : g.holds = true) : a.inbox.procStatus.vacant = 0 := by
  cases g with
  | caller => cases holder
  | proc r =>
    have busy := (Routine.Sound.placed inside).occupied holder
    cases status : a.inbox.procStatus with
    | idle => exact absurd status busy
    | _ => rfl

/-- The token is passed on, never copied. -/
theorem Advance.conserved {a : Actor M W} (inside : a.Inside g)
    (permitted : a.permits g action = true) (advance : Advance a g action b next spawned) :
    (next :: spawned).countP Goroutine.holds + b.inbox.procStatus.vacant ≤
      (if g.holds then 1 else 0) + a.inbox.procStatus.vacant := by
  rw [List.countP_cons]
  by_cases holder : g.holds = true
  · have arrived := advance.inside inside permitted next (by simp)
    rw [advance.occupied holder, if_pos holder, List.countP_nil]
    by_cases kept : next.holds = true
    · rw [if_pos kept, arrived.occupied kept]
      omega
    · rw [if_neg kept]
      cases b.inbox.procStatus <;> simp [Status.vacant]
  · obtain ⟨workers, rfl, aside, idle⟩ := advance.aside inside (Bool.not_eq_true _ ▸ holder)
    rw [if_neg holder, idle]
    rcases aside.status with ⟨same, rfl⟩ | ⟨ready, running, rfl⟩
    · simp [same]
    · simp [ready, running, Status.vacant, Goroutine.holds, worker, Act.stage, Inbox.Pc.loopStage,
        Stage.holds]

/-- Goroutines that cannot have moved keep what they rely on. -/
theorem Advance.framed {a : Actor M W} {g h : Goroutine M} (inside : a.Inside g)
    (advance : Advance a g action b next spawned) (other : a.Inside h)
    (exclusive : h.holds = true → g.holds = false) : b.Inside h := by
  by_cases holder : h.holds = true
  · obtain ⟨workers, -, aside, -⟩ := advance.aside inside (exclusive holder)
    exact other.aside aside
  · exact other.idle advance.grows (Bool.not_eq_true _ ▸ holder)

end Actor

namespace Engine
variable {M W : Type} [Inhabited M] {i : Nat}

/-- Runs in which every call of the receiver ends as `judge` allows. -/
def judged (judge : Actor M W → Site M → Outcome → Bool) (s : State M W) : Label M → Bool
  | .act i (.receive outcome) =>
    match s.pool[i]? with
    | some (.proc ⟨_, _, .receiving site⟩) => judge s.actor site outcome
    | _ => true
  | _ => true

/-- Runs in which no pill is met in the retry buffer of a restart. -/
def replaysNoPill (s : State M W) : Label M → Bool
  | .act i .step =>
    match s.pool[i]? with
    | some (.proc r) => !r.act.atPill || r.replays = 0
    | _ => true
  | _ => true

def disciplined (s : State M W) (label : Label M) : Bool :=
  judged Actor.endures s label && replaysNoPill s label

theorem disciplined_permits {s : State M W} (allowed : disciplined s (.act i action) = true)
    (found : s.pool[i]? = some g) : s.actor.permits g action = true := by
  rw [disciplined, Bool.and_eq_true] at allowed
  cases g with
  | caller request pc => cases action <;> rfl
  | proc r =>
    cases action with
    | step => simpa [replaysNoPill, found, Actor.permits] using allowed.2
    | spawnChild child => rfl
    | receive outcome =>
      obtain ⟨base, replays, act⟩ := r
      cases act with
      | receiving site => simpa [judged, found, Actor.permits] using allowed.1
      | _ => rfl

/-- What the holder of the right to the mailbox knows, and what holds while
nobody has it, kept by the admitted steps of the holder and by what others do. -/
structure Account (admits : Actor M W → Goroutine M → Action → Bool)
    (knows : Actor M W → Goroutine M → Prop) (rest : Actor M W → Prop) : Prop where
  permitted : ∀ {a g action}, a.Inside g → (g.holds = true → knows a g) →
    admits a g action = true → a.permits g action = true
  kept : ∀ {a b g action next}, a.Inside g → g.holds = true → knows a g →
    admits a g action = true → a.Advance g action b next [] →
    if next.holds then knows b next else rest b
  aside : ∀ {a b g}, a.Aside b [] → knows a g → knows b g
  resting : ∀ {a b}, a.Aside b [] → rest a → rest b
  taken : ∀ {a b}, a.Aside b [Actor.worker .load] → rest a →
    knows b (.proc (Actor.worker .load))
  orphaned : ∀ {a g} child, knows a g → knows (a.deleteChild child) g
  settled : ∀ {a} child, rest a → rest (a.deleteChild child)

def Ordered (knows : Actor M W → Goroutine M → Prop) (rest : Actor M W → Prop) (s : State M W) :
    Prop :=
  Pool.Guarded Goroutine.holds (fun a : Actor M W => a.inbox.procStatus.vacant)
    (fun a g => a.Inside g ∧ (g.holds = true → knows a g)) rest s.actor s.pool

section
variable {admits : Actor M W → Goroutine M → Action → Bool}
  {knows : Actor M W → Goroutine M → Prop} {rest : Actor M W → Prop}

theorem Ordered.advance {s : State M W} (account : Account admits knows rest)
    (ordered : Ordered knows rest s) (found : s.pool[i]? = some g)
    (admitted : admits s.actor g action = true)
    (advance : s.actor.Advance g action b next spawned) :
    Ordered knows rest { s with actor := b, pool := s.pool.set i next ++ spawned } := by
  have current := ordered.inside g (List.mem_of_getElem? found)
  have permitted := account.permitted current.1 current.2 admitted
  refine Pool.Guarded.step ordered found (fun inside => advance.conserved inside.1 permitted)
    ?_ ?_ ?_
  · rintro ⟨inside, known⟩ free h member
    refine ⟨advance.inside inside permitted h member, fun holder => ?_⟩
    by_cases mover : g.holds = true
    · obtain rfl := advance.occupied mover
      obtain rfl := List.mem_singleton.mp member
      simpa only [holder, if_true] using account.kept inside mover (known mover) admitted advance
    · obtain ⟨workers, rfl, aside, idle⟩ := advance.aside inside (Bool.not_eq_true _ ▸ mover)
      rcases List.mem_cons.mp member with rfl | started
      · rw [idle] at holder
        contradiction
      · rcases aside.status with ⟨-, rfl⟩ | ⟨ready, -, rfl⟩
        · cases started
        · obtain rfl := List.mem_singleton.mp started
          exact account.taken aside (free (by simp [ready, Status.vacant]))
  · rintro ⟨inside, known⟩ quiet none
    rw [List.countP_cons] at none
    by_cases mover : g.holds = true
    · obtain rfl := advance.occupied mover
      have kept := account.kept inside mover (known mover) admitted advance
      by_cases holder : next.holds = true
      · simp [holder] at none
      · rwa [if_neg holder] at kept
    · rw [Bool.not_eq_true] at mover
      obtain ⟨workers, rfl, aside, idle⟩ := advance.aside inside mover
      rcases aside.status with ⟨-, rfl⟩ | ⟨-, -, rfl⟩
      · exact account.resting aside (quiet mover)
      · simp [Goroutine.holds, Actor.worker, Act.stage, Inbox.Pc.loopStage, Stage.holds] at none
  · rintro h ⟨inside, known⟩ exclusive
    refine ⟨advance.framed current.1 inside exclusive, fun holder => ?_⟩
    obtain ⟨workers, rfl, aside, idle⟩ := advance.aside current.1 (exclusive holder)
    rcases aside.status with ⟨-, rfl⟩ | ⟨ready, -, rfl⟩
    · exact account.aside aside (known holder)
    · have occupied := inside.occupied holder
      simp [ready, Status.vacant] at occupied

theorem inside_orphaned {a : Actor M W} {g : Goroutine M} (child : PID) (inside : a.Inside g) :
    (a.deleteChild child).Inside g := by
  cases g with
  | caller request pc => exact Actor.inside_caller (List.Subset.refl a.accepted) inside
  | proc r =>
    have sound : r.Sound a := inside
    exact ⟨sound.placed, sound.spared,
      fun size sized => (List.length_filter_le _ _).trans (sound.fits size sized)⟩

theorem Ordered.step {discipline : State M W → Label M → Bool} {s t : State M W}
    (account : Account admits knows rest)
    (admitted : ∀ {s : State M W} {i action g}, discipline s (.act i action) = true →
      s.pool[i]? = some g → admits s.actor g action = true) (ordered : Ordered knows rest s)
    (stepped : restrict discipline State.step s label = some t) :
    Ordered knows rest t := by
  obtain ⟨allowed, stepped⟩ := restrict_some stepped
  rcases step_cases stepped with ⟨call, rfl, rfl⟩ | ⟨child, rfl, rfl⟩ |
    ⟨i, action, g, b, next, spawned, rfl, found, advance, rfl⟩
  · refine Pool.Guarded.join ordered rfl ⟨?_, nofun⟩
    cases call with
    | stop | poison => exact ⟨_, _, rfl⟩
    | clearMailbox => exact nofun
    | send msg sender | sendPriority msg sender =>
      rintro e ctx ⟨⟩ pill
      cases pill
  · refine Pool.Guarded.change ordered rfl ?_ (account.settled child)
    rintro h ⟨inside, known⟩
    exact ⟨inside_orphaned child inside, fun holder => account.orphaned child (known holder)⟩
  · exact ordered.advance account found (admitted allowed found) advance

theorem ordered_initial (opts : Opts W) (positive : 0 < opts.inboxSize) (parent : Bool)
    (known : knows (Actor.new opts positive parent) (.proc ⟨.spawner, 0, .start⟩)) :
    Ordered knows rest (initial opts positive parent) where
  exclusive := Nat.le_refl 1
  inside := by
    simp only [initial, List.mem_singleton]
    rintro g rfl
    exact ⟨⟨.boot, nofun, nofun⟩, fun _ => known⟩
  rest := nofun

end

omit [Inhabited M] in
theorem inLoop_stage {act : Act M} (inLoop : act.inLoop = true) :
    act.stage ≠ .rescheduling ∧ act.stage ≠ .gone := by
  cases act with
  | loop pc =>
    cases pc with
    | load | popN | invoke msgs => exact ⟨nofun, nofun⟩
    | _ => cases inLoop
  | inboxStart pc => cases pc <;> exact ⟨nofun, nofun⟩
  | receiving site =>
    cases site with
    | cleanup reason => cases reason <;> exact ⟨nofun, nofun⟩
    | _ => exact ⟨nofun, nofun⟩
  | returned | panicked v => cases inLoop
  | cleanup reason | childrenLen reason | makeChildren reason | fillChildren reason size
  | poison reason rest | stopInbox reason | unregister reason | stopping reason | cancel reason =>
    cases reason <;> exact ⟨nofun, nofun⟩
  | _ => exact ⟨nofun, nofun⟩

theorem inLoop_holds {a : Actor M W} {g : Goroutine M} (inside : a.Inside g)
    (inLoop : g.inLoop = true) : g.holds = true := by
  cases g with
  | caller request pc => cases inLoop
  | proc r =>
    obtain ⟨base, replays, act⟩ := r
    have placed := Routine.Sound.placed inside
    simp only [Goroutine.inLoop, Bool.and_eq_true, decide_eq_true_eq] at inLoop
    obtain ⟨rfl, inLoop⟩ := inLoop
    obtain ⟨busy, present⟩ := inLoop_stage inLoop
    change act.stage.holds = true
    generalize a.inbox.procStatus = status at placed
    generalize a.mbuffer = buffer at placed
    generalize act.stage = stage at placed busy present
    cases placed with
    | reschedule => exact absurd rfl busy
    | gone => exact absurd rfl present
    | _ => rfl

theorem plain_account :
    Account Actor.permits (fun (_ : Actor M W) _ => True) (fun _ => True) where
  permitted _ _ admitted := admitted
  kept _ _ _ _ _ := by split <;> trivial
  aside _ _ := trivial
  resting _ _ := trivial
  taken _ _ := trivial
  orphaned _ _ := trivial
  settled _ _ := trivial

/-- At most one goroutine is in the mailbox loop of an actor, whatever calls
interleave with its workers and whichever messages but Stopped make the receiver
panic within the budget, as long as no pill is met in a retry buffer. -/
theorem at_most_one_worker (opts : Opts W) (positive : 0 < opts.inboxSize) (parent : Bool)
    (s : State M W)
    (reached : Reaches (restrict disciplined State.step) (initial opts positive parent) s) :
    s.pool.countP Goroutine.inLoop ≤ 1 := by
  have ordered := reached.invariant (Ordered.step plain_account disciplined_permits)
    (ordered_initial opts positive parent trivial)
  have exclusive := ordered.exclusive
  have fewer : s.pool.countP Goroutine.inLoop ≤ s.pool.countP Goroutine.holds :=
    List.countP_mono_left fun g member => inLoop_holds (ordered.inside g member).1
  omega

theorem inProcess_holds {a : Actor M W} {g : Goroutine M} (inside : a.Inside g)
    (inProcess : g.inProcess = true) : g.holds = true := by
  cases g with
  | caller request pc => cases inProcess
  | proc r =>
    obtain ⟨base, replays, act⟩ := r
    have placed := Routine.Sound.placed inside
    cases act with
    | loop pc | inboxStart pc | returned | panicked v => cases inProcess
    | receiving site => exact Actor.receiving_holds inside rfl
    | cleanup reason | childrenLen reason | makeChildren reason | fillChildren reason size
    | poison reason rest | stopInbox reason | unregister reason | stopping reason | cancel reason =>
      cases reason with
      | pill f ctx => rfl
      | limit => exact absurd placed Routine.Placed.not_astray
    | _ => rfl

/-- Runs in which one goroutine at a time is inside the process. -/
def alone (s : State M W) (_ : Label M) : Bool := s.pool.countP Goroutine.inProcess ≤ 1

/-- What keeps a second worker away keeps every goroutine but one out of the process. -/
theorem alone_of_disciplined {opts : Opts W} {positive : 0 < opts.inboxSize} {s : State M W}
    (reached : Reaches (restrict disciplined State.step) (initial opts positive parent) s) :
    Reaches (restrict alone State.step) (initial opts positive parent) s := by
  induction reached with
  | refl => exact .refl _
  | @next s label t earlier stepped ih =>
    have ordered := earlier.invariant (Ordered.step plain_account disciplined_permits)
      (ordered_initial opts positive parent trivial)
    have fewer : s.pool.countP Goroutine.inProcess ≤ s.pool.countP Goroutine.holds :=
      List.countP_mono_left fun g member => inProcess_holds (ordered.inside g member).1
    have single : alone s label = true := by
      have exclusive := ordered.exclusive
      exact decide_eq_true (by omega)
    refine .next ih (l := label) ?_
    rw [restrict, if_pos single]
    exact (restrict_some stepped).2

/-- Panics come from user messages only, within the budget. -/
def userPanics (s : State M W) (label : Label M) : Bool :=
  judged Actor.endures s label &&
    judged (fun _ site outcome => site.user || outcome = .returns) s label

def steps (goroutine count : Nat) : List (Label M) := List.replicate count (.act goroutine .step)

def returns (goroutine : Nat) : Label M := .act goroutine (.receive .returns)

/-- A message that panics and a pill arrive in one batch. -/
def pillBehindPanic : List (Label Nat) :=
  [.call (.send 1 none), .call .stop] ++ steps 1 3 ++ steps 2 4 ++
    steps 0 1 ++ [returns 0, returns 0] ++ steps 0 3 ++
    steps 3 4 ++ [.act 3 (.receive (.panics .error))] ++ steps 3 1 ++ [returns 3] ++
    steps 3 4 ++ [returns 3, returns 3] ++ steps 3 6 ++ [returns 3] ++ steps 3 5

theorem two_workers_after_replayed_pill :
    ∃ s : State Nat Nat,
      Reaches (restrict userPanics State.step)
        (initial ⟨3, 1, []⟩ Nat.one_pos false) s ∧
      s.pool.countP Goroutine.inLoop = 2 := by
  obtain ⟨s, reached, ends⟩ := exists_of_run
    (restrict userPanics State.step) (initial ⟨3, 1, []⟩ Nat.one_pos false)
    pillBehindPanic (fun s : State Nat Nat => s.pool.countP Goroutine.inLoop = 2) (by decide)
  exact ⟨s, reached, of_decide_eq_true ends⟩

theorem at_most_one_worker_restarted :
    ∃ s : State Nat Nat, s.actor.restarts = 1 ∧ s.pool.countP Goroutine.inLoop ≤ 1 := by
  obtain ⟨s, reached, ends⟩ := exists_of_run
    (restrict disciplined State.step) (initial ⟨3, 1, []⟩ Nat.one_pos false)
    (pillBehindPanic.take 28) (fun s : State Nat Nat => s.actor.restarts = 1) (by decide)
  exact ⟨s, of_decide_eq_true ends, at_most_one_worker ⟨3, 1, []⟩ Nat.one_pos false s reached⟩

end Engine
end Hollywood
