import Hollywood.Engine.Calm
import Hollywood.Process.Pills

/-! The contexts of stop requests. A call that finds the actor gone cancels its
context at once. A call that finds it sends a pill, and `cleanup` cancels the
context of one pill, the one it runs for; pills that come with it in the batch or
stay in the mailbox are dropped with their contexts open. -/
namespace Hollywood
open Transition
variable {M W : Type} [Inhabited M]

theorem Routine.Confined.imp {a b : Actor M W} {r : Routine M} {allowed more : Nat → Prop}
    (confined : r.Confined allowed a) (weaker : ∀ ctx, allowed ctx → more ctx)
    (cancelled : b.cancelled = a.cancelled) (buffer : b.mbuffer = a.mbuffer) :
    r.Confined more b where
  cancelled ctx member := weaker ctx (confined.cancelled ctx (cancelled ▸ member))
  held e member ctx pill := weaker ctx (confined.held e (buffer ▸ member) ctx pill)
  serves ctx served := weaker ctx (confined.serves ctx served)

namespace Actor

/-- The pills in the mailbox come from calls that found the actor. -/
def Franked (a : Actor M W) : Prop :=
  ∀ e ∈ a.inbox.rb.toList, ∀ ctx, e.context = some ctx → ctx ∈ a.accepted

theorem record_franked {a : Actor M W} (franked : a.Franked) (vouched : a.vouches pc)
    (move : Inbox.Move a.inbox pc turn) : (a.record pc turn).Franked := by
  intro e member ctx pill
  cases move with
  | @push msg =>
    simp only [record, Inbox.ring_toList, Deque.perform] at member
    rcases List.mem_append.mp member with queued | new
    · exact franked e queued ctx pill
    · obtain rfl := List.mem_singleton.mp new
      exact (vouched e ctx rfl pill).1
  | @pushFront msg =>
    simp only [record, Inbox.ring_toList, Deque.perform] at member
    rcases List.mem_cons.mp member with rfl | queued
    · exact (vouched e ctx rfl pill).1
    · exact franked e queued ctx pill
  | batch | empty =>
    rw [record, Inbox.ring_popN] at member
    exact franked e (List.mem_of_mem_drop member) ctx pill
  | clear =>
    simp only [record, Inbox.ring_toList, Deque.perform] at member
    cases member
  | _ => exact franked e member ctx pill

/-- The owner of the mailbox puts nothing into it. -/
theorem owner_vouches {a : Actor M W} {r : Routine M} (sound : r.Sound a)
    (position : r.act = .loop pc ∨ r.act = .inboxStart pc) : a.vouches pc := by
  obtain ⟨base, replays, act⟩ := r
  have placed := sound.placed
  intro e ctx letter
  cases pc with
  | push | pushFront => rcases position with rfl | rfl <;> exact absurd placed Routine.Placed.not_astray
  | _ => cases letter

theorem Move.franked {a : Actor M W} {r : Routine M} (sound : r.Sound a) (franked : a.Franked)
    (move : Move a r b next spawned) : b.Franked := by
  cases move with
  | looped position move | left position move =>
    exact record_franked franked (owner_vouches sound (.inl position)) move
  | inboxStarting position move | inboxStarted position move =>
    exact record_franked franked (owner_vouches sound (.inr position)) move
  | @fillPanics reason => cases reason <;> exact franked
  | _ => exact franked

theorem resume_franked {a : Actor M W} (franked : a.Franked) (r : Routine M) (site : Site M) :
    (a.resume r site .returns).1.Franked := by
  cases site with
  | started =>
    simp only [resume]
    split <;> exact franked
  | _ => exact franked

theorem Aside.franked {a : Actor M W} (franked : a.Franked) (aside : Aside a b spawned) :
    b.Franked := by
  cases aside with
  | mailbox move outer vouched => exact record_franked franked vouched move
  | lookup => exact fun e member ctx pill => List.mem_append_left _ (franked e member ctx pill)

def Unstopped (a : Actor M W) : Prop := a.cancelled = [] ∧ ¬ a.finished

/-- What the status of the inbox tells once nobody is in the process. -/
def Settled (a : Actor M W) : Prop :=
  if a.inbox.procStatus = .stopped then ∃ ctx, a.cancelled = [ctx] else a.Unstopped

/-- How far the stop has come. -/
def Phase (a : Actor M W) : Act M → Prop
  | .cancel _ => a.cancelled = []
  | .loop .load | .loop .toIdle => a.Settled
  | _ => a.Unstopped

theorem settled_running {a : Actor M W} (running : a.inbox.procStatus ≠ .stopped) :
    a.Settled ↔ a.Unstopped := by
  simp [Settled, running]

theorem Proceeds.phase {a : Actor M W} {act : Act M} (phase : a.Phase act)
    (proceeds : Proceeds a act b next) :
    if next.stage.holds then b.Phase next else b.Settled := by
  cases proceeds with
  | enter running => exact (settled_running running).mp phase
  | empty running => exact (settled_running (by simp [record, running])).mpr phase
  | released running =>
    simp only [Act.stage, Inbox.Pc.loopStage, Stage.holds, Bool.false_eq_true, if_false]
    have unstopped : a.Unstopped := (settled_running (by simp [running])).mp phase
    exact (settled_running (by simp [record])).mpr unstopped
  | started =>
    simp only [Act.stage, Inbox.Pc.startStage, Stage.holds, Bool.false_eq_true, if_false]
    exact (settled_running (by simp [record])).mpr phase
  | refused running | invokeEnd running => exact (settled_running (by simp [record, running])).mpr phase
  | cancel stopped =>
    have none : a.cancelled = [] := phase
    simp [Act.stage, Inbox.Pc.loopStage, Stage.holds, Phase, Settled, stopped, none]
  | _ => exact phase

theorem resume_phase {a : Actor M W} {r : Routine M} (sound : r.Sound a) (untroubled : r.Untroubled a)
    (phase : a.Phase r.act) (position : r.act = .receiving site) :
    if (a.resume r site .returns).2.act.stage.holds then
      (a.resume r site .returns).1.Phase (a.resume r site .returns).2.act
    else (a.resume r site .returns).1.Settled := by
  obtain ⟨base, replays, act⟩ := r
  subst position
  obtain ⟨none, running⟩ : a.Unstopped := phase
  cases site with
  | initialized => exact ⟨none, by simpa [finished, broadcast, resume, deliver] using running⟩
  | started =>
    simp only [resume, untroubled.empty, List.length_nil, gt_iff_lt, lt_self_iff_false, if_false]
    exact ⟨none, by simpa [finished, broadcast] using running⟩
  | message f | flush f rest ctx => exact ⟨none, running⟩
  | crashedInvoke f v | crashedStart v => cases untroubled.steady
  | cleanup reason =>
    cases reason with
    | pill f ctx => exact none
    | limit => exact absurd sound.placed Routine.Placed.not_astray

theorem Aside.unstopped {a : Actor M W} (aside : Aside a b spawned) (unstopped : a.Unstopped) :
    b.Unstopped := by
  refine ⟨?_, fun done => unstopped.2 (aside.finished.mp done)⟩
  rw [aside.same]
  exact unstopped.1

theorem Aside.settled {a : Actor M W} (aside : Aside a b []) (settled : a.Settled) : b.Settled := by
  unfold Settled at settled ⊢
  rw [aside.still]
  split
  · rw [if_pos (by assumption)] at settled
    rwa [aside.same]
  · rw [if_neg (by assumption)] at settled
    exact aside.unstopped settled

theorem Aside.phase {a : Actor M W} {act : Act M} (aside : Aside a b []) (phase : a.Phase act) :
    b.Phase act := by
  cases act with
  | cancel reason =>
    rw [aside.same]
    exact phase
  | loop pc =>
    cases pc with
    | load | toIdle => exact aside.settled phase
    | _ => exact aside.unstopped phase
  | _ => exact aside.unstopped phase

/-- What holds while nobody is in the process: the pills in the mailbox and the
contexts that were cancelled are those of calls that found the actor. -/
structure Resting (a : Actor M W) : Prop where
  franked : a.Franked
  cancelled : ∀ ctx ∈ a.cancelled, ctx ∈ a.accepted
  settled : a.Settled

end Actor

/-- What the owner of the mailbox knows about the stop requests. -/
structure Routine.Accountable (a : Actor M W) (r : Routine M) : Prop where
  franked : a.Franked
  confined : r.Confined (· ∈ a.accepted) a
  phase : a.Phase r.act

namespace Engine

def Accountable (a : Actor M W) : Goroutine M → Prop
  | .caller _ _ => True
  | .proc r => r.Accountable a

theorem accountable_or_resting {b : Actor M W} {r : Routine M} (franked : b.Franked)
    (confined : r.Confined (· ∈ b.accepted) b)
    (phase : if r.act.stage.holds then b.Phase r.act else b.Settled) :
    if (Goroutine.proc r).holds then Accountable b (.proc r) else b.Resting := by
  by_cases holder : r.act.stage.holds = true
  · rw [if_pos holder] at phase
    rw [if_pos (by exact holder)]
    exact ⟨franked, confined, phase⟩
  · rw [if_neg holder] at phase
    rw [if_neg (by exact holder)]
    exact ⟨franked, confined.cancelled, phase⟩

theorem advance_accountable {a : Actor M W} {g : Goroutine M} (inside : a.Inside g)
    (holder : g.holds = true) (untroubled : Untroubled a g) (known : Accountable a g)
    (calm : action.calm = true) (advance : a.Advance g action b next spawned) :
    if next.holds then Accountable b next else b.Resting := by
  cases advance with
  | accepted | rejected | found | missing | mailed | returned => cases holder
  | @moved r b next spawned move =>
    obtain ⟨franked, confined, phase⟩ := known
    have moved := move.confined confined fun _ _ => franked
    rw [← move.requests.1] at moved
    exact accountable_or_resting (move.franked inside franked) moved
      ((move.proceeds inside untroubled holder).phase phase)
  | @resumed r outcome site position =>
    obtain ⟨franked, confined, phase⟩ := known
    cases outcome with
    | panics v => cases calm
    | returns =>
      have resumed := Actor.resume_confined confined position .returns fun panicked => absurd rfl panicked
      rw [← (Actor.resume_requests a r site .returns).1] at resumed
      exact accountable_or_resting (Actor.resume_franked franked r site) resumed
        (Actor.resume_phase inside untroubled phase position)
  | @spawnedChild r child site position =>
    obtain ⟨franked, confined, phase⟩ := known
    rw [if_pos holder]
    refine ⟨franked, confined.imp (fun _ taken => taken) rfl rfl, ?_⟩
    obtain ⟨base, replays, act⟩ := r
    subst position
    exact phase

theorem stop_account : Account (fun (_ : Actor M W) _ action => action.calm)
    (fun a g => Untroubled a g ∧ Accountable a g) (fun a => a.mbuffer = [] ∧ a.Resting) := by
  refine calm_account.extend advance_accountable ?_ ?_ ?_ ?_ ?_
  · rintro a b (request | r) aside known
    · trivial
    · have same := aside.same
      exact ⟨aside.franked known.franked,
        known.confined.imp (fun _ taken => aside.accepted taken) (by rw [same]) (by rw [same]),
        aside.phase known.phase⟩
  · intro a b aside resting
    refine ⟨aside.franked resting.franked, ?_, aside.settled resting.settled⟩
    intro ctx member
    rw [aside.same] at member
    exact aside.accepted (resting.cancelled ctx member)
  · intro a b aside resting
    obtain ⟨idle, running⟩ := aside.woken
    refine ⟨aside.franked resting.franked, ⟨?_, List.forall_mem_nil _, nofun⟩, ?_⟩
    · intro ctx member
      rw [aside.same] at member
      exact aside.accepted (resting.cancelled ctx member)
    · have unstopped : a.Unstopped := (Actor.settled_running (by simp [idle])).mp resting.settled
      exact (Actor.settled_running (by simp [running])).mpr (aside.unstopped unstopped)
  · rintro a (request | r) child known
    · trivial
    · exact ⟨known.franked, known.confined.imp (fun _ taken => taken) rfl rfl, known.phase⟩
  · intro a child resting
    exact ⟨resting.franked, resting.cancelled, resting.settled⟩

/-- Runs without panics, with what is known of the stop requests. -/
def Watched : State M W → Prop :=
  Ordered (fun a g => Untroubled a g ∧ Accountable a g) (fun a => a.mbuffer = [] ∧ a.Resting)

end Engine

/-- The context of a call that has yet to look the actor up. -/
def Goroutine.pending : Goroutine M → List Nat
  | .caller request .sendPoisonPill => request.contexts
  | _ => []

def Goroutine.done : Goroutine M → Bool
  | .caller _ .returned | .proc ⟨_, _, .returned⟩ => true
  | _ => false

/-- The context has been cancelled. -/
def Actor.completed (a : Actor M W) (ctx : Nat) : Prop := ctx ∈ a.cancelled ∨ ctx ∈ a.refused

instance (a : Actor M W) (ctx : Nat) : Decidable (a.completed ctx) :=
  inferInstanceAs (Decidable (ctx ∈ a.cancelled ∨ ctx ∈ a.refused))

namespace Engine

/-- Every context is with the call it was made for, or the call found the actor,
or it did not. -/
def Issued (s : State M W) : Prop :=
  (s.pool.flatMap Goroutine.pending ++ (s.actor.accepted ++ s.actor.refused)).Perm
    (List.range s.contexts)

theorem issued_call {s : State M W} (issued : Issued s) (call : Call M) : Issued (s.call call) := by
  cases call with
  | send msg sender | sendPriority msg sender | clearMailbox =>
    simpa [Issued, State.call, Call.request, Request.entry, Request.contexts, Goroutine.pending]
      using issued
  | stop | poison =>
    simp only [Issued, State.call, Call.request, Request.entry, Request.contexts, Goroutine.pending,
      List.flatMap_append, List.flatMap_cons, List.flatMap_nil, List.append_nil, List.length_singleton,
      List.range_succ]
    refine (List.perm_iff_count.mpr fun ctx => ?_).trans (issued.append_right [s.contexts])
    simp only [List.count_append]
    omega

omit [Inhabited M] in
/-- The first lookup of a stop request decides what becomes of its context. -/
theorem issued_lookup {pool : List (Goroutine M)} {request : Request M} {i : Nat}
    (found : pool[i]? = some (.caller request .sendPoisonPill)) {accepted refused : List Nat}
    (issued : (pool.flatMap Goroutine.pending ++ (accepted ++ refused)).Perm all)
    (next : CallPc M) (past : Goroutine.pending (.caller request next) = []) :
    ((pool.set i (.caller request next) ++ []).flatMap Goroutine.pending ++
      (accepted ++ request.contexts ++ refused)).Perm all ∧
    ((pool.set i (.caller request next) ++ []).flatMap Goroutine.pending ++
      (accepted ++ (refused ++ request.contexts))).Perm all := by
  obtain ⟨before, after, rfl, replaced⟩ := Pool.split found
  rw [replaced]
  have mine : Goroutine.pending (.caller request .sendPoisonPill) = request.contexts := rfl
  constructor <;>
  · refine (List.perm_iff_count.mpr fun ctx => ?_).trans issued
    simp only [List.append_nil, List.flatMap_append, List.flatMap_cons, past, mine, List.nil_append,
      List.count_append]
    omega

theorem issued_step {s t : State M W} (issued : Issued s) (stepped : s.step label = some t) :
    Issued t := by
  rcases step_cases stepped with ⟨call, rfl, rfl⟩ | ⟨child, rfl, rfl⟩ |
    ⟨i, action, g, b, next, spawned, rfl, found, advance, rfl⟩
  · exact issued_call issued call
  · exact issued
  · have fresh : spawned.flatMap Goroutine.pending = [] := by
      rw [List.flatMap_eq_nil_iff]
      intro h member
      obtain ⟨r, rfl⟩ := advance.spawns h member
      rfl
    have kept (same : next.pending = g.pending)
        (requests : b.accepted = s.actor.accepted ∧ b.refused = s.actor.refused) :
        Issued { s with actor := b, pool := s.pool.set i next ++ spawned } := by
      unfold Issued
      dsimp only
      rwa [Pool.flatMap_step Goroutine.pending found next spawned same fresh, requests.1, requests.2]
    cases advance with
    | accepted => exact (issued_lookup found issued .lookup rfl).1
    | rejected => exact (issued_lookup found issued .returned rfl).2
    | found | missing | mailed | returned | spawnedChild => exact kept rfl ⟨rfl, rfl⟩
    | moved move => exact kept rfl move.requests
    | resumed => exact kept rfl (Actor.resume_requests _ _ _ _)

/-- Every goroutine has returned. -/
def State.quiescent (s : State M W) : Bool := s.pool.all Goroutine.done

theorem quiescent_pending {s : State M W} (quiet : s.quiescent = true) :
    s.pool.flatMap Goroutine.pending = [] ∧ s.pool.countP Goroutine.holds = 0 := by
  have done := List.all_eq_true.mp quiet
  rw [List.flatMap_eq_nil_iff, List.countP_eq_zero]
  constructor <;> intro g member <;> have ended := done g member
  · cases g with
    | caller request pc => cases pc <;> first | rfl | cases ended
    | proc r => rfl
  · cases g with
    | caller request pc => exact nofun
    | proc r =>
      obtain ⟨base, replays, act⟩ := r
      cases act with
      | returned => exact nofun
      | _ => cases ended

/-- Where everybody has returned after a `cleanup`, one context of a pill is
cancelled and the other pills have left theirs open. -/
theorem completed_iff {s : State M W} (issued : Issued s) (watched : Watched s)
    (quiet : s.quiescent = true) (finished : s.actor.finished) :
    (∀ ctx < s.contexts, s.actor.completed ctx) ↔ s.actor.accepted.length ≤ 1 := by
  obtain ⟨none, idle⟩ := quiescent_pending quiet
  have resting := (watched.rest idle).2
  obtain ⟨ctx, cancelled⟩ : ∃ ctx, s.actor.cancelled = [ctx] := by
    have settled := resting.settled
    unfold Actor.Settled at settled
    split at settled
    · exact settled
    · exact absurd finished settled.2
  have taken : ctx ∈ s.actor.accepted := resting.cancelled ctx (by simp [cancelled])
  unfold Issued at issued
  rw [none, List.nil_append] at issued
  have distinct : (s.actor.accepted ++ s.actor.refused).Nodup :=
    issued.nodup_iff.mpr List.nodup_range
  constructor
  · intro all
    have only : ∀ other ∈ s.actor.accepted, other = ctx := by
      intro other member
      have made := List.mem_range.mp (issued.mem_iff.mp (List.mem_append_left _ member))
      rcases all other made with served | refused
      · simpa [cancelled] using served
      · exact absurd refused ((List.nodup_append'.mp distinct).2.2 member)
    have few : s.actor.accepted.length ≤ [ctx].length := by
      refine (List.nodup_append'.mp distinct).1.length_le_of_subset ?_
      intro other member
      exact List.mem_singleton.mpr (only other member)
    exact few
  · intro few other made
    rcases List.mem_append.mp (issued.mem_iff.mpr (List.mem_range.mpr made)) with member | refused
    · left
      obtain ⟨sole, same⟩ := List.length_eq_one_iff.mp (le_antisymm few (List.length_pos_of_mem taken))
      rw [same, List.mem_singleton] at member taken
      rw [cancelled, member, taken]
      exact List.mem_singleton_self _
    · exact .inr refused

/-- A call finds the actor only when no stop request has found it before. -/
def firstStop (s : State M W) : Label M → Bool
  | .act i .step =>
    match s.pool[i]? with
    | some (.caller _ .sendPoisonPill) => !s.actor.registered || s.actor.accepted.isEmpty
    | _ => true
  | _ => true

def calmFirstStop (s : State M W) (label : Label M) : Bool := calm s label && firstStop s label

theorem step_accepted {s t : State M W} (stepped : s.step label = some t) :
    t.actor.accepted = s.actor.accepted ∧ firstStop s label = true ∨
      ∃ i request, label = .act i .step ∧ s.pool[i]? = some (.caller request .sendPoisonPill) ∧
        s.actor.registered = true ∧ t.actor.accepted = s.actor.accepted ++ request.contexts := by
  rcases step_cases stepped with ⟨call, rfl, rfl⟩ | ⟨child, rfl, rfl⟩ |
    ⟨i, action, g, b, next, spawned, rfl, found, advance, rfl⟩
  · exact .inl ⟨rfl, rfl⟩
  · exact .inl ⟨rfl, rfl⟩
  · cases advance with
    | accepted known => exact .inr ⟨i, _, rfl, found, known, rfl⟩
    | rejected missing => exact .inl ⟨rfl, by simp [firstStop, found, missing]⟩
    | moved move => exact .inl ⟨move.requests.1, by simp [firstStop, found]⟩
    | resumed => exact .inl ⟨(Actor.resume_requests _ _ _ _).1, rfl⟩
    | spawnedChild => exact .inl ⟨rfl, rfl⟩
    | found | missing | mailed | returned => exact .inl ⟨rfl, by simp [firstStop, found]⟩

theorem accepted_few {s t : State M W} (few : s.actor.accepted.length ≤ 1)
    (stepped : restrict calmFirstStop State.step s label = some t) :
    t.actor.accepted.length ≤ 1 := by
  obtain ⟨allowed, stepped⟩ := restrict_some stepped
  rcases step_accepted stepped with ⟨same, -⟩ | ⟨i, request, rfl, found, known, grown⟩
  · rwa [same]
  · rw [calmFirstStop, Bool.and_eq_true] at allowed
    have none : s.actor.accepted = [] := by simpa [firstStop, found, known] using allowed.2
    rw [grown, none]
    cases request <;> simp [Request.contexts]

theorem watched_calm {opts : Opts W} {positive : 0 < opts.inboxSize} {s : State M W}
    (reached : Reaches (restrict calm State.step) (initial opts positive parent) s) : Watched s := by
  refine reached.invariant (Ordered.step stop_account fun allowed _ => allowed)
    (ordered_initial _ _ _ ⟨⟨rfl, rfl, rfl⟩, ?_, ⟨nofun, List.forall_mem_nil _, nofun⟩, rfl, nofun⟩)
  intro e member
  simp [Actor.new, Inbox.new, Ring.new_toList] at member

/-- A run without panics in which the actor was found at most once kept to the
discipline. -/
theorem reaches_first_stop {opts : Opts W} {positive : 0 < opts.inboxSize} {s : State M W}
    (reached : Reaches (restrict calm State.step)
      (initial opts positive parent) s) (few : s.actor.accepted.length ≤ 1) :
    Reaches (restrict calmFirstStop State.step)
      (initial opts positive parent) s := by
  induction reached with
  | refl => exact .refl _
  | @next s label t earlier stepped ih =>
    obtain ⟨allowed, moved⟩ := restrict_some stepped
    have first : firstStop s label = true ∧ s.actor.accepted.length ≤ 1 := by
      rcases step_accepted moved with ⟨same, first⟩ | ⟨i, request, rfl, found, known, grown⟩
      · exact ⟨first, same ▸ few⟩
      · have inside := ((watched_calm earlier).inside _ (List.mem_of_getElem? found)).1
        obtain ⟨graceful, ctx, rfl⟩ := inside
        simp only [grown, Request.contexts, List.length_append, List.length_singleton] at few
        have none : s.actor.accepted = [] := List.length_eq_zero_iff.mp (by omega)
        simp [firstStop, found, known, none]
    refine .next (ih first.2) (?_ : restrict _ _ s label = some t)
    simp [restrict, calmFirstStop, allowed, first.1, moved]

/-- In a state that a run without panics ends in after `cleanup`, every context
that was handed out is cancelled if and only if the run never let a second stop
request find the actor in the registry. -/
theorem stop_requests_complete_iff (opts : Opts W) (positive : 0 < opts.inboxSize) (parent : Bool)
    (s : State M W)
    (reached : Reaches (restrict calm State.step) (initial opts positive parent) s)
    (quiet : s.quiescent = true) (finished : .actorStopped ∈ s.actor.events) :
    (∀ ctx < s.contexts, s.actor.completed ctx) ↔
      Reaches (restrict calmFirstStop State.step)
        (initial opts positive parent) s := by
  have issued : Issued s := reached.invariant
    (fun issued stepped => issued_step issued (restrict_some stepped).2) (.refl _)
  rw [completed_iff issued (watched_calm reached) quiet finished]
  constructor
  · exact reaches_first_stop reached
  · intro sole
    exact sole.invariant (P := fun s => s.actor.accepted.length ≤ 1) accepted_few (Nat.zero_le 1)

/-- A stop request, and `rest` of them after it, before the actor is started. -/
def stopBeforeStart (rest : List (Label Nat)) (worker : Nat) : List (Label Nat) :=
  [.call .stop] ++ steps 1 4 ++ rest ++ steps 0 1 ++ [returns 0, returns 0] ++ steps 0 3 ++
    steps worker 9 ++ [returns worker] ++ steps worker 3

theorem stop_requests_complete_iff_single :
    ∃ s : State Nat Nat, s.contexts = 1 ∧ ∀ ctx < s.contexts, s.actor.completed ctx := by
  obtain ⟨s, sole, ends⟩ := exists_of_run (restrict calmFirstStop State.step)
    (initial ⟨3, 1, []⟩ Nat.one_pos false) (stopBeforeStart [] 2)
    (fun s : State Nat Nat => s.quiescent = true ∧ .actorStopped ∈ s.actor.events ∧ s.contexts = 1)
    (by decide)
  obtain ⟨quiet, finished, made⟩ := of_decide_eq_true ends
  have reached := sole.relax calm fun allowed => (Bool.and_eq_true_iff.mp allowed).1
  exact ⟨s, made,
    (stop_requests_complete_iff ⟨3, 1, []⟩ Nat.one_pos false s reached quiet finished).mpr sole⟩

/-- Two pills in one batch: nobody is left to cancel the second context. -/
theorem second_stop_never_completes :
    ∃ s : State Nat Nat,
      Reaches (restrict calm State.step)
        (initial ⟨3, 1, []⟩ Nat.one_pos false) s ∧
      s.quiescent = true ∧ .actorStopped ∈ s.actor.events ∧ s.contexts = 2 ∧
      ¬ s.actor.completed 1 := by
  obtain ⟨s, reached, ends⟩ := exists_of_run (restrict calm State.step)
    (initial ⟨3, 1, []⟩ Nat.one_pos false) (stopBeforeStart ([.call .stop] ++ steps 2 4) 3)
    (fun s : State Nat Nat => s.quiescent = true ∧ .actorStopped ∈ s.actor.events ∧ s.contexts = 2 ∧
      ¬ s.actor.completed 1)
    (by decide)
  exact ⟨s, reached, of_decide_eq_true ends⟩

end Engine
end Hollywood
