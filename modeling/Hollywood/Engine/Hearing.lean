import Hollywood.Engine.Ledger

/-! What an actor hears that nobody stops. A panic within the restart budget does not
change the order of its messages: what the loop of `Invoke` had not told the receiver
is told first after the restart. So the receiver is told the batches one after the
other, and messages that come into the mailbox at the back only are told in the order
in which they came. -/
namespace Hollywood
open Transition
open scoped List
variable {M W : Type} [Inhabited M]

/-- What the goroutine has left to tell the receiver, given the retry buffer. -/
def Act.left (buffer : List (Envelope M)) : Act M → List (Envelope M)
  | .loop (.invoke msgs) => msgs
  | .invoke f => f.msgs.drop f.i
  | .receiving (.message f) | .recoverInvoke f _ | .receiving (.crashedInvoke f _) =>
    f.msgs.drop f.nproc
  | .start | .receiving .initialized | .receiving .started | .recoverStart _
  | .receiving (.crashedStart _) | .tryRestart _ | .countRestart | .announceRestart => buffer
  | _ => []

/-- The places of a process that has not met a pill, where the counters of the loop
agree. -/
def Act.Tracks : Act M → Prop
  | .invoke f => f.nproc = f.i
  | .receiving (.message f) => f.nproc = f.i + 1
  | .receiving (.flush _ _ _) | .receiving (.cleanup _) | .flush _ _ _ | .cleanup _ | .childrenLen _
  | .makeChildren _ | .fillChildren _ _ | .poison _ _ | .stopInbox _ | .unregister _ | .stopping _
  | .cancel _ => False
  | _ => True

namespace Actor

/-- The receiver has been told all that was taken out of the mailbox but `left`, and
no pill is in sight. -/
structure Abreast (a : Actor M W) (left : List (Envelope M)) : Prop where
  queued : ∀ e ∈ a.inbox.rb.toList, e.isPill = false
  plain : ∀ e ∈ left, e.isPill = false
  told : a.told ++ left.filterMap Envelope.message = a.batches.flatten.filterMap Envelope.message

theorem Abreast.same {a b : Actor M W} (abreast : a.Abreast left)
    (ring : b.inbox.rb.toList = a.inbox.rb.toList) (told : b.told = a.told)
    (batches : b.batches = a.batches) : b.Abreast left := by
  constructor
  · rw [ring]
    exact abreast.queued
  · exact abreast.plain
  · rw [told, batches]
    exact abreast.told

/-- The next message is told. -/
theorem Abreast.user {a : Actor M W} (abreast : a.Abreast (⟨.user msg, author⟩ :: left)) :
    (a.invokeMsg msg author).Abreast left := by
  constructor
  · exact abreast.queued
  · intro e member
    exact abreast.plain e (List.mem_cons_of_mem _ member)
  · have told := abreast.told
    rw [told_invokeMsg, List.append_assoc]
    exact told

/-- A batch is taken out of the mailbox. -/
theorem Abreast.popped {a b : Actor M W} (abreast : a.Abreast [])
    (ring : b.inbox.rb.toList = a.inbox.rb.toList.drop n) (told : b.told = a.told)
    (batches : b.batches = a.batches ++ [a.inbox.rb.toList.take n]) :
    b.Abreast (a.inbox.rb.toList.take n) := by
  constructor
  · intro e member
    rw [ring] at member
    exact abreast.queued e (List.mem_of_mem_drop member)
  · intro e member
    exact abreast.queued e (List.mem_of_mem_take member)
  · have before := abreast.told
    rw [List.filterMap_nil, List.append_nil] at before
    rw [told, batches, before, List.flatten_append, List.flatten_singleton, List.filterMap_append]

omit [Inhabited M] in
theorem ret_settled (r : Routine M) :
    r.ret.act.Tracks ∧ ∀ buffer : List (Envelope M), r.ret.act.left buffer = [] := by
  obtain ⟨base, replays, act⟩ := r
  cases replays with
  | succ n => exact ⟨trivial, fun _ => rfl⟩
  | zero => cases base <;> exact ⟨trivial, fun _ => rfl⟩

theorem Move.abreast {a : Actor M W} {r : Routine M} (sound : r.Sound a) (holder : r.act.stage.holds = true)
    (tracks : r.act.Tracks) (abreast : a.Abreast (r.act.left a.mbuffer)) (move : Move a r b next spawned) :
    next.act.Tracks ∧ b.Abreast (next.act.left b.mbuffer) := by
  obtain ⟨base, replays, act⟩ := r
  cases move with
  | invoked position =>
    subst position
    exact ⟨rfl, abreast⟩
  | start position =>
    subst position
    refine ⟨trivial, abreast.same rfl ?_ rfl⟩
    exact told_deliver _ _ nofun
  | replayed position =>
    subst position
    exact ⟨trivial, abreast.same rfl rfl rfl⟩
  | recoverStart position | recoverInvoke position =>
    subst position
    refine ⟨trivial, abreast.same rfl ?_ rfl⟩
    exact told_deliver _ _ nofun
  | invokeEnd position ends =>
    subst position
    obtain ⟨settled, none⟩ := ret_settled ⟨base, replays, .invoke _⟩
    refine ⟨settled, ?_⟩
    have rest := List.drop_eq_nil_of_le (List.getElem?_eq_none_iff.mp ends)
    rw [none]
    rw [Act.left, rest] at abreast
    exact abreast
  | invokeUser position found =>
    subst position
    have count : Frame.nproc _ = _ := tracks
    obtain ⟨inside, same⟩ := List.getElem?_eq_some_iff.mp found
    refine ⟨congrArg (· + 1) count, ?_⟩
    rw [Act.left, List.drop_eq_getElem_cons inside, same] at abreast
    dsimp only [Routine.goto, Act.left]
    rw [count]
    exact abreast.user
  | restartInternal position =>
    subst position
    exact ⟨trivial, abreast⟩
  | restart position | countRestart position | announceRestart position =>
    subst position
    exact ⟨trivial, abreast.same rfl rfl rfl⟩
  | restartLimit position limit =>
    subst position
    exact absurd limit (sound.spared rfl)
  | looped position move notDone silent =>
    subst position
    cases move with
    | enter | leave | released => exact ⟨trivial, abreast.same rfl rfl (List.append_nil _)⟩
    | empty drained =>
      refine ⟨trivial, abreast.same ?_ rfl (List.append_nil _)⟩
      exact (Inbox.ring_popN _ _).trans (by rw [drained, List.drop_nil])
    | batch queued => exact ⟨trivial, abreast.popped (Inbox.ring_popN _ _) rfl rfl⟩
    | won | lost | abandoned | finished => exact absurd rfl notDone
    | invoke => cases silent
    | _ => cases holder
  | left position move done =>
    subst position
    cases move with
    | abandoned => exact ⟨trivial, abreast.same rfl rfl (List.append_nil _)⟩
    | enter | leave | batch | empty | released | again | invoke => cases done
    | _ =>
      cases holder
  | inboxStarting position move notDone =>
    subst position
    cases move with
    | start => exact ⟨trivial, abreast.same rfl rfl (List.append_nil _)⟩
    | started => exact ⟨trivial, abreast.same rfl rfl (List.append_nil _)⟩
    | refused => exact absurd rfl notDone
    | _ => cases holder
  | inboxStarted position move done =>
    subst position
    obtain ⟨settled, none⟩ := ret_settled ⟨base, replays, .inboxStart _⟩
    refine ⟨settled, ?_⟩
    rw [record, none]
    cases move with
    | refused => exact abreast.same rfl rfl (List.append_nil _)
    | start | started => cases done
    | _ => cases holder
  | invokeGraceful position found | invokeStop position found =>
    subst position
    have ahead := List.mem_of_getElem? (i := 0) (List.getElem?_drop.trans found)
    cases abreast.plain _ ahead
  | _ position =>
    subst position
    cases tracks

theorem resume_abreast {a : Actor M W} {r : Routine M} (position : r.act = .receiving site)
    (endured : a.endures site outcome = true) (tracks : r.act.Tracks)
    (abreast : a.Abreast (r.act.left a.mbuffer)) :
    (a.resume r site outcome).2.act.Tracks ∧
      (a.resume r site outcome).1.Abreast
        ((a.resume r site outcome).2.act.left (a.resume r site outcome).1.mbuffer) := by
  obtain ⟨base, replays, act⟩ := r
  subst position
  cases outcome with
  | returns =>
    cases site with
    | initialized =>
      refine ⟨trivial, abreast.same rfl ?_ rfl⟩
      exact told_deliver _ _ nofun
    | started =>
      by_cases buffered : 0 < a.mbuffer.length
      · simp only [resume, gt_iff_lt, buffered, if_true]
        exact ⟨rfl, abreast.same rfl rfl rfl⟩
      · simp only [resume, gt_iff_lt, buffered, if_false]
        have empty := List.eq_nil_of_length_eq_zero (Nat.eq_zero_of_not_pos buffered)
        rw [Act.left, empty] at abreast
        exact ⟨trivial, abreast.same rfl rfl rfl⟩
    | message f =>
      have count : f.nproc = f.i + 1 := tracks
      refine ⟨count, ?_⟩
      rw [Act.left, count] at abreast
      exact abreast
    | crashedInvoke f v => exact ⟨trivial, abreast.same rfl rfl rfl⟩
    | crashedStart v => exact ⟨trivial, abreast⟩
    | flush | cleanup => cases tracks
  | panics v =>
    cases site with
    | initialized | started | message f => exact ⟨trivial, abreast⟩
    | flush | cleanup => cases tracks
    | crashedStart v | crashedInvoke f v => simp [endures, Site.stops] at endured

omit [Inhabited M] in
theorem plain_of_context {e : Envelope M} (none : e.context = none) : e.isPill = false := by
  obtain ⟨msg, author⟩ := e
  cases msg with
  | user => rfl
  | poisonPill => cases none

/-- What goes into the mailbox of an actor that nobody stops is no pill. -/
theorem vouches_plain {a : Actor M W} {pc : Inbox.Pc (Envelope M)} (vouched : a.vouches pc)
    (unstopped : a.accepted = []) (letter : pc.letter = some e) : e.isPill = false := by
  apply plain_of_context
  by_contra pill
  obtain ⟨ctx, pill⟩ := Option.ne_none_iff_exists'.mp pill
  have taken := (vouched e ctx letter pill).1
  rw [unstopped] at taken
  cases taken

theorem Aside.queued {a : Actor M W} (aside : Aside a b spawned) (unstopped : a.accepted = [])
    (plain : ∀ e ∈ a.inbox.rb.toList, e.isPill = false) : ∀ e ∈ b.inbox.rb.toList, e.isPill = false := by
  intro e member
  cases aside with
  | lookup => exact plain e member
  | mailbox move outer vouched =>
    cases move with
    | push =>
      simp only [record, Inbox.ring_toList, Deque.perform, List.mem_append, List.mem_singleton] at member
      cases member with
      | inl old => exact plain e old
      | inr new =>
        subst new
        exact vouches_plain vouched unstopped rfl
    | pushFront =>
      simp only [record, Inbox.ring_toList, Deque.perform, List.mem_cons] at member
      cases member with
      | inl new =>
        subst new
        exact vouches_plain vouched unstopped rfl
      | inr old => exact plain e old
    | clear =>
      simp only [record, Inbox.ring_toList, Deque.perform] at member
      cases member
    | won | lost | again | finished => exact plain e member
    | _ => cases outer

theorem Aside.abreast {a : Actor M W} (aside : Aside a b spawned) (unstopped : a.accepted = [])
    (abreast : a.Abreast left) : b.Abreast left := by
  have same := aside.same
  constructor
  · exact aside.queued unstopped abreast.queued
  · exact abreast.plain
  · rw [same]
    exact abreast.told

/-- The receiver ends its calls within the restart budget and the actor has not been
found by a stop request. -/
def heeds (a : Actor M W) (g : Goroutine M) (action : Action) : Bool :=
  a.accepted.isEmpty &&
    match g, action with
    | .proc ⟨_, _, .receiving site⟩, .receive outcome => a.endures site outcome
    | _, _ => true

end Actor

namespace Engine
variable {i : Nat}

/-- What the owner of the mailbox knows of an actor that nobody stops. -/
def Heedful (a : Actor M W) : Goroutine M → Prop
  | .caller _ _ => True
  | .proc r => a.accepted = [] → r.act.Tracks ∧ a.Abreast (r.act.left a.mbuffer)

theorem heeds_permits {a : Actor M W} {g : Goroutine M} (known : g.holds = true → Heedful a g)
    (heeds : a.heeds g action = true) : a.permits g action = true := by
  simp only [Actor.heeds, Bool.and_eq_true, List.isEmpty_iff] at heeds
  obtain ⟨unstopped, ends⟩ := heeds
  cases g with
  | caller request pc => cases action <;> rfl
  | proc r =>
    obtain ⟨base, replays, act⟩ := r
    cases action with
    | spawnChild child => rfl
    | receive outcome =>
      cases act with
      | receiving site => exact ends
      | _ => rfl
    | step =>
      cases act with
      | invoke f =>
        obtain ⟨-, abreast⟩ := known rfl unstopped
        have plain : f.msgs[f.i]?.any Envelope.isPill = false := by
          cases found : f.msgs[f.i]? with
          | none => rfl
          | some e => exact abreast.plain e (List.mem_of_getElem? (i := 0) (List.getElem?_drop.trans found))
        simp [Actor.permits, Act.atPill, plain]
      | _ => rfl

omit [Inhabited M] in
/-- The owner who leaves the mailbox has told all. -/
theorem left_of_idle {r : Routine M} (idle : r.act.stage.holds = false) : r.act.left buffer = [] := by
  obtain ⟨base, replays, act⟩ := r
  cases act with
  | loop pc =>
    cases pc with
    | invoke msgs => cases idle
    | _ => rfl
  | receiving site =>
    cases site with
    | flush | cleanup => rfl
    | _ => cases idle
  | start | recoverStart v | invoke f | recoverInvoke f v | tryRestart v | countRestart
  | announceRestart => cases idle
  | _ => rfl

theorem advance_abreast {a : Actor M W} {r : Routine M} (sound : r.Sound a)
    (holder : r.act.stage.holds = true) (tracks : r.act.Tracks) (abreast : a.Abreast (r.act.left a.mbuffer))
    (permitted : a.permits (.proc r) action = true) (advance : a.Advance (.proc r) action b next spawned) :
    ∃ r', next = .proc r' ∧ r'.act.Tracks ∧ b.Abreast (r'.act.left b.mbuffer) := by
  cases advance with
  | moved move => exact ⟨_, rfl, move.abreast sound holder tracks abreast⟩
  | @resumed r outcome site position =>
    obtain ⟨base, replays, act⟩ := r
    subst position
    exact ⟨_, rfl, Actor.resume_abreast rfl permitted tracks abreast⟩
  | spawnedChild position => exact ⟨_, rfl, tracks, abreast.same rfl rfl rfl⟩

theorem hearing_account :
    Account Actor.heeds (Heedful (M := M) (W := W)) (fun a => a.accepted = [] → a.Abreast []) where
  permitted _ known admitted := heeds_permits known admitted
  kept {a b g action next} inside holder known admitted advance := by
    have permitted := heeds_permits (fun _ => known) admitted
    simp only [Actor.heeds, Bool.and_eq_true, List.isEmpty_iff] at admitted
    cases g with
    | caller => cases holder
    | proc r =>
      obtain ⟨tracks, abreast⟩ := known admitted.1
      obtain ⟨r', rfl, tracks', abreast'⟩ := advance_abreast inside holder tracks abreast permitted advance
      split
      · intro _
        exact ⟨tracks', abreast'⟩
      · rename_i idle
        intro _
        rwa [left_of_idle (Bool.not_eq_true _ ▸ idle)] at abreast'
  aside {a b g} aside known := by
    cases g with
    | caller => trivial
    | proc r =>
      intro unstopped
      have before : a.accepted = [] := List.subset_nil.mp (unstopped ▸ aside.accepted)
      obtain ⟨tracks, abreast⟩ := known before
      refine ⟨tracks, ?_⟩
      have same : b.mbuffer = a.mbuffer := by rw [aside.same]
      rw [same]
      exact aside.abreast before abreast
  resting {a b} aside known unstopped := by
    have before : a.accepted = [] := List.subset_nil.mp (unstopped ▸ aside.accepted)
    exact aside.abreast before (known before)
  taken {a b} aside known unstopped := by
    have before : a.accepted = [] := List.subset_nil.mp (unstopped ▸ aside.accepted)
    exact ⟨trivial, aside.abreast before (known before)⟩
  orphaned {a g} child known := by
    cases g with
    | caller => trivial
    | proc r =>
      intro unstopped
      obtain ⟨tracks, abreast⟩ := known unstopped
      exact ⟨tracks, abreast.same rfl rfl rfl⟩
  settled child known unstopped := (known unstopped).same rfl rfl rfl

end Engine

section
variable (p : M × Option PID → Bool)

/-- The call puts no message of the kind at the front of the mailbox. -/
def Goroutine.Behind : Goroutine M → Prop
  | .caller request pc => (∀ e m, request = .sendPriority e → e.message = some m → p m = false) ∧
      ∀ e m, pc = .inbox (.pushFront e) → e.message = some m → p m = false
  | .proc _ => True

/-- No message of the kind was put at the front of the mailbox. -/
def Behind (ops : List (Deque.Op (Envelope M))) : Prop :=
  ∀ e m, .pushFront e ∈ ops → e.message = some m → p m = false

end

namespace Actor
variable {p : M × Option PID → Bool}

theorem Move.behind {a : Actor M W} {r : Routine M} (sound : r.Sound a) (behind : Behind p a.ops)
    (move : Move a r b next spawned) : Behind p b.ops := by
  obtain ⟨more, grown, -⟩ := move.ops sound
  have none : Deque.pushed more = [] := by
    simpa [grown] using move.pushes sound
  intro e m member message
  rw [grown] at member
  cases List.mem_append.mp member with
  | inl old => exact behind e m old message
  | inr new =>
    have entered := Deque.mem_pushed.mpr (.inr new)
    rw [none] at entered
    cases entered

theorem record_behind {a : Actor M W} (behind : Behind p a.ops)
    (pushes : ∀ e m, pc = .pushFront e → e.message = some m → p m = false) :
    Behind p (a.record pc turn).ops := by
  intro e m member message
  cases List.mem_append.mp member with
  | inl old => exact behind e m old message
  | inr new =>
    cases pc with
    | pushFront e' =>
      cases List.mem_singleton.mp new
      exact pushes e m rfl message
    | push | popN | clear => cases List.mem_singleton.mp new
    | _ => cases new

theorem Advance.behind {a : Actor M W} (inside : a.Inside g) (caller : g.Behind p) (behind : Behind p a.ops)
    (advance : Advance a g action b next spawned) : next.Behind p ∧ Behind p b.ops := by
  cases advance with
  | accepted | rejected | missing =>
    refine ⟨⟨caller.1, ?_⟩, behind⟩
    rintro e m ⟨⟩
  | @found request =>
    refine ⟨⟨caller.1, ?_⟩, behind⟩
    intro e m front
    cases request with
    | sendPriority envelope =>
      cases front
      exact caller.1 e m rfl
    | _ => cases front
  | mailed move =>
    refine ⟨⟨caller.1, ?_⟩, record_behind behind ?_⟩
    · rintro e m front
      have silent := move.letters.2
      rw [CallPc.inbox.inj front] at silent
      cases silent
    · intro e m front
      exact caller.2 e m (congrArg CallPc.inbox front)
  | returned move =>
    refine ⟨⟨caller.1, ?_⟩, record_behind behind ?_⟩
    · rintro e m ⟨⟩
    · intro e m front
      exact caller.2 e m (congrArg CallPc.inbox front)
  | moved move => exact ⟨trivial, move.behind inside behind⟩
  | @resumed r outcome site =>
    refine ⟨trivial, ?_⟩
    rw [(a.resume_traffic r site outcome).1]
    exact behind
  | spawnedChild => exact ⟨trivial, behind⟩

/-- Only the message that a call still holds comes into the mailbox. -/
theorem Advance.posts {a : Actor M W} (inside : a.Inside g) (advance : Advance a g action b next spawned) :
    next.waiting ⊆ g.waiting ∧ ∃ entered, entered ⊆ g.waiting ∧ b.pushed = a.pushed ++ entered := by
  have quiet (same : b.pushed = a.pushed) : ∃ entered, entered ⊆ g.waiting ∧ b.pushed = a.pushed ++ entered :=
    ⟨[], List.nil_subset _, by rw [same, List.append_nil]⟩
  cases advance with
  | accepted | found => exact ⟨List.Subset.refl _, quiet rfl⟩
  | rejected | missing => exact ⟨List.nil_subset _, quiet rfl⟩
  | mailed move =>
    refine ⟨?_, _, List.Subset.refl _, record_pushed a move⟩
    rw [Goroutine.waiting, move.letters.2]
    exact List.nil_subset _
  | returned move => exact ⟨List.nil_subset _, _, List.Subset.refl _, record_pushed a move⟩
  | moved move =>
    refine ⟨List.Subset.refl _, quiet ?_⟩
    rw [pushed, move.pushes inside]
    rfl
  | @resumed r outcome site =>
    refine ⟨List.Subset.refl _, quiet ?_⟩
    rw [pushed, (a.resume_traffic r site outcome).1]
    rfl
  | spawnedChild => exact ⟨List.Subset.refl _, quiet rfl⟩

end Actor

namespace Engine
variable {i : Nat} {p : M × Option PID → Bool}

/-- Steps that ask for no stop and put no message of the kind at the front of the
mailbox, with calls of the receiver that end within the restart budget. -/
def unhurried (p : M × Option PID → Bool) (s : State M W) (label : Label M) : Bool :=
  judged Actor.endures s label &&
    match label with
    | .call .stop | .call .poison => false
    | .call (.sendPriority msg sender) => !p (msg, sender)
    | _ => true

def heeded (s : State M W) (label : Label M) : Bool :=
  s.actor.accepted.isEmpty && judged Actor.endures s label

theorem heeded_heeds {s : State M W} (allowed : heeded s (.act i action) = true)
    (found : s.pool[i]? = some g) : s.actor.heeds g action = true := by
  rw [heeded, Bool.and_eq_true] at allowed
  refine Bool.and_eq_true_iff.mpr ⟨allowed.1, ?_⟩
  cases g with
  | caller request pc => cases action <;> rfl
  | proc r =>
    obtain ⟨base, replays, act⟩ := r
    cases act with
    | receiving site =>
      cases action with
      | receive outcome => simpa [judged, found] using allowed.2
      | _ => rfl
    | _ => cases action <;> rfl

/-- What is known of an actor that nobody stops and whose messages of the kind come in
at the back. -/
structure Hearing (p : M × Option PID → Bool) (s : State M W) : Prop where
  ordered : Ordered Heedful (fun a => a.accepted = [] → a.Abreast []) s
  posted : s.actor.Posted
  issued : Issued s
  unstopped : s.contexts = 0
  balanced : Balanced s
  callers : ∀ g ∈ s.pool, g.Behind p
  behind : Behind p s.actor.ops

theorem Hearing.accepted {s : State M W} (hearing : Hearing p s) : s.actor.accepted = [] := by
  have issued := hearing.issued
  rw [Issued, hearing.unstopped, List.range_zero, List.perm_nil, List.append_eq_nil_iff,
    List.append_eq_nil_iff] at issued
  exact issued.2.1

theorem initial_hearing (opts : Opts W) (positive : 0 < opts.inboxSize) (parent : Bool) :
    Hearing p (initial opts positive parent : State M W) where
  ordered := by
    apply ordered_initial
    intro _
    refine ⟨trivial, ?_, ?_, rfl⟩
    · intro e member
      rw [Actor.new, Inbox.new, Ring.new_toList] at member
      cases member
    · intro e member
      cases member
  posted := (followed_initial opts positive parent).mailed.posted
  issued := .refl _
  unstopped := rfl
  balanced := rfl
  callers g member := by
    obtain rfl := List.mem_singleton.mp member
    trivial
  behind e m member := by cases member

theorem Hearing.call {s : State M W} (hearing : Hearing p s) {call : Call M}
    (allowed : unhurried p s (.call call) = true)
    (ordered : Ordered Heedful (fun a => a.accepted = [] → a.Abreast []) (s.call call)) :
    Hearing p (s.call call) where
  ordered := ordered
  posted := hearing.posted
  issued := issued_call hearing.issued call
  unstopped := by
    cases call with
    | stop | poison => cases allowed
    | _ => exact hearing.unstopped
  balanced := hearing.balanced.call call
  callers := by
    intro g member
    cases List.mem_append.mp member with
    | inl old => exact hearing.callers g old
    | inr new =>
      obtain rfl := List.mem_singleton.mp new
      cases call with
      | sendPriority msg sender =>
        have calm : p (msg, sender) = false := by simpa [unhurried, judged] using allowed
        refine ⟨?_, ?_⟩
        · rintro e m ⟨⟩ ⟨⟩
          exact calm
        · rintro e m ⟨⟩
      | _ =>
        refine ⟨?_, ?_⟩
        · rintro e m ⟨⟩
        · rintro e m ⟨⟩
  behind := hearing.behind

theorem Hearing.step {s t : State M W} (hearing : Hearing p s) (allowed : unhurried p s label = true)
    (stepped : s.step label = some t) : Hearing p t := by
  have endured : judged Actor.endures s label = true := (Bool.and_eq_true_iff.mp allowed).1
  have ordered : Ordered Heedful (fun a => a.accepted = [] → a.Abreast []) t := by
    have heeds : heeded s label = true := by simp [heeded, hearing.accepted, endured]
    have restricted : restrict heeded State.step s label = some t := by
      rw [restrict, if_pos heeds, stepped]
    exact Ordered.step hearing_account heeded_heeds hearing.ordered restricted
  rcases step_cases stepped with ⟨call, rfl, rfl⟩ | ⟨child, rfl, rfl⟩ |
    ⟨i, action, g, b, next, spawned, rfl, found, advance, rfl⟩
  · exact hearing.call allowed ordered
  · exact ⟨ordered, hearing.posted, hearing.issued, hearing.unstopped, hearing.balanced, hearing.callers,
      hearing.behind⟩
  · have member := List.mem_of_getElem? found
    have inside := (hearing.ordered.inside g member).1
    obtain ⟨caller, behind⟩ := advance.behind inside (hearing.callers g member) hearing.behind
    refine ⟨ordered, advance.posted hearing.posted, issued_step hearing.issued stepped, hearing.unstopped,
      hearing.balanced.advance inside found advance, ?_, behind⟩
    refine Pool.forall_step found hearing.callers (fun _ same => same) (fun _ => caller) ?_
    intro h new
    obtain ⟨r, rfl⟩ := advance.spawns h new
    trivial

/-- The receiver has been told the first of the messages taken out of the mailbox. -/
theorem Hearing.told_prefix {s : State M W} (hearing : Hearing p s) :
    s.actor.told <+: s.actor.batches.flatten.filterMap Envelope.message := by
  cases hearing.ordered.somebody with
  | inl owned =>
    obtain ⟨g, member, holder, -, known⟩ := owned
    cases g with
    | caller => cases holder
    | proc r =>
      obtain ⟨-, abreast⟩ := known holder hearing.accepted
      exact ⟨_, abreast.told⟩
  | inr idle => exact ⟨_, (idle hearing.accepted).told⟩

omit [Inhabited M] in
theorem messages_filter (envelopes : List (Envelope M)) :
    (envelopes.filter fun e => e.message.any p).filterMap Envelope.message =
      (envelopes.filterMap Envelope.message).filter p := by
  rw [List.filterMap_filter, List.filter_filterMap]
  congr 1
  funext e
  cases e.message with
  | none => rfl
  | some m => cases selected : p m <;> simp [Option.filter, selected]

/-- Messages that come in at the back only are told in the order in which they came. -/
theorem Hearing.told_order {s : State M W} (hearing : Hearing p s) :
    s.actor.told.filter p <+ s.actor.pushed.filter p := by
  have back : ∀ e, .pushFront e ∈ s.actor.ops → (e.message.any p) = false := by
    intro e front
    cases message : e.message with
    | none => rfl
    | some m => exact hearing.behind e m front message
  have served := Deque.service_order _ s.actor.ops back
  rw [hearing.posted] at served
  have taken : s.actor.batches.flatten <+ s.actor.batches.flatten ++ s.actor.inbox.rb.toList :=
    List.sublist_append_left ..
  calc s.actor.told.filter p
      <+ (s.actor.batches.flatten.filterMap Envelope.message).filter p := hearing.told_prefix.sublist.filter p
    _ = (s.actor.batches.flatten.filter fun e => e.message.any p).filterMap Envelope.message :=
        (messages_filter _).symm
    _ <+ ((Deque.pushed s.actor.ops).filter fun e => e.message.any p).filterMap Envelope.message :=
        ((taken.filter _).trans served).filterMap _
    _ = s.actor.pushed.filter p := messages_filter _

end Engine

namespace Actor

theorem resume_tells (a : Actor M W) (r : Routine M) (site : Site M) (outcome : Outcome) :
    (a.resume r site outcome).1.told = a.told := by
  cases outcome with
  | returns =>
    cases site with
    | initialized => exact told_deliver _ _ nofun
    | started =>
      simp only [resume]
      split <;> rfl
    | _ => rfl
  | panics v =>
    cases site with
    | cleanup reason => cases reason <;> rfl
    | _ => rfl

/-- Inside the receiver a goroutine makes no step of its own. -/
theorem Move.outside {a : Actor M W} {r : Routine M} (move : Move a r b next spawned) (site : Site M) :
    r.act ≠ .receiving site := by
  intro inside
  cases move with
  | _ position =>
    rw [inside] at position
    cases position

/-- A process that has met no pill tells its receiver a message from the loop of
`Invoke` only. -/
theorem Move.tells {a : Actor M W} {r : Routine M} (tracks : r.act.Tracks) (move : Move a r b next spawned) :
    b.told = a.told ∨ ∃ m f, b.told = a.told ++ [m] ∧ next.act = .receiving (.message f) := by
  obtain ⟨base, replays, act⟩ := r
  cases move with
  | start => exact .inl (told_deliver _ _ nofun)
  | recoverStart | recoverInvoke => exact .inl (told_deliver _ _ nofun)
  | invokeUser position found =>
    subst position
    exact .inr ⟨_, _, told_invokeMsg _ _ _, rfl⟩
  | flushUser position | stopping position =>
    subst position
    cases tracks
  | @fillPanics reason => cases reason <;> exact .inl rfl
  | _ => exact .inl rfl

end Actor

namespace Engine
variable {i : Nat} {p : M × Option PID → Bool}

/-- A step of a goroutine tells the receiver nothing, or the goroutine owns the mailbox
and calls the receiver with one message. -/
theorem Hearing.tells {s : State M W} {g : Goroutine M} (hearing : Hearing p s)
    (found : s.pool[i]? = some g) (advance : s.actor.Advance g action b next spawned) :
    b.told = s.actor.told ∨ g.holds = true ∧ action = .step ∧
      ∃ m r f, b.told = s.actor.told ++ [m] ∧ next = .proc r ∧ r.act = .receiving (.message f) := by
  obtain ⟨inside, known⟩ := hearing.ordered.inside g (List.mem_of_getElem? found)
  cases advance with
  | @moved r b next spawned move =>
    by_cases holder : r.act.stage.holds = true
    · obtain ⟨tracks, -⟩ := known holder hearing.accepted
      cases move.tells tracks with
      | inl same => exact .inl same
      | inr told =>
        obtain ⟨m, f, told, position⟩ := told
        exact .inr ⟨holder, rfl, m, next, f, told, rfl, position⟩
    · obtain ⟨aside, -⟩ := move.aside inside (Bool.not_eq_true _ ▸ holder)
      left
      rw [aside.same]
      rfl
  | resumed => exact .inl (Actor.resume_tells _ _ _ _)
  | _ => exact .inl rfl

/-- The messages that `f` picks, where the actor is told of no other order. -/
theorem Hearing.told_sublist {β : Type} {f : M × Option PID → Option β} {s : State M W}
    (hearing : Hearing (fun m => (f m).isSome) s) :
    s.actor.told.filterMap f <+ s.actor.pushed.filterMap f := by
  have picked (l : List (M × Option PID)) :
      (l.filter fun m => (f m).isSome).filterMap f = l.filterMap f := by
    rw [List.filterMap_filter]
    congr 1
    funext m
    cases f m <;> rfl
  have order := hearing.told_order.filterMap f
  rwa [picked, picked] at order

theorem call_step {s t : State M W} {call : Call M}
    (stepped : s.step (.call call) = some t) : t = s.call call := by
  rcases step_cases stepped with ⟨other, same, rfl⟩ | ⟨child, same, -⟩ | ⟨i, action, _, _, _, _, same, -⟩
  · cases same
    rfl
  · cases same
  · cases same

theorem sent_step {s t : State M W}
    (stepped : s.step (.act i action) = some t) : t.sent = s.sent := by
  rcases step_cases stepped with ⟨call, same, -⟩ | ⟨child, same, -⟩ |
    ⟨j, other, g, b, next, spawned, same, found, advance, rfl⟩
  · cases same
  · cases same
  · exact sent_advance found advance

theorem returns_unhurried (p : M × Option PID → Bool) (s : State M W) (i : Nat) :
    unhurried p s (.act i (.receive .returns)) = true := by
  refine Bool.and_eq_true_iff.mpr ⟨?_, rfl⟩
  simp only [judged]
  split <;> rfl

theorem returns_step {s t : State M W}
    (stepped : s.step (.act i (.receive .returns)) = some t) :
    t.actor.told = s.actor.told ∧ ∃ g next, s.pool[i]? = some g ∧ t.pool = s.pool.set i next := by
  rcases step_cases stepped with ⟨call, same, -⟩ | ⟨child, same, -⟩ |
    ⟨j, other, g, b, next, spawned, same, found, advance, rfl⟩
  · cases same
  · cases same
  · cases same
    cases advance with
    | resumed => exact ⟨Actor.resume_tells _ _ _ _, _, _, found, List.append_nil _⟩

end Engine
end Hollywood
