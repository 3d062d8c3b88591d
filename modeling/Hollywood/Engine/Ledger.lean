import Hollywood.Engine.LastBatch
import Hollywood.Engine.Quiescence

/-! What becomes of the messages sent to an actor that is poisoned. A message is on its
way, in the mailbox, told to the receiver or broadcast as a dead letter. What is in
the mailbox when the batch with the pill has been taken out stays there. -/
namespace Hollywood
open Transition
variable {M W : Type} [Inhabited M]

/-- A pill that asks for a graceful stop, or a user message. -/
def Envelope.gentle (envelope : Envelope M) : Bool :=
  match envelope.msg with
  | .user _ => true
  | .poisonPill _ graceful => graceful

def Request.messages (request : Request M) : List (M × Option PID) :=
  (request.pc.letter.bind Envelope.message).toList

namespace Goroutine

/-- The message of a call. -/
def sent : Goroutine M → List (M × Option PID)
  | .caller request _ => request.messages
  | .proc _ => []

/-- The message of a call that has yet to put it into the mailbox. -/
def waiting : Goroutine M → List (M × Option PID)
  | .caller request .sendPoisonPill | .caller request .lookup => request.messages
  | .caller _ (.inbox pc) => (pc.letter.bind Envelope.message).toList
  | .caller _ .returned | .proc _ => []

end Goroutine

omit [Inhabited M] in
theorem Request.waiting_entry (request : Request M) :
    Goroutine.waiting (.caller request request.entry) = request.messages := by
  cases request <;> rfl

def Event.lost : Event M → Option (M × Option PID)
  | .deadLetter envelope => envelope.message
  | _ => none

namespace Actor

def deadLetters (a : Actor M W) : List (M × Option PID) := a.events.filterMap Event.lost

/-- The user messages that came into the mailbox. -/
def pushed (a : Actor M W) : List (M × Option PID) := (Deque.pushed a.ops).filterMap Envelope.message

end Actor

omit [Inhabited M] in
theorem undelivered_lost (request : Request M) :
    request.undelivered.filterMap Event.lost = request.messages := by
  cases request with
  | send envelope | sendPriority envelope =>
    simp only [Request.undelivered, Request.messages, Request.pc, Inbox.Pc.letter, Option.bind_some,
      List.filterMap_cons, List.filterMap_nil, Event.lost]
    cases envelope.message <;> rfl
  | poison | clearMailbox => rfl

theorem Inbox.Move.letters {α : Type} [Inhabited α] {inbox : Inbox α} {pc : Inbox.Pc α}
    {turn : Inbox.Turn α} (move : Inbox.Move inbox pc turn) :
    Deque.pushed pc.op.toList = pc.letter.toList ∧ turn.next.letter = none := by
  cases move <;> exact ⟨rfl, rfl⟩

namespace Actor

theorem record_pushed (a : Actor M W) (move : Inbox.Move a.inbox pc turn) :
    (a.record pc turn).pushed = a.pushed ++ (pc.letter.bind Envelope.message).toList := by
  rw [pushed, record, Deque.pushed_append, List.filterMap_append, move.letters.1]
  cases pc.letter with
  | none => rfl
  | some e =>
    simp only [Option.toList_some, List.filterMap_cons, List.filterMap_nil, Option.bind_some]
    cases e.message <;> rfl

/-- The goroutines of the process put nothing into the mailbox. -/
theorem Move.pushes {a : Actor M W} {r : Routine M} (sound : r.Sound a) (move : Move a r b next spawned) :
    Deque.pushed b.ops = Deque.pushed a.ops := by
  have recorded {pc : Inbox.Pc (Envelope M)} {turn} (position : r.act = .loop pc ∨ r.act = .inboxStart pc)
      (move : Inbox.Move a.inbox pc turn) : Deque.pushed (a.record pc turn).ops = Deque.pushed a.ops := by
    have silent : pc.letter = none := by
      obtain ⟨base, replays, act⟩ := r
      have placed := sound.placed
      cases pc with
      | push | pushFront => rcases position with rfl | rfl <;> exact absurd placed Routine.Placed.not_astray
      | _ => rfl
    rw [record, Deque.pushed_append, move.letters.1, silent]
    exact List.append_nil _
  cases move with
  | looped position move | left position move => exact recorded (.inl position) move
  | inboxStarting position move | inboxStarted position move => exact recorded (.inr position) move
  | @fillPanics reason => cases reason <;> rfl
  | _ => rfl

theorem Move.deadLetters {a : Actor M W} {r : Routine M} (move : Move a r b next spawned) :
    b.deadLetters = a.deadLetters := by
  cases move with
  | restartLimit | announceRestart => simp [Actor.deadLetters, broadcast, Event.lost]
  | @fillPanics reason => cases reason <;> rfl
  | _ => rfl

theorem resume_deadLetters (a : Actor M W) (r : Routine M) (site : Site M) (outcome : Outcome) :
    (a.resume r site outcome).1.deadLetters = a.deadLetters := by
  cases outcome with
  | returns =>
    cases site with
    | initialized | cleanup => simp [resume, deadLetters, broadcast, deliver, Event.lost]
    | started =>
      simp only [resume]
      split <;> simp [deadLetters, broadcast, Event.lost]
    | _ => rfl
  | panics v =>
    cases site with
    | cleanup reason => cases reason <;> rfl
    | _ => rfl

/-- A message leaves its call for the mailbox or the dead letters. -/
theorem Advance.ledger {a : Actor M W} (inside : a.Inside g) (advance : Advance a g action b next spawned) :
    (next.waiting : Multiset (M × Option PID)) + b.pushed + b.deadLetters =
      g.waiting + a.pushed + a.deadLetters := by
  have lost (request : Request M) :
      (((a.events ++ request.undelivered).filterMap Event.lost : List (M × Option PID)) :
        Multiset (M × Option PID)) = a.deadLetters + request.messages := by
    rw [List.filterMap_append, undelivered_lost, ← Multiset.coe_add]
    rfl
  have missed (request : Request M) : (([] : List (M × Option PID)) : Multiset (M × Option PID)) + a.pushed +
      ((a.events ++ request.undelivered).filterMap Event.lost : List (M × Option PID)) =
        request.messages + a.pushed + a.deadLetters := by
    rw [lost, Multiset.coe_nil, zero_add]
    ac_rfl
  have posted {pc : Inbox.Pc (Envelope M)} {turn} (move : Inbox.Move a.inbox pc turn) :
      (([] : List (M × Option PID)) : Multiset (M × Option PID)) + (a.record pc turn).pushed + a.deadLetters =
        (pc.letter.bind Envelope.message).toList + a.pushed + a.deadLetters := by
    rw [record_pushed a move, ← Multiset.coe_add, Multiset.coe_nil, zero_add]
    ac_rfl
  cases advance with
  | accepted | found => rfl
  | @rejected request | @missing request => exact missed request
  | @mailed pc turn request move =>
    have taken := posted move
    rw [Goroutine.waiting, move.letters.2]
    exact taken
  | returned move => exact posted move
  | moved move =>
    rw [pushed, move.pushes inside, move.deadLetters]
    rfl
  | @resumed r outcome site =>
    rw [resume_deadLetters, pushed, (a.resume_traffic r site outcome).1]
    rfl
  | spawnedChild => rfl

end Actor

namespace Engine
variable {i : Nat}

/-- The user messages of the calls so far. -/
def State.sent (s : State M W) : List (M × Option PID) := s.pool.flatMap Goroutine.sent

/-- Every message sent is waiting, has come into the mailbox or is a dead letter. -/
def Balanced (s : State M W) : Prop :=
  (s.sent : Multiset (M × Option PID)) =
    s.pool.flatMap Goroutine.waiting + s.actor.pushed + s.actor.deadLetters

theorem quiescent_waiting {s : State M W} (quiet : s.quiescent = true) : s.pool.flatMap Goroutine.waiting = [] := by
  rw [List.flatMap_eq_nil_iff]
  intro g member
  have ended := List.all_eq_true.mp quiet g member
  cases g with
  | proc r => rfl
  | caller request pc =>
    cases pc with
    | returned => rfl
    | _ => cases ended

theorem Balanced.call {s : State M W} (balanced : Balanced s) (call : Call M) : Balanced (s.call call) := by
  unfold Balanced State.sent at balanced ⊢
  simp only [State.call, List.flatMap_append, List.flatMap_singleton, Request.waiting_entry, Goroutine.sent,
    ← Multiset.coe_add, balanced]
  ac_rfl

theorem sent_advance {s : State M W} {g : Goroutine M} (found : s.pool[i]? = some g)
    (advance : s.actor.Advance g action b next spawned) :
    State.sent { s with actor := b, pool := s.pool.set i next ++ spawned } = s.sent := by
  apply Pool.flatMap_step Goroutine.sent found
  · cases advance <;> rfl
  · rw [List.flatMap_eq_nil_iff]
    intro h member
    obtain ⟨r, rfl⟩ := advance.spawns h member
    rfl

theorem Balanced.advance {s : State M W} {g : Goroutine M} (balanced : Balanced s)
    (inside : s.actor.Inside g) (found : s.pool[i]? = some g)
    (advance : s.actor.Advance g action b next spawned) :
    Balanced { s with actor := b, pool := s.pool.set i next ++ spawned } := by
  have silent : spawned.flatMap Goroutine.waiting = [] := by
    rw [List.flatMap_eq_nil_iff]
    intro h member
    obtain ⟨r, rfl⟩ := advance.spawns h member
    rfl
  have ledger := advance.ledger inside
  have moved := Pool.flatMap_replace Goroutine.waiting found next spawned
  rw [silent, Multiset.coe_nil, add_zero] at moved
  unfold Balanced at balanced ⊢
  rw [sent_advance found advance, balanced]
  -- the message of the one who moves is the only one to change its place
  apply add_right_cancel (b := (g.waiting : Multiset (M × Option PID)))
  calc _ = (s.pool.flatMap Goroutine.waiting : Multiset (M × Option PID)) +
          (g.waiting + s.actor.pushed + s.actor.deadLetters) := by ac_rfl
    _ = s.pool.flatMap Goroutine.waiting + (next.waiting + b.pushed + b.deadLetters) := by rw [ledger]
    _ = (s.pool.flatMap Goroutine.waiting + next.waiting) + b.pushed + b.deadLetters := by ac_rfl
    _ = ((s.pool.set i next ++ spawned).flatMap Goroutine.waiting + g.waiting) + b.pushed +
          b.deadLetters := by rw [moved]
    _ = _ := by ac_rfl

def poisonsOnly (_ : State M W) : Label M → Bool
  | .call .stop => false
  | _ => true

/-- The actor is stopped through `Poison` only, and there is no panic and no
`ClearMailbox`. -/
def graceful (s : State M W) (label : Label M) : Bool := calmKept s label && poisonsOnly s label

/-- No user message is put into the mailbox after a batch with a pill was taken out of
it, and none is left behind by such a batch. -/
def leavesNothing (s : State M W) : Label M → Bool
  | .act i .step =>
    match s.pool[i]? with
    | some (.caller _ (.inbox pc)) =>
      pc.letter.all fun e => e.isPill || s.actor.batches.flatten.all (!·.isPill)
    | some (.proc ⟨_, _, .loop .popN⟩) =>
      (s.actor.inbox.rb.toList.take messageBatchSize).all (!·.isPill) ||
        (s.actor.inbox.rb.toList.drop messageBatchSize).all (·.isPill)
    | _ => true
  | _ => true

def gracefulComplete (s : State M W) (label : Label M) : Bool := graceful s label && leavesNothing s label

end Engine

def Goroutine.Gentle : Goroutine M → Prop
  | .caller request pc => (∀ e, request.pc.letter = some e → e.gentle = true) ∧
      ∀ inner, pc = .inbox inner → ∀ e, inner.letter = some e → e.gentle = true
  | .proc _ => True

namespace Actor

/-- Once a batch with a pill was taken out, the mailbox holds pills only. -/
def Drained (a : Actor M W) : Prop :=
  (∃ e ∈ a.batches.flatten, e.isPill = true) → ∀ e ∈ a.inbox.rb.toList, e.isPill = true

theorem Advance.gentle {a : Actor M W} (gentle : g.Gentle) (known : ∀ e ∈ Deque.pushed a.ops, e.gentle = true)
    (inside : a.Inside g) (advance : Advance a g action b next spawned) :
    next.Gentle ∧ ∀ e ∈ Deque.pushed b.ops, e.gentle = true := by
  have recorded {pc : Inbox.Pc (Envelope M)} {turn} (move : Inbox.Move a.inbox pc turn)
      (mild : ∀ e, pc.letter = some e → e.gentle = true) :
      ∀ e ∈ Deque.pushed (a.record pc turn).ops, e.gentle = true := by
    intro e member
    rw [record, Deque.pushed_append, move.letters.1] at member
    cases List.mem_append.mp member with
    | inl old => exact known e old
    | inr new => exact mild e (Option.mem_toList.mp new)
  cases advance with
  | accepted | rejected | missing =>
    refine ⟨⟨gentle.1, ?_⟩, known⟩
    intro inner same
    cases same
  | found =>
    refine ⟨⟨gentle.1, ?_⟩, known⟩
    rintro inner ⟨⟩
    exact gentle.1
  | mailed move =>
    refine ⟨⟨gentle.1, ?_⟩, recorded move (gentle.2 _ rfl)⟩
    rintro inner ⟨⟩ e letter
    rw [move.letters.2] at letter
    cases letter
  | returned move =>
    refine ⟨⟨gentle.1, ?_⟩, recorded move (gentle.2 _ rfl)⟩
    intro inner same
    cases same
  | moved move =>
    rw [move.pushes inside]
    exact ⟨trivial, known⟩
  | @resumed r outcome site =>
    rw [(a.resume_traffic r site outcome).1]
    exact ⟨trivial, known⟩
  | spawnedChild => exact ⟨trivial, known⟩

/-- Only the worker that pops changes what the process finds in the mailbox. -/
theorem Move.ring {a : Actor M W} {r : Routine M} (sound : r.Sound a) (move : Move a r b next spawned) :
    (b.inbox.rb.toList = a.inbox.rb.toList ∧ b.batches.flatten = a.batches.flatten) ∨
      (r.act = .loop .popN ∧ b.inbox.rb.toList = a.inbox.rb.toList.drop messageBatchSize ∧
        b.batches.flatten = a.batches.flatten ++ a.inbox.rb.toList.take messageBatchSize) := by
  have still {pc : Inbox.Pc (Envelope M)} {turn} (same : turn.inbox.rb = a.inbox.rb)
      (none : turn.next.batch = []) :
      (a.record pc turn).inbox.rb.toList = a.inbox.rb.toList ∧
        (a.record pc turn).batches.flatten = a.batches.flatten := by
    simp [record, same, none]
  obtain ⟨base, replays, act⟩ := r
  have placed := sound.placed
  cases move with
  | looped position move | left position move =>
    subst position
    cases move with
    | batch queued =>
      refine .inr ⟨rfl, Inbox.ring_popN _ _, ?_⟩
      simp [record, Inbox.Pc.batch]
    | empty drained =>
      refine .inr ⟨rfl, Inbox.ring_popN _ _, ?_⟩
      simp [record, Inbox.Pc.batch, drained]
    | push | pushFront | clear => exact absurd placed Routine.Placed.not_astray
    | _ => exact .inl (still rfl rfl)
  | inboxStarting position move | inboxStarted position move =>
    subst position
    cases move with
    | push | pushFront | clear | batch | empty => exact absurd placed Routine.Placed.not_astray
    | _ => exact .inl (still rfl rfl)
  | @fillPanics reason => cases reason <;> exact .inl ⟨rfl, rfl⟩
  | _ => exact .inl ⟨rfl, rfl⟩

theorem Advance.drained {a : Actor M W} (drained : a.Drained) (inside : a.Inside g)
    (posts : ∀ request pc e, g = .caller request (.inbox pc) → pc.letter = some e →
      e.isPill = true ∨ ∀ e ∈ a.batches.flatten, e.isPill = false)
    (pops : ∀ r, g = .proc r → r.act = .loop .popN →
      (∀ e ∈ a.inbox.rb.toList.take messageBatchSize, e.isPill = false) ∨
        ∀ e ∈ a.inbox.rb.toList.drop messageBatchSize, e.isPill = true)
    (advance : Advance a g action b next spawned) : b.Drained := by
  have mailbox {request : Request M} {pc : Inbox.Pc (Envelope M)} {turn}
      (same : g = .caller request (.inbox pc)) (aside : pc.aside = true)
      (move : Inbox.Move a.inbox pc turn) : (a.record pc turn).Drained := by
    rintro ⟨pill, member, stops⟩ e queued
    have quiet : turn.next.batch = [] := by cases move <;> first | rfl | cases aside
    have before : pill ∈ a.batches.flatten := by simpa [record, quiet] using member
    have known : pc.letter = some e ∨ e ∈ a.inbox.rb.toList := by
      cases move with
      | push | pushFront =>
        simp only [record, Inbox.ring_toList, Deque.perform, List.mem_append, List.mem_cons,
          List.not_mem_nil, or_false] at queued
        simp only [Inbox.Pc.letter, Option.some.injEq]
        tauto
      | clear => simp [record, Deque.perform] at queued
      | won | lost | again | finished => exact .inr queued
      | _ => cases aside
    cases known with
    | inr old => exact drained ⟨pill, before, stops⟩ e old
    | inl new =>
      cases posts request pc e same new with
      | inl also => exact also
      | inr none =>
        rw [none pill before] at stops
        cases stops
  cases advance with
  | mailed move | returned move => exact mailbox rfl inside.1 move
  | @moved r b next spawned move =>
    cases move.ring inside with
    | inl same =>
      unfold Drained
      rw [same.1, same.2]
      exact drained
    | inr popped =>
      obtain ⟨position, ring, batches⟩ := popped
      unfold Drained
      rw [ring, batches]
      rintro ⟨pill, member, stops⟩ e queued
      cases List.mem_append.mp member with
      | inl old => exact drained ⟨pill, old, stops⟩ e (List.mem_of_mem_drop queued)
      | inr new =>
        cases pops r rfl position with
        | inl none =>
          rw [none pill new] at stops
          cases stops
        | inr left => exact left e queued
  | @resumed r outcome site =>
    obtain ⟨-, batches, inbox, -⟩ := a.resume_traffic r site outcome
    unfold Drained
    rw [batches, inbox]
    exact drained
  | _ => exact drained

end Actor

namespace Engine
variable {i : Nat}

/-- What is known while every message is accounted for. -/
structure Accounted (s : State M W) : Prop where
  followed : Followed s
  balanced : Balanced s
  drained : s.actor.Drained
  callers : ∀ g ∈ s.pool, g.Gentle
  gentle : ∀ e ∈ Deque.pushed s.actor.ops, e.gentle = true

theorem request_gentle {s : State M W} {call : Call M} (poisons : poisonsOnly s (.call call) = true) (ctx : Nat) :
    ∀ e, (call.request ctx).pc.letter = some e → e.gentle = true := by
  intro e letter
  cases call with
  | stop => cases poisons
  | clearMailbox => cases letter
  | send | sendPriority | poison =>
    cases letter
    rfl

theorem Accounted.step {s t : State M W} (accounted : Accounted s)
    (stepped : restrict gracefulComplete State.step s label = some t) : Accounted t := by
  obtain ⟨allowed, stepped⟩ := restrict_some stepped
  simp only [gracefulComplete, graceful, Bool.and_eq_true] at allowed
  obtain ⟨⟨kept, poisons⟩, leaves⟩ := allowed
  have restricted : restrict calmKept State.step s label = some t := by
    rw [restrict, if_pos kept, stepped]
  have followed := followed_step accounted.followed restricted
  rcases step_cases stepped with ⟨call, rfl, rfl⟩ | ⟨child, rfl, rfl⟩ |
    ⟨i, action, g, b, next, spawned, rfl, found, advance, rfl⟩
  · refine ⟨followed, accounted.balanced.call call, accounted.drained, ?_, accounted.gentle⟩
    intro g member
    cases List.mem_append.mp member with
    | inl old => exact accounted.callers g old
    | inr new =>
      obtain rfl := List.mem_singleton.mp new
      refine ⟨request_gentle poisons _, ?_⟩
      intro inner same
      cases call <;> cases same
  · exact ⟨followed, accounted.balanced, accounted.drained, accounted.callers, accounted.gentle⟩
  · have member := List.mem_of_getElem? found
    obtain ⟨inside, -⟩ := accounted.followed.watched.inside g member
    obtain ⟨mild, gentle⟩ := advance.gentle (accounted.callers g member) accounted.gentle inside
    refine ⟨followed, accounted.balanced.advance inside found advance, ?_, ?_, gentle⟩
    · refine advance.drained accounted.drained inside ?_ ?_
      · rintro request pc e rfl letter
        cases advance with
        | mailed | returned =>
          simpa only [leavesNothing, found, letter, Option.all_some, Bool.or_eq_true, List.all_eq_true,
            Bool.not_eq_true'] using leaves
      · rintro ⟨base, replays, act⟩ rfl position
        subst position
        cases advance with
        | moved => simpa [leavesNothing, found] using leaves
        | resumed position | spawnedChild position => cases position
    · refine Pool.forall_step found accounted.callers (fun _ same => same) (fun _ => mild) ?_
      intro h new
      obtain ⟨r, rfl⟩ := advance.spawns h new
      trivial

theorem initial_accounted (opts : Opts W) (positive : 0 < opts.inboxSize) (parent : Bool) :
    Accounted (initial opts positive parent : State M W) where
  followed := followed_initial opts positive parent
  balanced := rfl
  drained := by
    rintro ⟨e, member, -⟩
    cases member
  callers g member := by
    obtain rfl := List.mem_singleton.mp member
    trivial
  gentle e member := by cases member

end Engine

/-- The user message among the words of a receiver. -/
def spoken (word : Received M × Option PID) : Option (M × Option PID) :=
  match word.1 with
  | .user msg => some (msg, word.2)
  | _ => none

omit [Inhabited M] in
theorem said_spoken (done : List (Envelope M)) :
    (done.filterMap Envelope.said).filterMap spoken = done.filterMap Envelope.message := by
  rw [List.filterMap_filterMap]
  congr 1
  funext e
  obtain ⟨msg, author⟩ := e
  cases msg <;> rfl

theorem told_heard (a : Actor M W) : a.told = a.heard.filterMap spoken := by
  rw [Actor.told, Actor.heard, List.filterMap_map]
  congr 1
  funext delivery
  obtain ⟨receiver, message, author, chain⟩ := delivery
  cases message <;> rfl

namespace Engine

/-- At rest the receiver was told all that was taken out of the mailbox. -/
theorem told_batches {opts : Opts W} {positive : 0 < opts.inboxSize} {s : State M W}
    (reached : Reaches (restrict calmKept State.step) (initial opts positive parent) s)
    (gentle : ∀ e ∈ s.actor.batches.flatten, e.gentle = true) (quiet : s.quiescent = true) :
    s.actor.told = s.actor.batches.flatten.filterMap Envelope.message ∧
      (s.actor.inbox.procStatus = .stopped → ∃ e ∈ s.actor.batches.flatten, e.isPill = true) := by
  have rested : s.actor.Rested := ((narrated_run reached).rest (quiescent_pending quiet).2).2
  rw [told_heard]
  unfold Actor.Rested Rested at rested
  split at rested
  · obtain ⟨earlier, ahead, ctx, graceful, author, behind, cut, heard⟩ := rested
    have pill : (⟨.poisonPill ctx graceful, author⟩ : Envelope M) ∈ s.actor.batches.flatten := by
      simp [cut.last]
    have kind : graceful = true := gentle _ pill
    have opening : (greeting : List (Received M × Option PID)).filterMap spoken = [] := rfl
    have closing : (farewell : List (Received M × Option PID)).filterMap spoken = [] := rfl
    refine ⟨?_, fun _ => ⟨_, pill, rfl⟩⟩
    rw [heard, if_pos kind, cut.last]
    simp only [List.filterMap_append, said_spoken, List.flatten_append, List.flatten_singleton,
      List.filterMap_cons, Envelope.message, opening, closing, List.nil_append, List.append_nil,
      List.append_assoc]
  · refine ⟨?_, fun stopped => absurd stopped (by assumption)⟩
    rw [rested.heard, List.filterMap_append, said_spoken]
    rfl

/-- Every message that was sent to an actor stopped through `Poison` only, if no
message enters the mailbox behind the batch with the pill and that batch leaves none
there, was told to the receiver or broadcast as a dead letter, as often as it was
sent. -/
theorem no_silent_loss (opts : Opts W) (positive : 0 < opts.inboxSize) (parent : Bool) (s : State M W)
    (reached : Reaches (restrict gracefulComplete State.step)
      (initial opts positive parent) s) (quiet : s.quiescent = true) :
    s.sent.Perm (s.actor.told ++ s.actor.deadLetters) := by
  have kept : Reaches (restrict calmKept State.step)
      (initial opts positive parent) s := by
    refine reached.relax calmKept ?_
    intro s label allowed
    simp only [gracefulComplete, graceful, Bool.and_eq_true] at allowed
    exact allowed.1.1
  have runs : Runs s := by
    refine ⟨opts, positive, parent, kept.relax calm ?_⟩
    intro s label allowed
    exact (Bool.and_eq_true_iff.mp allowed).1
  have accounted := reached.invariant Accounted.step (initial_accounted opts positive parent)
  have mail : s.actor.batches.flatten ++ s.actor.inbox.rb.toList |>.Perm (Deque.pushed s.actor.ops) := by
    have served := Deque.service_perm _ accounted.followed.mailed.proper.kept
    rw [accounted.followed.mailed.posted] at served
    exact served
  have gentle (e : Envelope M) (member : e ∈ s.actor.batches.flatten) : e.gentle = true :=
    accounted.gentle e (mail.subset (List.mem_append_left _ member))
  obtain ⟨told, pilled⟩ := told_batches kept gentle quiet
  -- what is left in the mailbox is no user message
  have left : s.actor.inbox.rb.toList.filterMap Envelope.message = [] := by
    rw [List.filterMap_eq_nil_iff]
    intro e queued
    cases quiescent_inbox runs quiet with
    | inl idle =>
      rw [idle.2] at queued
      cases queued
    | inr stopped =>
      have pill := accounted.drained (pilled stopped) e queued
      obtain ⟨msg, author⟩ := e
      cases msg with
      | user => cases pill
      | poisonPill => rfl
  have pushed : s.actor.pushed.Perm s.actor.told := by
    have served := (mail.filterMap Envelope.message).symm
    rw [List.filterMap_append, left, List.append_nil, ← told] at served
    exact served
  have balanced := accounted.balanced
  rw [Balanced, quiescent_waiting quiet, Multiset.coe_nil, zero_add, Multiset.coe_add, Multiset.coe_eq_coe] at balanced
  exact balanced.trans (pushed.append_right _)

/-- One message ahead of the pill, one behind it in its batch and one for an actor that
is gone. -/
def poisonThree : List (Label Nat) :=
  [.call (.send 1 none)] ++ steps 1 3 ++ poisonBetween ++ [returns 4] ++ steps 4 3 ++
    [.call (.send 3 none)] ++ steps 5 1

theorem no_silent_loss_three :
    ∃ s : State Nat Nat, s.quiescent = true ∧ s.sent = [(1, none), (2, none), (3, none)] ∧
      s.sent.Perm (s.actor.told ++ s.actor.deadLetters) := by
  obtain ⟨s, reached, ends⟩ := exists_of_run (restrict gracefulComplete State.step)
    (initial ⟨3, 1, []⟩ Nat.one_pos false : State Nat Nat) poisonThree
    (fun s => s.quiescent = true ∧ s.sent = [(1, none), (2, none), (3, none)]) (by decide +kernel)
  obtain ⟨quiet, sent⟩ := of_decide_eq_true ends
  exact ⟨s, quiet, sent, no_silent_loss ⟨3, 1, []⟩ Nat.one_pos false s reached quiet⟩

/-- The message comes into the mailbox after the batch with the pill was taken out and
before the actor has left the registry. -/
def sendBehindPill : List (Label Nat) :=
  steps 0 1 ++ [returns 0, returns 0] ++ steps 0 3 ++ [.call .poison] ++ steps 2 4 ++ steps 1 2 ++
    [.call (.send 1 none)] ++ steps 3 3 ++ steps 1 9 ++ [returns 1] ++ steps 1 3

theorem message_behind_pill_lost :
    ∃ s : State Nat Nat,
      Reaches (restrict graceful State.step) (initial ⟨3, 1, []⟩ Nat.one_pos false) s ∧
        s.quiescent = true ∧ s.sent = [(1, none)] ∧ s.actor.told = [] ∧ s.actor.deadLetters = [] := by
  obtain ⟨s, reached, ends⟩ := exists_of_run (restrict graceful State.step)
    (initial ⟨3, 1, []⟩ Nat.one_pos false : State Nat Nat) sendBehindPill
    (fun s => s.quiescent = true ∧ s.sent = [(1, none)] ∧ s.actor.told = [] ∧ s.actor.deadLetters = [])
    (by decide +kernel)
  exact ⟨s, reached, of_decide_eq_true ends⟩

end Engine
end Hollywood
