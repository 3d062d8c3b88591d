import Hollywood.Engine.StopRequests

/-! The mail of an actor: the history of its ring operations. The order of
service of that history is what the batches and the ring make up. As long as
nobody clears the mailbox, a message whose call has returned is in it, and pills
come in at the back and from calls that found the actor. -/
namespace Hollywood
open Transition
variable {M W : Type} [Inhabited M]

namespace Actor

/-- Everything that came into the mailbox, in the order of service. -/
def mail (a : Actor M W) : List (Envelope M) := Deque.service (Deque.replay a.ops)

def Posted (a : Actor M W) : Prop := Deque.replay a.ops = (a.batches.flatten, a.inbox.rb.toList)

theorem record_posted {a : Actor M W} (posted : a.Posted) (move : Inbox.Move a.inbox pc turn) :
    (a.record pc turn).Posted := by
  unfold Posted at posted ⊢
  simp only [record]
  cases move with
  | push | pushFront | clear =>
    rw [Inbox.replay_performed a.ops rfl, posted]
    simp [Deque.advance, Deque.perform, Deque.Result.released, Inbox.Pc.batch]
  | batch queued | empty queued =>
    rw [Inbox.replay_performed a.ops rfl, posted]
    simp [Deque.advance, Deque.perform, Deque.Result.released, Inbox.Pc.batch, queued]
  | _ =>
    rw [Inbox.replay_silent a.ops rfl, posted]
    simp [Inbox.Pc.batch]

theorem Move.posted {a : Actor M W} {r : Routine M} (posted : a.Posted)
    (move : Move a r b next spawned) : b.Posted := by
  cases move with
  | looped position move | left position move | inboxStarting position move
  | inboxStarted position move => exact record_posted posted move
  | @fillPanics reason => cases reason <;> exact posted
  | _ => exact posted

theorem resume_traffic (a : Actor M W) (r : Routine M) (site : Site M) (outcome : Outcome) :
    (a.resume r site outcome).1.ops = a.ops ∧ (a.resume r site outcome).1.batches = a.batches ∧
      (a.resume r site outcome).1.inbox = a.inbox ∧
      (a.resume r site outcome).1.registered = a.registered := by
  cases outcome with
  | returns =>
    cases site with
    | started =>
      simp only [resume]
      split <;> exact ⟨rfl, rfl, rfl, rfl⟩
    | _ => exact ⟨rfl, rfl, rfl, rfl⟩
  | panics v =>
    cases site with
    | cleanup reason => cases reason <;> exact ⟨rfl, rfl, rfl, rfl⟩
    | _ => exact ⟨rfl, rfl, rfl, rfl⟩

theorem Advance.posted {a : Actor M W} (posted : a.Posted)
    (advance : Advance a g action b next spawned) : b.Posted := by
  cases advance with
  | mailed move | returned move => exact record_posted posted move
  | moved move => exact move.posted posted
  | @resumed r outcome site =>
    obtain ⟨ops, batches, inbox, -⟩ := a.resume_traffic r site outcome
    unfold Posted
    rwa [ops, batches, inbox]
  | _ => exact posted

/-- Operations that drop nothing and let pills in at the back only, from calls
that found the actor. -/
structure Proper (a : Actor M W) (ops : List (Deque.Op (Envelope M))) : Prop where
  kept : .clear ∉ ops
  front : ∀ e, .pushFront e ∈ ops → e.isPill = false
  back : ∀ e ctx, .push e ∈ ops → e.context = some ctx → ctx ∈ a.accepted

section
variable {ops more : List (Deque.Op (Envelope M))}

theorem Proper.mono {a b : Actor M W} (proper : a.Proper ops) (grown : a.accepted ⊆ b.accepted) :
    b.Proper ops :=
  ⟨proper.kept, proper.front, fun e ctx member pill => grown (proper.back e ctx member pill)⟩

theorem Proper.append {a : Actor M W} (first : a.Proper ops) (second : a.Proper more) :
    a.Proper (ops ++ more) where
  kept member := (List.mem_append.mp member).elim first.kept second.kept
  front e member := (List.mem_append.mp member).elim (first.front e) (second.front e)
  back e ctx member := (List.mem_append.mp member).elim (first.back e ctx) (second.back e ctx)

end

theorem proper_nil (a : Actor M W) : a.Proper [] := ⟨nofun, nofun, nofun⟩

theorem vouches_proper {a : Actor M W} {pc : Inbox.Pc (Envelope M)} (vouched : a.vouches pc)
    (keeps : pc ≠ .clear) : a.Proper pc.op.toList := by
  cases pc with
  | push e =>
    refine ⟨by simp [Inbox.Pc.op], by simp [Inbox.Pc.op], ?_⟩
    intro sent ctx member pill
    obtain rfl : sent = e := by simpa [Inbox.Pc.op] using member
    exact (vouched sent ctx rfl pill).1
  | pushFront e =>
    refine ⟨by simp [Inbox.Pc.op], ?_, by simp [Inbox.Pc.op]⟩
    intro sent member
    obtain rfl : sent = e := by simpa [Inbox.Pc.op] using member
    obtain ⟨msg, author⟩ := sent
    cases msg with
    | user => rfl
    | poisonPill ctx graceful =>
      have urgent := (vouched _ ctx rfl rfl).2
      cases urgent
  | popN => exact ⟨by simp [Inbox.Pc.op], by simp [Inbox.Pc.op], by simp [Inbox.Pc.op]⟩
  | clear => exact absurd rfl keeps
  | _ => exact proper_nil a

theorem Move.ops {a : Actor M W} {r : Routine M} (sound : r.Sound a)
    (move : Move a r b next spawned) : ∃ more, b.ops = a.ops ++ more ∧ a.Proper more := by
  have silent (same : b.ops = a.ops) : ∃ more, b.ops = a.ops ++ more ∧ a.Proper more :=
    ⟨[], by rw [same, List.append_nil], proper_nil a⟩
  have recorded {pc} (position : r.act = .loop pc ∨ r.act = .inboxStart pc) :
      a.Proper pc.op.toList := by
    refine vouches_proper (owner_vouches sound position) ?_
    rintro rfl
    obtain ⟨base, replays, act⟩ := r
    have placed := sound.placed
    rcases position with rfl | rfl <;> exact absurd placed Routine.Placed.not_astray
  cases move with
  | looped position | left position => exact ⟨_, rfl, recorded (.inl position)⟩
  | inboxStarting position | inboxStarted position => exact ⟨_, rfl, recorded (.inr position)⟩
  | @fillPanics reason => cases reason <;> exact silent rfl
  | _ => exact silent rfl

end Actor

/-- Not a call of `ClearMailbox`. -/
def Goroutine.Keeps : Goroutine M → Prop
  | .caller request pc => request ≠ .clearMailbox ∧ pc ≠ .inbox .clear
  | .proc _ => True

namespace Actor

theorem Advance.ops {a : Actor M W} (inside : a.Inside g) (keeps : g.Keeps)
    (advance : Advance a g action b next spawned) :
    (∃ more, b.ops = a.ops ++ more ∧ a.Proper more) ∧ next.Keeps := by
  have silent (same : b.ops = a.ops) : ∃ more, b.ops = a.ops ++ more ∧ a.Proper more :=
    ⟨[], by rw [same, List.append_nil], proper_nil a⟩
  cases advance with
  | accepted | rejected | missing => exact ⟨silent rfl, keeps.1, nofun⟩
  | @found request =>
    refine ⟨silent rfl, keeps.1, ?_⟩
    cases request with
    | clearMailbox => exact absurd rfl keeps.1
    | _ => exact nofun
  | @mailed pc turn request move =>
    have proper := vouches_proper inside.2 fun same => keeps.2 (congrArg _ same)
    refine ⟨⟨_, rfl, proper⟩, keeps.1, ?_⟩
    cases move <;> exact nofun
  | returned move =>
    have proper := vouches_proper inside.2 fun same => keeps.2 (congrArg _ same)
    exact ⟨⟨_, rfl, proper⟩, keeps.1, nofun⟩
  | moved move => exact ⟨move.ops inside, trivial⟩
  | @resumed r outcome site => exact ⟨silent (a.resume_traffic r site outcome).1, trivial⟩
  | spawnedChild => exact ⟨silent rfl, trivial⟩

theorem Move.registered {a : Actor M W} {r : Routine M} (move : Move a r b next spawned) :
    b.registered = a.registered ∨ ∃ reason, r.act = .unregister reason := by
  cases move with
  | unregister position => exact .inr ⟨_, position⟩
  | @fillPanics reason => cases reason <;> exact .inl rfl
  | _ => exact .inl rfl

end Actor

/-- The message of the call is on its way or in the mailbox. -/
def Goroutine.Sent (ops : List (Deque.Op (Envelope M))) : Goroutine M → Prop
  | .caller request pc => ∀ e, request.pc.letter = some e →
      pc = .lookup ∨ pc = .inbox request.pc ∨ e ∈ Deque.pushed ops
  | .proc _ => True

omit [Inhabited M] in
theorem Goroutine.Sent.mono {g : Goroutine M} {ops : List (Deque.Op (Envelope M))} (sent : g.Sent ops)
    (more : List (Deque.Op (Envelope M))) : g.Sent (ops ++ more) := by
  cases g with
  | proc r => trivial
  | caller request pc =>
    intro e letter
    refine (sent e letter).imp_right (Or.imp_right fun arrived => ?_)
    rw [Deque.pushed_append]
    exact List.mem_append_left _ arrived

namespace Engine

/-- A process leaves the registry for a pill, so for a call that found it. -/
theorem advance_listed {a : Actor M W} {g : Goroutine M} (inside : a.Inside g)
    (known : g.holds = true → Untroubled a g ∧ Accountable a g)
    (listed : a.registered = false → a.accepted ≠ []) (advance : a.Advance g action b next spawned)
    (gone : b.registered = false) : b.accepted ≠ [] := by
  cases advance with
  | accepted registered => exact absurd (registered.symm.trans gone) (by decide)
  | @moved r b next spawned move =>
    rw [move.requests.1]
    rcases move.registered with same | ⟨reason, position⟩
    · exact listed (same ▸ gone)
    · obtain ⟨base, replays, act⟩ := r
      subst position
      cases reason with
      | pill f ctx => exact List.ne_nil_of_mem ((known rfl).2.confined.serves ctx rfl)
      | limit => exact absurd (Routine.Sound.placed inside) Routine.Placed.not_astray
  | @resumed r outcome site =>
    rw [(a.resume_requests r site outcome).1]
    exact listed ((a.resume_traffic r site outcome).2.2.2 ▸ gone)
  | _ => exact listed gone

/-- Whatever a call does in the inbox, its message has been pushed by then. -/
theorem sent_recorded {a : Actor M W} {request : Request M}
    (sent : (Goroutine.caller request (.inbox pc)).Sent a.ops) (letter : request.pc.letter = some e)
    (turn : Inbox.Turn (Envelope M)) : e ∈ Deque.pushed (a.record pc turn).ops := by
  simp only [Actor.record, Deque.pushed_append, List.mem_append]
  rcases sent e letter with absurd | same | arrived
  · cases absurd
  · obtain rfl := CallPc.inbox.inj same
    right
    cases request with
    | clearMailbox => cases letter
    | _ =>
      obtain rfl := Option.some.inj letter
      simp [Request.pc, Inbox.Pc.op, Deque.pushed]
  · exact .inl arrived

theorem advance_sent {a : Actor M W} {g : Goroutine M} (sent : g.Sent a.ops)
    (registered : a.registered = true) (advance : a.Advance g action b next spawned) :
    next.Sent b.ops := by
  cases advance with
  | accepted | found => exact fun e letter => by simp
  | rejected missing | missing missing => exact absurd (registered.symm.trans missing) (by decide)
  | mailed | returned => exact fun e letter => .inr (.inr (sent_recorded sent letter _))
  | moved | resumed | spawnedChild => trivial

def keepsMail (_ : State M W) : Label M → Bool
  | .call .clearMailbox => false
  | _ => true

/-- Runs without panics and without `ClearMailbox`. -/
def calmKept (s : State M W) (label : Label M) : Bool := calm s label && keepsMail s label

/-- The mail of a run in which nobody clears the mailbox. -/
structure Mailed (s : State M W) : Prop where
  posted : s.actor.Posted
  proper : s.actor.Proper s.actor.ops
  keeps : ∀ g ∈ s.pool, g.Keeps
  listed : s.actor.registered = false → s.actor.accepted ≠ []
  sent : s.contexts = 0 → ∀ g ∈ s.pool, g.Sent s.actor.ops

theorem mailed_call {s : State M W} (mailed : Mailed s) (call : Call M)
    (kept : call ≠ .clearMailbox) : Mailed (s.call call) where
  posted := mailed.posted
  proper := mailed.proper
  keeps g member := by
    rcases List.mem_append.mp member with old | new
    · exact mailed.keeps g old
    · obtain rfl := List.mem_singleton.mp new
      cases call with
      | clearMailbox => exact absurd rfl kept
      | _ => exact ⟨nofun, nofun⟩
  listed := mailed.listed
  sent none g member := by
    have before : s.contexts = 0 := Nat.eq_zero_of_add_eq_zero_right none
    rcases List.mem_append.mp member with old | new
    · exact mailed.sent before g old
    · obtain rfl := List.mem_singleton.mp new
      cases call with
      | clearMailbox => exact absurd rfl kept
      | send | sendPriority => exact fun e letter => .inl rfl
      | stop | poison => cases none

theorem mailed_step {s t : State M W} (watched : Watched s) (issued : Issued s) (mailed : Mailed s)
    (stepped : restrict calmKept State.step s label = some t) :
    Mailed t ∧ ∃ more, t.actor.ops = s.actor.ops ++ more := by
  obtain ⟨allowed, stepped⟩ := restrict_some stepped
  rcases step_cases stepped with ⟨call, rfl, rfl⟩ | ⟨child, rfl, rfl⟩ |
    ⟨i, action, g, b, next, spawned, rfl, found, advance, rfl⟩
  · refine ⟨mailed_call mailed call ?_, [], (List.append_nil _).symm⟩
    rintro rfl
    simp [calmKept, keepsMail] at allowed
  · exact ⟨⟨mailed.posted, mailed.proper.mono (List.Subset.refl _), mailed.keeps, mailed.listed,
      mailed.sent⟩, [], (List.append_nil _).symm⟩
  · have member := List.mem_of_getElem? found
    obtain ⟨inside, known⟩ := watched.inside g member
    obtain ⟨⟨more, grown, proper⟩, keeps⟩ := advance.ops inside (mailed.keeps g member)
    refine ⟨⟨advance.posted mailed.posted, ?_, ?_, ?_, ?_⟩, more, grown⟩
    · dsimp only
      rw [grown]
      exact (mailed.proper.append proper).mono advance.grows
    · exact Pool.forall_step found mailed.keeps (fun _ same => same)
        (fun _ => keeps) fun h new => by
          obtain ⟨r, rfl⟩ := advance.spawns h new
          trivial
    · exact advance_listed inside known mailed.listed advance
    · intro none
      have registered : s.actor.registered = true := by
        by_contra gone
        obtain ⟨ctx, taken⟩ := List.exists_mem_of_ne_nil _ (mailed.listed (Bool.not_eq_true _ ▸ gone))
        have made := issued.mem_iff.mp (List.mem_append_right _ (List.mem_append_left _ taken))
        rw [none] at made
        cases made
      refine Pool.forall_step found (mailed.sent none) ?_ (fun sent => advance_sent sent registered advance) ?_
      · intro h sent
        dsimp only
        rw [grown]
        exact sent.mono more
      · intro h new
        obtain ⟨r, rfl⟩ := advance.spawns h new
        trivial

/-- What is known in every state of a run without panics and `ClearMailbox`. -/
structure Followed (s : State M W) : Prop where
  watched : Watched s
  issued : Issued s
  mailed : Mailed s

theorem followed_step {s t : State M W} (followed : Followed s)
    (stepped : restrict calmKept State.step s label = some t) : Followed t where
  watched := Ordered.step stop_account (fun allowed _ => (Bool.and_eq_true_iff.mp allowed).1)
    followed.watched stepped
  issued := issued_step followed.issued (restrict_some stepped).2
  mailed := (mailed_step followed.watched followed.issued followed.mailed stepped).1

theorem followed_initial (opts : Opts W) (positive : 0 < opts.inboxSize) (parent : Bool) :
    Followed (initial opts positive parent : State M W) where
  watched := watched_calm (.refl _)
  issued := .refl _
  mailed := by
    refine ⟨?_, Actor.proper_nil _, ?_, nofun, ?_⟩
    · simp [Actor.Posted, initial, Actor.new, Inbox.new, Ring.new_toList, Deque.replay,
        Deque.replayFrom]
    · simp [initial, Goroutine.Keeps]
    · simp [initial, Goroutine.Sent]

theorem mail_grows {s t : State M W} (followed : Followed s)
    (path : Reaches (restrict calmKept State.step) s t) :
    Followed t ∧ ∃ more, t.actor.ops = s.actor.ops ++ more := by
  induction path with
  | refl => exact ⟨followed, [], (List.append_nil _).symm⟩
  | next _ stepped ih =>
    obtain ⟨followed, more, grown⟩ := ih
    obtain ⟨-, last, later⟩ := mailed_step followed.watched followed.issued followed.mailed stepped
    exact ⟨followed_step followed stepped, more ++ last, by rw [later, grown, List.append_assoc]⟩

/-- Without a stop request there is no pill. -/
theorem mail_plain {s : State M W} (followed : Followed s) (none : s.contexts = 0) :
    ∀ e ∈ s.actor.mail, e.isPill = false := by
  intro e member
  have proper := followed.mailed.proper
  rcases Deque.mem_pushed.mp ((Deque.service_perm _ proper.kept).subset member) with back | front
  · obtain ⟨msg, author⟩ := e
    cases msg with
    | user msg => rfl
    | poisonPill ctx graceful =>
      have taken := proper.back _ ctx back rfl
      have made := followed.issued.mem_iff.mp (List.mem_append_right _ (List.mem_append_left _ taken))
      rw [none] at made
      cases made
  · exact proper.front e front

/-- What was sent before the first stop request stays ahead of every pill. -/
theorem sent_ahead {s t : State M W} (followed : Followed s) (none : s.contexts = 0)
    (path : Reaches (restrict calmKept State.step) s t)
    (returned : .caller request .returned ∈ s.pool) (letter : request.pc.letter = some e) :
    e ∈ t.actor.mail.takeWhile (!·.isPill) := by
  obtain ⟨later, more, grown⟩ := mail_grows followed path
  have arrived : e ∈ s.actor.mail := by
    refine (Deque.service_perm _ followed.mailed.proper.kept).mem_iff.mpr ?_
    have sent : ∀ e, request.pc.letter = some e → CallPc.returned = .lookup ∨
        CallPc.returned = .inbox request.pc ∨ e ∈ Deque.pushed s.actor.ops :=
      followed.mailed.sent none _ returned
    rcases sent e letter with absurd | absurd | arrived
    · cases absurd
    · cases absurd
    · exact arrived
  have proper := later.mailed.proper
  rw [grown] at proper
  have ahead := Deque.service_ahead (!·.isPill) s.actor.ops more
    (fun member => proper.kept (List.mem_append_right _ member))
    fun item member => by simp [proper.front item (List.mem_append_right _ member)]
  rw [← grown] at ahead
  refine ahead.subset ?_
  have passes : ∀ e ∈ s.actor.mail, (!e.isPill) = true := by
    intro e member
    simp [mail_plain followed none e member]
  exact (List.takeWhile_eq_self_iff.mpr passes).symm ▸ arrived

end Engine
end Hollywood
