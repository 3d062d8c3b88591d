import Hollywood.Engine.Progress

/-! What an actor completes however it is scheduled. A stop request that found the actor is
on its way into the mailbox, or its pill has been put there, or the actor has left the
registry; where nothing is on its way any more, a mailbox that is idle has served all of its
mail, so an actor with a stop request is gone. Without one, all that was sent was heard. -/
namespace Hollywood
open Transition
variable {M W : Type} [Inhabited M]

/-- The call has still to put the pill of the context into the mailbox. -/
def Goroutine.carries (ctx : Nat) : Goroutine M → Prop
  | .caller request .lookup => ctx ∈ request.contexts
  | .caller _ (.inbox pc) => pc.letter.bind Envelope.context = some ctx
  | _ => False

namespace Actor

/-- The pill of the context was put into the mailbox. -/
def Dosed (a : Actor M W) (ctx : Nat) : Prop := ∃ e ∈ Deque.pushed a.ops, e.context = some ctx

theorem record_dosed {a : Actor M W} (move : Inbox.Move a.inbox pc turn) :
    (a.record pc turn).Dosed ctx ↔ a.Dosed ctx ∨ pc.letter.bind Envelope.context = some ctx := by
  simp only [Dosed, record, Deque.pushed_append, move.letters.1, List.mem_append, or_and_right, exists_or]
  cases pc.letter <;> simp

theorem Move.dosed {a : Actor M W} {r : Routine M} (sound : r.Sound a) (move : Move a r b next spawned)
    (dosed : a.Dosed ctx) : b.Dosed ctx := by
  rwa [Dosed, move.pushes sound]

theorem resume_dosed {a : Actor M W} (r : Routine M) (site : Site M) (outcome : Outcome)
    (dosed : a.Dosed ctx) : (a.resume r site outcome).1.Dosed ctx := by
  rwa [Dosed, (a.resume_traffic r site outcome).1]

/-- A pill stays in the mail once it is there. -/
theorem Advance.dosed {a : Actor M W} (inside : a.Inside g) (advance : Advance a g action b next spawned)
    (dosed : a.Dosed ctx) : b.Dosed ctx := by
  cases advance with
  | mailed move | returned move => exact (record_dosed move).mpr (.inl dosed)
  | moved move => exact move.dosed inside dosed
  | resumed => exact resume_dosed _ _ _ dosed
  | _ => exact dosed

/-- A call that carries a pill goes on to carry it, or puts it into the mailbox, as long as
the actor is registered. -/
theorem Advance.carries {a : Actor M W} (advance : Advance a g action b next spawned)
    (registered : b.registered = true) (carries : g.carries ctx) : next.carries ctx ∨ b.Dosed ctx := by
  cases advance with
  | accepted | rejected => cases carries
  | missing gone => exact absurd (registered.symm.trans gone) (by decide)
  | @found request =>
    cases request with
    | poison graceful other =>
      obtain rfl := List.mem_singleton.mp carries
      exact .inl rfl
    | _ => cases carries
  | mailed move | returned move => exact .inr ((record_dosed move).mpr (.inr carries))
  | moved | resumed | spawnedChild => cases carries

/-- A stop request that finds the actor goes on to its second lookup. -/
theorem Advance.taken {a : Actor M W} (advance : Advance a g action b next spawned)
    (taken : ctx ∈ b.accepted) : ctx ∈ a.accepted ∨ next.carries ctx := by
  cases advance with
  | accepted => exact List.mem_append.mp taken
  | moved move => exact .inl (move.requests.1 ▸ taken)
  | @resumed r outcome site => exact .inl ((a.resume_requests r site outcome).1 ▸ taken)
  | _ => exact .inl taken

theorem Advance.registered {a : Actor M W} (inside : a.Inside g) (calm : action.calm = true)
    (advance : Advance a g action b next spawned) (registered : b.registered = true) :
    a.registered = true ∧ b.deadLetters = a.deadLetters := by
  cases advance with
  | rejected gone | missing gone => exact absurd (registered.symm.trans gone) (by decide)
  | moved move => exact ⟨(move.fades inside).1.registered registered, move.deadLetters⟩
  | @resumed r outcome site =>
    exact ⟨(a.resume_traffic r site outcome).2.2.2 ▸ registered, a.resume_deadLetters r site outcome⟩
  | _ => exact ⟨registered, rfl⟩

end Actor

namespace Engine
variable {i : Nat}

/-- Where the stop requests that found the actor are, and the messages that did not, while
the actor is registered. -/
structure Underway (s : State M W) : Prop where
  pills : s.actor.registered = true → ∀ ctx ∈ s.actor.accepted,
    (∃ g ∈ s.pool, g.carries ctx) ∨ s.actor.Dosed ctx
  letters : s.actor.registered = true → s.actor.deadLetters = []

theorem Underway.step {s t : State M W} (watched : Watched s) (underway : Underway s)
    (stepped : restrict calm State.step s label = some t) : Underway t := by
  obtain ⟨allowed, stepped⟩ := restrict_some stepped
  rcases step_cases stepped with ⟨call, rfl, rfl⟩ | ⟨child, rfl, rfl⟩ |
    ⟨i, action, g, b, next, spawned, rfl, found, advance, rfl⟩
  · refine ⟨fun registered ctx taken => ?_, underway.letters⟩
    refine (underway.pills registered ctx taken).imp_left ?_
    rintro ⟨g, member, carries⟩
    exact ⟨g, List.mem_append_left _ member, carries⟩
  · exact ⟨underway.pills, underway.letters⟩
  · have inside := (watched.inside g (List.mem_of_getElem? found)).1
    constructor
    · intro registered ctx taken
      have before := (advance.registered inside allowed registered).1
      rcases advance.taken taken with earlier | mine
      · rcases underway.pills before ctx earlier with carried | dosed
        · by_cases self : g.carries ctx
          · exact (advance.carries registered self).imp_left (Pool.exists_moved found)
          · exact .inl (Pool.exists_kept found carried self)
        · exact .inr (advance.dosed inside dosed)
      · exact .inl (Pool.exists_moved found mine)
    · intro registered
      obtain ⟨before, same⟩ := advance.registered inside allowed registered
      exact same.trans (underway.letters before)

/-- What is known of the requests, the mail and the words of an actor whose receiver has not
panicked. -/
structure Traced (s : State M W) : Prop where
  narrated : Ordered (fun a g => (Untroubled a g ∧ Accountable a g) ∧ Narrated a g)
    (fun a => (a.mbuffer = [] ∧ a.Resting) ∧ a.Rested) s
  posted : s.actor.Posted
  underway : Underway s

theorem Runs.watched {s : State M W} (runs : Runs s) : Watched s := by
  obtain ⟨opts, positive, parent, reached⟩ := runs
  exact watched_calm reached

theorem Runs.traced {s : State M W} (runs : Runs s) : Traced s := by
  obtain ⟨opts, positive, parent, reached⟩ := runs
  have both : Watched s ∧ Traced s := by
    refine reached.invariant (P := fun s => Watched s ∧ Traced s) ?_ ⟨watched_calm (.refl _), ?_, ?_, ?_⟩
    · rintro s label t ⟨watched, traced⟩ stepped
      refine ⟨Ordered.step stop_account (fun allowed _ => allowed) watched stepped,
        Ordered.step narrated_account (fun allowed _ => allowed) traced.narrated stepped, ?_,
        traced.underway.step watched stepped⟩
      rcases step_cases (restrict_some stepped).2 with ⟨call, -, rfl⟩ | ⟨child, -, rfl⟩ |
        ⟨i, action, g, b, next, spawned, -, -, advance, rfl⟩
      · exact traced.posted
      · exact traced.posted
      · exact advance.posted traced.posted
    · have first := ((watched_calm (.refl (initial opts positive parent : State M W))).inside _
        (List.mem_singleton_self _)).2 rfl
      exact ordered_initial opts positive parent ⟨first, rfl, rfl⟩
    · exact (followed_initial opts positive parent).mailed.posted
    · exact ⟨fun _ _ taken => (nomatch taken), fun _ => rfl⟩
  exact both.2

/-- An actor at rest that has not left has served all of its mail, and if nobody has cleared
the mailbox, no stop request has found it. -/
theorem Runs.waiting {s : State M W} (runs : Runs s) (quiet : s.quiescent = true)
    (idle : s.actor.inbox.procStatus = .idle) (drained : s.actor.inbox.rb.toList = []) :
    Served s.actor.heard s.actor.mail ∧ s.actor.registered = true ∧
      (.clear ∉ s.actor.ops → s.actor.accepted = []) := by
  have traced := runs.traced
  have served : Served s.actor.heard s.actor.batches.flatten :=
    (rested_running (by simp [idle])).mp (traced.narrated.rest (quiescent_pending quiet).2).2
  have mail : s.actor.mail = s.actor.batches.flatten := by
    rw [Actor.mail, traced.posted, Deque.service, drained, List.append_nil]
  have away := (runs.departure.rest (quiescent_pending quiet).2).2
  have registered := ((Actor.away_running (by simp [idle])).mp away).1
  refine ⟨mail ▸ served, registered, fun kept => ?_⟩
  by_contra some
  obtain ⟨ctx, taken⟩ := List.exists_mem_of_ne_nil _ some
  rcases traced.underway.pills registered ctx taken with ⟨g, member, carries⟩ | ⟨e, pushed, pill⟩
  · have ended := List.all_eq_true.mp quiet g member
    cases g with
    | proc r => cases carries
    | caller request pc =>
      cases pc with
      | returned => cases carries
      | _ => cases ended
  · have present : e ∈ s.actor.mail := (Deque.service_perm _ kept).mem_iff.mpr pushed
    have plain := served.plain e (mail ▸ present)
    obtain ⟨msg, author⟩ := e
    cases msg with
    | user => cases pill
    | poisonPill => cases plain

/-- A stop request that has found the actor and is left without an answer when the actor is
at rest was not the only one, or the mailbox was cleared. -/
theorem Runs.unanswered {s : State M W} (runs : Runs s) (quiet : s.quiescent = true)
    (taken : ctx ∈ s.actor.accepted) (unanswered : ctx ∉ s.actor.cancelled) :
    2 ≤ s.actor.accepted.length ∨ .clear ∈ s.actor.ops := by
  rcases quiescent_inbox runs quiet with ⟨idle, drained⟩ | stopped
  · right
    by_contra kept
    rw [(runs.waiting quiet idle drained).2.2 kept] at taken
    cases taken
  · left
    have resting := (runs.watched.rest (quiescent_pending quiet).2).2
    have settled := resting.settled
    rw [Actor.Settled, if_pos stopped] at settled
    obtain ⟨other, cancelled⟩ := settled
    have accepted := resting.cancelled other (by simp [cancelled])
    by_contra few
    obtain ⟨sole, same⟩ := List.length_eq_one_iff.mp
      (Nat.le_antisymm (Nat.le_of_lt_succ (Nat.lt_of_not_le few)) (List.length_pos_of_mem taken))
    rw [same, List.mem_singleton] at taken accepted
    rw [cancelled, taken, accepted] at unanswered
    exact unanswered (List.mem_singleton_self _)

/-- A run without panics and `ClearMailbox`, with what is known of its mail. -/
structure Kept (s : State M W) : Prop where
  runs : Runs s
  followed : Followed s
  balanced : Balanced s

theorem Kept.step {s t : State M W} (kept : Kept s)
    (stepped : restrict calmKept State.step s label = some t) : Kept t where
  runs := by
    obtain ⟨allowed, moved⟩ := restrict_some stepped
    refine kept.runs.trans (.next (.refl _) (l := label) ?_)
    rw [restrict, if_pos (Bool.and_eq_true_iff.mp allowed).1, moved]
  followed := followed_step kept.followed stepped
  balanced := by
    rcases step_cases (restrict_some stepped).2 with ⟨call, -, rfl⟩ | ⟨child, -, rfl⟩ |
      ⟨i, action, g, b, next, spawned, -, found, advance, rfl⟩
    · exact kept.balanced.call call
    · exact kept.balanced
    · exact kept.balanced.advance (kept.followed.watched.inside g (List.mem_of_getElem? found)).1 found advance

theorem kept_of_reaches {opts : Opts W} {positive : 0 < opts.inboxSize} {s : State M W}
    (reached : Reaches (restrict calmKept State.step) (initial opts positive parent) s) :
    Kept s := by
  refine reached.invariant (P := Kept) Kept.step ?_
  exact ⟨⟨opts, positive, parent, .refl _⟩, followed_initial opts positive parent, rfl⟩

theorem Kept.moves {s t : State M W} (kept : Kept s) (moves : label.moves) (stepped : s.step label = some t) :
    Kept t := by
  have allowed : calmKept s label = true := by
    cases label with
    | act i action => exact Bool.and_eq_true_iff.mpr ⟨Action.goes_calm moves, rfl⟩
    | _ => cases moves
  have restricted : restrict calmKept State.step s label = some t := by
    rw [restrict, if_pos allowed, stepped]
  exact kept.step restricted

/-- At rest, and registered, all that was sent has come into the mailbox. -/
theorem Kept.arrived {s : State M W} (kept : Kept s) (quiet : s.quiescent = true)
    (registered : s.actor.registered = true) : s.sent.Perm (s.actor.mail.filterMap Envelope.message) := by
  have balanced := kept.balanced
  rw [Balanced, quiescent_waiting quiet, kept.runs.traced.underway.letters registered, Multiset.coe_nil, zero_add,
    add_zero, Multiset.coe_eq_coe] at balanced
  have served := (Deque.service_perm _ kept.followed.mailed.proper.kept).filterMap Envelope.message
  exact balanced.trans served.symm

/-- A stop request that has found the actor is carried out under every scheduling, if nobody
clears the mailbox and the receiver returns: in the end the actor is out of the registry and
out of its parent's children, a stop request is answered, and the actor was told all messages
ahead of the first pill, if that pill is graceful also those behind it in its batch, and
Stopped last. -/
theorem stop_is_carried_out (opts : Opts W) (positive : 0 < opts.inboxSize) (parent : Bool) (s : State M W)
    (reached : Reaches (restrict calmKept State.step) (initial opts positive parent) s)
    (requested : s.actor.accepted ≠ []) :
    Inevitable State.step Label.moves
      (fun t => t.quiescent = true ∧ t.actor.departed = true ∧ t.actor.parent = false ∧
        (∃ ctx ∈ t.actor.accepted, t.actor.cancelled = [ctx]) ∧
        ∃ earlier ahead ctx graceful author behind,
          t.actor.batches = earlier ++ [ahead ++ ⟨.poisonPill ctx graceful, author⟩ :: behind] ∧
          earlier.flatten ++ ahead = t.actor.mail.takeWhile (!·.isPill) ∧
          t.actor.heard = greeting ++ (t.actor.mail.takeWhile (!·.isPill)).filterMap Envelope.said ++
            (if graceful then behind.filterMap Envelope.said else []) ++ farewell) s := by
  refine inevitable_of_rank (I := fun t => Kept t ∧ t.actor.accepted ≠ []) State.rank ?_ ?_ ?_
    ⟨kept_of_reaches reached, requested⟩
  · rintro t label u ⟨kept, requested⟩ moves stepped
    refine ⟨kept.moves moves stepped, ?_⟩
    rcases step_cases stepped with ⟨call, rfl, -⟩ | ⟨child, rfl, -⟩ |
      ⟨i, action, g, b, next, spawned, -, -, advance, rfl⟩
    · cases moves
    · cases moves
    · obtain ⟨ctx, taken⟩ := List.exists_mem_of_ne_nil _ requested
      exact List.ne_nil_of_mem (advance.grows taken)
  · exact fun known moves stepped => rank_lowers known.1.runs.departure moves stepped
  · rintro t ⟨kept, requested⟩ stuck
    have quiet := kept.runs.quiescent stuck
    rcases quiescent_inbox kept.runs quiet with ⟨idle, drained⟩ | stopped
    · exact absurd ((kept.runs.waiting quiet idle drained).2.2 kept.followed.mailed.proper.kept) requested
    · have away := (kept.runs.departure.rest (quiescent_pending quiet).2).2
      have resting := (kept.followed.watched.rest (quiescent_pending quiet).2).2
      have rested := (kept.runs.traced.narrated.rest (quiescent_pending quiet).2).2
      have settled := resting.settled
      rw [Actor.Away, if_pos stopped] at away
      rw [Actor.Settled, if_pos stopped] at settled
      rw [Actor.Rested, Rested, if_pos stopped] at rested
      obtain ⟨ctx, cancelled⟩ := settled
      obtain ⟨earlier, ahead, pill, graceful, author, behind, cut, heard⟩ := rested
      refine ⟨quiet, away.1, away.2, ⟨ctx, resting.cancelled ctx (by simp [cancelled]), cancelled⟩, ?_⟩
      have mail := mail_ahead kept.followed.mailed.posted cut rfl
      rw [mail] at heard
      exact ⟨earlier, ahead, pill, graceful, author, behind, cut.last, mail, heard⟩

/-- A stop request has found the actor while it has not even started. -/
theorem stop_is_carried_out_early :
    ∃ s t : State Nat Nat, s.actor.log = [] ∧ s.actor.accepted = [0] ∧ Reaches State.step s t ∧
      t.actor.departed = true ∧ ∃ ctx ∈ t.actor.accepted, t.actor.cancelled = [ctx] := by
  obtain ⟨s, reached, ends⟩ := exists_of_run (restrict calmKept State.step)
    (initial ⟨3, 1, []⟩ Nat.one_pos true : State Nat Nat)
    ([.call (.send 1 none), .call .poison] ++ steps 1 3 ++ steps 2 1)
    (fun s => s.actor.log = [] ∧ s.actor.accepted = [0]) (by decide +kernel)
  obtain ⟨unstarted, requested⟩ := of_decide_eq_true ends
  obtain ⟨labels, t, -, ran, -, -, departed, -, answered, -⟩ :=
    (stop_is_carried_out _ Nat.one_pos true s reached (by simp [requested])).exists_end
  exact ⟨s, t, unstarted, requested, reaches_of_run ran, departed, answered⟩

/-- Every message that was sent to an actor that nobody stops is told to its receiver, once,
under every scheduling: in the order of the mailbox, behind Initialized and Started. -/
theorem every_message_is_heard (opts : Opts W) (positive : 0 < opts.inboxSize) (parent : Bool) (s : State M W)
    (reached : Reaches (restrict calmKept State.step) (initial opts positive parent) s)
    (unstopped : s.contexts = 0) :
    Inevitable State.step Label.moves
      (fun t => t.quiescent = true ∧ t.actor.inbox.procStatus = .idle ∧
        t.actor.heard = greeting ++ t.actor.mail.filterMap Envelope.said ∧ t.actor.told.Perm s.sent) s := by
  refine inevitable_of_rank (I := fun t => Kept t ∧ t.contexts = 0 ∧ t.sent = s.sent) State.rank
    ?_ ?_ ?_ ⟨kept_of_reaches reached, unstopped, rfl⟩
  · rintro t label u ⟨kept, unstopped, sent⟩ moves stepped
    refine ⟨kept.moves moves stepped, ?_⟩
    rcases step_cases stepped with ⟨call, rfl, -⟩ | ⟨child, rfl, -⟩ |
      ⟨i, action, g, b, next, spawned, -, found, advance, rfl⟩
    · cases moves
    · cases moves
    · exact ⟨unstopped, (sent_advance found advance).trans sent⟩
  · exact fun known moves stepped => rank_lowers known.1.runs.departure moves stepped
  · rintro t ⟨kept, unstopped, sent⟩ stuck
    have quiet := kept.runs.quiescent stuck
    have registered : t.actor.registered = true := by
      by_contra gone
      obtain ⟨ctx, taken⟩ :=
        List.exists_mem_of_ne_nil _ (kept.followed.mailed.listed (Bool.not_eq_true _ ▸ gone))
      have made := kept.followed.issued.mem_iff.mp (List.mem_append_right _ (List.mem_append_left _ taken))
      rw [unstopped] at made
      cases made
    rcases quiescent_inbox kept.runs quiet with ⟨idle, drained⟩ | stopped
    · have served := (kept.runs.waiting quiet idle drained).1
      refine ⟨quiet, idle, served.heard, ?_⟩
      have told : t.actor.told = t.actor.mail.filterMap Envelope.message := by
        rw [told_heard, served.heard, List.filterMap_append, said_spoken]
        rfl
      rw [told, ← sent]
      exact (kept.arrived quiet registered).symm
    · have away := (kept.runs.departure.rest (quiescent_pending quiet).2).2
      rw [Actor.Away, if_pos stopped] at away
      rw [Actor.departed_registered away.1] at registered
      cases registered

/-- Two calls that have not yet looked the actor up. -/
theorem every_message_is_heard_two :
    ∃ s t : State Nat Nat, s.actor.told = [] ∧ Reaches State.step s t ∧
      t.actor.told.Perm [(1, none), (2, none)] := by
  obtain ⟨s, reached, ends⟩ := exists_of_run (restrict calmKept State.step)
    (initial ⟨3, 1, []⟩ Nat.one_pos false : State Nat Nat)
    [.call (.send 1 none), .call (.sendPriority 2 none)]
    (fun s => s.contexts = 0 ∧ s.actor.told = [] ∧ s.sent = [(1, none), (2, none)]) (by decide +kernel)
  obtain ⟨unstopped, silent, sent⟩ := of_decide_eq_true ends
  obtain ⟨labels, t, -, ran, -, -, -, -, told⟩ :=
    (every_message_is_heard _ Nat.one_pos false s reached unstopped).exists_end
  exact ⟨s, t, silent, reaches_of_run ran, sent ▸ told⟩

end Engine
end Hollywood
