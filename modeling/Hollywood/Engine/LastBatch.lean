import Hollywood.Engine.Mail

/-! What an actor is told before it stops. Without panics its only instance hears
Initialized, Started and the mail in the order of service up to the first pill,
after a graceful pill also the rest of that batch, and Stopped. -/
namespace Hollywood
open Transition
variable {M W : Type} [Inhabited M]

/-- A message with its sender; the messages of the lifecycle have none. -/
def Delivery.said (delivery : Delivery M W) : Received M × Option PID :=
  match delivery.message with
  | .user msg => (.user msg, delivery.sender)
  | message => (message, none)

def Envelope.said (envelope : Envelope M) : Option (Received M × Option PID) :=
  match envelope.msg with
  | .user msg => some (.user msg, envelope.sender)
  | .poisonPill _ _ => none

def greeting : List (Received M × Option PID) := [(.initialized, none), (.started, none)]

def farewell : List (Received M × Option PID) := [(.stopped, none)]

/-- What was heard is the greeting and the messages of `done`, where no pill is. -/
structure Served (heard : List (Received M × Option PID)) (done : List (Envelope M)) : Prop where
  plain : ∀ e ∈ done, e.isPill = false
  heard : heard = greeting ++ done.filterMap Envelope.said

/-- The last batch holds the first pill of all. -/
structure Cut (batches earlier : List (List (Envelope M))) (ahead : List (Envelope M))
    (pill : Envelope M) (behind : List (Envelope M)) : Prop where
  last : batches = earlier ++ [ahead ++ pill :: behind]
  plain : ∀ e ∈ earlier.flatten ++ ahead, e.isPill = false

/-- A graceful pill has been met and `rest` of its batch is still to be flushed. -/
def Flushing (heard : List (Received M × Option PID)) (batches : List (List (Envelope M)))
    (rest : List (Envelope M)) : Prop :=
  ∃ earlier ahead ctx author behind flushed,
    Cut batches earlier ahead ⟨.poisonPill ctx true, author⟩ behind ∧
    ⟨.poisonPill ctx true, author⟩ :: behind = flushed ++ rest ∧
    heard = greeting ++ (earlier.flatten ++ ahead ++ flushed).filterMap Envelope.said

/-- A pill has been met and served; `last` was heard after the messages. -/
def Ended (heard : List (Received M × Option PID)) (batches : List (List (Envelope M)))
    (last : List (Received M × Option PID)) : Prop :=
  ∃ earlier ahead ctx graceful author behind,
    Cut batches earlier ahead ⟨.poisonPill ctx graceful, author⟩ behind ∧
    heard = greeting ++ (earlier.flatten ++ ahead).filterMap Envelope.said ++
      (if graceful then behind.filterMap Envelope.said else []) ++ last

def Rested (heard : List (Received M × Option PID)) (batches : List (List (Envelope M)))
    (status : Status) : Prop :=
  if status = .stopped then Ended heard batches farewell else Served heard batches.flatten

/-- What has been heard, place by place. -/
def Tale (heard : List (Received M × Option PID)) (batches : List (List (Envelope M)))
    (status : Status) : Act M → Prop
  | .start => heard = [] ∧ batches = []
  | .receiving .initialized => heard = [(.initialized, none)] ∧ batches = []
  | .receiving .started | .inboxStart _ => heard = greeting ∧ batches = []
  | .loop .load | .loop .toIdle => Rested heard batches status
  | .loop .popN => Served heard batches.flatten
  | .loop (.invoke msgs) => ∃ earlier, batches = earlier ++ [msgs] ∧ Served heard earlier.flatten
  | .invoke f => f.processed = f.i ∧ ∃ earlier, batches = earlier ++ [f.msgs] ∧
      Served heard (earlier.flatten ++ f.msgs.take f.i)
  | .receiving (.message f) => f.processed = f.i ∧ ∃ earlier, batches = earlier ++ [f.msgs] ∧
      Served heard (earlier.flatten ++ f.msgs.take (f.i + 1))
  | .flush _ rest _ | .receiving (.flush _ rest _) => Flushing heard batches rest
  | .cleanup _ | .childrenLen _ | .makeChildren _ | .fillChildren _ _ | .poison _ _ | .stopInbox _
  | .unregister _ | .stopping _ => Ended heard batches []
  | .receiving (.cleanup _) | .cancel _ => Ended heard batches farewell
  | _ => False

section
variable {heard : List (Received M × Option PID)} {batches earlier : List (List (Envelope M))}
  {f : Frame M}

omit [Inhabited M] in
theorem said_snoc (done : List (Envelope M)) (e : Envelope M) :
    (done ++ [e]).filterMap Envelope.said = done.filterMap Envelope.said ++ e.said.toList := by
  rw [List.filterMap_append]
  cases said : e.said <;> simp [said]

omit [Inhabited M] in
theorem rested_running (running : status ≠ .stopped) :
    Rested heard batches status ↔ Served heard batches.flatten := by
  simp [Rested, running]

omit [Inhabited M] in
theorem served_greeting (fresh : heard = greeting ∧ batches = []) : Served heard batches.flatten := by
  obtain ⟨rfl, rfl⟩ := fresh
  exact ⟨List.forall_mem_nil _, rfl⟩

omit [Inhabited M] in
/-- The loop of `Invoke` comes to the end of its batch. -/
theorem served_batch (last : batches = earlier ++ [f.msgs]) (ends : f.msgs[f.i]? = none)
    (served : Served heard (earlier.flatten ++ f.msgs.take f.i)) : Served heard batches.flatten := by
  rw [List.take_of_length_le (List.getElem?_eq_none_iff.mp ends)] at served
  simpa [last] using served

omit [Inhabited M] in
/-- The loop delivers the next message. -/
theorem served_user (found : f.msgs[f.i]? = some ⟨.user msg, author⟩)
    (served : Served heard (earlier.flatten ++ f.msgs.take f.i)) :
    Served (heard ++ [(.user msg, author)]) (earlier.flatten ++ f.msgs.take (f.i + 1)) := by
  obtain ⟨inside, same⟩ := List.getElem?_eq_some_iff.mp found
  rw [List.take_succ_eq_append_getElem inside, same, ← List.append_assoc]
  constructor
  · intro e member
    rcases List.mem_append.mp member with old | new
    · exact served.plain e old
    · obtain rfl := List.mem_singleton.mp new
      rfl
  · rw [served.heard, said_snoc, List.append_assoc]
    rfl

omit [Inhabited M] in
/-- The loop meets the first pill. -/
theorem cut_batch (last : batches = earlier ++ [f.msgs]) (found : f.msgs[f.i]? = some pill)
    (served : Served heard (earlier.flatten ++ f.msgs.take f.i)) :
    Cut batches earlier (f.msgs.take f.i) pill (f.msgs.drop (f.i + 1)) := by
  obtain ⟨inside, rfl⟩ := List.getElem?_eq_some_iff.mp found
  refine ⟨?_, served.plain⟩
  rw [last, List.getElem_cons_drop, List.take_append_drop]

omit [Inhabited M] in
theorem flushing_start (last : batches = earlier ++ [f.msgs]) (processed : f.processed = f.i)
    (found : f.msgs[f.i]? = some ⟨.poisonPill ctx true, author⟩)
    (served : Served heard (earlier.flatten ++ f.msgs.take f.i)) :
    Flushing heard batches (f.msgs.drop f.processed) := by
  refine ⟨earlier, _, ctx, author, _, [], cut_batch last found served, ?_, ?_⟩
  · obtain ⟨inside, same⟩ := List.getElem?_eq_some_iff.mp found
    rw [List.nil_append, processed, List.drop_eq_getElem_cons inside, same]
  · rw [List.append_nil]
    exact served.heard

omit [Inhabited M] in
theorem flushing_next {e : Envelope M} (flushing : Flushing heard batches (e :: rest)) :
    Flushing (heard ++ e.said.toList) batches rest := by
  obtain ⟨earlier, ahead, ctx, author, behind, flushed, cut, parts, same⟩ := flushing
  refine ⟨earlier, ahead, ctx, author, behind, flushed ++ [e], cut, by simpa using parts, ?_⟩
  rw [same, ← List.append_assoc _ flushed, said_snoc, List.append_assoc]

omit [Inhabited M] in
theorem flushing_end (flushing : Flushing heard batches []) : Ended heard batches [] := by
  obtain ⟨earlier, ahead, ctx, author, behind, flushed, cut, parts, same⟩ := flushing
  refine ⟨earlier, ahead, ctx, true, author, behind, cut, ?_⟩
  rw [List.append_nil] at parts
  rw [same, ← parts, List.filterMap_append, if_pos rfl, List.append_nil, ← List.append_assoc]
  rfl

omit [Inhabited M] in
theorem ended_stop (last : batches = earlier ++ [f.msgs])
    (found : f.msgs[f.i]? = some ⟨.poisonPill ctx false, author⟩)
    (served : Served heard (earlier.flatten ++ f.msgs.take f.i)) : Ended heard batches [] := by
  refine ⟨earlier, _, ctx, false, author, _, cut_batch last found served, ?_⟩
  simpa using served.heard

omit [Inhabited M] in
theorem ended_farewell (ended : Ended heard batches []) :
    Ended (heard ++ farewell) batches farewell := by
  obtain ⟨earlier, ahead, ctx, graceful, author, behind, cut, same⟩ := ended
  refine ⟨earlier, ahead, ctx, graceful, author, behind, cut, ?_⟩
  rw [same, List.append_nil]

omit [Inhabited M] in
theorem said_not_stopped (done : List (Envelope M)) :
    (.stopped, none) ∉ done.filterMap Envelope.said := by
  intro member
  obtain ⟨⟨msg, author⟩, -, said⟩ := List.mem_filterMap.mp member
  cases msg <;> cases said

omit [Inhabited M] in
theorem greeting_not_stopped (done : List (Envelope M)) :
    (.stopped, none) ∉ greeting ++ done.filterMap Envelope.said := by
  intro member
  rcases List.mem_append.mp member with opening | message
  · simp [greeting] at opening
  · exact said_not_stopped done message

omit [Inhabited M] in
theorem ended_not_stopped (ended : Ended heard batches []) : (.stopped, none) ∉ heard := by
  obtain ⟨earlier, ahead, ctx, graceful, author, behind, -, rfl⟩ := ended
  rw [List.append_nil]
  intro member
  rcases List.mem_append.mp member with early | flushed
  · exact greeting_not_stopped _ early
  · split at flushed
    · exact said_not_stopped _ flushed
    · cases flushed

omit [Inhabited M] in
theorem rested_stopped (rested : Rested heard batches status) (stopped : (.stopped, none) ∈ heard) :
    Ended heard batches farewell := by
  unfold Rested at rested
  split at rested
  · exact rested
  · rw [rested.heard] at stopped
    exact absurd stopped (greeting_not_stopped _)

omit [Inhabited M] in
/-- Once Stopped has been heard, nothing more is. -/
theorem tale_stopped {place : Act M} (tale : Tale heard batches status place)
    (stopped : (.stopped, none) ∈ heard) : Ended heard batches farewell := by
  have served {done : List (Envelope M)} (served : Served heard done) :
      Ended heard batches farewell := by
    rw [served.heard] at stopped
    exact absurd stopped (greeting_not_stopped done)
  have flushing {rest : List (Envelope M)} (flushing : Flushing heard batches rest) :
      Ended heard batches farewell := by
    obtain ⟨earlier, ahead, ctx, author, behind, flushed, -, -, rfl⟩ := flushing
    exact absurd stopped (greeting_not_stopped _)
  cases place with
  | start =>
    rw [tale.1] at stopped
    cases stopped
  | inboxStart pc => exact served (served_greeting tale)
  | loop pc =>
    cases pc with
    | load | toIdle => exact rested_stopped tale stopped
    | popN => exact served tale
    | invoke msgs =>
      obtain ⟨earlier, -, told⟩ := tale
      exact served told
    | _ => exact tale.elim
  | invoke f =>
    obtain ⟨-, earlier, -, told⟩ := tale
    exact served told
  | flush f rest ctx => exact flushing tale
  | receiving site =>
    cases site with
    | initialized =>
      rw [tale.1] at stopped
      simp at stopped
    | started => exact served (served_greeting tale)
    | message f =>
      obtain ⟨-, earlier, -, told⟩ := tale
      exact served told
    | flush f rest ctx => exact flushing tale
    | cleanup reason => exact tale
    | crashedInvoke f v | crashedStart v => exact tale.elim
  | cancel reason => exact tale
  | cleanup reason | childrenLen reason | makeChildren reason | fillChildren reason size
  | poison reason rest | stopInbox reason | unregister reason | stopping reason =>
    exact absurd stopped (ended_not_stopped tale)
  | _ => exact tale.elim

end

namespace Actor

def heard (a : Actor M W) : List (Received M × Option PID) := a.log.map Delivery.said

def Tale (a : Actor M W) : Act M → Prop := Hollywood.Tale a.heard a.batches a.inbox.procStatus

def Rested (a : Actor M W) : Prop := Hollywood.Rested a.heard a.batches a.inbox.procStatus

theorem heard_deliver (a : Actor M W) (message : Received M) (chain : List W) :
    (a.deliver message chain).heard = a.heard ++ [Delivery.said ⟨a.receiver, message, a.sender, chain⟩] := by
  simp [heard, deliver]

theorem heard_stopped (a : Actor M W) (chain : List W) :
    (a.deliver .stopped chain).heard = a.heard ++ farewell :=
  a.heard_deliver .stopped chain

theorem heard_invokeMsg (a : Actor M W) (msg : M) (author : Option PID) :
    (a.invokeMsg msg author).heard = a.heard ++ [(.user msg, author)] := by
  simp [heard, invokeMsg, deliver, Delivery.said]

theorem record_tale {a : Actor M W} {turn : Inbox.Turn (Envelope M)} {place : Act M}
    (quiet : turn.next.batch = []) :
    (a.record pc turn).Tale place ↔ Hollywood.Tale a.heard a.batches turn.inbox.procStatus place := by
  simp [Tale, record, quiet, heard]

theorem record_rested {a : Actor M W} {turn : Inbox.Turn (Envelope M)}
    (quiet : turn.next.batch = []) :
    (a.record pc turn).Rested ↔ Hollywood.Rested a.heard a.batches turn.inbox.procStatus := by
  simp [Rested, record, quiet, heard]

theorem Proceeds.tale {a : Actor M W} {act : Act M} (tale : a.Tale act)
    (proceeds : Proceeds a act b next) :
    if next.stage.holds then b.Tale next else b.Rested := by
  cases proceeds with
  | invoked =>
    obtain ⟨earlier, last, served⟩ := tale
    exact ⟨rfl, earlier, last, by simpa [Frame.enter] using served⟩
  | enter running =>
    rw [if_pos (by rfl), record_tale (by rfl)]
    exact (rested_running running).mp tale
  | leave | claim =>
    rw [if_pos (by rfl), record_tale (by rfl)]
    exact tale
  | batch => exact ⟨a.batches, rfl, tale⟩
  | empty running =>
    rw [if_pos (by rfl), record_tale (by rfl)]
    exact (rested_running (by simp [running])).mpr tale
  | released running =>
    rw [if_neg (by exact nofun), record_rested (by rfl), rested_running (by exact nofun)]
    exact (rested_running (by simp [running])).mp tale
  | abandoned =>
    rw [if_neg (by exact nofun), record_rested (by rfl)]
    exact tale
  | start =>
    obtain ⟨silence, none⟩ : a.heard = [] ∧ a.batches = [] := tale
    refine ⟨?_, none⟩
    rw [heard_deliver]
    change a.heard ++ _ = _
    rw [silence]
    rfl
  | started =>
    rw [if_neg (by exact nofun), record_rested (by rfl), rested_running (by exact nofun)]
    exact served_greeting tale
  | refused running =>
    rw [if_pos (by rfl), record_tale (by rfl)]
    exact (rested_running (by simp [running])).mpr (served_greeting tale)
  | invokeEnd running ends =>
    obtain ⟨-, earlier, last, served⟩ := tale
    exact (rested_running (by simp [running])).mpr (served_batch last ends served)
  | invokeGraceful found =>
    obtain ⟨processed, earlier, last, served⟩ := tale
    exact flushing_start last processed found served
  | invokeStop found =>
    obtain ⟨-, earlier, last, served⟩ := tale
    exact ended_stop last found served
  | invokeUser found =>
    obtain ⟨processed, earlier, last, served⟩ := tale
    refine ⟨processed, earlier, last, ?_⟩
    rw [heard_invokeMsg]
    exact served_user found served
  | flushEnd => exact flushing_end tale
  | flushPill =>
    have flushing := flushing_next tale
    rw [Envelope.said, Option.toList_none, List.append_nil] at flushing
    exact flushing
  | flushUser =>
    have flushing := flushing_next tale
    rw [Envelope.said, Option.toList_some, ← heard_invokeMsg] at flushing
    exact flushing
  | stopping =>
    have ended := ended_farewell tale
    rw [← heard_stopped a (applyMiddleware [] a.opts.middleware)] at ended
    exact ended
  | cancel stopped =>
    have rested : a.Rested := by
      rw [Rested, Hollywood.Rested, if_pos stopped]
      exact tale
    exact rested
  | _ => exact tale

theorem resume_tale {a : Actor M W} {r : Routine M} (sound : r.Sound a) (untroubled : r.Untroubled a)
    (tale : a.Tale r.act) (position : r.act = .receiving site) :
    if (a.resume r site .returns).2.act.stage.holds then
      (a.resume r site .returns).1.Tale (a.resume r site .returns).2.act
    else (a.resume r site .returns).1.Rested := by
  obtain ⟨base, replays, act⟩ := r
  subst position
  cases site with
  | initialized =>
    obtain ⟨opening, none⟩ : a.heard = [(.initialized, Option.none)] ∧ a.batches = [] := tale
    refine ⟨?_, none⟩
    rw [resume, heard_deliver]
    change a.heard ++ _ = _
    rw [opening]
    rfl
  | started =>
    simp only [resume, untroubled.empty, List.length_nil, gt_iff_lt, lt_self_iff_false, if_false]
    exact tale
  | message f =>
    obtain ⟨processed, earlier, last, served⟩ := tale
    exact ⟨congrArg (· + 1) processed, earlier, last, served⟩
  | flush f rest ctx => exact tale
  | crashedInvoke f v | crashedStart v => cases untroubled.steady
  | cleanup reason =>
    cases reason with
    | pill f ctx => exact tale
    | limit => exact absurd sound.placed Routine.Placed.not_astray

theorem Aside.heard {a : Actor M W} (aside : Aside a b spawned) :
    b.heard = a.heard ∧ b.batches = a.batches := by
  rw [aside.same]
  exact ⟨rfl, rfl⟩

theorem Aside.tale {a : Actor M W} {place : Act M} (aside : Aside a b []) (tale : a.Tale place) :
    b.Tale place := by
  unfold Tale
  rwa [aside.heard.1, aside.heard.2, aside.still]

end Actor

namespace Engine

def Narrated (a : Actor M W) : Goroutine M → Prop
  | .caller _ _ => True
  | .proc r => a.Tale r.act

theorem advance_narrated {a : Actor M W} {g : Goroutine M} (inside : a.Inside g)
    (holder : g.holds = true) (known : Untroubled a g ∧ Accountable a g) (narrated : Narrated a g)
    (calm : action.calm = true) (advance : a.Advance g action b next spawned) :
    if next.holds then Narrated b next else b.Rested := by
  cases advance with
  | accepted | rejected | found | missing | mailed | returned => cases holder
  | moved move => exact (move.proceeds inside known.1 holder).tale narrated
  | @resumed r outcome site position =>
    cases outcome with
    | panics v => cases calm
    | returns => exact Actor.resume_tale inside known.1 narrated position
  | spawnedChild position =>
    rw [if_pos holder]
    exact narrated

theorem narrated_account : Account (fun (_ : Actor M W) _ action => action.calm)
    (fun a g => (Untroubled a g ∧ Accountable a g) ∧ Narrated a g)
    (fun a => (a.mbuffer = [] ∧ a.Resting) ∧ a.Rested) := by
  refine stop_account.extend advance_narrated ?_ ?_ ?_ ?_ ?_
  · rintro a b (request | r) aside narrated
    · trivial
    · exact aside.tale narrated
  · intro a b aside rested
    have told : a.Tale (.loop .load) := rested
    exact aside.tale told
  · intro a b aside rested
    obtain ⟨idle, running⟩ := aside.woken
    have served := (rested_running (by simp [idle])).mp rested
    rw [← aside.heard.1, ← aside.heard.2] at served
    exact (rested_running (by simp [running])).mpr served
  · rintro a (request | r) child narrated
    · trivial
    · exact narrated
  · exact fun child rested => rested

theorem narrated_run {opts : Opts W} {positive : 0 < opts.inboxSize} {t : State M W}
    (reached : Reaches (restrict calmKept State.step) (initial opts positive parent) t) :
    Ordered (fun a g => (Untroubled a g ∧ Accountable a g) ∧ Narrated a g)
      (fun a => (a.mbuffer = [] ∧ a.Resting) ∧ a.Rested) t := by
  have first := ((watched_calm (.refl (initial opts positive parent : State M W))).inside _
    (List.mem_singleton_self _)).2 rfl
  exact reached.invariant
    (Ordered.step narrated_account fun allowed _ => (Bool.and_eq_true_iff.mp allowed).1)
    (ordered_initial opts positive parent ⟨first, rfl, rfl⟩)

theorem ended_of_stopped {opts : Opts W} {positive : 0 < opts.inboxSize} {t : State M W}
    (reached : Reaches (restrict calmKept State.step)
      (initial opts positive parent) t) (stopped : (.stopped, none) ∈ t.actor.heard) :
    Ended t.actor.heard t.actor.batches farewell := by
  rcases (narrated_run reached).somebody with ⟨g, -, holder, -, known⟩ | ⟨-, rested⟩
  · cases g with
    | caller => cases holder
    | proc r => exact tale_stopped (known holder).2 stopped
  · exact rested_stopped rested stopped

/-- The mail up to the first pill is what the batches hold up to it. -/
theorem mail_ahead {a : Actor M W} (posted : a.Posted)
    (cut : Cut a.batches earlier ahead pill behind) (stops : pill.isPill = true) :
    earlier.flatten ++ ahead = a.mail.takeWhile (!·.isPill) := by
  have whole : a.mail = earlier.flatten ++ ahead ++ (pill :: behind ++ a.inbox.rb.toList) := by
    rw [Actor.mail, posted, Deque.service, cut.last]
    simp
  rw [whole, List.takeWhile_append_of_pos, List.cons_append, List.takeWhile_cons_of_neg,
    List.append_nil]
  · simp [stops]
  · intro e member
    simp [cut.plain e member]

/-- In every run without panics and `ClearMailbox` that has come to Stopped, the
actor was told Initialized, Started, the messages ahead of the first pill in the
order of the mailbox, if that pill is graceful also those behind it in its batch,
and Stopped. What a call has put into the mailbox and returned from before the
first stop request is among them. -/
theorem told_before_stopped (opts : Opts W) (positive : 0 < opts.inboxSize) (parent : Bool)
    (s t : State M W)
    (reached : Reaches (restrict calmKept State.step) (initial opts positive parent) s)
    (later : Reaches (restrict calmKept State.step) s t)
    (stopped : (.stopped, none) ∈ t.actor.heard) :
    (∃ earlier ahead ctx graceful author behind,
      t.actor.batches = earlier ++ [ahead ++ ⟨.poisonPill ctx graceful, author⟩ :: behind] ∧
      earlier.flatten ++ ahead = t.actor.mail.takeWhile (!·.isPill) ∧
      t.actor.heard = greeting ++ (t.actor.mail.takeWhile (!·.isPill)).filterMap Envelope.said ++
        (if graceful then behind.filterMap Envelope.said else []) ++ farewell) ∧
    (s.contexts = 0 → ∀ request e, .caller request .returned ∈ s.pool →
      request.pc.letter = some e → ∀ word, e.said = some word → word ∈ t.actor.heard) := by
  have followed := reached.invariant followed_step (followed_initial opts positive parent)
  have posted := (mail_grows followed later).1.mailed.posted
  obtain ⟨earlier, ahead, ctx, graceful, author, behind, cut, heard⟩ :=
    ended_of_stopped (reached.trans later) stopped
  have mail := mail_ahead posted cut rfl
  rw [mail] at heard
  refine ⟨⟨earlier, ahead, ctx, graceful, author, behind, cut.last, mail, heard⟩, ?_⟩
  intro none request e returned letter word said
  have delivered := sent_ahead followed none later returned letter
  rw [heard]
  simp only [List.append_assoc, List.mem_append]
  exact .inr (.inl (List.mem_filterMap.mpr ⟨e, delivered, said⟩))

/-- One message before a graceful pill and one behind it in the same batch. -/
def poisonBetween : List (Label Nat) :=
  [.call .poison] ++ steps 2 4 ++ [.call (.send 2 none)] ++ steps 3 3 ++
    steps 0 1 ++ [returns 0, returns 0] ++ steps 0 3 ++ steps 4 4 ++ [returns 4] ++ steps 4 3 ++
    [returns 4] ++ steps 4 6

theorem told_before_stopped_poison :
    ∃ t : State Nat Nat, (.stopped, none) ∈ t.actor.heard ∧ (.user 1, none) ∈ t.actor.heard := by
  obtain ⟨s, t, reached, early, later, ends⟩ := exists_of_runs
    (restrict calmKept State.step) (initial ⟨3, 1, []⟩ Nat.one_pos false)
    ([.call (.send 1 none)] ++ steps 1 3) poisonBetween
    (fun s : State Nat Nat => s.contexts = 0 ∧ .caller (.send ⟨.user 1, none⟩) .returned ∈ s.pool)
    (fun t : State Nat Nat => (.stopped, none) ∈ t.actor.heard) (by decide)
  obtain ⟨none, returned⟩ := of_decide_eq_true early
  have stopped := of_decide_eq_true ends
  have told := told_before_stopped ⟨3, 1, []⟩ Nat.one_pos false s t reached later stopped
  exact ⟨t, stopped, told.2 none _ _ returned rfl _ rfl⟩

end Engine
end Hollywood
