import Hollywood.Engine.Hearing

/-! Events on their way to the subscribers (`actor/event_stream.go`, `BroadcastEvent`,
`Subscribe` and `Unsubscribe` of `actor/engine.go`). The event stream is an actor like
the others. Its receiver forwards an event to one subscriber after the other, in any
order of the map, and each forward is a send that returns before the next one. The
event stream neither panics nor is stopped. -/
namespace Hollywood.Bus
open Transition
open scoped List

/-- A `*PID` in the map of the event stream: its location, and the local actor it names. -/
structure Subscription where
  loc : Nat
  actor : Option Nat
  deriving DecidableEq, Repr

/-- The messages of the event stream; the events are numbered as they are broadcast. -/
inductive StreamMsg where
  | event (n : Nat)
  | eventSub (sub : Subscription)
  | eventUnsub (sub : Subscription)
  deriving DecidableEq, Repr

instance : Inhabited StreamMsg := ⟨.event 0⟩

/-- The messages of the other actors. -/
inductive Mail (M : Type) where
  | event (n : Nat)
  | other (msg : M)
  deriving DecidableEq, Repr

instance : Inhabited (Mail M) := ⟨.event 0⟩

/-- Where `eventStream.Receive` stands with an event: what is left of the map, and the
send to an actor that it is in, as the goroutine of that actor's calls. -/
inductive Handler where
  | idle
  | forwarding (n : Nat) (rest : List Subscription)
  | calling (n : Nat) (rest : List Subscription) (x i : Nat)
  deriving DecidableEq, Repr

/-- The loop over the map has come to its end. -/
def Handler.finished : Handler → Bool
  | .idle | .forwarding _ [] => true
  | _ => false

structure State (M W : Type) where
  pid : Option PID
  stream : Engine.State StreamMsg W
  subs : List Subscription
  handler : Handler
  actors : Nat → Option (Engine.State (Mail M) W)
  events : Nat

inductive Label (M W : Type) where
  | broadcast
  | subscribe (sub : Subscription)
  | unsubscribe (sub : Subscription)
  | stream (i : Nat)
  | received (i : Nat)
  | forward (k : Nat)
  | forwarded
  | spawn (x : Nat) (opts : Opts W) (parent : Bool)
  | actor (x : Nat) (label : Engine.Label (Mail M))

variable {M W : Type}

def initial (pid : Option PID) (opts : Opts W) (positive : 0 < opts.inboxSize) : State M W where
  pid := pid
  stream := Engine.initial opts positive false
  subs := []
  handler := .idle
  actors _ := none
  events := 0

/-- Events come from the event stream only. -/
def genuine : Engine.Label (Mail M) → Bool
  | .call (.send (.event _) _) | .call (.sendPriority (.event _) _) => false
  | _ => true

namespace State

/-- The calls `e.Send(e.eventStream, msg)`. -/
def post (s : State M W) (msg : StreamMsg) : Option (State M W) := do
  let stream ← s.stream.step (.call (.send msg none))
  pure { s with stream := stream }

/-- `eventStream.Receive`, up to the first forward. -/
def receive (s : State M W) : StreamMsg → State M W
  | .event n => { s with handler := .forwarding n s.subs }
  | .eventSub sub => { s with subs := s.subs.filter (·.loc ≠ sub.loc) ++ [sub] }
  | .eventUnsub sub => { s with subs := s.subs.filter (·.loc ≠ sub.loc) }

/-- What the receiver of the event stream is called with in a step. -/
def heard (before after : Engine.State StreamMsg W) : Option StreamMsg :=
  (after.actor.told.drop before.actor.told.length).head?.map (·.1)

def local? (s : State M W) (sub : Subscription) : Option (Nat × Engine.State (Mail M) W) := do
  let x ← sub.actor
  let actor ← s.actors x
  pure (x, actor)

def step (s : State M W) : Label M W → Option (State M W)
  | .broadcast => do
    let s ← s.post (.event s.events)
    pure { s with events := s.events + 1 }
  | .subscribe sub => s.post (.eventSub sub)
  | .unsubscribe sub => s.post (.eventUnsub sub)
  | .stream i => do
    let stream ← s.stream.step (.act i .step)
    let next := { s with stream := stream }
    pure (match heard s.stream stream with
      | none => next
      | some msg => next.receive msg)
  | .received i =>
    match s.stream.pool[i]? with
    | some (.proc ⟨_, _, .receiving (.message _)⟩) =>
      if s.handler.finished then do
        let stream ← s.stream.step (.act i (.receive .returns))
        pure { s with stream := stream, handler := .idle }
      else none
    | _ => do
      let stream ← s.stream.step (.act i (.receive .returns))
      pure { s with stream := stream }
  | .forward k =>
    match s.handler with
    | .forwarding n rest => do
      let sub ← rest[k]?
      match s.local? sub with
      | none => pure { s with handler := .forwarding n (rest.eraseIdx k) }
      | some (x, actor) => do
        let next ← actor.step (.call (.send (.event n) s.pid))
        pure { s with
          actors := Function.update s.actors x (some next)
          handler := .calling n (rest.eraseIdx k) x actor.pool.length }
    | _ => none
  | .forwarded =>
    match s.handler with
    | .calling n rest x i =>
      match (s.actors x).bind (·.pool[i]?) with
      | some (.caller _ .returned) => some { s with handler := .forwarding n rest }
      | _ => none
    | _ => none
  | .spawn x opts parent =>
    if positive : 0 < opts.inboxSize then
      if (s.actors x).isNone then
        some { s with actors := Function.update s.actors x (some (Engine.initial opts positive parent)) }
      else none
    else none
  | .actor x label =>
    if genuine label then do
      let actor ← s.actors x
      let next ← actor.step label
      pure { s with actors := Function.update s.actors x (some next) }
    else none

end State

/-- All that a step can do. -/
inductive Move (s : State M W) : Label M W → State M W → Prop where
  | broadcast : s.stream.step (.call (.send (.event s.events) none)) = some stream →
      Move s .broadcast { s with stream := stream, events := s.events + 1 }
  | posted : (∀ n, msg ≠ .event n) → s.stream.step (.call (.send msg none)) = some stream →
      Move s label { s with stream := stream }
  | silent : s.stream.step (.act i .step) = some stream → State.heard s.stream stream = none →
      Move s (.stream i) { s with stream := stream }
  | told : s.stream.step (.act i .step) = some stream → State.heard s.stream stream = some msg →
      Move s (.stream i) (State.receive { s with stream := stream } msg)
  | finished : s.handler.finished = true →
      s.stream.step (.act i (.receive .returns)) = some stream →
      Move s (.received i) { s with stream := stream, handler := .idle }
  | received :
      (∀ base replays f, s.stream.pool[i]? ≠ some (.proc ⟨base, replays, .receiving (.message f)⟩)) →
      s.stream.step (.act i (.receive .returns)) = some stream →
      Move s (.received i) { s with stream := stream }
  | skipped : s.handler = .forwarding n rest →
      Move s (.forward k) { s with handler := .forwarding n (rest.eraseIdx k) }
  | called : s.handler = .forwarding n rest → s.actors x = some actor →
      actor.step (.call (.send (.event n) s.pid)) = some next →
      Move s (.forward k) { s with
        actors := Function.update s.actors x (some next)
        handler := .calling n (rest.eraseIdx k) x actor.pool.length }
  | forwarded : s.handler = .calling n rest x i → s.actors x = some actor →
      actor.pool[i]? = some (.caller request .returned) →
      Move s .forwarded { s with handler := .forwarding n rest }
  | spawn (positive : 0 < opts.inboxSize) : Move s (.spawn x opts parent)
      { s with actors := Function.update s.actors x (some (Engine.initial opts positive parent)) }
  | actor : genuine label = true → s.actors x = some actor → actor.step label = some next →
      Move s (.actor x label) { s with actors := Function.update s.actors x (some next) }

theorem post_some {s t : State M W} (posted : s.post msg = some t) :
    ∃ stream, s.stream.step (.call (.send msg none)) = some stream ∧ t = { s with stream := stream } := by
  simp only [State.post, Option.bind_eq_bind, Option.bind_eq_some_iff, Option.pure_def,
    Option.some.injEq] at posted
  obtain ⟨stream, stepped, rfl⟩ := posted
  exact ⟨stream, stepped, rfl⟩

theorem received_move {s t : State M W} (stepped : s.step (.received i) = some t) :
    Move s (.received i) t := by
  simp only [State.step] at stepped
  split at stepped
  · split at stepped
    · rename_i free
      simp only [Option.bind_eq_bind, Option.bind_eq_some_iff, Option.pure_def, Option.some.injEq] at stepped
      obtain ⟨stream, stepped, rfl⟩ := stepped
      exact .finished free stepped
    · cases stepped
  · rename_i away
    simp only [Option.bind_eq_bind, Option.bind_eq_some_iff, Option.pure_def, Option.some.injEq] at stepped
    obtain ⟨stream, stepped, rfl⟩ := stepped
    exact .received away stepped

theorem forward_move {s t : State M W} (stepped : s.step (.forward k) = some t) : Move s (.forward k) t := by
  simp only [State.step] at stepped
  split at stepped
  · rename_i n rest forwarding
    simp only [Option.bind_eq_bind, Option.bind_eq_some_iff] at stepped
    obtain ⟨sub, chosen, stepped⟩ := stepped
    split at stepped
    · cases stepped
      exact .skipped forwarding
    · rename_i x actor known
      simp only [Option.bind_eq_some_iff, Option.pure_def, Option.some.injEq] at stepped
      obtain ⟨next, called, rfl⟩ := stepped
      simp only [State.local?, Option.bind_eq_bind, Option.bind_eq_some_iff, Option.pure_def,
        Option.some.injEq, Prod.mk.injEq] at known
      obtain ⟨_, -, _, found, rfl, rfl⟩ := known
      exact .called forwarding found called
  · cases stepped

theorem forwarded_move {s t : State M W} (stepped : s.step .forwarded = some t) : Move s .forwarded t := by
  simp only [State.step] at stepped
  split at stepped
  · rename_i n rest x i calling
    split at stepped
    · rename_i request found
      cases stepped
      obtain ⟨actor, known, position⟩ := Option.bind_eq_some_iff.mp found
      exact .forwarded calling known position
    · cases stepped
  · cases stepped

theorem step_move {s t : State M W} (stepped : s.step label = some t) : Move s label t := by
  cases label with
  | broadcast =>
    simp only [State.step, Option.bind_eq_bind, Option.bind_eq_some_iff, Option.pure_def,
      Option.some.injEq] at stepped
    obtain ⟨u, posted, rfl⟩ := stepped
    obtain ⟨stream, called, rfl⟩ := post_some posted
    exact .broadcast called
  | subscribe sub | unsubscribe sub =>
    obtain ⟨stream, called, rfl⟩ := post_some stepped
    refine .posted ?_ called
    intro n same
    cases same
  | stream i =>
    simp only [State.step, Option.bind_eq_bind, Option.bind_eq_some_iff, Option.pure_def,
      Option.some.injEq] at stepped
    obtain ⟨stream, stepped, rfl⟩ := stepped
    split
    · exact .silent stepped (by assumption)
    · exact .told stepped (by assumption)
  | received i => exact received_move stepped
  | forward k => exact forward_move stepped
  | forwarded => exact forwarded_move stepped
  | spawn x opts parent =>
    simp only [State.step] at stepped
    split at stepped
    · split at stepped
      · cases stepped
        exact .spawn (by assumption)
      · cases stepped
    · cases stepped
  | actor x label =>
    simp only [State.step] at stepped
    split at stepped
    · rename_i honest
      simp only [Option.bind_eq_bind, Option.bind_eq_some_iff, Option.pure_def, Option.some.injEq] at stepped
      obtain ⟨actor, known, next, stepped, rfl⟩ := stepped
      exact .actor honest known stepped
    · cases stepped

/-- The number of the event that a message is. -/
def number : StreamMsg × Option PID → Option Nat
  | (.event n, _) => some n
  | _ => none

def Mail.number : Mail M × Option PID → Option Nat
  | (.event n, _) => some n
  | _ => none

def Handler.event : Handler → Option Nat
  | .idle => none
  | .forwarding n _ | .calling n _ _ _ => some n

/-- The events that the event stream was called with, in their order. -/
def State.handled (s : State M W) : List Nat := s.stream.actor.told.filterMap number

/-- The events that an actor has received, in their order. -/
def received (a : Engine.State (Mail M) W) : List Nat := a.actor.told.filterMap Mail.number

/-- The events that came into the mailbox of an actor, in their order. -/
def entered (a : Engine.State (Mail M) W) : List Nat := a.actor.pushed.filterMap Mail.number

/-- The goroutine is inside the receiver with a message from the mailbox. -/
def inMessage {N : Type} : Goroutine N → Bool
  | .proc ⟨_, _, .receiving (.message _)⟩ => true
  | _ => false

/-- The event stream: every event is broadcast once, and the one that is being forwarded
is the last one handled, by a goroutine that is still inside the receiver. -/
structure Streaming (s : State M W) : Prop where
  hearing : Engine.Hearing (fun m => (number m).isSome) s.stream
  numbered : s.stream.sent.filterMap number = List.range s.events
  current : ∀ n, s.handler.event = some n → (∃ earlier, s.handled = earlier ++ [n]) ∧
    ∃ g ∈ s.stream.pool, inMessage g = true

/-- No event is handled twice. -/
theorem Streaming.nodup {s : State M W} (streaming : Streaming s) : s.handled.Nodup := by
  have balanced := streaming.hearing.balanced
  have pushed : s.stream.actor.pushed <+~ s.stream.sent := by
    rw [← Multiset.coe_le, balanced]
    exact (Multiset.le_add_left _ _).trans (Multiset.le_add_right _ _)
  obtain ⟨l, permuted, sub⟩ := pushed
  have fewer := sub.filterMap number
  rw [streaming.numbered] at fewer
  have distinct := (permuted.filterMap number).nodup_iff.mp (List.nodup_range.sublist fewer)
  exact distinct.sublist streaming.hearing.told_sublist

theorem holds_of_inMessage {N : Type} {g : Goroutine N} (inside : inMessage g = true) : g.holds = true := by
  cases g with
  | caller => cases inside
  | proc r =>
    obtain ⟨base, replays, act⟩ := r
    cases act with
    | receiving site =>
      cases site with
      | message f => rfl
      | _ => cases inside
    | _ => cases inside

theorem initial_streaming (pid : Option PID) (opts : Opts W) (positive : 0 < opts.inboxSize) :
    Streaming (initial pid opts positive : State M W) := by
  constructor
  · exact Engine.initial_hearing opts positive false
  · rfl
  · rintro n ⟨⟩

/-- The handler goes on with its event. -/
theorem Streaming.handle {s : State M W} (streaming : Streaming s) (same : handler.event = s.handler.event)
    (actors : Nat → Option (Engine.State (Mail M) W)) :
    Streaming { s with handler := handler, actors := actors } := by
  constructor
  · exact streaming.hearing
  · exact streaming.numbered
  · intro n current
    exact streaming.current n (same.symm.trans current)

theorem Streaming.post {s : State M W} (streaming : Streaming s)
    (called : s.stream.step (.call (.send msg none)) = some stream)
    (numbered : s.stream.sent.filterMap number ++ (number (msg, none)).toList = List.range events) :
    Streaming { s with stream := stream, events := events } := by
  have calm : Engine.unhurried (fun m => (number m).isSome) s.stream (.call (.send msg none)) = true := rfl
  have hearing := streaming.hearing.step calm called
  obtain rfl := Engine.call_step called
  constructor
  · exact hearing
  · rw [← numbered]
    simp only [Engine.State.sent, Engine.State.call, List.flatMap_append, List.filterMap_append,
      List.flatMap_singleton]
    cases msg <;> rfl
  · intro n current
    obtain ⟨last, g, member, inside⟩ := streaming.current n current
    exact ⟨last, g, List.mem_append_left _ member, inside⟩

/-- A step of the event stream calls its receiver with nothing new, or with one message
while no event is being forwarded. -/
theorem Streaming.step_cases {s : State M W} (streaming : Streaming s)
    (stepped : s.stream.step (.act i .step) = some stream) :
    (stream.actor.told = s.stream.actor.told ∧
      ((∃ g ∈ s.stream.pool, inMessage g = true) → ∃ g ∈ stream.pool, inMessage g = true)) ∨
    s.handler.event = none ∧ (∃ g ∈ stream.pool, inMessage g = true) ∧
      ∃ m, stream.actor.told = s.stream.actor.told ++ [m] := by
  rcases Engine.step_cases stepped with ⟨call, same, -⟩ | ⟨child, same, -⟩ |
    ⟨j, action, g, b, next, spawned, same, found, advance, rfl⟩
  · cases same
  · cases same
  · cases same
    have outside : inMessage g = false := by
      cases g with
      | caller => rfl
      | proc r =>
        obtain ⟨base, replays, act⟩ := r
        cases act with
        | receiving site =>
          cases advance with
          | moved move => exact absurd rfl (move.outside site)
        | _ => rfl
    cases streaming.hearing.tells found advance with
    | inl told =>
      refine .inl ⟨told, ?_⟩
      intro present
      exact Pool.exists_kept found present (by simp [outside])
    | inr told =>
      obtain ⟨holder, -, m, r, f, told, rfl, position⟩ := told
      obtain ⟨base, replays, act⟩ := r
      subst position
      refine .inr ⟨?_, Pool.exists_moved found rfl, m, told⟩
      -- another goroutine inside the receiver would own the mailbox as well
      by_contra forwarding
      obtain ⟨n, current⟩ := Option.ne_none_iff_exists'.mp forwarding
      obtain ⟨-, h, member, inside⟩ := streaming.current n current
      obtain ⟨k, position⟩ := List.mem_iff_getElem?.mp member
      have exclusive := streaming.hearing.ordered.exclusive
      have same := Pool.index_unique (by omega) found position holder (holds_of_inMessage inside)
      subst same
      cases found.symm.trans position
      rw [outside] at inside
      cases inside

theorem heard_none {before after : Engine.State StreamMsg W} (told : after.actor.told = before.actor.told) :
    State.heard before after = none := by
  rw [State.heard, told, List.drop_length]
  rfl

theorem heard_some {before after : Engine.State StreamMsg W}
    (told : after.actor.told = before.actor.told ++ [m]) :
    State.heard before after = some m.1 := by
  rw [State.heard, told, List.drop_left]
  rfl

theorem Streaming.silent {s : State M W} (streaming : Streaming s)
    (stepped : s.stream.step (.act i .step) = some stream) (silent : State.heard s.stream stream = none) :
    Streaming { s with stream := stream } ∧ stream.actor.told = s.stream.actor.told := by
  cases streaming.step_cases stepped with
  | inr told =>
    obtain ⟨-, -, m, told⟩ := told
    rw [heard_some told] at silent
    cases silent
  | inl told =>
    refine ⟨⟨streaming.hearing.step rfl stepped, ?_, ?_⟩, told.1⟩
    · exact (congrArg _ (Engine.sent_step stepped)).trans streaming.numbered
    · intro n current
      obtain ⟨last, inside⟩ := streaming.current n current
      refine ⟨?_, told.2 inside⟩
      rw [State.handled, told.1]
      exact last

theorem Streaming.told {s : State M W} (streaming : Streaming s)
    (stepped : s.stream.step (.act i .step) = some stream) (heard : State.heard s.stream stream = some msg) :
    s.handler.event = none ∧ Streaming (State.receive { s with stream := stream } msg) ∧
      (State.receive { s with stream := stream } msg).handled = s.handled ++ (number (msg, none)).toList := by
  cases streaming.step_cases stepped with
  | inl told =>
    rw [heard_none told.1] at heard
    cases heard
  | inr told =>
    obtain ⟨free, inside, ⟨msg, author⟩, told⟩ := told
    rw [heard_some told] at heard
    cases heard
    have calm : Engine.unhurried (fun m => (number m).isSome) s.stream (.act i .step) = true := rfl
    have hearing := streaming.hearing.step calm stepped
    have numbered := (congrArg (List.filterMap number) (Engine.sent_step stepped)).trans streaming.numbered
    have handled : stream.actor.told.filterMap number = s.handled ++ (number (msg, none)).toList := by
      rw [told, List.filterMap_append]
      cases msg <;> rfl
    refine ⟨free, ?_, ?_⟩
    · cases msg with
      | event n =>
        refine ⟨hearing, numbered, ?_⟩
        rintro _ ⟨⟩
        exact ⟨⟨_, handled⟩, inside⟩
      | eventSub sub | eventUnsub sub =>
        refine ⟨hearing, numbered, ?_⟩
        intro n current
        exact absurd (free.symm.trans current) (by simp)
    · cases msg <;> exact handled

theorem Streaming.finished {s : State M W} (streaming : Streaming s)
    (stepped : s.stream.step (.act i (.receive .returns)) = some stream) :
    Streaming { s with stream := stream, handler := .idle } := by
  constructor
  · exact streaming.hearing.step (Engine.returns_unhurried _ _ _) stepped
  · exact (congrArg _ (Engine.sent_step stepped)).trans streaming.numbered
  · rintro n ⟨⟩

theorem Streaming.received {s : State M W} (streaming : Streaming s)
    (away : ∀ base replays f, s.stream.pool[i]? ≠ some (.proc ⟨base, replays, .receiving (.message f)⟩))
    (stepped : s.stream.step (.act i (.receive .returns)) = some stream) :
    Streaming { s with stream := stream } := by
  obtain ⟨told, g, next, found, pool⟩ := Engine.returns_step stepped
  have outside : ¬ inMessage g = true := by
    intro inside
    unfold inMessage at inside
    split at inside
    · exact away _ _ _ found
    · cases inside
  constructor
  · exact streaming.hearing.step (Engine.returns_unhurried _ _ _) stepped
  · exact (congrArg _ (Engine.sent_step stepped)).trans streaming.numbered
  · intro n current
    obtain ⟨last, present⟩ := streaming.current n current
    constructor
    · rw [State.handled, told]
      exact last
    · have kept : ∃ h ∈ s.stream.pool.set i next ++ [], inMessage h = true :=
        Pool.exists_kept found present outside
      rw [List.append_nil, ← pool] at kept
      exact kept

/-- An actor that is followed: the events that are on their way into its mailbox are
those of the send that the handler is in, and those that came in stand in the order in
which they were handled. -/
structure Following (handled : List Nat) (handler : Handler) (x : Nat) (a : Engine.State (Mail M) W) :
    Prop where
  hearing : Engine.Hearing (fun m => (Mail.number m).isSome) a
  waiting : ∀ i g m n, a.pool[i]? = some g → m ∈ g.waiting → Mail.number m = some n →
    ∃ rest, handler = .calling n rest x i
  known : ∀ n ∈ entered a, n ∈ handled
  ordered : (entered a).Pairwise fun m n => handled.idxOf m ≤ handled.idxOf n

theorem initial_following (handled : List Nat) (handler : Handler) (x : Nat) (opts : Opts W)
    (positive : 0 < opts.inboxSize) (parent : Bool) :
    Following handled handler x (Engine.initial opts positive parent : Engine.State (Mail M) W) := by
  constructor
  · exact Engine.initial_hearing opts positive parent
  · intro i g m n found waits
    obtain rfl := List.mem_singleton.mp (List.mem_of_getElem? found)
    cases waits
  · rintro n ⟨⟩
  · exact .nil

/-- More events are handled. -/
theorem Following.grow {a : Engine.State (Mail M) W} (following : Following handled handler x a)
    (more : List Nat) (waiting : ∀ i g m n, a.pool[i]? = some g → m ∈ g.waiting → Mail.number m = some n →
      ∃ rest, next = .calling n rest x i) :
    Following (handled ++ more) next x a := by
  constructor
  · exact following.hearing
  · exact waiting
  · intro n member
    exact List.mem_append_left _ (following.known n member)
  · apply following.ordered.imp_of_mem
    intro m n earlier later ordered
    rw [List.idxOf_append_of_mem (following.known m earlier),
      List.idxOf_append_of_mem (following.known n later)]
    exact ordered

/-- In a list of distinct members the last one comes after all. -/
theorem idxOf_le_last {l : List Nat} (distinct : (l ++ [n]).Nodup) (member : m ∈ l ++ [n]) :
    (l ++ [n]).idxOf m ≤ (l ++ [n]).idxOf n := by
  have fresh : n ∉ l := by
    intro early
    exact (List.nodup_append.mp distinct).2.2 n early n (List.mem_singleton.mpr rfl) rfl
  have bound := List.idxOf_lt_length_of_mem member
  rw [List.idxOf_append_of_notMem fresh]
  simp only [List.length_append, List.length_singleton, List.idxOf_cons_self] at bound ⊢
  omega

/-- Somebody calls the actor. -/
theorem Following.call {a b : Engine.State (Mail M) W} {call : Engine.Call (Mail M)}
    (following : Following handled handler x a) (hearing : Engine.Hearing (fun m => (Mail.number m).isSome) b)
    (called : a.step (.call call) = some b)
    (old : ∀ n rest i, handler = .calling n rest x i → ∃ rest, next = .calling n rest x i)
    (new : ∀ m ∈ (call.request a.contexts).messages, ∀ n, Mail.number m = some n →
      ∃ rest, next = .calling n rest x a.pool.length) :
    Following handled next x b := by
  obtain rfl := Engine.call_step called
  refine ⟨hearing, ?_, following.known, following.ordered⟩
  intro i g m n found waits numbered
  rw [Engine.State.call, List.getElem?_append] at found
  split at found
  · obtain ⟨rest, calling⟩ := following.waiting i g m n found waits numbered
    exact old n rest i calling
  · obtain ⟨bound, same⟩ := List.getElem?_eq_some_iff.mp found
    rw [List.length_singleton] at bound
    obtain rfl : i = a.pool.length := by omega
    simp only [Nat.sub_self, List.getElem_cons_zero] at same
    rw [← same, Request.waiting_entry] at waits
    exact new m waits n numbered

/-- A goroutine of the actor goes on; an event that comes into the mailbox is the last
one handled. -/
theorem Following.act {a b : Engine.State (Mail M) W} (following : Following handled handler x a)
    (hearing : Engine.Hearing (fun m => (Mail.number m).isSome) b)
    (current : ∀ n, handler.event = some n → ∃ earlier, handled = earlier ++ [n]) (distinct : handled.Nodup)
    (stepped : a.step (.act j action) = some b) : Following handled handler x b := by
  rcases Engine.step_cases stepped with ⟨call, same, -⟩ | ⟨child, same, -⟩ |
    ⟨j, other, g, actor, next, spawned, same, found, advance, rfl⟩
  · cases same
  · cases same
  · cases same
    have inside := (following.hearing.ordered.inside g (List.mem_of_getElem? found)).1
    obtain ⟨fewer, letters, held, pushed⟩ := advance.posts inside
    have arrivals : ∀ n ∈ letters.filterMap Mail.number, ∃ earlier, handled = earlier ++ [n] := by
      intro n member
      obtain ⟨m, letter, numbered⟩ := List.mem_filterMap.mp member
      obtain ⟨rest, calling⟩ := following.waiting j g m n found (held letter) numbered
      exact current n (by rw [calling]; rfl)
    have grown : entered { a with actor := actor, pool := a.pool.set j next ++ spawned } =
        entered a ++ letters.filterMap Mail.number := by
      rw [entered, pushed, List.filterMap_append]
      rfl
    constructor
    · exact hearing
    · intro i h m n position waits numbered
      rw [List.getElem?_append] at position
      split at position
      · rw [List.getElem?_set] at position
        split at position
        · rename_i same
          subst same
          split at position
          · cases position
            exact following.waiting j g m n found (fewer waits) numbered
          · cases position
        · exact following.waiting i h m n position waits numbered
      · obtain ⟨r, rfl⟩ := advance.spawns h (List.mem_of_getElem? position)
        cases waits
    · intro n member
      rw [grown] at member
      cases List.mem_append.mp member with
      | inl old => exact following.known n old
      | inr new =>
        obtain ⟨earlier, rfl⟩ := arrivals n new
        exact List.mem_append_right _ (List.mem_singleton.mpr rfl)
    · rw [grown]
      apply List.pairwise_append.mpr
      refine ⟨following.ordered, ?_, ?_⟩
      · apply List.pairwise_of_forall_mem_list
        intro m first n second
        obtain ⟨earlier, rfl⟩ := arrivals n second
        obtain ⟨before, same⟩ := arrivals m first
        apply idxOf_le_last distinct
        rw [same]
        exact List.mem_append_right _ (List.mem_singleton.mpr rfl)
      · intro m old n new
        have known := following.known m old
        obtain ⟨earlier, rfl⟩ := arrivals n new
        exact idxOf_le_last distinct known

theorem Following.orphaned {a b : Engine.State (Mail M) W} (following : Following handled handler x a)
    (hearing : Engine.Hearing (fun m => (Mail.number m).isSome) b)
    (stepped : a.step (.childStopped child) = some b) : Following handled handler x b := by
  rcases Engine.step_cases stepped with ⟨call, same, -⟩ | ⟨other, same, rfl⟩ |
    ⟨j, other, g, actor, next, spawned, same, -⟩
  · cases same
  · exact ⟨hearing, following.waiting, following.known, following.ordered⟩
  · cases same

/-- The actors in question are not asked to stop and their receivers end within the
restart budget, returning from Stopped. -/
def undisturbed (followed : Nat → Bool) (s : State M W) : Label M W → Bool
  | .actor x label => !followed x ||
      (s.actors x).all fun a => Engine.unhurried (fun m => (Mail.number m).isSome) a label
  | _ => true

/-- The event stream and every actor that is followed. -/
structure Agreed (followed : Nat → Bool) (s : State M W) : Prop where
  streaming : Streaming s
  following : ∀ x a, followed x = true → s.actors x = some a → Following s.handled s.handler x a

section
variable {followed : Nat → Bool}

/-- The send that the handler is in, if any, has put its event into the mailbox. -/
def Settled (s : State M W) : Prop :=
  ∀ n rest x i a g, s.handler = .calling n rest x i → s.actors x = some a → a.pool[i]? = some g →
    g.waiting = []

theorem settled_of_free {s : State M W} (free : ∀ n rest x i, s.handler ≠ .calling n rest x i) :
    Settled s := by
  intro n rest x i a g calling
  exact absurd calling (free n rest x i)

theorem settled_of_forwarding {s : State M W} (forwarding : s.handler = .forwarding n rest) :
    Settled s := by
  apply settled_of_free
  intro n rest x i calling
  rw [forwarding] at calling
  cases calling

/-- With no event on its way into a mailbox, the handler can take up another one. -/
theorem Agreed.rehandle {s : State M W} (agreed : Agreed followed s) (settled : Settled s) (more : List Nat)
    (handler : Handler) :
    ∀ x a, followed x = true → s.actors x = some a → Following (s.handled ++ more) handler x a := by
  intro x a chosen known
  have following := agreed.following x a chosen known
  apply following.grow more
  intro i g m n found waits numbered
  obtain ⟨rest, calling⟩ := following.waiting i g m n found waits numbered
  rw [settled n rest x i a g calling known found] at waits
  cases waits

theorem Agreed.handle {s : State M W} (agreed : Agreed followed s) (settled : Settled s)
    (same : handler.event = s.handler.event) : Agreed followed { s with handler := handler } := by
  refine ⟨agreed.streaming.handle same s.actors, ?_⟩
  have rehandled := agreed.rehandle settled [] handler
  rwa [List.append_nil] at rehandled

theorem Agreed.told {s : State M W} (agreed : Agreed followed s)
    (stepped : s.stream.step (.act i .step) = some stream) (heard : State.heard s.stream stream = some msg) :
    Agreed followed (State.receive { s with stream := stream } msg) := by
  obtain ⟨idle, streaming, handled⟩ := agreed.streaming.told stepped heard
  refine ⟨streaming, ?_⟩
  rw [handled]
  have settled : Settled s := by
    apply settled_of_free
    intro n rest x i calling
    rw [calling] at idle
    cases idle
  cases msg <;> exact agreed.rehandle settled _ _

theorem number_plain {msg : StreamMsg} (plain : ∀ n, msg ≠ .event n) : number (msg, none) = none := by
  cases msg with
  | event n => exact absurd rfl (plain n)
  | _ => rfl

/-- The event stream goes on and its receiver is called with nothing new. -/
theorem Agreed.streams {s : State M W} {stream : Engine.State StreamMsg W} (agreed : Agreed followed s)
    (streaming : Streaming { s with stream := stream, events := events })
    (told : stream.actor.told = s.stream.actor.told) :
    Agreed followed { s with stream := stream, events := events } := by
  refine ⟨streaming, ?_⟩
  have handled : State.handled { s with stream := stream, events := events } = s.handled :=
    congrArg (List.filterMap number) told
  rw [handled]
  exact agreed.following

theorem Agreed.finished {s : State M W} (agreed : Agreed followed s) (done : s.handler.finished = true)
    (stepped : s.stream.step (.act i (.receive .returns)) = some stream) :
    Agreed followed { s with stream := stream, handler := .idle } := by
  refine ⟨agreed.streaming.finished stepped, ?_⟩
  have handled : State.handled { s with stream := stream, handler := .idle } = s.handled :=
    congrArg (List.filterMap number) (Engine.returns_step stepped).1
  have settled : Settled s := by
    apply settled_of_free
    intro n rest x i calling
    rw [calling] at done
    cases done
  have rehandled := agreed.rehandle settled [] .idle
  rw [List.append_nil] at rehandled
  rw [handled]
  exact rehandled

/-- One actor goes on, and the handler with it. -/
theorem Agreed.update {s : State M W} (agreed : Agreed followed s) (same : handler.event = s.handler.event)
    (mine : followed x = true → Following s.handled handler x next)
    (others : ∀ z a, z ≠ x → followed z = true → s.actors z = some a → Following s.handled handler z a) :
    Agreed followed
      { s with actors := Function.update s.actors x (some next), handler := handler } := by
  refine ⟨agreed.streaming.handle same _, ?_⟩
  intro z a chosen found
  dsimp only at found
  by_cases here : z = x
  · subst here
    rw [Function.update_self] at found
    cases found
    exact mine chosen
  · rw [Function.update_of_ne here] at found
    exact others z a here chosen found

theorem Agreed.called {s : State M W} (agreed : Agreed followed s)
    (forwarding : s.handler = .forwarding n rest) (known : s.actors x = some actor)
    (called : actor.step (.call (.send (.event n) s.pid)) = some next) :
    Agreed followed { s with
      actors := Function.update s.actors x (some next)
      handler := .calling n left x actor.pool.length } := by
  have settled := settled_of_forwarding forwarding
  apply agreed.update (by rw [forwarding]; rfl)
  · intro chosen
    have following := agreed.following x actor chosen known
    apply following.call (following.hearing.step rfl called) called
    · intro k other i calling
      rw [forwarding] at calling
      cases calling
    · intro m member k numbered
      obtain rfl := List.mem_singleton.mp member
      cases numbered
      exact ⟨left, rfl⟩
  · intro z a _ chosen found
    have rehandled := agreed.rehandle settled [] (.calling n left x actor.pool.length) z a chosen found
    rwa [List.append_nil] at rehandled

theorem genuine_messages {call : Engine.Call (Mail M)} (honest : genuine (.call call) = true) :
    ∀ m ∈ (call.request ctx).messages, ∀ n, Mail.number m ≠ some n := by
  intro m member n numbered
  cases call with
  | send msg sender | sendPriority msg sender =>
    obtain rfl := List.mem_singleton.mp member
    cases msg with
    | event k => cases honest
    | other msg => cases numbered
  | stop | poison | clearMailbox => cases member

theorem Agreed.acts {s : State M W} (agreed : Agreed followed s) (honest : genuine label = true)
    (known : s.actors x = some actor) (stepped : actor.step label = some next)
    (allowed : undisturbed followed s (.actor x label) = true) :
    Agreed followed { s with actors := Function.update s.actors x (some next) } := by
  apply agreed.update rfl
  · intro chosen
    have following := agreed.following x actor chosen known
    have steady : Engine.unhurried (fun m => (Mail.number m).isSome) actor label = true := by
      simpa [undisturbed, chosen, known] using allowed
    have hearing := following.hearing.step steady stepped
    cases label with
    | act j action =>
      apply following.act hearing _ agreed.streaming.nodup stepped
      intro n current
      exact (agreed.streaming.current n current).1
    | childStopped child => exact following.orphaned hearing stepped
    | call call =>
      apply following.call hearing stepped
      · intro n rest i calling
        exact ⟨rest, calling⟩
      · intro m member n numbered
        exact absurd numbered (genuine_messages honest m member n)
  · exact fun z a _ chosen found => agreed.following z a chosen found

theorem Agreed.spawn {s : State M W} (agreed : Agreed followed s) (opts : Opts W)
    (positive : 0 < opts.inboxSize) (parent : Bool) : Agreed followed
      { s with actors := Function.update s.actors x (some (Engine.initial opts positive parent)) } := by
  apply agreed.update rfl
  · exact fun _ => initial_following _ _ _ opts positive parent
  · exact fun z a _ chosen found => agreed.following z a chosen found

theorem Agreed.step {s t : State M W} (agreed : Agreed followed s)
    (allowed : undisturbed followed s label = true) (stepped : s.step label = some t) : Agreed followed t := by
  cases step_move stepped with
  | broadcast called =>
    apply agreed.streams (agreed.streaming.post called ?_)
    · rw [Engine.call_step called]
      rfl
    · rw [agreed.streaming.numbered, List.range_succ]
      rfl
  | posted plain called =>
    apply agreed.streams (agreed.streaming.post called ?_)
    · rw [Engine.call_step called]
      rfl
    · rw [agreed.streaming.numbered, number_plain plain]
      exact List.append_nil _
  | silent moved quiet =>
    obtain ⟨streaming, told⟩ := agreed.streaming.silent moved quiet
    exact agreed.streams streaming told
  | told moved heard => exact agreed.told moved heard
  | finished done moved => exact agreed.finished done moved
  | received away moved =>
    exact agreed.streams (agreed.streaming.received away moved) (Engine.returns_step moved).1
  | skipped forwarding =>
    apply agreed.handle
    · exact settled_of_forwarding forwarding
    · rw [forwarding]
      rfl
  | called forwarding known called => exact agreed.called forwarding known called
  | forwarded calling known position =>
    apply agreed.handle
    · intro n rest x i a g same found at'
      rw [calling] at same
      cases same
      cases known.symm.trans found
      cases position.symm.trans at'
      rfl
    · rw [calling]
      rfl
  | spawn positive => exact agreed.spawn _ positive _
  | actor honest known moved => exact agreed.acts honest known moved allowed

end

/-- An actor that is followed receives its events in the order in which they were
handled. -/
theorem Following.before_iff {a : Engine.State (Mail M) W} {i j : Nat}
    (following : Following handled handler x a) (differ : m ≠ n) (first : (received a)[i]? = some m)
    (second : (received a)[j]? = some n) :
    i < j ↔ handled.idxOf m < handled.idxOf n := by
  have told : received a <+ entered a := following.hearing.told_sublist
  have ordered := List.pairwise_iff_getElem.mp (following.ordered.sublist told)
  have known := following.known m (told.subset (List.mem_of_getElem? first))
  obtain ⟨bound, same⟩ := List.getElem?_eq_some_iff.mp first
  obtain ⟨bound', same'⟩ := List.getElem?_eq_some_iff.mp second
  have apart : handled.idxOf m ≠ handled.idxOf n := by
    intro equal
    exact differ (List.idxOf_inj known |>.mp equal)
  constructor
  · intro before
    have le := ordered i j bound bound' before
    rw [same, same'] at le
    omega
  · intro before
    by_contra after
    have other : i ≠ j := by
      rintro rfl
      exact differ (same.symm.trans same')
    have le := ordered j i bound' bound (by omega)
    rw [same, same'] at le
    omega

/-- Two subscribers that are not stopped and whose receivers return from Stopped agree
on the order of any two events that both receive. -/
theorem subscribers_agree (pid : Option PID) (opts : Opts W) (positive : 0 < opts.inboxSize) (x y : Nat)
    (s : State M W) (reached : Reaches
      (restrict (undisturbed fun z => z = x ∨ z = y) State.step) (initial pid opts positive) s)
    (first : s.actors x = some a) (second : s.actors y = some b) {i j i' j' : Nat} (differ : m ≠ n)
    (early : (received a)[i]? = some m) (late : (received a)[j]? = some n)
    (early' : (received b)[i']? = some m) (late' : (received b)[j']? = some n) : i < j ↔ i' < j' := by
  have agreed : Agreed (fun z => z = x ∨ z = y) s := by
    apply reached.invariant (P := Agreed fun z => z = x ∨ z = y)
    · intro s label t agreed stepped
      obtain ⟨allowed, stepped⟩ := restrict_some stepped
      exact agreed.step allowed stepped
    · refine ⟨initial_streaming pid opts positive, ?_⟩
      rintro z a - ⟨⟩
  have left := agreed.following x a (by simp) first
  have right := agreed.following y b (by simp) second
  rw [left.before_iff differ early late, right.before_iff differ early' late']

def streamSteps (i count : Nat) : List (Label Nat Nat) := List.replicate count (.stream i)

def actorSteps (x i count : Nat) : List (Label Nat Nat) := List.replicate count (.actor x (.act i .step))

def actorReceives (x : Nat) (outcome : Outcome) : Label Nat Nat := .actor x (.act 1 (.receive outcome))

/-- An actor is spawned and its inbox started. -/
def boots (x : Nat) : List (Label Nat Nat) :=
  [.spawn x ⟨3, 1, []⟩ false, .actor x (.act 0 .step), .actor x (.act 0 (.receive .returns)),
    .actor x (.act 0 (.receive .returns))] ++ actorSteps x 0 3

/-- The next forward goes to the actor. -/
def forwardsTo (x i : Nat) : List (Label Nat Nat) := [.forward 0] ++ actorSteps x i 3 ++ [.forwarded]

/-- One actor is subscribed before the first of three events and one after it, who
receives the other two. -/
def threeEvents : List (Label Nat Nat) :=
  streamSteps 0 1 ++ [.received 0, .received 0] ++ streamSteps 0 3 ++ boots 0 ++ boots 1 ++
    [.subscribe ⟨0, some 0⟩, .broadcast, .subscribe ⟨1, some 1⟩, .broadcast, .broadcast] ++
    (List.range 5).flatMap (fun k => streamSteps (k + 2) 3) ++ streamSteps 1 4 ++ [.received 1, .stream 1] ++
    forwardsTo 0 2 ++ [.received 1, .stream 1, .received 1, .stream 1] ++ forwardsTo 0 3 ++ forwardsTo 1 2 ++
    [.received 1, .stream 1] ++ forwardsTo 0 4 ++ forwardsTo 1 3 ++ [.received 1] ++ actorSteps 1 1 4 ++
    [actorReceives 1 .returns] ++ actorSteps 1 1 1 ++ [actorReceives 1 .returns]

/-- A restarted actor receives the two events in its retry buffer. -/
def replaysTwo : List (Label Nat Nat) :=
  actorSteps 0 1 4 ++ [actorReceives 0 .returns, actorReceives 0 .returns] ++ actorSteps 0 1 1 ++
    [actorReceives 0 .returns] ++ actorSteps 0 1 1

/-- The first event makes the earlier subscriber panic. -/
def restartedSubscriber : List (Label Nat Nat) :=
  threeEvents ++ actorSteps 0 1 4 ++ [actorReceives 0 (.panics .error)] ++ actorSteps 0 1 1 ++
    [actorReceives 0 .returns] ++ replaysTwo

theorem subscribers_agree_restarted :
    ∃ (s : State Nat Nat) (a b : Engine.State (Mail Nat) Nat), s.actors 0 = some a ∧ s.actors 1 = some b ∧
      received a = [0, 1, 2] ∧ received b = [1, 2] ∧ a.actor.restarts = 1 ∧ (1 < 2 ↔ 0 < 1) := by
  obtain ⟨s, reached, ends⟩ := exists_of_run
    (restrict (undisturbed fun z => z = 0 ∨ z = 1) State.step)
    (initial none ⟨3, 1, []⟩ Nat.one_pos) restartedSubscriber
    (fun s => (s.actors 0).any (fun a => received a = [0, 1, 2] ∧ a.actor.restarts = 1) ∧
      (s.actors 1).any (fun b => received b = [1, 2])) (by decide +kernel)
  obtain ⟨first, second⟩ := of_decide_eq_true ends
  obtain ⟨a, known, heard⟩ := Option.any_eq_true _ _ |>.mp first
  obtain ⟨b, known', heard'⟩ := Option.any_eq_true _ _ |>.mp second
  obtain ⟨heard, restarted⟩ := of_decide_eq_true heard
  have heard' := of_decide_eq_true heard'
  refine ⟨s, a, b, known, known', heard, heard', restarted, ?_⟩
  exact subscribers_agree none ⟨3, 1, []⟩ Nat.one_pos 0 1 s reached known known' (by decide : 1 ≠ 2)
    (by rw [heard]; rfl) (by rw [heard]; rfl) (by rw [heard']; rfl) (by rw [heard']; rfl)

/-- The last event makes the subscriber panic again, and so does Stopped: the panic
leaves `Invoke`, and the `Start` that waits for it replays the old retry buffer. -/
def panicsOnStopped : List (Label Nat Nat) :=
  restartedSubscriber ++ [actorReceives 0 (.panics .error)] ++ actorSteps 0 1 1 ++
    [actorReceives 0 (.panics .error)] ++ actorSteps 0 1 1 ++ [actorReceives 0 .returns] ++ replaysTwo

/-- Nobody was asked to stop, and one subscriber receives event 2 before event 1, the
other one event 1 before event 2. -/
theorem subscribers_disagree :
    ∃ (s : State Nat Nat) (a b : Engine.State (Mail Nat) Nat),
      Reaches State.step (initial none ⟨3, 1, []⟩ Nat.one_pos) s ∧
        s.actors 0 = some a ∧ s.actors 1 = some b ∧ a.contexts = 0 ∧ b.contexts = 0 ∧
        a.actor.registered = true ∧ b.actor.registered = true ∧
        received a = [0, 1, 2, 1, 2] ∧ received b = [1, 2] := by
  obtain ⟨s, reached, ends⟩ := exists_of_run State.step
    (initial none ⟨3, 1, []⟩ Nat.one_pos) panicsOnStopped
    (fun s : State Nat Nat => (s.actors 0).any (fun a => a.contexts = 0 ∧ a.actor.registered = true ∧
        received a = [0, 1, 2, 1, 2]) ∧
      (s.actors 1).any (fun b => b.contexts = 0 ∧ b.actor.registered = true ∧ received b = [1, 2]))
    (by decide +kernel)
  obtain ⟨first, second⟩ := of_decide_eq_true ends
  obtain ⟨a, known, heard⟩ := Option.any_eq_true _ _ |>.mp first
  obtain ⟨b, known', heard'⟩ := Option.any_eq_true _ _ |>.mp second
  obtain ⟨unasked, registered, heard⟩ := of_decide_eq_true heard
  obtain ⟨unasked', registered', heard'⟩ := of_decide_eq_true heard'
  exact ⟨s, a, b, reached, known, known', unasked, unasked', registered, registered', heard, heard'⟩

end Hollywood.Bus
