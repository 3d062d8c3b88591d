import Hollywood.Foundation.Pool
import Hollywood.Inbox
import Hollywood.Remote.Streams

/-! What becomes of the messages that the router is given: the router with the workers
of the writers' inboxes, which take batches out and hand what serializes of each to the
stream (`Invoke` of `remote/stream_writer.go`). `Engine.Send` of the router is two steps
here, the lookup in the registry and the push into the inbox found there. -/
namespace Hollywood.Remote
open Transition
variable {P : Type}

/-- Where the goroutine stands that runs a writer's inbox. -/
inductive WorkerPc (P : Type) where
  | load
  | popN
  | invoke (msgs : List (StreamDeliver P))
  | done
  deriving DecidableEq, Repr

structure Worker (P : Type) where
  writer : Nat
  pc : WorkerPc P
  deriving DecidableEq, Repr

def Worker.running (g : Worker P) : Bool := g.pc matches .load | .popN | .invoke _

/-- What `stream.Send` returns. After `io.EOF` the writer closes its connection, which
is then lost for the goroutine that watches it; any other error is logged. -/
inductive SendResult where
  | ok
  | eof
  | failed
  deriving DecidableEq, Repr

/-- `calling` is the writer that the router has looked up and not yet sent to. The last
three fields record what the router was given, what a stream took and what failed in
`Serialize`. -/
structure Transport (P : Type) where
  routing : Routing P
  serializer : Serializer P
  calling : Option Nat
  workers : List (Worker P)
  accepted : List (StreamDeliver P)
  sent : List (StreamDeliver P)
  skipped : List (StreamDeliver P)

inductive TransportLabel (P : Type) where
  | route (label : RoutingLabel P)
  | get
  | push
  | schedule (writer : Nat)
  | worker (k : Nat)
  | send (k : Nat) (result : SendResult)
  deriving DecidableEq, Repr

def WorkerPc.msgs : WorkerPc P → List (StreamDeliver P)
  | .invoke msgs => msgs
  | _ => []

def RouterMsg.stream : RouterMsg P → List (StreamDeliver P)
  | .streamDeliver stream => [stream]
  | .remoteUnreachable _ => []

def RouterEvent.letter : RouterEvent P → List (StreamDeliver P)
  | .deadLetter _ stream => [stream]
  | _ => []

/-- The message that the router is about to send to a writer. -/
def RouterPc.hand : RouterPc P → List (StreamDeliver P)
  | .receive => []
  | .add stream _ | .start stream _ | .init stream _ | .shutdown stream _ | .store stream _
  | .send stream _ | .panicked stream => [stream]

def RoutingLabel.accepted : RoutingLabel P → List (StreamDeliver P)
  | .deliver stream => [stream]
  | _ => []

namespace Routing

/-- The writer that the router's `Send` finds in the registry. -/
def lookup (s : Routing P) : Option Nat :=
  match s.router with
  | .send _ swpid => s.registry swpid.id
  | _ => none

theorem lookup_send {s : Routing P} (position : s.router = .send stream swpid)
    (found : s.registry swpid.id = some writer) : s.lookup = some writer := by
  rw [lookup, position]
  exact found

def deadLetters (s : Routing P) : List (StreamDeliver P) := s.events.flatMap RouterEvent.letter

/-- The messages that the router and the inboxes hold, the dead letters and those lost in
a panic of the router. -/
def held (s : Routing P) : Multiset (StreamDeliver P) :=
  s.mailbox.flatMap RouterMsg.stream + s.router.hand + s.writers.flatMap (·.inbox) + s.deadLetters +
    s.lost

theorem inboxes_modify (writers : List (StreamWriter P)) (writer : Nat)
    {change : StreamWriter P → StreamWriter P} (same : ∀ w, (change w).inbox = w.inbox) :
    (writers.modify writer change).flatMap (·.inbox) = writers.flatMap (·.inbox) := by
  induction writers generalizing writer with
  | nil => rw [List.modify_nil]
  | cons w rest ih =>
    cases writer with
    | zero => simp [same]
    | succ writer => simp [ih]

/-- Changing one inbox changes the messages that wait by what that inbox holds. -/
theorem inboxes_change {writers : List (StreamWriter P)} {writer : Nat} (found : writers[writer]? = some w)
    (change : StreamWriter P → StreamWriter P) :
    ((writers.modify writer change).flatMap (·.inbox) : Multiset (StreamDeliver P)) + w.inbox =
      writers.flatMap (·.inbox) + (change w).inbox := by
  have replaced := Pool.flatMap_replace (fun w : StreamWriter P => w.inbox) found (change w) []
  rw [List.append_nil, List.flatMap_nil, Multiset.coe_nil, add_zero] at replaced
  rw [List.modify_eq_set_getElem?, found]
  exact replaced

theorem modify_held (s : Routing P) (writer : Nat) {change : StreamWriter P → StreamWriter P}
    (same : ∀ w, (change w).inbox = w.inbox) : (s.modify writer change).held = s.held := by
  rw [held, held, modify, inboxes_modify _ _ same]
  rfl

theorem shutdown_held (s : Routing P) (writer : Nat) (w : StreamWriter P) (pc : ShutdownPc) :
    (s.shutdown writer w pc).held = s.held := by
  cases pc <;>
    simp [held, deadLetters, shutdown, modify, inboxes_modify, RouterMsg.stream, RouterEvent.letter]

/-- A step of the router moves messages on and loses none. -/
theorem Move.held {s t : Routing P} (move : Move s label t) (misses : label = .router → s.lookup = none) :
    t.held = s.held + label.accepted := by
  cases move with
  | deliver stream =>
    simp only [Routing.held, deadLetters, List.flatMap_append, List.flatMap_singleton, RouterMsg.stream,
      RoutingLabel.accepted, ← Multiset.coe_add]
    ac_rfl
  | terminate position mail =>
    simp [Routing.held, deadLetters, handleTerminateStream, mail, RouterMsg.stream, RoutingLabel.accepted]
  | known position mail entry =>
    simp only [Routing.held, deadLetters, position, mail, List.flatMap_cons, RouterMsg.stream, RouterPc.hand,
      RoutingLabel.accepted, ← Multiset.coe_add, Multiset.coe_nil, add_zero]
    ac_rfl
  | create position mail missing =>
    simp only [Routing.held, deadLetters, position, mail, List.flatMap_cons, List.flatMap_append,
      List.flatMap_nil, List.append_nil, newStreamWriter, RouterMsg.stream, RouterPc.hand,
      RoutingLabel.accepted, ← Multiset.coe_add, Multiset.coe_nil, add_zero]
    ac_rfl
  | duplicate position | add position | start position | stopped position | store position =>
    simp [Routing.held, deadLetters, modify, inboxes_modify, position, RouterPc.hand, RouterEvent.letter,
      RoutingLabel.accepted]
  | send position found => cases (lookup_send position found).symm.trans (misses rfl)
  | deadLetter position missing =>
    simp only [Routing.held, deadLetters, position, List.flatMap_append, List.flatMap_singleton,
      RouterEvent.letter, RouterPc.hand, RoutingLabel.accepted, ← Multiset.coe_add, Multiset.coe_nil, add_zero]
    ac_rfl
  | crash position | fail position | deadline position | connect position =>
    simp [Routing.held, deadLetters, modify, inboxes_modify, position, RouterPc.hand, RoutingLabel.accepted]
  | restart position =>
    simp only [Routing.held, deadLetters, position, RouterPc.hand, RoutingLabel.accepted,
      ← Multiset.coe_add, Multiset.coe_nil, add_zero]
    ac_rfl
  | lose found watched | closed found watched =>
    simp [Routing.held, deadLetters, modify, inboxes_modify, RoutingLabel.accepted]
  | shutdown found phase => simp [shutdown_held, RoutingLabel.accepted]

/-- What the routing keeps of its registry and of the inboxes that are not running. -/
structure Sealed (s : Routing P) : Prop where
  known : ∀ id writer, s.registry id = some writer → writer < s.writers.length
  empty : ∀ w ∈ s.writers, w.started = false → w.inbox = []

/-- No inbox is stopped with messages in it. -/
def drained (s : Routing P) : RoutingLabel P → Bool
  | .shutdown writer => s.writers[writer]?.all fun w => w.phase ≠ .shutdown .stopInbox || w.inbox.isEmpty
  | _ => true

/-- No `tls.Dial` fails. -/
def dials (s : Routing P) : RoutingLabel P → Bool
  | .init .unreachable => !s.tls
  | _ => true

theorem Move.lost {s t : Routing P} (move : Move s label t) (dials : s.dials label = true) :
    t.lost = s.lost := by
  cases move with
  | restart position tls => simp [Routing.dials, tls] at dials
  | @shutdown writer w pc => cases pc <;> rfl
  | _ => rfl

theorem Sealed.modify {s t : Routing P} (kept : s.Sealed) {change : StreamWriter P → StreamWriter P}
    (writers : t.writers = s.writers.modify writer change)
    (registry : ∀ id other, t.registry id = some other → s.registry id = some other)
    (shut : ∀ w, s.writers[writer]? = some w → (change w).started = false → (change w).inbox = []) :
    t.Sealed := by
  constructor
  · intro id other found
    rw [writers, List.length_modify]
    exact kept.known id other (registry id other found)
  · intro w member stopped
    rw [writers] at member
    obtain ⟨other, present⟩ := List.mem_iff_getElem?.mp member
    obtain ⟨before, found, rfl⟩ := modify_found present
    split at stopped
    · rename_i same
      subst same
      rw [if_pos rfl]
      exact shut before found stopped
    · rename_i other
      rw [if_neg other]
      exact kept.empty before (List.mem_of_getElem? found) stopped

theorem Sealed.keep {s t : Routing P} (kept : s.Sealed) {change : StreamWriter P → StreamWriter P}
    (writers : t.writers = s.writers.modify writer change)
    (registry : ∀ id other, t.registry id = some other → s.registry id = some other)
    (same : ∀ w, (change w).inbox = w.inbox) (shut : ∀ w, (change w).started = false → w.started = false) :
    t.Sealed := by
  apply kept.modify writers registry
  intro w found stopped
  rw [same]
  exact kept.empty w (List.mem_of_getElem? found) (shut w stopped)

theorem Move.sealed {s t : Routing P} (kept : s.Sealed) (move : Move s label t)
    (misses : label = .router → s.lookup = none) (drains : s.drained label = true) : t.Sealed := by
  cases move with
  | deliver | terminate | known | duplicate | stopped | store | deadLetter | crash | restart | deadline =>
    exact ⟨kept.known, kept.empty⟩
  | create position mail missing =>
    constructor
    · intro id writer found
      have inside := kept.known id writer found
      simp only [List.length_append]
      omega
    · intro w member stopped
      cases List.mem_append.mp member with
      | inl old => exact kept.empty w old stopped
      | inr new =>
        rw [List.mem_singleton.mp new]
        rfl
  | add position present missing =>
    refine ⟨?_, kept.empty⟩
    intro id writer found
    dsimp only at found
    rw [Function.update_apply] at found
    split at found
    · cases found
      exact (List.getElem?_eq_some_iff.mp present).1
    · exact kept.known id writer found
  | start => exact kept.keep rfl (fun _ _ found => found) (fun _ => rfl) nofun
  | send position found => cases (lookup_send position found).symm.trans (misses rfl)
  | fail | connect | lose | closed =>
    exact kept.keep rfl (fun _ _ found => found) (fun _ => rfl) (fun _ stopped => stopped)
  | @shutdown writer w pc found phase =>
    cases pc with
    | notify | broadcast | closeStream =>
      exact kept.keep rfl (fun _ _ found => found) (fun _ => rfl) (fun _ stopped => stopped)
    | stopInbox =>
      refine kept.modify rfl (fun _ _ found => found) ?_
      intro present same stopped
      cases found.symm.trans same
      simpa [drained, found, phase] using drains
    | remove =>
      refine kept.keep rfl ?_ (fun _ => rfl) (fun _ stopped => stopped)
      intro id other entry
      dsimp only [Routing.shutdown] at entry
      rw [Function.update_apply] at entry
      split at entry
      · cases entry
      · exact entry

theorem Move.longer {s t : Routing P} (move : Move s label t) : s.writers.length ≤ t.writers.length := by
  cases move with
  | create => simp
  | @shutdown writer w pc => cases pc <;> simp [Routing.shutdown, Routing.modify]
  | start | send | fail | connect | lose | closed => simp [Routing.modify]
  | _ => exact Nat.le_refl _

end Routing

namespace Transport

def initial (engine : String) (tls : Bool) (serializer : Serializer P) : Transport P where
  routing := .initial engine tls
  serializer := serializer
  calling := none
  workers := []
  accepted := []
  sent := []
  skipped := []

def busy (s : Transport P) (writer : Nat) : Bool :=
  s.workers.any fun g => g.writer = writer && g.running

def turn (s : Transport P) (k : Nat) (g : Worker P) (pc : WorkerPc P) : Transport P :=
  { s with workers := s.workers.set k { g with pc := pc } }

/-- The loop of `Invoke` over the batch, which passes over what does not serialize. -/
def pack (s : Transport P) (k : Nat) (g : Worker P) (msgs : List (StreamDeliver P)) : Transport P :=
  { s.turn k g .load with skipped := s.skipped ++ msgs.filter (!s.serializer.serializes ·) }

/-- `Invoke` on a writer without a stream panics, and nothing recovers in a worker. -/
def send (s : Transport P) (k : Nat) (g : Worker P) (w : StreamWriter P) (result : SendResult) :
    Option (Transport P) :=
  match g.pc with
  | .invoke msgs =>
    if w.phase = .running then none
    else match result with
      | .ok => some { s.pack k g msgs with sent := s.sent ++ msgs.filter s.serializer.serializes }
      | .eof => some { s.pack k g msgs with
          routing := s.routing.modify g.writer fun w => { w with closed := true } }
      | .failed => some (s.pack k g msgs)
  | _ => none

/-- The loop of `run` in `actor/inbox.go`, up to `Invoke`. -/
def work (s : Transport P) (k : Nat) (g : Worker P) (w : StreamWriter P) : Option (Transport P) :=
  match g.pc with
  | .load => if w.started then some (s.turn k g .popN) else some (s.turn k g .done)
  | .popN =>
    if w.inbox.isEmpty then some (s.turn k g .done)
    else some { s.turn k g (.invoke (w.inbox.take messageBatchSize)) with
      routing := s.routing.modify g.writer fun w => { w with inbox := w.inbox.drop messageBatchSize } }
  | .invoke _ | .done => none

def push (s : Transport P) (writer : Nat) (stream : StreamDeliver P) : Transport P :=
  { s with
    calling := none
    routing := { s.routing.modify writer (fun w => { w with inbox := w.inbox ++ [stream] }) with
      router := .receive } }

/-- The router's goroutine is not within a `Send` to a writer. -/
def free (s : Transport P) : RoutingLabel P → Bool
  | .router => s.routing.lookup.isNone && s.calling.isNone
  | _ => true

theorem free_misses {s : Transport P} (free : s.free label = true) :
    label = .router → s.routing.lookup = none := by
  rintro rfl
  simp only [Transport.free, Bool.and_eq_true, Option.isNone_iff_eq_none] at free
  exact free.1

def step (s : Transport P) : TransportLabel P → Option (Transport P)
  | .route label =>
    if s.free label then do
      let routing ← s.routing.step label
      pure { s with routing := routing, accepted := s.accepted ++ label.accepted }
    else none
  | .get =>
    match s.calling with
    | some _ => none
    | none => do
      let writer ← s.routing.lookup
      pure { s with calling := some writer }
  | .push => do
    let writer ← s.calling
    match s.routing.router with
    | .send stream _ => pure (s.push writer stream)
    | _ => none
  | .schedule writer => do
    let w ← s.routing.writers[writer]?
    if w.started && !w.inbox.isEmpty && !s.busy writer then
      pure { s with workers := s.workers ++ [⟨writer, .load⟩] }
    else none
  | .worker k => do
    let g ← s.workers[k]?
    let w ← s.routing.writers[g.writer]?
    s.work k g w
  | .send k result => do
    let g ← s.workers[k]?
    let w ← s.routing.writers[g.writer]?
    s.send k g w result

/-- All that a step can do. -/
inductive Move (s : Transport P) : TransportLabel P → Transport P → Prop where
  | route : s.free label = true → s.routing.Move label r →
      Move s (.route label) { s with routing := r, accepted := s.accepted ++ label.accepted }
  | get : s.routing.lookup = some writer → Move s .get { s with calling := some writer }
  | push : s.calling = some writer → s.routing.router = .send stream swpid →
      Move s .push (s.push writer stream)
  | schedule : Move s (.schedule writer) { s with workers := s.workers ++ [⟨writer, .load⟩] }
  | loaded : s.workers[k]? = some g → g.pc = .load → Move s (.worker k) (s.turn k g .popN)
  | left : s.workers[k]? = some g → g.pc.msgs = [] → Move s (.worker k) (s.turn k g .done)
  | popped : s.workers[k]? = some g → s.routing.writers[g.writer]? = some w → g.pc = .popN →
      Move s (.worker k) { s.turn k g (.invoke (w.inbox.take messageBatchSize)) with
        routing := s.routing.modify g.writer fun w => { w with inbox := w.inbox.drop messageBatchSize } }
  | sent : s.workers[k]? = some g → g.pc = .invoke msgs →
      Move s (.send k .ok) { s.pack k g msgs with sent := s.sent ++ msgs.filter s.serializer.serializes }
  | ended : s.workers[k]? = some g → g.pc = .invoke msgs →
      Move s (.send k .eof) { s.pack k g msgs with
        routing := s.routing.modify g.writer fun w => { w with closed := true } }
  | failed : s.workers[k]? = some g → g.pc = .invoke msgs →
      Move s (.send k .failed) (s.pack k g msgs)

theorem work_move {s t : Transport P} {k : Nat} (found : s.workers[k]? = some g)
    (present : s.routing.writers[g.writer]? = some w) (worked : s.work k g w = some t) :
    Move s (.worker k) t := by
  unfold work at worked
  split at worked
  · rename_i position
    split at worked
    · cases worked
      exact .loaded found position
    · cases worked
      exact .left found (by rw [position]; rfl)
  · rename_i position
    split at worked
    · cases worked
      exact .left found (by rw [position]; rfl)
    · cases worked
      exact .popped found present position
  · cases worked
  · cases worked

theorem send_move {s t : Transport P} {k : Nat} (found : s.workers[k]? = some g)
    (sent : s.send k g w result = some t) : Move s (.send k result) t := by
  unfold send at sent
  split at sent
  · rename_i msgs position
    split at sent
    · cases sent
    · cases result <;> cases sent
      · exact .sent found position
      · exact .ended found position
      · exact .failed found position
  · cases sent

theorem step_move {s t : Transport P} (stepped : step s label = some t) : Move s label t := by
  cases label with
  | route label =>
    simp only [step] at stepped
    split at stepped
    · rename_i free
      simp only [Option.bind_eq_bind, Option.bind_eq_some_iff, Option.pure_def, Option.some.injEq] at stepped
      obtain ⟨routing, routed, rfl⟩ := stepped
      exact .route free (Routing.step_move routed)
    · cases stepped
  | get =>
    simp only [step] at stepped
    split at stepped
    · cases stepped
    · simp only [Option.bind_eq_bind, Option.bind_eq_some_iff, Option.pure_def, Option.some.injEq] at stepped
      obtain ⟨writer, found, rfl⟩ := stepped
      exact .get found
  | push =>
    simp only [step, Option.bind_eq_bind, Option.bind_eq_some_iff, Option.pure_def] at stepped
    obtain ⟨writer, calling, pushed⟩ := stepped
    split at pushed
    · cases pushed
      exact .push calling (by assumption)
    · cases pushed
  | schedule writer =>
    simp only [step, Option.bind_eq_bind, Option.bind_eq_some_iff, Option.pure_def] at stepped
    obtain ⟨w, found, scheduled⟩ := stepped
    split at scheduled
    · cases scheduled
      exact .schedule
    · cases scheduled
  | worker k =>
    simp only [step, Option.bind_eq_bind, Option.bind_eq_some_iff] at stepped
    obtain ⟨g, found, w, present, worked⟩ := stepped
    exact work_move found present worked
  | send k result =>
    simp only [step, Option.bind_eq_bind, Option.bind_eq_some_iff] at stepped
    obtain ⟨g, found, w, present, sent⟩ := stepped
    exact send_move found sent

/-- The messages of an envelope that the stream does not take. -/
def refuses (s : Transport P) : TransportLabel P → List (StreamDeliver P)
  | .send k result =>
    if result = .ok then [] else s.workers[k]?.elim [] fun g => g.pc.msgs.filter s.serializer.serializes
  | _ => []

/-- Every message that the router was given is held somewhere, was sent or refused, or failed
in `Serialize`. -/
def Accounts (s : Transport P) (refused : List (StreamDeliver P)) : Prop :=
  (s.accepted : Multiset (StreamDeliver P)) =
    s.routing.held + s.workers.flatMap (·.pc.msgs) + s.sent + refused + s.skipped

/-- Every message serializes and every `stream.Send` succeeds, no `tls.Dial` fails, no inbox
is stopped with messages in it, and the router sends to no writer whose inbox is stopped. -/
def lossless (s : Transport P) : TransportLabel P → Bool
  | .route label => s.routing.drained label && s.routing.dials label
  | .push => s.calling.all fun writer => s.routing.writers[writer]?.all (·.started)
  | .send k result =>
    result = .ok && s.workers[k]?.all fun g => g.pc.msgs.all s.serializer.serializes
  | _ => true

structure Kept (s : Transport P) : Prop where
  accounts : s.Accounts []
  sealed : s.routing.Sealed
  calling : ∀ writer, s.calling = some writer → writer < s.routing.writers.length
  skipped : s.skipped = []
  lost : s.routing.lost = []

theorem initial_kept (engine : String) (tls : Bool) (serializer : Serializer P) :
    (initial engine tls serializer).Kept := by
  refine ⟨rfl, ⟨?_, ?_⟩, ?_, rfl, rfl⟩
  · rintro id writer ⟨⟩
  · rintro w ⟨⟩
  · rintro writer ⟨⟩

/-- The batch of the worker that moves is the only one to change. -/
theorem Accounts.turn {s t : Transport P} {k : Nat} {refused refused' : List (StreamDeliver P)}
    (accounts : s.Accounts refused) (found : s.workers[k]? = some g)
    (workers : t.workers = s.workers.set k { g with pc := pc }) (accepted : t.accepted = s.accepted)
    (moved : s.routing.held + (g.pc.msgs : Multiset (StreamDeliver P)) + (s.sent : Multiset (StreamDeliver P)) +
        (refused : Multiset (StreamDeliver P)) + (s.skipped : Multiset (StreamDeliver P)) =
      t.routing.held + (pc.msgs : Multiset (StreamDeliver P)) + (t.sent : Multiset (StreamDeliver P)) +
        (refused' : Multiset (StreamDeliver P)) + (t.skipped : Multiset (StreamDeliver P))) :
    t.Accounts refused' := by
  have replaced := Pool.flatMap_replace (fun g : Worker P => g.pc.msgs) found { g with pc := pc } []
  rw [List.append_nil, List.flatMap_nil, Multiset.coe_nil, add_zero] at replaced
  unfold Accounts at accounts ⊢
  rw [workers, accepted, accounts]
  apply add_right_cancel (b := (g.pc.msgs : Multiset (StreamDeliver P)))
  calc _ = (s.workers.flatMap (·.pc.msgs) : Multiset (StreamDeliver P)) +
          (s.routing.held + g.pc.msgs + s.sent + refused + s.skipped) := by ac_rfl
    _ = (s.workers.flatMap (·.pc.msgs) + pc.msgs) + t.routing.held + t.sent + refused' + t.skipped := by
        rw [moved]
        ac_rfl
    _ = _ := by
        rw [← replaced]
        ac_rfl

theorem push_held {s : Routing P} (position : s.router = .send stream swpid)
    (found : s.writers[writer]? = some w) :
    { s.modify writer (fun w => { w with inbox := w.inbox ++ [stream] }) with
      router := .receive : Routing P }.held = s.held := by
  have changed := Routing.inboxes_change found fun w => { w with inbox := w.inbox ++ [stream] }
  simp only [Routing.held, Routing.deadLetters, Routing.modify, position, RouterPc.hand]
  apply add_right_cancel (b := (w.inbox : Multiset (StreamDeliver P)))
  rw [← Multiset.coe_add] at changed
  calc _ = (s.mailbox.flatMap RouterMsg.stream : Multiset (StreamDeliver P)) +
          ((s.writers.modify writer fun w => { w with inbox := w.inbox ++ [stream] }).flatMap (·.inbox) +
            w.inbox) + s.deadLetters + s.lost := by
        rw [Multiset.coe_nil, Routing.deadLetters]
        ac_rfl
    _ = _ := by
        rw [changed, Routing.deadLetters]
        ac_rfl

theorem popped_held {s : Routing P} (found : s.writers[writer]? = some w) (n : Nat) :
    (s.modify writer fun w => { w with inbox := w.inbox.drop n }).held + w.inbox.take n = s.held := by
  have changed := Routing.inboxes_change found fun w => { w with inbox := w.inbox.drop n }
  have whole : (w.inbox : Multiset (StreamDeliver P)) = w.inbox.take n + w.inbox.drop n := by
    rw [Multiset.coe_add, List.take_append_drop]
  rw [whole] at changed
  have moved : ((s.writers.modify writer fun w => { w with inbox := w.inbox.drop n }).flatMap (·.inbox) :
      Multiset (StreamDeliver P)) + w.inbox.take n = s.writers.flatMap (·.inbox) := by
    apply add_right_cancel (b := (w.inbox.drop n : Multiset (StreamDeliver P)))
    rw [add_assoc, changed]
  simp only [Routing.held, Routing.deadLetters, Routing.modify]
  rw [← moved]
  ac_rfl

/-- A batch is what serializes of it and what does not. -/
theorem packed (serializer : Serializer P) (msgs : List (StreamDeliver P)) :
    (msgs.filter serializer.serializes : Multiset (StreamDeliver P)) +
      msgs.filter (!serializer.serializes ·) = msgs := by
  rw [Multiset.coe_add, Multiset.coe_eq_coe]
  exact List.filter_append_perm _ msgs

theorem Accounts.move {s t : Transport P} (accounts : s.Accounts refused) (move : Move s label t)
    (called : ∀ writer stream swpid, s.calling = some writer → s.routing.router = .send stream swpid →
      ∃ w, s.routing.writers[writer]? = some w) : t.Accounts (refused ++ s.refuses label) := by
  have quiet : t.Accounts refused → t.Accounts (refused ++ []) := by
    rw [List.append_nil]
    exact id
  cases move with
  | @route label r free move =>
    refine quiet ?_
    unfold Accounts at accounts ⊢
    dsimp only
    rw [move.held (free_misses free), ← Multiset.coe_add, accounts]
    ac_rfl
  | get => exact quiet accounts
  | @push writer stream swpid calling position =>
    obtain ⟨w, present⟩ := called writer stream swpid calling position
    refine quiet ?_
    unfold Accounts at accounts ⊢
    dsimp only [Transport.push]
    rw [push_held position present]
    exact accounts
  | schedule =>
    refine quiet ?_
    unfold Accounts at accounts ⊢
    simpa [WorkerPc.msgs] using accounts
  | loaded found position =>
    refine quiet (accounts.turn found rfl rfl ?_)
    rw [position]
    rfl
  | left found idle =>
    refine quiet (accounts.turn found rfl rfl ?_)
    rw [idle]
    rfl
  | popped found present position =>
    refine quiet (accounts.turn found rfl rfl ?_)
    rw [position, ← popped_held present messageBatchSize]
    simp [WorkerPc.msgs, Transport.turn]
  | @sent k g msgs found position =>
    refine quiet (accounts.turn found rfl rfl ?_)
    simp only [position, WorkerPc.msgs, pack, Transport.turn, ← Multiset.coe_add, Multiset.coe_nil,
      ← packed s.serializer msgs]
    ac_rfl
  | @ended k g msgs found position =>
    have held : (s.routing.modify g.writer fun w => { w with closed := true }).held = s.routing.held :=
      Routing.modify_held s.routing g.writer fun _ => rfl
    refine accounts.turn found rfl rfl ?_
    dsimp only
    rw [held]
    simp only [refuses, found, position, Option.elim_some, reduceCtorEq, if_false, WorkerPc.msgs, pack, Transport.turn,
      ← Multiset.coe_add, Multiset.coe_nil, ← packed s.serializer msgs]
    ac_rfl
  | @failed k g msgs found position =>
    refine accounts.turn found rfl rfl ?_
    simp only [refuses, found, position, Option.elim_some, reduceCtorEq, if_false, WorkerPc.msgs, pack, Transport.turn,
      ← Multiset.coe_add, Multiset.coe_nil, ← packed s.serializer msgs]
    ac_rfl

theorem Kept.step {s t : Transport P} (kept : s.Kept) (allowed : s.lossless label = true)
    (move : Move s label t) : t.Kept := by
  have accounts := kept.accounts.move move fun writer _ _ calling _ =>
    ⟨_, List.getElem?_eq_getElem (kept.calling writer calling)⟩
  cases move with
  | @route label r free move =>
    obtain ⟨drained, dials⟩ := Bool.and_eq_true_iff.mp allowed
    refine ⟨accounts, move.sealed kept.sealed (free_misses free) drained, ?_, kept.skipped,
      (move.lost dials).trans kept.lost⟩
    intro writer calling
    exact Nat.lt_of_lt_of_le (kept.calling writer calling) move.longer
  | get found =>
    refine ⟨accounts, kept.sealed, ?_, kept.skipped, kept.lost⟩
    rintro writer ⟨⟩
    unfold Routing.lookup at found
    split at found
    · exact kept.sealed.known _ _ found
    · cases found
  | @push writer stream swpid calling position =>
    refine ⟨accounts, kept.sealed.modify rfl (fun _ _ found => found) ?_, by rintro _ ⟨⟩, kept.skipped, kept.lost⟩
    intro w found stopped
    have started : w.started = true := by simpa [lossless, calling, found] using allowed
    rw [started] at stopped
    cases stopped
  | schedule | loaded | left => exact ⟨accounts, kept.sealed, kept.calling, kept.skipped, kept.lost⟩
  | popped found present position =>
    refine ⟨accounts, kept.sealed.modify rfl (fun _ _ found => found) ?_, ?_, kept.skipped, kept.lost⟩
    · intro other found stopped
      simp [kept.sealed.empty other (List.mem_of_getElem? found) stopped]
    · intro writer calling
      simpa [Routing.modify] using kept.calling writer calling
  | @sent k g msgs found position =>
    have whole : ∀ stream ∈ msgs, s.serializer.serializes stream = true := by
      simpa [lossless, found, position, WorkerPc.msgs] using allowed
    have none : msgs.filter (!s.serializer.serializes ·) = [] := by
      simpa [List.filter_eq_nil_iff] using whole
    refine ⟨accounts, kept.sealed, kept.calling, ?_, kept.lost⟩
    rw [pack, none, kept.skipped, List.append_nil]
  | ended | failed => simp [lossless] at allowed

/-- The router waits with an empty mailbox, no writer is within `Shutdown` or about to
begin it, no worker runs and no running inbox holds messages. -/
def quiescent (s : Transport P) : Bool :=
  s.routing.mailbox.isEmpty && (s.routing.router matches .receive) &&
    s.workers.all (fun g => g.pc matches .done) &&
    s.routing.writers.all fun w => (!w.started || w.inbox.isEmpty) && !(w.phase matches .shutdown _) &&
      !(w.phase = .watched && w.closed)

theorem quiescent_held {s : Transport P} (kept : s.Kept) (quiet : s.quiescent = true) :
    s.routing.held = s.routing.deadLetters ∧ s.workers.flatMap (·.pc.msgs) = [] := by
  simp only [quiescent, Bool.and_eq_true, List.isEmpty_iff, List.all_eq_true] at quiet
  obtain ⟨⟨⟨mail, position⟩, workers⟩, writers⟩ := quiet
  have hand : s.routing.router.hand = [] := by
    split at position
    · rename_i receive
      rw [receive]
      rfl
    · cases position
  have inboxes : s.routing.writers.flatMap (·.inbox) = [] := by
    rw [List.flatMap_eq_nil_iff]
    intro w member
    cases running : w.started with
    | false => exact kept.sealed.empty w member running
    | true => simpa [running] using (writers w member).1.1
  constructor
  · simp [Routing.held, mail, hand, inboxes, kept.lost]
  · rw [List.flatMap_eq_nil_iff]
    intro g member
    have done := workers g member
    split at done
    · rename_i finished
      rw [finished]
      rfl
    · cases done

/-- In every run in which each message serializes and each `stream.Send` succeeds, no
`tls.Dial` fails, no inbox is stopped with messages in it and the router sends to no stopped
inbox, a quiescent state has every message that the router was given either sent or among
the dead letters. -/
theorem routed_sent_or_dead (engine : String) (tls : Bool) (serializer : Serializer P) (s : Transport P)
    (reached : Reaches (restrict lossless step) (initial engine tls serializer) s)
    (quiet : s.quiescent = true) : s.accepted.Perm (s.sent ++ s.routing.deadLetters) := by
  have kept : s.Kept := reached.invariant (P := Kept)
    (fun kept stepped =>
      kept.step (restrict_some stepped).1 (step_move (restrict_some stepped).2))
    (initial_kept engine tls serializer)
  obtain ⟨held, idle⟩ := quiescent_held kept quiet
  have accounts := kept.accounts
  rw [Accounts, held, idle, kept.skipped, Multiset.coe_nil, add_zero, add_zero, add_zero, Multiset.coe_add,
    Multiset.coe_eq_coe] at accounts
  exact accounts.trans List.perm_append_comm

/-- Numbers up to 255, as one byte. -/
def byteMessage : Serializer Nat where
  typeName _ := "byte"
  serialize n := if n < 256 then .ok [n.toUInt8] else .error "out of range"
  deserialize
    | [byte], _ => .ok byte.toNat
    | _, _ => .error "not a byte"

/-- One message to a remote that is reached and a second to one that is not. -/
def oneReached : List (TransportLabel Nat) :=
  (Routing.firstContact.take 6).map .route ++ [.get, .push, .schedule 0, .worker 0, .worker 0, .send 0 .ok,
    .worker 0, .worker 0, .route (.deliver ⟨none, ⟨"h:2", "b"⟩, 8, false⟩), .route .router, .route .router,
    .route .router, .route (.init .unreachable), .route (.shutdown 1), .route (.shutdown 1),
    .route (.shutdown 1), .route (.shutdown 1), .route (.shutdown 1), .route .router, .route .router,
    .route .router, .route .router]

theorem routed_sent_or_dead_reached :
    ∃ s : Transport Nat, s.quiescent = true ∧ s.sent = [Routing.parcel] ∧
      s.accepted.Perm (s.sent ++ s.routing.deadLetters) := by
  obtain ⟨s, reached, ends⟩ := exists_of_run (restrict lossless step)
    (initial "h:0" false byteMessage) oneReached (fun s : Transport Nat => s.quiescent ∧ s.sent = [Routing.parcel])
    (by decide +kernel)
  obtain ⟨quiet, sent⟩ := of_decide_eq_true ends
  exact ⟨s, quiet, sent, routed_sent_or_dead "h:0" false byteMessage s reached quiet⟩

/-- The connection is lost while the message waits in the inbox of its writer. -/
def lostInInbox : List (TransportLabel Nat) :=
  (Routing.firstContact.take 6).map .route ++ [.get, .push, .route (.lose 0), .route (.shutdown 0),
    .route (.shutdown 0), .route (.shutdown 0), .route (.shutdown 0), .route (.shutdown 0), .route .router]

/-- `Shutdown` leaves the message in the stopped inbox; it was not sent and there is no
dead letter. -/
theorem message_lost_with_writer :
    ∃ s : Transport Nat, Reaches step (initial "h:0" false byteMessage) s ∧ s.quiescent = true ∧
      s.accepted = [Routing.parcel] ∧ s.sent = [] ∧ s.routing.deadLetters = [] := by
  obtain ⟨s, reached, ends⟩ := exists_of_run step (initial "h:0" false byteMessage) lostInInbox
    (fun s : Transport Nat => s.quiescent ∧ s.accepted = [Routing.parcel] ∧ s.sent = [] ∧
      s.routing.deadLetters = []) (by decide +kernel)
  exact ⟨s, reached, of_decide_eq_true ends⟩

end Transport

end Hollywood.Remote
