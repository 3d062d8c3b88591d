import Hollywood.Remote.Transport
import Hollywood.VT.Envelope

/-! What arrives through one writer. However writers come and go and whatever is lost,
a writer gives its stream only messages for its own address, each at most once and in
the order in which the router was given them; the reader at the other end of the bytes
sends them on in that order. -/
namespace Hollywood.Remote
open Transition
variable {P : Type}

def StreamWriter.title (w : StreamWriter P) : PID × String := (w.pid, w.writeToAddr)

/-- The writer is one for the address of the message. -/
def Writes (titles : List (PID × String)) (writer : Nat) (stream : StreamDeliver P) : Prop :=
  ∃ pid, titles[writer]? = some (pid, stream.target.address)

theorem Writes.append {titles : List (PID × String)} {stream : StreamDeliver P} (writes : Writes titles writer stream)
    (new : List (PID × String)) : Writes (titles ++ new) writer stream := by
  obtain ⟨pid, found⟩ := writes
  refine ⟨pid, ?_⟩
  rw [List.getElem?_append_left (List.getElem?_eq_some_iff.mp found).1, found]

namespace Routing

def titles (s : Routing P) : List (PID × String) := s.writers.map StreamWriter.title

def inbox (s : Routing P) (writer : Nat) : List (StreamDeliver P) := s.writers[writer]?.elim [] (·.inbox)

/-- The messages that the router has not sent to a writer. -/
def waiting (s : Routing P) : List (StreamDeliver P) := s.router.hand ++ s.mailbox.flatMap RouterMsg.stream

theorem titles_modify (s : Routing P) (writer : Nat) {change : StreamWriter P → StreamWriter P}
    (same : ∀ w, (change w).title = w.title) : (s.modify writer change).titles = s.titles := by
  apply List.ext_getElem?
  intro other
  simp only [titles, modify, List.getElem?_map, List.getElem?_modify]
  cases s.writers[other]? with
  | none => rfl
  | some w =>
    simp only [Option.map_eq_map, Option.map_some]
    split
    · rw [same]
    · rfl

theorem inbox_change (s : Routing P) (writer : Nat) (change : StreamWriter P → StreamWriter P) (other : Nat) :
    (s.modify writer change).inbox other =
      s.writers[other]?.elim [] fun w => if writer = other then (change w).inbox else w.inbox := by
  simp only [inbox, modify, List.getElem?_modify]
  cases s.writers[other]? with
  | none => rfl
  | some w =>
    simp only [Option.map_eq_map, Option.map_some, Option.elim_some]
    split <;> rfl

theorem inbox_modify (s : Routing P) (writer : Nat) {change : StreamWriter P → StreamWriter P}
    (same : ∀ w, (change w).inbox = w.inbox) (other : Nat) : (s.modify writer change).inbox other = s.inbox other := by
  rw [inbox_change]
  simp only [same, ite_self, inbox]

theorem inbox_other (s : Routing P) (change : StreamWriter P → StreamWriter P) (different : writer ≠ other) :
    (s.modify writer change).inbox other = s.inbox other := by
  rw [inbox_change]
  simp only [if_neg different, inbox]

/-- What the router is about is for the writer that it has in hand. -/
def Aimed (titles : List (PID × String)) : RouterPc P → Prop
  | .receive | .panicked _ => True
  | .add stream writer | .start stream writer | .init stream writer | .shutdown stream writer
  | .store stream writer => Writes titles writer stream
  | .send stream swpid => swpid.id = "stream/" ++ stream.target.address

/-- Ids, entries and the registry lead to writers for the address that they name. -/
structure Titled (s : Routing P) : Prop where
  named : ∀ title ∈ s.titles, title.1.id = "stream/" ++ title.2
  registry : ∀ id writer, s.registry id = some writer → ∃ title, s.titles[writer]? = some title ∧ title.1.id = id
  entries : ∀ address pid, s.streams address = some pid → pid.id = "stream/" ++ address
  aimed : Aimed s.titles s.router

theorem Titled.next {s t : Routing P} (titled : s.Titled) (titles : t.titles = s.titles)
    (registry : ∀ id writer, t.registry id = some writer → s.registry id = some writer)
    (streams : ∀ address pid, t.streams address = some pid → s.streams address = some pid)
    (aimed : Aimed s.titles t.router) : t.Titled := by
  refine ⟨?_, ?_, ?_, ?_⟩
  · rw [titles]
    exact titled.named
  · intro id writer found
    rw [titles]
    exact titled.registry id writer (registry id writer found)
  · intro address pid found
    exact titled.entries address pid (streams address pid found)
  · rw [titles]
    exact aimed

/-- A step of the transport that changes no title. -/
theorem Titled.modify {s t : Routing P} (titled : s.Titled) {change : StreamWriter P → StreamWriter P}
    (writers : t.writers = s.writers.modify writer change) (same : ∀ w, (change w).title = w.title)
    (registry : t.registry = s.registry) (streams : t.streams = s.streams) (aimed : Aimed s.titles t.router) :
    t.Titled := by
  have titles : t.titles = s.titles := by
    rw [Routing.titles, writers]
    exact titles_modify s writer same
  refine titled.next titles ?_ ?_ aimed
  · rw [registry]
    exact fun _ _ found => found
  · rw [streams]
    exact fun _ _ found => found

theorem shutdown_titles (s : Routing P) (writer : Nat) (w : StreamWriter P) (pc : ShutdownPc) :
    (s.shutdown writer w pc).titles = s.titles := by
  cases pc <;> exact titles_modify s writer fun _ => rfl

theorem title_found {s : Routing P} {writer : Nat} (found : s.writers[writer]? = some w) :
    s.titles[writer]? = some w.title := by
  rw [titles, List.getElem?_map, found]
  rfl

theorem Move.titled {s t : Routing P} (titled : s.Titled) (move : Move s label t) : t.Titled := by
  have aimed := titled.aimed
  cases move with
  | deliver => exact titled.next rfl (fun _ _ found => found) (fun _ _ found => found) aimed
  | terminate position mail =>
    refine titled.next rfl (fun _ _ found => found) ?_ aimed
    intro address pid found
    simp only [handleTerminateStream, Function.update_apply] at found
    split at found
    · cases found
    · exact found
  | known position mail entry =>
    exact titled.next rfl (fun _ _ found => found) (fun _ _ found => found) (titled.entries _ _ entry)
  | @create rest stream position mail missing =>
    have titles : ({ s with
        mailbox := rest
        writers := s.writers ++ [newStreamWriter s.engine stream.target.address]
        router := .add stream s.writers.length } : Routing P).titles =
        s.titles ++ [(⟨s.engine, "stream/" ++ stream.target.address⟩, stream.target.address)] :=
      List.map_append
    refine ⟨?_, ?_, titled.entries, ?_⟩
    · intro title member
      rw [titles] at member
      cases List.mem_append.mp member with
      | inl old => exact titled.named title old
      | inr new =>
        rw [List.mem_singleton.mp new]
    · intro id writer found
      obtain ⟨title, present, same⟩ := titled.registry id writer found
      rw [titles, List.getElem?_append_left (List.getElem?_eq_some_iff.mp present).1]
      exact ⟨title, present, same⟩
    · rw [titles]
      refine ⟨⟨s.engine, "stream/" ++ stream.target.address⟩, ?_⟩
      simp [Routing.titles]
  | @add stream writer w position found missing =>
    rw [position] at aimed
    refine ⟨titled.named, ?_, titled.entries, aimed⟩
    intro id other entry
    dsimp only at entry
    rw [Function.update_apply] at entry
    split at entry
    · rename_i same
      cases entry
      exact ⟨w.title, title_found found, same.symm⟩
    · exact titled.registry id other entry
  | @store stream writer w position found =>
    rw [position] at aimed
    obtain ⟨pid, here⟩ := aimed
    obtain ⟨rfl, -⟩ : pid = w.pid ∧ stream.target.address = w.writeToAddr :=
      Prod.mk.inj (Option.some.inj (here.symm.trans (title_found found)))
    have id := titled.named _ (List.mem_of_getElem? here)
    refine ⟨titled.named, titled.registry, ?_, id⟩
    intro address other entry
    simp only [Function.update_apply] at entry
    split at entry
    · rename_i same
      cases entry
      rw [same]
      exact id
    · exact titled.entries address other entry
  | send => exact titled.modify rfl (fun _ => rfl) rfl rfl trivial
  | deadLetter | crash => exact titled.next rfl (fun _ _ found => found) (fun _ _ found => found) trivial
  | restart => exact titled.next rfl (fun _ _ found => found) (by rintro _ _ ⟨⟩) trivial
  | duplicate position | stopped position | deadline position =>
    rw [position] at aimed
    exact titled.next rfl (fun _ _ found => found) (fun _ _ found => found) aimed
  | start position | fail position | connect position =>
    rw [position] at aimed
    exact titled.modify rfl (fun _ => rfl) rfl rfl aimed
  | lose | closed => exact titled.modify rfl (fun _ => rfl) rfl rfl aimed
  | @shutdown writer w pc found phase =>
    refine titled.next (shutdown_titles s writer w pc) ?_ ?_ ?_
    · intro id other entry
      cases pc with
      | remove =>
        dsimp only [Routing.shutdown] at entry
        rw [Function.update_apply] at entry
        split at entry
        · cases entry
        · exact entry
      | notify | broadcast | closeStream | stopInbox => exact entry
    · intro address pid entry
      cases pc <;> exact entry
    · cases pc <;> exact aimed

theorem Move.titles {s t : Routing P} (move : Move s label t) : ∃ new, t.titles = s.titles ++ new := by
  have same : t.titles = s.titles → ∃ new, t.titles = s.titles ++ new := fun same => ⟨[], by rw [same, List.append_nil]⟩
  cases move with
  | create => exact ⟨_, List.map_append⟩
  | start | send | fail | connect | lose | closed => exact same (titles_modify s _ fun _ => rfl)
  | shutdown => exact same (shutdown_titles s _ _ _)
  | _ => exact same rfl

/-- Only the router's own steps begin or end one of its calls of `Send`. -/
theorem Move.sending_iff {s t : Routing P} (move : Move s label t) (other : label ≠ .router) :
    t.router = .send stream swpid ↔ s.router = .send stream swpid := by
  cases move with
  | deliver | lose | closed => exact Iff.rfl
  | crash before | restart before | fail before | deadline before | connect before =>
    rw [before]
    exact ⟨nofun, nofun⟩
  | @shutdown writer w pc => cases pc <;> exact Iff.rfl
  | _ => exact absurd rfl other

/-- No message is put ahead of another on its way to the router's hand. -/
theorem Move.flow {s t : Routing P} (move : Move s label t) (misses : label = .router → s.lookup = none) :
    (∀ writer, t.inbox writer = s.inbox writer) ∧ t.waiting.Sublist (s.waiting ++ label.accepted) := by
  cases move with
  | deliver stream =>
    refine ⟨fun _ => rfl, ?_⟩
    simp [waiting, RouterMsg.stream, RoutingLabel.accepted]
  | terminate position mail =>
    refine ⟨fun _ => rfl, ?_⟩
    simp [waiting, handleTerminateStream, mail, RouterMsg.stream, RoutingLabel.accepted]
  | known position mail entry =>
    refine ⟨fun _ => rfl, ?_⟩
    simp [waiting, position, mail, RouterMsg.stream, RouterPc.hand, RoutingLabel.accepted]
  | @create rest stream position mail missing =>
    refine ⟨?_, ?_⟩
    · intro writer
      simp only [inbox]
      rcases Nat.lt_trichotomy writer s.writers.length with inside | rfl | outside
      · rw [List.getElem?_append_left inside]
      · simp [newStreamWriter]
      · rw [List.getElem?_eq_none (Nat.le_of_lt outside), List.getElem?_eq_none]
        rw [List.length_append]
        exact outside
    · simp [waiting, position, mail, RouterMsg.stream, RouterPc.hand, RoutingLabel.accepted]
  | duplicate position | add position | stopped position | store position | crash position
  | deadline position =>
    refine ⟨fun _ => rfl, ?_⟩
    simp [waiting, position, RouterPc.hand, RoutingLabel.accepted]
  | deadLetter position | restart position =>
    refine ⟨fun _ => rfl, ?_⟩
    simp [waiting, position, RouterPc.hand, RoutingLabel.accepted]
  | start position | fail position | connect position =>
    refine ⟨inbox_modify s _ fun _ => rfl, ?_⟩
    simp [waiting, modify, position, RouterPc.hand, RoutingLabel.accepted]
  | send position found => cases (lookup_send position found).symm.trans (misses rfl)
  | lose | closed =>
    refine ⟨inbox_modify s _ fun _ => rfl, ?_⟩
    simp [waiting, modify, RoutingLabel.accepted]
  | @shutdown writer w pc found phase =>
    refine ⟨?_, ?_⟩
    · cases pc <;> exact inbox_modify s writer fun _ => rfl
    · cases pc <;> simp [waiting, Routing.shutdown, modify, RouterMsg.stream, RoutingLabel.accepted]

end Routing

/-- A batch that a writer has handed to its stream, and what `stream.Send` returned. -/
structure Offer (P : Type) where
  writer : Nat
  result : SendResult
  msgs : List (StreamDeliver P)
  deriving DecidableEq, Repr

/-- A transport, and the batches that were handed to the streams of its writers so far. -/
structure Ledger (P : Type) where
  transport : Transport P
  offers : List (Offer P)

def Transport.offer (s : Transport P) : TransportLabel P → List (Offer P)
  | .send k result => s.workers[k]?.elim [] fun g => [⟨g.writer, result, g.pc.msgs⟩]
  | _ => []

namespace Ledger

def initial (engine : String) (tls : Bool) (serializer : Serializer P) : Ledger P :=
  ⟨.initial engine tls serializer, []⟩

def step (s : Ledger P) (label : TransportLabel P) : Option (Ledger P) :=
  (s.transport.step label).map fun t => ⟨t, s.offers ++ s.transport.offer label⟩

/-- The batches that went out through one writer. -/
def batches (s : Ledger P) (writer : Nat) : List (List (StreamDeliver P)) :=
  s.offers.flatMap fun offer => if offer.writer = writer ∧ offer.result = .ok then [offer.msgs] else []

/-- The batch in the hands of the writer's worker. -/
def inHand (workers : List (Worker P)) (writer : Nat) : List (StreamDeliver P) :=
  workers.flatMap fun g => if g.writer = writer then g.pc.msgs else []

/-- All that has come as far as the writer and was not lost. -/
def reached (s : Ledger P) (writer : Nat) : List (StreamDeliver P) :=
  (s.batches writer).flatten ++ inHand s.transport.workers writer ++ s.transport.routing.inbox writer

/-- A writer's inbox has one worker at a time. -/
def Single (s : Ledger P) : Prop :=
  ∀ writer, s.transport.workers.countP (fun g => decide (g.writer = writer) && g.running) ≤ 1

/-- A worker is made for an inbox that is running, has messages and has no worker. -/
theorem schedule_free {s t : Transport P} (stepped : s.step (.schedule writer) = some t) :
    (∃ w, s.routing.writers[writer]? = some w ∧ w.started = true ∧ w.inbox ≠ []) ∧ s.busy writer = false := by
  simp only [Transport.step, Option.bind_eq_bind, Option.bind_eq_some_iff, Option.pure_def] at stepped
  obtain ⟨w, found, scheduled⟩ := stepped
  split at scheduled
  · rename_i free
    simp only [Bool.and_eq_true, Bool.not_eq_true', List.isEmpty_eq_false_iff] at free
    exact ⟨⟨w, found, free.1.1, free.1.2⟩, free.2⟩
  · cases scheduled

theorem Single.turn {s t : Ledger P} (single : s.Single) (found : s.transport.workers[k]? = some g)
    (workers : t.transport.workers = s.transport.workers.set k { g with pc := pc })
    (still : Worker.running { g with pc := pc } = true → g.running = true) : t.Single := by
  intro writer
  have count := Pool.countP_set (fun g => decide (g.writer = writer) && g.running) found { g with pc := pc }
  have few := single writer
  rw [workers]
  by_cases running : g.running = true
  · by_cases same : g.writer = writer
    · subst same
      simp only [running, decide_true, Bool.true_and, if_true] at count
      split at count <;> omega
    · simp only [same, decide_false, Bool.false_and] at count
      omega
  · have stopped := Bool.eq_false_of_not_eq_true fun going => running (still going)
    simp only [stopped, Bool.and_false, Bool.false_eq_true, if_false] at count
    omega

theorem single_step {s t : Ledger P} (single : s.Single) (stepped : s.step label = some t) : t.Single := by
  obtain ⟨_, moved, rfl⟩ := Option.map_eq_some_iff.mp stepped
  cases Transport.step_move moved with
  | route | get | push => exact single
  | @schedule writer =>
    intro other
    obtain ⟨-, free⟩ := schedule_free moved
    have few := single other
    rw [List.countP_append, List.countP_singleton]
    by_cases same : writer = other
    · subst same
      have none : s.transport.workers.countP (fun g => decide (g.writer = writer) && g.running) = 0 := by
        rw [List.countP_eq_zero]
        exact List.any_eq_false.mp free
      rw [none]
      split <;> omega
    · simp only [same, decide_false, Bool.false_and]
      exact few
  | loaded found position => exact single.turn found rfl fun _ => by rw [Worker.running, position]
  | left found idle => exact single.turn found rfl nofun
  | popped found present position => exact single.turn found rfl fun _ => by rw [Worker.running, position]
  | sent found position | ended found position | failed found position =>
    exact single.turn found rfl fun _ => by rw [Worker.running, position]

/-- What the worker that moves has in hand is all that is in the hands of its writer. -/
theorem inHand_turn {s : Ledger P} (single : s.Single) (found : s.transport.workers[k]? = some g)
    (running : g.running = true) (pc : WorkerPc P) (writer : Nat) :
    (g.writer = writer ∧ inHand s.transport.workers writer = g.pc.msgs ∧
        inHand (s.transport.workers.set k { g with pc := pc }) writer = pc.msgs) ∨
      (g.writer ≠ writer ∧
        inHand (s.transport.workers.set k { g with pc := pc }) writer = inHand s.transport.workers writer) := by
  by_cases same : g.writer = writer
  · refine .inl ⟨same, ?_⟩
    have alone := Pool.flatMap_exclusive (fun g : Worker P => if g.writer = writer then g.pc.msgs else [])
      (fun g => decide (g.writer = writer) && g.running) found (by simp [same, running]) (single writer)
    obtain ⟨before, after⟩ := alone fun h stopped => by
      obtain ⟨owner, pc⟩ := h
      cases pc with
      | done => exact ite_self _
      | load | popN | invoke =>
        rw [if_neg]
        simpa [Worker.running] using stopped
    rw [inHand, inHand, before, ← List.append_nil (List.set _ _ _), after]
    simp [same]
  · refine .inr ⟨same, ?_⟩
    rw [inHand, ← List.append_nil (List.set _ _ _)]
    exact Pool.flatMap_step _ found _ [] (by simp [same]) rfl

/-- A worker that drops its batch leaves no more in the hands of any writer. -/
theorem inHand_dropped {s : Ledger P} (single : s.Single) (found : s.transport.workers[k]? = some g)
    (running : g.running = true) (writer : Nat) :
    (inHand (s.transport.workers.set k { g with pc := .load }) writer).Sublist
      (inHand s.transport.workers writer) := by
  rcases inHand_turn single found running .load writer with ⟨-, -, after⟩ | ⟨-, kept⟩
  · rw [after]
    exact List.nil_sublist _
  · rw [kept]

theorem inHand_same {workers : List (Worker P)} (found : workers[k]? = some g) {pc : WorkerPc P}
    (same : pc.msgs = g.pc.msgs) (writer : Nat) :
    inHand (workers.set k { g with pc := pc }) writer = inHand workers writer := by
  rw [inHand, ← List.append_nil (List.set _ _ _)]
  exact Pool.flatMap_step _ found _ [] (by simp [same]) rfl

/-- The router's `Send` has looked up a writer for the address of its message. -/
structure Directed (s : Transport P) : Prop where
  titled : s.routing.Titled
  called : ∀ writer, s.calling = some writer → ∀ stream swpid, s.routing.router = .send stream swpid →
    Writes s.routing.titles writer stream

theorem Writes.mono {s t : Routing P} {stream : StreamDeliver P} (move : s.Move label t)
    (writes : Writes s.titles writer stream) : Writes t.titles writer stream := by
  obtain ⟨new, titles⟩ := move.titles
  rw [titles]
  exact writes.append new

theorem Directed.modify {s t : Transport P} (directed : Directed s) {change : StreamWriter P → StreamWriter P}
    (routing : t.routing = s.routing.modify writer change) (same : ∀ w, (change w).title = w.title)
    (calling : t.calling = s.calling) : Directed t := by
  have titles := Routing.titles_modify s.routing writer same
  refine ⟨?_, ?_⟩
  · rw [routing]
    exact directed.titled.modify rfl same rfl rfl directed.titled.aimed
  · rw [routing, calling, titles]
    exact directed.called

theorem directed_move {s t : Transport P} (directed : Directed s) (move : s.Move label t) : Directed t := by
  obtain ⟨titled, called⟩ := directed
  cases move with
  | @route label r free move =>
    refine ⟨move.titled titled, ?_⟩
    intro writer calling stream swpid position
    -- within `Send` the router makes no other step
    have other : label ≠ .router := by
      rintro rfl
      rw [Transport.free, calling, Option.isNone_some, Bool.and_false] at free
      cases free
    exact Writes.mono move (called writer calling stream swpid ((move.sending_iff other).mp position))
  | @get writer found =>
    refine ⟨titled, ?_⟩
    rintro writer ⟨⟩ stream swpid position
    have aimed := titled.aimed
    rw [position] at aimed
    rw [Routing.lookup, position] at found
    obtain ⟨⟨pid, address⟩, present, id⟩ := titled.registry _ _ found
    have named : pid.id = "stream/" ++ address := titled.named _ (List.mem_of_getElem? present)
    have same : "stream/" ++ address = "stream/" ++ stream.target.address := named.symm.trans (id.trans aimed)
    refine ⟨pid, ?_⟩
    rw [present, (String.append_right_inj "stream/").mp same]
  | push calling position =>
    exact ⟨titled.modify rfl (fun _ => rfl) rfl rfl trivial, by rintro _ ⟨⟩⟩
  | popped | ended => exact Directed.modify ⟨titled, called⟩ rfl (fun _ => rfl) rfl
  | schedule | loaded | left | sent | failed => exact ⟨titled, called⟩

theorem titles_move {s t : Transport P} (move : s.Move label t) :
    ∃ new, t.routing.titles = s.routing.titles ++ new := by
  cases move with
  | route free move => exact move.titles
  | push | popped | ended =>
    exact ⟨[], by rw [List.append_nil]; exact Routing.titles_modify s.routing _ fun _ => rfl⟩
  | get | schedule | loaded | left | sent | failed => exact ⟨[], (List.append_nil _).symm⟩

theorem batches_quiet (s : Ledger P) (t : Transport P) (writer : Nat) :
    batches ⟨t, s.offers ++ []⟩ writer = s.batches writer := by
  rw [batches, List.append_nil, batches]

theorem reached_le {s t : Ledger P} (kept : t.batches writer = s.batches writer)
    (fewer : (inHand t.transport.workers writer ++ t.transport.routing.inbox writer).Sublist
      (inHand s.transport.workers writer ++ s.transport.routing.inbox writer)) :
    (t.reached writer).Sublist (s.reached writer) := by
  rw [reached, reached, kept, List.append_assoc, List.append_assoc]
  exact fewer.append_left _

theorem reached_same {s t : Ledger P} (kept : t.batches writer = s.batches writer)
    (same : inHand t.transport.workers writer ++ t.transport.routing.inbox writer =
      inHand s.transport.workers writer ++ s.transport.routing.inbox writer) :
    (t.reached writer).Sublist (s.reached writer) := reached_le kept (by rw [same])

/-- A step passes messages on to a writer only from the front of those that wait, and only
messages for its address. -/
theorem flow {s t : Ledger P} (single : s.Single) (directed : Directed s.transport)
    (stepped : s.step label = some t) (writer : Nat) :
    ∃ moved new, t.transport.accepted = s.transport.accepted ++ new ∧
      (t.reached writer).Sublist (s.reached writer ++ moved) ∧
      (moved ++ t.transport.routing.waiting).Sublist (s.transport.routing.waiting ++ new) ∧
      ∀ stream ∈ moved, Writes s.transport.routing.titles writer stream := by
  obtain ⟨t, moved, rfl⟩ := Option.map_eq_some_iff.mp stepped
  have stays : ∀ {t : Ledger P}, t.transport.accepted = s.transport.accepted →
      t.transport.routing.waiting = s.transport.routing.waiting → (t.reached writer).Sublist (s.reached writer) →
      ∃ moved new, t.transport.accepted = s.transport.accepted ++ new ∧
        (t.reached writer).Sublist (s.reached writer ++ moved) ∧
        (moved ++ t.transport.routing.waiting).Sublist (s.transport.routing.waiting ++ new) ∧
        ∀ stream ∈ moved, Writes s.transport.routing.titles writer stream := by
    intro t accepted waiting fewer
    refine ⟨[], [], ?_, ?_, ?_, nofun⟩
    · rw [accepted, List.append_nil]
    · rw [List.append_nil]
      exact fewer
    · rw [List.nil_append, List.append_nil, waiting]
  cases Transport.step_move moved with
  | @route label r free move =>
    obtain ⟨inbox, waiting⟩ := move.flow (Transport.free_misses free)
    refine ⟨[], label.accepted, rfl, ?_, waiting, nofun⟩
    rw [List.append_nil]
    refine reached_le (batches_quiet s _ writer) ?_
    rw [inbox writer]
  | get => exact stays rfl rfl (reached_le (batches_quiet s _ writer) (List.Sublist.refl _))
  | schedule =>
    refine stays rfl rfl (reached_le (batches_quiet s _ writer) ?_)
    simp [inHand, WorkerPc.msgs]
  | @push called stream swpid calling position =>
    by_cases same : called = writer
    · subst same
      refine ⟨[stream], [], (List.append_nil _).symm, ?_, ?_, ?_⟩
      · have pushed : ((s.transport.push called stream).routing.inbox called).Sublist
            (s.transport.routing.inbox called ++ [stream]) := by
          have changed : (s.transport.push called stream).routing.inbox called = _ :=
            Routing.inbox_change s.transport.routing called _ called
          rw [changed, Routing.inbox]
          cases s.transport.routing.writers[called]? with
          | none => exact List.nil_sublist _
          | some w => simp
        rw [reached, reached, List.append_assoc _ (s.transport.routing.inbox called)]
        simp only [batches, Transport.offer, List.append_nil]
        exact pushed.append_left _
      · simp [Routing.waiting, Transport.push, Routing.modify, position, RouterPc.hand]
      · intro other member
        rw [List.mem_singleton.mp member]
        exact directed.called called calling stream swpid position
    · refine ⟨[], [], (List.append_nil _).symm, ?_, ?_, nofun⟩
      · rw [List.append_nil]
        refine reached_same (batches_quiet s _ writer) ?_
        exact congrArg (inHand s.transport.workers writer ++ ·) (Routing.inbox_other s.transport.routing _ same)
      · simp [Routing.waiting, Transport.push, Routing.modify, position, RouterPc.hand]
  | loaded found position =>
    refine stays rfl rfl (reached_same (batches_quiet s _ writer) ?_)
    exact congrArg (· ++ s.transport.routing.inbox writer) (inHand_same found (by rw [position]; rfl) writer)
  | left found idle =>
    refine stays rfl rfl (reached_same (batches_quiet s _ writer) ?_)
    exact congrArg (· ++ s.transport.routing.inbox writer) (inHand_same found (by rw [idle]; rfl) writer)
  | @popped k g w found present position =>
    refine stays rfl rfl (reached_same (batches_quiet s _ writer) ?_)
    have running : g.running = true := by rw [Worker.running, position]
    rcases inHand_turn single found running (.invoke (w.inbox.take messageBatchSize)) writer with
      ⟨rfl, before, after⟩ | ⟨different, kept⟩
    · rw [before, position]
      refine (congrArg₂ (· ++ ·) after (Routing.inbox_change s.transport.routing _ _ _)).trans ?_
      simp [Routing.inbox, present, WorkerPc.msgs]
    · exact congrArg₂ (· ++ ·) kept (Routing.inbox_other s.transport.routing _ different)
  | @sent k g msgs found position =>
    refine stays rfl rfl ?_
    have running : g.running = true := by rw [Worker.running, position]
    have offer : s.transport.offer (.send k .ok) = [⟨g.writer, .ok, msgs⟩] := by
      rw [Transport.offer, found, Option.elim_some, position]
      rfl
    simp only [reached, batches, offer, List.flatMap_append, List.flatMap_singleton, and_true]
    rcases inHand_turn single found running .load writer with ⟨rfl, before, after⟩ | ⟨different, kept⟩
    · rw [before, position]
      simp only [Transport.pack, Transport.turn, after]
      simp [WorkerPc.msgs]
    · simp only [Transport.pack, Transport.turn, kept, if_neg different, List.append_nil]
      exact List.Sublist.refl _
  | @ended k g msgs found position =>
    refine stays rfl rfl (reached_le ?_ ?_)
    · simp [batches, Transport.offer, found]
    · have inbox : (s.transport.routing.modify g.writer fun w => { w with closed := true }).inbox writer =
          s.transport.routing.inbox writer := by
        apply Routing.inbox_modify
        exact fun _ => rfl
      dsimp only [Transport.pack, Transport.turn]
      rw [inbox]
      exact (inHand_dropped single found (by rw [Worker.running, position]) writer).append_right _
  | @failed k g msgs found position =>
    refine stays rfl rfl (reached_le ?_ ?_)
    · simp [batches, Transport.offer, found]
    · exact (inHand_dropped single found (by rw [Worker.running, position]) writer).append_right _

structure InOrder (s : Ledger P) : Prop where
  single : s.Single
  directed : Directed s.transport
  queued : ∀ writer, (s.reached writer ++ s.transport.routing.waiting).Sublist s.transport.accepted
  addressed : ∀ writer, ∀ stream ∈ s.reached writer, Writes s.transport.routing.titles writer stream
  small : ∀ g ∈ s.transport.workers, g.pc.msgs.length ≤ messageBatchSize
  bounded : ∀ offer ∈ s.offers, offer.msgs.length ≤ messageBatchSize

theorem initial_inOrder (engine : String) (tls : Bool) (serializer : Serializer P) :
    (initial engine tls serializer).InOrder := by
  refine ⟨?_, ⟨⟨?_, ?_, ?_, trivial⟩, ?_⟩, ?_, ?_, ?_, ?_⟩
  · intro writer
    exact Nat.zero_le 1
  · rintro title ⟨⟩
  · rintro id writer ⟨⟩
  · rintro address pid ⟨⟩
  · rintro writer ⟨⟩
  · intro writer
    exact List.Sublist.refl _
  · rintro writer stream ⟨⟩
  · rintro g ⟨⟩
  · rintro offer ⟨⟩

theorem small_move {s t : Transport P} (small : ∀ g ∈ s.workers, g.pc.msgs.length ≤ messageBatchSize)
    (move : s.Move label t) : ∀ g ∈ t.workers, g.pc.msgs.length ≤ messageBatchSize := by
  have turned : ∀ {k : Nat} {g : Worker P} {pc : WorkerPc P}, pc.msgs.length ≤ messageBatchSize →
      ∀ h ∈ s.workers.set k { g with pc := pc }, h.pc.msgs.length ≤ messageBatchSize := by
    intro k g pc short h member
    rcases List.mem_or_eq_of_mem_set member with old | rfl
    · exact small h old
    · exact short
  cases move with
  | route | get | push => exact small
  | schedule =>
    intro g member
    rcases List.mem_append.mp member with old | new
    · exact small g old
    · rw [List.mem_singleton.mp new]
      exact Nat.zero_le _
  | loaded | left | sent | ended | failed => exact turned (Nat.zero_le _)
  | popped => exact turned (List.length_take_le _ _)

theorem InOrder.step {s t : Ledger P} (ordered : s.InOrder) (stepped : s.step label = some t) : t.InOrder := by
  obtain ⟨next, moved, rfl⟩ := Option.map_eq_some_iff.mp stepped
  have move := Transport.step_move moved
  refine ⟨single_step ordered.single stepped, directed_move ordered.directed move, ?_, ?_,
    small_move ordered.small move, ?_⟩
  · intro writer
    obtain ⟨moved, new, accepted, reached, waiting, -⟩ := flow ordered.single ordered.directed stepped writer
    rw [accepted]
    have first := reached.append_right next.routing.waiting
    have second := waiting.append_left (s.reached writer)
    have third := (ordered.queued writer).append_right new
    simp only [← List.append_assoc] at second
    exact first.trans (second.trans third)
  · intro writer stream member
    obtain ⟨moved, new, -, reached, -, aimed⟩ := flow ordered.single ordered.directed stepped writer
    obtain ⟨more, titles⟩ := titles_move move
    dsimp only
    rw [titles]
    refine Writes.append ?_ more
    rcases List.mem_append.mp (reached.subset member) with old | passed
    · exact ordered.addressed writer stream old
    · exact aimed stream passed
  · intro offer member
    rcases List.mem_append.mp member with old | new
    · exact ordered.bounded offer old
    · unfold Transport.offer at new
      split at new
      · rename_i k result
        cases found : s.transport.workers[k]? with
        | none =>
          rw [found] at new
          cases new
        | some g =>
          rw [found] at new
          rw [List.mem_singleton.mp new]
          exact ordered.small g (List.mem_of_getElem? found)
      · cases new

/-- The messages for an address that the router was given. -/
def accepted (s : Ledger P) (address : String) : List (StreamDeliver P) :=
  s.transport.accepted.filter (·.target.address = address)

/-- The messages of the batches that went out through a writer are some of those that the router was
given for its address, in their order. -/
theorem InOrder.batches_sublist {s : Ledger P} (ordered : s.InOrder) {writer : Nat}
    (found : s.transport.routing.writers[writer]? = some w) :
    (s.batches writer).flatten.Sublist (s.accepted w.writeToAddr) := by
  have mine : ∀ stream ∈ (s.batches writer).flatten, stream.target.address = w.writeToAddr := by
    intro stream member
    obtain ⟨pid, title⟩ := ordered.addressed writer stream
      (List.mem_append_left _ (List.mem_append_left _ member))
    exact congrArg Prod.snd (Option.some.inj (title.symm.trans (Routing.title_found found)))
  have whole : (s.batches writer).flatten.filter (·.target.address = w.writeToAddr) = (s.batches writer).flatten :=
    List.filter_eq_self.mpr fun stream member => decide_eq_true (mine stream member)
  rw [← whole]
  refine List.Sublist.filter _ (List.Sublist.trans ?_ (ordered.queued writer))
  simp only [reached, List.append_assoc]
  exact List.sublist_append_left _ _

/-- Through any one writer, however writers come and go and whatever is lost, the reader at the
other end of the bytes makes a local send for every message that the stream has taken, and
these are some of the messages that the router was given for the address of the writer, in
the order in which it was given them. -/
theorem writer_delivers_in_order (hash : List UInt8 → UInt64) (serializer : Serializer P) (engine : String)
    (tls : Bool) (s : Ledger P) (reached : Reaches step (initial engine tls serializer) s) (writer : Nat) (w : StreamWriter P)
    (found : s.transport.routing.writers[writer]? = some w)
    (lossless : serializer.Lossless (s.accepted w.writeToAddr))
    (distinct : CollisionFree hash ((s.accepted w.writeToAddr).map (·.target)))
    (fits : ∀ batch ∈ s.batches writer,
      VT.Envelope.type.sizeVT (.of (invoke hash serializer batch)) < VT.intLimit) :
    ∃ envelopes sends,
      (s.batches writer).mapM (fun batch => VT.wire.unmarshal (VT.wire.marshal (invoke hash serializer batch))) =
        some envelopes ∧
      receive serializer envelopes = (sends, none) ∧
      sends.map (fun send => (send.target, send.payload, send.priority)) =
        (s.batches writer).flatten.map (fun stream => (stream.target, stream.msg, stream.priority)) ∧
      (sends.map fun send => (send.target, send.payload, send.priority)).Sublist
        ((s.accepted w.writeToAddr).map fun stream => (stream.target, stream.msg, stream.priority)) := by
  have ordered : s.InOrder := reached.invariant InOrder.step (initial_inOrder engine tls serializer)
  have ours := ordered.batches_sublist found
  have member : ∀ batch ∈ s.batches writer, ∀ stream ∈ batch, stream ∈ s.accepted w.writeToAddr :=
    fun batch among stream inside => ours.subset (List.mem_flatten.mpr ⟨batch, among, inside⟩)
  have short : ∀ batch ∈ s.batches writer, batch.length ≤ 2 ^ 31 := by
    intro batch among
    obtain ⟨offer, made, held⟩ := List.mem_flatMap.mp among
    have bound := ordered.bounded offer made
    split at held
    · rw [List.mem_singleton.mp held]
      exact Nat.le_trans bound (by decide)
    · cases held
  obtain ⟨envelopes, sends, arrived, received, same⟩ := VT.stream_survives_bytes hash serializer w.writeToAddr
    (s.batches writer)
    (fun batch among stream inside => of_decide_eq_true (List.mem_filter.mp (member batch among stream inside)).2)
    (fun batch among stream inside => lossless stream (member batch among stream inside))
    (fun batch among p inside q within => distinct p (List.map_subset _ (member batch among) inside) q
      (List.map_subset _ (member batch among) within))
    (fun batch among => ⟨short batch among, fits batch among⟩)
  refine ⟨envelopes, sends, arrived, received, same, ?_⟩
  rw [same]
  exact ours.map _

/-- Three messages in a row, of which the stream does not take the second. -/
def oneDropped : List (TransportLabel (List UInt8)) :=
  (twoTargets.zip [.ok, .failed, .ok]).zipIdx.flatMap fun ((stream, result), turn) =>
    .route (.deliver stream) :: (if turn = 0 then
      [.route .router, .route .router, .route .router, .route (.init .connected), .route .router, .get, .push, .schedule 0]
    else [.route .router, .get, .push]) ++ [.worker 0, .worker 0, .send 0 result]

theorem writer_delivers_others :
    ∃ (s : Ledger (List UInt8)) (envelopes : List Envelope) (sends : List (LocalSend (List UInt8))),
      s.transport.accepted = twoTargets ∧
      (s.batches 0).mapM (fun batch => VT.wire.unmarshal (VT.wire.marshal (invoke polynomial testMessage batch))) =
        some envelopes ∧
      receive testMessage envelopes = (sends, none) ∧
      sends.map (fun send => (send.target, send.payload, send.priority)) =
        [(⟨"h:1", "a"⟩, [102], false), (⟨"h:1", "a"⟩, [], false)] := by
  obtain ⟨s, reached, ends⟩ := exists_of_run step (initial "h:0" false testMessage) oneDropped
    (fun s : Ledger (List UInt8) => s.transport.accepted = twoTargets ∧
      s.transport.routing.writers.map (·.writeToAddr) = ["h:1"] ∧
      s.batches 0 = [[⟨none, ⟨"h:1", "a"⟩, [102], false⟩], [⟨some ⟨"h:2", "c"⟩, ⟨"h:1", "a"⟩, [], false⟩]])
    (by decide +kernel)
  obtain ⟨accepted, writers, batches⟩ := of_decide_eq_true ends
  obtain ⟨w, found, address⟩ : ∃ w, s.transport.routing.writers[0]? = some w ∧ w.writeToAddr = "h:1" := by
    have title : (s.transport.routing.writers.map (·.writeToAddr))[0]? = some "h:1" := by rw [writers]; rfl
    rw [List.getElem?_map, Option.map_eq_some_iff] at title
    exact title
  have ours : s.accepted w.writeToAddr = twoTargets := by
    rw [Ledger.accepted, accepted, address]
    decide +kernel
  obtain ⟨envelopes, sends, arrived, received, same, -⟩ :=
    writer_delivers_in_order polynomial testMessage "h:0" false s reached 0 w found
      (by
        rw [ours]
        intro stream member
        refine ⟨_, rfl, ?_⟩
        simp only [twoTargets, List.mem_cons, List.not_mem_nil, or_false] at member
        rcases member with rfl | rfl | rfl <;> decide)
      (by rw [ours]; decide +kernel) (by rw [batches]; decide +kernel)
  rw [batches] at same
  exact ⟨s, envelopes, sends, accepted, arrived, received, same⟩

end Ledger
end Hollywood.Remote
