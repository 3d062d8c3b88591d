import Hollywood.Cluster.Uniqueness

/-! Agreement on active actors. `addActivated` keeps the first PID it hears of under
an id and `removeActivated` goes by the id alone, so what an agent ends up with
depends on the order in which changes reach it. The changes on their way to an agent
are taken in the order of their stages; where only equal changes can overtake each
other, every agent is headed for the same entry. -/
namespace Hollywood.Cluster
open Transition

/-- A change of an agent's entry for one id. -/
inductive Change where
  | add (pid : PID)
  | remove
  deriving DecidableEq

namespace Change

def apply (entry : Option PID) : Change → Option PID
  | .add pid => entry.or (some pid)
  | .remove => none

theorem apply_again (entry : Option PID) (change : Change) :
    (change.apply entry |> change.apply) = change.apply entry := by
  cases change with
  | add pid => cases entry <;> rfl
  | remove => rfl

/-- The same change made several times. -/
theorem foldl_same {changes : List Change} (same : ∀ made ∈ changes, made = change)
    (present : changes ≠ []) : changes.foldl apply entry = change.apply entry := by
  induction changes generalizing entry with
  | nil => exact absurd rfl present
  | cons made rest ih =>
    obtain rfl := same made List.mem_cons_self
    by_cases last : rest = []
    · rw [last]
      rfl
    · rw [List.foldl_cons, ih (fun other member => same other (List.mem_cons_of_mem _ member)) last,
        apply_again]

/-- Lists of equal changes can be exchanged. -/
theorem append_comm_of_same {l m : List Change} (same : ∀ a ∈ l, ∀ b ∈ m, a = b) : l ++ m = m ++ l := by
  induction l with
  | nil => rw [List.append_nil, List.nil_append]
  | cons a rest ih =>
    have moved : ∀ m : List Change, (∀ b ∈ m, a = b) → a :: m = m ++ [a] := by
      intro m
      induction m with
      | nil => exact fun _ => rfl
      | cons b rest ih =>
        intro same
        obtain rfl := same b List.mem_cons_self
        rw [List.cons_append, ← ih fun c member => same c (List.mem_cons_of_mem _ member)]
    rw [List.cons_append, ih fun c member => same c (List.mem_cons_of_mem _ member), ← List.cons_append,
      moved m (same a List.mem_cons_self), List.append_assoc, List.singleton_append]

end Change

/-- The changes that an agent makes to its entry for an id when it handles a message. -/
def Message.changes (x : String) : Message → List Change
  | .activation (some actor) => if actor.id = x then [.add actor] else []
  | .deactivation (some actor) => if actor.id = x then [.remove] else []
  | .actorTopology actors => actors.filterMap fun actor =>
      actor.bind fun actor => if actor.id = x then some (.add actor) else none
  | _ => []

theorem Agent.addActivated_get? (a : Agent) (pid : PID) (x : String) :
    (a.addActivated pid).activated.get? x =
      if pid.id = x then Change.apply (a.activated.get? x) (.add pid) else a.activated.get? x :=
  Keyed.get?_add pid x

theorem Agent.handleActorTopology_get? {a b : Agent} (handled : a.handleActorTopology actors = some b) :
    b.activated.get? x =
      ((Message.actorTopology actors).changes x).foldl Change.apply (a.activated.get? x) := by
  induction actors generalizing a with
  | nil =>
    cases handled
    rfl
  | cons pid rest ih =>
    obtain ⟨next, entered, handled⟩ := Option.bind_eq_some_iff.mp handled
    obtain ⟨pid, rfl, rfl⟩ := Option.map_eq_some_iff.mp entered
    rw [ih handled, addActivated_get?]
    by_cases named : pid.id = x
    · simp [Message.changes, named]
    · simp [Message.changes, named]

/-- Nobody leaves: the map is as it was. -/
theorem Agent.handleMembers_activated {a : Agent} {members : List Member} (stay : a.left members = []) :
    (a.handleMembers members).1.activated = a.activated := by
  have join (b : Agent) (member : Member) (same : b.activated = a.activated) :
      (b.memberJoin member).1.activated = a.activated := same
  rw [handleMembers, stay]
  exact forEach_keeps join _ rfl

theorem Agent.actorInfos_changes {a : Agent} (made : change ∈ (Message.actorTopology a.actorInfos).changes x) :
    ∃ pid, a.activated.get? x = some pid ∧ change = .add pid := by
  obtain ⟨info, member, entered⟩ := List.mem_filterMap.mp made
  obtain ⟨pid, inside, rfl⟩ := List.mem_map.mp member
  simp only [Option.bind_some] at entered
  split at entered
  · cases entered
    exact ⟨pid, Keyed.get?_eq_some.mpr ⟨inside, by assumption⟩, rfl⟩
  · cases entered

/-- The entry for an id after a message has been handled. -/
theorem Receives.entry {node : Node} (received : Receives node packet choice number handling)
    (fine : packet.msg.fatal = false) (stay : ∀ members, packet.msg = .members members → node.agent.left members = []) (x : String) :
    handling.node.agent.activated.get? x =
      (packet.msg.changes x).foldl Change.apply (node.agent.activated.get? x) := by
  cases received with
  | actorTopology msg handled =>
    rw [msg]
    exact Agent.handleActorTopology_get? handled
  | members msg =>
    rw [msg]
    exact congrArg (·.get? x) (Agent.handleMembers_activated (stay _ msg))
  | @activation pid msg =>
    rw [msg, Agent.addActivated_get?, Message.changes]
    split <;> rfl
  | @deactivation pid msg =>
    rw [msg, Message.changes]
    refine (Keyed.get?_erase _ _).trans ?_
    by_cases named : pid.id = x
    · simp [named, Change.apply]
    · simp [named, Ne.symm named]
  | here msg | request msg =>
    rw [msg, Node.spawn_agent]
    rfl
  | refuse msg | there msg | deactivate msg | getMembers msg =>
    rw [msg]
    rfl
  | ignore answer =>
    cases told : packet.msg with
    | activationResponse | pid | slice => rfl
    | _ => simp [told, Message.isAnswer] at answer
  | panic fatal =>
    rw [fine] at fatal
    cases fatal

namespace State
variable {s t : State} {queue later : Queue} {packet : Packet} {pid : PID} {x : String}
  {before after packets : List (Queue × Packet)}

/-- How far a packet has come on its way to an agent. -/
inductive Stage where
  | unsent
  | travelling
  | arrived
  deriving DecidableEq

def stage : Queue → Stage
  | .outbox _ | .spawner _ => .unsent
  | .channel _ _ => .travelling
  | .mailbox _ => .arrived

/-- The changes of the packets for one agent at one stage. -/
def changesAt (at_ : Stage) (pid : PID) (x : String) (packets : List (Queue × Packet)) : List Change :=
  packets.flatMap fun entry =>
    if stage entry.1 = at_ ∧ entry.2.dest = .agent pid then entry.2.msg.changes x else []

def pending (pid : PID) (x : String) (packets : List (Queue × Packet)) : List Change :=
  changesAt .arrived pid x packets ++ (changesAt .travelling pid x packets ++ changesAt .unsent pid x packets)

/-- The entry that an agent is headed for. -/
def outcome (packets : List (Queue × Packet)) (node : Node) (x : String) : Option PID :=
  (pending node.pid x packets).foldl Change.apply (node.agent.activated.get? x)

theorem mem_changesAt : change ∈ changesAt at_ pid x packets ↔
    ∃ entry ∈ packets, stage entry.1 = at_ ∧ entry.2.dest = .agent pid ∧ change ∈ entry.2.msg.changes x := by
  rw [changesAt, List.mem_flatMap]
  constructor
  · rintro ⟨entry, member, made⟩
    split at made
    · rename_i placed
      exact ⟨entry, member, placed.1, placed.2, made⟩
    · cases made
  · rintro ⟨entry, member, at_, target, made⟩
    exact ⟨entry, member, by rwa [if_pos ⟨at_, target⟩]⟩

theorem mem_pending (waits : change ∈ pending pid x packets) :
    ∃ entry ∈ packets, change ∈ entry.2.msg.changes x := by
  have somewhere {at_ : Stage} (made : change ∈ changesAt at_ pid x packets) :
      ∃ entry ∈ packets, change ∈ entry.2.msg.changes x := by
    obtain ⟨entry, member, -, -, made⟩ := mem_changesAt.mp made
    exact ⟨entry, member, made⟩
  rcases List.mem_append.mp waits with arrived | rest
  · exact somewhere arrived
  · rcases List.mem_append.mp rest with travelling | unsent
    · exact somewhere travelling
    · exact somewhere unsent

theorem changesAt_append (at_ : Stage) (first second : List (Queue × Packet)) :
    changesAt at_ pid x (first ++ second) = changesAt at_ pid x first ++ changesAt at_ pid x second :=
  List.flatMap_append

theorem changesAt_middle (at_ : Stage) (entry : Queue × Packet) :
    changesAt at_ pid x (before ++ entry :: after) =
      changesAt at_ pid x before ++ (changesAt at_ pid x [entry] ++ changesAt at_ pid x after) := by
  rw [← changesAt_append, ← changesAt_append, List.singleton_append]

theorem changesAt_other (at_ : Stage) {entry : Queue × Packet}
    (other : entry.2.dest = .agent pid → stage entry.1 ≠ at_) : changesAt at_ pid x [entry] = [] := by
  rw [List.eq_nil_iff_forall_not_mem]
  intro change made
  obtain ⟨_, member, placed, target, -⟩ := mem_changesAt.mp made
  rw [List.mem_singleton] at member
  subst member
  exact other target placed

/-- A packet for somebody else makes no difference. -/
theorem pending_skip (other : packet.dest ≠ .agent pid) :
    pending pid x (before ++ (queue, packet) :: after) = pending pid x (before ++ after) := by
  have none (at_ : Stage) : changesAt at_ pid x [(queue, packet)] = [] :=
    changesAt_other at_ fun target => absurd target other
  simp only [pending, changesAt_middle _ (queue, packet), none, List.nil_append]
  simp only [changesAt_append]

theorem unsent_stage (unsent : Unsent queue) : stage queue = .unsent := by
  cases queue with
  | outbox | spawner => rfl
  | mailbox | channel => cases unsent

theorem pending_post (unsent : Unsent queue) (sends : List Packet) :
    pending pid x (packets ++ sends.map fun packet => (queue, packet)) =
      pending pid x packets ++ changesAt .unsent pid x (sends.map fun packet => (queue, packet)) := by
  have none (at_ : Stage) (other : at_ ≠ .unsent) :
      changesAt at_ pid x (sends.map fun packet => (queue, packet)) = [] := by
    rw [List.eq_nil_iff_forall_not_mem]
    intro change made
    obtain ⟨entry, member, rfl, -⟩ := mem_changesAt.mp made
    obtain ⟨sent, -, rfl⟩ := List.mem_map.mp member
    exact other (unsent_stage unsent)
  simp only [pending, changesAt_append, none .arrived (by rintro ⟨⟩), none .travelling (by rintro ⟨⟩),
    List.append_nil, List.append_assoc]

theorem changesAt_single (target : packet.dest = .agent pid) (at_ : Stage) (queue : Queue) :
    changesAt at_ pid x [(queue, packet)] = if stage queue = at_ then packet.msg.changes x else [] := by
  simp [changesAt, target]

/-- A packet overtakes those of its stage that stood before it, and on the way from a
sender to its own agent also those between the engines. -/
def Overtaken (queue later : Queue) (before after : List (Queue × Packet)) (entry : Queue × Packet) : Prop :=
  entry ∈ before ∧ stage entry.1 = stage queue ∨
    entry ∈ before ++ after ∧ stage entry.1 = .travelling ∧ stage queue = .unsent ∧ stage later = .arrived

/-- A packet on its way that overtakes only equal changes leaves the changes as they
are. -/
theorem pending_advance
    (further : stage queue = .unsent ∧ stage later ≠ .unsent ∨
      stage queue = .travelling ∧ stage later = .arrived)
    (same : ∀ entry, Overtaken queue later before after entry → entry.2.dest = packet.dest →
      ∀ made ∈ entry.2.msg.changes x, ∀ change ∈ packet.msg.changes x, made = change) :
    pending pid x (before ++ after ++ [(later, packet)]) =
      pending pid x (before ++ (queue, packet) :: after) := by
  by_cases target : packet.dest = .agent pid
  · have passes {at_ : Stage} {some : List (Queue × Packet)}
        (overtaken : ∀ entry ∈ some, stage entry.1 = at_ → Overtaken queue later before after entry)
        (rest : List Change) :
        changesAt at_ pid x some ++ (packet.msg.changes x ++ rest) =
          packet.msg.changes x ++ (changesAt at_ pid x some ++ rest) := by
      have exchanged : changesAt at_ pid x some ++ packet.msg.changes x =
          packet.msg.changes x ++ changesAt at_ pid x some := by
        apply Change.append_comm_of_same
        intro made present change
        obtain ⟨entry, member, placed, dest, present⟩ := mem_changesAt.mp present
        exact same entry (overtaken entry member placed) (dest.trans target.symm) made present change
      rw [← List.append_assoc, exchanged, List.append_assoc]
    have behind : ∀ entry ∈ before, stage entry.1 = stage queue →
        Overtaken queue later before after entry := fun entry member placed => .inl ⟨member, placed⟩
    simp only [pending, changesAt_middle _ (queue, packet)]
    simp only [changesAt_append, changesAt_single target, List.append_assoc]
    rcases further with ⟨from_, sent⟩ | ⟨from_, arrives⟩
    · rw [from_] at behind
      cases reached : stage later with
      | unsent => exact absurd reached sent
      | travelling => simp [from_, passes behind]
      | arrived =>
        have travels {some : List (Queue × Packet)} (inside : ∀ entry ∈ some, entry ∈ before ++ after) :
            ∀ entry ∈ some, stage entry.1 = .travelling → Overtaken queue later before after entry :=
          fun entry member placed => .inr ⟨inside entry member, placed, from_, reached⟩
        simp [from_, passes behind, passes (travels fun _ => List.mem_append_left _),
          passes (travels fun _ => List.mem_append_right _)]
    · rw [from_] at behind
      simp [from_, arrives, passes behind]
  · have last : pending pid x (before ++ after ++ [(later, packet)]) = pending pid x (before ++ after ++ []) :=
      pending_skip target
    rw [last, List.append_nil, pending_skip target]

theorem pending_silent {sends : List Packet} (silent : ∀ sent ∈ sends, sent.msg.changes x = []) :
    pending pid x (packets ++ sends.map fun packet => (queue, packet)) = pending pid x packets := by
  have none (at_ : Stage) : changesAt at_ pid x (sends.map fun packet => (queue, packet)) = [] := by
    rw [List.eq_nil_iff_forall_not_mem]
    intro change made
    obtain ⟨entry, member, -, -, made⟩ := mem_changesAt.mp made
    obtain ⟨sent, inside, rfl⟩ := List.mem_map.mp member
    rw [silent sent inside] at made
    cases made
  simp only [pending, changesAt_append, none, List.append_nil]

/-- Whether a list of members has every member of the cluster. -/
def covers (s : State) (members : List Member) : Bool :=
  s.nodes.all fun node => members.any fun member => member.pid = node.pid

/-- No other change of the entry can overtake a change that is announced from a host:
those on their way from other hosts, or not sent yet, are the same change. -/
def unopposed (s : State) (host : String) (change : Change) (x : String) : Bool :=
  s.packets.all fun entry =>
    (entry.2.source = host && stage entry.1 ≠ .unsent) || (entry.2.msg.changes x).all (· = change)

/-- All changes on their way agree with the entries of an agent. -/
def undisputed (s : State) (a : Agent) : Bool :=
  a.activated.entries.all fun pid => s.packets.all fun entry =>
    (entry.2.msg.changes pid.id).all (· = .add pid)

/-- A change is announced by somebody who knows all members, and unopposed; nil is not.
Members only join, and the topology they are sent is undisputed. -/
def orderly (s : State) : Label → Bool
  | .handle i choice =>
    s.named (.handle i choice) &&
      match s.nodes[i]?, s.next i with
      | some node, some packet =>
        match packet.msg with
        | .activate _ _ => (node.spawns packet choice).all fun pid =>
            s.covers node.agent.members.entries && s.unopposed node.host (.add pid) pid.id
        | .deactivate (some pid) =>
          s.covers node.agent.members.entries && s.unopposed node.host .remove pid.id
        | .members members => (node.agent.left members).isEmpty &&
            ((node.agent.joined members).isEmpty || s.undisputed node.agent)
        | _ => true
      | _, _ => true
  | .wake i _ => (s.nodes[i]?).all fun node => node.waiting.all fun number =>
      (s.responses[number]?).all fun response =>
        match response.status with
        | .answered (.activationResponse (some pid) true) =>
          s.covers node.agent.members.entries && s.unopposed node.host (.add pid) pid.id
        | _ => true
  | .returns number => (s.responses[number]?).all fun response =>
      match response.purpose, response.status with
      | .spawn pid, .answered (.slice members) =>
        s.covers members && s.unopposed response.host (.add pid) pid.id
      | _, _ => true
  | _ => true

theorem orderly_named (allowed : orderly s label = true) : s.named label = true := by
  cases label with
  | handle => exact (Bool.and_eq_true_iff.mp allowed).1
  | _ => rfl

/-- Two packets that may reach two agents in different orders. -/
def Rivals (a b : Queue × Packet) : Prop :=
  a.2.source ≠ b.2.source ∨ stage a.1 = .unsent ∧ stage b.1 = .unsent ∧ a.1 ≠ b.1

def SameChanges (a b : Packet) : Prop :=
  ∀ x, ∀ made ∈ a.msg.changes x, ∀ change ∈ b.msg.changes x, made = change

structure Agreed (s : State) : Prop where
  hosts : (s.nodes.map (·.host)).Nodup
  placed : s.Placed
  solid : s.Solid
  rivals : ∀ a ∈ s.packets, ∀ b ∈ s.packets, Rivals a b → SameChanges a.2 b.2
  outcomes : ∀ a ∈ s.nodes, ∀ b ∈ s.nodes, ∀ x, outcome s.packets a x = outcome s.packets b x

/-- New packets whose changes bring all agents to the same entry. -/
inductive Fair (nodes : List Node) (base : List (Queue × Packet)) (x : String) (sends : List Packet) : Prop where
  | silent : (∀ sent ∈ sends, sent.msg.changes x = []) → Fair nodes base x sends
  | everyone (change : Change) : (∀ sent ∈ sends, ∀ made ∈ sent.msg.changes x, made = change) →
      (∀ node ∈ nodes, ∃ sent ∈ sends, sent.dest = .agent node.pid ∧ change ∈ sent.msg.changes x) →
      Fair nodes base x sends
  | repeated (change : Change) : (∀ sent ∈ sends, ∀ made ∈ sent.msg.changes x, made = change) →
      (∀ node ∈ nodes, change.apply (outcome base node x) = outcome base node x) →
      Fair nodes base x sends

theorem Fair.same {nodes : List Node} {sends : List Packet} (fair : Fair nodes packets x sends) (first : a ∈ sends)
    (second : b ∈ sends) (made : change ∈ a.msg.changes x) (again : change' ∈ b.msg.changes x) :
    change = change' := by
  cases fair with
  | silent silent =>
    rw [silent a first] at made
    cases made
  | everyone one only | repeated one only =>
    rw [only a first change made, only b second change' again]

theorem outcome_post (node : Node) (unsent : Unsent queue) (sends : List Packet) :
    outcome (packets ++ sends.map fun packet => (queue, packet)) node x =
      (changesAt .unsent node.pid x (sends.map fun packet => (queue, packet))).foldl Change.apply
        (outcome packets node x) := by
  rw [outcome, pending_post unsent, List.foldl_append]
  rfl

theorem Fair.outcomes {nodes : List Node} {sends : List Packet} (fair : Fair nodes packets x sends)
    (unsent : Unsent queue)
    (agree : ∀ a ∈ nodes, ∀ b ∈ nodes, outcome packets a x = outcome packets b x) :
    ∀ a ∈ nodes, ∀ b ∈ nodes, outcome (packets ++ sends.map fun packet => (queue, packet)) a x =
      outcome (packets ++ sends.map fun packet => (queue, packet)) b x := by
  have one {change : Change} (only : ∀ sent ∈ sends, ∀ made ∈ sent.msg.changes x, made = change) (node : Node) :
      ∀ made ∈ changesAt .unsent node.pid x (sends.map fun packet => (queue, packet)), made = change := by
    intro made present
    obtain ⟨entry, member, -, -, present⟩ := mem_changesAt.mp present
    obtain ⟨sent, inside, rfl⟩ := List.mem_map.mp member
    exact only sent inside made present
  cases fair with
  | silent silent =>
    intro a first b second
    rw [outcome, outcome, pending_silent silent, pending_silent silent]
    exact agree a first b second
  | everyone change only all =>
    have told (node : Node) (member : node ∈ nodes) :
        outcome (packets ++ sends.map fun packet => (queue, packet)) node x =
          change.apply (outcome packets node x) := by
      rw [outcome_post node unsent]
      apply Change.foldl_same (one only node)
      obtain ⟨sent, inside, target, made⟩ := all node member
      exact List.ne_nil_of_mem (mem_changesAt.mpr
        ⟨(queue, sent), List.mem_map.mpr ⟨sent, inside, rfl⟩, unsent_stage unsent, target, made⟩)
    intro a first b second
    rw [told a first, told b second, agree a first b second]
  | repeated change only idle =>
    have kept (node : Node) (member : node ∈ nodes) :
        outcome (packets ++ sends.map fun packet => (queue, packet)) node x = outcome packets node x := by
      rw [outcome_post node unsent]
      by_cases none : changesAt .unsent node.pid x (sends.map fun packet => (queue, packet)) = []
      · rw [none]
        rfl
      · rw [Change.foldl_same (one only node) none, idle node member]
    intro a first b second
    rw [kept a first, kept b second, agree a first b second]

/-- New packets that are fair to all agents and overtake only equal changes. -/
def Allowed (nodes : List Node) (base : List (Queue × Packet)) (sends : List Packet) : Prop :=
  (∀ x, Fair nodes base x sends) ∧
    ∀ entry ∈ base, ∀ sent ∈ sends, entry.2.source ≠ sent.source ∨ stage entry.1 = .unsent →
      SameChanges entry.2 sent

/-- What a step does to the changes under way: some packets move on or are handled,
and then changes are announced. -/
structure Extends (s t : State) (base : List (Queue × Packet)) (queue : Queue) (sends : List Packet) : Prop where
  packets : t.packets = base ++ sends.map fun packet => (queue, packet)
  unsent : Unsent queue
  kept : ∀ entry ∈ base, (∃ old ∈ s.packets, old.2 = entry.2 ∧ (stage entry.1 = .unsent → old.1 = entry.1)) ∨
    ∀ x, entry.2.msg.changes x = []
  outcomes : ∀ b ∈ t.nodes, ∃ a ∈ s.nodes, ∀ x, outcome base b x = outcome s.packets a x
  allowed : Allowed t.nodes base sends

theorem SameChanges.symm {a b : Packet} (same : SameChanges a b) : SameChanges b a :=
  fun x made first change second => (same x change second made first).symm

theorem Rivals.symm {a b : Queue × Packet} (rivals : Rivals a b) : Rivals b a := by
  rcases rivals with sources | ⟨first, second, apart⟩
  · exact .inl sources.symm
  · exact .inr ⟨second, first, apart.symm⟩

/-- Packets that were rivals stay so, and none become rivals. -/
theorem Extends.base_rivals (extends_ : Extends s t base queue sends) (agreed : s.Agreed)
    (first : a ∈ base) (second : b ∈ base) (rivals : Rivals a b) : SameChanges a.2 b.2 := by
  intro x made present change again
  rcases extends_.kept a first with ⟨old, member, same, place⟩ | silent
  · rcases extends_.kept b second with ⟨old', member', same', place'⟩ | silent
    · rw [← same] at present
      rw [← same'] at again
      refine agreed.rivals old member old' member' ?_ x made present change again
      rcases rivals with sources | ⟨unsent, unsent', apart⟩
      · exact .inl (by rwa [same, same'])
      · exact .inr ⟨by rwa [place unsent], by rwa [place' unsent'], by rwa [place unsent, place' unsent']⟩
    · rw [silent x] at again
      cases again
  · rw [silent x] at present
    cases present

theorem Extends.rivals (extends_ : Extends s t base queue sends) (agreed : s.Agreed)
    (first : a ∈ t.packets) (second : b ∈ t.packets) (rivals : Rivals a b) : SameChanges a.2 b.2 := by
  rw [extends_.packets] at first second
  have newer {a b : Queue × Packet} (first : a ∈ base) (second : b ∈ sends.map fun packet => (queue, packet))
      (rivals : Rivals a b) : SameChanges a.2 b.2 := by
    obtain ⟨sent, inside, rfl⟩ := List.mem_map.mp second
    exact extends_.allowed.2 a first sent inside (rivals.imp_right (·.1))
  rcases List.mem_append.mp first with old | new <;> rcases List.mem_append.mp second with old' | new'
  · exact extends_.base_rivals agreed old old' rivals
  · exact newer old new' rivals
  · exact (newer old' new rivals.symm).symm
  · obtain ⟨sent, inside, rfl⟩ := List.mem_map.mp new
    obtain ⟨sent', inside', rfl⟩ := List.mem_map.mp new'
    intro x made present change again
    exact (extends_.allowed.1 x).same inside inside' present again

theorem Extends.agreed (extends_ : Extends s t base queue sends) (agreed : s.Agreed) (move : Move s label t)
    (allowed : s.named label = true) : t.Agreed where
  hosts := by
    have same := congrArg (List.map PID.address) (pids_move move)
    rw [List.map_map, List.map_map] at same
    exact (same ▸ agreed.hosts :)
  placed := placed_move agreed.placed move
  solid := agreed.solid.move allowed move
  rivals := fun _ first _ second rivals => extends_.rivals agreed first second rivals
  outcomes := by
    intro a first b second x
    rw [extends_.packets]
    refine (extends_.allowed.1 x).outcomes extends_.unsent ?_ a first b second
    intro a first b second
    obtain ⟨a', member, same⟩ := extends_.outcomes a first
    obtain ⟨b', member', same'⟩ := extends_.outcomes b second
    rw [same, same', agreed.outcomes a' member b' member']

/-- A step that announces nothing. -/
theorem Extends.quiet
    (kept : ∀ entry ∈ t.packets,
      (∃ old ∈ s.packets, old.2 = entry.2 ∧ (stage entry.1 = .unsent → old.1 = entry.1)) ∨
        ∀ x, entry.2.msg.changes x = [])
    (outcomes : ∀ b ∈ t.nodes, ∃ a ∈ s.nodes, ∀ x, outcome t.packets b x = outcome s.packets a x) :
    Extends s t t.packets (.outbox 0) [] where
  packets := (List.append_nil _).symm
  unsent := trivial
  kept := kept
  outcomes := outcomes
  allowed := ⟨fun _ => .silent (by rintro _ ⟨⟩), by rintro _ _ _ ⟨⟩⟩

/-- A step that only posts messages without changes. -/
theorem Extends.silent {posted : List Packet} (packets : t.packets = s.packets ++ posted.map fun packet => (queue, packet))
    (silent : ∀ sent ∈ posted, ∀ x, sent.msg.changes x = [])
    (nodes : ∀ b ∈ t.nodes, ∃ a ∈ s.nodes, a.pid = b.pid ∧ a.agent.activated = b.agent.activated) :
    Extends s t t.packets (.outbox 0) [] := by
  apply Extends.quiet
  · intro entry member
    rw [packets] at member
    rcases List.mem_append.mp member with old | new
    · exact .inl ⟨entry, old, rfl, fun _ => rfl⟩
    · obtain ⟨sent, inside, rfl⟩ := List.mem_map.mp new
      exact .inr (silent sent inside)
  · intro b member
    obtain ⟨a, inside, pid, activated⟩ := nodes b member
    refine ⟨a, inside, fun x => ?_⟩
    rw [packets, outcome, pending_silent fun sent inside => silent sent inside x, outcome, pid, activated]

theorem overtaken_rivals (placed : s.Placed) (split : s.packets = before ++ (queue, packet) :: after)
    (first : ∀ entry ∈ before, entry.1 ≠ queue) (moves : stage queue ≠ .arrived)
    (near : stage queue = .unsent → stage later = .arrived → packet.dest.host = packet.source)
    (overtaken : Overtaken queue later before after entry) (target : entry.2.dest = packet.dest) :
    Rivals entry (queue, packet) := by
  rcases overtaken with ⟨member, same⟩ | ⟨member, travels, unsent, arrives⟩
  · cases reached : stage queue with
    | unsent => exact .inr ⟨same.trans reached, reached, first entry member⟩
    | travelling =>
      left
      obtain ⟨place, sent⟩ := entry
      rw [reached] at same
      cases queue with
      | channel source goal =>
        cases place with
        | channel source' goal' =>
          have own := placed.channels (Queues.mem_taken split)
          have other := placed.channels (Queues.mem_left split (List.mem_append_left _ member))
          intro sources
          apply first _ member
          rw [← own.1, ← own.2.1, ← other.1, ← other.2.1, sources, target]
        | outbox | spawner | mailbox => cases same
      | outbox | spawner | mailbox => cases reached
    | arrived => exact absurd reached moves
  · left
    obtain ⟨place, sent⟩ := entry
    cases place with
    | channel source goal =>
      have other := placed.channels (Queues.mem_left split member)
      intro sources
      apply other.2.2
      rw [← other.1, ← other.2.1, sources, target]
      exact (near unsent arrives).symm
    | outbox | spawner | mailbox => cases travels

/-- A packet that moves on. -/
theorem advance_extends (agreed : s.Agreed) (split : s.packets = before ++ (queue, packet) :: after)
    (first : ∀ entry ∈ before, entry.1 ≠ queue)
    (further : stage queue = .unsent ∧ stage later ≠ .unsent ∨
      stage queue = .travelling ∧ stage later = .arrived)
    (near : stage queue = .unsent → stage later = .arrived → packet.dest.host = packet.source)
    (nodes : t.nodes = s.nodes) (packets : t.packets = before ++ after ++ [(later, packet)]) :
    Extends s t t.packets (.outbox 0) [] := by
  have moves : stage queue ≠ .arrived := by
    rcases further with ⟨from_, -⟩ | ⟨from_, -⟩ <;> simp [from_]
  apply Extends.quiet
  · intro entry member
    rw [packets] at member
    rcases List.mem_append.mp member with old | new
    · exact .inl ⟨entry, Queues.mem_left split old, rfl, fun _ => rfl⟩
    · rw [List.mem_singleton] at new
      subst new
      refine .inl ⟨_, Queues.mem_taken split, rfl, fun unsent => ?_⟩
      rcases further with ⟨-, sent⟩ | ⟨-, arrived⟩
      · exact absurd unsent sent
      · cases unsent.symm.trans arrived
  · intro b member
    rw [nodes] at member
    refine ⟨b, member, fun x => ?_⟩
    rw [packets, outcome, pending_advance further, ← split]
    · rfl
    · intro entry overtaken target
      have inside : entry ∈ s.packets := by
        rcases overtaken with ⟨member, -⟩ | ⟨member, -⟩
        · exact Queues.mem_left split (List.mem_append_left _ member)
        · exact Queues.mem_left split member
      exact agreed.rivals entry inside _ (Queues.mem_taken split)
        (overtaken_rivals agreed.placed split first moves near overtaken target) x

/-- A packet that leaves without reaching an agent. -/
theorem lost_extends (split : s.packets = before ++ (queue, packet) :: after)
    (elsewhere : ∀ node ∈ s.nodes, packet.dest ≠ .agent node.pid) (nodes : t.nodes = s.nodes)
    (packets : t.packets = before ++ after) : Extends s t t.packets (.outbox 0) [] := by
  apply Extends.quiet
  · intro entry member
    rw [packets] at member
    exact .inl ⟨entry, Queues.mem_left split member, rfl, fun _ => rfl⟩
  · intro b member
    rw [nodes] at member
    refine ⟨b, member, fun x => ?_⟩
    rw [packets, outcome, outcome, split, pending_skip (elsewhere b member)]

/-- The message that an agent handles next makes the first of the changes under way. -/
theorem pending_handled (hosts : (s.nodes.map (·.host)).Nodup) (placed : s.Placed)
    (found : s.nodes[i]? = some node) (split : s.packets = before ++ (.mailbox i, packet) :: after)
    (first : ∀ entry ∈ before, entry.1 ≠ .mailbox i) :
    pending node.pid x s.packets = packet.msg.changes x ++ pending node.pid x (before ++ after) := by
  obtain ⟨_, there, target⟩ := placed.addressed (Queues.mem_taken split)
  cases there.symm.trans found
  have none : changesAt .arrived node.pid x before = [] := by
    rw [List.eq_nil_iff_forall_not_mem]
    intro change made
    obtain ⟨⟨place, sent⟩, member, arrived, dest, -⟩ := mem_changesAt.mp made
    cases place with
    | mailbox j =>
      obtain ⟨other, known, same⟩ := placed.addressed (Queues.mem_left split (List.mem_append_left _ member))
      cases node_unique hosts known found (Dest.agent.inj (same.symm.trans dest))
      exact first _ member rfl
    | outbox | spawner | channel => cases arrived
  rw [split]
  simp only [pending, changesAt_middle _ (Queue.mailbox i, packet), changesAt_single target]
  simp [changesAt_append, none, stage]

theorem handled_outcomes (agreed : s.Agreed) (found : s.nodes[i]? = some node)
    (split : s.packets = before ++ (.mailbox i, packet) :: after)
    (first : ∀ entry ∈ before, entry.1 ≠ .mailbox i)
    (received : Receives node packet choice number handling)
    (stay : ∀ members, packet.msg = .members members → node.agent.left members = []) :
    ∀ b ∈ s.nodes.set i handling.node, ∃ a ∈ s.nodes,
      ∀ x, outcome (before ++ after) b x = outcome s.packets a x := by
  intro b member
  obtain ⟨j, there⟩ := List.mem_iff_getElem?.mp member
  rcases getElem?_set_cases there with ⟨rfl, rfl⟩ | ⟨other, old⟩
  · refine ⟨node, List.mem_of_getElem? found, fun x => ?_⟩
    rw [outcome, outcome, pending_handled agreed.hosts agreed.placed found split first, List.foldl_append,
      received.pid, received.entry (agreed.solid.fatal (Queues.mem_taken split)) stay]
  · refine ⟨b, List.mem_of_getElem? old, fun x => ?_⟩
    obtain ⟨_, known, target⟩ := agreed.placed.addressed (Queues.mem_taken split)
    cases known.symm.trans found
    rw [outcome, outcome, split, pending_skip]
    intro dest
    exact other (node_unique agreed.hosts found old (Dest.agent.inj (target.symm.trans dest)))

section Announcing
variable {base : List (Queue × Packet)} {order members : List Member} {host y : String} {msg : Message}
  {rest : List Packet} {change : Change}

theorem announce_fair (move : Move s label t) (known : s.covers members = true) (every : order.Perm members)
    (one : ∀ x, msg.changes x = if y = x then [change] else [])
    (silent : ∀ sent ∈ rest, ∀ x, sent.msg.changes x = []) (x : String) :
    Fair t.nodes base x ((order.map fun member => ⟨host, .agent member.pid, none, msg⟩) ++ rest) := by
  by_cases same : y = x
  · apply Fair.everyone change
    · intro sent member made present
      rcases List.mem_append.mp member with told | answer
      · obtain ⟨_, -, rfl⟩ := List.mem_map.mp told
        simpa [one, same] using present
      · rw [silent sent answer] at present
        cases present
    · intro node member
      obtain ⟨j, found⟩ := List.mem_iff_getElem?.mp member
      obtain ⟨before, earlier, pid⟩ := pid_at move found
      rw [covers, List.all_eq_true] at known
      obtain ⟨target, inside, named⟩ := List.any_eq_true.mp (known before (List.mem_of_getElem? earlier))
      refine ⟨_, List.mem_append_left _ (List.mem_map_of_mem (every.mem_iff.mpr inside)), ?_, ?_⟩
      · rw [of_decide_eq_true named, pid]
      · simp [one, same]
  · apply Fair.silent
    intro sent member
    rcases List.mem_append.mp member with told | answer
    · obtain ⟨_, -, rfl⟩ := List.mem_map.mp told
      rw [one, if_neg same]
    · exact silent sent answer x

theorem announce_unopposed (free : s.unopposed host change y = true) (kept : ∀ entry ∈ base, entry ∈ s.packets)
    (one : ∀ x, msg.changes x = if y = x then [change] else [])
    (silent : ∀ sent ∈ rest, ∀ x, sent.msg.changes x = []) :
    ∀ entry ∈ base, ∀ sent ∈ (order.map fun member => (⟨host, .agent member.pid, none, msg⟩ : Packet)) ++ rest,
      entry.2.source ≠ sent.source ∨ stage entry.1 = .unsent → SameChanges entry.2 sent := by
  intro entry member sent inside rival x made present other again
  rcases List.mem_append.mp inside with told | answer
  · obtain ⟨_, -, rfl⟩ := List.mem_map.mp told
    rw [one] at again
    split at again
    · rename_i same
      subst same
      rw [List.mem_singleton] at again
      subst again
      rw [unopposed, List.all_eq_true] at free
      rcases Bool.or_eq_true_iff.mp (free entry (kept entry member)) with behind | equal
      · simp only [Bool.and_eq_true, decide_eq_true_eq] at behind
        rcases rival with source | unsent
        · exact absurd behind.1 source
        · exact absurd unsent behind.2
      · simpa using List.all_eq_true.mp equal made present
    · cases again
  · rw [silent sent answer] at again
    cases again

/-- A change that is sent to every member, with other packets after it. -/
theorem told_allowed (move : Move s label t) (known : s.covers members = true)
    (free : s.unopposed host change y = true) (every : order.Perm members)
    (one : ∀ x, msg.changes x = if y = x then [change] else [])
    (silent : ∀ sent ∈ rest, ∀ x, sent.msg.changes x = []) (kept : ∀ entry ∈ base, entry ∈ s.packets) :
    Allowed t.nodes base ((order.map fun member => ⟨host, .agent member.pid, none, msg⟩) ++ rest) :=
  ⟨announce_fair move known every one silent, announce_unopposed free kept one silent⟩

theorem broadcast_allowed (move : Move s label t) (known : s.covers members = true)
    (free : s.unopposed host change y = true) (every : order.Perm members)
    (one : ∀ x, msg.changes x = if y = x then [change] else []) (kept : ∀ entry ∈ base, entry ∈ s.packets) :
    Allowed t.nodes base (order.map fun member => ⟨host, .agent member.pid, none, msg⟩) := by
  rw [← List.append_nil (order.map _)]
  exact told_allowed move known free every one (by rintro _ ⟨⟩) kept

end Announcing

theorem activation_changes (pid : PID) (x : String) :
    (Message.activation (some pid)).changes x = if pid.id = x then [.add pid] else [] := rfl

theorem respond_silent {node : Node} {caller : Option Reply} (answer : ∀ x, msg.changes x = []) :
    ∀ sent ∈ node.respond caller msg, ∀ x, sent.msg.changes x = [] := by
  intro sent member
  obtain ⟨_, -, rfl⟩ := Node.mem_respond member
  exact answer

theorem allowed_silent {base : List (Queue × Packet)} {sends : List Packet}
    (silent : ∀ sent ∈ sends, ∀ x, sent.msg.changes x = []) : Allowed t.nodes base sends := by
  constructor
  · exact fun x => .silent fun sent member => silent sent member x
  · intro entry _ sent member _ x made _ change again
    rw [silent sent member] at again
    cases again

/-- The end of an activation, on its own member or on another one. -/
theorem announce_allowed {node : Node} {pid : Option PID} {base : List (Queue × Packet)}
    (move : Move s label t) (announced : node.announce order pid caller = some sends)
    (kept : ∀ entry ∈ base, entry ∈ s.packets)
    (orderly : pid.all (fun pid => s.covers node.agent.members.entries &&
      s.unopposed node.host (.add pid) pid.id) = true) : Allowed t.nodes base sends := by
  obtain ⟨every, rfl⟩ := Node.announce_sends announced
  have quiet : ∀ sent ∈ node.respond caller (.pid pid), ∀ x, sent.msg.changes x = [] :=
    respond_silent fun _ => rfl
  cases pid with
  | none =>
    apply allowed_silent
    intro sent member
    rcases List.mem_append.mp member with told | answer
    · obtain ⟨_, -, rfl⟩ := List.mem_map.mp told
      exact fun _ => rfl
    · exact quiet sent answer
  | some pid =>
    rw [Option.all_some, Bool.and_eq_true] at orderly
    exact told_allowed move orderly.1 orderly.2 every (activation_changes pid) quiet kept

theorem deactivate_allowed {node : Node} {pid : Option PID} {base : List (Queue × Packet)}
    {order : List Member} (move : Move s label t) (every : order.Perm node.agent.members.entries)
    (kept : ∀ entry ∈ base, entry ∈ s.packets)
    (orderly : pid.all (fun pid => s.covers node.agent.members.entries &&
      s.unopposed node.host .remove pid.id) = true) :
    Allowed t.nodes base (order.map fun member => node.send member.pid (.deactivation pid)) := by
  cases pid with
  | none =>
    apply allowed_silent
    intro sent member
    obtain ⟨_, -, rfl⟩ := List.mem_map.mp member
    exact fun _ => rfl
  | some pid =>
    rw [Option.all_some, Bool.and_eq_true] at orderly
    have one (x : String) : (Message.deactivation (some pid)).changes x =
        if pid.id = x then [.remove] else [] := rfl
    exact broadcast_allowed move orderly.1 orderly.2 every one kept

theorem announcements_allowed {response : Response} (move : Move s label t)
    (orderly : ∀ pid members, response.purpose = .spawn pid → msg = .slice members →
      s.covers members = true ∧ s.unopposed response.host (.add pid) pid.id = true) :
    Allowed t.nodes s.packets (response.announcements msg) := by
  unfold Response.announcements
  split
  · rename_i pid members aim
    obtain ⟨known, free⟩ := orderly pid members aim rfl
    exact broadcast_allowed move known free (List.Perm.refl _) (activation_changes pid) fun _ member => member
  · apply allowed_silent
    rintro _ ⟨⟩

/-- The entries of an agent that sends its topology are what all are headed for. -/
theorem topology_allowed (agreed : s.Agreed) {base : List (Queue × Packet)} {node : Node} {members : List Member}
    (member : node ∈ s.nodes)
    (outcomes : ∀ b ∈ t.nodes, ∃ a ∈ s.nodes, ∀ x, outcome base b x = outcome s.packets a x)
    (kept : ∀ entry ∈ base, entry ∈ s.packets)
    (orderly : node.agent.joined members = [] ∨ s.undisputed node.agent = true) :
    Allowed t.nodes base (node.sendsOf (node.agent.handleMembers members).2) := by
  -- A change in one of the new packets comes from an entry, and all changes under way agree with it.
  have topology {sent : Packet} {x : String} {change : Change}
      (inside : sent ∈ node.sendsOf (node.agent.handleMembers members).2)
      (made : change ∈ sent.msg.changes x) :
      ∃ pid, node.agent.activated.get? x = some pid ∧ change = .add pid ∧
        ∀ entry ∈ s.packets, ∀ made ∈ entry.2.msg.changes x, made = .add pid := by
    obtain ⟨target, msg, effect, rfl⟩ := Node.mem_sendsOf inside
    obtain ⟨some_, rfl⟩ := Agent.handleMembers_sends effect
    obtain ⟨pid, known, rfl⟩ := Agent.actorInfos_changes made
    refine ⟨pid, known, rfl, fun entry present other changed => ?_⟩
    obtain ⟨entered, rfl⟩ := Keyed.get?_eq_some.mp known
    have undisputed := orderly.resolve_left some_
    rw [State.undisputed, List.all_eq_true] at undisputed
    have equal := List.all_eq_true.mp (undisputed pid entered) entry present
    simpa using List.all_eq_true.mp equal other changed
  constructor
  · intro x
    by_cases changed : ∃ sent ∈ node.sendsOf (node.agent.handleMembers members).2, sent.msg.changes x ≠ []
    · obtain ⟨sent, inside, some_⟩ := changed
      obtain ⟨change, made⟩ := List.exists_mem_of_ne_nil _ some_
      obtain ⟨pid, known, rfl, all⟩ := topology inside made
      have headed : outcome s.packets node x = some pid := by
        rw [outcome, known]
        by_cases none : pending node.pid x s.packets = []
        · rw [none]
          rfl
        · have one : ∀ change ∈ pending node.pid x s.packets, change = .add pid := by
            intro change waits
            obtain ⟨entry, present, made⟩ := mem_pending waits
            exact all entry present change made
          rw [Change.foldl_same one none]
          rfl
      apply Fair.repeated (.add pid)
      · intro other there change again
        obtain ⟨_, same, rfl, -⟩ := topology there again
        cases known.symm.trans same
        rfl
      · intro b there
        obtain ⟨a, old, same⟩ := outcomes b there
        rw [same, agreed.outcomes a old node member, headed]
        rfl
    · apply Fair.silent
      intro sent inside
      by_contra some_
      exact changed ⟨sent, inside, some_⟩
  · intro entry old sent inside _ x made present change again
    obtain ⟨pid, -, rfl, all⟩ := topology inside again
    exact all entry (kept entry old) made present

theorem handle_allowed (agreed : s.Agreed) (move : Move s (.handle i choice) t)
    (allowed : orderly s (.handle i choice) = true) (found : s.nodes[i]? = some node)
    (head : s.next i = some packet) (received : Receives node packet choice number handling)
    {base : List (Queue × Packet)}
    (outcomes : ∀ b ∈ t.nodes, ∃ a ∈ s.nodes, ∀ x, outcome base b x = outcome s.packets a x)
    (kept : ∀ entry ∈ base, entry ∈ s.packets) : Allowed t.nodes base handling.sends := by
  simp only [orderly, found, head, Bool.and_eq_true] at allowed
  obtain ⟨-, allowed⟩ := allowed
  cases received with
  | members msg =>
    simp only [msg, Bool.and_eq_true, List.isEmpty_iff, Bool.or_eq_true] at allowed
    exact topology_allowed agreed (List.mem_of_getElem? found) outcomes kept allowed.2
  | here msg chosen near announced =>
    simp only [msg, Node.spawns, chosen, near, if_true] at allowed
    exact announce_allowed move announced kept allowed
  | @deactivate pid msg every =>
    cases pid with
    | none => exact deactivate_allowed move every kept rfl
    | some pid =>
      rw [msg] at allowed
      exact deactivate_allowed move every kept allowed
  | there =>
    apply allowed_silent
    intro sent member
    rw [List.mem_singleton] at member
    subst member
    exact fun _ => rfl
  | refuse | request | getMembers => exact allowed_silent (respond_silent fun _ => rfl)
  | actorTopology | activation | deactivation | ignore | panic =>
    apply allowed_silent
    rintro _ ⟨⟩

/-- A packet on its way changes nothing that an agent is headed for. -/
theorem travel_extends (agreed : s.Agreed) (move : Move s (.move queue) t) :
    Extends s t t.packets (.outbox 0) [] := by
  cases move with
  | send split first unsent apart =>
    refine advance_extends agreed split first (.inl ⟨unsent_stage unsent, ?_⟩) ?_ rfl rfl
    · rintro ⟨⟩
    · rintro _ ⟨⟩
  | mail split first arrives target found =>
    cases queue with
    | mailbox => cases arrives
    | outbox | spawner =>
      exact advance_extends agreed split first (.inl ⟨rfl, by rintro ⟨⟩⟩) (fun _ _ => arrives) rfl rfl
    | channel => exact advance_extends agreed split first (.inr ⟨rfl, rfl⟩) (by rintro ⟨⟩) rfl rfl
  | lose split first arrives target missing =>
    refine lost_extends split (fun node member named => ?_) rfl rfl
    rw [List.findIdx?_eq_none_iff] at missing
    simpa [Dest.agent.inj (target.symm.trans named)] using missing node member
  | answer split first arrives target =>
    refine lost_extends split (fun node member named => ?_) rfl rfl
    cases target.symm.trans named

theorem extends_move (agreed : s.Agreed) (move : Move s label t) (allowed : orderly s label = true) :
    ∃ base queue sends, Extends s t base queue sends := by
  have same : ∀ b ∈ s.nodes, ∃ a ∈ s.nodes, a.pid = b.pid ∧ a.agent.activated = b.agent.activated :=
    fun b member => ⟨b, member, rfl, rfl⟩
  have alike {i : Nat} {node next : Node} (found : s.nodes[i]? = some node) (pid : node.pid = next.pid)
      (activated : node.agent.activated = next.agent.activated) :
      ∀ b ∈ s.nodes.set i next, ∃ a ∈ s.nodes, a.pid = b.pid ∧ a.agent.activated = b.agent.activated := by
    intro b member
    rcases List.mem_or_eq_of_mem_set member with kept | rfl
    · exact ⟨b, kept, rfl, rfl⟩
    · exact ⟨node, List.mem_of_getElem? found, pid, activated⟩
  have steady {nodes : List Node}
      (alike : ∀ b ∈ nodes, ∃ a ∈ s.nodes, a.pid = b.pid ∧ a.agent.activated = b.agent.activated) :
      ∀ b ∈ nodes, ∃ a ∈ s.nodes, ∀ x, outcome s.packets b x = outcome s.packets a x := by
    intro b member
    obtain ⟨a, inside, pid, activated⟩ := alike b member
    exact ⟨a, inside, fun x => by rw [outcome, outcome, pid, activated]⟩
  have again := move
  cases move with
  | activate _ _ found | deactivate _ found | provide _ found =>
    exact ⟨_, _, _, Extends.silent rfl (by simp [Message.changes]) same⟩
  | spawn _ found => exact ⟨_, _, _, Extends.silent rfl (by simp [Message.changes]) (alike found rfl rfl)⟩
  | @handle i node before packet after choice handling found free idle split first received =>
    have stay (members : List Member) (msg : packet.msg = .members members) : node.agent.left members = [] := by
      simp only [orderly, found, next_eq split first, msg, Bool.and_eq_true, List.isEmpty_iff] at allowed
      exact allowed.2.1
    have outcomes := handled_outcomes agreed found split first received stay
    have kept : ∀ entry ∈ before ++ after, entry ∈ s.packets := fun entry => Queues.mem_left split
    exact ⟨before ++ after, .outbox i, handling.sends, rfl, trivial,
      fun entry member => .inl ⟨entry, kept entry member, rfl, fun _ => rfl⟩, outcomes,
      handle_allowed agreed again allowed found (next_eq split first) received outcomes kept⟩
  | @wake i node number response sends order msg found waits asked answered idle resumed =>
    refine ⟨s.packets, .outbox i, sends, rfl, trivial,
      fun entry member => .inl ⟨entry, member, rfl, fun _ => rfl⟩, steady (alike found rfl rfl), ?_⟩
    simp only [orderly, found, waits, asked, answered, Option.all_some] at allowed
    unfold Node.resume at resumed
    split at resumed
    · rename_i pid
      refine announce_allowed again resumed (fun _ member => member) ?_
      cases pid with
      | none => rfl
      | some pid => exact allowed
    · cases resumed
      exact allowed_silent (respond_silent fun _ => rfl)
  | timeout found waits asked idle =>
    exact ⟨_, _, _, Extends.silent rfl (respond_silent fun _ => rfl) (alike found rfl rfl)⟩
  | send | mail | lose | answer => exact ⟨_, _, _, travel_extends agreed again⟩
  | @returns number response msg asked outside answered =>
    refine ⟨s.packets, .spawner number, response.announcements msg, rfl, trivial,
      fun entry member => .inl ⟨entry, member, rfl, fun _ => rfl⟩, steady same, ?_⟩
    apply announcements_allowed again
    rintro pid members aim rfl
    simpa only [orderly, asked, answered, aim, Option.all_some, Bool.and_eq_true] using allowed
  | expire asked => exact ⟨_, _, _, Extends.quiet (fun entry member => .inl ⟨entry, member, rfl, fun _ => rfl⟩)
      (steady same)⟩
  | stop found => exact ⟨_, _, _, Extends.quiet (fun entry member => .inl ⟨entry, member, rfl, fun _ => rfl⟩)
      (steady (alike found rfl rfl))⟩

theorem initial_agreed (configs : List Config) (hosts : (configs.map (·.host)).Nodup) :
    (initial configs).Agreed where
  hosts := by
    rw [initial_hosts]
    exact hosts
  placed := initial_placed configs
  solid := initial_solid configs
  rivals := by rintro _ ⟨⟩
  outcomes := by
    intro a first b second x
    obtain ⟨config, -, rfl⟩ := List.mem_map.mp first
    obtain ⟨other, -, rfl⟩ := List.mem_map.mp second
    change config.node.agent.activated.get? x = other.node.agent.activated.get? x
    rw [(config_agent config).2, (config_agent other).2]

/-- In every run in which changes are announced to all members and unopposed and nil is not
announced, all agents have the same active actors whenever no message is in flight. -/
theorem maps_agree (configs : List Config) (hosts : (configs.map (·.host)).Nodup) (s : State)
    (reached : Reaches (restrict orderly step) (initial configs) s)
    (quiet : s.packets = []) :
    ∀ a ∈ s.nodes, ∀ b ∈ s.nodes, ∀ x, a.agent.activated.get? x = b.agent.activated.get? x := by
  have agreed : s.Agreed := by
    refine reached.invariant (fun agreed stepped => ?_) (initial_agreed configs hosts)
    obtain ⟨allowed, stepped⟩ := restrict_some stepped
    obtain ⟨_, _, _, extends_⟩ := extends_move agreed (step_move stepped) allowed
    exact extends_.agreed agreed (step_move stepped) (orderly_named allowed)
  intro a first b second x
  have same := agreed.outcomes a first b second x
  rw [quiet] at same
  exact same

/-- An activation, an actor of `Cluster.Spawn` and a deactivation, one after the other. -/
def announcements : List Label :=
  [.activate 0 "k" "1", .handle 0 (pick 0), .move (.outbox 0), .move (.outbox 0), .move (.outbox 0),
    .returns 0, .move (.channel "h:1" "h:2"), .handle 0 (pick 0), .handle 1 (pick 0),
    .spawn 1 "s/1", .handle 1 (pick 0), .move (.outbox 1), .returns 1, .move (.spawner 1),
    .move (.spawner 1), .move (.channel "h:2" "h:1"), .handle 0 (pick 0), .handle 1 (pick 0),
    .deactivate 0 (some ⟨"h:1", "k/1"⟩), .handle 0 (pick 0), .move (.outbox 0), .move (.outbox 0),
    .move (.channel "h:1" "h:2"), .handle 1 (pick 0), .handle 0 (pick 0)]

theorem maps_agree_announcements :
    ∃ s : State, (pair.map (·.host)).Nodup ∧
      Reaches (restrict orderly step) (initial pair) s ∧ s.packets = [] ∧
      s.nodes.map (·.agent.activated.entries) = [[⟨"h:2", "s/1"⟩], [⟨"h:2", "s/1"⟩]] ∧
      ∀ a ∈ s.nodes, ∀ b ∈ s.nodes, ∀ x, a.agent.activated.get? x = b.agent.activated.get? x := by
  obtain ⟨s, reached, ends⟩ := exists_of_run (restrict orderly step) (initial pair)
    announcements (fun s => s.packets = [] ∧
      s.nodes.map (·.agent.activated.entries) = [[⟨"h:2", "s/1"⟩], [⟨"h:2", "s/1"⟩]]) (by decide +kernel)
  obtain ⟨quiet, maps⟩ := of_decide_eq_true ends
  have hosts : (pair.map (·.host)).Nodup := by decide +kernel
  exact ⟨s, hosts, reached, quiet, maps, maps_agree pair hosts s reached quiet⟩

/-- The two activations of one id, with every message handled. -/
def rivalAnnouncements : List Label :=
  rivalActivations ++ [.move (.channel "h:1" "h:2"), .move (.channel "h:2" "h:1"), .handle 0 (pick 0),
    .handle 0 (pick 0), .handle 1 (pick 0), .handle 1 (pick 0)]

theorem rival_announcements_disagree :
    ∃ s : State, Reaches step (initial pair) s ∧ s.packets = [] ∧
      s.nodes.map (·.agent.members.entries) = [(pick 0).order, (pick 0).order] ∧
      s.nodes.map (·.agent.activated.entries) = [[⟨"h:1", "k/1"⟩], [⟨"h:2", "k/1"⟩]] := by
  obtain ⟨s, reached, ends⟩ := exists_of_run step (initial pair) rivalAnnouncements
    (fun s => s.packets = [] ∧ s.nodes.map (·.agent.members.entries) = [(pick 0).order, (pick 0).order] ∧
      s.nodes.map (·.agent.activated.entries) = [[⟨"h:1", "k/1"⟩], [⟨"h:2", "k/1"⟩]]) (by decide +kernel)
  exact ⟨s, reached, of_decide_eq_true ends⟩

end State

end Hollywood.Cluster
