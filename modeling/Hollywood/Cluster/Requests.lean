import Hollywood.Cluster.Network

/-! Whose packet a packet is. In every run of a cluster, a message that asks for an
activation, or answers one, belongs to a request that was made for that kind and
id, and every activation on another member was asked for by a call of `Activate`. -/
namespace Hollywood.Cluster

/-- The message names nil for an actor. -/
def Message.hollow : Message → Bool
  | .activationResponse actor success => success && actor.isNone
  | msg => msg.fatal

namespace Node
variable {node : Node} {packet : Packet}

theorem mem_respond (sent : packet ∈ node.respond sender msg) :
    ∃ reply, sender = some reply ∧ packet = ⟨node.host, .response reply, none, msg⟩ := by
  cases sender with
  | none => cases sent
  | some reply =>
    simp only [respond, Option.toList_some, List.map_cons, List.map_nil, List.mem_singleton] at sent
    exact ⟨reply, rfl, sent⟩

theorem mem_sendsOf (sent : packet ∈ node.sendsOf effects) :
    ∃ target msg, .send target msg ∈ effects ∧ packet = node.send target msg := by
  obtain ⟨effect, member, made⟩ := List.mem_filterMap.mp sent
  cases effect with
  | send target msg =>
    cases made
    exact ⟨target, msg, member, rfl⟩
  | poison pid | event event => cases made

theorem spawn_waiting (pid : Option PID) (requester : Option Reply) :
    (node.spawn pid requester).waiting = node.waiting := by
  cases pid <;> rfl

theorem poison_waiting (pid : PID) : (node.poison pid).waiting = node.waiting := by
  unfold poison
  split <;> rfl

/-- The actor that the handling of a message spawns. -/
def spawns (node : Node) (packet : Packet) (choice : Choice) : Option PID :=
  match packet.msg with
  | .activate kind id =>
    match node.agent.activate kind id choice.selected with
    | some member =>
      if member.host = node.host then node.agent.handleActivationRequest kind id choice.drawn else none
    | none => none
  | .activationRequest kind id => node.agent.handleActivationRequest kind id choice.drawn
  | _ => none

/-- The handling of a message announces nil: the function that selects a member returns one
on this engine, which does not have the kind, or nil is to be deactivated. -/
def announcesNil (node : Node) (packet : Packet) (choice : Choice) : Bool :=
  match packet.msg with
  | .activate kind id =>
    (node.agent.activate kind id choice.selected).any fun member =>
      member.host = node.host && (node.agent.handleActivationRequest kind id choice.drawn).isNone
  | .deactivate pid => pid.isNone
  | _ => false

theorem spawn_agent (pid : Option PID) (requester : Option Reply) :
    (node.spawn pid requester).agent = node.agent := by
  cases pid <;> rfl

end Node

/-- A node keeps its PID. -/
theorem Receives.pid {node : Node} (received : Receives node packet choice number handling) :
    handling.node.pid = node.pid := by
  have kept {next : Node} (id : next.id = node.id) (address : next.agent.address = node.agent.address) :
      next.pid = node.pid := by
    rw [Node.pid, Node.pid, Node.host, Node.host, id, address]
  cases received with
  | actorTopology _ handled => exact kept rfl (Agent.handleActorTopology_address handled)
  | members => exact kept rfl (Agent.handleMembers_address _ _)
  | here | request =>
    apply kept
    · cases node.agent.handleActivationRequest _ _ _ <;> rfl
    · rw [Node.spawn_agent]
  | deactivation =>
    apply kept
    · unfold Node.poison
      split <;> rfl
    · rfl
  | activation | refuse | there | deactivate | getMembers | ignore | panic => rfl

theorem Agent.handleActivationRequest_address {a : Agent} {id : String}
    (made : a.handleActivationRequest kind id drawn = some pid) : pid.address = a.address := by
  unfold Agent.handleActivationRequest at made
  split at made
  · cases made
    rfl
  · cases made

theorem Node.spawns_address {node : Node} {pid : PID} (spawns : node.spawns packet choice = some pid) :
    pid.address = node.host := by
  unfold Node.spawns at spawns
  split at spawns
  · split at spawns
    · split at spawns
      · exact Agent.handleActivationRequest_address spawns
      · cases spawns
    · cases spawns
  · exact Agent.handleActivationRequest_address spawns
  · cases spawns

/-- The actors of a node after a message were there, or one of them is spawned. -/
theorem Receives.actors {node : Node} (received : Receives node packet choice number handling)
    (present : actor ∈ handling.node.actors.entries) :
    (∃ old ∈ node.actors.entries, old.id = actor.id ∧ old.requester = actor.requester) ∨
      ∃ pid, node.spawns packet choice = some pid ∧ actor = ⟨pid.id, packet.sender, false⟩ := by
  have made {kind id : String}
      (spawns : node.spawns packet choice = node.agent.handleActivationRequest kind id choice.drawn)
      (present : actor ∈ (node.spawn (node.agent.handleActivationRequest kind id choice.drawn)
        packet.sender).actors.entries) :
      (∃ old ∈ node.actors.entries, old.id = actor.id ∧ old.requester = actor.requester) ∨
        ∃ pid, node.spawns packet choice = some pid ∧ actor = ⟨pid.id, packet.sender, false⟩ := by
    rw [← spawns] at present
    cases spawned : node.spawns packet choice with
    | none => exact .inl ⟨actor, by simpa [spawned, Node.spawn] using present, rfl, rfl⟩
    | some pid =>
      rw [spawned] at present
      rcases Keyed.mem_add present with old | new
      · exact .inl ⟨actor, old, rfl, rfl⟩
      · exact .inr ⟨pid, rfl, new⟩
  cases received with
  | here msg chosen near => exact made (by simp [Node.spawns, msg, chosen, near]) present
  | request msg => exact made (by simp [Node.spawns, msg]) present
  | @deactivation pid msg =>
    left
    change actor ∈ (node.poison pid).actors.entries at present
    unfold Node.poison at present
    split at present
    · rename_i old found
      rcases Keyed.mem_put.mp present with rfl | ⟨kept, -⟩
      · exact ⟨old, (Keyed.get?_eq_some.mp found).1, rfl, rfl⟩
      · exact ⟨actor, kept, rfl, rfl⟩
    · exact ⟨actor, present, rfl, rfl⟩
  | _ => exact .inl ⟨actor, present, rfl, rfl⟩

namespace Agent

theorem joins_sends {a : Agent} {joining : List Member}
    (sent : .send target msg ∈ (forEach memberJoin a joining).2) : msg = .actorTopology a.actorInfos := by
  induction joining generalizing a with
  | nil => cases sent
  | cons member rest ih =>
    rcases List.mem_append.mp sent with now | later
    · rcases List.mem_append.mp now with topology | event
      · split at topology
        · cases topology
        · simp only [List.mem_singleton, Effect.send.injEq] at topology
          exact topology.2
      · simp at event
    · have told := ih later
      exact told

theorem leaves_sends {a : Agent} {leaving : List Member} :
    .send target msg ∉ (forEach memberLeave a leaving).2 := by
  induction leaving generalizing a with
  | nil => rintro ⟨⟩
  | cons member rest ih =>
    intro sent
    rcases List.mem_append.mp sent with now | later
    · simp [memberLeave] at now
    · exact ih later

/-- An agent tells its map to new members and sends nothing else. -/
theorem handleMembers_sends {a : Agent} {members : List Member}
    (sent : .send target msg ∈ (a.handleMembers members).2) :
    a.joined members ≠ [] ∧ msg = .actorTopology a.actorInfos := by
  rcases List.mem_append.mp sent with join | leave
  · refine ⟨?_, joins_sends join⟩
    intro none
    rw [none] at join
    cases join
  · exact absurd leave leaves_sends

end Agent

namespace State

/-- The agent of a node is about to handle a packet. -/
structure Handles (s : State) (i : Nat) (node : Node) (packet : Packet) : Prop where
  found : s.nodes[i]? = some node
  free : node.waiting = none
  present : (.mailbox i, packet) ∈ s.packets
  head : s.next i = some packet

/-- The agent of a node waits for the answer to a request. -/
structure Waited (s : State) (i : Nat) (node : Node) (number : Nat) (response : Response) : Prop where
  found : s.nodes[i]? = some node
  waits : node.waiting = some number
  asked : s.responses[number]? = some response

theorem pids_move {s t : State} (move : Move s label t) :
    t.nodes.map Node.pid = s.nodes.map Node.pid := by
  cases move with
  | spawn id found | stop found | wake found | timeout found => exact Pool.map_set Node.pid found rfl
  | handle found free idle split first received => exact Pool.map_set Node.pid found received.pid
  | activate | deactivate | provide | send | mail | lose | answer | returns | expire => rfl

theorem pid_at {s t : State} {node : Node} {j : Nat} (move : Move s label t)
    (found : t.nodes[j]? = some node) : ∃ before, s.nodes[j]? = some before ∧ before.pid = node.pid := by
  have same := congrArg (·[j]?) (pids_move move)
  simp only [List.getElem?_map, found, Option.map_some] at same
  exact Option.map_eq_some_iff.mp same.symm

/-- On distinct hosts, two nodes with one agent PID are the same node. -/
theorem node_unique {s : State} {a b : Node} {i j : Nat} (hosts : (s.nodes.map (·.host)).Nodup)
    (first : s.nodes[i]? = some a) (second : s.nodes[j]? = some b) (same : a.pid = b.pid) : i = j := by
  have host : a.host = b.host := congrArg PID.address same
  refine (List.getElem?_inj ?_ hosts).mp ?_
  · simpa using (List.getElem?_eq_some_iff.mp first).1
  · simp [first, second, host]

/-- The packets that a step makes, those it only moves apart. -/
inductive Sends (s t : State) : Label → Packet → Prop where
  | activate (kind id) : s.nodes[i]? = some node →
      t.responses = s.responses ++ [⟨node.host, .activate kind id, .pending⟩] →
      Sends s t (.activate i kind id)
        ⟨node.host, .agent node.pid, some ⟨node.host, s.responses.length⟩, .activate kind id⟩
  | deactivate (pid) : s.nodes[i]? = some node →
      Sends s t (.deactivate i pid) ⟨node.host, .agent node.pid, none, .deactivate pid⟩
  | spawn (id) : s.nodes[i]? = some node →
      Sends s t (.spawn i id)
        ⟨node.host, .agent node.pid, some ⟨node.host, s.responses.length⟩, .getMembers⟩
  | provide (members) : s.nodes[i]? = some node →
      Sends s t (.provide i members) ⟨node.host, .agent node.pid, none, .members members⟩
  | topology : Handles s i node packet → packet.msg = .members members →
      Sends s t (.handle i choice) (node.send target (.actorTopology node.agent.actorInfos))
  | refuse {id : String} : Handles s i node packet → packet.msg = .activate kind id →
      node.agent.activate kind id choice.selected = none → packet.sender = some reply →
      Sends s t (.handle i choice) ⟨node.host, .response reply, none, .pid none⟩
  | tell {id : String} : Handles s i node packet → packet.msg = .activate kind id →
      node.agent.activate kind id choice.selected = some chosen → chosen.host = node.host →
      t.nodes = s.nodes.set i
        (node.spawn (node.agent.handleActivationRequest kind id choice.drawn) packet.sender) →
      member ∈ node.agent.members.entries →
      Sends s t (.handle i choice) (node.send member.pid
        (.activation (node.agent.handleActivationRequest kind id choice.drawn)))
  | grant {id : String} : Handles s i node packet → packet.msg = .activate kind id →
      node.agent.activate kind id choice.selected = some chosen → chosen.host = node.host →
      t.nodes = s.nodes.set i
        (node.spawn (node.agent.handleActivationRequest kind id choice.drawn) packet.sender) →
      packet.sender = some reply →
      Sends s t (.handle i choice) ⟨node.host, .response reply, none,
        .pid (node.agent.handleActivationRequest kind id choice.drawn)⟩
  | request {id : String} : Handles s i node packet → packet.msg = .activate kind id →
      node.agent.activate kind id choice.selected = some chosen → chosen.host ≠ node.host →
      t.responses = s.responses ++ [⟨node.host, .activation kind id packet.sender, .pending⟩] →
      Sends s t (.handle i choice) ⟨node.host, .agent chosen.pid,
        some ⟨node.host, s.responses.length⟩, .activationRequest kind id⟩
  | deactivation : Handles s i node packet → packet.msg = .deactivate pid →
      member ∈ node.agent.members.entries →
      Sends s t (.handle i choice) (node.send member.pid (.deactivation pid))
  | response {id : String} : Handles s i node packet → packet.msg = .activationRequest kind id →
      t.nodes = s.nodes.set i
        (node.spawn (node.agent.handleActivationRequest kind id choice.drawn) packet.sender) →
      packet.sender = some reply →
      Sends s t (.handle i choice) ⟨node.host, .response reply, none,
        .activationResponse (node.agent.handleActivationRequest kind id choice.drawn)
          (node.agent.handleActivationRequest kind id choice.drawn).isSome⟩
  | slice : Handles s i node packet → packet.msg = .getMembers → packet.sender = some reply →
      Sends s t (.handle i choice)
        ⟨node.host, .response reply, none, .slice node.agent.members.entries⟩
  | resumeTell : Waited s i node number response →
      response.status = .answered (.activationResponse pid true) →
      member ∈ node.agent.members.entries →
      Sends s t (.wake i order) (node.send member.pid (.activation pid))
  | resumeGrant : Waited s i node number response →
      response.status = .answered (.activationResponse pid true) → response.caller = some reply →
      Sends s t (.wake i order) ⟨node.host, .response reply, none, .pid pid⟩
  | resumeFail : Waited s i node number response → response.caller = some reply →
      Sends s t (.wake i order) ⟨node.host, .response reply, none, .pid none⟩
  | timeout : Waited s i node number response → response.caller = some reply →
      Sends s t (.timeout i) ⟨node.host, .response reply, none, .pid none⟩
  | announce : s.responses[number]? = some response → response.purpose = .spawn pid →
      response.status = .answered (.slice members) → member ∈ members →
      Sends s t (.returns number) ⟨response.host, .agent member.pid, none, .activation (some pid)⟩

theorem receives_sends {s t : State} {node : Node} (handles : Handles s i node packet)
    (received : Receives node packet choice s.responses.length handling)
    (nodes : t.nodes = s.nodes.set i handling.node) (asked : t.responses = s.responses ++ handling.asks)
    (sent : p ∈ handling.sends) : Sends s t (.handle i choice) p := by
  cases received with
  | actorTopology | activation | deactivation | ignore | panic => cases sent
  | members msg =>
    obtain ⟨target, told, effect, rfl⟩ := Node.mem_sendsOf sent
    obtain ⟨-, rfl⟩ := Agent.handleMembers_sends effect
    exact .topology handles msg
  | refuse msg refused =>
    obtain ⟨reply, sender, rfl⟩ := Node.mem_respond sent
    exact .refuse handles msg refused sender
  | here msg chosen near announced =>
    obtain ⟨every, rfl⟩ := Node.announce_sends announced
    rcases List.mem_append.mp sent with told | answered
    · obtain ⟨member, inside, rfl⟩ := List.mem_map.mp told
      exact .tell handles msg chosen near nodes (every.mem_iff.mp inside)
    · obtain ⟨reply, sender, rfl⟩ := Node.mem_respond answered
      exact .grant handles msg chosen near nodes sender
  | there msg chosen far =>
    rw [List.mem_singleton] at sent
    subst sent
    exact .request handles msg chosen far asked
  | deactivate msg every =>
    obtain ⟨member, inside, rfl⟩ := List.mem_map.mp sent
    exact .deactivation handles msg (every.mem_iff.mp inside)
  | request msg =>
    obtain ⟨reply, sender, rfl⟩ := Node.mem_respond sent
    exact .response handles msg nodes sender
  | getMembers msg =>
    obtain ⟨reply, sender, rfl⟩ := Node.mem_respond sent
    exact .slice handles msg sender

theorem resume_sends {s t : State} {node : Node} {response : Response}
    (waited : Waited s i node number response) (answered : response.status = .answered msg)
    (resumed : node.resume order msg response.caller = some sends) (sent : p ∈ sends) :
    Sends s t (.wake i order) p := by
  unfold Node.resume at resumed
  split at resumed
  · obtain ⟨every, rfl⟩ := Node.announce_sends resumed
    rcases List.mem_append.mp sent with told | granted
    · obtain ⟨member, inside, rfl⟩ := List.mem_map.mp told
      exact .resumeTell waited answered (every.mem_iff.mp inside)
    · obtain ⟨reply, caller, rfl⟩ := Node.mem_respond granted
      exact .resumeGrant waited answered caller
  · cases resumed
    obtain ⟨reply, caller, rfl⟩ := Node.mem_respond sent
    exact .resumeFail waited caller

theorem announcements_sends {s t : State} {response : Response}
    (asked : s.responses[number]? = some response) (answered : response.status = .answered msg)
    (sent : p ∈ response.announcements msg) : Sends s t (.returns number) p := by
  unfold Response.announcements at sent
  split at sent
  · obtain ⟨member, inside, rfl⟩ := List.mem_map.mp sent
    exact .announce asked (by assumption) answered inside
  · cases sent

theorem mem_post {s : State} {queue : Queue} {packets : List Packet} :
    entry ∈ (s.post queue packets).packets ↔
      entry ∈ s.packets ∨ entry.1 = queue ∧ entry.2 ∈ packets := by
  rw [post, List.mem_append, List.mem_map]
  constructor
  · rintro (old | ⟨packet, member, rfl⟩)
    · exact .inl old
    · exact .inr ⟨rfl, member⟩
  · rintro (old | ⟨rfl, member⟩)
    · exact .inl old
    · exact .inr ⟨entry.2, member, rfl⟩

/-- A packet in flight was so before, or is one that the step sends. -/
theorem packets_move {s t : State} (move : Move s label t) (entry : Queue × Packet)
    (present : entry ∈ t.packets) :
    (∃ old ∈ s.packets, old.2 = entry.2) ∨ Sends s t label entry.2 := by
  cases move with
  | activate kind id found | deactivate pid found | spawn id found | provide members found =>
    rcases mem_post.mp present with old | ⟨-, new⟩
    · exact .inl ⟨entry, old, rfl⟩
    · rw [List.mem_singleton] at new
      rw [new]
      first
      | exact .inr (.activate kind id found rfl)
      | exact .inr (.deactivate pid found)
      | exact .inr (.spawn id found)
      | exact .inr (.provide members found)
  | handle found free idle split first received =>
    rcases List.mem_append.mp present with old | new
    · exact .inl ⟨entry, Queues.mem_left split old, rfl⟩
    · obtain ⟨sent, member, rfl⟩ := List.mem_map.mp new
      exact .inr (receives_sends ⟨found, free, Queues.mem_taken split, next_eq split first⟩
        received rfl rfl member)
  | wake found waits asked answered idle resumed =>
    rcases mem_post.mp present with old | ⟨-, new⟩
    · exact .inl ⟨entry, old, rfl⟩
    · exact .inr (resume_sends ⟨found, waits, asked⟩ answered resumed new)
  | timeout found waits asked idle =>
    rcases mem_post.mp present with old | ⟨-, new⟩
    · exact .inl ⟨entry, old, rfl⟩
    · obtain ⟨reply, caller, same⟩ := Node.mem_respond new
      rw [same]
      exact .inr (.timeout ⟨found, waits, asked⟩ caller)
  | send split | mail split =>
    rcases List.mem_append.mp present with old | new
    · exact .inl ⟨entry, Queues.mem_left split old, rfl⟩
    · rw [List.mem_singleton] at new
      rw [new]
      exact .inl ⟨_, Queues.mem_taken split, rfl⟩
  | lose split | answer split => exact .inl ⟨entry, Queues.mem_left split present, rfl⟩
  | returns asked outside answered =>
    rcases mem_post.mp present with old | ⟨-, new⟩
    · exact .inl ⟨entry, old, rfl⟩
    · exact .inr (announcements_sends asked answered new)
  | expire | stop => exact .inl ⟨entry, present, rfl⟩

/-- A packet in a mailbox is for its agent, and one between two engines comes from the
one and goes to the other. -/
structure Placed (s : State) : Prop where
  addressed : ∀ {i packet}, (.mailbox i, packet) ∈ s.packets →
    ∃ node, s.nodes[i]? = some node ∧ packet.dest = .agent node.pid
  channels : ∀ {source target packet}, (.channel source target, packet) ∈ s.packets →
    packet.source = source ∧ packet.dest.host = target ∧ source ≠ target

/-- Where a packet is after a step: where it was, or where it is put. -/
inductive Comes (s : State) : Queue → Packet → Prop where
  | stays : (queue, packet) ∈ s.packets → Comes s queue packet
  | unsent : Unsent queue → Comes s queue packet
  | mail : s.nodes[i]? = some node → packet.dest = .agent node.pid → Comes s (.mailbox i) packet
  | send : packet.dest.host ≠ packet.source → Comes s (.channel packet.source packet.dest.host) packet

theorem comes_move {s t : State} (move : Move s label t) (present : (queue, packet) ∈ t.packets) :
    Comes s queue packet := by
  cases move with
  | activate _ _ found | deactivate _ found | spawn _ found | provide _ found =>
    rcases mem_post.mp present with old | ⟨rfl, new⟩
    · exact .stays old
    · rw [List.mem_singleton] at new
      cases new
      exact .mail found rfl
  | handle found free idle split =>
    rcases List.mem_append.mp present with old | new
    · exact .stays (Queues.mem_left split old)
    · obtain ⟨_, -, same⟩ := List.mem_map.mp new
      cases same
      exact .unsent trivial
  | wake | timeout | returns =>
    rcases mem_post.mp present with old | ⟨rfl, -⟩
    · exact .stays old
    · exact .unsent trivial
  | send split first unsent apart =>
    rcases List.mem_append.mp present with old | new
    · exact .stays (Queues.mem_left split old)
    · rw [List.mem_singleton] at new
      cases new
      exact .send apart
  | mail split first arrives target found =>
    rcases List.mem_append.mp present with old | new
    · exact .stays (Queues.mem_left split old)
    · rw [List.mem_singleton] at new
      cases new
      obtain ⟨inside, same, -⟩ := List.findIdx?_eq_some_iff_getElem.mp found
      exact .mail (List.getElem?_eq_getElem inside) (by rw [target, of_decide_eq_true same])
  | lose split | answer split => exact .stays (Queues.mem_left split present)
  | expire | stop => exact .stays present

theorem placed_move {s t : State} (placed : s.Placed) (move : Move s label t) : t.Placed where
  addressed := by
    intro i packet present
    obtain ⟨node, found, target⟩ : ∃ node, s.nodes[i]? = some node ∧ packet.dest = .agent node.pid := by
      cases comes_move move present with
      | stays old => exact placed.addressed old
      | unsent unsent => cases unsent
      | mail found target => exact ⟨_, found, target⟩
    have same := congrArg (·[i]?) (pids_move move)
    simp only [List.getElem?_map, found, Option.map_some] at same
    obtain ⟨after, there, kept⟩ := Option.map_eq_some_iff.mp same
    exact ⟨after, there, by rw [target, kept]⟩
  channels := by
    intro source target packet present
    cases comes_move move present with
    | stays old => exact placed.channels old
    | unsent unsent => cases unsent
    | send apart => exact ⟨rfl, rfl, Ne.symm apart⟩

theorem initial_placed (configs : List Config) : (initial configs).Placed where
  addressed := by rintro _ _ ⟨⟩
  channels := by rintro _ _ _ ⟨⟩

/-- A packet leaves for good: it is handled, it is a dead letter, or it is an answer. -/
inductive Leaves (s t : State) : Label → Packet → Prop where
  | handle : Handles s i node packet → Receives node packet choice s.responses.length handling →
      t.nodes = s.nodes.set i handling.node → Leaves s t (.handle i choice) packet
  | lose : packet.dest = .agent pid → (∀ node ∈ s.nodes, node.pid ≠ pid) → Leaves s t (.move queue) packet
  | answer : packet.dest = .response reply →
      t.responses = s.responses.modify reply.number (·.answer packet.msg) →
      Leaves s t (.move queue) packet

/-- A packet stays in flight until it leaves for good. -/
theorem packets_stay {s t : State} (move : Move s label t) (present : entry ∈ s.packets) :
    (∃ new ∈ t.packets, new.2 = entry.2) ∨ Leaves s t label entry.2 := by
  cases move with
  | activate | deactivate | spawn | provide | wake | timeout | returns =>
    exact .inl ⟨entry, mem_post.mpr (.inl present), rfl⟩
  | handle found free idle split first received =>
    rcases Queues.mem_cases split present with rfl | kept
    · exact .inr (.handle ⟨found, free, present, next_eq split first⟩ received rfl)
    · exact .inl ⟨entry, List.mem_append_left _ kept, rfl⟩
  | send split | mail split =>
    rcases Queues.mem_cases split present with rfl | kept
    · exact .inl ⟨_, List.mem_append_right _ List.mem_cons_self, rfl⟩
    · exact .inl ⟨entry, List.mem_append_left _ kept, rfl⟩
  | lose split first arrives target missing =>
    rcases Queues.mem_cases split present with rfl | kept
    · exact .inr (.lose target (by simpa [List.findIdx?_eq_none_iff] using missing))
    · exact .inl ⟨entry, kept, rfl⟩
  | answer split first arrives target =>
    rcases Queues.mem_cases split present with rfl | kept
    · exact .inr (.answer target rfl)
    · exact .inl ⟨entry, kept, rfl⟩
  | expire | stop => exact .inl ⟨entry, present, rfl⟩

/-- What the request with this number was made for. -/
def purpose (s : State) (number : Nat) : Option Purpose := (s.responses[number]?).map (·.purpose)

theorem purpose_eq {s : State} {number : Nat} {aim : Purpose} :
    s.purpose number = some aim ↔
      ∃ response, s.responses[number]? = some response ∧ response.purpose = aim :=
  Option.map_eq_some_iff

/-- A response after a step: it is new, or it was there with the same purpose. -/
inductive Becomes (s : State) : Label → Nat → Response → Prop where
  | same : s.responses[number]? = some response → Becomes s label number response
  | activate (kind id) : s.nodes[i]? = some node →
      Becomes s (.activate i kind id) s.responses.length ⟨node.host, .activate kind id, .pending⟩
  | spawn (id) : s.nodes[i]? = some node →
      Becomes s (.spawn i id) s.responses.length ⟨node.host, .spawn ⟨node.host, id⟩, .pending⟩
  | request {id : String} : Handles s i node packet → packet.msg = .activate kind id →
      node.agent.activate kind id choice.selected = some chosen →
      Becomes s (.handle i choice) s.responses.length
        ⟨node.host, .activation kind id packet.sender, .pending⟩
  | answer : s.responses[number]? = some response → (queue, packet) ∈ s.packets →
      packet.dest = .response reply → reply.number = number → response.status = .pending →
      Becomes s (.move queue) number { response with status := .answered packet.msg }
  | settle : s.responses[number]? = some response → response.status = .answered msg →
      response.ofAgent = false →
      Becomes s (.returns number) number { response with status := .closed (response.returned msg) }
  | close : s.responses[number]? = some response →
      Becomes s label number { response with status := .closed none }

theorem getElem?_set_cases {items : List α} {i j : Nat} {new item : α}
    (found : (items.set i new)[j]? = some item) :
    (i = j ∧ item = new) ∨ (i ≠ j ∧ items[j]? = some item) := by
  rw [List.getElem?_set] at found
  split at found
  · split at found
    · cases found
      exact .inl ⟨by assumption, rfl⟩
    · cases found
  · exact .inr ⟨by assumption, found⟩

theorem getElem?_snoc_cases {items : List α} {i : Nat} {new item : α}
    (found : (items ++ [new])[i]? = some item) :
    items[i]? = some item ∨ (i = items.length ∧ item = new) := by
  rw [List.getElem?_append] at found
  split at found
  · exact .inl found
  · rw [List.getElem?_singleton] at found
    split at found
    · cases found
      exact .inr ⟨by omega, rfl⟩
    · cases found

theorem responses_move {s t : State} (move : Move s label t)
    (found : t.responses[number]? = some response) : Becomes s label number response := by
  cases move with
  | activate kind id node =>
    rcases getElem?_snoc_cases found with old | ⟨rfl, rfl⟩
    · exact .same old
    · exact .activate kind id node
  | spawn id node =>
    rcases getElem?_snoc_cases found with old | ⟨rfl, rfl⟩
    · exact .same old
    · exact .spawn id node
  | handle node free idle split first received =>
    cases received with
    | there msg chosen =>
      rcases getElem?_snoc_cases found with old | ⟨rfl, rfl⟩
      · exact .same old
      · exact .request ⟨node, free, Queues.mem_taken split, next_eq split first⟩ msg chosen
    | _ =>
      rw [List.append_nil] at found
      exact .same found
  | wake node waits asked =>
    rcases getElem?_set_cases found with ⟨rfl, rfl⟩ | ⟨-, old⟩
    · exact .close asked
    · exact .same old
  | timeout node waits asked =>
    rcases getElem?_set_cases found with ⟨rfl, rfl⟩ | ⟨-, old⟩
    · exact .close asked
    · exact .same old
  | @answer before queue packet after reply split first arrives target =>
    change (s.responses.modify reply.number (·.answer packet.msg))[number]? = some response at found
    rw [List.getElem?_modify] at found
    obtain ⟨old, present, changed⟩ := Option.map_eq_some_iff.mp found
    split at changed
    · rename_i same
      unfold Response.answer at changed
      split at changed
      · rename_i pending
        subst changed
        exact .answer present (Queues.mem_taken split) target same pending
      · subst changed
        exact .same present
    · cases changed
      exact .same present
  | returns asked outside answered =>
    rcases getElem?_set_cases found with ⟨rfl, rfl⟩ | ⟨-, old⟩
    · exact .settle asked answered outside
    · exact .same old
  | expire asked outside open_ =>
    rcases getElem?_set_cases found with ⟨rfl, rfl⟩ | ⟨-, old⟩
    · exact .close asked
    · exact .same old
  | deactivate | provide | send | mail | lose | stop => exact .same found

/-! Nil is announced only by an agent that is misled, and only what is announced makes an
agent panic. -/

/-- No agent announces nil. -/
def named (s : State) : Label → Bool
  | .handle i choice =>
    match s.nodes[i]?, s.next i with
    | some node, some packet => !node.announcesNil packet choice
    | _, _ => true
  | _ => true

/-- No message under way names nil for an actor. -/
structure Solid (s : State) : Prop where
  packets : ∀ entry ∈ s.packets, entry.2.msg.hollow = false
  answers : ∀ {number : Nat} {response : Response} {msg}, s.responses[number]? = some response →
    response.status = .answered msg → msg.hollow = false

theorem Solid.sends {s t : State} (solid : s.Solid) (allowed : s.named label = true) (sent : Sends s t label p) :
    p.msg.hollow = false := by
  cases sent with
  | topology => simp [Node.send, Message.hollow, Message.fatal, Agent.actorInfos]
  | tell handles asks chosen near =>
    simp only [named, handles.found, handles.head, Node.announcesNil, asks, chosen, near, Option.any_some,
      decide_true, Bool.true_and, Bool.not_eq_true'] at allowed
    exact allowed
  | deactivation handles asks =>
    simp only [named, handles.found, handles.head, Node.announcesNil, asks, Bool.not_eq_true'] at allowed
    exact allowed
  | @response i node packet kind reply choice id =>
    cases made : node.agent.handleActivationRequest kind id choice.drawn <;> rfl
  | resumeTell waited answered =>
    have granted := solid.answers waited.asked answered
    exact granted
  | _ => rfl

theorem Solid.move {s t : State} (solid : s.Solid) (allowed : s.named label = true) (move : Move s label t) :
    t.Solid where
  packets := by
    intro entry present
    rcases packets_move move entry present with ⟨old, member, same⟩ | sent
    · rw [← same]
      exact solid.packets old member
    · exact solid.sends allowed sent
  answers := by
    intro number response msg found answered
    cases responses_move move found with
    | same old => exact solid.answers old answered
    | answer old present =>
      cases answered
      exact solid.packets _ present
    | activate | spawn | request | settle | close => cases answered

/-- An agent that is told of no nil goes on. -/
theorem Solid.fatal {s : State} (solid : s.Solid) (present : entry ∈ s.packets) : entry.2.msg.fatal = false := by
  have solid := solid.packets entry present
  cases msg : entry.2.msg with
  | activation | deactivation | actorTopology =>
    rw [msg] at solid
    exact solid
  | _ => rfl

theorem initial_solid (configs : List Config) : (initial configs).Solid where
  packets := by rintro _ ⟨⟩
  answers := by rintro _ _ _ ⟨⟩

theorem responses_length {s t : State} (move : Move s label t) :
    s.responses.length ≤ t.responses.length := by
  cases move with
  | activate | spawn | handle => simp [tell, ask, post]
  | wake | timeout | returns | expire => simp [post]
  | answer => simp
  | deactivate | provide | send | mail | lose | stop => exact le_rfl

theorem Becomes.purpose {s : State} (becomes : Becomes s label number response)
    (old : s.responses[number]? = some before) : response.purpose = before.purpose := by
  have inside : number < s.responses.length := (List.getElem?_eq_some_iff.mp old).1
  cases becomes with
  | same found | answer found | settle found | close found =>
    rw [found] at old
    cases old
    rfl
  | activate | spawn | request => omega

/-- Requests stay what they were made for. -/
theorem purpose_move {s t : State} (move : Move s label t) (known : s.purpose number = some aim) :
    t.purpose number = some aim := by
  obtain ⟨before, found, rfl⟩ := purpose_eq.mp known
  have inside : number < t.responses.length :=
    lt_of_lt_of_le (List.getElem?_eq_some_iff.mp found).1 (responses_length move)
  have after := List.getElem?_eq_getElem inside
  exact purpose_eq.mpr ⟨_, after, (responses_move move after).purpose found⟩

theorem purpose_new {s t : State} (asked : t.responses = s.responses ++ [⟨host, aim, status⟩]) :
    t.purpose s.responses.length = some aim := by
  rw [State.purpose, asked, List.getElem?_concat_length]
  rfl

end State

/-- A packet belongs to a request that was made for what the packet says. -/
def Packet.Traced (purpose : Nat → Option Purpose) (packet : Packet) : Prop :=
  match packet.msg with
  | .activate kind id => ∃ reply, packet.sender = some reply ∧ purpose reply.number = some (.activate kind id)
  | .activationRequest kind id =>
    ∃ reply caller, packet.sender = some reply ∧ purpose reply.number = some (.activation kind id caller)
  | .activationResponse _ _ =>
    ∃ reply kind id caller, packet.dest = .response reply ∧
      purpose reply.number = some (.activation kind id caller)
  | .pid _ => ∃ reply kind id, packet.dest = .response reply ∧ purpose reply.number = some (.activate kind id)
  | _ => True

theorem Packet.Traced.mono {packet : Packet} {purpose wider : Nat → Option Purpose}
    (traced : packet.Traced purpose)
    (extends_ : ∀ number aim, purpose number = some aim → wider number = some aim) :
    packet.Traced wider := by
  unfold Traced at traced ⊢
  split at traced
  · obtain ⟨reply, sender, known⟩ := traced
    exact ⟨reply, sender, extends_ _ _ known⟩
  · obtain ⟨reply, caller, sender, known⟩ := traced
    exact ⟨reply, caller, sender, extends_ _ _ known⟩
  · obtain ⟨reply, kind, id, caller, target, known⟩ := traced
    exact ⟨reply, kind, id, caller, target, extends_ _ _ known⟩
  · obtain ⟨reply, kind, id, target, known⟩ := traced
    exact ⟨reply, kind, id, target, extends_ _ _ known⟩
  · trivial

namespace State
variable {s t : State} {kind id : String}

structure Traced (s : State) : Prop where
  waiting : ∀ {node number}, node ∈ s.nodes → node.waiting = some number →
    ∃ kind id caller, s.purpose number = some (.activation kind id caller)
  packets : ∀ entry ∈ s.packets, entry.2.Traced s.purpose
  callers : ∀ {number kind id caller}, s.purpose number = some (.activation kind id caller) →
    ∃ origin, caller = some origin ∧ s.purpose origin.number = some (.activate kind id)

theorem Traced.activate (traced : s.Traced) (present : entry ∈ s.packets)
    (asks : entry.2.msg = .activate kind id) :
    ∃ reply, entry.2.sender = some reply ∧ s.purpose reply.number = some (.activate kind id) := by
  have packet := traced.packets entry present
  rwa [Packet.Traced, asks] at packet

theorem Traced.request (traced : s.Traced) (present : entry ∈ s.packets)
    (asks : entry.2.msg = .activationRequest kind id) :
    ∃ reply caller, entry.2.sender = some reply ∧
      s.purpose reply.number = some (.activation kind id caller) := by
  have packet := traced.packets entry present
  rwa [Packet.Traced, asks] at packet

theorem Traced.response (traced : s.Traced) (present : entry ∈ s.packets)
    (tells : entry.2.msg = .activationResponse pid success) :
    ∃ reply kind id caller, entry.2.dest = .response reply ∧
      s.purpose reply.number = some (.activation kind id caller) := by
  have packet := traced.packets entry present
  rwa [Packet.Traced, tells] at packet

theorem Traced.pid (traced : s.Traced) (present : entry ∈ s.packets)
    (tells : entry.2.msg = .pid answer) :
    ∃ reply kind id, entry.2.dest = .response reply ∧ s.purpose reply.number = some (.activate kind id) := by
  have packet := traced.packets entry present
  rwa [Packet.Traced, tells] at packet

theorem caller_eq {response : Response} {origin : Reply}
    (caller : response.caller = some origin) :
    ∃ kind id, response.purpose = .activation kind id (some origin) := by
  unfold Response.caller at caller
  split at caller
  · subst caller
    exact ⟨_, _, by assumption⟩
  · cases caller
  · cases caller

/-- An answer goes to a call of `Activate`. -/
theorem Traced.caller {response : Response} {origin : Reply} {number : Nat} (traced : s.Traced) (asked : s.responses[number]? = some response)
    (caller : response.caller = some origin) :
    ∃ kind id, response.purpose = .activation kind id (some origin) ∧
      s.purpose origin.number = some (.activate kind id) := by
  obtain ⟨kind, id, aim⟩ := caller_eq caller
  have known : s.purpose number = some (.activation kind id (some origin)) :=
    purpose_eq.mpr ⟨response, asked, aim⟩
  obtain ⟨_, ⟨⟩, origin⟩ := traced.callers known
  exact ⟨kind, id, aim, origin⟩

theorem sends_traced (traced : s.Traced) (move : Move s label t) (sent : Sends s t label p) :
    p.Traced t.purpose := by
  have caller {number : Nat} {response : Response} {reply : Reply}
      (asked : s.responses[number]? = some response) (caller : response.caller = some reply) :
      ∃ kind id, t.purpose reply.number = some (.activate kind id) := by
    obtain ⟨kind, id, -, known⟩ := traced.caller asked caller
    exact ⟨kind, id, purpose_move move known⟩
  cases sent with
  | activate kind id found asked => exact ⟨_, rfl, purpose_new asked⟩
  | deactivate | spawn | provide | topology | tell | deactivation | slice | resumeTell | announce => trivial
  | refuse handles msg refused sender =>
    obtain ⟨_, same, known⟩ := traced.activate handles.present msg
    cases sender.symm.trans same
    exact ⟨_, _, _, rfl, purpose_move move known⟩
  | grant handles msg chosen near nodes sender =>
    obtain ⟨_, same, known⟩ := traced.activate handles.present msg
    cases sender.symm.trans same
    exact ⟨_, _, _, rfl, purpose_move move known⟩
  | request handles msg chosen far asked => exact ⟨_, _, rfl, purpose_new asked⟩
  | response handles msg nodes sender =>
    obtain ⟨_, from_, same, known⟩ := traced.request handles.present msg
    cases sender.symm.trans same
    exact ⟨_, _, _, from_, rfl, purpose_move move known⟩
  | resumeGrant waited answered asked =>
    obtain ⟨kind, id, known⟩ := caller waited.asked asked
    exact ⟨_, kind, id, rfl, known⟩
  | resumeFail waited asked | timeout waited asked =>
    obtain ⟨kind, id, known⟩ := caller waited.asked asked
    exact ⟨_, kind, id, rfl, known⟩

/-- An agent that waits after a step waited before, or has just made its request. -/
theorem waiting_move {number : Nat} (move : Move s label t) (member : node ∈ t.nodes)
    (waits : node.waiting = some number) :
    (∃ old ∈ s.nodes, old.waiting = some number) ∨
    ∃ i choice before packet kind id chosen, label = .handle i choice ∧ Handles s i before packet ∧
      packet.msg = .activate kind id ∧
      before.agent.activate kind id choice.selected = some chosen ∧
      t.purpose number = some (.activation kind id packet.sender) := by
  have stays {i : Nat} {old next : Node} (found : s.nodes[i]? = some old)
      (member : node ∈ s.nodes.set i next) (same : next.waiting = some number → old.waiting = some number) :
      ∃ old ∈ s.nodes, old.waiting = some number := by
    rcases List.mem_or_eq_of_mem_set member with kept | rfl
    · exact ⟨node, kept, waits⟩
    · exact ⟨old, List.mem_of_getElem? found, same waits⟩
  cases move with
  | spawn _ found => exact .inl (stays found member fun waits => waits)
  | stop found => exact .inl (stays found member fun waits => waits)
  | wake found | timeout found => exact .inl (stays found member (by rintro ⟨⟩))
  | handle found free idle split first received =>
    cases received with
    | there msg chosen far =>
      rcases List.mem_or_eq_of_mem_set member with kept | rfl
      · exact .inl ⟨node, kept, waits⟩
      · cases waits
        exact .inr ⟨_, _, _, _, _, _, _, rfl,
          ⟨found, free, Queues.mem_taken split, next_eq split first⟩, msg, chosen, purpose_new rfl⟩
    | deactivation =>
      refine .inl (stays found member ?_)
      intro waits
      rwa [Node.poison_waiting] at waits
    | here | request =>
      refine .inl (stays found member ?_)
      intro waits
      rwa [Node.spawn_waiting] at waits
    | _ => exact .inl (stays found member fun waits => waits)
  | activate | deactivate | provide | send | mail | lose | answer | returns | expire =>
    exact .inl ⟨node, member, waits⟩

theorem traced_move (traced : s.Traced) (move : Move s label t) : t.Traced where
  waiting := by
    intro node number member waits
    rcases waiting_move move member waits with
      ⟨old, kept, same⟩ | ⟨_, _, _, _, kind, id, _, -, -, -, -, known⟩
    · obtain ⟨kind, id, caller, known⟩ := traced.waiting kept same
      exact ⟨kind, id, caller, purpose_move move known⟩
    · exact ⟨kind, id, _, known⟩
  packets := by
    intro entry present
    rcases packets_move move entry present with ⟨old, member, same⟩ | sent
    · rw [← same]
      exact (traced.packets old member).mono fun number aim => purpose_move move
    · exact sends_traced traced move sent
  callers := by
    intro number kind id caller known
    obtain ⟨response, found, aim⟩ := purpose_eq.mp known
    have early {before : Response} (old : s.responses[number]? = some before)
        (aim : before.purpose = .activation kind id caller) :
        ∃ origin, caller = some origin ∧ t.purpose origin.number = some (.activate kind id) := by
      obtain ⟨origin, rfl, asked⟩ := traced.callers (purpose_eq.mpr ⟨before, old, aim⟩)
      exact ⟨origin, rfl, purpose_move move asked⟩
    cases responses_move move found with
    | same old | answer old | settle old | close old => exact early old aim
    | activate | spawn => cases aim
    | request handles msg =>
      cases aim
      obtain ⟨origin, sender, asked⟩ := traced.activate handles.present msg
      exact ⟨origin, sender, purpose_move move asked⟩

theorem initial_traced (configs : List Config) : (initial configs).Traced where
  waiting := by
    intro node number member waits
    obtain ⟨config, -, rfl⟩ := List.mem_map.mp member
    cases waits
  packets := by rintro _ ⟨⟩
  callers := by rintro _ _ _ _ ⟨⟩

theorem config_agent (config : Config) :
    config.node.agent.address = config.host ∧ config.node.agent.activated = .empty := by
  have join (a : Agent) (member : Member) (holds : a.address = config.host ∧ a.activated = .empty) :
      (a.memberJoin member).1.address = config.host ∧ (a.memberJoin member).1.activated = .empty := holds
  have leave (a : Agent) (member : Member) (holds : a.address = config.host ∧ a.activated = .empty) :
      (a.memberLeave member).1.address = config.host ∧ (a.memberLeave member).1.activated = .empty := by
    refine ⟨holds.1, ?_⟩
    rw [Agent.memberLeave, holds.2]
    rfl
  exact Agent.forEach_keeps leave _ (Agent.forEach_keeps join _ ⟨rfl, rfl⟩)

theorem initial_hosts (configs : List Config) : (initial configs).nodes.map (·.host) = configs.map (·.host) := by
  rw [initial, List.map_map]
  exact List.map_congr_left fun config _ => (config_agent config).1

end State

end Hollywood.Cluster
