import Hollywood.Cluster.Requests

/-! One actor per id. The check of `Agent.activate` reads the agent's own map,
which learns of an activation only when its broadcast is handled. Where an agent
starts an activation only for an id that no member runs or is asked for, at most
one member runs the id and at most one call is given it. -/
namespace Hollywood.Cluster
open Transition

def Packet.asksFor (packet : Packet) (x : String) : Bool :=
  match packet.msg with
  | .activationRequest kind id => actorID kind id = x
  | _ => false

/-- A PID on its way to a call. -/
def Packet.promises (packet : Packet) (number : Nat) : Bool :=
  match packet.dest, packet.msg with
  | .response reply, .pid (some _) => reply.number = number
  | _, _ => false

/-- The answer to an agent's request that its actor is running. -/
def Packet.confirms (packet : Packet) (number : Nat) : Bool :=
  match packet.dest, packet.msg with
  | .response reply, .activationResponse _ true => reply.number = number
  | _, _ => false

/-- A call of `Activate` that has its PID. -/
def Response.granted (response : Response) : Bool :=
  match response.purpose, response.status with
  | .activate _ _, .answered (.pid (some _)) => true
  | .activate _ _, .closed (some _) => true
  | _, _ => false

def Node.runs (node : Node) (x : String) : Bool := node.actors.contains x

namespace Node
variable {node : Node} {x : String}

theorem spawn_runs (pid : Option PID) (requester : Option Reply) :
    (node.spawn pid requester).runs x = (pid.any (·.id = x) || node.runs x) := by
  cases pid with
  | none => rfl
  | some pid => exact Keyed.contains_add _ _

theorem poison_runs (pid : PID) : (node.poison pid).runs x = node.runs x := by
  unfold poison
  split
  · rename_i actor found
    obtain ⟨-, named⟩ := Keyed.get?_eq_some.mp found
    rw [runs, Keyed.contains_put]
    by_cases same : actor.id = x
    · subst same
      simp [runs, Keyed.contains, named, found]
    · simp [same, runs]
  · rfl

end Node

/-- Handling a message ends no actor. -/
theorem Receives.runs {node : Node} (received : Receives node packet choice number handling)
    (runs : node.runs x = true) : handling.node.runs x = true := by
  cases received with
  | here | request => rw [Node.spawn_runs, runs, Bool.or_true]
  | deactivation => exact (Node.poison_runs _).trans runs
  | _ => exact runs

namespace State
variable {s t : State} {kind id x : String}

/-- No member runs the actor or is asked for it. -/
def unclaimed (s : State) (x : String) : Bool :=
  !(s.packets.any (·.2.asksFor x)) && !(s.nodes.any (·.runs x))

/-- An activation that passes the check of its agent goes ahead only for an id that
is nobody's. There are no deactivations, no changes of membership and no actors but
the activated ones. -/
def unrivalled (s : State) : Label → Bool
  | .handle i choice =>
    match s.nodes[i]?, s.next i with
    | some node, some packet =>
      match packet.msg with
      | .activate kind id =>
        (node.agent.activate kind id choice.selected).isNone ||
          (!id.isEmpty && s.unclaimed (actorID kind id))
      | _ => true
    | _, _ => true
  | .deactivate _ _ | .spawn _ _ | .provide _ _ | .stop _ _ => false
  | .activate _ _ _ | .wake _ _ | .timeout _ | .move _ | .returns _ | .expire _ => true

def Alive (s : State) (x : String) : Prop := ∃ node ∈ s.nodes, node.runs x = true

/-- An agent's request on behalf of a call has been granted. -/
def Won (s : State) (number : Nat) : Prop :=
  ∃ request kind id reply, s.purpose request = some (.activation kind id (some reply)) ∧
    reply.number = number ∧
    ((∃ entry ∈ s.packets, entry.2.confirms request = true) ∨
      ∃ response pid, s.responses[request]? = some response ∧
        response.status = .answered (.activationResponse pid true))

/-- A call has been given a PID, or one is on its way to it. -/
def Got (s : State) (number : Nat) : Prop :=
  (∃ entry ∈ s.packets, entry.2.promises number = true) ∨
    ∃ response, s.responses[number]? = some response ∧ response.granted = true

def load (s : State) (x : String) : Nat :=
  s.packets.countP (·.2.asksFor x) + s.nodes.countP (·.runs x)

structure Exclusive (s : State) : Prop where
  traced : s.Traced
  named : ∀ {entry kind id}, entry ∈ s.packets → entry.2.msg = .activationRequest kind id →
    id.isEmpty = false
  one : ∀ x, s.load x ≤ 1
  backed : ∀ {number kind id}, (s.Won number ∨ s.Got number) →
    s.purpose number = some (.activate kind id) → s.Alive (actorID kind id)
  unique : ∀ {m n kind id kind' id'}, (s.Won m ∨ s.Got m) → (s.Won n ∨ s.Got n) →
    s.purpose m = some (.activate kind id) → s.purpose n = some (.activate kind' id') →
    actorID kind id = actorID kind' id' → m = n

theorem unrivalled_handle (allowed : unrivalled s (.handle i choice) = true)
    (handles : Handles s i node packet) (asks : packet.msg = .activate kind id)
    (chosen : node.agent.activate kind id choice.selected = some member) :
    id.isEmpty = false ∧ s.unclaimed (actorID kind id) = true := by
  simpa [unrivalled, handles.found, handles.head, asks, chosen] using allowed

theorem not_alive_of_unclaimed (free : s.unclaimed x = true) : ¬ s.Alive x := by
  rintro ⟨node, member, runs⟩
  simp only [unclaimed, Bool.and_eq_true, Bool.not_eq_true', List.any_eq_false] at free
  exact free.2 node member runs

theorem load_of_unclaimed (free : s.unclaimed x = true) : s.load x = 0 := by
  simp only [unclaimed, Bool.and_eq_true, Bool.not_eq_true', List.any_eq_false] at free
  rw [load, List.countP_eq_zero.mpr free.1, List.countP_eq_zero.mpr free.2]

theorem alive_move (move : Move s label t) (allowed : unrivalled s label = true)
    (alive : s.Alive x) : t.Alive x := by
  cases move with
  | spawn | stop | deactivate | provide => cases allowed
  | handle found free idle split first received => exact Pool.exists_set found received.runs alive
  | wake found | timeout found =>
    refine Pool.exists_set (P := fun node : Node => node.runs x = true) found ?_ alive
    exact fun runs => runs
  | activate | send | mail | lose | answer | returns | expire => exact alive

/-- What one handled message changes in the load of an id. -/
theorem load_handle (found : s.nodes[i]? = some node)
    (split : s.packets = before ++ (.mailbox i, packet) :: after) (next : Node) (sends : List Packet)
    (nodes : t.nodes = s.nodes.set i next)
    (packets : t.packets = (before ++ after) ++ sends.map fun packet => (.outbox i, packet)) :
    t.load x + (if packet.asksFor x then 1 else 0) + (if node.runs x then 1 else 0) =
      s.load x + sends.countP (·.asksFor x) + (if next.runs x then 1 else 0) := by
  have members := Pool.countP_set (·.runs x) found next
  simp only [load, nodes, packets, split, List.countP_append, List.countP_cons, List.countP_map,
    Function.comp_def] at members ⊢
  omega

theorem asksFor_eq {packet : Packet} :
    packet.asksFor x = true ↔ ∃ kind id, packet.msg = .activationRequest kind id ∧ actorID kind id = x := by
  unfold Packet.asksFor
  constructor
  · intro asks
    split at asks
    · exact ⟨_, _, by assumption, by simpa using asks⟩
    · cases asks
  · rintro ⟨kind, id, msg, rfl⟩
    rw [msg]
    simp

theorem countP_asks {sends : List Packet}
    (plain : ∀ packet ∈ sends, ∀ kind id, packet.msg ≠ .activationRequest kind id) :
    sends.countP (·.asksFor x) = 0 := by
  rw [List.countP_eq_zero]
  intro packet member asks
  obtain ⟨kind, id, msg, -⟩ := asksFor_eq.mp asks
  exact plain packet member kind id msg

theorem handleActivationRequest_eq {a : Agent} (named : id.isEmpty = false)
    (spawned : a.handleActivationRequest kind id drawn = some pid) :
    pid = ⟨a.address, actorID kind id⟩ := by
  simp only [Agent.handleActivationRequest, named, Bool.false_eq_true, if_false] at spawned
  split at spawned
  · cases spawned
    rfl
  · cases spawned

theorem spawned_id {a : Agent} (named : id.isEmpty = false)
    (spawned : (a.handleActivationRequest kind id drawn).any (·.id = x) = true) : actorID kind id = x := by
  cases made : a.handleActivationRequest kind id drawn with
  | none => simp [made] at spawned
  | some pid =>
    rw [made, handleActivationRequest_eq named made] at spawned
    simpa using spawned

/-- Only an activation on another member sends a request. -/
theorem sends_request (sent : Sends s t label p) (request : p.msg = .activationRequest kind id) :
    ∃ i choice node packet chosen, label = .handle i choice ∧ Handles s i node packet ∧
      packet.msg = .activate kind id ∧ node.agent.activate kind id choice.selected = some chosen := by
  cases sent with
  | request handles asks chosen =>
    cases request
    exact ⟨_, _, _, _, _, rfl, handles, asks, chosen⟩
  | _ => cases request

theorem receives_requests {node : Node} (received : Receives node packet choice number handling) :
    (∀ sent ∈ handling.sends, ∀ kind id, sent.msg ≠ .activationRequest kind id) ∨
    ∃ kind id member sent, packet.msg = .activate kind id ∧
      node.agent.activate kind id choice.selected = some member ∧ handling.sends = [sent] ∧
      sent.msg = .activationRequest kind id ∧ ∀ x, handling.node.runs x = node.runs x := by
  cases received with
  | actorTopology | activation | deactivation | ignore | panic => exact .inl (by rintro _ ⟨⟩)
  | members =>
    left
    intro sent member
    obtain ⟨target, msg, effect, rfl⟩ := Node.mem_sendsOf member
    obtain ⟨-, rfl⟩ := Agent.handleMembers_sends effect
    rintro _ _ ⟨⟩
  | refuse | request | getMembers =>
    left
    intro sent member
    obtain ⟨reply, -, rfl⟩ := Node.mem_respond member
    rintro _ _ ⟨⟩
  | here msg chosen near announced =>
    left
    intro sent member
    obtain ⟨-, rfl⟩ := Node.announce_sends announced
    rcases List.mem_append.mp member with told | answered
    · obtain ⟨_, -, rfl⟩ := List.mem_map.mp told
      rintro _ _ ⟨⟩
    · obtain ⟨reply, -, rfl⟩ := Node.mem_respond answered
      rintro _ _ ⟨⟩
  | there msg chosen => exact .inr ⟨_, _, _, _, msg, chosen, rfl, rfl, fun x => rfl⟩
  | deactivate =>
    left
    intro sent member
    obtain ⟨_, -, rfl⟩ := List.mem_map.mp member
    rintro _ _ ⟨⟩

/-- Only an activation on this node starts an actor. -/
theorem receives_spawns {node : Node} (received : Receives node packet choice number handling) :
    (∀ x, handling.node.runs x = node.runs x) ∨
    ∃ kind id,
      ((∃ member, packet.msg = .activate kind id ∧
          node.agent.activate kind id choice.selected = some member) ∨
        packet.msg = .activationRequest kind id) ∧
      ∀ x, handling.node.runs x =
        ((node.agent.handleActivationRequest kind id choice.drawn).any (·.id = x) || node.runs x) := by
  cases received with
  | here msg chosen => exact .inr ⟨_, _, .inl ⟨_, msg, chosen⟩, fun x => Node.spawn_runs _ _⟩
  | request msg => exact .inr ⟨_, _, .inr msg, fun x => Node.spawn_runs _ _⟩
  | deactivation => exact .inl fun x => Node.poison_runs _
  | _ => exact .inl fun x => rfl

/-- The part of the invariant that counts: an id is asked for or run at most once. -/
theorem one_handle (exclusive : s.Exclusive) (allowed : unrivalled s (.handle i choice) = true)
    (handles : Handles s i node packet)
    (split : s.packets = before ++ (.mailbox i, packet) :: after)
    (received : Receives node packet choice s.responses.length handling)
    (nodes : t.nodes = s.nodes.set i handling.node)
    (packets : t.packets = (before ++ after) ++ handling.sends.map fun packet => (.outbox i, packet)) :
    t.load x ≤ 1 := by
  have change := load_handle (x := x) handles.found split handling.node handling.sends nodes packets
  have bound := exclusive.one x
  have free {kind id member} (asks : packet.msg = .activate kind id)
      (chosen : node.agent.activate kind id choice.selected = some member) :=
    unrivalled_handle allowed handles asks chosen
  rcases receives_requests received with plain | ⟨kind, id, member, sent, asks, chosen, single, request, same⟩
  · rw [countP_asks plain] at change
    rcases receives_spawns received with same | ⟨kind, id, cause, spawned⟩
    · rw [same x] at change
      omega
    · rw [spawned x] at change
      cases made : (node.agent.handleActivationRequest kind id choice.drawn).any (·.id = x) with
      | false =>
        rw [made, Bool.false_or] at change
        omega
      | true =>
        rw [made, Bool.true_or, if_pos rfl] at change
        rcases cause with ⟨member, asks, chosen⟩ | asks
        · obtain ⟨named, unclaimed⟩ := free asks chosen
          have none := load_of_unclaimed unclaimed
          rw [spawned_id named made] at none
          omega
        · have named := exclusive.named (Queues.mem_taken split) asks
          rw [if_pos (asksFor_eq.mpr ⟨kind, id, asks, spawned_id named made⟩)] at change
          omega
  · have none := load_of_unclaimed (free asks chosen).2
    rw [single, same x, List.countP_singleton] at change
    by_cases asked : sent.asksFor x = true
    · obtain ⟨_, _, again, rfl⟩ := asksFor_eq.mp asked
      cases request.symm.trans again
      rw [if_pos asked] at change
      omega
    · rw [if_neg asked] at change
      omega

theorem load_post (queue : Queue) {sends : List Packet}
    (plain : ∀ packet ∈ sends, ∀ kind id, packet.msg ≠ .activationRequest kind id) :
    (s.post queue sends).load x = s.load x := by
  have none := countP_asks (x := x) plain
  simp only [load, post, List.countP_append, List.countP_map, Function.comp_def] at none ⊢
  omega

theorem one_move (exclusive : s.Exclusive) (move : Move s label t) (allowed : unrivalled s label = true) :
    t.load x ≤ 1 := by
  have bound := exclusive.one x
  -- An agent that stops waiting runs what it ran before.
  have waited {i : Nat} {node : Node} {responses : List Response} (found : s.nodes[i]? = some node) :
      load { s with nodes := s.nodes.set i { node with waiting := none }, responses } x = s.load x := by
    have members := Pool.countP_set (·.runs x) found { node with waiting := none }
    have same : Node.runs { node with waiting := none } x = node.runs x := rfl
    rw [same] at members
    simp only [load]
    omega
  cases move with
  | spawn | stop | deactivate | provide => cases allowed
  | activate kind id found =>
    refine le_of_eq_of_le (load_post _ ?_ : (s.tell _ _ _ _).load x = _) bound
    intro packet member
    rw [List.mem_singleton] at member
    subst member
    rintro _ _ ⟨⟩
  | handle found free idle split first received =>
    exact one_handle exclusive allowed ⟨found, free, Queues.mem_taken split, next_eq split first⟩ split
      received rfl rfl
  | wake found waits asked answered idle resumed =>
    rw [load_post, waited found]
    · exact bound
    · intro packet member kind id request
      obtain ⟨_, _, _, _, _, ⟨⟩, -⟩ := sends_request
        (resume_sends (t := s) ⟨found, waits, asked⟩ answered resumed member) request
  | timeout found waits asked idle =>
    rw [load_post, waited found]
    · exact bound
    · intro packet member
      obtain ⟨reply, -, rfl⟩ := Node.mem_respond member
      rintro _ _ ⟨⟩
  | send split | mail split =>
    simp only [load, split, List.countP_append, List.countP_cons, List.countP_nil] at bound ⊢
    omega
  | lose split | answer split =>
    simp only [load, split, List.countP_append, List.countP_cons] at bound ⊢
    omega
  | returns asked outside answered =>
    rw [load_post]
    · exact bound
    · intro packet member kind id request
      obtain ⟨_, _, _, _, _, ⟨⟩, -⟩ := sends_request
        (announcements_sends (t := s) asked answered member) request
  | expire => exact bound

theorem named_move (exclusive : s.Exclusive) (move : Move s label t)
    (allowed : unrivalled s label = true) (present : entry ∈ t.packets)
    (request : entry.2.msg = .activationRequest kind id) : id.isEmpty = false := by
  rcases packets_move move entry present with ⟨old, member, same⟩ | sent
  · rw [← same] at request
    exact exclusive.named member request
  · obtain ⟨i, choice, node, packet, member, rfl, handles, asks, chosen⟩ := sends_request sent request
    exact (unrivalled_handle allowed handles asks chosen).1

/-- An activation that succeeds leaves its actor running. -/
theorem alive_spawned {node : Node} (found : s.nodes[i]? = some node) (named : id.isEmpty = false)
    (made : node.agent.handleActivationRequest kind id drawn = some pid)
    (nodes : t.nodes = s.nodes.set i (node.spawn (some pid) requester)) :
    t.Alive (actorID kind id) := by
  refine ⟨_, nodes ▸ List.mem_set (List.getElem?_eq_some_iff.mp found).1 _, ?_⟩
  rw [Node.spawn_runs, handleActivationRequest_eq named made]
  simp

theorem promises_eq {packet : Packet} :
    packet.promises number = true ↔
      ∃ reply pid, packet.dest = .response reply ∧ packet.msg = .pid (some pid) ∧
        reply.number = number := by
  unfold Packet.promises
  constructor
  · intro promised
    split at promised
    · exact ⟨_, _, by assumption, by assumption, by simpa using promised⟩
    · cases promised
  · rintro ⟨reply, pid, target, msg, rfl⟩
    rw [target, msg]
    simp

theorem granted_eq {response : Response} :
    response.granted = true ↔ ∃ kind id pid, response.purpose = .activate kind id ∧
      (response.status = .answered (.pid (some pid)) ∨ response.status = .closed (some pid)) := by
  unfold Response.granted
  constructor
  · intro granted
    split at granted
    · exact ⟨_, _, _, by assumption, .inl (by assumption)⟩
    · exact ⟨_, _, _, by assumption, .inr (by assumption)⟩
    · cases granted
  · rintro ⟨kind, id, pid, aim, answered | closed⟩
    · rw [aim, answered]
    · rw [aim, closed]

theorem confirms_eq {packet : Packet} :
    packet.confirms number = true ↔
      ∃ reply pid, packet.dest = .response reply ∧ packet.msg = .activationResponse pid true ∧
        reply.number = number := by
  unfold Packet.confirms
  constructor
  · intro confirmed
    split at confirmed
    · exact ⟨_, _, by assumption, by assumption, by simpa using confirmed⟩
    · cases confirmed
  · rintro ⟨reply, pid, target, msg, rfl⟩
    rw [target, msg]
    simp

/-- Only calls of `Activate` hold an activation. -/
theorem holder_purpose (traced : s.Traced) (holds : s.Won number ∨ s.Got number) :
    ∃ kind id, s.purpose number = some (.activate kind id) := by
  rcases holds with ⟨request, kind, id, reply, known, rfl, -⟩ | promised | granted
  · obtain ⟨_, ⟨⟩, origin⟩ := traced.callers known
    exact ⟨kind, id, origin⟩
  · obtain ⟨entry, present, promised⟩ := promised
    obtain ⟨reply, pid, target, tells, rfl⟩ := promises_eq.mp promised
    obtain ⟨_, kind, id, same, known⟩ := traced.pid present tells
    cases target.symm.trans same
    exact ⟨kind, id, known⟩
  · obtain ⟨response, found, granted⟩ := granted
    obtain ⟨kind, id, -, aim, -⟩ := granted_eq.mp granted
    exact ⟨kind, id, purpose_eq.mpr ⟨response, found, aim⟩⟩

/-- The message that an agent handles spawns the actor for this call. -/
inductive Orders (s : State) (packet : Packet) (kind id : String) : Nat → Prop where
  | activate : packet.msg = .activate kind id → packet.sender = some reply →
      Orders s packet kind id reply.number
  | request : packet.msg = .activationRequest kind id → packet.sender = some request →
      s.purpose request.number = some (.activation kind id (some reply)) →
      Orders s packet kind id reply.number

theorem Orders.unique {kind' id' : String} (first : Orders s packet kind id m)
    (second : Orders s packet kind' id' n) : m = n := by
  cases first with
  | activate asks sender =>
    cases second with
    | activate asks' sender' =>
      cases sender.symm.trans sender'
      rfl
    | request asks' => cases asks.symm.trans asks'
  | request asks sender known =>
    cases second with
    | activate asks' => cases asks.symm.trans asks'
    | request asks' sender' known' =>
      cases sender.symm.trans sender'
      cases known.symm.trans known'
      rfl

/-- The call whose actor starts with the step, on an id that nobody ran. -/
def Newcomer (s t : State) (label : Label) (number : Nat) : Prop :=
  ∃ i choice node packet kind id, label = .handle i choice ∧ Handles s i node packet ∧
    Orders s packet kind id number ∧ s.purpose number = some (.activate kind id) ∧
    ¬ s.Alive (actorID kind id) ∧ t.Alive (actorID kind id)

theorem newcomer_unique (first : Newcomer s t label m) (second : Newcomer s t label n) : m = n := by
  obtain ⟨i, choice, node, packet, _, _, rfl, handles, orders, -⟩ := first
  obtain ⟨_, _, _, _, _, _, ⟨⟩, again, orders', -⟩ := second
  cases handles.head.symm.trans again.head
  exact orders.unique orders'

/-- While an id is asked for, nobody runs it. -/
theorem not_alive_of_asked (exclusive : s.Exclusive) (present : entry ∈ s.packets)
    (asks : entry.2.msg = .activationRequest kind id) : ¬ s.Alive (actorID kind id) := by
  rintro ⟨node, member, runs⟩
  have asked : 0 < s.packets.countP (·.2.asksFor (actorID kind id)) :=
    List.countP_pos_iff.mpr ⟨entry, present, asksFor_eq.mpr ⟨kind, id, asks, rfl⟩⟩
  have running : 0 < s.nodes.countP (·.runs (actorID kind id)) :=
    List.countP_pos_iff.mpr ⟨node, member, runs⟩
  have bound := exclusive.one (actorID kind id)
  rw [load] at bound
  omega

theorem won_move (exclusive : s.Exclusive) (move : Move s label t) (holds : t.Won number) :
    s.Won number ∨ Newcomer s t label number := by
  obtain ⟨request, kind, id, reply, known, rfl, ⟨entry, present, confirmed⟩ | answered⟩ := holds
  · obtain ⟨address, pid, target, tells, rfl⟩ := confirms_eq.mp confirmed
    rcases packets_move move entry present with ⟨old, member, same⟩ | sent
    · rw [← same] at confirmed tells target
      obtain ⟨_, _, _, _, again, before⟩ := exclusive.traced.response member tells
      cases target.symm.trans again
      cases known.symm.trans (purpose_move move before)
      exact .inl ⟨_, kind, id, reply, before, rfl, .inl ⟨old, member, confirmed⟩⟩
    · generalize entry.2 = p at sent tells target
      cases sent with
      | response handles asks nodes sender =>
        cases target
        obtain ⟨_, _, same, before⟩ := exclusive.traced.request handles.present asks
        cases sender.symm.trans same
        cases known.symm.trans (purpose_move move before)
        obtain ⟨_, ⟨⟩, origin⟩ := exclusive.traced.callers before
        obtain ⟨-, granted⟩ := Message.activationResponse.inj tells
        obtain ⟨spawned, made⟩ := Option.isSome_iff_exists.mp granted
        rw [made] at nodes
        exact .inr ⟨_, _, _, _, kind, id, rfl, handles, .request asks sender before, origin,
          not_alive_of_asked exclusive handles.present asks,
          alive_spawned handles.found (exclusive.named handles.present asks) made nodes⟩
      | _ => cases tells
  · obtain ⟨response, pid, found, answered⟩ := answered
    obtain ⟨_, again, aim⟩ := purpose_eq.mp known
    cases found.symm.trans again
    left
    cases responses_move move found with
    | same old =>
      exact ⟨request, kind, id, reply, purpose_eq.mpr ⟨_, old, aim⟩, rfl,
        .inr ⟨_, pid, old, answered⟩⟩
    | answer old present target same pending =>
      exact ⟨_, kind, id, reply, purpose_eq.mpr ⟨_, old, aim⟩, rfl,
        .inl ⟨_, present, confirms_eq.mpr ⟨_, pid, target, Status.answered.inj answered, same⟩⟩⟩
    | activate | spawn | request | settle | close => cases answered

/-- A PID goes to a call whose request was granted or whose actor starts now. -/
theorem sends_pid (exclusive : s.Exclusive) (allowed : unrivalled s label = true)
    (sent : Sends s t label p) (target : p.dest = .response reply) (tells : p.msg = .pid (some pid)) :
    s.Won reply.number ∨ Newcomer s t label reply.number := by
  cases sent with
  | grant handles asks chosen near nodes sender =>
    cases target
    have made := Message.pid.inj tells
    rw [made] at nodes
    obtain ⟨named, free⟩ := unrivalled_handle allowed handles asks chosen
    obtain ⟨_, same, known⟩ := exclusive.traced.activate handles.present asks
    cases sender.symm.trans same
    exact .inr ⟨_, _, _, _, _, _, rfl, handles, .activate asks sender, known,
      not_alive_of_unclaimed free, alive_spawned handles.found named made nodes⟩
  | resumeGrant waited answered caller =>
    cases target
    obtain ⟨kind, id, aim, -⟩ := exclusive.traced.caller waited.asked caller
    exact .inl ⟨_, kind, id, _, purpose_eq.mpr ⟨_, waited.asked, aim⟩, rfl,
      .inr ⟨_, _, waited.asked, answered⟩⟩
  | _ => cases tells

theorem got_move (exclusive : s.Exclusive) (move : Move s label t)
    (allowed : unrivalled s label = true) (holds : t.Got number) :
    s.Got number ∨ s.Won number ∨ Newcomer s t label number := by
  rcases holds with ⟨entry, present, promised⟩ | ⟨response, found, granted⟩
  · rcases packets_move move entry present with ⟨old, member, same⟩ | sent
    · rw [← same] at promised
      exact .inl (.inl ⟨old, member, promised⟩)
    · obtain ⟨reply, pid, target, tells, rfl⟩ := promises_eq.mp promised
      exact .inr (sends_pid exclusive allowed sent target tells)
  · obtain ⟨kind, id, pid, aim, status⟩ := granted_eq.mp granted
    left
    cases responses_move move found with
    | same old => exact .inr ⟨_, old, granted⟩
    | answer old present target same pending =>
      rcases status with answered | closed
      · exact .inl ⟨_, present, promises_eq.mpr ⟨_, _, target, Status.answered.inj answered, same⟩⟩
      · cases closed
    | settle old answered outside =>
      rcases status with again | closed
      · cases again
      · have returned := Status.closed.inj closed
        simp only [Response.returned] at returned aim
        rw [aim] at returned
        split at returned
        · subst returned
          exact .inr ⟨_, old, granted_eq.mpr ⟨kind, id, pid, aim, .inl answered⟩⟩
        · cases returned
    | activate | spawn | request | close => rcases status with ⟨⟨⟩⟩ | ⟨⟨⟩⟩

/-- A call that holds an activation held it before, or its actor starts now. -/
theorem holder_move (exclusive : s.Exclusive) (move : Move s label t)
    (allowed : unrivalled s label = true) (holds : t.Won number ∨ t.Got number) :
    (s.Won number ∨ s.Got number) ∨ Newcomer s t label number := by
  rcases holds with won | got
  · exact (won_move exclusive move won).imp_left .inl
  · rcases got_move exclusive move allowed got with before | won | new
    · exact .inl (.inr before)
    · exact .inl (.inl won)
    · exact .inr new

theorem backed_move (exclusive : s.Exclusive) (move : Move s label t)
    (allowed : unrivalled s label = true) (holds : t.Won number ∨ t.Got number)
    (known : t.purpose number = some (.activate kind id)) : t.Alive (actorID kind id) := by
  rcases holder_move exclusive move allowed holds with
    older | ⟨_, _, _, _, _, _, -, -, -, before, -, alive⟩
  · obtain ⟨_, _, before⟩ := holder_purpose exclusive.traced older
    cases known.symm.trans (purpose_move move before)
    exact alive_move move allowed (exclusive.backed older before)
  · cases known.symm.trans (purpose_move move before)
    exact alive

theorem unique_move (exclusive : s.Exclusive) (move : Move s label t)
    (allowed : unrivalled s label = true) {kind' id' : String}
    (first : t.Won m ∨ t.Got m) (second : t.Won n ∨ t.Got n)
    (aim : t.purpose m = some (.activate kind id)) (aim' : t.purpose n = some (.activate kind' id'))
    (same : actorID kind id = actorID kind' id') : m = n := by
  -- A newcomer's id was run by nobody, so no older call holds it.
  have apart {m n : Nat} {kind id kind' id' : String} (older : s.Won m ∨ s.Got m)
      (newer : Newcomer s t label n) (aim : t.purpose m = some (.activate kind id))
      (aim' : t.purpose n = some (.activate kind' id')) (same : actorID kind id = actorID kind' id') :
      False := by
    obtain ⟨_, _, _, _, _, _, -, -, -, known, idle, -⟩ := newer
    obtain ⟨_, _, before⟩ := holder_purpose exclusive.traced older
    cases aim.symm.trans (purpose_move move before)
    cases aim'.symm.trans (purpose_move move known)
    rw [← same] at idle
    exact idle (exclusive.backed older before)
  rcases holder_move exclusive move allowed first with older | newer <;>
    rcases holder_move exclusive move allowed second with older' | newer'
  · obtain ⟨_, _, before⟩ := holder_purpose exclusive.traced older
    obtain ⟨_, _, before'⟩ := holder_purpose exclusive.traced older'
    cases aim.symm.trans (purpose_move move before)
    cases aim'.symm.trans (purpose_move move before')
    exact exclusive.unique older older' before before' same
  · exact (apart older newer' aim aim' same).elim
  · exact (apart older' newer aim' aim same.symm).elim
  · exact newcomer_unique newer newer'

theorem exclusive_move (exclusive : s.Exclusive) (move : Move s label t)
    (allowed : unrivalled s label = true) : t.Exclusive where
  traced := traced_move exclusive.traced move
  named := named_move exclusive move allowed
  one _ := one_move exclusive move allowed
  backed := backed_move exclusive move allowed
  unique := unique_move exclusive move allowed

theorem initial_exclusive (configs : List Config) : (initial configs).Exclusive where
  traced := initial_traced configs
  named := by rintro _ _ _ ⟨⟩
  one x := by
    have none : (initial configs).nodes.countP (·.runs x) = 0 := by
      rw [List.countP_eq_zero]
      intro node member
      obtain ⟨config, -, rfl⟩ := List.mem_map.mp member
      rintro ⟨⟩
    rw [load, none]
    exact Nat.zero_le 1
  backed := by rintro _ _ _ - ⟨⟩
  unique := by rintro _ _ _ _ _ _ - - ⟨⟩

/-- In every run in which an activation that passes its agent's check finds the id
unclaimed, no two members run actors with the same id, and no two calls of
`Activate` for one kind and id return a PID. -/
theorem one_actor_per_id (configs : List Config) (s : State)
    (reached : Reaches (restrict unrivalled step) (initial configs) s) :
    (∀ (i j : Nat) (a b : Node) (x : String), s.nodes[i]? = some a → s.nodes[j]? = some b →
      a.actors.contains x = true → b.actors.contains x = true → i = j) ∧
    ∀ (m n : Nat) (host host' kind id : String) (p q : PID),
      s.responses[m]? = some ⟨host, .activate kind id, .closed (some p)⟩ →
      s.responses[n]? = some ⟨host', .activate kind id, .closed (some q)⟩ → m = n := by
  have exclusive : s.Exclusive := reached.invariant
    (fun exclusive stepped => exclusive_move exclusive (step_move (restrict_some stepped).2)
      (restrict_some stepped).1)
    (initial_exclusive configs)
  constructor
  · intro i j a b x first second runs runs'
    have few : s.nodes.countP (·.runs x) ≤ 1 := (Nat.le_add_left _ _).trans (exclusive.one x)
    exact Pool.index_unique few first second runs runs'
  · intro m n host host' kind id p q first second
    have got {n : Nat} {host : String} {p : PID}
        (found : s.responses[n]? = some ⟨host, .activate kind id, .closed (some p)⟩) : s.Got n :=
      .inr ⟨_, found, granted_eq.mpr ⟨kind, id, p, rfl, .inr rfl⟩⟩
    exact exclusive.unique (.inr (got first)) (.inr (got second))
      (purpose_eq.mpr ⟨_, first, rfl⟩) (purpose_eq.mpr ⟨_, second, rfl⟩) rfl

/-- Two members that know each other and offer the same kind. -/
def pair : List Config :=
  let members : List Member := [⟨"h:1", "A", "default", ["k"]⟩, ⟨"h:2", "B", "default", ["k"]⟩]
  [⟨"h:1", "A", ["k"], members⟩, ⟨"h:2", "B", ["k"], members⟩]

/-- The choice of a member by its position. -/
def pick (i : Nat) : Choice :=
  let members : List Member := [⟨"h:1", "A", "default", ["k"]⟩, ⟨"h:2", "B", "default", ["k"]⟩]
  ⟨members[i]?, "", members⟩

/-- The first member activates an actor on the second one; a later call on the second
member is refused. -/
def remoteActivation : List Label :=
  [.activate 0 "k" "1", .handle 0 (pick 1), .move (.outbox 0), .move (.channel "h:1" "h:2"),
    .handle 1 (pick 0), .move (.outbox 1), .move (.channel "h:2" "h:1"), .wake 0 (pick 0).order,
    .move (.outbox 0), .move (.outbox 0), .move (.outbox 0), .returns 0,
    .move (.channel "h:1" "h:2"), .handle 1 (pick 0), .activate 1 "k" "1", .handle 1 (pick 1),
    .move (.outbox 1), .returns 2]

theorem one_actor_per_id_remote :
    ∃ s : State, Reaches (restrict unrivalled step) (initial pair) s ∧
      s.nodes.map (·.actors.contains "k/1") = [false, true] ∧
      (∀ (i j : Nat) (a b : Node) (x : String), s.nodes[i]? = some a → s.nodes[j]? = some b →
        a.actors.contains x = true → b.actors.contains x = true → i = j) ∧
      ∀ (m n : Nat) (host host' kind id : String) (p q : PID),
        s.responses[m]? = some ⟨host, .activate kind id, .closed (some p)⟩ →
        s.responses[n]? = some ⟨host', .activate kind id, .closed (some q)⟩ → m = n := by
  obtain ⟨s, reached, ends⟩ := exists_of_run (restrict unrivalled step)
    (initial pair) remoteActivation (fun s => s.nodes.map (·.actors.contains "k/1") = [false, true])
    (by decide +kernel)
  exact ⟨s, reached, of_decide_eq_true ends, one_actor_per_id pair s reached⟩

/-- Each member activates the actor on itself before it has heard of the other. -/
def rivalActivations : List Label :=
  [.activate 0 "k" "1", .activate 1 "k" "1", .handle 0 (pick 0), .handle 1 (pick 1),
    .move (.outbox 0), .move (.outbox 0), .move (.outbox 0), .move (.outbox 1), .move (.outbox 1),
    .move (.outbox 1), .returns 0, .returns 1]

theorem rival_activations_both_succeed :
    ∃ s : State, Reaches step (initial pair) s ∧
      s.nodes.map (·.actors.contains "k/1") = [true, true] ∧
      s.responses = [⟨"h:1", .activate "k" "1", .closed (some ⟨"h:1", "k/1"⟩)⟩,
        ⟨"h:2", .activate "k" "1", .closed (some ⟨"h:2", "k/1"⟩)⟩] := by
  obtain ⟨s, reached, ends⟩ := exists_of_run step (initial pair) rivalActivations
    (fun s => s.nodes.map (·.actors.contains "k/1") = [true, true] ∧
      s.responses = [⟨"h:1", .activate "k" "1", .closed (some ⟨"h:1", "k/1"⟩)⟩,
        ⟨"h:2", .activate "k" "1", .closed (some ⟨"h:2", "k/1"⟩)⟩]) (by decide +kernel)
  exact ⟨s, reached, of_decide_eq_true ends⟩

end State

end Hollywood.Cluster
