import Hollywood.Cluster.Agreement
import Hollywood.Cluster.Totality
import Hollywood.Foundation.Inevitable
import Mathlib.Algebra.Order.BigOperators.Group.List
import Mathlib.Algebra.Order.Group.Nat

/-! Whether a cluster settles. A message that is handled may make others, but they are
nearer to the end: `activate` may make a request, whose answer makes the announcements, and
these make none. How many there are depends on how many members an agent knows, which only
an update of the members raises: an agent that is restarted knows none. -/
namespace Hollywood.Cluster
open Transition

/-- No call is made on a node, and its provider is silent. -/
def Label.moves : Label → Prop
  | .handle _ _ | .wake _ _ | .timeout _ | .move _ | .returns _ | .expire _ | .stop _ _ => True
  | .activate _ _ _ | .deactivate _ _ | .spawn _ _ | .provide _ _ => False

/-! The work of a cluster, where an agent knows at most a number of members. -/

def Queue.ahead : Queue → Nat
  | .outbox _ | .spawner _ => 3
  | .channel _ _ => 2
  | .mailbox _ => 1

/-- What is made of a message once it has arrived. -/
def Message.load (size : Nat) : Message → Nat
  | .activate _ _ => 3 * size + 10
  | .deactivate _ => 4 * size
  | .deactivation _ => 1
  | .activationRequest _ _ => 3
  | .getMembers => 3 * size + 3
  | .slice listed => 3 * listed.length
  | .actorTopology _ | .members _ | .activation _ | .activationResponse _ _ | .pid _ => 0

def Message.isMembers : Message → Bool
  | .members _ => true
  | _ => false

/-- The requests of agents count with the agents. -/
def Response.load (response : Response) : Nat :=
  match response.ofAgent, response.status with
  | false, .pending => 1
  | false, .answered msg => 1 + 3 * (response.announcements msg).length
  | _, _ => 0

namespace Node

def dying (node : Node) : Nat := node.actors.entries.countP (·.poisoned)

/-- An agent that waits has the announcements of an activation still to make. -/
def load (size : Nat) (node : Node) : Nat := (if node.waiting.isSome then 3 * size + 4 else 0) + node.dying

theorem dying_poison (node : Node) (pid : PID) : (node.poison pid).dying ≤ node.dying + 1 := by
  unfold poison
  split
  · rename_i actor found
    simp only [dying, Keyed.put, List.countP_append, List.countP_singleton]
    have fewer : (node.actors.erase actor.id).entries.countP (·.poisoned) ≤ node.actors.entries.countP (·.poisoned) :=
      List.filter_sublist.countP_le
    exact Nat.add_le_add fewer (by decide)
  · exact Nat.le_succ _

theorem dying_spawn (node : Node) (pid : Option PID) (requester : Option Reply) :
    (node.spawn pid requester).dying ≤ node.dying := by
  cases pid with
  | none => exact Nat.le_refl _
  | some pid =>
    simp only [spawn, dying, Keyed.add]
    split
    · exact Nat.le_refl _
    · simp only [Keyed.put, List.countP_append, List.countP_singleton]
      exact List.filter_sublist.countP_le

theorem dying_erase {node : Node} {actor : LocalActor} {id : String} (found : node.actors.get? id = some actor)
    (poisoned : actor.poisoned = true) :
    dying { node with actors := node.actors.erase id } < node.dying := by
  obtain ⟨member, rfl⟩ := Keyed.get?_eq_some.mp found
  have parts := List.countP_eq_countP_filter_add node.actors.entries (·.poisoned) fun other => other.id ≠ actor.id
  have gone : 0 < (node.actors.entries.filter fun other => !decide (other.id ≠ actor.id)).countP (·.poisoned) :=
    List.countP_pos_iff.mpr ⟨actor, List.mem_filter.mpr ⟨member, by simp⟩, poisoned⟩
  simp only [dying, Keyed.erase, Keyed.filter]
  omega

end Node

def Packet.out (size : Nat) (packet : Packet) : Nat := 3 + packet.msg.load size

theorem respond_out (size : Nat) (node : Node) (sender : Option Reply) (msg : Message) :
    ((node.respond sender msg).map (Packet.out size)).sum ≤ 3 + msg.load size := by
  cases sender with
  | none => exact Nat.zero_le _
  | some reply => simp [Node.respond, Packet.out]

/-- One packet for each of some members. -/
theorem each_out (size load : Nat) (members : List Member) {packet : Member → Packet}
    (same : ∀ member, (packet member).msg.load size = load) :
    ((members.map packet).map (Packet.out size)).sum = members.length * (3 + load) := by
  have each : (members.map packet).map (Packet.out size) = .replicate members.length (3 + load) := by
    rw [List.map_map, List.eq_replicate_iff, List.length_map]
    refine ⟨rfl, fun weight member => ?_⟩
    obtain ⟨listed, -, rfl⟩ := List.mem_map.mp member
    exact congrArg (3 + ·) (same listed)
  rw [each, List.sum_replicate_nat]

theorem told_out (size : Nat) (node : Node) (order : List Member) (msg : Message) :
    ((order.map fun member => node.send member.pid msg).map (Packet.out size)).sum =
      order.length * (3 + msg.load size) :=
  each_out size _ order fun _ => rfl

theorem announcements_out (size : Nat) (response : Response) (msg : Message) :
    ((response.announcements msg).map (Packet.out size)).sum = 3 * (response.announcements msg).length := by
  unfold Response.announcements
  split
  · rw [each_out size 0 _ fun _ => rfl, List.length_map, Nat.mul_comm]
  · rfl

theorem announce_out {node : Node} {size : Nat} {pid : Option PID} (few : node.agent.members.entries.length ≤ size)
    (announced : node.announce order pid caller = some sends) : (sends.map (Packet.out size)).sum ≤ 3 * size + 3 := by
  obtain ⟨every, rfl⟩ := Node.announce_sends announced
  have answer := respond_out size node caller (.pid pid)
  rw [List.map_append, List.sum_append, told_out, every.length_eq]
  simp only [Message.load] at answer ⊢
  omega

/-- A message other than an update of the members makes less than it was. -/
theorem Receives.lighter {node : Node} {size : Nat} (few : node.agent.members.entries.length ≤ size)
    (free : node.waiting = none) (received : Receives node packet choice number handling)
    (plain : packet.msg.isMembers = false) :
    (handling.sends.map (Packet.out size)).sum + handling.node.load size <
      1 + packet.msg.load size + node.load size := by
  have free_ {other : Node} (waiting : other.waiting = none) : other.load size = other.dying := by
    simp [Node.load, waiting]
  -- all but a request to another member leave the agent free
  have freed {sends : List Packet} {after : Node} (waiting : after.waiting = none)
      (less : (sends.map (Packet.out size)).sum + after.dying < 1 + packet.msg.load size + node.dying) :
      (sends.map (Packet.out size)).sum + after.load size < 1 + packet.msg.load size + node.load size := by
    rwa [free_ waiting, free_ free]
  have silent {after : Node} (same : after.dying = node.dying) :
      (([] : List Packet).map (Packet.out size)).sum + after.dying < 1 + packet.msg.load size + node.dying := by
    rw [same, List.map_nil, List.sum_nil]
    omega
  cases received with
  | members msg =>
    rw [msg] at plain
    cases plain
  | actorTopology | activation | ignore | panic => exact freed free (silent rfl)
  | refuse msg =>
    refine freed free ?_
    have answer := respond_out size node packet.sender (.pid none)
    rw [msg]
    simp only [Message.load] at answer ⊢
    omega
  | @here kind member sends id msg chosen near announced =>
    refine freed ((Node.spawn_waiting _ _).trans free) ?_
    have sent := announce_out few announced
    have spawned := node.dying_spawn (node.agent.handleActivationRequest kind id choice.drawn) packet.sender
    rw [msg]
    simp only [Message.load]
    omega
  | there msg =>
    have waits : Node.load size { node with waiting := some number } = 3 * size + 4 + node.dying := rfl
    rw [msg, free_ free, waits]
    simp only [Message.load, Packet.out, List.map_cons, List.map_nil, List.sum_cons, List.sum_nil]
    omega
  | deactivate msg every =>
    refine freed free ?_
    rw [msg, told_out, every.length_eq]
    simp only [Message.load]
    omega
  | @deactivation pid msg =>
    refine freed ((Node.poison_waiting _).trans free) ?_
    have poisoned := node.dying_poison pid
    rw [msg]
    change 0 + (node.poison pid).dying < 1 + 1 + node.dying
    omega
  | @request kind id msg =>
    refine freed ((Node.spawn_waiting _ _).trans free) ?_
    have answer := respond_out size node packet.sender (.activationResponse
      (node.agent.handleActivationRequest kind id choice.drawn)
      (node.agent.handleActivationRequest kind id choice.drawn).isSome)
    have spawned := node.dying_spawn (node.agent.handleActivationRequest kind id choice.drawn) packet.sender
    rw [msg]
    simp only [Message.load] at answer ⊢
    omega
  | getMembers msg =>
    refine freed free ?_
    have answer := respond_out size node packet.sender (.slice node.agent.members.entries)
    rw [msg]
    simp only [Message.load] at answer ⊢
    omega

theorem Receives.fewer {node : Node} (received : Receives node packet choice number handling)
    (plain : packet.msg.isMembers = false) :
    handling.node.agent.members.entries.length ≤ node.agent.members.entries.length := by
  cases received with
  | members msg =>
    rw [msg] at plain
    cases plain
  | actorTopology msg handled => rw [Agent.handleActorTopology_frame handled]
  | here | request => rw [Node.spawn_agent]
  | panic => exact Nat.zero_le _
  | _ => exact Nat.le_refl _

theorem Message.load_mono (msg : Message) (fewer : small ≤ large) : msg.load small ≤ msg.load large := by
  cases msg with
  | activate | deactivate | getMembers =>
    simp only [load]
    omega
  | _ => exact Nat.le_refl _

theorem Node.load_mono (node : Node) (fewer : small ≤ large) : node.load small ≤ node.load large := by
  unfold load
  split
  · omega
  · exact Nat.le_refl _

namespace State

def size (s : State) : Nat := (s.nodes.map (·.agent.members.entries.length)).sum

def weight (size : Nat) (entry : Queue × Packet) : Nat := entry.1.ahead + entry.2.msg.load size

def work (size : Nat) (s : State) : Nat :=
  (s.packets.map (weight size)).sum + (s.responses.map Response.load).sum + (s.nodes.map (Node.load size)).sum

def updates (s : State) : Nat := s.packets.countP (·.2.msg.isMembers)

/-- The updates of the members count most, for they may change the number of members. -/
def rank (s : State) : Nat ×ₗ Nat := toLex (s.updates, s.work s.size)

theorem few {s : State} {node : Node} {i : Nat} (found : s.nodes[i]? = some node) :
    node.agent.members.entries.length ≤ s.size :=
  List.le_sum_of_mem (List.mem_map.mpr ⟨node, List.mem_of_getElem? found, rfl⟩)

theorem size_set {nodes : List Node} {node next : Node} {i : Nat} (found : nodes[i]? = some node)
    (fewer : next.agent.members.entries.length ≤ node.agent.members.entries.length) :
    ((nodes.set i next).map (·.agent.members.entries.length)).sum ≤
      (nodes.map (·.agent.members.entries.length)).sum := by
  have total := Pool.sum_set (fun node : Node => node.agent.members.entries.length) found next
  omega

theorem work_mono (s : State) (fewer : small ≤ large) : s.work small ≤ s.work large := by
  have packets : (s.packets.map (weight small)).sum ≤ (s.packets.map (weight large)).sum :=
    List.sum_le_sum fun entry _ => Nat.add_le_add_left (entry.2.msg.load_mono fewer) _
  have nodes : (s.nodes.map (Node.load small)).sum ≤ (s.nodes.map (Node.load large)).sum :=
    List.sum_le_sum fun node _ => node.load_mono fewer
  simp only [work]
  omega

theorem sent_weight (size : Nat) {queue : Queue} (unsent : Unsent queue) (sends : List Packet) :
    ((sends.map fun packet => (queue, packet)).map (weight size)).sum = (sends.map (Packet.out size)).sum := by
  rw [List.map_map]
  cases queue with
  | outbox | spawner => rfl
  | mailbox | channel => cases unsent

/-- The messages between agents and to requests are no updates of the members. -/
theorem Sends.plain {s t : State} (sends : Sends s t label packet) (moves : label.moves) :
    packet.msg.isMembers = false := by
  cases sends <;> first | rfl | cases moves

theorem countP_sent {sends : List Packet} (queue : Queue)
    (plain : ∀ packet ∈ sends, packet.msg.isMembers = false) :
    (sends.map fun packet => (queue, packet)).countP (·.2.msg.isMembers) = 0 := by
  rw [List.countP_eq_zero]
  intro entry member
  obtain ⟨packet, sent, rfl⟩ := List.mem_map.mp member
  simp [plain packet sent]

theorem Arrives.ahead {queue : Queue} {packet : Packet} (arrives : Arrives queue packet) : 2 ≤ queue.ahead := by
  cases queue with
  | mailbox => cases arrives
  | outbox | spawner | channel => simp [Queue.ahead]

theorem answer_load (size : Nat) (response : Response) (msg : Message) :
    (response.answer msg).load ≤ response.load + msg.load size := by
  unfold Response.answer
  split
  · rename_i pending
    have announced : 3 * (response.announcements msg).length ≤ msg.load size := by
      unfold Response.announcements
      split
      · simp [Message.load]
      · exact Nat.zero_le _
    cases outside : response.ofAgent with
    | true =>
      have none : Response.load { response with status := .answered msg } = 0 := by
        have same : Response.ofAgent { response with status := .answered msg } = true := outside
        simp [Response.load, same]
      omega
    | false =>
      have before : response.load = 1 := by simp [Response.load, outside, pending]
      have after : Response.load { response with status := .answered msg } =
          1 + 3 * (response.announcements msg).length := by
        have same : Response.ofAgent { response with status := .answered msg } = false := outside
        simp only [Response.load, same]
        rfl
      omega
  · exact Nat.le_add_right _ _

/-- An answer to a request weighs at least what the call makes of it. -/
theorem modify_load (size : Nat) (responses : List Response) (number : Nat) (msg : Message) :
    ((responses.modify number (·.answer msg)).map Response.load).sum ≤
      (responses.map Response.load).sum + msg.load size := by
  rw [List.modify_eq_set_getElem?]
  cases found : responses[number]? with
  | none => exact Nat.le_add_right _ _
  | some response =>
    have total := Pool.sum_set Response.load found (response.answer msg)
    have mine := answer_load size response msg
    simp only [Option.map_eq_map, Option.map_some, Option.getD_some]
    omega

theorem close_load (response : Response) (pid : Option PID) :
    Response.load { response with status := .closed pid } = 0 := by
  unfold Response.load
  cases Response.ofAgent _ <;> rfl

theorem open_load {response : Response} (outside : response.ofAgent = false)
    (open_ : ∀ pid, response.status ≠ .closed pid) : 0 < response.load := by
  unfold Response.load
  rw [outside]
  cases status : response.status with
  | pending => exact Nat.one_pos
  | answered msg => exact Nat.add_pos_left Nat.one_pos _
  | closed pid => exact absurd status (open_ pid)

theorem resume_out {node : Node} {size : Nat} (few : node.agent.members.entries.length ≤ size)
    (resumed : node.resume order msg caller = some sends) : (sends.map (Packet.out size)).sum ≤ 3 * size + 3 := by
  unfold Node.resume at resumed
  split at resumed
  · exact announce_out few resumed
  · cases resumed
    have answer := respond_out size node caller (.pid none)
    simp only [Message.load] at answer
    omega

theorem rank_of_work {s t : State} (updates : t.updates ≤ s.updates) (size : t.size ≤ s.size)
    (work : t.work s.size < s.work s.size) : t.rank < s.rank := by
  rw [rank, rank, Prod.Lex.toLex_lt_toLex]
  exact (Nat.lt_or_eq_of_le updates).imp_right fun same => ⟨same, (t.work_mono size).trans_lt work⟩

/-- A packet is taken out of its queue. -/
theorem taken_weight {packets : List (Queue × Packet)} (size : Nat) (split : packets = before ++ entry :: after) :
    (packets.map (weight size)).sum = ((before ++ after).map (weight size)).sum + weight size entry := by
  rw [split]
  simp only [List.map_append, List.map_cons, List.sum_append, List.sum_cons]
  omega

theorem taken_updates {packets : List (Queue × Packet)} (split : packets = before ++ entry :: after) :
    packets.countP (·.2.msg.isMembers) =
      (before ++ after).countP (·.2.msg.isMembers) + if entry.2.msg.isMembers then 1 else 0 := by
  rw [split]
  simp only [List.countP_append, List.countP_cons]
  omega

theorem posted_work {s : State} {queue : Queue} (size : Nat) (unsent : Unsent queue) (sends : List Packet) :
    (s.post queue sends).work size = s.work size + (sends.map (Packet.out size)).sum := by
  simp only [work, post, List.map_append, List.sum_append, sent_weight size unsent]
  omega

theorem posted_updates {s : State} (queue : Queue) {sends : List Packet}
    (plain : ∀ packet ∈ sends, packet.msg.isMembers = false) : (s.post queue sends).updates = s.updates := by
  rw [updates, post, List.countP_append, countP_sent queue plain]
  rfl

/-- An agent that has waited for an answer makes its announcements, or gives up. -/
theorem released_lowers {s : State} {node : Node} {response : Response} {number i : Nat} {sends : List Packet}
    (waited : Waited s i node number response) (out : (sends.map (Packet.out s.size)).sum ≤ 3 * s.size + 3)
    (plain : ∀ packet ∈ sends, packet.msg.isMembers = false) :
    rank ({ s with
      nodes := s.nodes.set i { node with waiting := none }
      responses := s.responses.set number { response with status := .closed none } }.post (.outbox i) sends) <
      s.rank := by
  have unsent : Unsent (.outbox i) := trivial
  refine rank_of_work (posted_updates _ plain).le (size_set waited.found (Nat.le_refl _)) ?_
  have loads := Pool.sum_set (Node.load s.size) waited.found { node with waiting := none }
  have closed := Pool.sum_set Response.load waited.asked { response with status := .closed none }
  have free : Node.load s.size { node with waiting := none } = node.dying := Nat.zero_add _
  have busy : node.load s.size = 3 * s.size + 4 + node.dying := by simp [Node.load, waited.waits]
  rw [close_load] at closed
  rw [posted_work s.size unsent]
  simp only [work]
  omega

theorem handle_lowers {s : State} {node : Node} {i : Nat} (handles : Handles s i node packet)
    (split : s.packets = before ++ (.mailbox i, packet) :: after)
    (received : Receives node packet choice s.responses.length handling) :
    rank
      { nodes := s.nodes.set i handling.node
        packets := (before ++ after) ++ handling.sends.map fun packet => (.outbox i, packet)
        responses := s.responses ++ handling.asks
        hits := s.hits ++ handling.hits } < s.rank := by
  have unsent : Unsent (.outbox i) := trivial
  have sends : ∀ sent ∈ handling.sends, sent.msg.isMembers = false := fun sent member =>
    (receives_sends (t := ⟨_, [], _, []⟩) handles received rfl rfl member).plain trivial
  have updates := taken_updates split
  have fewer : List.countP (·.2.msg.isMembers)
      ((before ++ after) ++ handling.sends.map fun packet => (.outbox i, packet)) =
        (before ++ after).countP (·.2.msg.isMembers) := by
    rw [List.countP_append, countP_sent (.outbox i) sends, Nat.add_zero]
  by_cases update : packet.msg.isMembers = true
  · rw [rank, rank, Prod.Lex.toLex_lt_toLex]
    left
    rw [update] at updates
    change List.countP _ ((before ++ after) ++ _) < s.packets.countP _
    rw [fewer, updates]
    exact Nat.lt_succ_self _
  · have plain := Bool.eq_false_of_not_eq_true update
    rw [plain] at updates
    refine rank_of_work (fewer.trans updates.symm).le (size_set handles.found (received.fewer plain)) ?_
    have lighter := received.lighter (few handles.found) handles.free plain
    have loads := Pool.sum_set (Node.load s.size) handles.found handling.node
    have asked : (handling.asks.map Response.load).sum = 0 := by
      cases received <;> rfl
    have weights := taken_weight s.size split
    simp only [work, List.map_append, List.sum_append, sent_weight s.size unsent, weights, weight, asked,
      Queue.ahead] at lighter loads ⊢
    omega

/-- A packet goes on to its next queue. -/
theorem forwarded_lowers {s : State} {queue next : Queue} {packet : Packet}
    (split : s.packets = before ++ (queue, packet) :: after) (nearer : next.ahead < queue.ahead) :
    rank { s with packets := (before ++ after) ++ [(next, packet)] } < s.rank := by
  have updates := taken_updates split
  have weights := taken_weight s.size split
  refine rank_of_work ?_ (Nat.le_refl _) ?_
  · rw [State.updates, State.updates, updates, List.countP_append, List.countP_singleton]
  · simp only [work, weights, weight, List.map_append, List.map_cons, List.map_nil, List.sum_append, List.sum_cons,
      List.sum_nil]
    omega

/-- A packet leaves for good. -/
theorem gone_lowers {s : State} {queue : Queue} {packet : Packet} {responses : List Response}
    (split : s.packets = before ++ (queue, packet) :: after) (sent : 0 < queue.ahead)
    (answers : (responses.map Response.load).sum ≤
      (s.responses.map Response.load).sum + packet.msg.load s.size) :
    rank { s with packets := before ++ after, responses := responses } < s.rank := by
  have updates := taken_updates split
  have weights := taken_weight s.size split
  refine rank_of_work ?_ (Nat.le_refl _) ?_
  · rw [State.updates, State.updates, updates]
    exact Nat.le_add_right _ _
  · simp only [work, weights, weight]
    omega

theorem rank_lowers {s t : State} (move : Move s label t) (moves : label.moves) : t.rank < s.rank := by
  cases move with
  | activate | deactivate | spawn | provide => cases moves
  | handle found free idle split first received =>
    exact handle_lowers ⟨found, free, Queues.mem_taken split, next_eq split first⟩ split received
  | wake found waits asked answered idle resumed =>
    refine released_lowers ⟨found, waits, asked⟩ (resume_out (few found) resumed) fun sent member => ?_
    exact (resume_sends (t := s) ⟨found, waits, asked⟩ answered resumed member).plain moves
  | @timeout i node number response found waits asked idle =>
    have answer := respond_out s.size node response.caller (.pid none)
    refine released_lowers ⟨found, waits, asked⟩ ?_ fun sent member => ?_
    · simp only [Message.load] at answer
      omega
    · obtain ⟨reply, -, rfl⟩ := Node.mem_respond member
      rfl
  | @send before queue packet after split first unsent apart =>
    refine forwarded_lowers split ?_
    cases queue with
    | outbox | spawner => exact Nat.lt_succ_self 2
    | mailbox | channel => cases unsent
  | mail split first arrives => exact forwarded_lowers split arrives.ahead
  | lose split first arrives =>
    exact gone_lowers split (Nat.lt_of_lt_of_le Nat.two_pos arrives.ahead) (Nat.le_add_right _ _)
  | answer split first arrives =>
    exact gone_lowers split (Nat.lt_of_lt_of_le Nat.two_pos arrives.ahead) (modify_load s.size _ _ _)
  | @returns number response msg asked outside answered =>
    have unsent : Unsent (.spawner number) := trivial
    have closed := Pool.sum_set Response.load asked { response with status := .closed (response.returned msg) }
    have before : response.load = 1 + 3 * (response.announcements msg).length := by
      simp [Response.load, outside, answered]
    have out := announcements_out s.size response msg
    refine rank_of_work (posted_updates _ fun sent member => ?_).le (Nat.le_refl _) ?_
    · exact (announcements_sends (t := s) asked answered member).plain moves
    · rw [close_load] at closed
      rw [posted_work s.size unsent]
      simp only [work]
      omega
  | @expire number response asked outside open_ =>
    have closed := Pool.sum_set Response.load asked { response with status := .closed none }
    have before := open_load outside open_
    refine rank_of_work (Nat.le_refl _) (Nat.le_refl _) ?_
    rw [close_load] at closed
    simp only [work]
    omega
  | @stop i node actor id found present poisoned =>
    have loads := Pool.sum_set (Node.load s.size) found { node with actors := node.actors.erase id }
    have fewer := Node.dying_erase present poisoned
    refine rank_of_work (Nat.le_refl _) (size_set found (Nat.le_refl _)) ?_
    simp only [work]
    have same : Node.load s.size { node with actors := node.actors.erase id } + node.dying =
        node.load s.size + Node.dying { node with actors := node.actors.erase id } := by
      simp only [Node.load]
      omega
    omega

/-! Where nothing can be done any more. -/

theorem move_enabled {s : State} {queue : Queue} {packet : Packet} (present : (queue, packet) ∈ s.packets)
    (sent : ∀ i, queue ≠ .mailbox i) : s.step (.move queue) ≠ none := by
  obtain ⟨⟨taken, left⟩, took⟩ := Option.ne_none_iff_exists'.mp (Queues.take_ne_none present)
  cases queue with
  | mailbox i => exact absurd rfl (sent i)
  | outbox | spawner | channel => simp [step, took, forward]

/-- A message can be handled unless it makes its handler dereference a nil PID. -/
theorem receive_enabled (node : Node) (packet : Packet) (number : Nat) (fine : packet.msg.fatal = false) :
    ∃ choice, node.receive packet choice number ≠ none := by
  refine ⟨⟨none, "", node.agent.members.entries⟩, ?_⟩
  cases msg : packet.msg with
  | actorTopology actors =>
    rw [msg, Message.fatal, Bool.not_eq_false', ← node.agent.handleActorTopology_isSome] at fine
    obtain ⟨agent, handled⟩ := Option.isSome_iff_exists.mp fine
    simp [Node.receive, msg, handled]
  | activation actor =>
    cases actor with
    | none => simp [msg, Message.fatal] at fine
    | some pid => simp [Node.receive, msg, Agent.handleActivation]
  | deactivation actor =>
    cases actor with
    | none => simp [msg, Message.fatal] at fine
    | some pid => simp [Node.receive, msg, Agent.handleDeactivation]
  | activate kind id =>
    have refused : node.agent.activate kind id none = none := by
      unfold Agent.activate
      split
      · rfl
      · exact ite_self _
    simp [Node.receive, msg, Node.activate, refused]
  | deactivate actor => simp [Node.receive, msg, Agent.bcast]
  | _ => simp [Node.receive, msg]

theorem invoke_enabled (node : Node) (packet : Packet) (number : Nat)
    (survives : packet.msg.fatal = true → node.restarts ≠ defaultMaxRestarts) :
    ∃ choice, node.invoke packet choice number ≠ none := by
  cases fatal : packet.msg.fatal with
  | true =>
    refine ⟨⟨none, "", []⟩, ?_⟩
    rw [Node.invoke, if_pos fatal, Node.tryRestart, if_neg (survives fatal)]
    rintro ⟨⟩
  | false =>
    obtain ⟨choice, received⟩ := receive_enabled node packet number fatal
    refine ⟨choice, ?_⟩
    rwa [Node.invoke, fatal, if_neg Bool.false_ne_true]

/-- A message with a nil PID stands first in the mailbox of an agent that has used up its
restarts: the panic that it causes ends the program. -/
def Ended (s : State) (i : Nat) : Prop :=
  ∃ node packet, s.nodes[i]? = some node ∧ node.restarts = defaultMaxRestarts ∧ s.next i = some packet ∧
    packet.msg.fatal = true

/-- Messages are left only on nodes where the program ends. -/
structure Settled (s : State) : Prop where
  packets : ∀ entry ∈ s.packets, ∃ i, entry.1 = .mailbox i ∧ s.Ended i
  agents : ∀ node ∈ s.nodes, node.waiting = none ∧ ∀ actor ∈ node.actors.entries, actor.poisoned = false
  calls : ∀ response ∈ s.responses, response.ofAgent = false → ∃ pid, response.status = .closed pid

theorem idle_of_mailboxes {s : State} (mail : ∀ entry ∈ s.packets, ∃ i, entry.1 = .mailbox i) (i : Nat) :
    s.idle i = true := by
  rw [idle, List.isEmpty_iff, Queues.content, List.map_eq_nil_iff, List.filter_eq_nil_iff]
  intro entry member
  obtain ⟨j, place⟩ := mail entry member
  simp [place]

theorem settled_of_stuck {s : State} (placed : s.Placed) (traced : s.Traced)
    (stuck : Stuck step Label.moves s) : s.Settled := by
  have mail : ∀ entry ∈ s.packets, ∃ i, entry.1 = .mailbox i := by
    rintro ⟨queue, packet⟩ present
    by_contra elsewhere
    exact move_enabled present (fun i same => elsewhere ⟨i, same⟩) (stuck (.move queue) trivial)
  have idle := idle_of_mailboxes mail
  have free : ∀ node ∈ s.nodes, node.waiting = none := by
    intro node member
    cases waits : node.waiting with
    | none => rfl
    | some number =>
      obtain ⟨i, found⟩ := List.mem_iff_getElem?.mp member
      obtain ⟨kind, id, caller, known⟩ := traced.waiting member waits
      obtain ⟨response, asked, -⟩ := purpose_eq.mp known
      have blocked := stuck (.timeout i) trivial
      simp [step, found, waits, asked, idle i] at blocked
  refine ⟨?_, fun node member => ⟨free node member, ?_⟩, ?_⟩
  · rintro ⟨queue, packet⟩ present
    obtain ⟨i, rfl⟩ := mail _ present
    obtain ⟨node, found, -⟩ := placed.addressed present
    obtain ⟨⟨first, left⟩, took⟩ := Option.ne_none_iff_exists'.mp (Queues.take_ne_none present)
    obtain ⟨before, after, split, -, earlier⟩ := Queues.take_some took
    refine ⟨i, rfl, ?_⟩
    by_contra goes
    have survives (fatal : first.msg.fatal = true) : node.restarts ≠ defaultMaxRestarts := fun last =>
      goes ⟨node, first, found, last, next_eq split earlier, fatal⟩
    obtain ⟨choice, invoked⟩ := invoke_enabled node first s.responses.length survives
    obtain ⟨handling, handled⟩ := Option.ne_none_iff_exists'.mp invoked
    have blocked := stuck (.handle i choice) trivial
    simp [step, found, free node (List.mem_of_getElem? found), idle i, took, handled] at blocked
  · intro actor present
    by_contra poisoned
    obtain ⟨i, found⟩ := List.mem_iff_getElem?.mp member
    have blocked := stuck (.stop i actor.id) trivial
    have known : node.actors.get? actor.id = some actor := Keyed.get?_eq_some.mpr ⟨present, rfl⟩
    simp [step, found, known, poisoned] at blocked
  · intro response member outside
    obtain ⟨number, asked⟩ := List.mem_iff_getElem?.mp member
    have blocked := stuck (.expire number) trivial
    cases status : response.status with
    | closed pid => exact ⟨pid, rfl⟩
    | pending | answered => simp [step, asked, outside, status] at blocked

/-- In whatever state the calls and the providers have left a cluster, however late packets
arrive, requests time out and answers are read: the work ends. Then every call has returned,
no agent waits and every deactivated actor is gone. Messages are left only for an agent that
has used up its restarts and has one without a PID at the head of its mailbox. -/
theorem cluster_settles (configs : List Config) (s : State)
    (reached : Reaches step (initial configs) s) :
    Inevitable step Label.moves Settled s := by
  have known : s.Placed ∧ s.Traced := by
    refine reached.invariant (P := fun s => s.Placed ∧ s.Traced) ?_ ⟨initial_placed configs, initial_traced configs⟩
    rintro s label t ⟨placed, traced⟩ stepped
    exact ⟨placed_move placed (step_move stepped), traced_move traced (step_move stepped)⟩
  refine inevitable_of_rank (I := fun s => s.Placed ∧ s.Traced) rank ?_ ?_ ?_ known
  · rintro s label t ⟨placed, traced⟩ - stepped
    exact ⟨placed_move placed (step_move stepped), traced_move traced (step_move stepped)⟩
  · exact fun _ moves stepped => rank_lowers (step_move stepped) moves
  · exact fun known stuck => settled_of_stuck known.1 known.2 stuck

/-- An activation on another member, whose agent has not handled the request, and a
deactivation of nil. -/
theorem cluster_settles_waiting :
    ∃ s t : State, s.nodes.map (·.waiting) = [some 1, none] ∧ s.packets.length = 2 ∧
      Reaches step s t ∧ (∀ node ∈ t.nodes, node.waiting = none) ∧
      ∀ entry ∈ t.packets, ∃ i, entry.1 = .mailbox i ∧ t.Ended i := by
  obtain ⟨s, reached, ends⟩ := exists_of_run step (initial pair)
    [.activate 0 "k" "1", .handle 0 (pick 1), .deactivate 1 none]
    (fun s => s.nodes.map (·.waiting) = [some 1, none] ∧ s.packets.length = 2) (by decide +kernel)
  obtain ⟨waits, queued⟩ := of_decide_eq_true ends
  obtain ⟨labels, t, -, ran, -, settled⟩ := (cluster_settles pair s reached).exists_end
  exact ⟨s, t, waits, queued, reaches_of_run ran, fun node member => (settled.agents node member).1,
    settled.packets⟩

/-! Agreement is reached. -/

end State

/-- An answer to a request, or a message about an active actor, with its PID. -/
def Message.news : Message → Bool
  | .activation actor | .deactivation actor => actor.isSome
  | .actorTopology actors => actors.all Option.isSome
  | .activationResponse _ _ | .pid _ => true
  | _ => false

def Response.read (response : Response) : Bool :=
  match response.status with
  | .answered (.slice _) => false
  | _ => true

namespace State

/-- All changes are announced: what is on its way are announcements and answers. -/
def announced (s : State) : Bool :=
  s.nodes.all (·.waiting.isNone) && s.packets.all (·.2.msg.news) && s.responses.all Response.read

structure Announced (s : State) : Prop where
  free : ∀ node ∈ s.nodes, node.waiting = none
  news : ∀ entry ∈ s.packets, entry.2.msg.news = true
  read : ∀ response ∈ s.responses, response.read = true

theorem announced_iff {s : State} : s.announced = true ↔ s.Announced := by
  simp only [announced, Bool.and_eq_true, List.all_eq_true, Option.isNone_iff_eq_none]
  exact ⟨fun ⟨⟨free, news⟩, read⟩ => ⟨free, news, read⟩, fun known => ⟨⟨known.free, known.news⟩, known.read⟩⟩

theorem fatal_of_news {msg : Message} (news : msg.news = true) : msg.fatal = false := by
  cases msg with
  | activation actor | deactivation actor =>
    cases actor with
    | none => cases news
    | some pid => rfl
  | actorTopology actors => exact congrArg not news
  | _ => rfl

/-- An agent that is only told news announces nothing, nil neither. -/
theorem Announced.named {s : State} (known : s.Announced) (label : Label) : s.named label = true := by
  unfold State.named
  split
  · rename_i i choice
    split
    · rename_i node packet found head
      obtain ⟨entry, inside, rfl⟩ := List.mem_map.mp (List.mem_of_mem_head? head)
      have news := known.news entry (List.mem_filter.mp inside).1
      unfold Node.announcesNil
      split
      · rename_i asks
        rw [asks] at news
        cases news
      · rename_i asks
        rw [asks] at news
        cases news
      · rfl
    · rfl
  · rfl

/-- News is taken in without an answer. -/
theorem receives_news {node : Node} (received : Receives node packet choice number handling)
    (news : packet.msg.news = true) :
    handling.sends = [] ∧ handling.asks = [] ∧ handling.node.waiting = node.waiting := by
  cases received with
  | actorTopology | activation | ignore => exact ⟨rfl, rfl, rfl⟩
  | deactivation => exact ⟨rfl, rfl, Node.poison_waiting _⟩
  | members msg | refuse msg | here msg | there msg | deactivate msg | request msg | getMembers msg =>
    rw [msg] at news
    cases news
  | panic fatal =>
    rw [fatal_of_news news] at fatal
    cases fatal

theorem answer_read {response : Response} {msg : Message} (read : response.read = true) (news : msg.news = true) :
    (response.answer msg).read = true := by
  unfold Response.answer
  split
  · cases msg <;> first | rfl | cases news
  · exact read

theorem announcements_read {response : Response} {msg : Message} (read : response.read = true)
    (answered : response.status = .answered msg) : response.announcements msg = [] := by
  unfold Response.announcements
  split
  · rw [Response.read, answered] at read
    cases read
  · rfl

/-- What is announced stays so, and nothing is added to it. -/
theorem Announced.move {s t : State} (known : s.Announced) (move : Move s label t) (moves : label.moves) :
    t.Announced := by
  have stays {i : Nat} {node next : Node} (found : s.nodes[i]? = some node) (same : next.waiting = node.waiting) :
      ∀ b ∈ s.nodes.set i next, b.waiting = none := by
    intro b member
    rcases List.mem_or_eq_of_mem_set member with old | rfl
    · exact known.free b old
    · exact same.trans (known.free node (List.mem_of_getElem? found))
  have closes {number : Nat} {response : Response} {pid : Option PID} :
      ∀ b ∈ s.responses.set number { response with status := .closed pid }, b.read = true := by
    intro b member
    rcases List.mem_or_eq_of_mem_set member with old | rfl
    · exact known.read b old
    · rfl
  cases move with
  | activate | deactivate | spawn | provide => cases moves
  | handle found free idle split first received =>
    obtain ⟨sends, asks, waiting⟩ := receives_news received (known.news _ (Queues.mem_taken split))
    refine ⟨stays found waiting, ?_, ?_⟩
    · rw [sends, List.map_nil, List.append_nil]
      exact fun entry member => known.news entry (Queues.mem_left split member)
    · rw [asks, List.append_nil]
      exact known.read
  | wake found waits | timeout found waits =>
    cases waits.symm.trans (known.free _ (List.mem_of_getElem? found))
  | send split | mail split =>
    refine ⟨known.free, fun entry member => ?_, known.read⟩
    rcases List.mem_append.mp member with old | new
    · exact known.news entry (Queues.mem_left split old)
    · have moved := known.news _ (Queues.mem_taken split)
      rw [List.mem_singleton.mp new]
      exact moved
  | lose split => exact ⟨known.free, fun entry member => known.news entry (Queues.mem_left split member), known.read⟩
  | @answer before queue packet after reply split =>
    refine ⟨known.free, fun entry member => known.news entry (Queues.mem_left split member), fun response member => ?_⟩
    obtain ⟨number, found⟩ := List.mem_iff_getElem?.mp member
    rw [List.getElem?_modify] at found
    obtain ⟨old, asked, same⟩ := Option.map_eq_some_iff.mp found
    have read := known.read old (List.mem_of_getElem? asked)
    split at same
    · exact same ▸ answer_read read (known.news _ (Queues.mem_taken split))
    · exact same ▸ read
  | returns asked outside answered =>
    have silent := announcements_read (known.read _ (List.mem_of_getElem? asked)) answered
    refine ⟨known.free, ?_, closes⟩
    rw [post, silent, List.map_nil, List.append_nil]
    exact known.news
  | expire => exact ⟨known.free, known.news, closes⟩
  | stop found => exact ⟨stays found rfl, known.news, known.read⟩

theorem Extends.still {s t : State} (packets : t.packets = s.packets)
    (nodes : ∀ b ∈ t.nodes, ∃ a ∈ s.nodes, a.pid = b.pid ∧ a.agent.activated = b.agent.activated) :
    Extends s t t.packets (.outbox 0) [] := by
  have posted : t.packets = s.packets ++ ([] : List Packet).map fun packet => (Queue.outbox 0, packet) := by
    rw [packets, List.map_nil, List.append_nil]
  exact Extends.silent posted nofun nodes

/-- Every agent stays headed for the entries that it was headed for. -/
theorem Announced.extends_ {s t : State} (known : s.Announced) (agreed : s.Agreed) (move : Move s label t)
    (moves : label.moves) : Extends s t t.packets (.outbox 0) [] := by
  have same : ∀ b ∈ s.nodes, ∃ a ∈ s.nodes, a.pid = b.pid ∧ a.agent.activated = b.agent.activated :=
    fun b member => ⟨b, member, rfl, rfl⟩
  have again := move
  cases move with
  | activate | deactivate | spawn | provide => cases moves
  | @handle i node before packet after choice handling found free idle split first received =>
    have news := known.news _ (Queues.mem_taken split)
    obtain ⟨sends, -, -⟩ := receives_news received news
    have stay (members : List Member) (msg : packet.msg = .members members) : node.agent.left members = [] := by
      rw [msg] at news
      cases news
    have outcomes := handled_outcomes agreed found split first received stay
    rw [sends, List.map_nil, List.append_nil]
    exact Extends.quiet (fun entry member => .inl ⟨entry, Queues.mem_left split member, rfl, fun _ => rfl⟩) outcomes
  | wake found waits | timeout found waits =>
    cases waits.symm.trans (known.free _ (List.mem_of_getElem? found))
  | send | mail | lose | answer => exact travel_extends agreed again
  | returns asked outside answered =>
    have silent := announcements_read (known.read _ (List.mem_of_getElem? asked)) answered
    exact Extends.silent rfl (by rw [silent]; exact fun _ member => (nomatch member)) same
  | expire => exact Extends.still rfl same
  | stop found =>
    refine Extends.still rfl fun b member => ?_
    rcases List.mem_or_eq_of_mem_set member with old | rfl
    · exact same b old
    · exact ⟨_, List.mem_of_getElem? found, rfl, rfl⟩

theorem Announced.quiet {s : State} (known : s.Announced) (settled : s.Settled) : s.packets = [] := by
  rw [List.eq_nil_iff_forall_not_mem]
  intro entry member
  obtain ⟨i, -, node, packet, -, -, head, fatal⟩ := settled.packets entry member
  have present : packet ∈ Queues.content (.mailbox i) s.packets := List.mem_of_mem_head? head
  obtain ⟨old, inside, rfl⟩ := List.mem_map.mp present
  rw [fatal_of_news (known.news old (List.mem_filter.mp inside).1)] at fatal
  cases fatal

/-- In a run in which changes are announced to all members and unopposed and nil is not, once
all of them are announced, the maps of all agents come to be the same: in whatever order the packets
arrive and are handled, they end as one map, which is fixed by then. -/
theorem maps_converge (configs : List Config) (hosts : (configs.map (·.host)).Nodup) (s : State)
    (reached : Reaches (restrict orderly step) (initial configs) s)
    (announced : s.announced = true) :
    ∃ final : String → Option PID, Inevitable step Label.moves
      (fun t => t.packets = [] ∧ ∀ node ∈ t.nodes, ∀ x, node.agent.activated.get? x = final x) s := by
  have known : s.Agreed ∧ s.Traced := by
    refine reached.invariant (P := fun s => s.Agreed ∧ s.Traced) ?_
      ⟨initial_agreed configs hosts, initial_traced configs⟩
    rintro s label t ⟨agreed, traced⟩ stepped
    obtain ⟨allowed, stepped⟩ := restrict_some stepped
    obtain ⟨_, _, _, extends_⟩ := extends_move agreed (step_move stepped) allowed
    exact ⟨extends_.agreed agreed (step_move stepped) (orderly_named allowed), traced_move traced (step_move stepped)⟩
  have headed : ∃ final : String → Option PID, ∀ node ∈ s.nodes, ∀ x, outcome s.packets node x = final x := by
    by_cases none : s.nodes = []
    · exact ⟨fun _ => Option.none, by rw [none]; nofun⟩
    · obtain ⟨a, member⟩ := List.exists_mem_of_ne_nil _ none
      exact ⟨outcome s.packets a, fun b inside x => known.1.outcomes b inside a member x⟩
  obtain ⟨final, headed⟩ := headed
  refine ⟨final, ?_⟩
  refine inevitable_of_rank rank
    (I := fun t => (t.Agreed ∧ t.Traced) ∧ t.Announced ∧ ∀ node ∈ t.nodes, ∀ x, outcome t.packets node x = final x)
    ?_ ?_ ?_ ⟨known, announced_iff.mp announced, headed⟩
  · rintro t label u ⟨⟨agreed, traced⟩, announced, headed⟩ moves stepped
    have move := step_move stepped
    have extends_ := announced.extends_ agreed move moves
    refine ⟨⟨extends_.agreed agreed move (announced.named label), traced_move traced move⟩,
      announced.move move moves, ?_⟩
    intro node member x
    obtain ⟨before, inside, same⟩ := extends_.outcomes node member
    rw [same, headed before inside]
  · exact fun _ moves stepped => rank_lowers (step_move stepped) moves
  · rintro t ⟨⟨agreed, traced⟩, announced, headed⟩ stuck
    have quiet := announced.quiet (settled_of_stuck agreed.placed traced stuck)
    refine ⟨quiet, fun node member x => ?_⟩
    have same := headed node member x
    rw [quiet] at same
    exact same

/-- An activation has been announced, and no packet has left the agent yet. -/
theorem maps_converge_unsent :
    ∃ s t : State, s.packets.length = 3 ∧ s.nodes.map (·.agent.activated.entries) = [[], []] ∧
      Reaches step s t ∧ t.packets = [] ∧
      ∃ final : String → Option PID, ∀ node ∈ t.nodes, ∀ x, node.agent.activated.get? x = final x := by
  obtain ⟨s, reached, ends⟩ := exists_of_run (restrict orderly step) (initial pair)
    [.activate 0 "k" "1", .handle 0 (pick 0)]
    (fun s => s.packets.length = 3 ∧ s.nodes.map (·.agent.activated.entries) = [[], []] ∧ s.announced = true)
    (by decide +kernel)
  obtain ⟨unsent, empty, announced⟩ := of_decide_eq_true ends
  have hosts : (pair.map (·.host)).Nodup := by decide +kernel
  obtain ⟨final, converges⟩ := maps_converge pair hosts s reached announced
  obtain ⟨labels, t, -, ran, -, quiet, same⟩ := converges.exists_end
  exact ⟨s, t, unsent, empty, reaches_of_run ran, quiet, final, same⟩

end State

end Hollywood.Cluster
