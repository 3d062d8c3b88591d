import Hollywood.Cluster.Requests

/-! Every request is answered at most once. What a request is owed is in one place
at a time: with the packet that asks, with the agent that waits on its behalf, with
the packet that answers, or in the answer that has arrived. -/
namespace Hollywood.Cluster

def Dest.replies (dest : Dest) (number : Nat) : Bool :=
  match dest with
  | .response reply => reply.number = number
  | .agent _ => false

def Packet.owes (packet : Packet) (number : Nat) : Bool :=
  packet.sender.any (·.number = number) || packet.dest.replies number

def Purpose.bills (purpose : Purpose) (number : Nat) : Bool :=
  match purpose with
  | .activation _ _ caller => caller.any (·.number = number)
  | .activate _ _ | .spawn _ => false

def Node.owes (node : Node) (purpose : Nat → Option Purpose) (number : Nat) : Bool :=
  node.waiting.any fun request => (purpose request).any (·.bills number)

def Response.owes (response : Response) : Bool :=
  match response.status with
  | .answered _ => true
  | .pending | .closed _ => false

namespace State
variable {s t : State} {kind id : String} {number : Nat}

def held (responses : List Response) (number : Nat) : Nat :=
  if (responses[number]?).any (·.owes) then 1 else 0

def debt (s : State) (number : Nat) : Nat :=
  s.packets.countP (·.2.owes number) + s.nodes.countP (·.owes s.purpose number) +
    held s.responses number

structure Owed (s : State) : Prop where
  traced : s.Traced
  one : ∀ number, s.debt number ≤ 1
  fresh : ∀ number, s.responses.length ≤ number → s.debt number = 0

/-- The agents that keep on waiting owe what they owed. -/
theorem owes_stable (traced : s.Traced) (move : Move s label t) (member : node ∈ s.nodes) :
    node.owes t.purpose number = node.owes s.purpose number := by
  unfold Node.owes
  cases waits : node.waiting with
  | none => rfl
  | some request =>
    obtain ⟨kind, id, caller, known⟩ := traced.waiting member waits
    simp only [Option.any_some, known, purpose_move move known]

theorem countP_owes (traced : s.Traced) (move : Move s label t) (number : Nat) :
    s.nodes.countP (·.owes t.purpose number) = s.nodes.countP (·.owes s.purpose number) := by
  apply List.countP_congr
  intro node member
  rw [owes_stable traced move member]

theorem respond_owes {node : Node} (sender : Option Reply) (msg : Message) :
    (node.respond sender msg).countP (·.owes number) = if sender.any (·.number = number) then 1 else 0 := by
  cases sender with
  | none => rfl
  | some reply => simp [Node.respond, Packet.owes, Dest.replies]

theorem told_owes {node : Node} (order : List Member) (msg : Message) :
    (order.map fun member => node.send member.pid msg).countP (·.owes number) = 0 := by
  rw [List.countP_eq_zero]
  intro packet member
  obtain ⟨_, -, rfl⟩ := List.mem_map.mp member
  simp [Node.send, Packet.owes, Dest.replies]

theorem sendsOf_owes {node : Node} (effects : List Effect) :
    (node.sendsOf effects).countP (·.owes number) = 0 := by
  rw [List.countP_eq_zero]
  intro packet sent
  obtain ⟨target, msg, -, rfl⟩ := Node.mem_sendsOf sent
  simp [Node.send, Packet.owes, Dest.replies]

theorem announcements_owes {response : Response} (msg : Message) :
    (response.announcements msg).countP (·.owes number) = 0 := by
  rw [List.countP_eq_zero]
  intro packet sent
  unfold Response.announcements at sent
  split at sent
  · obtain ⟨_, -, rfl⟩ := List.mem_map.mp sent
    simp [Packet.owes, Dest.replies]
  · cases sent

/-- What the handling of a packet passes on, the debt of a new request apart. -/
theorem receives_owes {node : Node} (number : Nat)
    (received : Receives node packet choice s.responses.length handling)
    (free : node.waiting = none) (asked : t.responses = s.responses ++ handling.asks) :
    handling.sends.countP (·.owes number) + (if handling.node.owes t.purpose number then 1 else 0) ≤
      (if packet.owes number then 1 else 0) +
        if number = s.responses.length then handling.asks.length else 0 := by
  have idle : node.owes t.purpose number = false := by simp [Node.owes, free]
  have billed (sender : packet.sender.any (·.number = number) = true) : packet.owes number = true := by
    simp [Packet.owes, sender]
  have answers (msg : Message) : (node.respond packet.sender msg).countP (·.owes number) ≤
      if packet.owes number then 1 else 0 := by
    rw [respond_owes]
    split
    · rename_i sender
      rw [if_pos (billed sender)]
    · exact Nat.zero_le _
  have still (next : Node) (same : next.waiting = node.waiting) :
      next.owes t.purpose number = false := by
    rw [← idle, Node.owes, Node.owes, same]
  cases received with
  | actorTopology | activation | ignore => simp [still]
  | panic => simp [still node.restarted rfl]
  | members => simp [sendsOf_owes, still]
  | @deactivation pid =>
    have quiet := still { node.poison pid with agent := node.agent.removeActivated pid }
      (Node.poison_waiting pid)
    simp only [quiet, List.countP_nil, Bool.false_eq_true, if_false, Nat.add_zero, Nat.zero_le]
  | refuse | getMembers => simpa [idle] using answers _
  | request => simpa [still _ (Node.spawn_waiting _ _)] using answers _
  | deactivate =>
    rw [told_owes, idle]
    exact Nat.zero_le _
  | here msg chosen near announced =>
    obtain ⟨-, rfl⟩ := Node.announce_sends announced
    rw [List.countP_append, told_owes, still _ (Node.spawn_waiting _ _), Nat.zero_add]
    exact (answers _).trans (Nat.le_add_right _ _)
  | there msg chosen far =>
    have bills : Node.owes { node with waiting := some s.responses.length } t.purpose number =
        packet.sender.any (·.number = number) := by
      simp [Node.owes, purpose_new asked, Purpose.bills]
    have asks (target : PID) (msg : Message) :
        Packet.owes ⟨node.host, .agent target, some ⟨node.host, s.responses.length⟩, msg⟩ number =
          decide (s.responses.length = number) := by
      simp [Packet.owes, Dest.replies]
    rw [List.countP_singleton, asks, bills, Nat.add_comm]
    refine Nat.add_le_add ?_ (by simp [eq_comm])
    split
    · rename_i sender
      rw [if_pos (billed sender)]
    · exact Nat.zero_le _

theorem held_append (responses : List Response) {asks : List Response}
    (pending : ∀ response ∈ asks, response.status = .pending) :
    held (responses ++ asks) number = held responses number := by
  unfold held
  rw [List.getElem?_append]
  split
  · rfl
  · rename_i beyond
    rw [List.getElem?_eq_none (Nat.le_of_not_lt beyond)]
    cases found : asks[number - responses.length]? with
    | none => rfl
    | some response =>
      have waiting := pending response (List.mem_of_getElem? found)
      simp [Response.owes, waiting]

theorem held_close (number : Nat) (responses : List Response) (response : Response) (request : Nat)
    (returned : Option PID) :
    held (responses.set request { response with status := .closed returned }) number ≤
      held responses number := by
  unfold held
  rw [List.getElem?_set]
  split
  · split <;> simp [Response.owes]
  · exact le_rfl

theorem held_answer (number : Nat) (responses : List Response) (reply : Reply) (msg : Message) :
    held (responses.modify reply.number (·.answer msg)) number ≤
      held responses number + if (Dest.response reply).replies number then 1 else 0 := by
  unfold held
  rw [List.getElem?_modify]
  by_cases same : reply.number = number
  · refine le_trans ?_ (Nat.le_add_left _ _)
    rw [if_pos (show (Dest.response reply).replies number = true by simp [Dest.replies, same])]
    split_ifs <;> omega
  · simp [same]

theorem packets_post (queue : Queue) (sends : List Packet) :
    (s.post queue sends).packets.countP (·.2.owes number) =
      s.packets.countP (·.2.owes number) + sends.countP (·.owes number) := by
  rw [post, List.countP_append, List.countP_map]
  rfl

/-- An agent that stops waiting passes what it owes on to its answer. -/
theorem debt_wake {response : Response} (traced : s.Traced) (waited : Waited s i node request response)
    (move : Move s label t) (nodes : t.nodes = s.nodes.set i { node with waiting := none })
    (responses : t.responses = s.responses.set request { response with status := .closed none })
    (packets : t.packets.countP (·.2.owes number) =
      s.packets.countP (·.2.owes number) + if response.caller.any (·.number = number) then 1 else 0) :
    t.debt number ≤ s.debt number := by
  have member := List.mem_of_getElem? waited.found
  have owes : node.owes t.purpose number = response.caller.any (·.number = number) := by
    rw [owes_stable traced move member]
    have known : s.purpose request = some response.purpose := purpose_eq.mpr ⟨_, waited.asked, rfl⟩
    simp only [Node.owes, waited.waits, Option.any_some, known, Purpose.bills, Response.caller]
    cases response.purpose <;> rfl
  have free : Node.owes { node with waiting := none } t.purpose number = false := rfl
  have others := countP_owes traced move number
  have agents := Pool.countP_set (·.owes t.purpose number) waited.found { node with waiting := none }
  have closed := held_close number s.responses response request none
  rw [owes, free] at agents
  rw [debt, debt, packets, nodes, responses]
  simp only [Bool.false_eq_true, if_false] at agents
  omega

/-- Where the agents stay as they are, the debt changes with packets and answers. -/
theorem debt_still (traced : s.Traced) (move : Move s label t) (nodes : t.nodes = s.nodes) :
    t.debt number = t.packets.countP (·.2.owes number) + s.nodes.countP (·.owes s.purpose number) +
      held t.responses number := by
  rw [debt, nodes, countP_owes traced move number]

/-- Where one agent changes but goes on as it was with its requests, too. -/
theorem debt_same {next : Node} (traced : s.Traced) (move : Move s label t) (found : s.nodes[i]? = some node)
    (nodes : t.nodes = s.nodes.set i next) (same : next.waiting = node.waiting) :
    t.debt number = t.packets.countP (·.2.owes number) + s.nodes.countP (·.owes s.purpose number) +
      held t.responses number := by
  have owes : next.owes t.purpose number = node.owes t.purpose number := by
    rw [Node.owes, Node.owes, same]
  have agents := Pool.countP_set (·.owes t.purpose number) found next
  rw [owes, countP_owes traced move number] at agents
  rw [debt, nodes]
  omega

theorem resume_owes {node : Node} (resumed : node.resume order msg caller = some sends) :
    sends.countP (·.owes number) = if caller.any (·.number = number) then 1 else 0 := by
  unfold Node.resume at resumed
  split at resumed
  · obtain ⟨-, rfl⟩ := Node.announce_sends resumed
    rw [List.countP_append, told_owes, respond_owes, Nat.zero_add]
  · cases resumed
    exact respond_owes _ _

theorem debt_handle (traced : s.Traced) (move : Move s label t) (found : s.nodes[i]? = some node)
    (free : node.waiting = none) (split : s.packets = before ++ (.mailbox i, packet) :: after)
    (received : Receives node packet choice s.responses.length handling)
    (nodes : t.nodes = s.nodes.set i handling.node)
    (packets : t.packets = (before ++ after) ++ handling.sends.map fun packet => (.outbox i, packet))
    (responses : t.responses = s.responses ++ handling.asks) (number : Nat) :
    t.debt number ≤ s.debt number +
      if number = s.responses.length then t.responses.length - s.responses.length else 0 := by
  have status : held t.responses number = held s.responses number := by
    rw [responses]
    apply held_append
    cases received <;> simp
  have passed := receives_owes number received free responses
  have agents := Pool.countP_set (·.owes t.purpose number) found handling.node
  have idle : node.owes t.purpose number = false := by simp [Node.owes, free]
  rw [idle, countP_owes traced move number] at agents
  have grown : t.responses.length - s.responses.length = handling.asks.length := by
    rw [responses, List.length_append, Nat.add_sub_cancel_left]
  rw [debt, debt, nodes, packets, status, split, grown]
  simp only [List.countP_append, List.countP_cons, List.countP_map, Function.comp_def,
    Bool.false_eq_true, if_false] at agents passed ⊢
  omega

theorem debt_move (traced : s.Traced) (move : Move s label t) (number : Nat) :
    t.debt number ≤ s.debt number +
      if number = s.responses.length then t.responses.length - s.responses.length else 0 := by
  have again := move
  cases move with
  | @activate i node kind id found =>
    have status : held (s.responses ++ [⟨node.host, .activate kind id, .pending⟩]) number =
        held s.responses number := held_append _ (by simp)
    have asks : List.countP (·.owes number) [(⟨node.host, .agent node.pid,
        some ⟨node.host, s.responses.length⟩, .activate kind id⟩ : Packet)] =
          if number = s.responses.length then 1 else 0 := by
      simp [Packet.owes, Dest.replies, eq_comm]
    rw [debt_still traced again rfl]
    change (s.post _ [_]).packets.countP _ + _ + held (s.responses ++ [_]) number ≤ _
    rw [packets_post, status, asks, debt]
    simp only [ask, tell, post, List.length_append, List.length_singleton, Nat.add_sub_cancel_left]
    omega
  | deactivate pid found | provide members found =>
    rw [debt_still traced again rfl]
    change (s.post _ [_]).packets.countP _ + _ + held s.responses number ≤ _
    rw [packets_post, debt]
    simp [Packet.owes, Dest.replies]
  | @spawn i node id found =>
    have status : held (s.responses ++ [⟨node.host, .spawn ⟨node.host, id⟩, .pending⟩]) number =
        held s.responses number := held_append _ (by simp)
    have asks : List.countP (·.owes number) [(⟨node.host, .agent node.pid,
        some ⟨node.host, s.responses.length⟩, .getMembers⟩ : Packet)] =
          if number = s.responses.length then 1 else 0 := by
      simp [Packet.owes, Dest.replies, eq_comm]
    rw [debt_same traced again found rfl rfl]
    change (s.post _ [_]).packets.countP _ + _ + held (s.responses ++ [_]) number ≤ _
    rw [packets_post, status, asks, debt]
    simp only [ask, tell, post, List.length_append, List.length_singleton, Nat.add_sub_cancel_left]
    omega
  | handle found free idle split first received =>
    exact debt_handle traced again found free split received rfl rfl rfl number
  | wake found waits asked answered idle resumed =>
    refine (debt_wake traced ⟨found, waits, asked⟩ again rfl rfl ?_).trans (Nat.le_add_right _ _)
    rw [packets_post, resume_owes resumed]
  | timeout found waits asked idle =>
    refine (debt_wake traced ⟨found, waits, asked⟩ again rfl rfl ?_).trans (Nat.le_add_right _ _)
    rw [packets_post, respond_owes]
  | send split | mail split =>
    rw [debt_still traced again rfl, debt, split]
    simp only [List.countP_append, List.countP_cons, List.countP_nil]
    omega
  | lose split =>
    rw [debt_still traced again rfl, debt, split]
    simp only [List.countP_append, List.countP_cons]
    omega
  | @answer before queue packet after reply split first arrives target =>
    have status := held_answer number s.responses reply packet.msg
    have paid : (if (Dest.response reply).replies number then 1 else 0) ≤
        if packet.owes number then 1 else 0 := by
      split
      · rename_i replies
        rw [Packet.owes, target, replies, Bool.or_true, if_pos rfl]
      · exact Nat.zero_le _
    refine le_trans ?_ (Nat.le_add_right _ _)
    rw [debt_still traced again rfl, debt, split]
    simp only [List.countP_append, List.countP_cons]
    omega
  | @returns number' response msg asked outside answered =>
    have closed := held_close number s.responses response number' (response.returned msg)
    refine le_trans ?_ (Nat.le_add_right _ _)
    rw [debt_still traced again rfl, packets_post, announcements_owes, debt]
    exact Nat.add_le_add_left closed _
  | @expire number' response asked =>
    have closed := held_close number s.responses response number' none
    refine le_trans ?_ (Nat.le_add_right _ _)
    rw [debt_still traced again rfl, debt]
    exact Nat.add_le_add_left closed _
  | stop found =>
    rw [debt_same traced again found rfl rfl]
    exact Nat.le_add_right _ _

theorem owed_move (owed : s.Owed) (move : Move s label t) : t.Owed where
  traced := traced_move owed.traced move
  one number := by
    have change := debt_move owed.traced move number
    by_cases new : number = s.responses.length
    · have none := owed.fresh number (ge_of_eq new)
      have few : t.responses.length ≤ s.responses.length + 1 := by
        cases move with
        | activate | spawn => simp [tell, ask, post]
        | handle found free idle split first received => cases received <;> simp
        | wake | timeout | returns | expire => simp [post]
        | answer => simp
        | deactivate | provide | send | mail | lose | stop => exact Nat.le_succ _
      rw [none, if_pos new] at change
      omega
    · rw [if_neg new, Nat.add_zero] at change
      exact change.trans (owed.one number)
  fresh number beyond := by
    have change := debt_move owed.traced move number
    have none := owed.fresh number ((responses_length move).trans beyond)
    rw [none, Nat.zero_add] at change
    split at change <;> omega

theorem initial_owed (configs : List Config) : (initial configs).Owed := by
  have none (number : Nat) : (initial configs).debt number = 0 := by
    have idle : (initial configs).nodes.countP (·.owes (initial configs).purpose number) = 0 := by
      rw [List.countP_eq_zero]
      intro node member
      obtain ⟨config, -, rfl⟩ := List.mem_map.mp member
      rintro ⟨⟩
    rw [debt, idle]
    rfl
  constructor
  · exact initial_traced configs
  · intro number
    rw [none]
    exact Nat.zero_le 1
  · intro number beyond
    exact none number

end State

end Hollywood.Cluster
