import Hollywood.Cluster
import Hollywood.Foundation.Pool
import Hollywood.Foundation.Queues
import Hollywood.Foundation.Transition

/-! A cluster: the agents of its members, the actors they run, the calls of
`cluster/cluster.go`, and the packets between them. An agent sends its packets one
after the other before it takes the next message, and it stays inside `Receive`
while it waits for the answer to a request (`actor/response.go`). Two engines are
joined by a channel in each direction that keeps the order of its packets; a
packet for an agent on the same engine goes straight to its mailbox. An agent that
panics is restarted (`actor/process.go`); the panic after its last restart ends the
program on its node, and the agent takes no step any more. What users give, to select
a member or to produce an actor, does not panic. -/
namespace Hollywood.Cluster

/-- The process that takes the answer to a request. Its number stands for the id
that is drawn for it. -/
structure Reply where
  host : String
  number : Nat
  deriving DecidableEq, Repr

inductive Dest where
  | agent (pid : PID)
  | response (reply : Reply)
  deriving DecidableEq, Repr

def Dest.host : Dest → String
  | .agent pid => pid.address
  | .response reply => reply.host

structure Packet where
  source : String
  dest : Dest
  sender : Option Reply
  msg : Message
  deriving DecidableEq, Repr

/-- Where a packet is: in the mailbox of a node's agent, among the sends that the
agent or a `Cluster.Spawn` has still to make, or between two engines. -/
inductive Queue where
  | mailbox (node : Nat)
  | outbox (node : Nat)
  | spawner (number : Nat)
  | channel (source target : String)
  deriving DecidableEq, Repr

/-- What a request was made for: a call of `Cluster.Activate`, the list of members
that a call of `Cluster.Spawn` needs, or an agent's activation on another member
for the sender of an `activate`. -/
inductive Purpose where
  | activate (kind id : String)
  | spawn (pid : PID)
  | activation (kind id : String) (caller : Option Reply)
  deriving DecidableEq, Repr

/-- A request is closed once its caller has read the answer or given up; a call of
`Activate` then returns the PID. -/
inductive Status where
  | pending
  | answered (msg : Message)
  | closed (returned : Option PID)
  deriving DecidableEq, Repr

structure Response where
  host : String
  purpose : Purpose
  status : Status
  deriving DecidableEq, Repr

namespace Response

/-- Only the first answer is taken, and none after the caller has given up. -/
def answer (response : Response) (msg : Message) : Response :=
  if response.status = .pending then { response with status := .answered msg } else response

def caller (response : Response) : Option Reply :=
  match response.purpose with
  | .activation _ _ caller => caller
  | .activate _ _ | .spawn _ => none

/-- The agents' own requests; the others are made by calls from outside. -/
def ofAgent (response : Response) : Bool :=
  match response.purpose with
  | .activation _ _ _ => true
  | .activate _ _ | .spawn _ => false

/-- What a call returns on an answer. -/
def returned (response : Response) (msg : Message) : Option PID :=
  match response.purpose, msg with
  | .activate _ _, .pid pid => pid
  | _, _ => none

/-- What `Cluster.Spawn` sends once it has the members. -/
def announcements (response : Response) (msg : Message) : List Packet :=
  match response.purpose, msg with
  | .spawn pid, .slice members =>
    members.map fun member => ⟨response.host, .agent member.pid, none, .activation (some pid)⟩
  | _, _ => []

end Response

/-- An actor that is registered on a node, with the request it was spawned for. -/
structure LocalActor where
  id : String
  requester : Option Reply
  poisoned : Bool
  deriving DecidableEq, Repr

structure Node where
  id : String
  agent : Agent
  actors : Keyed LocalActor.id
  waiting : Option Nat
  restarts : Nat
  deriving DecidableEq

/-- What the handling of one `Deactivation` did: the entries it removed and the
actor it sent a pill to. -/
structure Hit where
  pid : PID
  removed : List PID
  stopped : List PID
  deriving DecidableEq, Repr

/-- What an agent can see but not decide while it handles a message: what the
configured function selects, the id that `Spawn` draws, the order of a map. -/
structure Choice where
  selected : Option Member
  drawn : String
  order : List Member

/-- The handler of the message dereferences a nil PID. -/
def Message.fatal : Message → Bool
  | .activation actor | .deactivation actor => actor.isNone
  | .actorTopology actors => !actors.all Option.isSome
  | _ => false

structure Handling where
  node : Node
  sends : List Packet
  asks : List Response
  hits : List Hit

namespace Node

def host (node : Node) : String := node.agent.address

def pid (node : Node) : PID := ⟨node.host, "cluster/" ++ node.id⟩

def send (node : Node) (target : PID) (msg : Message) : Packet :=
  ⟨node.host, .agent target, none, msg⟩

def respond (node : Node) (sender : Option Reply) (msg : Message) : List Packet :=
  sender.toList.map fun reply => ⟨node.host, .response reply, none, msg⟩

/-- `Spawn` starts an actor only under a free id. -/
def spawn (node : Node) (pid : Option PID) (requester : Option Reply) : Node :=
  match pid with
  | some pid => { node with actors := node.actors.add ⟨pid.id, requester, false⟩ }
  | none => node

/-- The registry is looked up by the id alone. -/
def poison (node : Node) (pid : PID) : Node :=
  match node.actors.get? pid.id with
  | some actor => { node with actors := node.actors.put { actor with poisoned := true } }
  | none => node

def sendsOf (node : Node) (effects : List Effect) : List Packet :=
  effects.filterMap fun
    | .send target msg => some (node.send target msg)
    | .poison _ | .event _ => none

/-- The end of a successful activation: tell every member, then the caller. -/
def announce (node : Node) (order : List Member) (pid : Option PID) (caller : Option Reply) :
    Option (List Packet) :=
  (node.agent.bcast order (.activation pid)).map fun sends =>
    sends.map (fun (target, msg) => node.send target msg) ++ node.respond caller (.pid pid)

/-- The rest of `Agent.activate` after the answer to its request. -/
def resume (node : Node) (order : List Member) (msg : Message) (caller : Option Reply) :
    Option (List Packet) :=
  match msg with
  | .activationResponse pid true => node.announce order pid caller
  | _ => some (node.respond caller (.pid none))

/-- `Agent.activate` up to its request. The request is the number-th one. -/
def activate (node : Node) (kind id : String) (caller : Option Reply) (choice : Choice)
    (number : Nat) : Option Handling :=
  match node.agent.activate kind id choice.selected with
  | none => some ⟨node, node.respond caller (.pid none), [], []⟩
  | some member =>
    if member.host = node.host then
      let pid := node.agent.handleActivationRequest kind id choice.drawn
      (node.announce choice.order pid caller).map fun sends => ⟨node.spawn pid caller, sends, [], []⟩
    else
      some ⟨{ node with waiting := some number },
        [⟨node.host, .agent member.pid, some ⟨node.host, number⟩, .activationRequest kind id⟩],
        [⟨node.host, .activation kind id caller, .pending⟩], []⟩

/-- What a handled `Deactivation` removed and stopped on a node. -/
def hit (node : Node) (agent : Agent) (pid : PID) : Hit where
  pid := pid
  removed := node.agent.activated.entries.filter fun entry => ¬ entry ∈ agent.activated.entries
  stopped := (node.actors.get? pid.id).toList.map fun actor => ⟨node.host, actor.id⟩

def receive (node : Node) (packet : Packet) (choice : Choice) (number : Nat) : Option Handling :=
  match packet.msg with
  | .actorTopology actors =>
    (node.agent.handleActorTopology actors).map fun agent => ⟨{ node with agent }, [], [], []⟩
  | .members members =>
    let (agent, effects) := node.agent.handleMembers members
    some ⟨{ node with agent }, node.sendsOf effects, [], []⟩
  | .activation pid =>
    (node.agent.handleActivation pid).map fun (agent, effects) =>
      ⟨{ node with agent }, node.sendsOf effects, [], []⟩
  | .activate kind id => node.activate kind id packet.sender choice number
  | .deactivate pid =>
    (node.agent.bcast choice.order (.deactivation pid)).map fun sends =>
      ⟨node, sends.map fun (target, msg) => node.send target msg, [], []⟩
  | .deactivation pid => do
    let (agent, effects) ← node.agent.handleDeactivation pid
    let stopped := effects.foldl (fun (node : Node) effect =>
      match effect with
      | .poison pid => node.poison pid
      | .send _ _ | .event _ => node) node
    some ⟨{ stopped with agent }, node.sendsOf effects, [], pid.toList.map (node.hit agent)⟩
  | .activationRequest kind id =>
    let pid := node.agent.handleActivationRequest kind id choice.drawn
    some ⟨node.spawn pid packet.sender,
      node.respond packet.sender (.activationResponse pid pid.isSome), [], []⟩
  | .getMembers => some ⟨node, node.respond packet.sender (.slice node.agent.members.entries), [], []⟩
  | .activationResponse _ _ | .pid _ | .slice _ => some ⟨node, [], [], []⟩

/-- The node with the next incarnation of its agent. -/
def restarted (node : Node) : Node := { node with agent := node.agent.restart, restarts := node.restarts + 1 }

def tryRestart (node : Node) : Option Handling :=
  if node.restarts = defaultMaxRestarts then none else some ⟨node.restarted, [], [], []⟩

/-- A message whose handler panics is gone; those behind it stay for the next incarnation. -/
def invoke (node : Node) (packet : Packet) (choice : Choice) (number : Nat) : Option Handling :=
  if packet.msg.fatal then node.tryRestart else node.receive packet choice number

end Node

structure State where
  nodes : List Node
  packets : List (Queue × Packet)
  responses : List Response
  hits : List Hit
  deriving DecidableEq

/-- The calls on a node (`activate`, `deactivate`, `spawn`), what its provider tells
its agent (`provide`), the steps of its agent (`handle`, `wake`, `timeout`), a packet
leaving a queue (`move`), the return of a call with an answer or without one
(`returns`, `expire`), and the end of a poisoned actor (`stop`). -/
inductive Label where
  | activate (node : Nat) (kind id : String)
  | deactivate (node : Nat) (pid : Option PID)
  | spawn (node : Nat) (id : String)
  | provide (node : Nat) (members : List Member)
  | handle (node : Nat) (choice : Choice)
  | wake (node : Nat) (order : List Member)
  | timeout (node : Nat)
  | move (queue : Queue)
  | returns (number : Nat)
  | expire (number : Nat)
  | stop (node : Nat) (id : String)

namespace State

/-- A member of the cluster that has been told the members and knows of no active
actor yet. -/
structure Config where
  host : String
  id : String
  kinds : List String
  members : List Member

def Config.node (config : Config) : Node :=
  ⟨config.id, ((newAgent config.host config.kinds).handleMembers config.members).1, .empty, none, 0⟩

def initial (configs : List Config) : State := ⟨configs.map Config.node, [], [], []⟩

/-- Whether the agent has made all its sends. -/
def idle (s : State) (i : Nat) : Bool := (Queues.content (.outbox i) s.packets).isEmpty

/-- The message that the agent of a node handles next. -/
def next (s : State) (i : Nat) : Option Packet := (Queues.content (.mailbox i) s.packets).head?

def post (s : State) (queue : Queue) (packets : List Packet) : State :=
  { s with packets := s.packets ++ packets.map fun packet => (queue, packet) }

/-- A packet reaches its engine: without the process it is for, it is a dead letter. -/
def deliver (s : State) (packet : Packet) : State :=
  match packet.dest with
  | .agent pid =>
    match s.nodes.findIdx? fun node => node.pid = pid with
    | some i => s.post (.mailbox i) [packet]
    | none => s
  | .response reply =>
    { s with responses := s.responses.modify reply.number (·.answer packet.msg) }

/-- A send: to the own engine at once, to another one through the channel. -/
def route (s : State) (packet : Packet) : State :=
  if packet.dest.host = packet.source then s.deliver packet
  else s.post (.channel packet.source packet.dest.host) [packet]

/-- A packet that has left its queue. -/
def forward (s : State) (queue : Queue) (packet : Packet) : Option State :=
  match queue with
  | .mailbox _ => none
  | .outbox _ | .spawner _ => some (s.route packet)
  | .channel _ _ => some (s.deliver packet)

/-- A call puts a message into the mailbox of the agent on its node. -/
def tell (s : State) (i : Nat) (node : Node) (sender : Option Reply) (msg : Message) : State :=
  s.post (.mailbox i) [⟨node.host, .agent node.pid, sender, msg⟩]

def ask (s : State) (response : Response) : State :=
  { s with responses := s.responses ++ [response] }

def step (s : State) : Label → Option State
  | .activate i kind id => do
    let node ← s.nodes[i]?
    some ((s.tell i node (some ⟨node.host, s.responses.length⟩) (.activate kind id)).ask
      ⟨node.host, .activate kind id, .pending⟩)
  | .deactivate i pid => do
    let node ← s.nodes[i]?
    some (s.tell i node none (.deactivate pid))
  | .spawn i id => do
    let node ← s.nodes[i]?
    let pid : PID := ⟨node.host, id⟩
    some (({ s with nodes := s.nodes.set i (node.spawn (some pid) none) }.tell i node
      (some ⟨node.host, s.responses.length⟩) .getMembers).ask ⟨node.host, .spawn pid, .pending⟩)
  | .provide i members => do
    let node ← s.nodes[i]?
    some (s.tell i node none (.members members))
  | .handle i choice => do
    let node ← s.nodes[i]?
    if node.waiting.isNone && s.idle i then
      let (packet, left) ← Queues.take (.mailbox i) s.packets
      let handling ← node.invoke packet choice s.responses.length
      some { nodes := s.nodes.set i handling.node
             packets := left ++ handling.sends.map fun packet => (.outbox i, packet)
             responses := s.responses ++ handling.asks
             hits := s.hits ++ handling.hits }
    else none
  | .wake i order => do
    let node ← s.nodes[i]?
    let number ← node.waiting
    let response ← s.responses[number]?
    match response.status with
    | .answered msg =>
      if s.idle i then
        let sends ← node.resume order msg response.caller
        some ({ s with
          nodes := s.nodes.set i { node with waiting := none }
          responses := s.responses.set number { response with status := .closed none } }.post
            (.outbox i) sends)
      else none
    | .pending | .closed _ => none
  | .timeout i => do
    let node ← s.nodes[i]?
    let number ← node.waiting
    let response ← s.responses[number]?
    if s.idle i then
      some ({ s with
        nodes := s.nodes.set i { node with waiting := none }
        responses := s.responses.set number { response with status := .closed none } }.post
          (.outbox i) (node.respond response.caller (.pid none)))
    else none
  | .move queue => do
    let (packet, left) ← Queues.take queue s.packets
    { s with packets := left }.forward queue packet
  | .returns number => do
    let response ← s.responses[number]?
    match response.ofAgent, response.status with
    | false, .answered msg =>
      some ({ s with
        responses := s.responses.set number
          { response with status := .closed (response.returned msg) } }.post
            (.spawner number) (response.announcements msg))
    | _, _ => none
  | .expire number => do
    let response ← s.responses[number]?
    match response.ofAgent, response.status with
    | false, .pending | false, .answered _ =>
      some { s with responses := s.responses.set number { response with status := .closed none } }
    | _, _ => none
  | .stop i id => do
    let node ← s.nodes[i]?
    let actor ← node.actors.get? id
    if actor.poisoned then
      some { s with nodes := s.nodes.set i { node with actors := node.actors.erase id } }
    else none

end State

/-- The messages that go to a request and not to an agent. -/
def Message.isAnswer : Message → Bool
  | .activationResponse _ _ | .pid _ | .slice _ => true
  | _ => false

/-- All that the handling of a packet can do. -/
inductive Receives (node : Node) (packet : Packet) (choice : Choice) (number : Nat) :
    Handling → Prop where
  | actorTopology : packet.msg = .actorTopology actors →
      node.agent.handleActorTopology actors = some agent →
      Receives node packet choice number ⟨{ node with agent }, [], [], []⟩
  | members : packet.msg = .members members →
      Receives node packet choice number
        ⟨{ node with agent := (node.agent.handleMembers members).1 },
          node.sendsOf (node.agent.handleMembers members).2, [], []⟩
  | activation : packet.msg = .activation (some pid) →
      Receives node packet choice number
        ⟨{ node with agent := node.agent.addActivated pid }, [], [], []⟩
  | refuse {id : String} : packet.msg = .activate kind id → node.agent.activate kind id choice.selected = none →
      Receives node packet choice number ⟨node, node.respond packet.sender (.pid none), [], []⟩
  | here {id : String} : packet.msg = .activate kind id →
      node.agent.activate kind id choice.selected = some member → member.host = node.host →
      node.announce choice.order (node.agent.handleActivationRequest kind id choice.drawn)
        packet.sender = some sends →
      Receives node packet choice number
        ⟨node.spawn (node.agent.handleActivationRequest kind id choice.drawn) packet.sender, sends, [], []⟩
  | there {id : String} : packet.msg = .activate kind id →
      node.agent.activate kind id choice.selected = some member → member.host ≠ node.host →
      Receives node packet choice number
        ⟨{ node with waiting := some number },
          [⟨node.host, .agent member.pid, some ⟨node.host, number⟩, .activationRequest kind id⟩],
          [⟨node.host, .activation kind id packet.sender, .pending⟩], []⟩
  | deactivate : packet.msg = .deactivate pid → choice.order.Perm node.agent.members.entries →
      Receives node packet choice number
        ⟨node, choice.order.map fun member => node.send member.pid (.deactivation pid), [], []⟩
  | deactivation : packet.msg = .deactivation (some pid) →
      Receives node packet choice number
        ⟨{ node.poison pid with agent := node.agent.removeActivated pid }, [], [],
          [node.hit (node.agent.removeActivated pid) pid]⟩
  | request {id : String} : packet.msg = .activationRequest kind id →
      Receives node packet choice number
        ⟨node.spawn (node.agent.handleActivationRequest kind id choice.drawn) packet.sender,
          node.respond packet.sender (.activationResponse
            (node.agent.handleActivationRequest kind id choice.drawn)
            (node.agent.handleActivationRequest kind id choice.drawn).isSome), [], []⟩
  | getMembers : packet.msg = .getMembers →
      Receives node packet choice number
        ⟨node, node.respond packet.sender (.slice node.agent.members.entries), [], []⟩
  | ignore : packet.msg.isAnswer = true → Receives node packet choice number ⟨node, [], [], []⟩
  | panic : packet.msg.fatal = true → node.restarts ≠ defaultMaxRestarts →
      Receives node packet choice number ⟨node.restarted, [], [], []⟩

theorem Node.bcast_sends {node : Node} (sent : node.agent.bcast order msg = some sends) :
    order.Perm node.agent.members.entries ∧
      sends.map (fun (target, msg) => node.send target msg) =
        order.map fun member => node.send member.pid msg := by
  unfold Agent.bcast at sent
  split at sent
  · cases sent
    exact ⟨by assumption, by simp [Function.comp_def]⟩
  · cases sent

theorem Node.announce_sends {node : Node} {pid : Option PID} (announced : node.announce order pid caller = some sends) :
    order.Perm node.agent.members.entries ∧
      sends = order.map (fun member => node.send member.pid (.activation pid)) ++
        node.respond caller (.pid pid) := by
  obtain ⟨broadcast, sent, rfl⟩ := Option.map_eq_some_iff.mp announced
  obtain ⟨every, packed⟩ := bcast_sends sent
  exact ⟨every, by rw [packed]⟩

theorem Node.receive_cases {node : Node} {packet : Packet}
    (received : node.receive packet choice number = some handling) :
    Receives node packet choice number handling := by
  unfold receive at received
  split at received
  · obtain ⟨agent, handled, rfl⟩ := Option.map_eq_some_iff.mp received
    exact .actorTopology (by assumption) handled
  · cases received
    exact .members (by assumption)
  · rename_i pid msg
    cases pid with
    | none => cases received
    | some pid =>
      cases received
      exact .activation msg
  · rename_i kind id msg
    unfold activate at received
    split at received
    · cases received
      exact .refuse msg (by assumption)
    · rename_i member chosen
      split at received
      · obtain ⟨sends, announced, rfl⟩ := Option.map_eq_some_iff.mp received
        exact .here msg chosen (by assumption) announced
      · cases received
        exact .there msg chosen (by assumption)
  · obtain ⟨sends, sent, rfl⟩ := Option.map_eq_some_iff.mp received
    obtain ⟨every, packed⟩ := bcast_sends sent
    rw [packed]
    exact .deactivate (by assumption) every
  · rename_i pid msg
    cases pid with
    | none => cases received
    | some pid =>
      cases received
      exact .deactivation msg
  · cases received
    exact .request (by assumption)
  · cases received
    exact .getMembers (by assumption)
  all_goals
    cases received
    exact .ignore (by simp [Message.isAnswer, *])

theorem Node.invoke_cases {node : Node} {packet : Packet}
    (invoked : node.invoke packet choice number = some handling) : Receives node packet choice number handling := by
  unfold invoke at invoked
  split at invoked
  · rename_i fatal
    unfold tryRestart at invoked
    split at invoked
    · cases invoked
    · rename_i left
      cases invoked
      exact .panic fatal left
  · exact receive_cases invoked

namespace State

theorem next_eq {s : State} (split : s.packets = before ++ (.mailbox i, packet) :: after)
    (first : ∀ entry ∈ before, entry.1 ≠ .mailbox i) : s.next i = some packet := by
  have skipped : before.filter (fun entry => entry.1 = .mailbox i) = [] := by
    rw [List.filter_eq_nil_iff]
    simpa using first
  simp [next, Queues.content, split, skipped]

/-- A packet leaves its queue for the engine it is addressed to. -/
def Arrives (queue : Queue) (packet : Packet) : Prop :=
  match queue with
  | .mailbox _ => False
  | .outbox _ | .spawner _ => packet.dest.host = packet.source
  | .channel _ _ => True

def Unsent : Queue → Prop
  | .outbox _ | .spawner _ => True
  | .mailbox _ | .channel _ _ => False

/-- All that a step can do. A packet that is taken out of a queue is the first one
there. -/
inductive Move (s : State) : Label → State → Prop where
  | activate (kind id) : s.nodes[i]? = some node →
      Move s (.activate i kind id)
        ((s.tell i node (some ⟨node.host, s.responses.length⟩) (.activate kind id)).ask
          ⟨node.host, .activate kind id, .pending⟩)
  | deactivate (pid) : s.nodes[i]? = some node →
      Move s (.deactivate i pid) (s.tell i node none (.deactivate pid))
  | spawn (id) : s.nodes[i]? = some node →
      Move s (.spawn i id)
        (({ s with nodes := s.nodes.set i (node.spawn (some ⟨node.host, id⟩) none) }.tell i node
          (some ⟨node.host, s.responses.length⟩) .getMembers).ask
            ⟨node.host, .spawn ⟨node.host, id⟩, .pending⟩)
  | provide (members) : s.nodes[i]? = some node →
      Move s (.provide i members) (s.tell i node none (.members members))
  | handle : s.nodes[i]? = some node → node.waiting = none → s.idle i = true →
      s.packets = before ++ (.mailbox i, packet) :: after →
      (∀ entry ∈ before, entry.1 ≠ .mailbox i) →
      Receives node packet choice s.responses.length handling →
      Move s (.handle i choice)
        { nodes := s.nodes.set i handling.node
          packets := (before ++ after) ++ handling.sends.map fun packet => (.outbox i, packet)
          responses := s.responses ++ handling.asks
          hits := s.hits ++ handling.hits }
  | wake : s.nodes[i]? = some node → node.waiting = some number →
      s.responses[number]? = some response → response.status = .answered msg → s.idle i = true →
      node.resume order msg response.caller = some sends →
      Move s (.wake i order)
        ({ s with
          nodes := s.nodes.set i { node with waiting := none }
          responses := s.responses.set number { response with status := .closed none } }.post
            (.outbox i) sends)
  | timeout : s.nodes[i]? = some node → node.waiting = some number →
      s.responses[number]? = some response → s.idle i = true →
      Move s (.timeout i)
        ({ s with
          nodes := s.nodes.set i { node with waiting := none }
          responses := s.responses.set number { response with status := .closed none } }.post
            (.outbox i) (node.respond response.caller (.pid none)))
  | send : s.packets = before ++ (queue, packet) :: after → (∀ entry ∈ before, entry.1 ≠ queue) →
      Unsent queue → packet.dest.host ≠ packet.source →
      Move s (.move queue)
        { s with packets := (before ++ after) ++ [(.channel packet.source packet.dest.host, packet)] }
  | mail : s.packets = before ++ (queue, packet) :: after → (∀ entry ∈ before, entry.1 ≠ queue) →
      Arrives queue packet → packet.dest = .agent pid →
      (s.nodes.findIdx? fun node => node.pid = pid) = some i →
      Move s (.move queue) { s with packets := (before ++ after) ++ [(.mailbox i, packet)] }
  | lose : s.packets = before ++ (queue, packet) :: after → (∀ entry ∈ before, entry.1 ≠ queue) →
      Arrives queue packet → packet.dest = .agent pid →
      (s.nodes.findIdx? fun node => node.pid = pid) = none →
      Move s (.move queue) { s with packets := before ++ after }
  | answer : s.packets = before ++ (queue, packet) :: after → (∀ entry ∈ before, entry.1 ≠ queue) →
      Arrives queue packet → packet.dest = .response reply →
      Move s (.move queue)
        { s with
          packets := before ++ after
          responses := s.responses.modify reply.number (·.answer packet.msg) }
  | returns : s.responses[number]? = some response → response.ofAgent = false →
      response.status = .answered msg →
      Move s (.returns number)
        ({ s with
          responses := s.responses.set number
            { response with status := .closed (response.returned msg) } }.post
              (.spawner number) (response.announcements msg))
  | expire : s.responses[number]? = some response → response.ofAgent = false →
      (∀ pid, response.status ≠ .closed pid) →
      Move s (.expire number)
        { s with responses := s.responses.set number { response with status := .closed none } }
  | stop {id : String} : s.nodes[i]? = some node → node.actors.get? id = some actor → actor.poisoned = true →
      Move s (.stop i id)
        { s with nodes := s.nodes.set i { node with actors := node.actors.erase id } }

theorem deliver_move {s : State} (taken : s.packets = before ++ (queue, packet) :: after)
    (first : ∀ entry ∈ before, entry.1 ≠ queue) (arrives : Arrives queue packet) :
    Move s (.move queue) ({ s with packets := before ++ after }.deliver packet) := by
  unfold deliver
  cases target : packet.dest with
  | response reply => exact .answer taken first arrives target
  | agent pid =>
    dsimp only
    cases found : s.nodes.findIdx? fun node => decide (node.pid = pid) with
    | none => exact .lose taken first arrives target found
    | some i => exact .mail taken first arrives target found

theorem forward_move {s : State} (taken : s.packets = before ++ (queue, packet) :: after)
    (first : ∀ entry ∈ before, entry.1 ≠ queue)
    (forwarded : forward { s with packets := before ++ after } queue packet = some t) :
    Move s (.move queue) t := by
  have routed (unsent : Unsent queue) (local_ : packet.dest.host = packet.source → Arrives queue packet) :
      Move s (.move queue) ({ s with packets := before ++ after }.route packet) := by
    unfold route
    split
    · exact deliver_move taken first (local_ (by assumption))
    · exact .send taken first unsent (by assumption)
  cases queue with
  | mailbox i => cases forwarded
  | outbox i | spawner i =>
    cases forwarded
    exact routed trivial id
  | channel source target =>
    cases forwarded
    exact deliver_move taken first trivial

theorem step_move {s t : State} (stepped : step s label = some t) : Move s label t := by
  cases label with
  | activate i kind id | deactivate i pid | spawn i id | provide i members =>
    simp only [step, Option.bind_eq_bind, Option.bind_eq_some_iff, Option.some.injEq] at stepped
    obtain ⟨node, found, rfl⟩ := stepped
    first
    | exact .activate _ _ found
    | exact .deactivate _ found
    | exact .spawn _ found
    | exact .provide _ found
  | handle i choice =>
    simp only [step, Option.bind_eq_bind, Option.bind_eq_some_iff] at stepped
    obtain ⟨node, found, stepped⟩ := stepped
    split at stepped
    · rename_i ready
      simp only [Option.bind_eq_some_iff, Option.some.injEq] at stepped
      obtain ⟨⟨packet, left⟩, taken, handling, invoked, rfl⟩ := stepped
      rw [Bool.and_eq_true, Option.isNone_iff_eq_none] at ready
      obtain ⟨before, after, split, rfl, first⟩ := Queues.take_some taken
      exact .handle found ready.1 ready.2 split first (Node.invoke_cases invoked)
    · cases stepped
  | wake i order =>
    simp only [step, Option.bind_eq_bind, Option.bind_eq_some_iff] at stepped
    obtain ⟨node, found, number, waits, response, asked, stepped⟩ := stepped
    split at stepped
    · rename_i msg answered
      split at stepped
      · simp only [Option.bind_eq_some_iff, Option.some.injEq] at stepped
        obtain ⟨sends, resumed, rfl⟩ := stepped
        exact .wake found waits asked answered (by assumption) resumed
      · cases stepped
    · cases stepped
    · cases stepped
  | timeout i =>
    simp only [step, Option.bind_eq_bind, Option.bind_eq_some_iff] at stepped
    obtain ⟨node, found, number, waits, response, asked, stepped⟩ := stepped
    split at stepped
    · cases stepped
      exact .timeout found waits asked (by assumption)
    · cases stepped
  | move queue =>
    simp only [step, Option.bind_eq_bind, Option.bind_eq_some_iff] at stepped
    obtain ⟨⟨packet, left⟩, taken, forwarded⟩ := stepped
    obtain ⟨before, after, split, rfl, first⟩ := Queues.take_some taken
    exact forward_move split first forwarded
  | returns number =>
    simp only [step, Option.bind_eq_bind, Option.bind_eq_some_iff] at stepped
    obtain ⟨response, asked, stepped⟩ := stepped
    split at stepped
    · cases stepped
      exact .returns asked (by assumption) (by assumption)
    · cases stepped
  | expire number =>
    simp only [step, Option.bind_eq_bind, Option.bind_eq_some_iff] at stepped
    obtain ⟨response, asked, stepped⟩ := stepped
    split at stepped
    · rename_i outside pending
      cases stepped
      exact .expire asked outside (by rw [pending]; rintro _ ⟨⟩)
    · rename_i outside answered
      cases stepped
      exact .expire asked outside (by rw [answered]; rintro _ ⟨⟩)
    · cases stepped
  | stop i id =>
    simp only [step, Option.bind_eq_bind, Option.bind_eq_some_iff] at stepped
    obtain ⟨node, found, actor, present, stepped⟩ := stepped
    split at stepped
    · cases stepped
      exact .stop found present (by assumption)
    · cases stepped

end State

end Hollywood.Cluster
