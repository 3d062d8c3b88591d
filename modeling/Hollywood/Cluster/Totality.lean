import Hollywood.Cluster.Network
import Hollywood.Cluster.Provider

/-! Agents and providers under all messages that peers can send them. A field of a
decoded message that is itself a message is nil when it is absent, and the handlers
dereference it without a check. -/
namespace Hollywood.Cluster

/-- The messages of `cluster.proto` that are sent between nodes. The elements of a
repeated field are never nil; the PID of an `ActorInfo` can be. -/
inductive Arrival where
  | activation (pid : Option PID)
  | deactivation (pid : Option PID)
  | actorTopology (actors : List (Option PID))
  | activationRequest (kind id : String)
  | members (members : List Member)
  | handshake (member : Option Member)
  deriving DecidableEq

namespace Arrival

/-- No field of the message is absent. -/
def complete : Arrival → Bool
  | .activation pid | .deactivation pid => pid.isSome
  | .actorTopology actors => actors.all Option.isSome
  | .activationRequest _ _ | .members _ => true
  | .handshake member => member.isSome

/-- What an agent has a case for in its `Receive`. -/
def message : Arrival → Option Message
  | .activation pid => some (.activation pid)
  | .deactivation pid => some (.deactivation pid)
  | .actorTopology actors => some (.actorTopology actors)
  | .activationRequest kind id => some (.activationRequest kind id)
  | .members listed => some (.members listed)
  | .handshake _ => none

end Arrival

/-- The agent of a node receives a message. -/
def Node.receives (node : Node) (sender : Option Reply) (choice : Choice) (number : Nat) (arrival : Arrival) :
    Option Handling :=
  match arrival.message with
  | some msg => node.receive ⟨node.host, .agent node.pid, sender, msg⟩ choice number
  | none => some ⟨node, [], [], []⟩

namespace Bootstrap

/-- The provider receives a message; it logs those it has no case for. -/
def SelfManaged.receives (s : SelfManaged) (sender : Option PID) :
    Arrival → Option (SelfManaged × List MembersSend)
  | .handshake member => s.handshake member sender
  | .members listed => some (s.addMembers listed, [(s.addMembers listed).sendMembersToAgent])
  | .activation _ | .deactivation _ | .actorTopology _ | .activationRequest _ _ => some (s, [])

def Msg.arrival : Msg → Arrival
  | .handshake member => .handshake (some member)
  | .members listed => .members listed

/-- Between nodes that only handshake, the provider does as it does there, and tells its
agent. -/
theorem SelfManaged.receives_arrival (s : SelfManaged) (envelope : Envelope) :
    s.receives envelope.sender envelope.msg.arrival = some ((s.receive envelope).1,
      (s.receive envelope).1.sendMembersToAgent :: envelope.sender.toList.flatMap fun sender =>
        match envelope.msg with
        | .handshake _ => [⟨sender, (s.receive envelope).1.members.entries⟩]
        | .members _ => []) := by
  obtain ⟨target, sender, msg⟩ := envelope
  cases msg with
  | handshake member => cases sender <;> rfl
  | members members => cases sender <;> rfl

end Bootstrap

open Bootstrap (SelfManaged)

theorem Node.receives_isSome (node : Node) (sender : Option Reply) (choice : Choice) (number : Nat)
    (arrival : Arrival) :
    (node.receives sender choice number arrival).isSome = true ↔
      arrival.complete = true ∨ ∃ member, arrival = .handshake member := by
  cases arrival with
  | activation pid =>
    cases pid with
    | none => simp [receives, Arrival.message, receive, Agent.handleActivation, Arrival.complete]
    | some pid => simp [receives, Arrival.message, receive, Agent.handleActivation, Arrival.complete]
  | deactivation pid =>
    cases pid with
    | none => simp [receives, Arrival.message, receive, Agent.handleDeactivation, Arrival.complete]
    | some pid => simp [receives, Arrival.message, receive, Agent.handleDeactivation, Arrival.complete]
  | actorTopology actors =>
    simp only [receives, Arrival.message, receive, Option.isSome_map, Agent.handleActorTopology_isSome,
      Arrival.complete, reduceCtorEq, exists_false, or_false]
  | activationRequest kind id => simp [receives, Arrival.message, receive, Arrival.complete]
  | members members => simp [receives, Arrival.message, receive, Arrival.complete]
  | handshake member => simp [receives, Arrival.message]

theorem Bootstrap.SelfManaged.receives_isSome (s : SelfManaged) (sender : Option PID) (arrival : Arrival) :
    (s.receives sender arrival).isSome = true ↔ arrival ≠ .handshake none := by
  cases arrival with
  | handshake member =>
    cases member with
    | none => simp [receives, handshake]
    | some member => simp [receives, handshake]
  | _ => simp [receives]

/-- For every agent, every provider and every decodable message: neither panics if and
only if no field of the message is absent. -/
theorem cluster_handlers_total_iff (node : Node) (s : SelfManaged) (arrival : Arrival) (caller : Option Reply)
    (sender : Option PID) (choice : Choice) (number : Nat) :
    ((node.receives caller choice number arrival).isSome = true ∧ (s.receives sender arrival).isSome = true) ↔
      arrival.complete = true := by
  rw [node.receives_isSome, s.receives_isSome]
  cases arrival with
  | handshake member => cases member <;> simp [Arrival.complete]
  | _ => simp [Arrival.complete]

/-- A member of a cluster of three. -/
def settledNode : Node := ⟨"A", Agent.settledAgent, .empty, none, 0⟩

def everyone : Choice := ⟨none, "", Agent.settledAgent.members.entries⟩

/-- `Deactivate` of a PID that was not found: the agent tells every member to deactivate
nil, and an agent panics at that. So it does at an activation or a topology without a PID,
and a provider at a handshake without a member. -/
theorem nil_deactivation_panics :
    (settledNode.receive ⟨"h:1", .agent settledNode.pid, none, .deactivate none⟩ everyone 0).map
        (fun handling => handling.sends.map fun packet => (packet.dest, packet.msg)) =
      some [(.agent ⟨"h:1", "cluster/A"⟩, .deactivation none), (.agent ⟨"h:2", "cluster/B"⟩, .deactivation none),
        (.agent ⟨"h:3", "cluster/C"⟩, .deactivation none)] ∧
      (settledNode.receives none everyone 0 (.deactivation none)).isNone = true ∧
      (settledNode.receives none everyone 0 (.activation none)).isNone = true ∧
      (settledNode.receives none everyone 0 (.actorTopology [some ⟨"h:2", "k/1"⟩, none])).isNone = true ∧
      (settledProvider.receives (some ⟨"h:2", "provider/B"⟩) (.handshake none)).isNone = true := by
  decide +kernel

end Hollywood.Cluster
