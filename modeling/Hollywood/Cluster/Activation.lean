import Hollywood.Cluster.Network

/-! Activation of an actor on the agent's own node and on another one. Both branches of
`Agent.activate` end in the same broadcast, but only the remote one looks at `Success`. -/
namespace Hollywood.Cluster

/-- What a selection function is told. The members are those that have the kind. -/
structure ActivationDetails where
  region : String
  members : List Member
  kind : String

structure ActivationConfig where
  id : String
  region : String
  selectMember : Option (ActivationDetails → Option Member)

/-- What `activate` can see but not decide: the numbers and the id drawn, the agents that a
request to a PID can reach, and whether the answer comes before the timeout. -/
structure Surroundings where
  drawnMember : Nat
  drawnID : String
  peers : PID → Option Agent
  inTime : Bool

/-- `SelectRandomMember`, with the number it draws. -/
def selectRandomMember (number : Nat) (details : ActivationDetails) : Option Member :=
  details.members[number % details.members.length]?

/-- The Activation that is broadcast, if any, with its PID, and the PID that is returned. -/
structure Outcome where
  broadcast : Option (Option PID)
  returned : Option PID
  deriving DecidableEq

/-- `Request(..).Result()` for an activation request; `none` is an error. -/
def Surroundings.request (env : Surroundings) (target : PID) (kind id : String) : Option Message :=
  if env.inTime then
    (env.peers target).map fun agent =>
      let pid := agent.handleActivationRequest kind id env.drawnID
      .activationResponse pid pid.isSome
  else none

namespace Agent

/-- What the configured function returns; without one a member is drawn. -/
def select (a : Agent) (kind : String) (config : ActivationConfig) (env : Surroundings) :
    Option Member :=
  config.selectMember.getD (selectRandomMember env.drawnMember)
    ⟨config.region, a.members.filterByKind kind, kind⟩

/-- The member that an activation goes to. -/
def chosen (a : Agent) (kind : String) (config : ActivationConfig) (env : Surroundings) :
    Option Member :=
  a.activate kind config.id (a.select kind config env)

/-- The whole of `Agent.activate`. -/
def activateWith (a : Agent) (kind : String) (config : ActivationConfig) (env : Surroundings) :
    Outcome :=
  match a.chosen kind config env with
  | none => ⟨none, none⟩
  | some member =>
    if member.host = a.address then
      -- `Success` is not looked at here
      let pid := a.handleActivationRequest kind config.id env.drawnID
      ⟨some pid, pid⟩
    else
      match env.request member.pid kind config.id with
      | some (.activationResponse pid true) => ⟨some pid, pid⟩
      | _ => ⟨none, none⟩

/-- What `handleActivationRequest` of the chosen member comes to; `none` also when no
member is chosen or the request reaches no agent. -/
def spawned (a : Agent) (kind : String) (config : ActivationConfig) (env : Surroundings) :
    Option PID :=
  match a.chosen kind config env with
  | none => none
  | some member =>
    if member.host = a.address then a.handleActivationRequest kind config.id env.drawnID
    else (env.peers member.pid).bind (·.handleActivationRequest kind config.id env.drawnID)

theorem handleActivationRequest_isSome (a : Agent) (kind id drawn : String) :
    (a.handleActivationRequest kind id drawn).isSome = a.hasKindLocal kind := by
  rw [handleActivationRequest]
  cases a.hasKindLocal kind with
  | true => rfl
  | false => rfl

variable {a : Agent} {kind : String} {config : ActivationConfig} {env : Surroundings} {member : Member}

theorem activateWith_refused (refused : a.chosen kind config env = none) :
    a.activateWith kind config env = ⟨none, none⟩ ∧ a.spawned kind config env = none := by
  simp [activateWith, spawned, refused]

/-- Here the broadcast is made whatever the request comes to. -/
theorem activateWith_here (chosen : a.chosen kind config env = some member)
    (here : member.host = a.address) :
    a.activateWith kind config env =
        ⟨some (a.spawned kind config env), a.spawned kind config env⟩ ∧
      (a.spawned kind config env).isSome = a.hasKindLocal kind := by
  constructor
  · simp [activateWith, spawned, chosen, here]
  · simp [spawned, chosen, here, handleActivationRequest_isSome]

/-- There it is made for a success that is answered in time. -/
theorem activateWith_there (chosen : a.chosen kind config env = some member)
    (there : member.host ≠ a.address) :
    a.activateWith kind config env =
      if env.inTime = true ∧ (a.spawned kind config env).isSome = true then
        ⟨some (a.spawned kind config env), a.spawned kind config env⟩
      else ⟨none, none⟩ := by
  simp only [activateWith, spawned, chosen, there, if_false, Surroundings.request]
  cases env.inTime with
  | false => simp
  | true =>
    cases env.peers member.pid with
    | none => simp
    | some peer => cases made : peer.handleActivationRequest kind config.id env.drawnID <;> simp [made]

theorem spawned_there (chosen : a.chosen kind config env = some member)
    (there : member.host ≠ a.address) : (a.spawned kind config env).isSome = true ↔
      ∃ peer, env.peers member.pid = some peer ∧ peer.hasKindLocal kind = true := by
  simp only [spawned, chosen, there, if_false]
  cases env.peers member.pid with
  | none => simp
  | some peer => simp [handleActivationRequest_isSome]

/-- An Activation is broadcast if and only if the chosen member spawned the actor; its PID
is then not nil and is the one returned, and otherwise nil is returned. -/
def Agrees (outcome : Outcome) (spawned : Option PID) : Prop :=
  (outcome.broadcast.isSome = true ↔ spawned.isSome = true) ∧
    (∀ pid, outcome.broadcast = some pid → pid.isSome = true ∧ pid = outcome.returned) ∧
    (outcome.broadcast = none → outcome.returned = none)

theorem agrees_nothing (spawned : Option PID) : Agrees ⟨none, none⟩ spawned ↔ spawned = none := by
  cases spawned with
  | none => simp [Agrees]
  | some pid => simp [Agrees]

theorem agrees_broadcast (spawned : Option PID) :
    Agrees ⟨some spawned, spawned⟩ spawned ↔ spawned.isSome = true := by
  cases spawned with
  | none => simp [Agrees]
  | some pid => simp [Agrees]

/-- For every agent, kind, configuration and selection function, and whatever the request
meets with: the two branches agree on failure if and only if a member chosen on the agent's
own node has the kind registered there, and one on another node that has it registered is
heard of before the timeout. -/
theorem activation_agrees_iff (a : Agent) (kind : String) (config : ActivationConfig)
    (env : Surroundings) :
    Agrees (a.activateWith kind config env) (a.spawned kind config env) ↔
      ∀ member, a.chosen kind config env = some member →
        (member.host = a.address → a.hasKindLocal kind = true) ∧
          (member.host ≠ a.address → ∀ peer, env.peers member.pid = some peer →
            peer.hasKindLocal kind = true → env.inTime = true) := by
  cases found : a.chosen kind config env with
  | none =>
    obtain ⟨outcome, nothing⟩ := activateWith_refused found
    rw [outcome, nothing, agrees_nothing]
    simp
  | some member =>
    simp only [Option.some.injEq, forall_eq']
    by_cases here : member.host = a.address
    · obtain ⟨outcome, registered⟩ := activateWith_here found here
      rw [outcome, agrees_broadcast, registered]
      simp [here]
    · rw [activateWith_there found here]
      have succeeds := spawned_there found here
      by_cases answered : env.inTime = true ∧ (a.spawned kind config env).isSome = true
      · rw [if_pos answered, agrees_broadcast]
        simp [here, answered]
      · rw [if_neg answered, agrees_nothing, ← Option.not_isSome_iff_eq_none, succeeds]
        rw [succeeds] at answered
        constructor
        · intro failed
          refine ⟨fun near => absurd near here, ?_⟩
          intro _ peer reached registered
          exact absurd ⟨peer, reached, registered⟩ failed
        · rintro ⟨-, timely⟩ ⟨peer, reached, registered⟩
          exact answered ⟨timely here peer reached registered, peer, reached, registered⟩

/-- An agent on `h:1`, which has the kind `j`, with a member on `h:2`, which has `k`. -/
def acquainted : Agent :=
  { newAgent "h:1" ["j"] with
    members := .ofList [⟨"h:1", "A", "default", ["j"]⟩, ⟨"h:2", "B", "default", ["k"]⟩] }

/-- The agent of the other member. -/
def neighbour : Agent := newAgent "h:2" ["k"]

/-- The selection function returns the agent's own member, which lacks the kind, and an
Activation with a nil PID is broadcast. And a member on `h:2` spawns the actor but answers
too late, so that nothing is broadcast. -/
theorem activation_nil_broadcast :
    acquainted.activateWith "k" ⟨"1", "default", some fun _ => some ⟨"h:1", "A", "default", ["j"]⟩⟩
          ⟨0, "", fun _ => none, true⟩ = ⟨some none, none⟩ ∧
      acquainted.spawned "k" ⟨"1", "default", some fun _ => some ⟨"h:1", "A", "default", ["j"]⟩⟩
          ⟨0, "", fun _ => none, true⟩ = none ∧
      acquainted.activateWith "k" ⟨"1", "default", none⟩ ⟨0, "", fun _ => some neighbour, false⟩ =
        ⟨none, none⟩ ∧
      acquainted.spawned "k" ⟨"1", "default", none⟩ ⟨0, "", fun _ => some neighbour, false⟩ =
        some ⟨"h:2", "k/1"⟩ := by
  decide +kernel

end Agent

/-! The steps that a node takes for an activation end as the whole function does. -/
namespace Node

/-- The packets in which an activation ends. -/
def conclude (node : Node) (order : List Member) (caller : Option Reply) (outcome : Outcome) :
    Option (List Packet) :=
  match outcome.broadcast with
  | none => some (node.respond caller (.pid outcome.returned))
  | some pid => node.announce order pid caller

variable {node : Node} {kind : String} {config : ActivationConfig} {env : Surroundings}
  {choice : Choice} {caller : Option Reply}

/-- An activation that asks no other node ends in the step that handles it. -/
theorem activate_concludes (number : Nat) (selected : choice.selected = node.agent.select kind config env)
    (drawn : choice.drawn = env.drawnID)
    (near : ∀ member, node.agent.chosen kind config env = some member → member.host = node.host) :
    (node.activate kind config.id caller choice number).map Handling.sends =
      node.conclude choice.order caller (node.agent.activateWith kind config env) := by
  rw [activate, selected, ← Agent.chosen, drawn]
  cases found : node.agent.chosen kind config env with
  | none =>
    rw [(Agent.activateWith_refused found).1]
    rfl
  | some member =>
    have here : member.host = node.agent.address := near member found
    simp [conclude, Agent.activateWith, found, here, host, Function.comp_def]

/-- One that asks another node ends when the answer is read, or at the timeout. -/
theorem resume_concludes (order : List Member) {member : Member}
    (found : node.agent.chosen kind config env = some member) (there : member.host ≠ node.host) :
    node.conclude order caller (node.agent.activateWith kind config env) =
      match env.request member.pid kind config.id with
      | some msg => node.resume order msg caller
      | none => some (node.respond caller (.pid none)) := by
  have apart : ¬ member.host = node.agent.address := there
  simp only [Agent.activateWith, found, apart, if_false, Surroundings.request]
  cases env.inTime with
  | false => rfl
  | true =>
    cases env.peers member.pid with
    | none => rfl
    | some peer =>
      cases made : peer.handleActivationRequest kind config.id env.drawnID with
      | none => simp [made, conclude, resume]
      | some pid => simp [made, conclude, resume]

end Node

end Hollywood.Cluster
