import Hollywood.Cluster.Membership
import Hollywood.Cluster.Network

/-! Active actors live on members. An agent enters what it is told without looking at
its members, and removes the actors of a host only when a member leaves. After a
`Members` message every active actor is on a member exactly when none of them was
stray before it: on the host of nobody the agent knew or was told of. -/
namespace Hollywood.Cluster
open Transition

namespace Agent
variable {a b : Agent} {members : List Member}

/-- What an agent's maps are after a message. -/
def handle (a : Agent) : Message → Option Agent
  | .actorTopology actors => a.handleActorTopology actors
  | .members members => some (a.handleMembers members).1
  | .activation pid => (a.handleActivation pid).map (·.1)
  | .deactivation pid => (a.handleDeactivation pid).map (·.1)
  | .activate _ _ | .deactivate _ | .activationRequest _ _ | .activationResponse _ _ | .getMembers
  | .pid _ | .slice _ => some a

theorem handle_fatal {msg : Message} (fatal : msg.fatal = true) : a.handle msg = none := by
  cases msg with
  | actorTopology actors =>
    rw [handle, ← Option.not_isSome_iff_eq_none, handleActorTopology_isSome]
    simpa [Message.fatal] using fatal
  | activation actor | deactivation actor =>
    rw [Message.fatal, Option.isNone_iff_eq_none] at fatal
    rw [fatal]
    rfl
  | _ => cases fatal

/-- An agent that panics at a message goes on as its next incarnation. -/
def invoke (a : Agent) (msg : Message) : Option Agent := (a.handle msg).or (some a.restart)

/-- A host of one of these members. -/
def hosts (members : List Member) (host : String) : Bool := members.any (·.host = host)

/-- Every active actor is on the host of a member. -/
def resident (a : Agent) : Bool := a.activated.entries.all fun pid => hosts a.members.entries pid.address

/-- Every active actor is on the host of a member that the agent knows or is told of. -/
def expected (a : Agent) : Message → Bool
  | .members members => a.activated.entries.all fun pid =>
      hosts a.members.entries pid.address || hosts (a.joined members) pid.address
  | _ => true

theorem hosts_eq {host : String} : hosts members host = true ↔ ∃ member ∈ members, member.host = host := by
  simp [hosts]

theorem handleMembers_resident :
    (a.handleMembers members).1.resident = true ↔ a.expected (.members members) = true := by
  simp only [resident, expected, List.all_eq_true, Bool.or_eq_true, hosts_eq, handleMembers_active,
    handleMembers_members]
  constructor
  · intro lives pid active
    by_cases purged : ∃ gone ∈ a.left members, pid.address = gone.host
    · obtain ⟨gone, leaves, same⟩ := purged
      exact .inl ⟨gone, (mem_left.mp leaves).1, same.symm⟩
    · obtain ⟨member, ⟨old, -⟩ | new, same⟩ :=
        lives pid ⟨active, fun gone leaves same => purged ⟨gone, leaves, same⟩⟩
      · exact .inl ⟨member, old, same⟩
      · exact .inr ⟨member, new, same⟩
  · rintro known pid ⟨active, kept⟩
    rcases known pid active with ⟨member, old, same⟩ | ⟨member, new, same⟩
    · exact ⟨member, .inl ⟨old, fun leaves => kept member leaves same.symm⟩, same⟩
    · exact ⟨member, .inr new, same⟩

/-- A run in which the agent is resident after every `Members` message. -/
def ResidentAfter (a : Agent) (msgs : List Message) : Prop :=
  ∀ first members rest b, msgs = first ++ .members members :: rest →
    run invoke a (first ++ [.members members]) = some b → b.resident = true

theorem residentAfter_cons (handled : a.invoke msg = some b) :
    a.ResidentAfter (msg :: rest) ↔
      (∀ members, msg = .members members → b.resident = true) ∧ b.ResidentAfter rest := by
  constructor
  · intro lives
    constructor
    · rintro members rfl
      refine lives [] members rest b rfl ?_
      simp [run, handled]
    · rintro first members last c rfl ran
      refine lives (msg :: first) members last c rfl ?_
      simpa [run, handled] using ran
  · rintro ⟨now, later⟩ first members last c split ran
    cases first with
    | nil =>
      cases split
      simp only [List.nil_append, run, handled, Option.bind_some, Option.some.injEq] at ran
      exact ran ▸ now members rfl
    | cons head tail =>
      cases split
      simp only [List.cons_append, run, handled, Option.bind_some] at ran
      exact later tail members last c rfl ran

/-- For every message an agent handles: it is expected exactly when the agent is
resident after it, where that is asked for. -/
theorem expected_eq (handled : a.invoke msg = some b) :
    a.expected msg = true ↔ ∀ members, msg = .members members → b.resident = true := by
  cases msg with
  | members members =>
    cases handled
    rw [← handleMembers_resident]
    constructor
    · rintro lives _ ⟨⟩
      exact lives
    · exact fun lives => lives members rfl
  | _ =>
    refine iff_of_true rfl ?_
    rintro _ ⟨⟩

/-- For every agent and all messages, with a restart at each of them that it panics at:
every active actor is on a member after each `Members` message if and only if none of these
messages finds a stray. -/
theorem resident_after_members (a b : Agent) (msgs : List Message)
    (handled : run invoke a msgs = some b) :
    a.ResidentAfter msgs ↔ run (restrict expected invoke) a msgs = some b := by
  induction msgs generalizing a with
  | nil =>
    refine iff_of_true ?_ handled
    intro first members rest c none
    simp at none
  | cons msg rest ih =>
    obtain ⟨next, received, handled⟩ := Option.bind_eq_some_iff.mp handled
    rw [residentAfter_cons received, ← expected_eq received, ih next handled]
    simp only [run, restrict]
    by_cases welcome : a.expected msg = true
    · simp [welcome, received]
    · simp [welcome]

/-- A member with an active actor leaves. -/
def departure : List Message :=
  [.members [⟨"h:1", "A", "default", ["k"]⟩, ⟨"h:2", "B", "default", ["k"]⟩],
    .activation (some ⟨"h:2", "k/1"⟩), .members [⟨"h:1", "A", "default", ["k"]⟩]]

theorem resident_after_members_departure :
    ∃ b, run invoke (newAgent "h:1" ["k"]) departure = some b ∧
      b.activated.entries = [] ∧ (newAgent "h:1" ["k"]).ResidentAfter departure :=
  ⟨_, rfl, rfl, (resident_after_members _ _ _ rfl).mpr rfl⟩

/-- The actor of a member that has left is announced late. -/
def lateActivation : List Message :=
  [.members [⟨"h:1", "A", "default", ["k"]⟩, ⟨"h:2", "B", "default", ["k"]⟩],
    .members [⟨"h:1", "A", "default", ["k"]⟩], .activation (some ⟨"h:2", "k/1"⟩),
    .members [⟨"h:1", "A", "default", ["k"]⟩]]

theorem late_activation_stays :
    ∃ b, run invoke (newAgent "h:1" ["k"]) lateActivation = some b ∧
      b.activated.entries = [⟨"h:2", "k/1"⟩] ∧ b.members.entries.map (·.host) = ["h:1"] ∧
      ¬ (newAgent "h:1" ["k"]).ResidentAfter lateActivation := by
  refine ⟨_, rfl, rfl, rfl, fun lives => ?_⟩
  have resident := lives (lateActivation.take 3) [⟨"h:1", "A", "default", ["k"]⟩] [] _ rfl rfl
  revert resident
  decide +kernel

end Agent

/-- The agents of a cluster handle their messages so. -/
theorem Receives.invoke {node : Node} (received : Receives node packet choice number handling) :
    node.agent.invoke packet.msg = some handling.node.agent := by
  cases received with
  | actorTopology msg handled => rw [msg, Agent.invoke, Agent.handle, handled, Option.some_or]
  | members msg | activation msg | refuse msg | there msg | deactivate msg | deactivation msg
  | getMembers msg =>
    rw [msg]
    rfl
  | here msg | request msg =>
    rw [msg]
    cases node.agent.handleActivationRequest _ _ _ <;> rfl
  | ignore answer =>
    cases told : packet.msg with
    | activationResponse | pid | slice => rfl
    | _ => simp [told, Message.isAnswer] at answer
  | panic fatal =>
    rw [Agent.invoke, Agent.handle_fatal fatal, Option.none_or]
    rfl

end Hollywood.Cluster
