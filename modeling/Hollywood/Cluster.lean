import Hollywood.Foundation.Keyed
import Hollywood.Process

/-! The agent of one cluster member (`cluster/agent.go`, `cluster/member_set.go`):
the members and the active actors it knows of, and its handlers. What a handler
asks of the engine is returned as a list of effects. A handler that dereferences
a nil PID panics, which is `none`; the engine then restarts the agent. -/
namespace Hollywood.Cluster

structure Member where
  host : String
  id : String
  region : String
  kinds : List String
  deriving DecidableEq, Repr

namespace Member

/-- The agent of a member. -/
def pid (member : Member) : PID := ⟨member.host, "cluster/" ++ member.id⟩

def hasKind (member : Member) (kind : String) : Bool := member.kinds.contains kind

end Member

abbrev MemberSet := Keyed Member.id

namespace MemberSet

/-- The members of a set whose ids are not in a list. -/
def except (set : MemberSet) (members : List Member) : List Member :=
  set.entries.filter fun member => ¬ member.id ∈ members.map (·.id)

def filterByKind (set : MemberSet) (kind : String) : List Member :=
  set.entries.filter (·.hasKind kind)

end MemberSet

/-- The messages between agents, and those between an agent and the calls on its
own node. The answers to `activate` and `getMembers` are a PID and a slice. -/
inductive Message where
  | actorTopology (actors : List (Option PID))
  | members (members : List Member)
  | activation (pid : Option PID)
  | activate (kind id : String)
  | deactivate (pid : Option PID)
  | deactivation (pid : Option PID)
  | activationRequest (kind id : String)
  | activationResponse (pid : Option PID) (success : Bool)
  | getMembers
  | pid (pid : Option PID)
  | slice (members : List Member)
  deriving DecidableEq, Repr

inductive ClusterEvent where
  | memberJoin (member : Member)
  | memberLeave (member : Member)
  | activation (pid : PID)
  | deactivation (pid : PID)
  deriving DecidableEq, Repr

inductive Effect where
  | send (target : PID) (msg : Message)
  | poison (pid : PID)
  | event (event : ClusterEvent)
  deriving DecidableEq, Repr

/-- `kinds` are those offered by the members, `localKinds` those registered on this
node; `address` is the address of its engine. -/
structure Agent where
  address : String
  members : MemberSet
  kinds : List String
  localKinds : List String
  activated : Keyed PID.id
  deriving DecidableEq

/-- The id of the actor that is activated for a kind and an id. -/
def actorID (kind id : String) : String := kind ++ "/" ++ id

def newAgent (address : String) (kinds : List String) : Agent :=
  ⟨address, .empty, kinds, kinds, .empty⟩

namespace Agent

/-- The next incarnation after a crash: what the producer returns, around the same map
of kinds. -/
def restart (a : Agent) : Agent := { newAgent a.address a.localKinds with kinds := a.kinds }

def addActivated (a : Agent) (pid : PID) : Agent := { a with activated := a.activated.add pid }

def removeActivated (a : Agent) (pid : PID) : Agent := { a with activated := a.activated.erase pid.id }

def handleActorTopology (a : Agent) (actors : List (Option PID)) : Option Agent :=
  actors.foldlM (fun a pid => pid.map a.addActivated) a

def handleActivation (a : Agent) (pid : Option PID) : Option (Agent × List Effect) :=
  pid.map fun pid => (a.addActivated pid, [.event (.activation pid)])

def handleDeactivation (a : Agent) (pid : Option PID) : Option (Agent × List Effect) :=
  pid.map fun pid => (a.removeActivated pid, [.poison pid, .event (.deactivation pid)])

def hasKindLocal (a : Agent) (kind : String) : Bool := a.localKinds.contains kind

/-- The PID of the actor that is spawned for a request; `none` when the kind is not
registered here. `Spawn` draws an id when it is given the empty one. -/
def handleActivationRequest (a : Agent) (kind id drawn : String) : Option PID :=
  if a.hasKindLocal kind then
    some ⟨a.address, actorID kind (if id.isEmpty then drawn else id)⟩
  else none

/-- The member that an activation goes to. `selected` is what the configured
function returns when it is offered the members that have the kind. -/
def activate (a : Agent) (kind id : String) (selected : Option Member) : Option Member :=
  if a.activated.contains (actorID kind id) then none
  else if (a.members.filterByKind kind).isEmpty then none
  else selected

/-- Send to every member, in the order in which the map happens to be ranged over. -/
def bcast (a : Agent) (order : List Member) (msg : Message) : Option (List (PID × Message)) :=
  if order.Perm a.members.entries then some (order.map fun member => (member.pid, msg)) else none

def trackKinds (kinds : List String) (member : Member) : List String :=
  member.kinds.foldl (fun kinds kind => kinds.insert kind) kinds

def rebuildKinds (members : MemberSet) : List String := members.entries.foldl trackKinds []

def actorInfos (a : Agent) : List (Option PID) := a.activated.entries.map some

def memberJoin (a : Agent) (member : Member) : Agent × List Effect :=
  ({ a with members := a.members.put member, kinds := trackKinds a.kinds member },
    (if a.activated.entries.isEmpty then [] else [.send member.pid (.actorTopology a.actorInfos)]) ++
      [.event (.memberJoin member)])

def memberLeave (a : Agent) (member : Member) : Agent × List Effect :=
  ({ a with
      members := a.members.erase member.id
      kinds := rebuildKinds (a.members.erase member.id)
      activated := a.activated.filter (·.address ≠ member.host) },
    [.event (.memberLeave member)])

def forEach (handler : Agent → Member → Agent × List Effect) (a : Agent) :
    List Member → Agent × List Effect
  | [] => (a, [])
  | member :: rest =>
    let next := handler a member
    let last := forEach handler next.1 rest
    (last.1, next.2 ++ last.2)

/-- The members of a list whose ids are new to the agent. -/
def joined (a : Agent) (members : List Member) : List Member :=
  MemberSet.except (.ofList members) a.members.entries

/-- The members that the agent knows and a list has no longer. -/
def left (a : Agent) (members : List Member) : List Member := a.members.except members

def handleMembers (a : Agent) (members : List Member) : Agent × List Effect :=
  let join := forEach memberJoin a (a.joined members)
  let leave := forEach memberLeave join.1 (a.left members)
  (leave.1, join.2 ++ leave.2)

/-- What every handler call keeps holds after all of them. -/
theorem forEach_keeps {handler : Agent → Member → Agent × List Effect} {P : Agent → Prop}
    (each : ∀ a member, P a → P (handler a member).1) (members : List Member) (holds : P a) :
    P (forEach handler a members).1 := by
  induction members generalizing a with
  | nil => exact holds
  | cons member rest ih => exact ih (each a member holds)

theorem handleMembers_address (a : Agent) (members : List Member) :
    (a.handleMembers members).1.address = a.address := by
  have join (b : Agent) (member : Member) (same : b.address = a.address) :
      (b.memberJoin member).1.address = a.address := same
  have leave (b : Agent) (member : Member) (same : b.address = a.address) :
      (b.memberLeave member).1.address = a.address := same
  exact forEach_keeps leave _ (forEach_keeps join _ rfl)

/-- A topology changes the map of active actors only. -/
theorem handleActorTopology_frame {a b : Agent} (handled : a.handleActorTopology actors = some b) :
    b = { a with activated := b.activated } := by
  induction actors generalizing a with
  | nil =>
    cases handled
    rfl
  | cons pid rest ih =>
    obtain ⟨next, entered, handled⟩ := Option.bind_eq_some_iff.mp handled
    obtain ⟨pid, rfl, rfl⟩ := Option.map_eq_some_iff.mp entered
    have later := ih handled
    exact later

/-- A topology is handled exactly when it has no nil PID. -/
theorem handleActorTopology_isSome (a : Agent) (actors : List (Option PID)) :
    (a.handleActorTopology actors).isSome = actors.all Option.isSome := by
  induction actors generalizing a with
  | nil => rfl
  | cons actor rest ih =>
    cases actor with
    | none => rfl
    | some pid =>
      have later := ih (a.addActivated pid)
      exact later

theorem handleActorTopology_address {a b : Agent} (handled : a.handleActorTopology actors = some b) :
    b.address = a.address := by
  rw [handleActorTopology_frame handled]

end Agent

end Hollywood.Cluster
