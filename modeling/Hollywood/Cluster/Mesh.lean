import Hollywood.Cluster.Patience

/-! A cluster whose members all know each other and in which only activations are
under way. Where every actor is spawned on the one member that may run its id, what
the members tell each other and enter in their maps is true: the actor runs there. -/
namespace Hollywood.Cluster

/-- The messages of activations. -/
def Message.ofActivation : Message → Bool
  | .activate _ _ | .activation _ | .activationRequest _ _ | .activationResponse _ _ | .pid _ => true
  | .actorTopology _ | .members _ | .deactivate _ | .deactivation _ | .getMembers | .slice _ => false

/-- What an activation does not change about a node. -/
def Node.frame (node : Node) : String × String × MemberSet :=
  (node.id, node.agent.address, node.agent.members)

theorem Node.pid_frame {a b : Node} (same : a.frame = b.frame) : a.pid = b.pid := by
  simp only [frame, Prod.mk.injEq] at same
  simp [pid, host, same.1, same.2.1]

theorem Node.host_frame {a b : Node} (same : a.frame = b.frame) : a.host = b.host := by
  simp only [frame, Prod.mk.injEq] at same
  exact same.2.1

theorem Node.spawn_frame (node : Node) (pid : Option PID) (requester : Option Reply) :
    (node.spawn pid requester).frame = node.frame := by
  cases pid <;> rfl

namespace State
variable {s t : State} {kind id : String} {number : Nat}

/-- Every member knows every member, and only activations are under way. -/
structure Meshed (s : State) : Prop where
  hosts : (s.nodes.map (·.host)).Nodup
  known : ∀ a ∈ s.nodes, ∀ b ∈ s.nodes, ∃ member ∈ a.agent.members.entries, member.pid = b.pid
  plain : ∀ entry ∈ s.packets, entry.2.msg.ofActivation = true
  calls : ∀ response ∈ s.responses, ∀ pid, response.purpose ≠ .spawn pid
  placed : s.Placed
  solid : s.Solid

theorem receives_frame (meshed : s.Meshed) (present : (queue, packet) ∈ s.packets)
    (received : Receives node packet choice number handling) : handling.node.frame = node.frame := by
  have plain := meshed.plain _ present
  cases received with
  | panic fatal =>
    rw [meshed.solid.fatal present] at fatal
    cases fatal
  | actorTopology msg | members msg | deactivate msg | deactivation msg | getMembers msg =>
    simp [msg, Message.ofActivation] at plain
  | here | request => exact Node.spawn_frame _ _ _
  | activation | refuse | there | ignore => rfl

theorem frames_move (meshed : s.Meshed) (move : Move s label t) (allowed : patient s label = true) :
    t.nodes.map Node.frame = s.nodes.map Node.frame := by
  cases move with
  | spawn | stop | deactivate | provide => cases allowed
  | handle found free idle split first received =>
    exact Pool.map_set Node.frame found (receives_frame meshed (Queues.mem_taken split) received)
  | wake found | timeout found => exact Pool.map_set Node.frame found rfl
  | activate | send | mail | lose | answer | returns | expire => rfl

theorem frame_at {b : Node} {j : Nat} (frames : t.nodes.map Node.frame = s.nodes.map Node.frame)
    (found : t.nodes[j]? = some b) : ∃ a, s.nodes[j]? = some a ∧ a.frame = b.frame := by
  have same := congrArg (·[j]?) frames
  simp only [List.getElem?_map, found, Option.map_some] at same
  exact Option.map_eq_some_iff.mp same.symm

theorem frame_mem (frames : t.nodes.map Node.frame = s.nodes.map Node.frame) (member : b ∈ t.nodes) :
    ∃ a ∈ s.nodes, a.frame = b.frame := by
  have shown : b.frame ∈ s.nodes.map Node.frame := frames ▸ List.mem_map_of_mem member
  exact List.mem_map.mp shown

theorem sends_plain (meshed : s.Meshed) (allowed : patient s label = true) (sent : Sends s t label p) :
    p.msg.ofActivation = true := by
  cases sent with
  | deactivate | spawn | provide => cases allowed
  | topology handles msg | deactivation handles msg | slice handles msg =>
    have plain := meshed.plain _ handles.present
    simp [msg, Message.ofActivation] at plain
  | announce asked aim => exact absurd aim (meshed.calls _ (List.mem_of_getElem? asked) _)
  | _ => rfl

theorem meshed_move (meshed : s.Meshed) (move : Move s label t) (allowed : patient s label = true) :
    t.Meshed where
  hosts := by
    have frames := congrArg (List.map fun frame : String × String × MemberSet => frame.2.1)
      (frames_move meshed move allowed)
    rw [List.map_map, List.map_map] at frames
    exact (frames ▸ meshed.hosts :)
  known := by
    intro a first b second
    have frames := frames_move meshed move allowed
    obtain ⟨a', first, same⟩ := frame_mem frames first
    obtain ⟨b', second, again⟩ := frame_mem frames second
    obtain ⟨member, inside, target⟩ := meshed.known a' first b' second
    refine ⟨member, ?_, target.trans (Node.pid_frame again)⟩
    simp only [Node.frame, Prod.mk.injEq] at same
    rwa [← same.2.2]
  plain := by
    intro entry present
    rcases packets_move move entry present with ⟨old, member, same⟩ | sent
    · rw [← same]
      exact meshed.plain old member
    · exact sends_plain meshed allowed sent
  calls := by
    intro response member pid aim
    obtain ⟨number, found⟩ := List.mem_iff_getElem?.mp member
    cases responses_move move found with
    | same old | answer old | settle old | close old =>
      exact meshed.calls _ (List.mem_of_getElem? old) pid aim
    | activate | request => cases aim
    | spawn => cases allowed
  placed := placed_move meshed.placed move
  solid := meshed.solid.move (patient_named allowed) move

/-- The actor with this PID is registered on the member it names. -/
def Runs (s : State) (pid : PID) : Prop :=
  ∃ node ∈ s.nodes, node.host = pid.address ∧ node.runs pid.id = true

theorem runs_move (meshed : s.Meshed) (move : Move s label t) (allowed : patient s label = true)
    (runs : s.Runs pid) : t.Runs pid := by
  cases move with
  | spawn | stop | deactivate | provide => cases allowed
  | handle found free idle split first received =>
    refine Pool.exists_set found ?_ runs
    rintro ⟨host, runs⟩
    have same := receives_frame meshed (Queues.mem_taken split) received
    exact ⟨(Node.host_frame same).trans host, received.runs runs⟩
  | wake found | timeout found =>
    refine Pool.exists_set (P := fun node : Node => node.host = pid.address ∧ node.runs pid.id = true)
      found ?_ runs
    exact fun holds => holds
  | activate | send | mail | lose | answer | returns | expire => exact runs

theorem runs_spawned (found : s.nodes[i]? = some node)
    (made : node.agent.handleActivationRequest kind id drawn = some pid)
    (nodes : t.nodes = s.nodes.set i (node.spawn (some pid) requester)) : t.Runs pid := by
  refine ⟨_, nodes ▸ List.mem_set (List.getElem?_eq_some_iff.mp found).1 _, ?_, ?_⟩
  · rw [Node.host_frame (Node.spawn_frame _ _ _), Agent.handleActivationRequest_address made]
    rfl
  · rw [Node.spawn_runs]
    simp

/-- What the members are told and know is running, each id on one member. -/
structure Truthful (s : State) : Prop where
  single : ∀ {a b x}, a ∈ s.nodes → b ∈ s.nodes → a.runs x = true → b.runs x = true → a.host = b.host
  announced : ∀ {entry pid}, entry ∈ s.packets → entry.2.msg = .activation (some pid) → s.Runs pid
  entered : ∀ {node pid}, node ∈ s.nodes → pid ∈ node.agent.activated.entries → s.Runs pid
  granted : ∀ {entry pid}, entry ∈ s.packets → entry.2.msg = .activationResponse pid true →
    ∃ p, pid = some p ∧ s.Runs p
  answered : ∀ {number : Nat} {response : Response} {pid}, s.responses[number]? = some response →
    response.status = .answered (.activationResponse pid true) → ∃ p, pid = some p ∧ s.Runs p

theorem Truthful.unique (truthful : s.Truthful) {p q : PID} (first : s.Runs p) (second : s.Runs q)
    (same : p.id = q.id) : p = q := by
  obtain ⟨a, member, host, runs⟩ := first
  obtain ⟨b, member', host', runs'⟩ := second
  rw [← same] at runs'
  have address : p.address = q.address := by
    rw [← host, ← host', truthful.single member member' runs runs']
  cases p
  cases q
  simp_all

theorem patient_handle (allowed : patient s (.handle i choice) = true) (handles : Handles s i node packet)
    (spawns : node.spawns packet choice = some pid) (member : other ∈ s.nodes)
    (runs : other.runs pid.id = true) : other.host = node.host := by
  simp only [patient, handles.found, handles.head, spawns, Option.all_some, Bool.and_eq_true,
    List.all_eq_true] at allowed
  simpa [runs] using allowed.2 other member

/-- An actor was there before, or is spawned by the step. -/
theorem actors_origin (meshed : s.Meshed) (move : Move s label t) (allowed : patient s label = true)
    (member : a ∈ t.nodes) (present : actor ∈ a.actors.entries) :
    (∃ b ∈ s.nodes, b.host = a.host ∧
      ∃ old ∈ b.actors.entries, old.id = actor.id ∧ old.requester = actor.requester) ∨
    ∃ i choice node packet pid, label = .handle i choice ∧ Handles s i node packet ∧
      node.spawns packet choice = some pid ∧ actor = ⟨pid.id, packet.sender, false⟩ ∧
      a.host = node.host := by
  cases move with
  | spawn | stop | deactivate | provide => cases allowed
  | handle found free idle split first received =>
    have same := Node.host_frame (receives_frame meshed (Queues.mem_taken split) received)
    rcases List.mem_or_eq_of_mem_set member with kept | rfl
    · exact .inl ⟨a, kept, rfl, actor, present, rfl, rfl⟩
    · rcases received.actors present with before | ⟨pid, spawns, new⟩
      · exact .inl ⟨_, List.mem_of_getElem? found, same.symm, before⟩
      · exact .inr ⟨_, _, _, _, pid, rfl,
          ⟨found, free, Queues.mem_taken split, next_eq split first⟩, spawns, new, same⟩
  | wake found | timeout found =>
    rcases List.mem_or_eq_of_mem_set member with kept | rfl
    · exact .inl ⟨a, kept, rfl, actor, present, rfl, rfl⟩
    · exact .inl ⟨_, List.mem_of_getElem? found, rfl, actor, present, rfl, rfl⟩
  | activate | send | mail | lose | answer | returns | expire =>
    exact .inl ⟨a, member, rfl, actor, present, rfl, rfl⟩

theorem runs_eq {node : Node} : node.runs x = true ↔ ∃ actor ∈ node.actors.entries, actor.id = x := by
  rw [Node.runs, Keyed.contains, Option.isSome_iff_exists]
  simp only [Keyed.get?_eq_some]

/-- A running id was so before, or its actor is spawned by the step. -/
theorem runs_origin (meshed : s.Meshed) (move : Move s label t) (allowed : patient s label = true)
    (member : a ∈ t.nodes) (runs : a.runs x = true) :
    (∃ b ∈ s.nodes, b.host = a.host ∧ b.runs x = true) ∨
    ∃ i choice node packet pid, label = .handle i choice ∧ Handles s i node packet ∧
      node.spawns packet choice = some pid ∧ pid.id = x ∧ a.host = node.host := by
  obtain ⟨actor, present, rfl⟩ := runs_eq.mp runs
  rcases actors_origin meshed move allowed member present with
    ⟨b, before, same, old, running, named, -⟩ | ⟨i, choice, node, packet, pid, labelled, handles, spawns, rfl, same⟩
  · exact .inl ⟨b, before, same, runs_eq.mpr ⟨old, running, named⟩⟩
  · exact .inr ⟨i, choice, node, packet, pid, labelled, handles, spawns, rfl, same⟩

theorem single_move (meshed : s.Meshed) (truthful : s.Truthful) (move : Move s label t)
    (allowed : patient s label = true) (first : a ∈ t.nodes) (second : b ∈ t.nodes)
    (runs : a.runs x = true) (runs' : b.runs x = true) : a.host = b.host := by
  rcases runs_origin meshed move allowed first runs with
      ⟨c, member, host, old⟩ | ⟨i, choice, node, packet, pid, rfl, handles, spawns, rfl, host⟩ <;>
    rcases runs_origin meshed move allowed second runs' with
      ⟨d, member', host', old'⟩ | ⟨_, _, _, _, pid', same, handles', spawns', named, host'⟩
  · rw [← host, ← host']
    exact truthful.single member member' old old'
  · subst same
    subst named
    rw [← host, host']
    exact patient_handle allowed handles' spawns' member old
  · rw [host, ← host']
    exact (patient_handle allowed handles spawns member' old').symm
  · cases same
    cases handles.found.symm.trans handles'.found
    rw [host, host']

theorem entered_move (meshed : s.Meshed) (truthful : s.Truthful) (move : Move s label t)
    (allowed : patient s label = true) (member : b ∈ t.nodes)
    (entry : pid ∈ b.agent.activated.entries) : s.Runs pid := by
  cases move with
  | spawn | stop | deactivate | provide => cases allowed
  | handle found free idle split first received =>
    have plain := meshed.plain _ (Queues.mem_taken split)
    have known : pid ∈ _ → s.Runs pid := truthful.entered (List.mem_of_getElem? found)
    rcases List.mem_or_eq_of_mem_set member with kept | rfl
    · exact truthful.entered kept entry
    · cases received with
      | actorTopology msg | members msg | deactivate msg | deactivation msg | getMembers msg =>
        simp [msg, Message.ofActivation] at plain
      | activation msg =>
        rcases Keyed.mem_add entry with before | rfl
        · exact known before
        · exact truthful.announced (Queues.mem_taken split) msg
      | here | request =>
        rw [Node.spawn_agent] at entry
        exact known entry
      | refuse | there | ignore => exact known entry
      | panic => cases entry
  | wake found | timeout found =>
    rcases List.mem_or_eq_of_mem_set member with kept | rfl
    · exact truthful.entered kept entry
    · exact truthful.entered (List.mem_of_getElem? found) entry
  | activate | send | mail | lose | answer | returns | expire => exact truthful.entered member entry

/-- A new announcement names an actor that runs. -/
theorem announced_sends (meshed : s.Meshed) (truthful : s.Truthful) (move : Move s label t)
    (allowed : patient s label = true) (sent : Sends s t label p)
    (tells : p.msg = .activation (some pid)) : t.Runs pid := by
  cases sent with
  | deactivate | spawn | provide => cases allowed
  | tell handles asks chosen near nodes =>
    have made := Message.activation.inj tells
    rw [made] at nodes
    exact runs_spawned handles.found made nodes
  | resumeTell waited answered =>
    cases tells
    obtain ⟨_, ⟨⟩, runs⟩ := truthful.answered waited.asked answered
    exact runs_move meshed move allowed runs
  | announce asked aim => exact absurd aim (meshed.calls _ (List.mem_of_getElem? asked) _)
  | _ => cases tells

/-- A request is granted only with an actor that runs. -/
theorem granted_sends (sent : Sends s t label p) (tells : p.msg = .activationResponse pid true) :
    ∃ q, pid = some q ∧ t.Runs q := by
  cases sent with
  | response handles asks nodes sender =>
    obtain ⟨rfl, granted⟩ := Message.activationResponse.inj tells
    obtain ⟨q, made⟩ := Option.isSome_iff_exists.mp granted
    rw [made] at nodes
    exact ⟨q, made, runs_spawned handles.found made nodes⟩
  | _ => cases tells

theorem truthful_move (meshed : s.Meshed) (truthful : s.Truthful) (move : Move s label t)
    (allowed : patient s label = true) : t.Truthful where
  single := single_move meshed truthful move allowed
  announced := by
    intro entry pid present tells
    rcases packets_move move entry present with ⟨old, member, same⟩ | sent
    · rw [← same] at tells
      exact runs_move meshed move allowed (truthful.announced member tells)
    · exact announced_sends meshed truthful move allowed sent tells
  entered := by
    intro node pid member entry
    exact runs_move meshed move allowed (entered_move meshed truthful move allowed member entry)
  granted := by
    intro entry pid present tells
    rcases packets_move move entry present with ⟨old, member, same⟩ | sent
    · rw [← same] at tells
      obtain ⟨p, named, runs⟩ := truthful.granted member tells
      exact ⟨p, named, runs_move meshed move allowed runs⟩
    · exact granted_sends sent tells
  answered := by
    intro number response pid found status
    have early (known : ∃ p, pid = some p ∧ s.Runs p) : ∃ p, pid = some p ∧ t.Runs p := by
      obtain ⟨p, named, runs⟩ := known
      exact ⟨p, named, runs_move meshed move allowed runs⟩
    cases responses_move move found with
    | same old => exact early (truthful.answered old status)
    | answer old present => exact early (truthful.granted present (Status.answered.inj status))
    | activate | spawn | request | settle | close => cases status

end State

end Hollywood.Cluster
