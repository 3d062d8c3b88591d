import Hollywood.Cluster.Residence
import Hollywood.Cluster.Uniqueness

/-! What a deactivation hits. The activated map, the registry and `Poison` all go by
the id of a PID alone. A handled `Deactivation` removes and stops nothing but its PID
exactly when nothing else is known or runs under that id where it is handled; and so
it is in every run that brings a PID in only while no other one with its id is around. -/
namespace Hollywood.Cluster
open Transition

/-- A deactivation removed no entry and stopped no actor but its own. -/
def Hit.only (hit : Hit) : Prop :=
  (∀ pid ∈ hit.removed, pid = hit.pid) ∧ ∀ pid ∈ hit.stopped, pid = hit.pid

instance (hit : Hit) : Decidable hit.only := inferInstanceAs (Decidable (_ ∧ _))

/-- Under the id of a PID a node knows and runs nothing but this PID. -/
def Node.aims (node : Node) (pid : PID) : Bool :=
  (node.agent.activated.get? pid.id).all (· = pid) &&
    (!node.actors.contains pid.id || node.host = pid.address)

theorem Node.hit_removed {node : Node} {pid : PID} :
    (∀ entry ∈ (node.hit (node.agent.removeActivated pid) pid).removed, entry = pid) ↔
      (node.agent.activated.get? pid.id).all (· = pid) = true := by
  constructor
  · intro only
    cases found : node.agent.activated.get? pid.id with
    | none => rfl
    | some entry =>
      obtain ⟨member, named⟩ := Keyed.get?_eq_some.mp found
      have gone : entry ∉ (node.agent.removeActivated pid).activated.entries :=
        fun kept => (Keyed.mem_erase.mp kept).2 named
      simpa using only entry (List.mem_filter.mpr ⟨member, by simpa using gone⟩)
  · intro only entry removed
    obtain ⟨member, gone⟩ := List.mem_filter.mp removed
    have named : entry.id = pid.id := by
      by_contra other
      exact (of_decide_eq_true gone) (Keyed.mem_erase.mpr ⟨member, other⟩)
    rw [Keyed.get?_eq_some.mpr ⟨member, named⟩] at only
    simpa using only

theorem Node.hit_stopped {node : Node} {pid : PID} :
    (∀ stopped ∈ (node.hit (node.agent.removeActivated pid) pid).stopped, stopped = pid) ↔
      (!node.actors.contains pid.id || node.host = pid.address) = true := by
  cases found : node.actors.get? pid.id with
  | none => simp [hit, Keyed.contains, found]
  | some actor =>
    have named := (Keyed.get?_eq_some.mp found).2
    cases pid
    simp_all [hit, Keyed.contains]

theorem Node.hit_only {node : Node} {pid : PID} :
    (node.hit (node.agent.removeActivated pid) pid).only ↔ node.aims pid = true := by
  rw [aims, Bool.and_eq_true, ← hit_removed, ← hit_stopped]
  exact Iff.rfl

/-- The PIDs that an agent may still act on when it gets a message. -/
def Message.names : Message → List PID
  | .actorTopology actors => actors.filterMap id
  | .activation actor | .deactivate actor | .deactivation actor | .activationResponse actor _ => actor.toList
  | .members _ | .activate _ _ | .activationRequest _ _ | .getMembers | .pid _ | .slice _ => []

def Purpose.names : Purpose → List PID
  | .spawn pid => [pid]
  | .activate _ _ | .activation _ _ _ => []

/-- A request keeps its PIDs until it is closed. -/
def Response.names (response : Response) : List PID :=
  match response.status with
  | .pending => response.purpose.names
  | .answered msg => response.purpose.names ++ msg.names
  | .closed _ => []

def Node.names (node : Node) : List PID :=
  node.agent.activated.entries ++ node.actors.entries.map fun actor => ⟨node.host, actor.id⟩

theorem Node.mem_names {node : Node} {pid : PID} : pid ∈ node.names ↔
    pid ∈ node.agent.activated.entries ∨ ∃ actor ∈ node.actors.entries, ⟨node.host, actor.id⟩ = pid := by
  rw [names, List.mem_append, List.mem_map]

theorem Agent.mem_handleActorTopology {a b : Agent} {pid : PID} (handled : a.handleActorTopology actors = some b)
    (entry : pid ∈ b.activated.entries) : pid ∈ a.activated.entries ∨ pid ∈ actors.filterMap id := by
  induction actors generalizing a with
  | nil =>
    cases handled
    exact .inl entry
  | cons info rest ih =>
    obtain ⟨next, entered, handled⟩ := Option.bind_eq_some_iff.mp handled
    obtain ⟨actor, rfl, rfl⟩ := Option.map_eq_some_iff.mp entered
    simp only [List.filterMap_cons, id, List.mem_cons]
    rcases ih handled with before | later
    · rcases Keyed.mem_add before with old | new
      · exact .inl old
      · exact .inr (.inl new)
    · exact .inr (.inr later)

/-- The entries of an agent after a message were there, or the message names them. -/
theorem Agent.handle_names {a b : Agent} {pid : PID} (handled : a.handle msg = some b)
    (entry : pid ∈ b.activated.entries) : pid ∈ a.activated.entries ∨ pid ∈ msg.names := by
  cases msg with
  | actorTopology actors => exact mem_handleActorTopology handled entry
  | members members =>
    cases handled
    exact .inl (handleMembers_active.mp entry).1
  | activation actor =>
    obtain ⟨_, told, rfl⟩ := Option.map_eq_some_iff.mp handled
    obtain ⟨named, rfl, rfl⟩ := Option.map_eq_some_iff.mp told
    exact (Keyed.mem_add entry).imp_right List.mem_singleton.mpr
  | deactivation actor =>
    obtain ⟨_, told, rfl⟩ := Option.map_eq_some_iff.mp handled
    obtain ⟨named, rfl, rfl⟩ := Option.map_eq_some_iff.mp told
    exact .inl (Keyed.mem_erase.mp entry).1
  | _ =>
    cases handled
    exact .inl entry

theorem Agent.invoke_names {a b : Agent} {pid : PID} (invoked : a.invoke msg = some b)
    (entry : pid ∈ b.activated.entries) : pid ∈ a.activated.entries ∨ pid ∈ msg.names := by
  rcases Option.or_eq_some_iff.mp invoked with handled | ⟨-, restarted⟩
  · exact handle_names handled entry
  · cases restarted
    cases entry

theorem Receives.names {node : Node} {pid : PID} (received : Receives node packet choice number handling)
    (named : pid ∈ handling.node.names) :
    pid ∈ node.names ∨ pid ∈ packet.msg.names ∨ node.spawns packet choice = some pid := by
  have host : handling.node.host = node.host := congrArg PID.address received.pid
  rcases Node.mem_names.mp named with entry | ⟨actor, present, rfl⟩
  · rcases Agent.invoke_names received.invoke entry with old | new
    · exact .inl (Node.mem_names.mpr (.inl old))
    · exact .inr (.inl new)
  · rcases received.actors present with ⟨old, before, same, -⟩ | ⟨pid, spawns, rfl⟩
    · exact .inl (Node.mem_names.mpr (.inr ⟨old, before, by rw [host, same]⟩))
    · refine .inr (.inr ?_)
      rw [spawns, host, ← Node.spawns_address spawns]

namespace State
variable {s t : State} {pid q : PID}

/-- A `Deactivation` is handled only where nothing else goes by its id. -/
def targeted (s : State) : Label → Bool
  | .handle i _ =>
    match s.nodes[i]?, s.next i with
    | some node, some packet =>
      match packet.msg with
      | .deactivation (some pid) => node.aims pid
      | _ => true
    | _, _ => true
  | _ => true

/-- A step adds at most the hit of the deactivation that it handles. -/
theorem hits_move (move : Move s label t) :
    (∀ hit ∈ t.hits, hit.only) ↔ (∀ hit ∈ s.hits, hit.only) ∧ targeted s label = true := by
  cases move with
  | @handle i node before packet after choice handling found free idle split first received =>
    simp only [targeted, found, next_eq split first]
    cases received with
    | deactivation msg =>
      rw [msg]
      simp only [List.forall_mem_append, List.forall_mem_singleton, Node.hit_only]
    | activation msg | refuse msg | here msg | there msg | actorTopology msg | members msg
    | deactivate msg | request msg | getMembers msg => simp [msg]
    | ignore answer =>
      cases told : packet.msg with
      | activationResponse | pid | slice => simp
      | _ => simp [told, Message.isAnswer] at answer
    | panic fatal =>
      cases told : packet.msg with
      | deactivation pid =>
        rw [told, Message.fatal, Option.isNone_iff_eq_none] at fatal
        simp [fatal]
      | _ => simp
  | _ => exact (and_iff_left rfl).symm

/-- The hits of a run tell whether all its deactivations were on target. -/
theorem hits_run {start : State} (clean : start.hits = [])
    (reached : Reaches step start s) :
    (∀ hit ∈ s.hits, hit.only) ↔ Reaches (restrict targeted step) start s := by
  constructor
  · intro only
    induction reached with
    | refl => exact .refl _
    | next path stepped ih =>
      obtain ⟨before, allowed⟩ := (hits_move (step_move stepped)).mp only
      have moved : restrict targeted step _ _ = some _ := (if_pos allowed).trans stepped
      exact (ih before).next moved
  · intro path
    induction path with
    | refl =>
      rw [clean]
      rintro _ ⟨⟩
    | next path stepped ih =>
      obtain ⟨allowed, stepped⟩ := restrict_some stepped
      have before := ih (path.mono fun stepped => (restrict_some stepped).2)
      exact (hits_move (step_move stepped)).mpr ⟨before, allowed⟩

/-- The PIDs that are around: known, running, or still to be acted on. -/
def names (s : State) : List PID :=
  s.nodes.flatMap (·.names) ++ (s.packets.flatMap (·.2.msg.names) ++ s.responses.flatMap (·.names))

/-- The PID that a step brings in. -/
def enters (s : State) : Label → Option PID
  | .deactivate _ pid => pid
  | .spawn i id => (s.nodes[i]?).map fun node => ⟨node.host, id⟩
  | .handle i choice =>
    match s.nodes[i]?, s.next i with
    | some node, some packet => node.spawns packet choice
    | _, _ => none
  | _ => none

/-- A PID is brought in only while no other one with its id is around. -/
def unambiguous (s : State) (label : Label) : Bool :=
  (s.enters label).all fun pid => s.names.all fun other => other.id ≠ pid.id || other = pid

theorem mem_names : pid ∈ s.names ↔ (∃ node ∈ s.nodes, pid ∈ node.names) ∨
    (∃ entry ∈ s.packets, pid ∈ entry.2.msg.names) ∨ ∃ response ∈ s.responses, pid ∈ response.names := by
  simp only [names, List.mem_append, List.mem_flatMap]

theorem Handles.enters (handles : Handles s i node packet) :
    s.enters (.handle i choice) = node.spawns packet choice := by
  simp only [State.enters, handles.found, handles.head]

/-- The PIDs in a new packet. -/
theorem sends_names (sent : Sends s t label p) (named : pid ∈ p.msg.names) :
    pid ∈ s.names ∨ s.enters label = some pid := by
  have told {entry : Queue × Packet} (present : entry ∈ s.packets) (named : pid ∈ entry.2.msg.names) :
      pid ∈ s.names ∨ s.enters label = some pid := .inl (mem_names.mpr (.inr (.inl ⟨entry, present, named⟩)))
  have asked {response : Response} {number : Nat} (found : s.responses[number]? = some response)
      (named : pid ∈ response.names) : pid ∈ s.names ∨ s.enters label = some pid :=
    .inl (mem_names.mpr (.inr (.inr ⟨response, List.mem_of_getElem? found, named⟩)))
  cases sent with
  | deactivate actor found => exact .inr (Option.mem_toList.mp named)
  | topology handles msg =>
    left
    refine mem_names.mpr (.inl ⟨_, List.mem_of_getElem? handles.found, Node.mem_names.mpr (.inl ?_)⟩)
    simpa [Message.names, Node.send, Agent.actorInfos] using named
  | tell handles msg chosen near =>
    right
    rw [handles.enters, Node.spawns, msg]
    simpa [chosen, near] using Option.mem_toList.mp named
  | response handles msg =>
    right
    rw [handles.enters, Node.spawns, msg]
    exact Option.mem_toList.mp named
  | deactivation handles msg => exact told handles.present (by rw [msg]; exact named)
  | resumeTell waited answered =>
    refine asked waited.asked ?_
    rw [Response.names, answered]
    exact List.mem_append_right _ named
  | announce found aim answered =>
    refine asked found ?_
    rw [Response.names, answered, aim]
    exact List.mem_append_left _ named
  | _ => cases named

theorem responses_names (becomes : Becomes s label number response) (named : pid ∈ response.names) :
    pid ∈ s.names ∨ s.enters label = some pid := by
  have asked {response : Response} {number : Nat} (found : s.responses[number]? = some response)
      (named : pid ∈ response.names) : pid ∈ s.names ∨ s.enters label = some pid :=
    .inl (mem_names.mpr (.inr (.inr ⟨response, List.mem_of_getElem? found, named⟩)))
  cases becomes with
  | same found => exact asked found named
  | spawn id found =>
    right
    rw [enters, found]
    exact congrArg some (List.mem_singleton.mp named).symm
  | answer found present target same pending =>
    rcases List.mem_append.mp named with purpose | told
    · exact asked found (by rwa [Response.names, pending])
    · exact .inl (mem_names.mpr (.inr (.inl ⟨_, present, told⟩)))
  | activate | request | settle | close => cases named

theorem nodes_names (move : Move s label t) (member : b ∈ t.nodes) (named : pid ∈ b.names) :
    pid ∈ s.names ∨ s.enters label = some pid := by
  have known {node : Node} (member : node ∈ s.nodes) (named : pid ∈ node.names) :
      pid ∈ s.names ∨ s.enters label = some pid := .inl (mem_names.mpr (.inl ⟨node, member, named⟩))
  cases move with
  | spawn id found =>
    rcases List.mem_or_eq_of_mem_set member with kept | rfl
    · exact known kept named
    · rcases Node.mem_names.mp named with entry | ⟨actor, present, rfl⟩
      · exact known (List.mem_of_getElem? found) (Node.mem_names.mpr (.inl entry))
      · rcases Keyed.mem_add present with old | rfl
        · exact known (List.mem_of_getElem? found) (Node.mem_names.mpr (.inr ⟨actor, old, rfl⟩))
        · right
          rw [enters, found]
          rfl
  | handle found free idle split first received =>
    rcases List.mem_or_eq_of_mem_set member with kept | rfl
    · exact known kept named
    · have handles : Handles s _ _ _ := ⟨found, free, Queues.mem_taken split, next_eq split first⟩
      rcases received.names named with old | told | spawns
      · exact known (List.mem_of_getElem? found) old
      · exact .inl (mem_names.mpr (.inr (.inl ⟨_, handles.present, told⟩)))
      · exact .inr (handles.enters.trans spawns)
  | wake found | timeout found =>
    rcases List.mem_or_eq_of_mem_set member with kept | rfl
    · exact known kept named
    · exact known (List.mem_of_getElem? found) named
  | stop found =>
    rcases List.mem_or_eq_of_mem_set member with kept | rfl
    · exact known kept named
    · refine known (List.mem_of_getElem? found) (Node.mem_names.mpr ?_)
      rcases Node.mem_names.mp named with entry | ⟨actor, present, rfl⟩
      · exact .inl entry
      · exact .inr ⟨actor, (Keyed.mem_erase.mp present).1, rfl⟩
  | activate | deactivate | provide | send | mail | lose | answer | returns | expire =>
    exact known member named

/-- A PID that is around was so, or the step brings it in. -/
theorem names_move (move : Move s label t) (named : pid ∈ t.names) :
    pid ∈ s.names ∨ s.enters label = some pid := by
  rcases mem_names.mp named with ⟨node, member, inside⟩ | ⟨entry, present, inside⟩ | ⟨response, member, inside⟩
  · exact nodes_names move member inside
  · rcases packets_move move entry present with ⟨old, before, same⟩ | sent
    · rw [← same] at inside
      exact .inl (mem_names.mpr (.inr (.inl ⟨old, before, inside⟩)))
    · exact sends_names sent inside
  · obtain ⟨number, found⟩ := List.mem_iff_getElem?.mp member
    exact responses_names (responses_move move found) inside

/-- No two PIDs with one id are around. -/
def Unambiguous (s : State) : Prop := ∀ p ∈ s.names, ∀ q ∈ s.names, p.id = q.id → p = q

theorem unambiguous_move (clear : s.Unambiguous) (move : Move s label t)
    (allowed : unambiguous s label = true) : t.Unambiguous := by
  have entered {p q : PID} (enters : s.enters label = some p) (around : q ∈ s.names) (same : q.id = p.id) :
      q = p := by
    rw [unambiguous, enters, Option.all_some, List.all_eq_true] at allowed
    simpa [same] using allowed q around
  intro p first q second same
  rcases names_move move first with old | new <;> rcases names_move move second with old' | new'
  · exact clear p old q old' same
  · exact entered new' old same
  · exact (entered new old' same.symm).symm
  · exact Option.some.inj (new.symm.trans new')

/-- Where PIDs are unambiguous, every deactivation is on target. -/
theorem unambiguous_targeted (clear : s.Unambiguous) (move : Move s label t) : targeted s label = true := by
  cases move with
  | @handle i node before packet after choice handling found free idle split first received =>
    simp only [targeted, found, next_eq split first]
    split
    · rename_i pid msg
      have around : pid ∈ s.names :=
        mem_names.mpr (.inr (.inl ⟨_, Queues.mem_taken split, by rw [msg]; exact List.mem_singleton_self _⟩))
      have known {q : PID} (named : q ∈ node.names) (same : q.id = pid.id) : q = pid :=
        clear q (mem_names.mpr (.inl ⟨node, List.mem_of_getElem? found, named⟩)) pid around same
      rw [Node.aims, Bool.and_eq_true]
      constructor
      · cases entry : node.agent.activated.get? pid.id with
        | none => rfl
        | some other =>
          obtain ⟨member, named⟩ := Keyed.get?_eq_some.mp entry
          simpa using known (Node.mem_names.mpr (.inl member)) named
      · cases entry : node.actors.get? pid.id with
        | none => simp [Keyed.contains, entry]
        | some actor =>
          obtain ⟨member, named⟩ := Keyed.get?_eq_some.mp entry
          have same := known (Node.mem_names.mpr (.inr ⟨actor, member, rfl⟩)) named
          simp [← same]
    · rfl
  | _ => rfl

theorem initial_unambiguous (configs : List Config) : (initial configs).Unambiguous := by
  intro p named
  rcases mem_names.mp named with ⟨node, member, inside⟩ | ⟨_, ⟨⟩, _⟩ | ⟨_, ⟨⟩, _⟩
  obtain ⟨config, -, rfl⟩ := List.mem_map.mp member
  rcases Node.mem_names.mp inside with entry | ⟨_, ⟨⟩, _⟩
  rw [(config_agent config).2] at entry
  cases entry

/-- In every run, all deactivations hit only their PID if and only if each was handled
where nothing else goes by its id; and so it is in every run that brings a PID in only
while no other one with its id is around. -/
theorem deactivations_on_target (configs : List Config) (s : State)
    (reached : Reaches step (initial configs) s) :
    ((∀ hit ∈ s.hits, hit.only) ↔
      Reaches (restrict targeted step) (initial configs) s) ∧
    (Reaches (restrict unambiguous step) (initial configs) s →
      ∀ hit ∈ s.hits, hit.only) := by
  constructor
  · exact hits_run rfl reached
  · intro path
    have both : s.Unambiguous ∧ ∀ hit ∈ s.hits, hit.only := by
      refine path.invariant (P := fun s => s.Unambiguous ∧ ∀ hit ∈ s.hits, hit.only)
        (fun clear stepped => ?_) ⟨initial_unambiguous configs, by rintro _ ⟨⟩⟩
      obtain ⟨allowed, stepped⟩ := restrict_some stepped
      have move := step_move stepped
      exact ⟨unambiguous_move clear.1 move allowed,
        (hits_move move).mpr ⟨clear.2, unambiguous_targeted clear.1 move⟩⟩
    exact both.2

/-- An actor is activated on the first member and deactivated from the second one. -/
def deactivatedActor : List Label :=
  [.activate 0 "k" "1", .handle 0 (pick 0), .move (.outbox 0), .move (.outbox 0), .move (.outbox 0),
    .returns 0, .handle 0 (pick 0), .move (.channel "h:1" "h:2"), .handle 1 (pick 0),
    .deactivate 1 (some ⟨"h:1", "k/1"⟩), .handle 1 (pick 0), .move (.outbox 1), .move (.outbox 1),
    .handle 1 (pick 0), .move (.channel "h:2" "h:1"), .handle 0 (pick 0), .stop 0 "k/1"]

theorem deactivations_on_target_once :
    ∃ s : State, Reaches step (initial pair) s ∧
      s.hits = [⟨⟨"h:1", "k/1"⟩, [⟨"h:1", "k/1"⟩], []⟩,
        ⟨⟨"h:1", "k/1"⟩, [⟨"h:1", "k/1"⟩], [⟨"h:1", "k/1"⟩]⟩] ∧
      Reaches (restrict targeted step) (initial pair) s ∧
      ∀ hit ∈ s.hits, hit.only := by
  obtain ⟨s, reached, ends⟩ := exists_of_run (restrict unambiguous step)
    (initial pair) deactivatedActor (fun s => s.hits = [⟨⟨"h:1", "k/1"⟩, [⟨"h:1", "k/1"⟩], []⟩,
      ⟨⟨"h:1", "k/1"⟩, [⟨"h:1", "k/1"⟩], [⟨"h:1", "k/1"⟩]⟩]) (by decide +kernel)
  have all := reached.mono fun stepped => (restrict_some stepped).2
  obtain ⟨exact_, enough⟩ := deactivations_on_target pair s all
  exact ⟨s, all, of_decide_eq_true ends, exact_.mp (enough reached), enough reached⟩

/-- Both members deactivate the actor of the first one; it is activated again, on the
second one, before the last `Deactivation` gets there. -/
def staleDeactivation : List Label :=
  [.activate 0 "k" "1", .handle 0 (pick 0), .move (.outbox 0), .move (.outbox 0), .move (.outbox 0),
    .returns 0, .handle 0 (pick 0), .move (.channel "h:1" "h:2"), .handle 1 (pick 0),
    .deactivate 1 (some ⟨"h:1", "k/1"⟩), .deactivate 0 (some ⟨"h:1", "k/1"⟩), .handle 1 (pick 0),
    .handle 0 (pick 0), .move (.outbox 1), .move (.outbox 1), .handle 1 (pick 0), .move (.outbox 0),
    .move (.outbox 0), .handle 0 (pick 0), .stop 0 "k/1", .activate 1 "k" "1", .handle 1 (pick 1),
    .move (.outbox 1), .move (.outbox 1), .move (.outbox 1), .handle 1 (pick 0),
    .move (.channel "h:1" "h:2"), .handle 1 (pick 0)]

theorem stale_deactivation_hits_another :
    ∃ s : State, Reaches step (initial pair) s ∧
      ⟨⟨"h:1", "k/1"⟩, [⟨"h:2", "k/1"⟩], [⟨"h:2", "k/1"⟩]⟩ ∈ s.hits ∧ ¬ ∀ hit ∈ s.hits, hit.only := by
  obtain ⟨s, reached, ends⟩ := exists_of_run step (initial pair) staleDeactivation
    (fun s => ⟨⟨"h:1", "k/1"⟩, [⟨"h:2", "k/1"⟩], [⟨"h:2", "k/1"⟩]⟩ ∈ s.hits ∧ ¬ ∀ hit ∈ s.hits, hit.only)
    (by decide +kernel)
  exact ⟨s, reached, of_decide_eq_true ends⟩

end State

end Hollywood.Cluster
