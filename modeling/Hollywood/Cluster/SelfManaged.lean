import Hollywood.Cluster
import Hollywood.Foundation.Pool
import Hollywood.Foundation.Transition

/-! The self-managed provider (`cluster/selfmanaged.go`) where nodes are discovered by
bootstrap handshakes only and all of them can be reached. The messages in flight may
be delivered in any order. One for a node on which no provider is registered yet becomes
a dead letter there (`SendLocal`, `actor/engine.go`), and nobody sends it again. -/
namespace Hollywood.Cluster

/-- A reachable node of the cluster, as a bootstrap list names it. -/
structure MemberAddr where
  listenAddr : String
  id : String
  deriving DecidableEq, Repr

def MemberAddr.pid (addr : MemberAddr) : PID := ⟨addr.listenAddr, "provider/" ++ addr.id⟩

def memberToProviderPID (member : Member) : PID := ⟨member.host, "provider/" ++ member.id⟩

/-- A node with its configuration. -/
structure Peer where
  member : Member
  bootstrapMembers : List MemberAddr
  deriving DecidableEq

namespace Peer

def pid (peer : Peer) : PID := memberToProviderPID peer.member

/-- Whether a node has another one in its bootstrap list. -/
def bootstraps (a b : Peer) : Bool := a.bootstrapMembers.any (·.pid = b.pid)

/-- Two nodes of which one bootstraps from the other. -/
def linked (a b : Peer) : Bool := a.bootstraps b || b.bootstraps a

theorem linked_symm (a b : Peer) : a.linked b = b.linked a := Bool.or_comm _ _

end Peer

/-- The nodes that will be started; a node is known by its id. -/
structure Peers where
  all : List Peer
  distinct : (all.map (·.member.id)).Nodup

theorem Peers.unique {peers : Peers} (first : a ∈ peers.all) (second : b ∈ peers.all)
    (same : a.member.id = b.member.id) : a = b :=
  List.inj_on_of_nodup_map peers.distinct first second same

theorem Peers.pid_unique {peers : Peers} (first : a ∈ peers.all) (second : b ∈ peers.all)
    (same : a.pid = b.pid) : a = b := by
  apply peers.unique first second
  have ids : "provider/" ++ a.member.id = "provider/" ++ b.member.id := congrArg PID.id same
  simpa using ids

namespace Bootstrap

inductive Msg where
  | handshake (member : Member)
  | members (members : List Member)
  deriving DecidableEq

/-- The members that a message tells of. -/
def Msg.named : Msg → List Member
  | .handshake member => [member]
  | .members known => known

structure Envelope where
  target : PID
  sender : Option PID
  msg : Msg
  deriving DecidableEq

structure SelfManaged where
  peer : Peer
  members : MemberSet
  started : Bool
  deriving DecidableEq

namespace SelfManaged

def addMembers (s : SelfManaged) (members : List Member) : SelfManaged :=
  { s with members := members.foldl Keyed.add s.members }

/-- The provider adds itself and sends a handshake to every bootstrap member. -/
def start (s : SelfManaged) : SelfManaged × List Envelope :=
  ({ s with members := s.members.put s.peer.member, started := true },
    s.peer.bootstrapMembers.map fun member => ⟨member.pid, some s.peer.pid, .handshake s.peer.member⟩)

/-- The provider is registered on the engine of its node under this PID. -/
def serves (s : SelfManaged) (target : PID) : Bool := s.started && s.peer.pid = target

def receive (s : SelfManaged) (envelope : Envelope) : SelfManaged × List Envelope :=
  match envelope.msg with
  | .handshake member =>
    let next := s.addMembers [member]
    (next, envelope.sender.toList.map fun sender => ⟨sender, none, .members next.members.entries⟩)
  | .members members => (s.addMembers members, [])

/-- A node knows those it knew and those it is told of. -/
theorem addMembers_contains (s : SelfManaged) (members : List Member) (x : String) :
    (s.addMembers members).members.contains x = true ↔
      s.members.contains x = true ∨ ∃ member ∈ members, member.id = x := by
  unfold addMembers
  induction members generalizing s with
  | nil => simp
  | cons member rest ih =>
    refine (ih { s with members := s.members.add member }).trans ?_
    simp only [Keyed.contains_add, Bool.or_eq_true, decide_eq_true_eq, List.exists_mem_cons_iff]
    rw [or_comm (a := member.id = x), or_assoc]

theorem receive_fst (s : SelfManaged) (envelope : Envelope) :
    (s.receive envelope).1 = s.addMembers envelope.msg.named := by
  unfold receive
  cases envelope.msg with
  | handshake member => rfl
  | members members => rfl

end SelfManaged

structure State where
  providers : List SelfManaged
  packets : List Envelope
  deadLetters : List Envelope
  deriving DecidableEq

inductive Label where
  | start (i : Nat)
  | deliver (k : Nat)
  deriving DecidableEq

def initial (peers : Peers) : State := ⟨peers.all.map (⟨·, .empty, false⟩), [], []⟩

def step (s : State) : Label → Option State
  | .start i => do
    let p ← s.providers[i]?
    if p.started then none
    else some { s with providers := s.providers.set i p.start.1, packets := s.packets ++ p.start.2 }
  | .deliver k => do
    let envelope ← s.packets[k]?
    let rest := s.packets.eraseIdx k
    match s.providers.findIdx? (·.serves envelope.target) with
    | none => some { s with packets := rest, deadLetters := s.deadLetters ++ [envelope] }
    | some i => do
      let p ← s.providers[i]?
      some { s with
        providers := s.providers.set i (p.receive envelope).1, packets := rest ++ (p.receive envelope).2 }

/-- What a step can do, with the provider it is about. -/
inductive Move (s : State) : Label → State → Prop where
  | start : s.providers[i]? = some p → p.started = false →
      Move s (.start i) { s with providers := s.providers.set i p.start.1, packets := s.packets ++ p.start.2 }
  | lose : s.packets[k]? = some envelope → (∀ p ∈ s.providers, p.serves envelope.target = false) →
      Move s (.deliver k) { s with packets := s.packets.eraseIdx k, deadLetters := s.deadLetters ++ [envelope] }
  | receive : s.packets[k]? = some envelope → s.providers[i]? = some p →
      p.peer.pid = envelope.target → p.started = true →
      Move s (.deliver k) { s with
        providers := s.providers.set i (p.receive envelope).1,
        packets := s.packets.eraseIdx k ++ (p.receive envelope).2 }

theorem step_move (stepped : step s l = some t) : Move s l t := by
  cases l with
  | start i =>
    obtain ⟨p, found, stepped⟩ := Option.bind_eq_some_iff.mp stepped
    split at stepped
    · cases stepped
    · cases stepped
      exact .start found (by simp_all)
  | deliver k =>
    obtain ⟨envelope, found, stepped⟩ := Option.bind_eq_some_iff.mp stepped
    dsimp only at stepped
    split at stepped
    · rename_i nobody
      cases stepped
      exact .lose found (List.findIdx?_eq_none_iff.mp nobody)
    · rename_i i host
      obtain ⟨p, at_, stepped⟩ := Option.bind_eq_some_iff.mp stepped
      obtain ⟨bound, same, -⟩ := List.findIdx?_eq_some_iff_getElem.mp host
      rw [List.getElem?_eq_getElem bound] at at_
      cases at_
      cases stepped
      rw [SelfManaged.serves, Bool.and_eq_true, decide_eq_true_eq] at same
      exact .receive found (List.getElem?_eq_getElem bound) same.2 same.1

namespace State

/-- A node that has been started. -/
def up (s : State) (a : Peer) : Prop := ∃ p ∈ s.providers, p.peer = a ∧ p.started = true

/-- A node has a member with this id in its member set. -/
def knows (s : State) (a : Peer) (x : String) : Prop :=
  ∃ p ∈ s.providers, p.peer = a ∧ p.members.contains x = true

instance (s : State) (a : Peer) (x : String) : Decidable (s.knows a x) :=
  inferInstanceAs (Decidable (∃ p ∈ s.providers, _))

/-- The handshake of a node is on its way to another. -/
def asked (s : State) (a b : Peer) : Prop := ⟨b.pid, some a.pid, .handshake a.member⟩ ∈ s.packets

/-- The handshake of a node came before the other one had started. -/
def missed (s : State) (a b : Peer) : Prop := ⟨b.pid, some a.pid, .handshake a.member⟩ ∈ s.deadLetters

/-- A reply that tells a node of this id is on its way. -/
def told (s : State) (a : Peer) (x : String) : Prop :=
  ∃ members, ⟨a.pid, none, .members members⟩ ∈ s.packets ∧ ∃ member ∈ members, member.id = x

/-- The nodes are those of the configuration, one provider each. -/
def hosts (s : State) (peers : Peers) : Prop := s.providers.map (·.peer) = peers.all

end State

theorem hosts_move (move : Move s l t) (hosted : s.hosts peers) : t.hosts peers := by
  have same {i : Nat} {p : SelfManaged} (found : s.providers[i]? = some p) (next : SelfManaged)
      (peer : next.peer = p.peer) :
      (s.providers.set i next).map (·.peer) = peers.all := by
    rw [Pool.map_set (·.peer) found peer]
    exact hosted
  cases move with
  | start found idle => exact same found _ rfl
  | lose => exact hosted
  | receive found at_ target started =>
    rename_i envelope i p
    apply same at_
    rw [p.receive_fst]
    rfl

namespace State
variable {s t : State} {peers : Peers} {a b : Peer} {x : String}

theorem hosts.provider (hosted : s.hosts peers) (member : a ∈ peers.all) :
    ∃ p ∈ s.providers, p.peer = a := by
  rw [← hosted] at member
  exact List.mem_map.mp member

theorem hosts.mem (hosted : s.hosts peers) (member : p ∈ s.providers) : p.peer ∈ peers.all := by
  rw [← hosted]
  exact List.mem_map_of_mem member

theorem up.mem (alive : s.up a) (hosted : s.hosts peers) : a ∈ peers.all := by
  obtain ⟨p, member, rfl, -⟩ := alive
  exact hosted.mem member

/-- Each node has one member set. -/
theorem hosts.unique (hosted : s.hosts peers) (first : p ∈ s.providers) (second : q ∈ s.providers)
    (same : p.peer = q.peer) : p = q := by
  have distinct := peers.distinct
  rw [← hosted, List.map_map] at distinct
  exact List.inj_on_of_nodup_map distinct first second (congrArg (·.member.id) same)

theorem hosts.contains (hosted : s.hosts peers) (member : p ∈ s.providers) (known : s.knows p.peer x) :
    p.members.contains x = true := by
  obtain ⟨q, other, same, known⟩ := known
  rwa [hosted.unique member other same.symm]

end State

theorem up_move (move : Move s l t) (alive : s.up a) : t.up a := by
  cases move with
  | start found idle => exact Pool.exists_set found (by simp [idle]) alive
  | lose => exact alive
  | receive found at_ target started =>
    refine Pool.exists_set at_ ?_ alive
    intro holds
    rw [SelfManaged.receive_fst]
    exact holds

theorem knows_move (move : Move s l t) (known : s.knows a x) : t.knows a x := by
  cases move with
  | start found idle =>
    refine Pool.exists_set found ?_ known
    rintro ⟨same, known⟩
    refine ⟨same, ?_⟩
    rw [SelfManaged.start, Keyed.contains_put, known, Bool.or_true]
  | lose => exact known
  | receive found at_ target started =>
    refine Pool.exists_set at_ ?_ known
    rintro ⟨same, known⟩
    rw [SelfManaged.receive_fst]
    exact ⟨same, (SelfManaged.addMembers_contains _ _ _).mpr (.inl known)⟩

/-- A node that runs after a step ran before it or has just entered itself and sent
its handshakes. -/
theorem up_back (move : Move s l t) (alive : t.up a) :
    s.up a ∨ (t.knows a a.member.id ∧ ∀ b, a.bootstraps b = true → t.asked a b) := by
  obtain ⟨q, member, rfl, started⟩ := alive
  cases move with
  | start found idle =>
    rcases List.mem_or_eq_of_mem_set member with old | rfl
    · exact .inl ⟨q, old, rfl, started⟩
    · refine .inr ⟨⟨_, member, rfl, ?_⟩, ?_⟩
      · simp [SelfManaged.start, Keyed.contains_put]
      · intro b listed
        obtain ⟨addr, inside, same⟩ := List.any_eq_true.mp listed
        apply List.mem_append_right
        rw [← of_decide_eq_true same]
        exact List.mem_map_of_mem inside
  | lose => exact .inl ⟨q, member, rfl, started⟩
  | receive found at_ target running =>
    rcases List.mem_or_eq_of_mem_set member with old | rfl
    · exact .inl ⟨q, old, rfl, started⟩
    · rw [SelfManaged.receive_fst]
      exact .inl ⟨_, List.mem_of_getElem? at_, rfl, running⟩

/-- How a node comes to know of an id. -/
inductive Learns (s t : State) (a : Peer) (x : String) : Prop where
  | knew : s.knows a x → Learns s t a x
  | self : t.up a → a.member.id = x → Learns s t a x
  | told : envelope ∈ s.packets → envelope.target = a.pid → s.up a →
      member ∈ envelope.msg.named → member.id = x → Learns s t a x

theorem knows_back (move : Move s l t) (known : t.knows a x) : Learns s t a x := by
  obtain ⟨q, member, rfl, known⟩ := known
  cases move with
  | start found idle =>
    rcases List.mem_or_eq_of_mem_set member with old | rfl
    · exact .knew ⟨q, old, rfl, known⟩
    · rw [SelfManaged.start, Keyed.contains_put, Bool.or_eq_true, decide_eq_true_eq] at known
      rcases known with itself | known
      · exact .self ⟨_, member, rfl, rfl⟩ itself
      · exact .knew ⟨_, List.mem_of_getElem? found, rfl, known⟩
  | lose => exact .knew ⟨q, member, rfl, known⟩
  | receive found at_ target running =>
    rename_i envelope i p
    rcases List.mem_or_eq_of_mem_set member with old | rfl
    · exact .knew ⟨q, old, rfl, known⟩
    · rw [SelfManaged.receive_fst] at known ⊢
      rcases (SelfManaged.addMembers_contains _ _ _).mp known with known | ⟨named, inside, same⟩
      · exact .knew ⟨p, List.mem_of_getElem? at_, rfl, known⟩
      · exact .told (List.mem_of_getElem? found) target.symm ⟨p, List.mem_of_getElem? at_, rfl, running⟩
          inside same

/-- What is in flight after a step: what was, the handshakes of a node that has
started, or the answer to a handshake. -/
inductive Sends (s t : State) : Label → Envelope → Prop where
  | kept : envelope ∈ s.packets → Sends s t l envelope
  | handshake : s.providers[i]? = some p → t.up p.peer → addr ∈ p.peer.bootstrapMembers →
      Sends s t (.start i) ⟨addr.pid, some p.peer.pid, .handshake p.peer.member⟩
  | members : ⟨p.peer.pid, some sender, .handshake member⟩ ∈ s.packets → p ∈ t.providers →
      Sends s t l ⟨sender, none, .members p.members.entries⟩

theorem packets_move (move : Move s l t) (inFlight : envelope ∈ t.packets) : Sends s t l envelope := by
  cases move with
  | start found idle =>
    rcases List.mem_append.mp inFlight with old | new
    · exact .kept old
    · obtain ⟨addr, inside, rfl⟩ := List.mem_map.mp new
      exact .handshake found ⟨_, Pool.mem_moved found, rfl, rfl⟩ inside
  | lose => exact .kept (List.mem_of_mem_eraseIdx inFlight)
  | receive found at_ target running =>
    rename_i received i p
    rcases List.mem_append.mp inFlight with old | new
    · exact .kept (List.mem_of_mem_eraseIdx old)
    · obtain ⟨reached, sender, msg⟩ := received
      cases target
      cases msg with
      | handshake member =>
        obtain ⟨sender, given, rfl⟩ := List.mem_map.mp new
        rw [Option.mem_toList] at given
        cases given
        exact .members (List.mem_of_getElem? found) (Pool.mem_moved at_)
      | members => cases new

/-- What becomes of a message in flight. -/
inductive Leaves (s t : State) (envelope : Envelope) : Prop where
  | kept : envelope ∈ t.packets → Leaves s t envelope
  | lost : (∀ p ∈ s.providers, p.serves envelope.target = false) → envelope ∈ t.deadLetters → Leaves s t envelope
  | received {p : SelfManaged} : p.peer.pid = envelope.target → p.started = true → (p.receive envelope).1 ∈ t.providers →
      (∀ reply ∈ (p.receive envelope).2, reply ∈ t.packets) → Leaves s t envelope

theorem packets_stay (move : Move s l t) (inFlight : envelope ∈ s.packets) : Leaves s t envelope := by
  have others {k : Nat} {gone : Envelope} (found : s.packets[k]? = some gone) :
      envelope = gone ∨ envelope ∈ s.packets.eraseIdx k := by
    obtain ⟨j, at_⟩ := List.mem_iff_getElem?.mp inFlight
    by_cases same : j = k
    · left
      rw [same, found] at at_
      exact (Option.some.inj at_).symm
    · exact .inr (List.mem_eraseIdx_iff_getElem?.mpr ⟨j, same, at_⟩)
  cases move with
  | start => exact .kept (List.mem_append_left _ inFlight)
  | lose found nobody =>
    rcases others found with rfl | left
    · exact .lost nobody (List.mem_append_right _ (List.mem_singleton_self _))
    · exact .kept left
  | receive found at_ target running =>
    rcases others found with rfl | left
    · exact .received target running (Pool.mem_moved at_) fun reply new => List.mem_append_right _ new
    · exact .kept (List.mem_append_left _ left)

/-- A dead letter stays one; what becomes one was for a node that does not run. -/
theorem deadLetters_move (move : Move s l t) :
    (∀ envelope ∈ s.deadLetters, envelope ∈ t.deadLetters) ∧
      ∀ envelope ∈ t.deadLetters, envelope ∈ s.deadLetters ∨
        (envelope ∈ s.packets ∧ ∀ p ∈ s.providers, p.serves envelope.target = false) := by
  cases move with
  | start | receive => exact ⟨fun _ => id, fun _ => .inl⟩
  | lose found nobody =>
    refine ⟨fun envelope old => List.mem_append_left _ old, ?_⟩
    intro envelope dead
    rcases List.mem_append.mp dead with old | new
    · exact .inl old
    · cases List.mem_singleton.mp new
      exact .inr ⟨List.mem_of_getElem? found, nobody⟩

/-- A message to a node of the configuration waits, becomes a dead letter before that node
runs, or is received by it. -/
theorem reaches_peer (hosted : s.hosts peers) (move : Move s l t) (member : a ∈ peers.all)
    (inFlight : ⟨a.pid, sender, msg⟩ ∈ s.packets) :
    ⟨a.pid, sender, msg⟩ ∈ t.packets ∨ (¬ s.up a ∧ ⟨a.pid, sender, msg⟩ ∈ t.deadLetters) ∨
      ∃ p : SelfManaged, p.peer = a ∧ (p.receive ⟨a.pid, sender, msg⟩).1 ∈ t.providers ∧
        ∀ reply ∈ (p.receive ⟨a.pid, sender, msg⟩).2, reply ∈ t.packets := by
  cases packets_stay move inFlight with
  | kept there => exact .inl there
  | lost nobody dead =>
    refine .inr (.inl ⟨?_, dead⟩)
    rintro ⟨p, there, rfl, started⟩
    simpa [SelfManaged.serves, started] using nobody p there
  | received target running there replies =>
    rename_i p
    have mine := (hosts_move move hosted).mem there
    rw [p.receive_fst] at mine
    exact .inr (.inr ⟨p, peers.pid_unique mine member target, there, replies⟩)

/-- A handshake that is answered makes its sender known, and the reply holds all
that the other node knows by then. -/
theorem asked_move (hosted : s.hosts peers) (move : Move s l t) (member : b ∈ peers.all)
    (asked : s.asked a b) :
    t.asked a b ∨ (¬ s.up b ∧ t.missed a b) ∨ (t.knows b a.member.id ∧ ∀ x, t.knows b x → t.told a x) := by
  rcases reaches_peer hosted move member asked with waits | dead | ⟨p, rfl, there, replies⟩
  · exact .inl waits
  · exact .inr (.inl dead)
  · have known {x : String} : (p.addMembers [a.member]).members.contains x = true →
        t.knows p.peer x := fun holds => ⟨_, there, rfl, holds⟩
    refine .inr (.inr ⟨known ((p.addMembers_contains _ _).mpr (.inr ⟨_, List.mem_singleton_self _, rfl⟩)), ?_⟩)
    intro x learned
    have listed := (hosts_move move hosted).contains there learned
    obtain ⟨value, found⟩ := Option.isSome_iff_exists.mp listed
    obtain ⟨inside, same⟩ := Keyed.get?_eq_some.mp found
    exact ⟨_, replies _ (List.mem_singleton_self _), value, inside, same⟩

/-- A reply is in flight until its target, which runs, knows what it tells. -/
theorem told_move (hosted : s.hosts peers) (move : Move s l t) (alive : s.up a)
    (told : s.told a x) : t.told a x ∨ t.knows a x := by
  obtain ⟨known, inFlight, named⟩ := told
  rcases reaches_peer hosted move (alive.mem hosted) inFlight with waits | ⟨down, -⟩ | ⟨p, rfl, there, -⟩
  · exact .inl ⟨known, waits, named⟩
  · exact absurd alive down
  · exact .inr ⟨_, there, rfl, (p.addMembers_contains _ _).mpr (.inr named)⟩

end Bootstrap

end Hollywood.Cluster
