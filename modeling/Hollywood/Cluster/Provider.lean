import Hollywood.Cluster.Membership
import Hollywood.Cluster.SelfManaged

/-! The member set of the self-managed provider (`cluster/selfmanaged.go`) under all
that a provider is told: members it may know already, handshakes without a member, and
addresses that cannot be reached. A handler that dereferences a nil member panics,
which is `none`. -/
namespace Hollywood.Cluster

/-- `GetByHost`, with the order in which it ranges over the map: the last member found
on the host. -/
def MemberSet.getByHost (order : List Member) (host : String) : Option Member :=
  order.foldl (fun theMember member => if member.host = host then some member else theMember) none

theorem MemberSet.getByHost_eq (order : List Member) (host : String) :
    getByHost order host = (order.filter (·.host = host)).getLast? := by
  have general (found : Option Member) :
      order.foldl (fun theMember member => if member.host = host then some member else theMember) found =
        ((order.filter (·.host = host)).getLast?).or found := by
    induction order generalizing found with
    | nil => rfl
    | cons member rest ih =>
      rw [List.foldl_cons, ih, List.filter_cons]
      split
      · rename_i here
        rw [if_pos (by simpa using here), List.getLast?_cons]
        cases (rest.filter (·.host = host)).getLast? <;> rfl
      · rename_i elsewhere
        rw [if_neg (by simpa using elsewhere)]
  rw [getByHost, general, Option.or_none]

/-- A `Members` message of the provider, to the agent on its node or to the sender of a
handshake. -/
structure MembersSend where
  target : PID
  members : List Member
  deriving DecidableEq, Repr

namespace Bootstrap.SelfManaged

def sendMembersToAgent (s : SelfManaged) : MembersSend := ⟨s.peer.member.pid, s.members.entries⟩

/-- A `Handshake`; its member is nil if the field is absent. -/
def handshake (s : SelfManaged) (member : Option Member) (sender : Option PID) :
    Option (SelfManaged × List MembersSend) := do
  let member ← member
  let next := s.addMembers [member]
  some (next, next.sendMembersToAgent :: sender.toList.map fun sender => ⟨sender, next.members.entries⟩)

def removeMember (s : SelfManaged) (member : Option Member) : Option (SelfManaged × List MembersSend) := do
  let member ← member
  let next :=
    if s.members.contains member.id then { s with members := s.members.erase member.id } else s
  some (next, [next.sendMembersToAgent])

/-- A `memberLeave`, which the event subscriber sends for a `RemoteUnreachableEvent`. -/
def memberLeave (s : SelfManaged) (order : List Member) (listenAddr : String) :
    Option (SelfManaged × List MembersSend) :=
  s.removeMember (MemberSet.getByHost order listenAddr)

theorem addMembers_get? (s : SelfManaged) (members : List Member) (x : String) :
    (s.addMembers members).members.get? x = (s.members.get? x).or (members.find? (·.id = x)) :=
  Keyed.get?_foldl_add members s.members x

end Bootstrap.SelfManaged

open Bootstrap (SelfManaged)

section Current
variable {a b : Agent} {members join leave : List Member} {effects : List Effect}

/-- A listed member that the agent knew stays as it was. -/
theorem Agent.handleMembersIn_known (handled : a.handleMembersIn members join leave = some (b, effects))
    (listed : x ∈ members.map (·.id)) (known : a.members.get? x = some member) :
    b.members.get? x = some member := by
  obtain ⟨old, rfl⟩ := Keyed.get?_eq_some.mp known
  refine Keyed.get?_eq_some.mpr ⟨(handleMembersIn_members handled).mpr (.inl ⟨old, ?_⟩), rfl⟩
  intro gone
  exact (mem_left.mp gone).2 listed

theorem Agent.handleMembersIn_new (handled : a.handleMembersIn members join leave = some (b, effects))
    (distinct : (members.map (·.id)).Nodup) (listed : member ∈ members)
    (new : a.members.get? member.id = none) : b.members.get? member.id = some member := by
  refine Keyed.get?_eq_some.mpr ⟨(handleMembersIn_members handled).mpr (.inr ?_), rfl⟩
  refine mem_joined_iff.mpr ⟨(Keyed.mem_ofList distinct).mpr listed, ?_⟩
  rw [Keyed.contains, new]
  rfl

theorem find?_listed (distinct : (members.map (·.id)).Nodup) (listed : member ∈ members) :
    members.find? (·.id = member.id) = some member := by
  have known : Keyed.get? (⟨members, distinct⟩ : MemberSet) member.id = some member :=
    Keyed.get?_eq_some.mpr ⟨listed, rfl⟩
  exact known

end Current

/-- For every agent, every provider and every list of members with distinct ids: the
agent holds the data of the list for every id of it if and only if it knew none of the
ids with other data; and so for the provider. -/
theorem membership_data_current_iff (a b : Agent) (s : SelfManaged) (members join leave : List Member)
    (effects : List Effect) (distinct : (members.map (·.id)).Nodup)
    (handled : a.handleMembersIn members join leave = some (b, effects)) :
    ((∀ member ∈ members, b.members.get? member.id = some member) ↔
      ∀ member ∈ members, ∀ known, a.members.get? member.id = some known → known = member) ∧
    ((∀ member ∈ members, (s.addMembers members).members.get? member.id = some member) ↔
      ∀ member ∈ members, ∀ known, s.members.get? member.id = some known → known = member) := by
  constructor
  · constructor
    · intro current member listed known found
      have kept := Agent.handleMembersIn_known handled (List.mem_map_of_mem listed) found
      rw [current member listed] at kept
      exact (Option.some.inj kept).symm
    · intro same member listed
      cases found : a.members.get? member.id with
      | none => exact Agent.handleMembersIn_new handled distinct listed found
      | some known =>
        have kept := Agent.handleMembersIn_known handled (List.mem_map_of_mem listed) found
        rwa [same member listed known found] at kept
  · simp only [SelfManaged.addMembers_get?]
    constructor
    · intro current member listed known found
      have kept := current member listed
      rw [found, Option.some_or] at kept
      exact Option.some.inj kept
    · intro same member listed
      cases found : s.members.get? member.id with
      | none => rw [Option.none_or, find?_listed distinct listed]
      | some known => rw [Option.some_or, same member listed known found]

/-- The provider on h:1 with the members of `settledAgent`. -/
def settledProvider : SelfManaged where
  peer := ⟨⟨"h:1", "A", "default", ["k"]⟩, []⟩
  members := Agent.settledAgent.members
  started := true

/-- One member stays as it is, another one is new. -/
def arrival : List Member := [⟨"h:1", "A", "default", ["k"]⟩, ⟨"h:4", "D", "eu", ["k"]⟩]

theorem membership_data_current_iff_arrival :
    ∃ b effects, Agent.settledAgent.handleMembersIn arrival [⟨"h:4", "D", "eu", ["k"]⟩]
        [⟨"h:2", "B", "default", ["k"]⟩, ⟨"h:3", "C", "default", ["k"]⟩] = some (b, effects) ∧
      (∀ member ∈ arrival, b.members.get? member.id = some member) ∧
      ∀ member ∈ arrival, (settledProvider.addMembers arrival).members.get? member.id = some member := by
  refine ⟨_, _, rfl, ?_⟩
  have current := membership_data_current_iff Agent.settledAgent _ settledProvider arrival
    [⟨"h:4", "D", "eu", ["k"]⟩] [⟨"h:2", "B", "default", ["k"]⟩, ⟨"h:3", "C", "default", ["k"]⟩] _
    (by decide +kernel) rfl
  exact ⟨current.1.mpr (by decide +kernel), current.2.mpr (by decide +kernel)⟩

/-- The node B has been restarted on another address with another kind: agent and
provider keep what they had for the id. -/
theorem restarted_member_stale :
    ∃ b effects, Agent.settledAgent.handleMembersIn
        [⟨"h:1", "A", "default", ["k"]⟩, ⟨"h:7", "B", "eu", ["l"]⟩, ⟨"h:3", "C", "default", ["k"]⟩] [] [] =
          some (b, effects) ∧
      b.members.get? "B" = some ⟨"h:2", "B", "default", ["k"]⟩ ∧
      (settledProvider.addMembers [⟨"h:7", "B", "eu", ["l"]⟩]).members.get? "B" =
        some ⟨"h:2", "B", "default", ["k"]⟩ := by
  refine ⟨_, _, rfl, ?_⟩
  decide +kernel

theorem memberLeave_unknown {s : SelfManaged} {order : List Member} {address : String}
    (nobody : order.filter (·.host = address) = []) : s.memberLeave order address = none := by
  rw [SelfManaged.memberLeave, MemberSet.getByHost_eq, nobody]
  rfl

/-- One member is removed: the last one on the host that the map yields. -/
theorem memberLeave_known {s : SelfManaged} {order : List Member} {address : String}
    (ranged : order.Perm s.members.entries)
    (last : (order.filter (·.host = address)).getLast? = some member) :
    member ∈ s.members.entries ∧ member.host = address ∧
      ∃ t sends, s.memberLeave order address = some (t, sends) ∧ t.members = s.members.erase member.id := by
  have inside := List.mem_of_getLast? last
  rw [List.mem_filter, decide_eq_true_eq, ranged.mem_iff] at inside
  have known : s.members.contains member.id = true := Keyed.contains_iff.mpr ⟨member, inside.1, rfl⟩
  refine ⟨inside.1, inside.2, { s with members := s.members.erase member.id },
    [SelfManaged.sendMembersToAgent { s with members := s.members.erase member.id }], ?_, rfl⟩
  simp only [SelfManaged.memberLeave, MemberSet.getByHost_eq, last, SelfManaged.removeMember,
    Option.bind_eq_bind, Option.bind_some, known, if_true]

/-- For every member set, every address and every order of the map: the provider does
not panic, removes every member on the address and leaves all others in place, if and
only if one member is on the address. -/
theorem unreachable_exact_iff (s : SelfManaged) (order : List Member)
    (ranged : order.Perm s.members.entries) (address : String) :
    (∃ t sends, s.memberLeave order address = some (t, sends) ∧
      ∀ member, member ∈ t.members.entries ↔ member ∈ s.members.entries ∧ member.host ≠ address) ↔
      s.members.entries.countP (·.host = address) = 1 := by
  cases last : (order.filter (·.host = address)).getLast? with
  | none =>
    have nobody := List.getLast?_eq_none_iff.mp last
    rw [memberLeave_unknown nobody, ← ranged.countP_eq, List.countP_eq_length_filter, nobody]
    constructor
    · rintro ⟨t, sends, panicked, -⟩
      cases panicked
    · intro one
      cases one
  | some gone =>
    obtain ⟨known, here, t, sends, left, erased⟩ := memberLeave_known ranged last
    rw [Keyed.countP_eq_one_iff known (by simpa using here), left]
    simp only [decide_eq_true_eq]
    constructor
    · rintro ⟨_, _, ⟨⟩, rest⟩ member inside host
      -- another member on the address would have stayed
      by_contra other
      have kept : member ∈ t.members.entries := by
        rw [erased, Keyed.mem_erase]
        exact ⟨inside, fun same => other (Keyed.unique inside known same)⟩
      exact ((rest member).mp kept).2 host
    · intro alone
      refine ⟨t, sends, rfl, ?_⟩
      intro member
      rw [erased, Keyed.mem_erase]
      constructor
      · rintro ⟨inside, other⟩
        exact ⟨inside, fun host => other (congrArg _ (alone member inside host))⟩
      · rintro ⟨inside, elsewhere⟩
        refine ⟨inside, ?_⟩
        intro same
        rw [Keyed.unique inside known same] at elsewhere
        exact elsewhere here

theorem unreachable_exact_iff_member :
    ∃ t sends, settledProvider.memberLeave settledProvider.members.entries "h:2" = some (t, sends) ∧
      ∀ member, member ∈ t.members.entries ↔
        member ∈ settledProvider.members.entries ∧ member.host ≠ "h:2" :=
  (unreachable_exact_iff settledProvider settledProvider.members.entries (.refl _) "h:2").mpr
    (by decide +kernel)

/-- A host that is not a member's makes the provider panic, and of two members on one
host one stays. -/
theorem unreachable_host_panics :
    settledProvider.memberLeave settledProvider.members.entries "h:9" = none ∧
      ((settledProvider.addMembers [⟨"h:2", "B2", "default", ["k"]⟩]).memberLeave
          (settledProvider.addMembers [⟨"h:2", "B2", "default", ["k"]⟩]).members.entries "h:2").map
        (fun left => left.1.members.entries.map (·.id)) = some ["A", "B", "C"] := by
  decide +kernel

end Hollywood.Cluster
