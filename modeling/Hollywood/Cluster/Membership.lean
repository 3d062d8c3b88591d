import Hollywood.Cluster

/-! What a `Members` message does to an agent: who is a member afterwards, which events
are broadcast and which actors are forgotten. The members that join and those that
leave come from maps, so they are handled in any order. -/
namespace Hollywood.Cluster

namespace Agent
variable {a b c : Agent} {members join leave : List Member} {effects : List Effect}

/-- `handleMembers` with the orders in which it ranges over those that join and those
that leave. -/
def handleMembersIn (a : Agent) (members join leave : List Member) : Option (Agent × List Effect) :=
  if join.Perm (a.joined members) ∧ leave.Perm (a.left members) then
    let joins := forEach memberJoin a join
    let leaves := forEach memberLeave joins.1 leave
    some (leaves.1, joins.2 ++ leaves.2)
  else none

theorem handleMembersIn_eq_some : a.handleMembersIn members join leave = some (b, effects) ↔
    join.Perm (a.joined members) ∧ leave.Perm (a.left members) ∧
      b = (forEach memberLeave (forEach memberJoin a join).1 leave).1 ∧
      effects = (forEach memberJoin a join).2 ++
        (forEach memberLeave (forEach memberJoin a join).1 leave).2 := by
  unfold handleMembersIn
  constructor
  · intro handled
    split at handled
    · rename_i orders
      cases handled
      exact ⟨orders.1, orders.2, rfl, rfl⟩
    · cases handled
  · rintro ⟨joins, leaves, rfl, rfl⟩
    rw [if_pos ⟨joins, leaves⟩]

theorem handleMembers_in (a : Agent) (members : List Member) :
    a.handleMembersIn members (a.joined members) (a.left members) = some (a.handleMembers members) :=
  handleMembersIn_eq_some.mpr ⟨.refl _, .refl _, rfl, rfl⟩

theorem joins_activated (joining : List Member) :
    (forEach memberJoin a joining).1.activated = a.activated := by
  have join (b : Agent) (member : Member) (same : b.activated = a.activated) :
      (b.memberJoin member).1.activated = a.activated := same
  exact forEach_keeps join joining rfl

/-- After some members have joined, the agent knows those it knew and those. -/
theorem joins_members {joining : List Member} (known : member ∈ (forEach memberJoin a joining).1.members.entries) :
    member ∈ a.members.entries ∨ member ∈ joining := by
  induction joining generalizing a with
  | nil => exact .inl known
  | cons next rest ih =>
    rcases ih known with old | later
    · rcases Keyed.mem_put.mp old with rfl | ⟨older, -⟩
      · exact .inr List.mem_cons_self
      · exact .inl older
    · exact .inr (List.mem_cons_of_mem _ later)

theorem joins_keep {joining : List Member} (known : member ∈ a.members.entries)
    (other : ∀ next ∈ joining, member.id ≠ next.id) :
    member ∈ (forEach memberJoin a joining).1.members.entries := by
  induction joining generalizing a with
  | nil => exact known
  | cons next rest ih =>
    apply ih
    · exact Keyed.mem_put.mpr (.inr ⟨known, other next List.mem_cons_self⟩)
    · exact fun later inside => other later (List.mem_cons_of_mem _ inside)

theorem joins_enter {joining : List Member} (distinct : (joining.map (·.id)).Nodup)
    (new : member ∈ joining) : member ∈ (forEach memberJoin a joining).1.members.entries := by
  induction joining generalizing a with
  | nil => cases new
  | cons next rest ih =>
    rw [List.map_cons, List.nodup_cons] at distinct
    rcases List.mem_cons.mp new with rfl | later
    · have entered : member ∈ (a.memberJoin member).1.members.entries := Keyed.mem_put.mpr (.inl rfl)
      have others : ∀ other ∈ rest, member.id ≠ other.id := fun other inside same =>
        distinct.1 (List.mem_map.mpr ⟨other, inside, same.symm⟩)
      have kept := joins_keep entered others
      exact kept
    · exact ih distinct.2 later

theorem leaves_members {leaving : List Member} :
    member ∈ (forEach memberLeave a leaving).1.members.entries ↔
      member ∈ a.members.entries ∧ ∀ gone ∈ leaving, member.id ≠ gone.id := by
  induction leaving generalizing a with
  | nil => simp [forEach]
  | cons gone rest ih =>
    refine ih.trans ?_
    rw [memberLeave, Keyed.mem_erase, List.forall_mem_cons, and_assoc]

theorem leaves_activated {leaving : List Member} {pid : PID} :
    pid ∈ (forEach memberLeave a leaving).1.activated.entries ↔
      pid ∈ a.activated.entries ∧ ∀ gone ∈ leaving, pid.address ≠ gone.host := by
  induction leaving generalizing a with
  | nil => simp [forEach]
  | cons gone rest ih =>
    refine ih.trans ?_
    rw [memberLeave, Keyed.mem_filter, decide_eq_true_eq, List.forall_mem_cons, and_assoc]

/-- The members that join are new to the agent, and each has an id of its own. -/
theorem mem_joined (joins : member ∈ a.joined members) :
    ∀ known ∈ a.members.entries, member.id ≠ known.id := by
  intro known inside same
  have new := (List.mem_filter.mp joins).2
  simp only [List.mem_map, decide_eq_true_eq] at new
  exact new ⟨known, inside, same.symm⟩

theorem joined_distinct : ((a.joined members).map (·.id)).Nodup :=
  (Keyed.ofList members : MemberSet).distinct.sublist (List.filter_sublist.map _)

theorem mem_left : member ∈ a.left members ↔
    member ∈ a.members.entries ∧ ¬ member.id ∈ members.map (·.id) := by
  rw [left, MemberSet.except, List.mem_filter, decide_eq_true_eq]

/-- Who is a member after a `Members` message: those who stay and those who join. -/
theorem handleMembersIn_members (handled : a.handleMembersIn members join leave = some (b, effects)) :
    member ∈ b.members.entries ↔
      (member ∈ a.members.entries ∧ member ∉ a.left members) ∨ member ∈ a.joined members := by
  obtain ⟨joins, leaves, rfl, -⟩ := handleMembersIn_eq_some.mp handled
  have distinct : (join.map (·.id)).Nodup := (joins.map _).nodup_iff.mpr joined_distinct
  rw [leaves_members]
  constructor
  · rintro ⟨known, stays⟩
    rcases joins_members known with old | new
    · exact .inl ⟨old, fun gone => stays member (leaves.mem_iff.mpr gone) rfl⟩
    · exact .inr (joins.mem_iff.mp new)
  · rintro (⟨old, stays⟩ | new)
    · constructor
      · refine joins_keep old fun next inside => ?_
        exact Ne.symm (mem_joined (joins.mem_iff.mp inside) member old)
      · intro gone inside same
        have departs := leaves.mem_iff.mp inside
        exact stays (Keyed.unique (mem_left.mp departs).1 old same.symm ▸ departs)
    · constructor
      · exact joins_enter distinct (joins.mem_iff.mpr new)
      · intro gone inside
        exact mem_joined new gone (mem_left.mp (leaves.mem_iff.mp inside)).1

/-- Which actors are active after a `Members` message. -/
theorem handleMembersIn_active (handled : a.handleMembersIn members join leave = some (b, effects))
    {pid : PID} : pid ∈ b.activated.entries ↔
      pid ∈ a.activated.entries ∧ ∀ gone ∈ a.left members, pid.address ≠ gone.host := by
  obtain ⟨-, leaves, rfl, -⟩ := handleMembersIn_eq_some.mp handled
  rw [leaves_activated, joins_activated]
  simp only [leaves.mem_iff]

theorem handleMembers_members : member ∈ (a.handleMembers members).1.members.entries ↔
    (member ∈ a.members.entries ∧ member ∉ a.left members) ∨ member ∈ a.joined members :=
  handleMembersIn_members (handleMembers_in a members)

theorem handleMembers_active {pid : PID} : pid ∈ (a.handleMembers members).1.activated.entries ↔
    pid ∈ a.activated.entries ∧ ∀ gone ∈ a.left members, pid.address ≠ gone.host :=
  handleMembersIn_active (handleMembers_in a members)

theorem mem_joined_iff : member ∈ a.joined members ↔
    member ∈ (Keyed.ofList members : MemberSet).entries ∧ a.members.contains member.id = false := by
  rw [joined, MemberSet.except, List.mem_filter, decide_eq_true_eq, ← Bool.not_eq_true,
    Keyed.contains_iff, List.mem_map]

/-- The ids of the members that join: the new ones of the list. -/
theorem joined_ids (x : String) : x ∈ (a.joined members).map (·.id) ↔
    a.members.contains x = false ∧ x ∈ members.map (·.id) := by
  rw [List.mem_map, ← Keyed.contains_ofList, Keyed.contains_iff]
  constructor
  · rintro ⟨member, joins, rfl⟩
    obtain ⟨listed, new⟩ := mem_joined_iff.mp joins
    exact ⟨new, member, listed, rfl⟩
  · rintro ⟨new, member, listed, rfl⟩
    exact ⟨member, mem_joined_iff.mpr ⟨listed, new⟩, rfl⟩

theorem left_ids (x : String) : x ∈ (a.left members).map (·.id) ↔
    a.members.contains x = true ∧ x ∉ members.map (·.id) := by
  rw [List.mem_map, Keyed.contains_iff]
  constructor
  · rintro ⟨member, leaves, rfl⟩
    obtain ⟨known, gone⟩ := mem_left.mp leaves
    exact ⟨⟨member, known, rfl⟩, gone⟩
  · rintro ⟨⟨member, known, rfl⟩, gone⟩
    exact ⟨member, mem_left.mpr ⟨known, gone⟩, rfl⟩

/-- The ids of the agent's members are those of the list. -/
theorem handleMembersIn_ids (handled : a.handleMembersIn members join leave = some (b, effects))
    (x : String) : b.members.contains x = true ↔ x ∈ members.map (·.id) := by
  have joins : x ∈ (a.joined members).map (·.id) ↔ _ := joined_ids x
  rw [List.mem_map] at joins
  simp only [Keyed.contains_iff, handleMembersIn_members handled]
  constructor
  · rintro ⟨member, ⟨known, stays⟩ | new, rfl⟩
    · by_contra missing
      exact stays (mem_left.mpr ⟨known, missing⟩)
    · exact (joins.mp ⟨member, new, rfl⟩).2
  · intro listed
    cases known : a.members.contains x with
    | false =>
      obtain ⟨member, new, named⟩ := joins.mpr ⟨known, listed⟩
      exact ⟨member, .inr new, named⟩
    | true =>
      obtain ⟨member, old, rfl⟩ := Keyed.contains_iff.mp known
      exact ⟨member, .inl ⟨old, fun gone => (mem_left.mp gone).2 listed⟩, rfl⟩

end Agent

/-- The id that a `MemberJoinEvent` is about. -/
def Effect.joins : Effect → Option String
  | .event (.memberJoin member) => some member.id
  | _ => none

/-- The id that a `MemberLeaveEvent` is about. -/
def Effect.leaves : Effect → Option String
  | .event (.memberLeave member) => some member.id
  | _ => none

namespace Agent
variable {a b c : Agent} {members join leave : List Member} {effects : List Effect}

theorem joins_events (a : Agent) (joining : List Member) :
    (forEach memberJoin a joining).2.filterMap Effect.joins = joining.map (·.id) ∧
      (forEach memberJoin a joining).2.filterMap Effect.leaves = [] := by
  induction joining generalizing a with
  | nil => exact ⟨rfl, rfl⟩
  | cons member rest ih =>
    obtain ⟨joins, leaves⟩ := ih (a.memberJoin member).1
    have first : (a.memberJoin member).2.filterMap Effect.joins = [member.id] ∧
        (a.memberJoin member).2.filterMap Effect.leaves = [] := by
      rw [memberJoin]
      split <;> exact ⟨rfl, rfl⟩
    simp only [forEach, List.filterMap_append, joins, leaves, first]
    exact ⟨rfl, rfl⟩

theorem leaves_events (a : Agent) (leaving : List Member) :
    (forEach memberLeave a leaving).2.filterMap Effect.joins = [] ∧
      (forEach memberLeave a leaving).2.filterMap Effect.leaves = leaving.map (·.id) := by
  induction leaving generalizing a with
  | nil => exact ⟨rfl, rfl⟩
  | cons member rest ih =>
    obtain ⟨joins, leaves⟩ := ih (a.memberLeave member).1
    have first : (a.memberLeave member).2.filterMap Effect.joins = [] ∧
        (a.memberLeave member).2.filterMap Effect.leaves = [member.id] := ⟨rfl, rfl⟩
    simp only [forEach, List.filterMap_append, joins, leaves, first]
    exact ⟨rfl, rfl⟩

theorem left_distinct : ((a.left members).map (·.id)).Nodup :=
  a.members.distinct.sublist (List.filter_sublist.map _)

theorem handleMembersIn_events (handled : a.handleMembersIn members join leave = some (b, effects)) :
    (effects.filterMap Effect.joins).Perm ((a.joined members).map (·.id)) ∧
      (effects.filterMap Effect.leaves).Perm ((a.left members).map (·.id)) := by
  obtain ⟨joins, leaves, -, rfl⟩ := handleMembersIn_eq_some.mp handled
  simp only [List.filterMap_append, joins_events, leaves_events, List.append_nil, List.nil_append]
  exact ⟨joins.map _, leaves.map _⟩

/-- Told the ids it has, an agent does nothing. -/
theorem handleMembersIn_again (same : ∀ x, a.members.contains x = true ↔ x ∈ members.map (·.id)) :
    a.handleMembersIn members join leave = some (b, effects) ↔
      join = [] ∧ leave = [] ∧ b = a ∧ effects = [] := by
  have nobodyJoins : a.joined members = [] := by
    rw [List.eq_nil_iff_forall_not_mem]
    intro member joins
    obtain ⟨new, listed⟩ := (joined_ids member.id).mp (List.mem_map_of_mem joins)
    rw [(same member.id).mpr listed] at new
    cases new
  have nobodyLeaves : a.left members = [] := by
    rw [List.eq_nil_iff_forall_not_mem]
    intro member leaves
    obtain ⟨known, gone⟩ := (left_ids member.id).mp (List.mem_map_of_mem leaves)
    exact gone ((same member.id).mp known)
  rw [handleMembersIn_eq_some, nobodyJoins, nobodyLeaves, List.perm_nil, List.perm_nil]
  constructor
  · rintro ⟨rfl, rfl, rfl, rfl⟩
    exact ⟨rfl, rfl, rfl, rfl⟩
  · rintro ⟨rfl, rfl, rfl, rfl⟩
    exact ⟨rfl, rfl, rfl, rfl⟩

/-- For every agent, every list of members and all orders in which the maps are ranged
over: the ids of the members are those of the list, each new id has one
`MemberJoinEvent`, each id that is gone has one `MemberLeaveEvent` and no other id has
any; the order of the list does not matter; and handling the list again does nothing. -/
theorem membership_update_exact (a b : Agent) (members join leave : List Member) (effects : List Effect)
    (handled : a.handleMembersIn members join leave = some (b, effects)) :
    (∀ x, b.members.contains x = true ↔ x ∈ members.map (·.id)) ∧
      (∀ x, (effects.filterMap Effect.joins).count x =
        if a.members.contains x = false ∧ x ∈ members.map (·.id) then 1 else 0) ∧
      (∀ x, (effects.filterMap Effect.leaves).count x =
        if a.members.contains x = true ∧ x ∉ members.map (·.id) then 1 else 0) ∧
      (∀ others joins leaves c broadcast, others.Perm members →
        a.handleMembersIn others joins leaves = some (c, broadcast) →
        ∀ x, c.members.contains x = b.members.contains x) ∧
      ∀ joins leaves c broadcast, b.handleMembersIn members joins leaves = some (c, broadcast) ↔
        joins = [] ∧ leaves = [] ∧ c = b ∧ broadcast = [] := by
  have ids := handleMembersIn_ids handled
  obtain ⟨joined, left⟩ := handleMembersIn_events handled
  refine ⟨ids, ?_, ?_, ?_, ?_⟩
  · intro x
    simp only [joined.count_eq, joined_distinct.count, joined_ids]
  · intro x
    simp only [left.count_eq, left_distinct.count, left_ids]
  · intro others joins leaves c broadcast shuffled other x
    rw [Bool.eq_iff_iff, handleMembersIn_ids other, ids, (shuffled.map _).mem_iff]
  · intro joins leaves c broadcast
    exact handleMembersIn_again ids

/-- Three members, each with an active actor. -/
def settledAgent : Agent :=
  [⟨"h:1", "k/1"⟩, ⟨"h:2", "k/2"⟩, ⟨"h:3", "k/3"⟩].foldl addActivated
    ((newAgent "h:1" ["k"]).handleMembers [⟨"h:1", "A", "default", ["k"]⟩,
      ⟨"h:2", "B", "default", ["k"]⟩, ⟨"h:3", "C", "default", ["k"]⟩]).1

/-- The list has one new id twice, one known id with other data, and two known ids not. -/
def exchange : List Member :=
  [⟨"h:4", "D", "default", []⟩, ⟨"h:9", "A", "eu", []⟩, ⟨"h:5", "D", "default", []⟩]

theorem membership_update_exact_exchange :
    ∃ b effects, settledAgent.handleMembersIn exchange [⟨"h:5", "D", "default", []⟩]
        [⟨"h:3", "C", "default", ["k"]⟩, ⟨"h:2", "B", "default", ["k"]⟩] = some (b, effects) ∧
      effects.filterMap Effect.joins = ["D"] ∧ effects.filterMap Effect.leaves = ["C", "B"] ∧
      ∀ x, b.members.contains x = true ↔ x ∈ exchange.map (·.id) := by
  refine ⟨_, _, rfl, rfl, rfl, ?_⟩
  exact (membership_update_exact settledAgent _ exchange [⟨"h:5", "D", "default", []⟩]
    [⟨"h:3", "C", "default", ["k"]⟩, ⟨"h:2", "B", "default", ["k"]⟩] _ rfl).1

/-- Those who stay and those who join. -/
def remain (a : Agent) (members : List Member) : List Member :=
  a.members.entries.filter (fun member => ¬ member ∈ a.left members) ++ a.joined members

theorem mem_remain : member ∈ a.remain members ↔
    (member ∈ a.members.entries ∧ member ∉ a.left members) ∨ member ∈ a.joined members := by
  simp [remain]

/-- For every agent, every list of members and all orders: an actor is forgotten only if
no member of the new set has its host, if and only if no departed member with active
actors shares its host with one who stays or joins. The actors of departed members on
hosts of no remaining one are all forgotten. -/
theorem purge_spares_members_iff (a b : Agent) (members join leave : List Member) (effects : List Effect)
    (handled : a.handleMembersIn members join leave = some (b, effects)) :
    ((∀ pid ∈ a.activated.entries, pid ∉ b.activated.entries →
        ∀ member ∈ b.members.entries, member.host ≠ pid.address) ↔
      ∀ gone ∈ a.left members, ∀ member ∈ a.remain members, member.host = gone.host →
        ∀ pid ∈ a.activated.entries, pid.address ≠ gone.host) ∧
    ∀ pid ∈ a.activated.entries, (∃ gone ∈ a.left members, gone.host = pid.address) →
      (∀ member ∈ b.members.entries, member.host ≠ pid.address) → pid ∉ b.activated.entries := by
  have active (pid : PID) : pid ∈ b.activated.entries ↔ _ := handleMembersIn_active handled
  constructor
  · constructor
    · intro spared gone departs member stays shared pid known same
      have removed : pid ∉ b.activated.entries := fun kept => ((active pid).mp kept).2 gone departs same
      have inside : member ∈ b.members.entries := (handleMembersIn_members handled).mpr (mem_remain.mp stays)
      exact spared pid known removed member inside (shared.trans same.symm)
    · intro apart pid known removed member inside same
      have stays : member ∈ a.remain members := mem_remain.mpr ((handleMembersIn_members handled).mp inside)
      apply removed
      refine (active pid).mpr ⟨known, ?_⟩
      intro gone departs here
      exact apart gone departs member stays (same.trans here) pid known here
  · rintro pid known ⟨gone, departs, same⟩ _ kept
    exact ((active pid).mp kept).2 gone departs same.symm

/-- Two of the three members stay. -/
def remaining : List Member := [⟨"h:1", "A", "default", ["k"]⟩, ⟨"h:3", "C", "default", ["k"]⟩]

theorem purge_spares_members_iff_departure :
    ∃ b effects, settledAgent.handleMembersIn remaining [] [⟨"h:2", "B", "default", ["k"]⟩] =
        some (b, effects) ∧
      b.activated.entries = [⟨"h:1", "k/1"⟩, ⟨"h:3", "k/3"⟩] ∧
      ∀ pid ∈ settledAgent.activated.entries, pid ∉ b.activated.entries →
        ∀ member ∈ b.members.entries, member.host ≠ pid.address := by
  refine ⟨_, _, rfl, rfl, ?_⟩
  refine (purge_spares_members_iff settledAgent _ remaining [] [⟨"h:2", "B", "default", ["k"]⟩] _
    rfl).1.mpr ?_
  decide +kernel

/-- A node comes back on the same address under a new id: the agent knows it as a member
and forgets the actors that run on it. -/
theorem rejoined_host_purged :
    ∃ b effects, settledAgent.handleMembersIn
        [⟨"h:1", "A", "default", ["k"]⟩, ⟨"h:2", "B2", "default", ["k"]⟩, ⟨"h:3", "C", "default", ["k"]⟩]
        [⟨"h:2", "B2", "default", ["k"]⟩] [⟨"h:2", "B", "default", ["k"]⟩] = some (b, effects) ∧
      (⟨"h:2", "k/2"⟩ : PID) ∈ settledAgent.activated.entries ∧
      (⟨"h:2", "k/2"⟩ : PID) ∉ b.activated.entries ∧
      (⟨"h:2", "B2", "default", ["k"]⟩ : Member) ∈ b.members.entries := by
  refine ⟨_, _, rfl, ?_⟩
  decide +kernel

end Agent

end Hollywood.Cluster
