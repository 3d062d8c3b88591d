import Hollywood.Cluster.Residence

/-! The kinds that an agent knows of, over whole lives of the agent's process. They are
added to when a member joins and built anew when one leaves. The map is made once for
all incarnations: a restart empties the other maps of the agent but not this one. -/
namespace Hollywood.Cluster
open Transition

namespace Agent
variable {a b : Agent} {members join leave : List Member} {effects : List Effect}

/-- `Cluster.HasKind`, which looks a kind up in the answer to `getKinds`. -/
def hasKind (a : Agent) (kind : String) : Bool := a.kinds.contains kind

/-- The kinds known are those that the members offer. -/
def Accurate (a : Agent) : Prop :=
  ∀ kind, a.hasKind kind = true ↔ ∃ member ∈ a.members.entries, member.hasKind kind = true

theorem mem_trackKinds {kinds : List String} {member : Member} {kind : String} :
    kind ∈ trackKinds kinds member ↔ kind ∈ kinds ∨ member.hasKind kind = true := by
  have general : ∀ offered : List String,
      kind ∈ offered.foldl (fun kinds kind => kinds.insert kind) kinds ↔ kind ∈ kinds ∨ kind ∈ offered := by
    intro offered
    induction offered generalizing kinds with
    | nil => simp
    | cons first rest ih =>
      rw [List.foldl_cons, ih, List.mem_insert_iff, List.mem_cons, or_assoc, or_left_comm]
  rw [trackKinds, general, Member.hasKind, List.contains_iff_mem]

theorem mem_rebuildKinds {set : MemberSet} {kind : String} :
    kind ∈ rebuildKinds set ↔ ∃ member ∈ set.entries, member.hasKind kind = true := by
  have general : ∀ (members : List Member) (kinds : List String),
      kind ∈ members.foldl trackKinds kinds ↔
        kind ∈ kinds ∨ ∃ member ∈ members, member.hasKind kind = true := by
    intro members
    induction members with
    | nil => simp
    | cons first rest ih =>
      intro kinds
      rw [List.foldl_cons, ih, mem_trackKinds, List.exists_mem_cons_iff, or_assoc]
  simp [rebuildKinds, general]

theorem hasKind_iff {kind : String} : a.hasKind kind = true ↔ kind ∈ a.kinds := List.contains_iff_mem

theorem joins_kinds {kind : String} (joining : List Member) :
    (forEach memberJoin a joining).1.hasKind kind = true ↔
      a.hasKind kind = true ∨ ∃ member ∈ joining, member.hasKind kind = true := by
  induction joining generalizing a with
  | nil => simp [forEach]
  | cons member rest ih =>
    refine ih.trans ?_
    rw [hasKind_iff, memberJoin, mem_trackKinds, List.exists_mem_cons_iff, or_assoc, hasKind_iff]

theorem memberLeave_accurate (a : Agent) (member : Member) : (a.memberLeave member).1.Accurate := by
  intro kind
  rw [hasKind_iff]
  exact mem_rebuildKinds

/-- The last member to leave makes up for whatever was wrong before. -/
theorem leaves_accurate {leaving : List Member} (accurate : leaving = [] → a.Accurate) :
    (forEach memberLeave a leaving).1.Accurate := by
  induction leaving generalizing a with
  | nil => exact accurate rfl
  | cons gone rest ih => exact ih fun _ => memberLeave_accurate a gone

/-- With nobody leaving, the kinds known are those known before and those of the members
that join. -/
theorem handleMembersIn_kinds (handled : a.handleMembersIn members join leave = some (b, effects))
    (stay : a.left members = []) {kind : String} :
    b.hasKind kind = true ↔
      a.hasKind kind = true ∨ ∃ member ∈ a.joined members, member.hasKind kind = true := by
  obtain ⟨joins, leaves, rfl, -⟩ := handleMembersIn_eq_some.mp handled
  rw [stay, List.perm_nil] at leaves
  subst leaves
  refine (joins_kinds join).trans ?_
  simp only [joins.mem_iff]

/-- An accurate agent stays so. -/
theorem handleMembersIn_accurate (accurate : a.Accurate)
    (handled : a.handleMembersIn members join leave = some (b, effects)) : b.Accurate := by
  obtain ⟨joins, leaves, same, -⟩ := handleMembersIn_eq_some.mp handled
  by_cases stay : a.left members = []
  · intro kind
    rw [handleMembersIn_kinds handled stay, accurate kind]
    simp only [handleMembersIn_members handled, stay, List.not_mem_nil, not_false_eq_true, and_true,
      or_and_right, exists_or]
  · rw [same]
    apply leaves_accurate
    intro nobody
    rw [nobody] at leaves
    exact absurd (List.nil_perm.mp leaves) stay

end Agent

/-- The agent's process. `informed` says that the agent has handled a `Members` message
since it was last started. -/
structure AgentProcess where
  agent : Agent
  informed : Bool
  deriving DecidableEq

namespace AgentProcess

/-- A `Members` message, with the orders in which its handler ranges over the maps; any
other message; and a panic that is not the message's fault, such as one of the function
that selects a member. -/
inductive Label where
  | members (listed join leave : List Member)
  | receive (msg : Message)
  | crash

def start (address : String) (kinds : List String) : AgentProcess := ⟨newAgent address kinds, false⟩

def restart (s : AgentProcess) : AgentProcess := ⟨s.agent.restart, false⟩

def step (s : AgentProcess) : Label → Option AgentProcess
  | .members listed join leave =>
    (s.agent.handleMembersIn listed join leave).map fun next => ⟨next.1, true⟩
  | .receive (.members _) => none
  | .receive msg =>
    match s.agent.handle msg with
    | some agent => some { s with agent }
    | none => some s.restart
  | .crash => some s.restart

/-- Everything that can happen to the process. -/
inductive Move (s : AgentProcess) : Label → AgentProcess → Prop where
  | members : s.agent.handleMembersIn listed join leave = some (b, effects) →
      Move s (.members listed join leave) ⟨b, true⟩
  | receive {next : Agent} : next.members = s.agent.members → next.kinds = s.agent.kinds →
      Move s (.receive msg) { s with agent := next }
  | panics : Move s (.receive msg) s.restart
  | crash : Move s .crash s.restart

theorem step_move {s t : AgentProcess} (stepped : s.step label = some t) : Move s label t := by
  cases label with
  | members listed join leave =>
    obtain ⟨⟨b, effects⟩, handled, rfl⟩ := Option.map_eq_some_iff.mp stepped
    exact .members handled
  | crash =>
    cases stepped
    exact .crash
  | receive msg =>
    have handled (b : Agent) (received : s.agent.handle msg = some b)
        (plain : ∀ listed, msg ≠ .members listed) :
        b.members = s.agent.members ∧ b.kinds = s.agent.kinds := by
      cases msg with
      | actorTopology actors =>
        rw [Agent.handleActorTopology_frame received]
        exact ⟨rfl, rfl⟩
      | members listed => exact absurd rfl (plain listed)
      | activation pid | deactivation pid =>
        cases pid with
        | none => cases received
        | some pid =>
          cases received
          exact ⟨rfl, rfl⟩
      | _ =>
        cases received
        exact ⟨rfl, rfl⟩
    unfold step at stepped
    split at stepped
    · rename_i same
      cases same
    · cases stepped
    · rename_i other plain same
      cases same
      split at stepped
      · rename_i agent received
        cases stepped
        obtain ⟨members, kinds⟩ := handled agent received fun listed same => plain listed same
        exact .receive members kinds
      · cases stepped
        exact .panics
    · rename_i same
      cases same

/-- What holds of the process at all times: the kinds of all members are known, and an
agent that has just been started knows no members. -/
structure Tracks (s : AgentProcess) : Prop where
  offered : ∀ member ∈ s.agent.members.entries, ∀ kind, member.hasKind kind = true →
    s.agent.hasKind kind = true
  fresh : s.informed = false → s.agent.members = .empty

theorem start_tracks (address : String) (kinds : List String) : (start address kinds).Tracks := by
  constructor
  · intro member none
    cases none
  · intro _
    rfl

theorem restart_tracks (s : AgentProcess) : s.restart.Tracks := by
  constructor
  · intro member none
    cases none
  · intro _
    rfl

/-- The kinds that the members of a list offer, as far as the ids of the list are told
apart. -/
def offers (listed : List Member) (kind : String) : Bool :=
  (Keyed.ofList listed : MemberSet).entries.any (·.hasKind kind)

/-- The first `Members` message after a start or a restart offers every kind that the map
holds. -/
def covers (s : AgentProcess) : Label → Bool
  | .members listed _ _ => s.informed || s.agent.kinds.all (offers listed)
  | .receive _ | .crash => true

section
variable {s t : AgentProcess} {b : Agent} {listed join leave : List Member} {effects : List Effect}

/-- To an agent without members everybody is new. -/
theorem joined_fresh (fresh : s.agent.members = .empty) (listed : List Member) :
    s.agent.joined listed = (Keyed.ofList listed : MemberSet).entries := by
  rw [Agent.joined, MemberSet.except, fresh, List.filter_eq_self]
  intro member _
  simp [Keyed.empty]

theorem left_fresh (fresh : s.agent.members = .empty) (listed : List Member) : s.agent.left listed = [] := by
  rw [Agent.left, MemberSet.except, fresh]
  rfl

/-- The first list is joined to the kinds that the map holds. -/
theorem first_kinds (fresh : s.agent.members = .empty)
    (handled : s.agent.handleMembersIn listed join leave = some (b, effects)) (kind : String) :
    (b.hasKind kind = true ↔ s.agent.hasKind kind = true ∨ offers listed kind = true) ∧
      ((∃ member ∈ b.members.entries, member.hasKind kind = true) ↔ offers listed kind = true) := by
  have joined := joined_fresh fresh listed
  constructor
  · rw [Agent.handleMembersIn_kinds handled (left_fresh fresh listed), joined, offers, List.any_eq_true]
  · simp only [Agent.handleMembersIn_members handled, joined, fresh, Keyed.empty, List.not_mem_nil,
      false_and, false_or, offers, List.any_eq_true]

theorem first_accurate_iff (fresh : s.agent.members = .empty)
    (handled : s.agent.handleMembersIn listed join leave = some (b, effects)) :
    b.Accurate ↔ s.agent.kinds.all (offers listed) = true := by
  rw [List.all_eq_true]
  constructor
  · intro accurate kind known
    obtain ⟨after, members⟩ := first_kinds fresh handled kind
    rw [← members, ← accurate kind, after]
    exact .inl (Agent.hasKind_iff.mpr known)
  · intro covered kind
    obtain ⟨after, members⟩ := first_kinds fresh handled kind
    rw [after, members]
    constructor
    · rintro (known | offered)
      · exact covered kind (Agent.hasKind_iff.mp known)
      · exact offered
    · exact .inr

theorem Tracks.members (tracks : s.Tracks)
    (handled : s.agent.handleMembersIn listed join leave = some (b, effects)) :
    AgentProcess.Tracks ⟨b, true⟩ := by
  refine ⟨?_, by rintro ⟨⟩⟩
  intro member inside kind offers
  by_cases stay : s.agent.left listed = []
  · rw [Agent.handleMembersIn_kinds handled stay]
    rcases (Agent.handleMembersIn_members handled).mp inside with ⟨old, -⟩ | new
    · exact .inl (tracks.offered member old kind offers)
    · exact .inr ⟨member, new, offers⟩
  · obtain ⟨-, leaves, rfl, -⟩ := Agent.handleMembersIn_eq_some.mp handled
    have departs : leave ≠ [] := by
      rintro rfl
      exact stay (List.nil_perm.mp leaves)
    exact (Agent.leaves_accurate (fun nobody => absurd nobody departs) kind).mpr ⟨member, inside, offers⟩

theorem Tracks.step (tracks : s.Tracks) (stepped : s.step label = some t) : t.Tracks := by
  cases step_move stepped with
  | members handled => exact tracks.members handled
  | receive members kinds =>
    constructor
    · intro member inside kind offers
      rw [members] at inside
      have known := tracks.offered member inside kind offers
      rw [Agent.hasKind, kinds]
      exact known
    · intro uninformed
      rw [members]
      exact tracks.fresh uninformed
  | panics | crash => exact s.restart_tracks

/-- Once it has been informed, the agent knows the kinds that its members offer. -/
def Known (s : AgentProcess) : Prop := s.informed = true → s.agent.Accurate

theorem known_iff_covers (tracks : s.Tracks) (known : s.Known) (stepped : s.step label = some t) :
    t.Known ↔ s.covers label = true := by
  cases step_move stepped with
  | members handled =>
    cases informed : s.informed with
    | true =>
      refine iff_of_true ?_ (by simp [covers, informed])
      exact fun _ => Agent.handleMembersIn_accurate (known informed) handled
    | false =>
      have first := first_accurate_iff (tracks.fresh informed) handled
      simp only [Known, covers, informed, Bool.false_or, forall_const, first]
  | receive members kinds =>
    refine iff_of_true ?_ rfl
    intro informed kind
    rw [Agent.hasKind, kinds, members]
    exact known informed kind
  | panics | crash =>
    refine iff_of_true ?_ rfl
    intro informed
    cases informed

end

/-- For every run of an agent's process, with any messages, crashes and restarts and all
orders of the maps: in every state after a `Members` message since the last start the
agent knows exactly the kinds that its members offer, if and only if each first `Members`
message after a start offers the kinds that the map holds by then. -/
theorem kinds_exact_iff (address : String) (kinds : List String) (labels : List Label) (s : AgentProcess)
    (ran : run step (start address kinds) labels = some s) :
    Always step Known (start address kinds) labels ↔
      run (restrict covers step) (start address kinds) labels = some s := by
  refine always_iff_restrict Tracks.step known_iff_covers (start_tracks address kinds) ?_ ran
  rintro ⟨⟩

/-- The local member and one that offers a kind of its own. -/
def couple : List Member := [⟨"h:1", "A", "default", ["k"]⟩, ⟨"h:2", "B", "default", ["l"]⟩]

/-- The other member is still there after the agent has crashed at a nil activation, and
leaves later. -/
def crashedBetween : List Label :=
  [.members couple couple [], .receive (.activation none), .members couple couple [],
    .members (couple.take 1) [] (couple.drop 1)]

theorem kinds_exact_iff_crashed :
    ∃ s, run step (start "h:1" ["k"]) crashedBetween = some s ∧ s.agent.kinds = ["k"] ∧
      Always step Known (start "h:1" ["k"]) crashedBetween :=
  ⟨_, rfl, rfl, (kinds_exact_iff _ _ _ _ rfl).mpr rfl⟩

/-- The other member leaves while the agent restarts: the kind that nobody offers stays
known. -/
theorem stale_kind_after_restart :
    ∃ s, run step (start "h:1" ["k"])
        [.members couple couple [], .crash, .members (couple.take 1) (couple.take 1) []] = some s ∧
      s.informed = true ∧ s.agent.hasKind "l" = true ∧
      s.agent.members.entries = [⟨"h:1", "A", "default", ["k"]⟩] :=
  ⟨_, rfl, rfl, rfl, rfl⟩

end AgentProcess

end Hollywood.Cluster
