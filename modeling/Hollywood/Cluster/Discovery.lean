import Hollywood.Cluster.Membership
import Hollywood.Cluster.Symmetry
import Hollywood.Foundation.Inevitable
import Mathlib.Logic.Relation

/-! Discovery by bootstrap handshakes with the agents in it: after every change of its
member set a provider sends the whole set to the agent on its node, which handles one
message at a time. Whatever the order of the starts, the deliveries and the work of the
agents, the exchange ends, and then the agents know each other as the lists link them,
but for the handshakes that came before the node they were for had started. -/
namespace Hollywood.Cluster.Discovery
open Transition
open Bootstrap (SelfManaged Sound)

/-- The agent of a node, with the member lists that wait in its mailbox. -/
structure Local where
  agent : Agent
  mailbox : List (List Member)
  deriving DecidableEq

/-- The agents stand in the order of their providers. -/
structure State where
  net : Bootstrap.State
  locals : List Local
  deriving DecidableEq

/-- An agent ranges over two maps, those that join and those that leave. -/
inductive Label where
  | provider (label : Bootstrap.Label)
  | agent (i : Nat) (join leave : List Member)
  deriving DecidableEq

def initial (peers : Peers) : State where
  net := Bootstrap.initial peers
  locals := peers.all.map fun peer => ⟨newAgent peer.member.host peer.member.kinds, []⟩

/-- The node whose provider handles a message. -/
def receiver (net : Bootstrap.State) : Bootstrap.Label → Option Nat
  | .start i => some i
  | .deliver k => net.packets[k]?.bind fun envelope => net.providers.findIdx? (·.serves envelope.target)

/-- `sendMembersToAgent` of the provider. -/
def Local.tell (l : Local) (provider : Option SelfManaged) : Local :=
  { l with mailbox := l.mailbox ++ provider.toList.map (·.members.entries) }

def Local.handle (l : Local) (join leave : List Member) : Option Local :=
  match l.mailbox with
  | [] => none
  | members :: rest => do
    let (agent, _) ← l.agent.handleMembersIn members join leave
    pure ⟨agent, rest⟩

def step (s : State) : Label → Option State
  | .provider label => do
    let net ← Bootstrap.step s.net label
    match receiver s.net label with
    | some i => pure ⟨net, s.locals.modify i (·.tell net.providers[i]?)⟩
    | none => pure ⟨net, s.locals⟩
  | .agent i join leave => do
    let l ← s.locals[i]?
    let l ← l.handle join leave
    pure { s with locals := s.locals.set i l }

/-- All that a step can do. -/
inductive Move (s : State) : Label → State → Prop where
  | told : Bootstrap.step s.net label = some net → receiver s.net label = some i →
      Move s (.provider label) ⟨net, s.locals.modify i (·.tell net.providers[i]?)⟩
  | lost : Bootstrap.step s.net label = some net → receiver s.net label = none → Move s (.provider label) ⟨net, s.locals⟩
  | handled {l : Local} : s.locals[i]? = some l → l.mailbox = members :: rest →
      l.agent.handleMembersIn members join leave = some (agent, effects) →
      Move s (.agent i join leave) { s with locals := s.locals.set i ⟨agent, rest⟩ }

theorem step_move {s t : State} (stepped : step s label = some t) : Move s label t := by
  cases label with
  | provider label =>
    obtain ⟨net, moved, told⟩ := Option.bind_eq_some_iff.mp stepped
    split at told
    · cases told
      exact .told moved (by assumption)
    · cases told
      exact .lost moved (by assumption)
  | agent i join leave =>
    obtain ⟨l, found, stepped⟩ := Option.bind_eq_some_iff.mp stepped
    obtain ⟨next, handled, stepped⟩ := Option.bind_eq_some_iff.mp stepped
    cases stepped
    unfold Local.handle at handled
    split at handled
    · cases handled
    · obtain ⟨⟨agent, effects⟩, done, handled⟩ := Option.bind_eq_some_iff.mp handled
      cases handled
      exact .handled found (by assumption) done

/-- A provider changes only when it is the one that handles a message. -/
theorem provider_same {net next : Bootstrap.State} (moved : Bootstrap.step net label = some next)
    (other : receiver net label ≠ some j) : next.providers[j]? = net.providers[j]? := by
  cases label with
  | start i =>
    obtain ⟨p, found, moved⟩ := Option.bind_eq_some_iff.mp moved
    split at moved
    · cases moved
    · cases moved
      exact List.getElem?_set_ne fun same => other (congrArg some same)
  | deliver k =>
    obtain ⟨envelope, found, moved⟩ := Option.bind_eq_some_iff.mp moved
    simp only [receiver, found, Option.bind_some] at other
    dsimp only at moved
    split at moved
    · cases moved
      rfl
    · rename_i i host
      obtain ⟨p, at_, moved⟩ := Option.bind_eq_some_iff.mp moved
      cases moved
      exact List.getElem?_set_ne fun same => other (by rw [host, same])

/-- What an agent knows once it has handled what waits for it. -/
def Local.sees (l : Local) (x : String) : Bool :=
  match l.mailbox.getLast? with
  | some members => x ∈ members.map (·.id)
  | none => l.agent.members.contains x

theorem tell_sees (l : Local) (p : SelfManaged) (x : String) : (l.tell (some p)).sees x = p.members.contains x := by
  simp only [Local.sees, Local.tell, Option.toList_some, List.map_cons, List.map_nil, List.getLast?_append,
    List.getLast?_singleton, Option.some_or]
  rw [Bool.eq_iff_iff, decide_eq_true_eq, Keyed.contains_iff, List.mem_map]

theorem handle_sees {l : Local} (mail : l.mailbox = members :: rest)
    (handled : l.agent.handleMembersIn members join leave = some (agent, effects)) (x : String) :
    Local.sees ⟨agent, rest⟩ x = l.sees x := by
  simp only [Local.sees, mail]
  cases rest with
  | nil =>
    simp only [List.getLast?_nil, List.getLast?_singleton]
    rw [Bool.eq_iff_iff, decide_eq_true_eq]
    exact Agent.handleMembersIn_ids handled x
  | cons next later => simp only [List.getLast?_cons, Option.getD_some]

/-- Every agent will know the members of its provider, once it has handled its mailbox. -/
structure Mirrored (s : State) : Prop where
  paired : s.locals.length = s.net.providers.length
  sees : ∀ (i : Nat) (p : SelfManaged) (l : Local), s.net.providers[i]? = some p → s.locals[i]? = some l →
    ∀ x, l.sees x = p.members.contains x

theorem initial_mirrored (peers : Peers) : Mirrored (initial peers) := by
  constructor
  · simp [initial, Bootstrap.initial]
  · intro i p l provider found x
    obtain ⟨_, -, rfl⟩ := List.mem_map.mp (List.mem_of_getElem? provider)
    obtain ⟨_, -, rfl⟩ := List.mem_map.mp (List.mem_of_getElem? found)
    rfl

theorem providers_length {net next : Bootstrap.State} (moved : Bootstrap.step net label = some next) :
    next.providers.length = net.providers.length := by
  cases Bootstrap.step_move moved with
  | start | receive => exact List.length_set
  | lose => rfl

theorem Mirrored.step {s t : State} (mirrored : Mirrored s) (stepped : step s label = some t) : Mirrored t := by
  obtain ⟨paired, sees⟩ := mirrored
  cases step_move stepped with
  | @told label net i moved here =>
    constructor
    · rw [List.length_modify, paired, providers_length moved]
    · intro j p l provider found x
      dsimp only at provider found
      rw [List.getElem?_modify] at found
      obtain ⟨before, present, rfl⟩ := Option.map_eq_some_iff.mp found
      by_cases same : i = j
      · subst same
        rw [if_pos rfl, provider]
        exact tell_sees before p x
      · rw [if_neg same]
        have other : receiver s.net label ≠ some j := by
          rw [here]
          exact fun equal => same (Option.some.inj equal)
        exact sees j p before (provider_same moved other ▸ provider) present x
  | lost moved nobody =>
    constructor
    · rw [paired, providers_length moved]
    · intro j p l provider found x
      refine sees j p l ?_ found x
      rw [← provider_same moved (by rw [nobody]; exact nofun)]
      exact provider
  | @handled i members rest join leave agent effects l here mail handled =>
    constructor
    · rw [List.length_set, paired]
    · intro j p next provider found x
      by_cases same : i = j
      · subst same
        rw [List.getElem?_set_self (List.getElem?_eq_some_iff.mp here).1] at found
        cases found
        rw [handle_sees mail handled]
        exact sees i p l provider here x
      · rw [List.getElem?_set_ne same] at found
        exact sees j p next provider found x

/-- A node that can be reached over bootstrap lists, in either direction. -/
def connected (peers : Peers) (a b : Peer) : Prop :=
  Relation.ReflTransGen (fun a b => b ∈ peers.all ∧ a.linked b = true) a b

/-- Nodes know, and are told of, nodes that they are connected to. -/
structure Chained (peers : Peers) (net : Bootstrap.State) : Prop where
  sets : ∀ a x, net.knows a x → ∃ c, connected peers a c ∧ c.member.id = x
  replies : ∀ a ∈ peers.all, ∀ x, net.told a x → ∃ c, connected peers a c ∧ c.member.id = x

section Chained
variable {peers : Peers} {s t : Bootstrap.State} {a : Peer} {x : String}

theorem Chained.sets_move (chained : Chained peers s) (sound : Sound peers s) (move : Bootstrap.Move s l t)
    (known : t.knows a x) : ∃ c, connected peers a c ∧ c.member.id = x := by
  have member := (sound.alive_move move known).mem (Bootstrap.hosts_move move sound.hosted)
  cases Bootstrap.knows_back move known with
  | knew old => exact chained.sets a x old
  | self started named => exact ⟨a, .refl, named⟩
  | told inFlight target started listed named =>
    cases sound.valid _ inFlight with
    | handshake alive bootstrap =>
      rename_i sender reached
      cases List.mem_singleton.mp listed
      refine ⟨sender, .single ⟨alive.mem sound.hosted, ?_⟩, named⟩
      cases target
      rw [Peer.linked_symm]
      exact Bool.or_eq_true_iff.mpr (.inl bootstrap)
    | members =>
      cases target
      exact chained.replies a member x ⟨_, inFlight, _, listed, named⟩

/-- A reply tells the node that bootstraps of nodes that the other one is connected to. -/
theorem Chained.replies_move (chained : Chained peers s) (sound : Sound peers s) (move : Bootstrap.Move s l t)
    (member : a ∈ peers.all) (told : t.told a x) : ∃ c, connected peers a c ∧ c.member.id = x := by
  obtain ⟨known, inFlight, value, listed, named⟩ := told
  generalize addressed : a.pid = target at inFlight
  cases Bootstrap.packets_move move inFlight with
  | kept old => exact chained.replies a member x ⟨known, addressed ▸ old, value, listed, named⟩
  | members asked there =>
    cases sound.valid _ asked with
    | handshake alive bootstrap =>
      cases peers.pid_unique member (alive.mem sound.hosted) addressed
      have contained := Option.isSome_of_eq_some (Keyed.get?_eq_some.mpr ⟨listed, named⟩)
      obtain ⟨c, chain, same⟩ := chained.sets_move sound move ⟨_, there, rfl, contained⟩
      have hosted := (Bootstrap.hosts_move move sound.hosted).mem there
      exact ⟨c, .head ⟨hosted, Bool.or_eq_true_iff.mpr (.inl bootstrap)⟩ chain, same⟩

end Chained

/-- A handshake that came too early came from a node that runs. Of two nodes that bootstrap
from each other, the handshake of the later one finds the other started. -/
structure Missed (peers : Peers) (net : Bootstrap.State) : Prop where
  sender : ∀ a ∈ peers.all, ∀ b, net.missed a b → net.up a
  once : ∀ a ∈ peers.all, ∀ b ∈ peers.all, net.missed a b → ¬ net.missed b a

section Missed
variable {peers : Peers} {s t : Bootstrap.State} {a b : Peer}

theorem asked_sender (sound : Sound peers s) (member : a ∈ peers.all) (asked : s.asked a b) : s.up a := by
  rw [Bootstrap.State.asked] at asked
  generalize named : some a.pid = sender, message : a.member = shown at asked
  cases sound.valid _ asked with
  | handshake alive listed =>
    rw [peers.pid_unique member (alive.mem sound.hosted) (Option.some.inj named)]
    exact alive

/-- The sender of a handshake that is a dead letter after a step ran before it. -/
theorem Missed.before (missed : Missed peers s) (sound : Sound peers s) (move : Bootstrap.Move s l t)
    (member : a ∈ peers.all) (early : t.missed a b) : s.up a := by
  rcases (Bootstrap.deadLetters_move move).2 _ early with old | ⟨asked, -⟩
  · exact missed.sender a member b old
  · exact asked_sender sound member asked

theorem Missed.next (missed : Missed peers s) (sound : Sound peers s) (move : Bootstrap.Move s l t) :
    Missed peers t := by
  constructor
  · intro a member b early
    exact Bootstrap.up_move move (missed.before sound move member early)
  · intro a first b second early crossed
    have fresh : ∀ {a b : Peer}, s.up b → t.missed a b → s.missed a b := by
      intro a b running early
      rcases (Bootstrap.deadLetters_move move).2 _ early with old | ⟨-, nobody⟩
      · exact old
      · obtain ⟨p, there, rfl, started⟩ := running
        simpa [SelfManaged.serves, started] using nobody p there
    refine missed.once a first b second ?_ ?_
    · exact fresh (missed.before sound move second crossed) early
    · exact fresh (missed.before sound move first early) crossed

end Missed

/-- A node that starts sends handshakes, a delivery leaves lighter messages, and an agent
has one message less. -/
def rank (s : State) : Nat ×ₗ Nat ×ₗ Nat :=
  toLex (s.net.providers.countP (!·.started), toLex (s.net.weight, (s.locals.map (·.mailbox.length)).sum))

theorem rank_lowers {s t : State} (stepped : step s label = some t) : rank t < rank s := by
  have lower : ∀ {label : Bootstrap.Label} {net : Bootstrap.State} {locals : List Local},
      Bootstrap.step s.net label = some net → rank ⟨net, locals⟩ < rank s := by
    intro label net locals moved
    rw [rank, rank, Prod.Lex.toLex_lt_toLex, Prod.Lex.toLex_lt_toLex]
    cases Bootstrap.step_move moved with
    | start found idle => exact .inl (Pool.countP_lt _ found _ (by simp [idle]) rfl)
    | lose found nobody => exact .inr ⟨rfl, .inl (Bootstrap.weight_deliver (.lose found nobody))⟩
    | receive found at_ target running =>
      refine .inr ⟨Pool.countP_kept _ at_ _ ?_, .inl (Bootstrap.weight_deliver (.receive found at_ target running))⟩
      rw [SelfManaged.receive_fst]
      rfl
  cases step_move stepped with
  | told moved here => exact lower moved
  | lost moved nobody => exact lower moved
  | @handled i members rest join leave agent effects l here mail handled =>
    rw [rank, rank, Prod.Lex.toLex_lt_toLex, Prod.Lex.toLex_lt_toLex]
    have shorter := Pool.sum_set (fun l : Local => l.mailbox.length) here ⟨agent, rest⟩
    simp only [mail, List.length_cons] at shorter
    exact .inr ⟨rfl, .inr ⟨rfl, by simp only; omega⟩⟩

/-- The agent of a node has a member with this id. -/
def State.agentKnows (s : State) (a : Peer) (x : String) : Prop :=
  ∃ (i : Nat) (p : SelfManaged) (l : Local), s.net.providers[i]? = some p ∧ s.locals[i]? = some l ∧ p.peer = a ∧
    l.agent.members.contains x = true

/-- Discovery is over: every node runs and nothing is under way. Two nodes of which one
bootstraps from the other have each other in the members of their agents, unless its
handshake came before the other one had started; two that bootstrap from each other have in
any case. An agent has only nodes that its own one is connected to. -/
structure Complete (peers : Peers) (s : State) : Prop where
  up : ∀ a ∈ peers.all, s.net.up a
  quiet : s.net.packets = [] ∧ ∀ l ∈ s.locals, l.mailbox = []
  linked : ∀ a ∈ peers.all, ∀ b ∈ peers.all, a.bootstraps b = true →
    s.net.missed a b ∨ (s.agentKnows a b.member.id ∧ s.agentKnows b a.member.id)
  crossed : ∀ a ∈ peers.all, ∀ b ∈ peers.all, a.bootstraps b = true → b.bootstraps a = true →
    s.agentKnows a b.member.id ∧ s.agentKnows b a.member.id
  known : ∀ a x, s.agentKnows a x → ∃ c, connected peers a c ∧ c.member.id = x

structure Invariant (peers : Peers) (s : State) : Prop where
  sound : Sound peers s.net
  chained : Chained peers s.net
  missed : Missed peers s.net
  mirrored : Mirrored s

theorem Invariant.initial (peers : Peers) : Invariant peers (initial peers) := by
  refine ⟨.initial peers, ⟨?_, ?_⟩, ⟨?_, ?_⟩, initial_mirrored peers⟩
  · exact fun a x known => absurd known Bootstrap.initial_unaware
  · rintro a member x ⟨known, inFlight, -⟩
    cases inFlight
  · exact fun a member b early => absurd early List.not_mem_nil
  · exact fun a first b second early => absurd early List.not_mem_nil

theorem Invariant.step {peers : Peers} {s t : State} (invariant : Invariant peers s)
    (stepped : step s label = some t) : Invariant peers t := by
  obtain ⟨sound, chained, missed, mirrored⟩ := invariant
  have moved : ∀ {label : Bootstrap.Label} {net : Bootstrap.State}, Bootstrap.step s.net label = some net →
      Sound peers net ∧ Chained peers net ∧ Missed peers net := by
    intro label net moved
    have move := Bootstrap.step_move moved
    exact ⟨sound.next moved, ⟨fun a x => chained.sets_move sound move,
      fun a member x => chained.replies_move sound move member⟩, missed.next sound move⟩
  have last := mirrored.step stepped
  cases step_move stepped with
  | told run here => exact ⟨(moved run).1, (moved run).2.1, (moved run).2.2, last⟩
  | lost run nobody => exact ⟨(moved run).1, (moved run).2.1, (moved run).2.2, last⟩
  | handled => exact ⟨sound, chained, missed, last⟩

section Stuck
variable {peers : Peers} {s : State} (stuck : Stuck step (fun _ => True) s)
include stuck

theorem stuck_net (label : Bootstrap.Label) : Bootstrap.step s.net label = none := by
  cases moved : Bootstrap.step s.net label with
  | none => rfl
  | some net =>
    have none := stuck (.provider label) trivial
    simp only [step, moved, Option.bind_eq_bind, Option.bind_some] at none
    split at none <;> cases none

theorem stuck_started : ∀ p ∈ s.net.providers, p.started = true := by
  intro p member
  obtain ⟨i, found⟩ := List.mem_iff_getElem?.mp member
  by_contra idle
  have none := stuck_net stuck (.start i)
  rw [Bootstrap.start_enabled found (Bool.eq_false_of_not_eq_true idle)] at none
  cases none

theorem stuck_packets : s.net.packets = [] := by
  cases packets : s.net.packets with
  | nil => rfl
  | cons envelope rest =>
    obtain ⟨t, delivered⟩ := Bootstrap.deliver_enabled (s := s.net) (k := 0) (by rw [packets]; rfl)
    rw [stuck_net stuck (.deliver 0)] at delivered
    cases delivered

theorem stuck_mailboxes : ∀ l ∈ s.locals, l.mailbox = [] := by
  intro l member
  obtain ⟨i, found⟩ := List.mem_iff_getElem?.mp member
  cases mail : l.mailbox with
  | nil => rfl
  | cons members rest =>
    have none := stuck (.agent i (l.agent.joined members) (l.agent.left members)) trivial
    simp [step, found, Local.handle, mail, Agent.handleMembers_in] at none

theorem stuck_mirrors (mirrored : Mirrored s) (a : Peer) (x : String) : s.agentKnows a x ↔ s.net.knows a x := by
  have same : ∀ {i : Nat} {p : SelfManaged} {l : Local}, s.net.providers[i]? = some p → s.locals[i]? = some l →
      l.agent.members.contains x = p.members.contains x := by
    intro i p l provider found
    rw [← mirrored.sees i p l provider found x, Local.sees,
      stuck_mailboxes stuck l (List.mem_of_getElem? found), List.getLast?_nil]
  constructor
  · rintro ⟨i, p, l, provider, found, rfl, known⟩
    exact ⟨p, List.mem_of_getElem? provider, rfl, same provider found ▸ known⟩
  · rintro ⟨p, member, rfl, known⟩
    obtain ⟨i, provider⟩ := List.mem_iff_getElem?.mp member
    have bound : i < s.locals.length := by
      rw [mirrored.paired]
      exact (List.getElem?_eq_some_iff.mp provider).1
    have found := List.getElem?_eq_getElem bound
    exact ⟨i, p, _, provider, found, rfl, same provider found ▸ known⟩

theorem stuck_complete (invariant : Invariant peers s) : Complete peers s := by
  obtain ⟨sound, chained, missed, mirrored⟩ := invariant
  have quiet := stuck_packets stuck
  have mirrors := stuck_mirrors stuck mirrored
  have up : ∀ a ∈ peers.all, s.net.up a := by
    intro a member
    obtain ⟨p, there, same⟩ := sound.hosted.provider member
    exact ⟨p, there, same, stuck_started stuck p there⟩
  have linked : ∀ a ∈ peers.all, ∀ b ∈ peers.all, a.bootstraps b = true →
      s.net.missed a b ∨ (s.agentKnows a b.member.id ∧ s.agentKnows b a.member.id) := by
    intro a first b second listed
    rw [mirrors, mirrors]
    by_cases early : s.net.missed a b
    · exact .inl early
    · exact .inr (sound.exchanged quiet second (up a first) listed early).symm
  refine ⟨up, ⟨quiet, stuck_mailboxes stuck⟩, linked, ?_, ?_⟩
  · intro a first b second listed crossed
    rcases linked a first b second listed with early | known
    · rcases linked b second a first crossed with late | known
      · exact absurd late (missed.once a first b second early)
      · exact known.symm
    · exact known
  · intro a x known
    exact chained.sets a x ((mirrors a x).mp known)

end Stuck

/-- A node that bootstraps from two others, of which the second bootstraps from it. -/
def hub : Peer := ⟨⟨"127.0.0.1:3001", "A", "eu", []⟩, [⟨"127.0.0.1:3000", "B"⟩, ⟨"127.0.0.1:3002", "C"⟩]⟩

def spoke : Peer := ⟨⟨"127.0.0.1:3002", "C", "eu", []⟩, [⟨"127.0.0.1:3001", "A"⟩]⟩

def wheel : Peers where
  all := [hub, ⟨⟨"127.0.0.1:3000", "B", "eu", []⟩, []⟩, spoke]
  distinct := by decide

end Hollywood.Cluster.Discovery
