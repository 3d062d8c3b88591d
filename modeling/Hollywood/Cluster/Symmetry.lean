import Hollywood.Cluster.SelfManaged

/-! Whether membership is symmetric once the handshakes are through. Two nodes tell
each other of themselves where one bootstraps from the other and its handshake finds the
other one started; of a third node, only the one that sends the handshake is told. -/
namespace Hollywood.Cluster
open Transition Bootstrap

/-- A node that bootstraps from another is linked to whatever that one is linked to. -/
def Peers.closed (peers : Peers) : Prop :=
  ∀ a ∈ peers.all, ∀ b ∈ peers.all, ∀ c ∈ peers.all,
    a.bootstraps b = true → b.linked c = true → c ≠ a → a.linked c = true

namespace Bootstrap

/-- A handshake comes from a started node and goes to one it bootstraps from; a reply
tells of started nodes. -/
inductive Valid (s : State) : Envelope → Prop where
  | handshake : s.up a → a.bootstrapMembers.any (·.pid = target) = true →
      Valid s ⟨target, some a.pid, .handshake a.member⟩
  | members : s.up a → a.pid = target →
      (∀ member ∈ known, ∃ c, s.up c ∧ c.member.id = member.id) → Valid s ⟨target, none, .members known⟩

structure Sound (peers : Peers) (s : State) : Prop where
  hosted : s.hosts peers
  alive : ∀ a x, s.knows a x → s.up a
  self : ∀ a, s.up a → s.knows a a.member.id
  known : ∀ a x, s.knows a x → ∃ c, s.up c ∧ c.member.id = x
  valid : ∀ envelope ∈ s.packets, Valid s envelope
  /-- Until the exchange of a handshake and its reply is complete, one of them is in flight;
  unless the handshake came too early. -/
  exchange : ∀ a b, b ∈ peers.all → s.up a → a.bootstraps b = true →
    s.asked a b ∨ s.missed a b ∨ (s.knows b a.member.id ∧ (s.told a b.member.id ∨ s.knows a b.member.id))

theorem Valid.move (valid : Valid s envelope) (move : Move s l t) : Valid t envelope := by
  cases valid with
  | handshake alive listed => exact .handshake (up_move move alive) listed
  | members alive target known =>
    refine .members (up_move move alive) target ?_
    intro member inside
    obtain ⟨c, running, named⟩ := known member inside
    exact ⟨c, up_move move running, named⟩

/-- The members that a message tells of are started. -/
theorem Valid.named (valid : Valid s envelope) (inside : member ∈ envelope.msg.named) :
    ∃ c, s.up c ∧ c.member.id = member.id := by
  cases valid with
  | handshake alive listed =>
    cases List.mem_singleton.mp inside
    exact ⟨_, alive, rfl⟩
  | members alive target known => exact known member inside

theorem initial_unaware : ¬ (initial peers).knows a x := by
  rintro ⟨p, member, -, known⟩
  obtain ⟨peer, -, rfl⟩ := List.mem_map.mp member
  cases known

namespace Sound
variable {peers : Peers} {s t : State}

theorem alive_move (sound : Sound peers s) (move : Move s l t) (known : t.knows a x) : t.up a := by
  cases knows_back move known with
  | knew old => exact up_move move (sound.alive a x old)
  | self started => exact started
  | told _ _ started => exact up_move move started

theorem self_move (sound : Sound peers s) (move : Move s l t) (started : t.up a) :
    t.knows a a.member.id := by
  rcases up_back move started with old | ⟨itself, -⟩
  · exact knows_move move (sound.self a old)
  · exact itself

theorem known_move (sound : Sound peers s) (move : Move s l t) (known : t.knows a x) :
    ∃ c, t.up c ∧ c.member.id = x := by
  cases knows_back move known with
  | knew old =>
    obtain ⟨c, running, named⟩ := sound.known a x old
    exact ⟨c, up_move move running, named⟩
  | self started named => exact ⟨a, started, named⟩
  | told inFlight _ _ inside named =>
    obtain ⟨c, running, same⟩ := (sound.valid _ inFlight).named inside
    exact ⟨c, up_move move running, same.trans named⟩

theorem valid_move (sound : Sound peers s) (move : Move s l t) (inFlight : envelope ∈ t.packets) :
    Valid t envelope := by
  cases packets_move move inFlight with
  | kept old => exact (sound.valid _ old).move move
  | handshake _ started listed => exact .handshake started (List.any_eq_true.mpr ⟨_, listed, by simp⟩)
  | members asked there =>
    cases sound.valid _ asked with
    | handshake alive listed =>
      refine .members (up_move move alive) rfl ?_
      intro member inside
      refine sound.known_move move ⟨_, there, rfl, ?_⟩
      exact Option.isSome_of_eq_some (Keyed.get?_eq_some.mpr ⟨inside, rfl⟩)

theorem exchange_move (sound : Sound peers s) (move : Move s l t) (member : b ∈ peers.all)
    (started : t.up a) (listed : a.bootstraps b = true) :
    t.asked a b ∨ t.missed a b ∨ (t.knows b a.member.id ∧ (t.told a b.member.id ∨ t.knows a b.member.id)) := by
  rcases up_back move started with old | ⟨-, handshakes⟩
  · rcases sound.exchange a b member old listed with asked | missed | ⟨known, replied⟩
    · rcases asked_move sound.hosted move member asked with waits | ⟨-, early⟩ | ⟨known, replied⟩
      · exact .inl waits
      · exact .inr (.inl early)
      · have itself := sound.self_move move (sound.alive_move move known)
        exact .inr (.inr ⟨known, .inl (replied _ itself)⟩)
    · exact .inr (.inl ((deadLetters_move move).1 _ missed))
    · refine .inr (.inr ⟨knows_move move known, ?_⟩)
      rcases replied with told | learned
      · exact told_move sound.hosted move old told
      · exact .inr (knows_move move learned)
  · exact .inl (handshakes b listed)

theorem next (sound : Sound peers s) (stepped : step s l = some t) : Sound peers t where
  hosted := hosts_move (step_move stepped) sound.hosted
  alive _ _ := sound.alive_move (step_move stepped)
  self _ := sound.self_move (step_move stepped)
  known _ _ := sound.known_move (step_move stepped)
  valid _ := sound.valid_move (step_move stepped)
  exchange _ _ := sound.exchange_move (step_move stepped)

theorem initial (peers : Peers) : Sound peers (initial peers) := by
  have down (a : Peer) (started : (Bootstrap.initial peers).up a) : False := by
    obtain ⟨p, member, -, started⟩ := started
    obtain ⟨peer, -, rfl⟩ := List.mem_map.mp member
    cases started
  constructor
  · exact (List.map_map ..).trans (List.map_id _)
  · exact fun a x known => absurd known initial_unaware
  · exact fun a started => (down a started).elim
  · exact fun a x known => absurd known initial_unaware
  · exact fun envelope inFlight => absurd inFlight List.not_mem_nil
  · exact fun a b _ started => (down a started).elim

theorem reached (path : Reaches step (Bootstrap.initial peers) s) : Sound peers s :=
  path.invariant (P := Sound peers) next (initial peers)

end Sound

/-- An id of the node itself or of one that it is linked to. -/
def near (peers : Peers) (a : Peer) (x : String) : Prop :=
  ∃ c ∈ peers.all, c.member.id = x ∧ (c = a ∨ a.linked c = true)

/-- Nodes know, and are told of, nodes that they are linked to. -/
structure Near (peers : Peers) (s : State) : Prop where
  sets : ∀ a x, s.knows a x → near peers a x
  replies : ∀ a ∈ peers.all, ∀ x, s.told a x → near peers a x

/-- What a node may know it may tell to those that bootstrap from it. -/
theorem near_of_bootstraps (closed : peers.closed) (first : a ∈ peers.all) (second : b ∈ peers.all)
    (listed : a.bootstraps b = true) (known : near peers b x) : near peers a x := by
  obtain ⟨c, third, named, same | link⟩ := known
  · subst same
    exact ⟨c, third, named, .inr (by simp [Peer.linked, listed])⟩
  · by_cases itself : c = a
    · exact ⟨c, third, named, .inl itself⟩
    · exact ⟨c, third, named, .inr (closed a first b second c third listed link itself)⟩

theorem Near.sets_move (inside : Near peers s) (sound : Sound peers s) (move : Move s l t)
    (known : t.knows a x) : near peers a x := by
  have member := ((sound.alive_move move known).mem (hosts_move move sound.hosted))
  cases knows_back move known with
  | knew old => exact inside.sets a x old
  | self started named => exact ⟨a, member, named, .inl rfl⟩
  | told inFlight target started listed named =>
    cases sound.valid _ inFlight with
    | handshake alive bootstrap =>
      rename_i sender reached
      cases List.mem_singleton.mp listed
      refine ⟨sender, alive.mem sound.hosted, named, .inr ?_⟩
      cases target
      rw [Peer.linked_symm]
      exact Bool.or_eq_true_iff.mpr (.inl bootstrap)
    | members =>
      cases target
      exact inside.replies a member x ⟨_, inFlight, _, listed, named⟩

theorem Near.replies_move (inside : Near peers s) (sound : Sound peers s) (closed : peers.closed)
    (move : Move s l t) (member : a ∈ peers.all) (told : t.told a x) : near peers a x := by
  obtain ⟨known, inFlight, value, listed, named⟩ := told
  generalize addressed : a.pid = target at inFlight
  cases packets_move move inFlight with
  | kept old => exact inside.replies a member x ⟨known, addressed ▸ old, value, listed, named⟩
  | members asked there =>
    cases sound.valid _ asked with
    | handshake alive bootstrap =>
      rename_i sender
      cases peers.pid_unique member (alive.mem sound.hosted) addressed
      have contained := Option.isSome_of_eq_some (Keyed.get?_eq_some.mpr ⟨listed, named⟩)
      refine near_of_bootstraps closed member ?_ bootstrap (inside.sets_move sound move ⟨_, there, rfl, contained⟩)
      exact (hosts_move move sound.hosted).mem there

theorem near_reached (closed : peers.closed) (path : Reaches step (initial peers) s) : Near peers s := by
  have both : Sound peers s ∧ Near peers s := by
    refine path.invariant (P := fun s => Sound peers s ∧ Near peers s) ?_ ⟨.initial peers, ?_⟩
    · rintro s l t ⟨sound, inside⟩ stepped
      have move := step_move stepped
      exact ⟨sound.next stepped, fun a x => inside.sets_move sound move,
        fun a member x => inside.replies_move sound closed move member⟩
    · constructor
      · exact fun a x known => absurd known initial_unaware
      · rintro a member x ⟨known, inFlight, -⟩
        cases inFlight
  exact both.2

/-- Membership is mutual. -/
def Symmetric (peers : Peers) (s : State) : Prop :=
  ∀ a ∈ peers.all, ∀ b ∈ peers.all, s.knows a b.member.id → s.knows b a.member.id

/-- Once nothing is in flight, a started node and one it bootstraps from know each
other, unless the handshake came before the other one had started. -/
theorem Sound.exchanged (sound : Sound peers s) (quiet : s.packets = []) (member : b ∈ peers.all)
    (started : s.up a) (listed : a.bootstraps b = true) (heard : ¬ s.missed a b) :
    s.knows b a.member.id ∧ s.knows a b.member.id := by
  rcases sound.exchange a b member started listed with asked | missed | ⟨known, replied⟩
  · rw [State.asked, quiet] at asked
    cases asked
  · exact absurd missed heard
  · refine ⟨known, ?_⟩
    rcases replied with ⟨_, inFlight, -⟩ | learned
    · rw [quiet] at inFlight
      cases inFlight
    · exact learned

/-- Nothing is delivered to a node before it has started. -/
def attended (s : State) : Label → Bool
  | .start _ => true
  | .deliver k => s.packets[k]?.all fun envelope => s.providers.all fun p => p.started || p.peer.pid ≠ envelope.target

theorem attended_step (path : Reaches (restrict attended step) s t) : Reaches step s t :=
  path.mono fun stepped => (restrict_some stepped).2

theorem not_missed (path : Reaches (restrict attended step) (initial peers) s) (member : b ∈ peers.all) :
    ¬ s.missed a b := by
  have elsewhere : s.hosts peers ∧ ∀ envelope ∈ s.deadLetters, ∀ b ∈ peers.all, b.pid ≠ envelope.target := by
    refine path.invariant
      (P := fun s => s.hosts peers ∧ ∀ envelope ∈ s.deadLetters, ∀ b ∈ peers.all, b.pid ≠ envelope.target) ?_
      ⟨(Sound.initial peers).hosted, fun _ dead => absurd dead List.not_mem_nil⟩
    rintro s l t ⟨hosted, elsewhere⟩ stepped
    obtain ⟨attends, stepped⟩ := restrict_some stepped
    have move := step_move stepped
    refine ⟨hosts_move move hosted, ?_⟩
    cases move with
    | start | receive => exact elsewhere
    | lose found nobody =>
      intro envelope dead b member same
      rcases List.mem_append.mp dead with old | new
      · exact elsewhere envelope old b member same
      · cases List.mem_singleton.mp new
        obtain ⟨p, there, rfl⟩ := hosted.provider member
        have idle := nobody p there
        simp only [attended, found, Option.all_some, List.all_eq_true] at attends
        have absent := attends p there
        simp [SelfManaged.serves, same] at idle absent
        simp [idle] at absent
  exact fun missed => elsewhere.2 _ missed b member rfl

theorem symmetric_of_closed (closed : peers.closed) (path : Reaches (restrict attended step) (initial peers) s)
    (quiet : s.packets = []) : Symmetric peers s := by
  have sound := Sound.reached (attended_step path)
  intro a first b second known
  obtain ⟨c, third, same, related⟩ := (near_reached closed (attended_step path)).sets a _ known
  cases peers.unique third second same
  rcases related with rfl | link
  · exact known
  · rcases Bool.or_eq_true_iff.mp link with listed | listed
    · exact (sound.exchanged quiet second (sound.alive a _ known) listed (not_missed path second)).1
    · obtain ⟨c, started, same⟩ := sound.known a _ known
      cases peers.unique (started.mem sound.hosted) second same
      exact (sound.exchanged quiet first started listed (not_missed path first)).2

/-! Where the lists are not closed, a node that starts last is told of a node that it is
not linked to, and nobody tells that one. -/

def Msg.weight : Msg → Nat
  | .handshake _ => 2
  | .members _ => 1

/-- Each delivery brings the exchange nearer to its end. -/
def State.weight (s : State) : Nat := (s.packets.map (·.msg.weight)).sum

def delivers (s : State) : Label → Bool
  | .deliver k => attended s (.deliver k)
  | .start _ => false

theorem delivers_attended (path : Reaches (restrict delivers step) s t) : Reaches (restrict attended step) s t := by
  refine path.relax attended ?_
  rintro s (i | k) admitted
  · cases admitted
  · exact admitted

theorem weight_deliver (move : Move s (.deliver k) t) : t.weight < s.weight := by
  have taken {envelope : Envelope} (found : s.packets[k]? = some envelope) :
      ((s.packets.eraseIdx k).map (·.msg.weight)).sum + envelope.msg.weight = s.weight := by
    obtain ⟨bound, rfl⟩ := List.getElem?_eq_some_iff.mp found
    have same := ((List.getElem_cons_eraseIdx_perm bound).map fun e : Envelope => e.msg.weight).sum_nat
    rw [List.map_cons, List.sum_cons] at same
    rw [State.weight, ← same, Nat.add_comm]
  cases move with
  | lose found =>
    rename_i envelope _
    have total := taken found
    have positive : 0 < envelope.msg.weight := by cases envelope.msg <;> exact Nat.succ_pos _
    simp only [State.weight] at total ⊢
    omega
  | receive found =>
    rename_i envelope i p _ _ _
    have total := taken found
    have lighter : (((p.receive envelope).2).map (·.msg.weight)).sum < envelope.msg.weight := by
      obtain ⟨target, sender, msg⟩ := envelope
      cases msg with
      | handshake => cases sender <;> simp [SelfManaged.receive, Msg.weight]
      | members => simp [SelfManaged.receive, Msg.weight]
    simp only [State.weight, List.map_append, List.sum_append] at total ⊢
    omega

theorem deliver_enabled (found : s.packets[k]? = some envelope) : ∃ t, step s (.deliver k) = some t := by
  simp only [step, found, Option.bind_eq_bind, Option.bind_some]
  split
  · exact ⟨_, rfl⟩
  · rename_i i host
    obtain ⟨bound, -, -⟩ := List.findIdx?_eq_some_iff_getElem.mp host
    rw [List.getElem?_eq_getElem bound, Option.bind_some]
    exact ⟨_, rfl⟩

/-- Deliveries go on until each message waits for a node that has not started. -/
theorem drain (s : State) :
    ∃ t, Reaches (restrict delivers step) s t ∧
      ∀ envelope ∈ t.packets, ∃ p ∈ t.providers, p.peer.pid = envelope.target ∧ p.started = false := by
  have progress (s : State) (_ : True) : (∀ k, restrict delivers step s (.deliver k) = none) ∨
      ∃ l t, restrict delivers step s l = some t ∧ True ∧ t.weight < s.weight := by
    by_cases stuck : ∀ k, restrict delivers step s (.deliver k) = none
    · exact .inl stuck
    · rw [not_forall] at stuck
      obtain ⟨k, enabled⟩ := stuck
      obtain ⟨t, stepped⟩ := Option.ne_none_iff_exists'.mp enabled
      exact .inr ⟨.deliver k, t, stepped, trivial, weight_deliver (step_move (restrict_some stepped).2)⟩
  obtain ⟨t, path, stuck, -⟩ := eventually _ _ _ State.weight progress trivial
  refine ⟨t, path, ?_⟩
  intro envelope inFlight
  obtain ⟨k, found⟩ := List.mem_iff_getElem?.mp inFlight
  by_contra absent
  have attends : delivers t (.deliver k) = true := by
    simp only [delivers, attended, found, Option.all_some, List.all_eq_true, Bool.or_eq_true, decide_eq_true_eq]
    intro p there
    by_contra idle
    rw [not_or, not_not] at idle
    exact absent ⟨p, there, idle.2, Bool.eq_false_of_not_eq_true idle.1⟩
  obtain ⟨u, stepped⟩ := deliver_enabled found
  have waits := stuck k
  rw [restrict, if_pos attends, stepped] at waits
  cases waits

theorem up_drained (path : Reaches (restrict delivers step) s t) : t.up a ↔ s.up a := by
  induction path with
  | refl => rfl
  | next _ stepped ih =>
    obtain ⟨delivery, stepped⟩ := restrict_some stepped
    refine Iff.trans ?_ ih
    refine ⟨?_, up_move (step_move stepped)⟩
    rintro ⟨q, member, rfl, started⟩
    cases step_move stepped with
    | start => cases delivery
    | lose => exact ⟨q, member, rfl, started⟩
    | receive found at_ target running =>
      rcases List.mem_or_eq_of_mem_set member with old | rfl
      · exact ⟨q, old, rfl, started⟩
      · rw [SelfManaged.receive_fst]
        exact ⟨_, List.mem_of_getElem? at_, rfl, running⟩

theorem start_enabled (found : s.providers[i]? = some p) (idle : p.started = false) :
    step s (.start i) =
      some { s with providers := s.providers.set i p.start.1, packets := s.packets ++ p.start.2 } := by
  simp [step, found, idle]

/-- All nodes but one can be started first. -/
theorem start_others (hosted : s.hosts peers) (down : ¬ s.up a) :
    ∃ t, Reaches (restrict attended step) s t ∧ ¬ t.up a ∧ ∀ b ∈ peers.all, b ≠ a → t.up b := by
  let asleep (s : State) := s.providers.countP (!·.started)
  have progress (s : State) (kept : s.hosts peers ∧ ¬ s.up a) :
      (∀ p ∈ s.providers, p.peer ≠ a → p.started = true) ∨
        ∃ l t, restrict attended step s l = some t ∧ (t.hosts peers ∧ ¬ t.up a) ∧ asleep t < asleep s := by
    obtain ⟨hosted, down⟩ := kept
    by_cases all : ∀ p ∈ s.providers, p.peer ≠ a → p.started = true
    · exact .inl all
    · simp only [not_forall] at all
      obtain ⟨p, member, other, idle⟩ := all
      obtain ⟨i, found⟩ := List.mem_iff_getElem?.mp member
      have stepped := start_enabled found (Bool.eq_false_of_not_eq_true idle)
      refine .inr ⟨.start i, _, stepped, ⟨hosts_move (step_move stepped) hosted, ?_⟩, ?_⟩
      · rintro ⟨q, present, same, started⟩
        rcases List.mem_or_eq_of_mem_set present with old | rfl
        · exact down ⟨q, old, same, started⟩
        · exact other same
      · have count := Pool.countP_set (!·.started) found p.start.1
        simp only [SelfManaged.start, Bool.not_eq_true] at count idle ⊢
        simp only [idle, Bool.not_false, Bool.not_true, if_true, Bool.false_eq_true, if_false] at count
        exact Nat.lt_of_succ_le count.le
  obtain ⟨t, path, all, hosted, down⟩ := eventually _ _ _ asleep progress ⟨hosted, down⟩
  refine ⟨t, path, down, ?_⟩
  intro b member other
  obtain ⟨p, present, rfl⟩ := hosted.provider member
  exact ⟨p, present, rfl, all p present other⟩

/-- One node is told of another, while nothing in flight concerns that one. -/
structure Passed (peers : Peers) (a b c : Peer) (s : State) : Prop where
  hosted : s.hosts peers
  up : s.up a ∧ s.up b
  targets : ∀ envelope ∈ s.packets, envelope.target ≠ c.pid
  senders : ∀ target member, ⟨target, some c.pid, .handshake member⟩ ∉ s.packets
  unaware : ¬ s.knows c a.member.id
  source : s.knows b c.member.id
  tells : s.asked a b ∨ s.told a c.member.id ∨ s.knows a c.member.id

theorem Passed.deliver {a b c : Peer} (passed : Passed peers a b c s) (move : Move s (.deliver k) t)
    (first : a ∈ peers.all) (third : c ∈ peers.all) (other : c ≠ a) :
    Passed peers a b c t where
  hosted := hosts_move move passed.hosted
  up := ⟨up_move move passed.up.1, up_move move passed.up.2⟩
  targets := by
    intro envelope inFlight
    cases packets_move move inFlight with
    | kept old => exact passed.targets envelope old
    | members asked =>
      rintro rfl
      exact passed.senders _ _ asked
  senders := by
    intro target member inFlight
    cases packets_move move inFlight with
    | kept old => exact passed.senders target member old
  unaware := by
    intro known
    cases knows_back move known with
    | knew old => exact passed.unaware old
    | self _ same => exact other (peers.unique third first same)
    | told inFlight target => exact passed.targets _ inFlight target
  source := knows_move move passed.source
  tells := by
    have source := knows_move move passed.source
    rcases passed.tells with asked | told | known
    · rcases asked_move passed.hosted move (passed.up.2.mem passed.hosted) asked with waits | ⟨down, -⟩ | ⟨-, replied⟩
      · exact .inl waits
      · exact absurd passed.up.2 down
      · exact .inr (.inl (replied _ source))
    · exact .inr (told_move passed.hosted move passed.up.1 told)
    · exact .inr (.inr (knows_move move known))

theorem Passed.drained {a b c : Peer} (path : Reaches (restrict delivers step) s t)
    (passed : Passed peers a b c s) (first : a ∈ peers.all) (third : c ∈ peers.all) (other : c ≠ a) :
    Passed peers a b c t := by
  refine path.invariant (P := Passed peers a b c) ?_ passed
  intro s l t passed stepped
  obtain ⟨delivery, stepped⟩ := restrict_some stepped
  cases l with
  | start => cases delivery
  | deliver k => exact passed.deliver (step_move stepped) first third other

/-- With all other nodes started and nothing deliverable, two linked nodes know each
other. -/
theorem Sound.settled (sound : Sound peers s) (waiting : ∀ envelope ∈ s.packets, envelope.target = a.pid)
    (early : ∀ d e, e ∈ peers.all → ¬ s.missed d e) (first : a ∈ peers.all) (second : b ∈ peers.all)
    (third : c ∈ peers.all) (notFirst : b ≠ a) (other : c ≠ a) (up : s.up b) (up' : s.up c)
    (link : b.linked c = true) : s.knows b c.member.id := by
  have absent {d : Peer} {sender : Option PID} {msg : Msg} (member : d ∈ peers.all) (distinct : d ≠ a)
      (inFlight : ⟨d.pid, sender, msg⟩ ∈ s.packets) : False :=
    distinct (peers.pid_unique member first (waiting _ inFlight))
  rcases Bool.or_eq_true_iff.mp link with listed | listed
  · rcases sound.exchange b c third up listed with asked | missed | ⟨-, ⟨_, inFlight, -⟩ | known⟩
    · exact (absent third other asked).elim
    · exact absurd missed (early b c third)
    · exact (absent second notFirst inFlight).elim
    · exact known
  · rcases sound.exchange c b second up' listed with asked | missed | ⟨known, -⟩
    · exact (absent second notFirst asked).elim
    · exact absurd missed (early c b second)
    · exact known

/-- The node that starts last asks the one that knows of the third. -/
theorem Sound.start_last {a b c : Peer} (sound : Sound peers s)
    (waiting : ∀ envelope ∈ s.packets, envelope.target = a.pid) (down : ¬ s.up a)
    (first : a ∈ peers.all) (third : c ∈ peers.all) (listed : a.bootstraps b = true)
    (source : s.knows b c.member.id) (other : c ≠ a) (apart : a.linked c = false) :
    ∃ i t, step s (.start i) = some t ∧ Passed peers a b c t := by
  obtain ⟨unlisted, unlisted'⟩ := Bool.or_eq_false_iff.mp apart
  obtain ⟨p, member, rfl⟩ := sound.hosted.provider first
  obtain ⟨i, found⟩ := List.mem_iff_getElem?.mp member
  have idle : p.started = false := by
    cases started : p.started with
    | false => rfl
    | true => exact absurd ⟨p, member, rfl, started⟩ down
  have stepped := start_enabled found idle
  have move := step_move stepped
  have up : State.up { s with providers := s.providers.set i p.start.1, packets := s.packets ++ p.start.2 } p.peer :=
    ⟨_, Pool.mem_moved found, rfl, rfl⟩
  have distinct (same : c.pid = p.peer.pid) : False := other (peers.pid_unique third first same)
  refine ⟨i, _, stepped, ?_⟩
  constructor
  · exact hosts_move move sound.hosted
  · exact ⟨up, up_move move (sound.alive b _ source)⟩
  · intro envelope inFlight target
    rcases List.mem_append.mp inFlight with old | new
    · exact distinct (target.symm.trans (waiting envelope old))
    · obtain ⟨addr, inside, rfl⟩ := List.mem_map.mp new
      rw [Peer.bootstraps, List.any_eq_false] at unlisted
      exact unlisted addr inside (decide_eq_true target)
  · intro target member inFlight
    rcases List.mem_append.mp inFlight with old | new
    · generalize named : some c.pid = sender at old
      have goal := waiting _ old
      cases sound.valid _ old with
      | handshake alive bootstrap =>
        cases peers.pid_unique third (alive.mem sound.hosted) (Option.some.inj named)
        cases goal
        exact Bool.false_ne_true (unlisted'.symm.trans bootstrap)
    · obtain ⟨addr, inside, same⟩ := List.mem_map.mp new
      exact distinct (Option.some.inj (congrArg Envelope.sender same)).symm
  · intro known
    cases knows_back move known with
    | knew old =>
      obtain ⟨d, alive, same⟩ := sound.known c _ old
      cases peers.unique (alive.mem sound.hosted) first same
      exact down alive
    | self _ same => exact other (peers.unique third first same)
    | told inFlight target => exact distinct (target.symm.trans (waiting _ inFlight))
  · exact knows_move move source
  · rcases up_back move up with old | ⟨-, asked⟩
    · exact absurd old down
    · exact .inl (asked b listed)

/-- The last node to start is told of a node that it is not linked to. -/
theorem asymmetric_run {a b c : Peer} (first : a ∈ peers.all) (second : b ∈ peers.all)
    (third : c ∈ peers.all) (listed : a.bootstraps b = true) (link : b.linked c = true)
    (other : c ≠ a) (apart : a.linked c = false) :
    ∃ s, Reaches (restrict attended step) (initial peers) s ∧ s.packets = [] ∧ ¬ Symmetric peers s := by
  have notFirst : b ≠ a := by
    rintro rfl
    simp [link] at apart
  have start := Sound.initial peers
  have down : ¬ (initial peers).up a := fun up => initial_unaware (start.self a up)
  obtain ⟨s, path, down, others⟩ := start_others start.hosted down
  obtain ⟨t, drained, stuck⟩ := drain s
  have path := path.trans (delivers_attended drained)
  have sound := Sound.reached (attended_step path)
  have others (d : Peer) (member : d ∈ peers.all) (distinct : d ≠ a) : t.up d :=
    (up_drained drained).mpr (others d member distinct)
  have waiting : ∀ envelope ∈ t.packets, envelope.target = a.pid := by
    intro envelope inFlight
    obtain ⟨p, member, target, idle⟩ := stuck envelope inFlight
    by_cases same : p.peer = a
    · rw [← target, same]
    · obtain ⟨q, present, peer, started⟩ := others p.peer (sound.hosted.mem member) same
      rw [sound.hosted.unique present member peer, idle] at started
      cases started
  have source := sound.settled waiting (fun _ _ => not_missed path) first second third notFirst other (others b second notFirst)
    (others c third other) link
  have down : ¬ t.up a := fun up => down ((up_drained drained).mp up)
  obtain ⟨i, u, stepped, passed⟩ := sound.start_last waiting down first third listed source other apart
  obtain ⟨v, rest, stuck⟩ := drain u
  have up := passed.up.1
  have passed := passed.drained rest first third other
  have all (d : Peer) (member : d ∈ peers.all) : v.up d := by
    apply (up_drained rest).mpr
    by_cases same : d = a
    · exact same ▸ up
    · exact up_move (step_move stepped) (others d member same)
  have quiet : v.packets = [] := by
    rw [List.eq_nil_iff_forall_not_mem]
    intro envelope inFlight
    obtain ⟨p, member, -, idle⟩ := stuck envelope inFlight
    obtain ⟨q, present, peer, started⟩ := all p.peer (passed.hosted.mem member)
    rw [passed.hosted.unique present member peer, idle] at started
    cases started
  have starts : restrict attended step t (.start i) = some u := stepped
  refine ⟨v, (path.next starts).trans (delivers_attended rest), quiet, ?_⟩
  intro symmetric
  refine passed.unaware (symmetric a first c third ?_)
  rcases passed.tells with asked | ⟨_, inFlight, -⟩ | known
  · rw [State.asked, quiet] at asked
    cases asked
  · rw [quiet] at inFlight
    cases inFlight
  · exact known

/-- Where no handshake comes before the node it is for has started, membership is mutual in
every state with no message in flight exactly when every node is linked to those it is
told of. -/
theorem membership_symmetric (peers : Peers) :
    (∀ s, Reaches (restrict attended step) (initial peers) s → s.packets = [] → Symmetric peers s) ↔
      peers.closed := by
  constructor
  · intro symmetric a first b second c third listed link other
    by_contra apart
    obtain ⟨s, path, quiet, broken⟩ :=
      asymmetric_run first second third listed link other (Bool.eq_false_of_not_eq_true apart)
    exact broken (symmetric s path quiet)
  · intro closed s path quiet
    exact symmetric_of_closed closed path quiet

/-- A node that bootstraps from the node B. -/
def leaf (id host : String) : Peer := ⟨⟨host, id, "eu", []⟩, [⟨"127.0.0.1:3000", "B"⟩]⟩

/-- Two nodes that both bootstrap from a third. -/
def star : Peers where
  all := [leaf "C" "127.0.0.1:3002", leaf "A" "127.0.0.1:3001", ⟨⟨"127.0.0.1:3000", "B", "eu", []⟩, []⟩]
  distinct := by decide

/-- The node that comes second learns of the first from the one they bootstrap from;
the first is never told. -/
theorem first_leaf_unaware : ∃ s, Reaches (restrict attended step) (initial star) s ∧
    (s.packets = [] ∧ s.knows (leaf "A" "127.0.0.1:3001") "C" ∧
      ¬ s.knows (leaf "C" "127.0.0.1:3002") "A") := by
  obtain ⟨s, path, ends⟩ := exists_of_run (restrict attended step) (initial star)
    [.start 2, .start 0, .deliver 0, .deliver 0, .start 1, .deliver 0, .deliver 0]
    (fun s => decide (s.packets = [] ∧ s.knows (leaf "A" "127.0.0.1:3001") "C" ∧
      ¬ s.knows (leaf "C" "127.0.0.1:3002") "A")) (by decide +kernel)
  exact ⟨s, path, of_decide_eq_true ends⟩

end Bootstrap

end Hollywood.Cluster
