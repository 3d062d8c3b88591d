import Hollywood.Tree

/-! What holds of the registry, the errands and the children maps in every tree of
actors. An actor that has not begun its `cleanup` is in the map of its parent, or its
parent is still inside the `SpawnChild` that enters it. -/
namespace Hollywood.Tree
variable {M W : Type} [Inhabited M] {id : String} {n m c i j : Nat}

namespace Node

def lists (node : Node M W) (child : PID) : Prop := ∃ pid ∈ node.engine.actor.children, pid.id = child.id

/-- The map of a node holds a child, or is about to. -/
def Listed (node : Node M W) (c : Nat) (kid : Node M W) : Prop :=
  node.lists kid.pid ∨ ∃ i, node.errand i = .spawnChild kid.pid (some c)

end Node

/-- Where a goroutine stands while it is on an errand. -/
inductive Busy (node : Node M W) (i : Nat) : Errand → Prop where
  | free : Busy node i .none
  | spawning : node.engine.pool[i]? = some (.proc r) → r.act = .receiving site →
      Busy node i (.spawnChild child spawned)
  | poisoning : node.engine.pool[i]? = some (.proc r) → r.act = .poison reason (some child :: rest) →
      Busy node i (.poison child pc)

/-- An errand goes on while its goroutine does not move. -/
theorem Busy.frame {node next : Node M W} {errand : Errand} (busy : Busy node i errand)
    (kept : ∀ g, node.engine.pool[i]? = some g → next.engine.pool[i]? = some g) : Busy next i errand := by
  cases busy with
  | free => exact .free
  | spawning found position => exact .spawning (kept _ found) position
  | poisoning found position => exact .poisoning (kept _ found) position

structure Sound (s : State M W) : Prop where
  runs : ∀ (n : Nat) node, s.nodes[n]? = some node → Engine.Runs node.engine
  unique : ∀ (m n : Nat) a b, s.nodes[m]? = some a → s.nodes[n]? = some b → a.engine.actor.registered = true →
    b.engine.actor.registered = true → a.pid.id = b.pid.id → m = n
  elder : ∀ (c : Nat) kid n, s.nodes[c]? = some kid → kid.parent = some n → n < c
  busy : ∀ (n : Nat) node i, s.nodes[n]? = some node → Busy node i (node.errand i)
  listed : ∀ (n c : Nat) node kid, s.nodes[n]? = some node → s.nodes[c]? = some kid → kid.parent = some n →
    kid.engine.actor.parent = true → node.Listed c kid

/-- Where a goroutine stands, with its errand. -/
def State.doing (s : State M W) (n i : Nat) : Option (Errand × Goroutine M) := do
  let node ← s.nodes[n]?
  let g ← node.engine.pool[i]?
  pure (node.errand i, g)

theorem doing_some {s : State M W} {node : Node M W} (there : s.nodes[n]? = some node)
    (found : node.engine.pool[i]? = some g) : s.doing n i = some (node.errand i, g) := by
  simp [State.doing, there, found]

/-- `SpawnChild` is called by the receiver. -/
theorem Sound.spawning {s : State M W} {node : Node M W} (sound : Sound s) (there : s.nodes[n]? = some node)
    (errand : node.errand i = .spawnChild child spawned) :
    ∃ r site, node.engine.pool[i]? = some (.proc r) ∧ r.act = .receiving site := by
  have busy := sound.busy n node i there
  rw [errand] at busy
  cases busy with
  | spawning found position => exact ⟨_, _, found, position⟩

/-- A child is poisoned in the loop of `cleanup`. -/
theorem Sound.poisoning {s : State M W} {node : Node M W} (sound : Sound s) (there : s.nodes[n]? = some node)
    (errand : node.errand i = .poison child pc) :
    ∃ r reason rest, node.engine.pool[i]? = some (.proc r) ∧ r.act = .poison reason (some child :: rest) := by
  have busy := sound.busy n node i there
  rw [errand] at busy
  cases busy with
  | poisoning found position => exact ⟨_, _, _, found, position⟩

/-- The nodes after one of them was replaced. -/
theorem put_some {s : State M W} {node next b : Node M W} (there : s.nodes[n]? = some node)
    (found : (s.put n next).nodes[m]? = some b) :
    (m = n ∧ b = next) ∨ (m ≠ n ∧ s.nodes[m]? = some b) := by
  rw [State.put, List.getElem?_set] at found
  split at found
  · rename_i same
    subst same
    rw [if_pos (List.getElem?_eq_some_iff.mp there).1] at found
    exact .inl ⟨rfl, (Option.some.inj found).symm⟩
  · rename_i other
    exact .inr ⟨Ne.symm other, found⟩

theorem put_self {s : State M W} {node : Node M W} (there : s.nodes[n]? = some node) (next : Node M W) :
    (s.put n next).nodes[n]? = some next := by
  rw [State.put, List.getElem?_set_self (List.getElem?_eq_some_iff.mp there).1]

theorem put_other {s : State M W} (other : m ≠ n) (next : Node M W) :
    (s.put n next).nodes[m]? = s.nodes[m]? := List.getElem?_set_ne (Ne.symm other)

/-- Where a node of the new state comes from. -/
theorem put_back {s : State M W} {node next b : Node M W} (there : s.nodes[n]? = some node)
    (evolves : node.Evolves next) (found : (s.put n next).nodes[m]? = some b) :
    ∃ a, s.nodes[m]? = some a ∧ a.Evolves b := by
  cases put_some there found with
  | inl same =>
    obtain ⟨rfl, rfl⟩ := same
    exact ⟨node, there, evolves⟩
  | inr other => exact ⟨b, other.2, .refl b⟩

/-- One actor goes on: its errands stay as they should be and its map keeps the
children that have not begun their `cleanup`. -/
theorem Sound.put {s : State M W} {node next : Node M W} (sound : Sound s)
    (there : s.nodes[n]? = some node) (evolves : node.Evolves next)
    (busy : ∀ i, Busy next i (next.errand i))
    (lists : ∀ (c : Nat) kid, s.nodes[c]? = some kid → kid.parent = some n → kid.engine.actor.parent = true →
      node.Listed c kid → next.Listed c kid) : Sound (s.put n next) where
  runs m b found := by
    obtain ⟨a, old, evolves⟩ := put_back there evolves found
    exact (sound.runs m a old).trans evolves.runs
  unique m k b d first second registered registered' same := by
    obtain ⟨a, old, evolves'⟩ := put_back there evolves first
    obtain ⟨c, old', evolves''⟩ := put_back there evolves second
    refine sound.unique m k a c old old' ?_ ?_ ?_
    · exact ((sound.runs m a old).fades evolves'.runs).1 registered
    · exact ((sound.runs k c old').fades evolves''.runs).1 registered'
    · rw [← evolves'.pid, ← evolves''.pid, same]
  elder c kid m found parent := by
    obtain ⟨a, old, evolves⟩ := put_back there evolves found
    exact sound.elder c a m old (evolves.parent ▸ parent)
  busy m b i found := by
    cases put_some there found with
    | inl same =>
      obtain ⟨rfl, rfl⟩ := same
      exact busy i
    | inr other => exact sound.busy m b i other.2
  listed m c b kid found present parent flagged := by
    obtain ⟨before, old, evolves'⟩ := put_back there evolves present
    rw [evolves'.parent] at parent
    have flag := ((sound.runs c before old).fades evolves'.runs).2.1 flagged
    have goal : b.Listed c before := by
      cases put_some there found with
      | inl same =>
        obtain ⟨rfl, rfl⟩ := same
        exact lists c before old parent flag (sound.listed m c node before there old parent flag)
      | inr other => exact sound.listed m c b before other.2 old parent flag
    rw [Node.Listed, Node.lists, evolves'.pid]
    exact goal

/-- A goroutine goes on in its process. -/
theorem advance_pool {node next : Node M W} (advanced : node.advance i action = some next) :
    ∃ g b after spawned, node.engine.pool[i]? = some g ∧
      node.engine.actor.Advance g action b after spawned ∧
      next = { node.assign i .none with
        engine := { node.engine with actor := b, pool := node.engine.pool.set i after ++ spawned } } := by
  obtain ⟨engine, stepped, rfl⟩ := advance_some advanced
  rcases Engine.step_cases stepped with ⟨call, ⟨⟩, -⟩ | ⟨child, ⟨⟩, -⟩ |
    ⟨j, other, g, b, after, spawned, same, found, advance, rfl⟩
  cases same
  exact ⟨g, b, after, spawned, found, advance, rfl⟩

theorem returns_receiving {node next : Node M W} (advanced : node.advance i (.receive .returns) = some next) :
    ∃ r site, node.engine.pool[i]? = some (.proc r) ∧ r.act = .receiving site := by
  obtain ⟨g, b, after, spawned, there, advance, rfl⟩ := advance_pool advanced
  cases advance with
  | resumed position => exact ⟨_, _, there, position⟩

/-- The goroutines that do not move stay where they are. -/
theorem advance_kept {node next : Node M W} (advanced : node.advance i action = some next) (other : j ≠ i)
    (found : node.engine.pool[j]? = some h) : next.engine.pool[j]? = some h := by
  obtain ⟨g, b, after, spawned, -, -, rfl⟩ := advance_pool advanced
  have bound := (List.getElem?_eq_some_iff.mp found).1
  change (node.engine.pool.set i after ++ spawned)[j]? = some h
  rw [List.getElem?_append_left (by simpa using bound), List.getElem?_set_ne (Ne.symm other), found]

theorem advance_busy {s : State M W} {node next : Node M W} (sound : Sound s)
    (there : s.nodes[n]? = some node) (advanced : node.advance i action = some next) (j : Nat) :
    Busy next j (next.errand j) := by
  have errand : next.errand j = if j = i then .none else node.errand j := by
    obtain ⟨engine, -, rfl⟩ := advance_some advanced
    rfl
  rw [errand]
  split
  · exact .free
  · rename_i other
    exact (sound.busy n node j there).frame fun g => advance_kept advanced other

/-- Only `SpawnChild` and a child's own `cleanup` change a children map. -/
theorem advance_children {node next : Node M W} (runs : Engine.Runs node.engine)
    (advanced : node.advance i action = some next) (plain : action = .step ∨ action = .receive .returns) :
    next.engine.actor.children = node.engine.actor.children := by
  obtain ⟨g, b, after, spawned, found, advance, rfl⟩ := advance_pool advanced
  have inside := (runs.departure.inside g (List.mem_of_getElem? found)).1
  cases advance with
  | moved move => exact (move.fades inside).2
  | @resumed r outcome site position =>
    cases plain with
    | inl step => cases step
    | inr returns =>
      cases returns
      exact (Actor.resume_fades _ r site).2
  | spawnedChild => simp at plain
  | _ => rfl

theorem advance_listed {node next kid : Node M W} (runs : Engine.Runs node.engine)
    (advanced : node.advance i action = some next) (plain : action = .step ∨ action = .receive .returns)
    (idle : ∀ child spawned, node.errand i ≠ .spawnChild child spawned) (listed : node.Listed c kid) :
    next.Listed c kid := by
  have children := advance_children runs advanced plain
  obtain ⟨engine, -, rfl⟩ := advance_some advanced
  cases listed with
  | inl lists =>
    left
    rw [Node.lists, children]
    exact lists
  | inr pending =>
    obtain ⟨j, errand⟩ := pending
    refine .inr ⟨j, ?_⟩
    by_cases same : j = i
    · subst same
      exact absurd errand (idle _ _)
    · simpa [Node.assign, same] using errand

/-- `children.Set` at the end of `SpawnChild`. -/
theorem setChild_lists (a : Actor M W) (child : PID) {pid : PID} :
    (∃ listed ∈ (a.setChild child).children, listed.id = pid.id) ↔
      child.id = pid.id ∨ ∃ listed ∈ a.children, listed.id = pid.id := by
  simp only [Actor.setChild, Actor.deleteChild, List.mem_append, List.mem_filter, List.mem_singleton,
    decide_eq_true_eq]
  constructor
  · rintro ⟨listed, ⟨member, -⟩ | rfl, same⟩
    · exact .inr ⟨listed, member, same⟩
    · exact .inl same
  · rintro (same | ⟨listed, member, same⟩)
    · exact ⟨child, .inr rfl, same⟩
    · by_cases replaced : listed.id = child.id
      · exact ⟨child, .inr rfl, replaced.symm.trans same⟩
      · exact ⟨listed, .inl ⟨member, replaced⟩, same⟩

theorem setChild_children {node next : Node M W} (advanced : node.advance i (.spawnChild child) = some next) :
    next.engine.actor.children = (node.engine.actor.setChild child).children := by
  obtain ⟨g, b, after, spawned, found, advance, rfl⟩ := advance_pool advanced
  cases advance with
  | spawnedChild => rfl

theorem setChild_listed {node next kid : Node M W} {child : PID}
    (advanced : node.advance i (.spawnChild child) = some next)
    (errand : node.errand i = .spawnChild child spawned) (listed : node.Listed c kid) :
    next.Listed c kid := by
  have children := setChild_children advanced
  obtain ⟨engine, -, rfl⟩ := advance_some advanced
  have entered (known : child.id = kid.pid.id ∨ node.lists kid.pid) :
      Node.lists { node.assign i .none with engine := engine } kid.pid := by
    rw [Node.lists, children]
    exact (setChild_lists _ _).mpr known
  cases listed with
  | inl lists => exact .inl (entered (.inr lists))
  | inr pending =>
    obtain ⟨j, waiting⟩ := pending
    by_cases same : j = i
    · subst same
      rw [errand] at waiting
      cases waiting
      exact .inl (entered (.inl rfl))
    · exact .inr ⟨j, by simpa [Node.assign, same] using waiting⟩

theorem Sound.assign {s : State M W} {node : Node M W} {errand : Errand} (sound : Sound s)
    (there : s.nodes[n]? = some node) (idle : ∀ child spawned, node.errand i ≠ .spawnChild child spawned)
    (busy : Busy node i errand) : Sound (s.put n (node.assign i errand)) := by
  have moved {j : Nat} {e : Errand} (held : Busy node j e) : Busy (node.assign i errand) j e :=
    held.frame fun g found => found
  refine sound.put there (assign_evolves _ _ _) ?_ ?_
  · intro j
    by_cases same : j = i
    · subst same
      simpa [Node.assign] using moved busy
    · simpa [Node.assign, same] using moved (sound.busy n node j there)
  · intro c kid _ _ _ listed
    cases listed with
    | inl lists => exact .inl lists
    | inr pending =>
      obtain ⟨j, waiting⟩ := pending
      refine .inr ⟨j, ?_⟩
      by_cases same : j = i
      · subst same
        exact absurd waiting (idle _ _)
      · simpa [Node.assign, same] using waiting

theorem Sound.look {s : State M W} {nodes : List (Node M W)} (sound : Sound s)
    (running : ∀ node ∈ s.nodes, node.engine.pool.any Goroutine.crashed = false)
    (look : Look s target call pc nodes pc') : Sound { s with nodes := nodes } := by
  cases look with
  | present | absent | lost => exact sound
  | @found m node known there =>
    refine sound.put there (enter_evolves running known there) ?_ ?_
    · intro i
      refine (sound.busy m node i there).frame ?_
      intro g found
      change (node.engine.pool ++ _)[i]? = some g
      rw [List.getElem?_append_left (List.getElem?_eq_some_iff.mp found).1, found]
    · exact fun c kid _ _ _ listed => listed

theorem Sound.deleteChild {s : State M W} (sound : Sound s) (child : PID)
    (running : ∀ node, s.nodes[n]? = some node → node.engine.pool.any Goroutine.crashed = false)
    (begun : ∀ (c : Nat) kid, s.nodes[c]? = some kid → kid.parent = some n →
      kid.engine.actor.parent = true → kid.pid.id ≠ child.id) :
    Sound { s with nodes := s.nodes.modify n (·.deleteChild child) } := by
  rw [List.modify_eq_set_getElem?]
  cases there : s.nodes[n]? with
  | none => exact sound
  | some node =>
    refine sound.put there (deleteChild_evolves _ _ (running node there)) ?_ ?_
    · exact fun i => (sound.busy n node i there).frame fun g found => found
    · intro c kid present parent flag listed
      cases listed with
      | inr pending => exact .inr pending
      | inl lists =>
        obtain ⟨pid, member, same⟩ := lists
        refine .inl ⟨pid, List.mem_filter.mpr ⟨member, ?_⟩, same⟩
        have other := begun c kid present parent flag
        rw [← same] at other
        simpa using other

theorem append_some {nodes : List (Node M W)} {new b : Node M W} (found : (nodes ++ [new])[m]? = some b) :
    nodes[m]? = some b ∨ (m = nodes.length ∧ b = new) := by
  rw [List.getElem?_append] at found
  split at found
  · exact .inl found
  · rename_i beyond
    rw [List.getElem?_singleton] at found
    split at found
    · cases found
      exact .inr ⟨by omega, rfl⟩
    · cases found

/-- An actor is added under a free id, listed by its parent or about to be. -/
theorem Sound.append {s : State M W} {new : Node M W} (sound : Sound s)
    (runs : Engine.Runs new.engine) (idle : ∀ i, new.errand i = .none)
    (free : ∀ (m : Nat) a, s.nodes[m]? = some a → a.engine.actor.registered = true → a.pid.id ≠ new.pid.id)
    (parent : ∀ n, new.parent = some n → n < s.nodes.length)
    (listed : ∀ (n : Nat) node, s.nodes[n]? = some node → new.parent = some n →
      node.Listed s.nodes.length new) : Sound { s with nodes := s.nodes ++ [new] } where
  runs m b found := by
    cases append_some found with
    | inl old => exact sound.runs m b old
    | inr added => exact added.2 ▸ runs
  unique m k a b first second registered registered' same := by
    cases append_some first with
    | inl old =>
      cases append_some second with
      | inl old' => exact sound.unique m k a b old old' registered registered' same
      | inr added' =>
        obtain ⟨rfl, rfl⟩ := added'
        exact absurd same (free m a old registered)
    | inr added =>
      obtain ⟨rfl, rfl⟩ := added
      cases append_some second with
      | inl old' => exact absurd same.symm (free k b old' registered')
      | inr added' => exact added'.1.symm
  elder c kid n found own := by
    cases append_some found with
    | inl old => exact sound.elder c kid n old own
    | inr added =>
      obtain ⟨rfl, rfl⟩ := added
      exact parent n own
  busy m b i found := by
    cases append_some found with
    | inl old => exact sound.busy m b i old
    | inr added =>
      obtain ⟨rfl, rfl⟩ := added
      rw [idle i]
      exact .free
  listed n c node kid found present own flag := by
    have known := append_some present
    cases append_some found with
    | inl old =>
      cases known with
      | inl old' => exact sound.listed n c node kid old old' own flag
      | inr added =>
        obtain ⟨rfl, rfl⟩ := added
        exact listed n node old own
    | inr added =>
      -- nobody has the new actor as its parent yet
      obtain ⟨rfl, rfl⟩ := added
      cases known with
      | inl old' =>
        have earlier := sound.elder c kid _ old' own
        have bound := (List.getElem?_eq_some_iff.mp old').1
        omega
      | inr added' =>
        obtain ⟨rfl, rfl⟩ := added'
        exact absurd (parent _ own) (Nat.lt_irrefl _)

/-- The actor that a goroutine starts to clean up is registered. -/
theorem cleanup_registered {node : Node M W} {r : Routine M} (runs : Engine.Runs node.engine)
    (found : node.engine.pool[i]? = some (.proc r)) (position : r.act = .cleanup reason) :
    node.engine.actor.registered = true := by
  have departure := runs.departure
  cases reason with
  | limit =>
    have sound : r.Sound node.engine.actor := (departure.inside _ (List.mem_of_getElem? found)).1
    have placed := sound.placed
    rw [position] at placed
    exact absurd placed Routine.Placed.not_astray
  | pill f ctx =>
    obtain ⟨-, -, leaving⟩ := departure.holder found (by rw [position]; rfl)
    rw [position] at leaving
    exact leaving.1

/-- No other actor that has yet to begin its `cleanup` has the id of one that begins. -/
theorem Sound.begun {s : State M W} {node next kid : Node M W} {r : Routine M} (sound : Sound s)
    (there : s.nodes[n]? = some node) (found : node.engine.pool[i]? = some (.proc r))
    (position : r.act = .cleanup reason) (advanced : node.advance i .step = some next)
    (present : (s.put n next).nodes[c]? = some kid) (flag : kid.engine.actor.parent = true) :
    kid.pid.id ≠ node.pid.id := by
  intro same
  cases put_some there present with
  | inl moved =>
    obtain ⟨rfl, rfl⟩ := moved
    rw [cleanup_pool found position advanced] at flag
    cases flag
  | inr other =>
    have registered := (sound.runs c kid other.2).departure.deleted flag
    have registered' := cleanup_registered (sound.runs n node there) found position
    exact other.1 (sound.unique c n kid node other.2 there registered registered' same)

/-- A lookup leaves the errands as they are. -/
theorem look_errand {s : State M W} {nodes : List (Node M W)} {b : Node M W}
    (look : Look s target call pc nodes pc') (found : nodes[n]? = some b) :
    ∃ a, s.nodes[n]? = some a ∧ b.errand = a.errand := by
  cases look with
  | present | absent | lost => exact ⟨b, found, rfl⟩
  | @found m node known there =>
    cases put_some there found with
    | inl same =>
      obtain ⟨rfl, rfl⟩ := same
      exact ⟨node, there, rfl⟩
    | inr other => exact ⟨b, other.2, rfl⟩

theorem Sound.advance {s : State M W} {node next : Node M W} (sound : Sound s)
    (there : s.nodes[n]? = some node) (advanced : node.advance i action = some next)
    (plain : action = .step ∨ action = .receive .returns)
    (idle : ∀ child spawned, node.errand i ≠ .spawnChild child spawned) : Sound (s.put n next) := by
  have calm : action.calm = true := by
    cases plain with
    | inl step => rw [step]; rfl
    | inr returns => rw [returns]; rfl
  refine sound.put there (advance_evolves calm advanced) (advance_busy sound there advanced) ?_
  intro c kid _ _ _ listed
  exact advance_listed (sound.runs n node there) advanced plain idle listed

theorem Sound.move {s t : State M W} (sound : Sound s) (move : Move s label t)
    (running : ∀ node ∈ s.nodes, node.engine.pool.any Goroutine.crashed = false) : Sound t := by
  cases move with
  | spawn positive missing =>
    refine sound.append ⟨_, positive, _, .refl _⟩ (fun _ => rfl) ?_ ?_ ?_
    · exact fun m a there registered => get_none missing there registered
    · rintro k ⟨⟩
    · rintro k parent present ⟨⟩
  | taken => exact sound
  | call => exact ⟨sound.runs, sound.unique, sound.elder, sound.busy, sound.listed⟩
  | caller look =>
    have looked := sound.look running look
    exact ⟨looked.runs, looked.unique, looked.elder, looked.busy, looked.listed⟩
  | step there _ free _ advanced | cleanup there _ _ free _ advanced =>
    exact sound.advance there advanced (.inl rfl) (by simp [free])
  | answered there errand _ advanced => exact sound.advance there advanced (.inl rfl) (by simp [errand])
  | returns there free advanced => exact sound.advance there advanced (.inr rfl) (by simp [free])
  | setChild there errand advanced =>
    refine sound.put there (advance_evolves rfl advanced) (advance_busy sound there advanced) ?_
    exact fun c kid _ _ _ listed => setChild_listed advanced errand listed
  | deleted there found position free _ advanced =>
    have moved := sound.advance there advanced (.inl rfl) (by simp [free])
    refine moved.deleteChild _ ?_ ?_
    · exact fun parent present => put_running running there found position advanced present
    · exact fun c kid present _ flag => sound.begun there found position advanced present flag
  | poison there found position free =>
    exact sound.assign there (by simp [free]) (.poisoning found position)
  | rejected there found position free =>
    exact sound.assign there (by simp [free]) (.spawning found position)
  | @look n node child pc nodes pc' i there errand look =>
    have looked := sound.look running look
    rw [List.modify_eq_set_getElem?]
    cases present : nodes[n]? with
    | none => exact looked
    | some now =>
      obtain ⟨before, old, same⟩ := look_errand look present
      rw [there] at old
      cases old
      rw [← same] at errand
      obtain ⟨r, reason, rest, found, position⟩ := looked.poisoning present errand
      exact looked.assign present (by simp [errand]) (.poisoning found position)
  | spawnChild positive there found position free named missing =>
    rename_i n node i child name opts r site id
    have errand : Busy node i (.spawnChild child (some s.nodes.length)) := .spawning found position
    have waiting := sound.assign there (by simp [free]) errand
    refine waiting.append ⟨_, positive, _, .refl _⟩ (fun _ => rfl) ?_ ?_ ?_
    · intro m a present registered
      cases put_some there present with
      | inl same =>
        obtain ⟨rfl, rfl⟩ := same
        have distinct := get_none missing there registered
        exact distinct
      | inr other => exact get_none missing other.2 registered
    · rintro k ⟨⟩
      simpa [State.put] using (List.getElem?_eq_some_iff.mp there).1
    · rintro k parent present ⟨⟩
      rw [put_self there] at present
      cases present
      exact .inr ⟨i, by simp [Node.assign, Node.new, State.put]⟩

theorem initial_sound (address : String) : Sound (initial address : State M W) := by
  have empty (n : Nat) (node : Node M W) : (initial address).nodes[n]? ≠ some node := by simp [initial]
  constructor
  · exact fun n node there => absurd there (empty n node)
  · exact fun m n a b there => absurd there (empty m a)
  · exact fun c kid n there => absurd there (empty c kid)
  · exact fun n node i there => absurd there (empty n node)
  · exact fun n c node kid there => absurd there (empty n node)

def steps (n i count : Nat) : List (Label Nat Nat) := .replicate count (.act n i .step)

/-- An actor spawns a child while it handles `Initialized`. -/
def family : List (Label Nat Nat) :=
  [.spawn "parent" "1" ⟨3, 1, []⟩] ++ steps 0 0 1 ++
    [.act 0 0 .returns, .act 0 0 (.spawnChild "child" "2" ⟨3, 1, []⟩)] ++ steps 1 0 1 ++
    [.act 1 0 .returns, .act 1 0 .returns] ++ steps 1 0 3 ++ steps 0 0 1 ++ [.act 0 0 .returns] ++ steps 0 0 3

end Hollywood.Tree
