import Hollywood.Engine.Completion
import Hollywood.Tree.ChildrenFirst
import Hollywood.Tree.ChildrenMap
import Hollywood.Tree.Incarnations
import Mathlib.Algebra.BigOperators.Group.Finset.Basic
import Mathlib.Algebra.Order.BigOperators.Group.Finset

/-! Whether a tree of actors comes to rest. A goroutine in `cleanup` waits for its children,
and one in `SpawnChild` for the `Start` of the child. An id is longer than that of the actor
that has it in its children map, so nobody waits in a circle, and a pill goes to a longer id
than that of the actor that sends it: an actor may gain work, but below one that has lost
some. Where a tree hangs all the same, somebody waits for the context of a pill that was not
the one to stop its actor. -/
namespace Hollywood.Tree
open Transition
variable {M W : Type} [Inhabited M] {id : String} {n m c i j : Nat}

/-- Nobody calls or spawns, and the receivers return. -/
def Label.moves : Label M W → Prop
  | .caller _ | .act _ _ .step | .act _ _ .returns => True
  | _ => False

/-! The work of an actor. -/

def Errand.spawns : Errand → Nat
  | .spawnChild _ _ => 1
  | _ => 0

def Errand.left : Errand → Nat
  | .none => 4
  | .poison _ .sendPoisonPill => 3
  | .poison _ .lookup => 2
  | _ => 1

namespace Node

def spawning (node : Node M W) : Nat :=
  ∑ i ∈ Finset.range node.engine.pool.length, (node.errand i).spawns

def errands (node : Node M W) : Nat :=
  ∑ i ∈ Finset.range node.engine.pool.length, (node.errand i).left

/-- The shorter the id, the more an actor counts. -/
def rank (bound : Nat) (node : Node M W) : Nat ×ₗ Nat ×ₗ (Nat ×ₗ Nat ×ₗ Nat) ×ₗ Nat :=
  toLex (bound - node.pid.id.length, toLex (node.spawning, toLex (node.engine.rank, node.errands)))

theorem rank_lt {node next : Node M W} (bound : Nat) (pid : next.pid = node.pid)
    (spawning : next.spawning ≤ node.spawning)
    (falls : next.spawning < node.spawning ∨ next.engine.rank < node.engine.rank ∨
      next.engine.rank = node.engine.rank ∧ next.errands < node.errands) :
    next.rank bound < node.rank bound := by
  rw [rank, rank, pid, Prod.Lex.toLex_lt_toLex, Prod.Lex.toLex_lt_toLex, Prod.Lex.toLex_lt_toLex]
  right
  refine ⟨rfl, ?_⟩
  rcases Nat.lt_or_eq_of_le spawning with fewer | same
  · exact .inl fewer
  · refine .inr ⟨same, falls.resolve_left ?_⟩
    rw [same]
    exact lt_irrefl _

end Node

theorem Busy.none {node : Node M W} {errand : Errand} (busy : Busy node i errand)
    (beyond : node.engine.pool.length ≤ i) : errand = .none := by
  have absent := List.getElem?_eq_none beyond
  cases busy with
  | free => rfl
  | spawning found | poisoning found =>
    rw [absent] at found
    cases found

/-- A goroutine that goes on in its process has no errand any more, and those it starts have
none yet. -/
theorem advance_spawning {node next : Node M W} (busy : ∀ j, Busy node j (node.errand j))
    (advanced : node.advance i action = some next) :
    next.spawning ≤ node.spawning ∧ ((node.errand i).spawns = 1 → next.spawning < node.spawning) := by
  obtain ⟨g, b, after, spawned, found, -, rfl⟩ := advance_pool advanced
  have bound := (List.getElem?_eq_some_iff.mp found).1
  have longer : Finset.range node.engine.pool.length ⊆
      Finset.range (node.engine.pool.set i after ++ spawned).length := by
    rw [Finset.range_subset_range, List.length_append, List.length_set]
    exact Nat.le_add_right _ _
  have same : node.spawning =
      ∑ j ∈ Finset.range (node.engine.pool.set i after ++ spawned).length, (node.errand j).spawns := by
    refine Finset.sum_subset longer fun j _ beyond => ?_
    rw [(busy j).none (by simpa using beyond)]
    rfl
  have each (j : Nat) : ((node.assign i .none).errand j).spawns ≤ (node.errand j).spawns := by
    simp only [Node.assign]
    split
    · exact Nat.zero_le _
    · exact Nat.le_refl _
  rw [same]
  refine ⟨Finset.sum_le_sum fun j _ => each j, fun spawns => ?_⟩
  refine Finset.sum_lt_sum (fun j _ => each j) ⟨i, longer (Finset.mem_range.mpr bound), ?_⟩
  have cleared : (node.assign i .none).errand i = .none := if_pos rfl
  change ((node.assign i .none).errand i).spawns < (node.errand i).spawns
  rw [cleared, spawns]
  exact Nat.one_pos

theorem advance_rank {node next : Node M W} (runs : Engine.Runs node.engine) (bound : Nat)
    (busy : ∀ j, Busy node j (node.errand j)) (goes : action.goes)
    (advanced : node.advance i action = some next) : next.rank bound < node.rank bound := by
  obtain ⟨spawning, -⟩ := advance_spawning busy advanced
  obtain ⟨engine, stepped, rfl⟩ := advance_some advanced
  have moves : Engine.Label.moves (M := M) (.act i action) := goes
  exact Node.rank_lt bound rfl spawning (.inr (.inl (Engine.rank_lowers runs.departure moves stepped)))

theorem setChild_rank {node next : Node M W} (bound : Nat) (busy : ∀ j, Busy node j (node.errand j))
    (errand : node.errand i = .spawnChild child spawned)
    (advanced : node.advance i (.spawnChild child) = some next) : next.rank bound < node.rank bound := by
  obtain ⟨spawning, fewer⟩ := advance_spawning busy advanced
  obtain ⟨engine, stepped, rfl⟩ := advance_some advanced
  exact Node.rank_lt bound rfl spawning (.inl (fewer (by rw [errand]; rfl)))

/-- An errand that goes on. -/
theorem assign_rank {node : Node M W} {errand : Errand} (bound : Nat) (inside : i < node.engine.pool.length)
    (spawns : errand.spawns = (node.errand i).spawns) (falls : errand.left < (node.errand i).left) :
    (node.assign i errand).rank bound < node.rank bound := by
  have same : (node.assign i errand).spawning = node.spawning := by
    refine Finset.sum_congr rfl fun j _ => ?_
    by_cases here : j = i
    · simp [Node.assign, here, spawns]
    · simp [Node.assign, here]
  refine Node.rank_lt bound rfl same.le (.inr (.inr ⟨rfl, ?_⟩))
  refine Finset.sum_lt_sum (fun j _ => ?_) ⟨i, Finset.mem_range.mpr inside, ?_⟩
  · by_cases here : j = i
    · simp [Node.assign, here, falls.le]
    · simp [Node.assign, here]
  · simpa [Node.assign] using falls

omit [Inhabited M] in
theorem ahead_mono {fewer more : Nat} (le : fewer ≤ more) (g : Goroutine M) : g.ahead fewer ≤ g.ahead more := by
  cases g with
  | caller request pc => cases pc <;> exact Nat.le_refl _
  | proc r =>
    obtain ⟨base, replays, act⟩ := r
    cases act with
    | loop pc =>
      cases pc with
      | invoke msgs =>
        simp only [Goroutine.ahead, Act.ahead]
        omega
      | _ => exact Nat.le_refl _
    | receiving site => cases site <;> simp only [Goroutine.ahead, Act.ahead] <;> omega
    | _ =>
      simp only [Goroutine.ahead, Act.ahead]
      omega

/-- A child that leaves the map of its parent does not add to the parent's work. -/
theorem deleteChild_rank (bound : Nat) (node : Node M W) (child : PID) :
    (node.deleteChild child).rank bound ≤ node.rank bound := by
  have fewer : (node.engine.actor.deleteChild child).children.length ≤ node.engine.actor.children.length :=
    List.length_filter_le _ _
  have ahead : (node.engine.pool.map (Goroutine.ahead (node.engine.actor.deleteChild child).children.length)).sum ≤
      (node.engine.pool.map (Goroutine.ahead node.engine.actor.children.length)).sum :=
    List.sum_le_sum fun g _ => ahead_mono fewer g
  have engine : (node.deleteChild child).engine.rank ≤ node.engine.rank := by
    rw [Engine.State.rank, Engine.State.rank, Pool.rank, Pool.rank, Prod.Lex.toLex_le_toLex,
      Prod.Lex.toLex_le_toLex]
    refine .inr ⟨rfl, ?_⟩
    rcases Nat.lt_or_eq_of_le ahead with less | same
    · exact .inl less
    · exact .inr ⟨same, Nat.le_refl _⟩
  rw [Node.rank, Node.rank, Prod.Lex.toLex_le_toLex, Prod.Lex.toLex_le_toLex, Prod.Lex.toLex_le_toLex]
  refine .inr ⟨rfl, .inr ⟨rfl, ?_⟩⟩
  rcases lt_or_eq_of_le engine with less | same
  · exact .inl less
  · exact .inr ⟨same, Nat.le_refl _⟩

/-! Longer ids. -/

/-- What an actor has in its children map, poisons or spawns has a longer id. -/
structure Node.Deep (node : Node M W) : Prop where
  children : ∀ child ∈ node.engine.actor.children, node.pid.id.length < child.id.length
  poisons : ∀ (i : Nat) r rest child, node.engine.pool[i]? = some (.proc r) → r.act.awaits = some rest →
    some child ∈ rest → node.pid.id.length < child.id.length
  spawns : ∀ i child spawned, node.errand i = .spawnChild child spawned →
    node.pid.id.length < child.id.length

theorem newPID_longer (address name id : String) (pid : PID) :
    pid.id.length < (newPID address (pid.id ++ pidSeparator ++ name) id).id.length := by
  simp only [newPID, pidSeparator, String.length_append]
  have separator : "/".length = 1 := rfl
  omega

namespace Node.Deep
variable {node next : Node M W}

theorem advance (deep : node.Deep) (runs : Engine.Runs node.engine) (calm : action.calm = true)
    (advanced : node.advance i action = some next)
    (children : ∀ child ∈ next.engine.actor.children, node.pid.id.length < child.id.length) : next.Deep := by
  have pid : next.pid = node.pid := (advance_evolves calm advanced).pid
  constructor
  · rw [pid]
    exact children
  · intro j r rest child found waits member
    rw [pid]
    rcases advance_awaits runs advanced calm found waits with ⟨q, old, held⟩ | ⟨q, old, awaits⟩
    · exact deep.poisons j q rest child old held member
    · obtain ⟨base, replays, act⟩ := q
      dsimp only at awaits
      cases awaits with
      | kept held => exact deep.poisons i _ rest child old held member
      | poisoned => exact deep.poisons i _ _ child old rfl (List.mem_cons_of_mem _ member)
      | childless => cases member
      | read =>
        rcases List.mem_append.mp member with listed | padded
        · obtain ⟨kid, present, same⟩ := List.mem_map.mp listed
          cases same
          exact deep.children child present
        · cases List.eq_of_mem_replicate padded
  · intro j child spawned errand
    obtain ⟨engine, -, rfl⟩ := advance_some advanced
    by_cases here : j = i
    · simp [Node.assign, here] at errand
    · exact deep.spawns j child spawned (by simpa [Node.assign, here] using errand)

theorem goes (deep : node.Deep) (runs : Engine.Runs node.engine)
    (plain : action = .step ∨ action = .receive .returns) (advanced : node.advance i action = some next) :
    next.Deep := by
  have calm : action.calm = true := by rcases plain with rfl | rfl <;> rfl
  refine deep.advance runs calm advanced ?_
  rw [advance_children runs advanced plain]
  exact deep.children

theorem setChild (deep : node.Deep) (runs : Engine.Runs node.engine)
    (errand : node.errand i = .spawnChild child spawned)
    (advanced : node.advance i (.spawnChild child) = some next) : next.Deep := by
  refine deep.advance runs rfl advanced ?_
  rw [setChild_children advanced]
  intro kid member
  simp only [Actor.setChild, Actor.deleteChild, List.mem_append, List.mem_filter, List.mem_singleton] at member
  rcases member with ⟨listed, -⟩ | rfl
  · exact deep.children kid listed
  · exact deep.spawns i kid spawned errand

theorem deleteChild (deep : node.Deep) (child : PID) : (node.deleteChild child).Deep :=
  ⟨fun kid member => deep.children kid (List.mem_of_mem_filter member), deep.poisons, deep.spawns⟩

theorem enter (deep : node.Deep) (call : Engine.Call M) :
    Node.Deep { node with engine := Tree.enter node.engine call } := by
  refine ⟨deep.children, fun j r rest child found waits member => ?_, deep.spawns⟩
  change (node.engine.pool ++ _)[j]? = some (.proc r) at found
  rw [List.getElem?_append] at found
  split at found
  · exact deep.poisons j r rest child found waits member
  · rw [List.getElem?_singleton] at found
    split at found <;> cases found

theorem assign (deep : node.Deep) {errand : Errand}
    (longer : ∀ child spawned, errand = .spawnChild child spawned → node.pid.id.length < child.id.length) :
    (node.assign i errand).Deep := by
  refine ⟨deep.children, deep.poisons, fun j child spawned held => ?_⟩
  by_cases here : j = i
  · exact longer child spawned (by simpa [Node.assign, here] using held)
  · exact deep.spawns j child spawned (by simpa [Node.assign, here] using held)

end Node.Deep

theorem new_deep (pid : PID) (parent : Option Nat) (opts : Opts W) (positive : 0 < opts.inboxSize) :
    Node.Deep (.new pid parent opts positive : Node M W) := by
  refine ⟨fun child member => (nomatch member), ?_, fun i child spawned errand => (nomatch errand)⟩
  intro i r rest child found waits
  rw [Node.new, Engine.initial, List.getElem?_singleton] at found
  split at found
  · cases found
    cases waits
  · cases found

theorem deep_put {s : State M W} {node next : Node M W} (deep : ∀ node ∈ s.nodes, node.Deep)
    (there : s.nodes[n]? = some node) (mine : node.Deep → next.Deep) : ∀ node ∈ (s.put n next).nodes, node.Deep := by
  intro b member
  rcases List.mem_or_eq_of_mem_set member with old | rfl
  · exact deep b old
  · exact mine (deep node (List.mem_of_getElem? there))

theorem deep_look {s : State M W} {nodes : List (Node M W)} (deep : ∀ node ∈ s.nodes, node.Deep)
    (look : Look s target call pc nodes pc') : ∀ node ∈ nodes, node.Deep := by
  cases look with
  | present | absent | lost => exact deep
  | found known there => exact deep_put deep there fun deep => deep.enter call

theorem deep_modify {nodes : List (Node M W)} (deep : ∀ node ∈ nodes, node.Deep) (f : Node M W → Node M W)
    (kept : ∀ node, node.Deep → (f node).Deep) : ∀ node ∈ nodes.modify n f, node.Deep := by
  intro b member
  obtain ⟨k, found⟩ := List.mem_iff_getElem?.mp member
  rw [List.getElem?_modify] at found
  obtain ⟨a, there, same⟩ := Option.map_eq_some_iff.mp found
  have old := deep a (List.mem_of_getElem? there)
  split at same
  · exact same ▸ kept a old
  · exact same ▸ old

theorem Sound.deep {s t : State M W} (sound : Sound s) (deep : ∀ node ∈ s.nodes, node.Deep)
    (move : Move s label t) : ∀ node ∈ t.nodes, node.Deep := by
  have fresh {nodes : List (Node M W)} {added : Node M W} (old : ∀ node ∈ nodes, node.Deep)
      (new : added.Deep) : ∀ node ∈ nodes ++ [added], node.Deep := by
    intro b member
    rcases List.mem_append.mp member with earlier | last
    · exact old b earlier
    · exact List.mem_singleton.mp last ▸ new
  cases move with
  | spawn positive => exact fresh deep (new_deep _ _ _ positive)
  | taken | call => exact deep
  | caller look => exact deep_look deep look
  | step there _ _ _ advanced | cleanup there _ _ _ _ advanced | answered there _ _ advanced =>
    exact deep_put deep there fun deep => deep.goes (sound.runs _ _ there) (.inl rfl) advanced
  | returns there _ advanced =>
    exact deep_put deep there fun deep => deep.goes (sound.runs _ _ there) (.inr rfl) advanced
  | setChild there errand advanced =>
    exact deep_put deep there fun deep => deep.setChild (sound.runs _ _ there) errand advanced
  | deleted there _ _ _ _ advanced =>
    refine deep_modify ?_ _ fun node deep => deep.deleteChild _
    exact deep_put deep there fun deep => deep.goes (sound.runs _ _ there) (.inl rfl) advanced
  | poison there => exact deep_put deep there fun deep => deep.assign nofun
  | look there errand look => exact deep_modify (deep_look deep look) _ fun node deep => deep.assign nofun
  | spawnChild positive there _ _ _ named =>
    refine fresh (deep_put deep there fun deep => deep.assign ?_) (new_deep _ _ _ positive)
    rintro kid spawned ⟨⟩
    rw [named]
    exact newPID_longer _ _ _ _
  | rejected there _ _ _ named =>
    refine deep_put deep there fun deep => deep.assign ?_
    rintro kid spawned ⟨⟩
    rw [named]
    exact newPID_longer _ _ _ _

end Hollywood.Tree

namespace Hollywood
variable {M W : Type} [Inhabited M]

/-- A goroutine goes on as what it is. -/
inductive Goroutine.Continues : Goroutine M → Goroutine M → Prop where
  | caller : Continues (.caller request pc) (.caller request pc')
  | proc : Continues (.proc r) (.proc r')

omit [Inhabited M] in
theorem Goroutine.Continues.refl (g : Goroutine M) : g.Continues g := by
  cases g <;> constructor

omit [Inhabited M] in
theorem Goroutine.Continues.trans {g h k : Goroutine M} (first : g.Continues h) (second : h.Continues k) :
    g.Continues k := by
  cases first <;> cases second <;> constructor

theorem Actor.Advance.continues {a : Actor M W} (advance : a.Advance g action b next spawned) :
    g.Continues next := by
  cases advance <;> constructor

namespace Engine

/-- Goroutines stay where they are in the pool, and stop requests that found the actor are
not forgotten. -/
theorem reaches_frame {admits : State M W → Label M → Bool} {s t : State M W}
    (path : Transition.Reaches (Transition.restrict admits State.step) s t) :
    s.actor.accepted ⊆ t.actor.accepted ∧
      ∀ (i : Nat) g, s.pool[i]? = some g → ∃ h, t.pool[i]? = some h ∧ g.Continues h := by
  induction path with
  | refl => exact ⟨List.Subset.refl _, fun i g found => ⟨g, found, .refl g⟩⟩
  | next _ stepped ih =>
    obtain ⟨taken, kept⟩ := ih
    rcases step_cases (Transition.restrict_some stepped).2 with ⟨call, -, rfl⟩ | ⟨child, -, rfl⟩ |
      ⟨j, action, g, b, next, spawned, -, found, advance, rfl⟩
    · refine ⟨taken, fun i g before => ?_⟩
      obtain ⟨h, later, continues⟩ := kept i g before
      exact ⟨h, by rw [State.call, List.getElem?_append_left (List.getElem?_eq_some_iff.mp later).1, later], continues⟩
    · exact ⟨taken, kept⟩
    · refine ⟨List.Subset.trans taken advance.grows, fun i first before => ?_⟩
      obtain ⟨h, later, continues⟩ := kept i first before
      have inside := (List.getElem?_eq_some_iff.mp later).1
      rw [List.getElem?_append_left (by simpa using inside), List.getElem?_set]
      split
      · rename_i same
        subst same
        rw [found] at later
        cases later
        exact ⟨next, if_pos inside, continues.trans advance.continues⟩
      · exact ⟨h, later, continues⟩

/-- The goroutine that spawned the actor is the first of the pool. -/
theorem Runs.spawner {s : State M W} (runs : Runs s) : ∃ r, s.pool[0]? = some (.proc r) := by
  obtain ⟨opts, positive, parent, reached⟩ := runs
  obtain ⟨h, there, continues⟩ := (reaches_frame reached).2 0 _ rfl
  cases continues with
  | proc => exact ⟨_, there⟩

end Engine
end Hollywood

namespace Hollywood.Tree
open Transition
variable {M W : Type} [Inhabited M] {id : String} {n m c i j : Nat}

/-- What a goroutine on an errand waits for: the child it has spawned, or the actor in which
its pill is. -/
def State.Engages (s : State M W) : Errand → Prop
  | .spawnChild child (some c) => ∃ kid, s.nodes[c]? = some kid ∧ kid.pid = child
  | .poison child (.inside m goroutine ctx) => ∃ kid request pc, s.nodes[m]? = some kid ∧
      kid.pid.id = child.id ∧ ctx ∈ kid.engine.actor.accepted ∧
      kid.engine.pool[goroutine]? = some (.caller request pc)
  | _ => True

theorem Follows.forth {s t : State M W} {a : Node M W} (follows : Follows s t) (there : s.nodes[m]? = some a) :
    ∃ b, t.nodes[m]? = some b ∧ a.Evolves b := by
  obtain ⟨nodes, moved, more⟩ := follows
  have related := moved m
  rw [there] at related
  generalize found : nodes[m]? = x at related
  cases related with
  | @some _ b evolves =>
    refine ⟨b, ?_, evolves⟩
    rcases more with same | ⟨new, -, same⟩
    · rw [same, found]
    · rw [same, List.getElem?_append_left (List.getElem?_eq_some_iff.mp found).1, found]

theorem State.Engages.follows {s t : State M W} {errand : Errand} (engages : s.Engages errand)
    (follows : Follows s t) : t.Engages errand := by
  cases errand with
  | none => trivial
  | spawnChild child spawned =>
    cases spawned with
    | none => trivial
    | some c =>
      obtain ⟨kid, there, pid⟩ := engages
      obtain ⟨later, found, evolves⟩ := follows.forth there
      exact ⟨later, found, evolves.pid.trans pid⟩
  | poison child pc =>
    cases pc with
    | inside m goroutine ctx =>
      obtain ⟨kid, request, pc, there, named, taken, sent⟩ := engages
      obtain ⟨later, found, evolves⟩ := follows.forth there
      obtain ⟨grown, kept⟩ := Engine.reaches_frame evolves.runs
      obtain ⟨h, still, continues⟩ := kept goroutine _ sent
      cases continues with
      | caller => exact ⟨later, request, _, found, by rw [evolves.pid, named], grown taken, still⟩
    | _ => trivial

/-- The pill of a lookup that finds the actor is in it. -/
theorem look_engages {s : State M W} {nodes : List (Node M W)} {child : PID}
    (look : Look s child .poison pc nodes pc') : State.Engages { s with nodes := nodes } (.poison child pc') := by
  cases look with
  | present | absent | lost => trivial
  | @found m node known there =>
    obtain ⟨same, found, -, named⟩ := get_some known
    rw [there] at found
    cases found
    refine ⟨{ node with engine := enter node.engine .poison }, .poison true node.engine.contexts,
      .inbox (Request.pc (.poison true node.engine.contexts)), put_self there _, named, ?_, ?_⟩
    · exact List.mem_append_right _ (List.mem_singleton_self _)
    · exact List.getElem?_concat_length

theorem Node.assign_errand (node : Node M W) (i j : Nat) (errand : Errand) :
    (node.assign i errand).errand j = errand ∨ (node.assign i errand).errand j = node.errand j := by
  by_cases here : j = i
  · exact .inl (if_pos here)
  · exact .inr (if_neg here)

theorem advance_assign {node next : Node M W} (advanced : node.advance i action = some next) (j : Nat) :
    next.errand j = .none ∨ next.errand j = node.errand j := by
  obtain ⟨engine, -, rfl⟩ := advance_some advanced
  exact node.assign_errand i j .none

/-- An errand is an old one, or its goroutine has just begun it or gone on with it. -/
theorem Move.errand {s t : State M W} (move : Move s label t) (there : t.nodes[n]? = some b) (i : Nat) :
    (∃ a, s.nodes[n]? = some a ∧ b.errand i = a.errand i) ∨ t.Engages (b.errand i) := by
  have put {k : Nat} {u : State M W} {node next b : Node M W} {errand : Errand} (known : s.nodes[k]? = some node)
      (found : (s.put k next).nodes[n]? = some b)
      (mine : next.errand i = errand ∨ next.errand i = node.errand i) (engages : u.Engages errand) :
      (∃ a, s.nodes[n]? = some a ∧ b.errand i = a.errand i) ∨ u.Engages (b.errand i) := by
    rcases put_some known found with ⟨rfl, rfl⟩ | ⟨-, old⟩
    · rcases mine with new | same
      · exact .inr (new ▸ engages)
      · exact .inl ⟨node, known, same⟩
    · exact .inl ⟨b, old, rfl⟩
  cases move with
  | spawn positive =>
    rcases append_some there with old | ⟨-, rfl⟩
    · exact .inl ⟨b, old, rfl⟩
    · exact .inr trivial
  | taken | call => exact .inl ⟨b, there, rfl⟩
  | caller look =>
    obtain ⟨a, old, same⟩ := look_errand look there
    exact .inl ⟨a, old, by rw [same]⟩
  | step known _ _ _ advanced | cleanup known _ _ _ _ advanced | answered known _ _ advanced
  | returns known _ advanced | setChild known _ advanced =>
    exact put known there (advance_assign advanced i) trivial
  | poison known | rejected known => exact put known there (Node.assign_errand _ _ _ _) trivial
  | deleted known _ _ _ _ advanced =>
    rw [List.getElem?_modify] at there
    obtain ⟨a, found, same⟩ := Option.map_eq_some_iff.mp there
    have errand : b.errand = a.errand := by
      rw [← same]
      split <;> rfl
    rw [errand]
    exact put known found (advance_assign advanced i) trivial
  | @look k node child pc nodes pc' j known errand look =>
    have engages : State.Engages { s with nodes := nodes.modify k (·.assign j (.poison child pc')) }
        (.poison child pc') := by
      refine (look_engages look).follows ⟨_, fun m => ?_, .inl rfl⟩
      exact Pool.rel_modify .refl _ (fun other _ => assign_evolves _ _ _) m
    rw [List.getElem?_modify] at there
    obtain ⟨a, found, same⟩ := Option.map_eq_some_iff.mp there
    obtain ⟨before, old, errands⟩ := look_errand look found
    split at same
    · rcases a.assign_errand j i (.poison child pc') with new | kept
      · exact .inr (by rw [← same, new]; exact engages)
      · exact .inl ⟨before, old, by rw [← same, kept, errands]⟩
    · exact .inl ⟨before, old, by rw [← same, ← errands]⟩
  | spawnChild positive known found position free named missing =>
    rename_i k node j child name opts r site id
    rcases append_some there with old | ⟨-, rfl⟩
    · have last : (s.nodes.set k (node.assign j (.spawnChild child (some s.nodes.length))) ++
          [.new child (some k) opts positive])[s.nodes.length]? =
          some (.new child (some k) opts positive : Node M W) := by
        rw [List.getElem?_append_right (by simp), List.length_set, Nat.sub_self]
        rfl
      exact put known old (Node.assign_errand _ _ _ _) ⟨_, last, rfl⟩
    · exact .inr trivial

/-- What every tree of actors keeps to. -/
structure Steady (s : State M W) : Prop where
  sound : Sound s
  deep : ∀ node ∈ s.nodes, node.Deep
  engaged : ∀ (n : Nat) node i, s.nodes[n]? = some node → s.Engages (node.errand i)

theorem Steady.next {s t : State M W} (steady : Steady s) (stepped : s.step label = some t) : Steady t := by
  obtain ⟨move, running⟩ := step_move stepped
  refine ⟨steady.sound.move move running, steady.sound.deep steady.deep move, fun n b i there => ?_⟩
  rcases move.errand there i with ⟨a, old, same⟩ | engages
  · rw [same]
    exact (steady.engaged n a i old).follows (move.follows running)
  · exact engages

theorem initial_steady (address : String) : Steady (initial address : State M W) :=
  ⟨initial_sound address, fun _ member => (nomatch member), fun n node i there => by simp [initial] at there⟩

/-! The work of a tree. -/

def CallPc.left : CallPc → Nat
  | .sendPoisonPill => 2
  | .lookup => 1
  | _ => 0

/-- The lookups of the callers count most, then the work of the actors. -/
def State.rank (bound : Nat) (s : State M W) : Nat × Multiset (Nat ×ₗ Nat ×ₗ (Nat ×ₗ Nat ×ₗ Nat) ×ₗ Nat) :=
  ((s.calls.map (·.pc.left)).sum, s.nodes.map (Node.rank bound))

def Lower : Nat × Multiset (Nat ×ₗ Nat ×ₗ (Nat ×ₗ Nat ×ₗ Nat) ×ₗ Nat) →
    Nat × Multiset (Nat ×ₗ Nat ×ₗ (Nat ×ₗ Nat ×ₗ Nat) ×ₗ Nat) → Prop :=
  Prod.Lex (· < ·) Multiset.IsDershowitzMannaLT

theorem lower_wellFounded : WellFounded Lower :=
  WellFounded.prod_lex wellFounded_lt Multiset.wellFounded_isDershowitzMannaLT

theorem look_left {s : State M W} {nodes : List (Node M W)} (look : Look s target call pc nodes pc') :
    pc'.left < pc.left := by
  cases look with
  | present | absent | lost | found => simp [CallPc.left]

/-- An actor goes on in its own process. -/
theorem put_lower {s : State M W} {node next : Node M W} {bound : Nat} (there : s.nodes[n]? = some node)
    (falls : next.rank bound < node.rank bound) : Lower ((s.put n next).rank bound) (s.rank bound) := by
  refine Prod.Lex.right _ (Pool.multiset_lt there (put_self there next) falls ?_)
  refine Pool.rel_set (fun a => .inl le_rfl) fun a found => ?_
  rw [there] at found
  cases found
  exact .inl falls.le

/-- The actor that is found by the pill of an errand is another one, of a longer id. -/
theorem Steady.errand_longer {s : State M W} {node : Node M W} {child : PID} (steady : Steady s)
    (there : s.nodes[n]? = some node) (errand : node.errand i = .poison child pc) :
    node.pid.id.length < child.id.length := by
  obtain ⟨r, reason, rest, found, position⟩ := steady.sound.poisoning there errand
  have waits : r.act.awaits = some (some child :: rest) := by
    rw [position]
    rfl
  exact (steady.deep node (List.mem_of_getElem? there)).poisons i r _ child found waits List.mem_cons_self

theorem look_lower {s : State M W} {node : Node M W} {nodes : List (Node M W)} {child : PID} {bound : Nat}
    (steady : Steady s) (bounded : ∀ node ∈ s.nodes, node.pid.id.length ≤ bound)
    (there : s.nodes[n]? = some node) (errand : node.errand i = .poison child pc)
    (look : Look s child .poison pc nodes pc') :
    Lower (State.rank bound { s with nodes := nodes.modify n (·.assign i (.poison child pc')) })
      (s.rank bound) := by
  have longer := steady.errand_longer there errand
  obtain ⟨r, reason, rest, inside, -⟩ := steady.sound.poisoning there errand
  have falls : (node.assign i (.poison child pc')).rank bound < node.rank bound := by
    refine assign_rank bound (List.getElem?_eq_some_iff.mp inside).1 ?_ ?_
    · rw [errand]
      rfl
    · rw [errand]
      cases look with
      | present | absent | lost | found => simp [Errand.left]
  -- the actor that was found, if any, has a longer id
  have others : nodes[n]? = some node ∧ ∀ k : Nat, Option.Rel
      (fun a b => b.rank bound ≤ a.rank bound ∨ b.rank bound < node.rank bound) s.nodes[k]? nodes[k]? := by
    cases look with
    | present | absent | lost => exact ⟨there, Pool.rel_refl fun a => .inl le_rfl⟩
    | @found m kid known found =>
      obtain ⟨same, present, -, named⟩ := get_some known
      rw [found] at present
      cases present
      have depth : bound - kid.pid.id.length < bound - node.pid.id.length := by
        have fits := bounded kid (List.mem_of_getElem? found)
        rw [named] at fits ⊢
        omega
      have other : n ≠ m := by
        rintro rfl
        rw [there] at found
        cases found
        exact absurd depth (lt_irrefl _)
      refine ⟨by rw [List.getElem?_set_ne other.symm, there], Pool.rel_set (fun a => .inl le_rfl) fun a at_ => ?_⟩
      right
      rw [Node.rank, Node.rank, Prod.Lex.toLex_lt_toLex]
      exact .inl depth
  refine Prod.Lex.right _ (Pool.multiset_lt there ?_ falls fun k => ?_)
  · rw [List.getElem?_modify, others.1]
    simp
  · rw [List.getElem?_modify]
    have related := others.2 k
    by_cases here : n = k
    · subst here
      rw [others.1, there]
      simp only [if_true]
      exact .some (.inl falls.le)
    · simpa [here] using related

theorem deleted_lower {s : State M W} {node next : Node M W} {bound : Nat} (sound : Sound s)
    (there : s.nodes[n]? = some node) (parent : node.parent = some m)
    (falls : next.rank bound < node.rank bound) :
    Lower (State.rank bound { s with nodes := (s.nodes.set n next).modify m (·.deleteChild node.pid) })
      (s.rank bound) := by
  have elder := sound.elder n node m there parent
  have other : m ≠ n := Nat.ne_of_lt elder
  refine Prod.Lex.right _ (Pool.multiset_lt there ?_ falls fun k => ?_)
  · rw [List.getElem?_modify, List.getElem?_set_self (List.getElem?_eq_some_iff.mp there).1]
    simp [other]
  · rw [List.getElem?_modify]
    by_cases here : k = n
    · subst here
      rw [List.getElem?_set_self (List.getElem?_eq_some_iff.mp there).1, there]
      simp only [other, if_false]
      exact .some (.inl falls.le)
    · rw [List.getElem?_set_ne (Ne.symm here)]
      cases s.nodes[k]? with
      | none => exact .none
      | some a =>
        refine .some (.inl ?_)
        dsimp only
        split
        · exact deleteChild_rank bound a _
        · exact le_rfl

theorem caller_lower {s t : State M W} {bound k : Nat} (stepped : s.step (.caller k) = some t) :
    Lower (t.rank bound) (s.rank bound) := by
  unfold State.step at stepped
  split at stepped
  · cases stepped
  · obtain ⟨caller, found, stepped⟩ := Option.bind_eq_some_iff.mp stepped
    obtain ⟨⟨nodes, pc⟩, looked, stepped⟩ := Option.bind_eq_some_iff.mp stepped
    cases stepped
    have sums := Pool.sum_step (fun caller : Caller M => caller.pc.left) found { caller with pc := pc } []
    have falls := look_left (look_look looked)
    refine Prod.Lex.left _ _ ?_
    simp only [List.append_nil, List.map_nil, List.sum_nil] at sums
    dsimp only
    omega

theorem Steady.lower {s t : State M W} {bound : Nat} (steady : Steady s)
    (bounded : ∀ node ∈ s.nodes, node.pid.id.length ≤ bound) (moves : label.moves)
    (stepped : s.step label = some t) : Lower (t.rank bound) (s.rank bound) := by
  have runs {n : Nat} {node : Node M W} (there : s.nodes[n]? = some node) := steady.sound.runs n node there
  have busy {n : Nat} {node : Node M W} (there : s.nodes[n]? = some node) := fun j => steady.sound.busy n node j there
  have steps : Action.goes .step := trivial
  have returns : Action.goes (.receive .returns) := trivial
  cases (step_move stepped).1 with
  | spawn | taken | call | spawnChild | rejected => cases moves
  | caller => exact caller_lower stepped
  | step there _ _ _ advanced | cleanup there _ _ _ _ advanced | answered there _ _ advanced =>
    exact put_lower there (advance_rank (runs there) bound (busy there) steps advanced)
  | returns there _ advanced =>
    exact put_lower there (advance_rank (runs there) bound (busy there) returns advanced)
  | setChild there errand advanced => exact put_lower there (setChild_rank bound (busy there) errand advanced)
  | deleted there _ _ _ parent advanced =>
    exact deleted_lower steady.sound there parent (advance_rank (runs there) bound (busy there) steps advanced)
  | poison there found _ free =>
    refine put_lower there (assign_rank bound (List.getElem?_eq_some_iff.mp found).1 ?_ ?_)
    · rw [free]
      rfl
    · rw [free]
      simp [Errand.left]
  | look there errand look => exact look_lower steady bounded there errand look

/-- The moves add no actor. -/
theorem Move.length {s t : State M W} (move : Move s label t) (moves : label.moves) :
    t.nodes.length = s.nodes.length := by
  cases move with
  | spawn | taken | call | spawnChild | rejected => cases moves
  | caller look => exact look_length look
  | look _ _ look => exact (List.length_modify _ _ _).trans (look_length look)
  | deleted => simp
  | _ => exact List.length_set

theorem Move.bounded {s t : State M W} {bound : Nat} (move : Move s label t) (moves : label.moves)
    (running : ∀ node ∈ s.nodes, node.engine.pool.any Goroutine.crashed = false)
    (bounded : ∀ node ∈ s.nodes, node.pid.id.length ≤ bound) : ∀ node ∈ t.nodes, node.pid.id.length ≤ bound := by
  intro b member
  obtain ⟨m, there⟩ := List.mem_iff_getElem?.mp member
  rcases (move.follows running).back there with ⟨a, old, evolves⟩ | ⟨beyond, -⟩
  · rw [evolves.pid]
    exact bounded a (List.mem_of_getElem? old)
  · have inside := (List.getElem?_eq_some_iff.mp there).1
    rw [move.length moves, beyond] at inside
    exact absurd inside (lt_irrefl _)

/-! Where nothing can be done any more. -/

theorem Steady.running {s : State M W} (steady : Steady s) :
    (s.nodes.any fun node => node.engine.pool.any Goroutine.crashed) = false := by
  refine List.any_eq_false.mpr fun node member => ?_
  obtain ⟨m, there⟩ := List.mem_iff_getElem?.mp member
  simpa using fun g member => (steady.sound.runs m node there).survives g member

theorem advance_enabled {node : Node M W} (runs : Engine.Runs node.engine) (found : node.engine.pool[i]? = some g)
    (acts : node.engine.actor.act g action ≠ none) : node.advance i action ≠ none := by
  obtain ⟨⟨b, next, spawned⟩, acted⟩ := Option.ne_none_iff_exists'.mp acts
  have alive : node.engine.pool.any Goroutine.crashed = false := List.any_eq_false.mpr fun g member => by
    simp [runs.survives g member]
  simp [Node.advance, Engine.State.step, alive, found, acted]

/-- A goroutine that is not on an errand can go on. -/
theorem proceed_enabled {s : State M W} {node : Node M W} (runs : Engine.Runs node.engine)
    (found : node.engine.pool[i]? = some g) (busy : g.done = false) :
    s.proceed n i node g .step ≠ none ∨ s.proceed n i node g .returns ≠ none := by
  have member := List.mem_of_getElem? found
  obtain ⟨action, goes, acts⟩ :=
    Actor.act_enabled (runs.departure.inside g member).1 (runs.survives g member) busy
  have enabled := advance_enabled runs found acts
  cases action with
  | spawnChild child => cases goes
  | receive outcome =>
    cases outcome with
    | panics v => cases goes
    | returns => exact .inr (by simpa [State.proceed] using enabled)
  | step =>
    left
    cases g with
    | caller request pc => simpa [State.proceed] using enabled
    | proc r =>
      simp only [State.proceed]
      split
      · simpa [State.cleanup] using enabled
      · exact Option.some_ne_none _
      · simpa using enabled

theorem look_enabled {s : State M W} (target : PID) (call : Engine.Call M) {pc : CallPc} (open_ : pc.ended = false) :
    s.look target call pc ≠ none := by
  cases pc with
  | sendPoisonPill => exact Option.some_ne_none _
  | lookup =>
    cases known : s.get target with
    | none => simp [State.look, known]
    | some m =>
      obtain ⟨node, there, -⟩ := get_some known
      simp [State.look, known, there]
  | inside | refused | lost => cases open_

/-- A goroutine in `cleanup` waits for the context of a pill that nobody will cancel: the
child has left the registry between the two lookups, or it is at rest with the request, which
was not the only one, or was cleared away. -/
def State.Hung (s : State M W) : Prop :=
  ∃ (n : Nat) (node : Node M W) (i : Nat) (child : PID) (pc : CallPc), s.nodes[n]? = some node ∧
    node.errand i = .poison child pc ∧
      (pc = .lost ∨ ∃ m goroutine ctx kid, pc = .inside m goroutine ctx ∧ s.nodes[m]? = some kid ∧
        kid.engine.quiescent = true ∧ ctx ∉ kid.engine.actor.cancelled ∧
        (2 ≤ kid.engine.actor.accepted.length ∨ .clear ∈ kid.engine.actor.ops))

/-- `SpawnChild` returns once the child has started. -/
theorem Steady.spawning_enabled {s : State M W} {node : Node M W} (steady : Steady s)
    (there : s.nodes[n]? = some node) (errand : node.errand i = .spawnChild child spawned)
    (below : ∀ (m : Nat) kid, s.nodes[m]? = some kid → node.pid.id.length < kid.pid.id.length →
      kid.engine.quiescent = true) : s.act n i .step ≠ none := by
  have runs := steady.sound.runs n node there
  obtain ⟨r, site, found, position⟩ := steady.sound.spawning there errand
  have acts : node.engine.actor.act (.proc r) (.spawnChild child) ≠ none := by simp [Actor.act, position]
  have started : (spawned.all fun c => s.nodes[c]?.any Node.started) = true := by
    cases spawned with
    | none => rfl
    | some c =>
      have engaged := steady.engaged n node i there
      rw [errand] at engaged
      obtain ⟨kid, present, pid⟩ := engaged
      have deeper := (steady.deep node (List.mem_of_getElem? there)).spawns i child _ errand
      have quiet := below c kid present (pid ▸ deeper)
      obtain ⟨q, first⟩ := (steady.sound.runs c kid present).spawner
      have done := List.all_eq_true.mp quiet _ (List.mem_of_getElem? first)
      obtain ⟨base, replays, act⟩ := q
      cases act with
      | returned => simp [present, Node.started, first]
      | _ => cases done
  simpa [State.act, there, found, errand, started] using advance_enabled runs found acts

/-- `cleanup` goes on with the next child once the context of the pill is cancelled. -/
theorem Steady.poisoning_enabled {s : State M W} {node : Node M W} (steady : Steady s) (fine : ¬ s.Hung)
    (there : s.nodes[n]? = some node) (errand : node.errand i = .poison child pc)
    (below : ∀ (m : Nat) kid, s.nodes[m]? = some kid → node.pid.id.length < kid.pid.id.length →
      kid.engine.quiescent = true) : s.act n i .step ≠ none := by
  have runs := steady.sound.runs n node there
  obtain ⟨r, reason, rest, found, position⟩ := steady.sound.poisoning there errand
  have acts : node.engine.actor.act (.proc r) .step ≠ none := by simp [Actor.act, Actor.step, position]
  by_cases answered : s.answered pc = true
  · simpa [State.act, there, found, errand, answered] using advance_enabled runs found acts
  · have looks : s.look child .poison pc ≠ none := by
      cases pc with
      | sendPoisonPill | lookup => exact look_enabled child .poison rfl
      | refused => exact absurd rfl answered
      | lost => exact absurd ⟨n, node, i, child, _, there, errand, .inl rfl⟩ fine
      | inside m goroutine ctx =>
        have engaged := steady.engaged n node i there
        rw [errand] at engaged
        obtain ⟨kid, request, pc, present, named, taken, sent⟩ := engaged
        have quiet := below m kid present (named ▸ steady.errand_longer there errand)
        have done := List.all_eq_true.mp quiet _ (List.mem_of_getElem? sent)
        cases pc with
        | returned =>
          have open_ : ctx ∉ kid.engine.actor.cancelled := by
            simpa [State.answered, present, Node.answered, sent] using answered
          have unanswered := (steady.sound.runs m kid present).unanswered quiet taken open_
          exact absurd ⟨n, node, i, child, _, there, errand, .inr ⟨m, goroutine, ctx, kid, rfl, present, quiet,
            open_, unanswered⟩⟩ fine
        | _ => cases done
    simpa [State.act, there, found, errand, answered] using looks

/-- An actor comes to rest when those of longer ids have. -/
theorem Steady.rests {s : State M W} (steady : Steady s) (stuck : Stuck State.step Label.moves s)
    (fine : ¬ s.Hung) {node : Node M W} (there : s.nodes[n]? = some node)
    (below : ∀ (m : Nat) kid, s.nodes[m]? = some kid → node.pid.id.length < kid.pid.id.length →
      kid.engine.quiescent = true) : node.engine.quiescent = true := by
  have blocked (i : Nat) (action : Action W) (moves : Label.moves (.act n i action : Label M W)) :
      s.act n i action = none := by
    have none := stuck (.act n i action) moves
    rwa [State.step, steady.running] at none
  rw [Engine.State.quiescent, List.all_eq_true]
  intro g member
  by_contra busy
  obtain ⟨i, found⟩ := List.mem_iff_getElem?.mp member
  have stepping := blocked i .step trivial
  cases errand : node.errand i with
  | none =>
    have returning := blocked i .returns trivial
    simp only [State.act, there, found, errand, Option.bind_eq_bind, Option.bind_some] at stepping returning
    rcases proceed_enabled (steady.sound.runs n node there) found (Bool.eq_false_of_not_eq_true busy) with
      steps | returns
    · exact steps stepping
    · exact returns returning
  | spawnChild child spawned => exact steady.spawning_enabled there errand below stepping
  | poison child pc => exact steady.poisoning_enabled fine there errand below stepping

theorem Steady.quiescent {s : State M W} {bound : Nat} (steady : Steady s)
    (bounded : ∀ node ∈ s.nodes, node.pid.id.length ≤ bound) (stuck : Stuck State.step Label.moves s)
    (fine : ¬ s.Hung) : s.quiescent = true := by
  -- the longest ids first
  have rests (d n : Nat) (node : Node M W) (there : s.nodes[n]? = some node)
      (depth : bound - node.pid.id.length < d) : node.engine.quiescent = true := by
    induction d generalizing n node with
    | zero => exact absurd depth (Nat.not_lt_zero _)
    | succ d ih =>
      refine steady.rests stuck fine there fun m kid present longer => ih m kid present ?_
      have fits := bounded kid (List.mem_of_getElem? present)
      omega
  rw [State.quiescent, Bool.and_eq_true, List.all_eq_true, List.all_eq_true]
  constructor
  · intro node member
    obtain ⟨n, there⟩ := List.mem_iff_getElem?.mp member
    exact rests _ n node there (Nat.lt_succ_self _)
  · intro caller member
    by_contra open_
    obtain ⟨k, found⟩ := List.mem_iff_getElem?.mp member
    have blocked := stuck (.caller k) trivial
    rw [State.step, steady.running] at blocked
    have looks := look_enabled (s := s) caller.target caller.call (Bool.eq_false_of_not_eq_true open_)
    obtain ⟨⟨nodes, pc⟩, looked⟩ := Option.ne_none_iff_exists'.mp looks
    simp [found, looked] at blocked

/-- From every state of a tree of actors whose receivers return, the work ends under every
scheduling once nobody calls or spawns any more. Then every actor waits for mail or has left
the engine, unless a parent waits for the context of a pill that nobody will cancel. -/
theorem tree_comes_to_rest (address : String) (s : State M W) (reached : Reaches State.step (initial address) s) :
    Inevitable State.step Label.moves
      (fun t => t.Hung ∨ t.quiescent = true ∧ ∀ node ∈ t.nodes,
        node.engine.actor.inbox.procStatus = .idle ∧ node.engine.actor.inbox.rb.toList = [] ∧
            node.engine.actor.registered = true ∨
          node.engine.actor.inbox.procStatus = .stopped ∧ node.engine.actor.departed = true ∧
            node.engine.actor.parent = false) s := by
  have steady : Steady s := reached.invariant (P := Steady) (fun steady stepped => steady.next stepped)
    (initial_steady address)
  have longest : ∀ node ∈ s.nodes, node.pid.id.length ≤ (s.nodes.map (·.pid.id.length)).sum :=
    fun node member => List.le_sum_of_mem (List.mem_map_of_mem member)
  generalize (s.nodes.map (·.pid.id.length)).sum = bound at longest
  refine inevitable_of_wellFounded lower_wellFounded (State.rank bound)
    (I := fun t => Steady t ∧ ∀ node ∈ t.nodes, node.pid.id.length ≤ bound) ?_ ?_ ?_ ⟨steady, longest⟩
  · rintro t label u ⟨steady, bounded⟩ moves stepped
    obtain ⟨move, running⟩ := step_move stepped
    exact ⟨steady.next stepped, move.bounded moves running bounded⟩
  · exact fun known moves stepped => known.1.lower known.2 moves stepped
  · rintro t ⟨steady, bounded⟩ stuck
    by_cases hung : t.Hung
    · exact .inl hung
    · have quiet := steady.quiescent bounded stuck hung
      refine .inr ⟨quiet, fun node member => ?_⟩
      obtain ⟨n, there⟩ := List.mem_iff_getElem?.mp member
      refine (steady.sound.runs n node there).rested ?_
      exact List.all_eq_true.mp (Bool.and_eq_true_iff.mp quiet).1 node member

/-- The parent and the child are poisoned by two callers, who have made one lookup each. -/
theorem tree_comes_to_rest_two :
    ∃ s t : State Nat Nat, s.quiescent = false ∧ s.calls.map (·.pc) = [.lookup, .lookup] ∧
      Reaches State.step s t ∧ (t.Hung ∨ t.quiescent = true) := by
  obtain ⟨s, reached, ends⟩ := exists_of_run State.step (initial "local" : State Nat Nat)
    (family ++ [.call ⟨"local", "parent/1"⟩ .poison, .call ⟨"local", "parent/1/child/2"⟩ .poison,
      .caller 0, .caller 1])
    (fun s => s.quiescent = false ∧ s.calls.map (·.pc) = [.lookup, .lookup]) (by decide +kernel)
  obtain ⟨busy, calls⟩ := of_decide_eq_true ends
  obtain ⟨labels, t, -, ran, -, rest⟩ := (tree_comes_to_rest "local" s reached).exists_end
  exact ⟨s, t, busy, calls, reaches_of_run ran, rest.imp_right And.left⟩

end Hollywood.Tree
