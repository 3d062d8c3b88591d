import Hollywood.Tree.Registry
import Hollywood.Engine.StopRequests

/-! Whether the children map of an actor is exact. `SpawnChild` enters the id it has
asked for once the child runs, also when the registry has rejected the child, and a
child deletes its own id at the start of its `cleanup`, maybe before it was entered. -/
namespace Hollywood.Tree
open Transition
variable {M W : Type} [Inhabited M] {id : String} {n m c i j : Nat}

def CallPc.ended : CallPc → Bool
  | .inside _ _ _ | .refused | .lost => true
  | .sendPoisonPill | .lookup => false

namespace State

/-- Every goroutine has returned. -/
def quiescent (s : State M W) : Bool :=
  s.nodes.all (·.engine.quiescent) && s.calls.all (·.pc.ended)

/-- A child of a node under this id has yet to begin its `cleanup`. -/
def minds (s : State M W) (n : Nat) (child : PID) : Bool :=
  s.nodes.any fun kid => kid.parent = some n && kid.pid.id = child.id && kid.engine.actor.parent

end State

/-- When `SpawnChild` enters an id in the map, it is the id of a child that has yet to
begin its `cleanup`. -/
def entersLive (s : State M W) : Label M W → Bool
  | .act n i .step =>
    match s.doing n i with
    | some (.spawnChild child _, _) => s.minds n child
    | _ => true
  | _ => true

theorem minds_iff {s : State M W} {child : PID} : s.minds n child = true ↔
    ∃ (c : Nat) (kid : Node M W), s.nodes[c]? = some kid ∧ kid.parent = some n ∧
      kid.pid.id = child.id ∧ kid.engine.actor.parent = true := by
  simp only [State.minds, List.any_eq_true, Bool.and_eq_true, decide_eq_true_eq]
  constructor
  · rintro ⟨kid, member, ⟨parent, named⟩, flag⟩
    obtain ⟨c, present⟩ := List.mem_iff_getElem?.mp member
    exact ⟨c, kid, present, parent, named, flag⟩
  · rintro ⟨c, kid, present, parent, named, flag⟩
    exact ⟨kid, List.mem_of_getElem? present, ⟨parent, named⟩, flag⟩

theorem minds_put {s : State M W} {node next : Node M W} {child : PID} (there : s.nodes[n]? = some node)
    (evolves : node.Evolves next)
    (kept : node.parent = some m → node.engine.actor.parent = true → next.engine.actor.parent = true)
    (minds : s.minds m child = true) : (s.put n next).minds m child = true := by
  obtain ⟨c, kid, present, parent, named, flag⟩ := minds_iff.mp minds
  by_cases same : c = n
  · subst same
    rw [there] at present
    cases present
    refine minds_iff.mpr ⟨c, next, put_self there next, ?_, ?_, kept parent flag⟩
    · rw [evolves.parent, parent]
    · rw [evolves.pid, named]
  · exact minds_iff.mpr ⟨c, kid, by rw [put_other same, present], parent, named, flag⟩

/-- Every id in a map is that of a child that has yet to begin its `cleanup`. -/
structure Exact (s : State M W) : Prop where
  sound : Sound s
  children : ∀ (n : Nat) node, s.nodes[n]? = some node → ∀ pid ∈ node.engine.actor.children,
    s.minds n pid = true

theorem Exact.put {s : State M W} {node next : Node M W} (exact_ : Exact s)
    (there : s.nodes[n]? = some node) (evolves : node.Evolves next) (sound : Sound (s.put n next))
    (kept : ∀ m, node.parent = some m → node.engine.actor.parent = true →
      next.engine.actor.parent = true)
    (children : ∀ pid ∈ next.engine.actor.children, s.minds n pid = true) : Exact (s.put n next) where
  sound := sound
  children m b found pid member := by
    cases put_some there found with
    | inl same =>
      obtain ⟨rfl, rfl⟩ := same
      exact minds_put there evolves (kept m) (children pid member)
    | inr other => exact minds_put there evolves (kept m) (exact_.children m b other.2 pid member)

theorem advance_flag {node next : Node M W} (runs : Engine.Runs node.engine)
    (advanced : node.advance i action = some next) (calm : action.calm = true)
    (away : ∀ r reason, node.engine.pool[i]? = some (.proc r) → r.act ≠ .cleanup reason) :
    next.engine.actor.parent = node.engine.actor.parent := by
  obtain ⟨g, b, after, spawned, found, advance, rfl⟩ := advance_pool advanced
  have inside := (runs.departure.inside g (List.mem_of_getElem? found)).1
  cases advance with
  | moved move =>
    cases move.flag inside with
    | inl same => exact same
    | inr begun =>
      obtain ⟨reason, position, -⟩ := begun
      exact absurd position (away _ reason found)
  | @resumed r outcome site position =>
    cases outcome with
    | panics v => cases calm
    | returns => exact Actor.resume_flag _ _ _
  | _ => rfl

/-- A goroutine that is not at the start of `cleanup` goes on. -/
theorem Exact.advance {s : State M W} {node next : Node M W} (exact_ : Exact s)
    (there : s.nodes[n]? = some node) (advanced : node.advance i action = some next)
    (plain : action = .step ∨ action = .receive .returns) (sound : Sound (s.put n next))
    (away : ∀ r reason, node.engine.pool[i]? = some (.proc r) → r.act ≠ .cleanup reason) :
    Exact (s.put n next) := by
  have runs := exact_.sound.runs n node there
  have calm : action.calm = true := by
    cases plain with
    | inl step => rw [step]; rfl
    | inr returns => rw [returns]; rfl
  refine exact_.put there (advance_evolves calm advanced) sound ?_ ?_
  · exact fun m _ flag => (advance_flag runs advanced calm away).trans flag
  · rw [advance_children runs advanced plain]
    exact exact_.children n node there

theorem Exact.assign {s : State M W} {node : Node M W} {errand : Errand} (exact_ : Exact s)
    (there : s.nodes[n]? = some node) (sound : Sound (s.put n (node.assign i errand))) :
    Exact (s.put n (node.assign i errand)) :=
  exact_.put there (assign_evolves _ _ _) sound (fun _ _ flag => flag) (exact_.children n node there)

theorem Exact.look {s : State M W} {nodes : List (Node M W)} (exact_ : Exact s)
    (running : ∀ node ∈ s.nodes, node.engine.pool.any Goroutine.crashed = false)
    (look : Look s target call pc nodes pc') : Exact { s with nodes := nodes } := by
  have sound := exact_.sound.look running look
  cases look with
  | present | absent | lost => exact exact_
  | @found m node known there =>
    exact exact_.put there (enter_evolves running known there) sound (fun _ _ flag => flag)
      (exact_.children m node there)

theorem Exact.append {s : State M W} {new : Node M W} (exact_ : Exact s)
    (sound : Sound { s with nodes := s.nodes ++ [new] }) (childless : new.engine.actor.children = []) :
    Exact { s with nodes := s.nodes ++ [new] } where
  sound := sound
  children m b found pid member := by
    cases append_some found with
    | inl old =>
      have minds := exact_.children m b old pid member
      simp only [State.minds, List.any_append, Bool.or_eq_true] at minds ⊢
      exact .inl minds
    | inr added =>
      obtain ⟨rfl, rfl⟩ := added
      rw [childless] at member
      cases member

/-- A child takes its id out of the map together with the mark that it is there. -/
theorem Exact.deleteChild {s : State M W} {node next : Node M W} (exact_ : Exact s)
    (there : s.nodes[n]? = some node) (parent : node.parent = some m)
    (advanced : node.advance i .step = some next)
    (running : ∀ elder, (s.put n next).nodes[m]? = some elder →
      elder.engine.pool.any Goroutine.crashed = false)
    (sound : Sound { s with nodes := (s.nodes.set n next).modify m (·.deleteChild node.pid) }) :
    Exact { s with nodes := (s.nodes.set n next).modify m (·.deleteChild node.pid) } := by
  have runs := exact_.sound.runs n node there
  -- only the map of the parent can hold the id of this child
  have others (k : Nat) (b : Node M W) (present : (s.put n next).nodes[k]? = some b) (pid : PID)
      (member : pid ∈ b.engine.actor.children) (other : k = m → pid.id ≠ node.pid.id) :
      (s.put n next).minds k pid = true := by
    have minds : s.minds k pid = true := by
      cases put_some there present with
      | inl same =>
        obtain ⟨rfl, rfl⟩ := same
        rw [advance_children runs advanced (.inl rfl)] at member
        exact exact_.children _ node there pid member
      | inr old => exact exact_.children k b old.2 pid member
    obtain ⟨c, kid, born, own, named, flag⟩ := minds_iff.mp minds
    have distinct : c ≠ n := by
      rintro rfl
      rw [there] at born
      cases born
      rw [parent] at own
      cases own
      exact other rfl named.symm
    exact minds_iff.mpr ⟨c, kid, by rw [put_other distinct, born], own, named, flag⟩
  have elsewhere (k : Nat) (b : Node M W) (present : (s.put n next).nodes[k]? = some b) (away : k ≠ m) :
      ∀ pid ∈ b.engine.actor.children, (s.put n next).minds k pid = true :=
    fun pid member => others k b present pid member fun same => absurd same away
  refine ⟨sound, ?_⟩
  change ∀ (k : Nat) (b : Node M W), ((s.put n next).nodes.modify m (·.deleteChild node.pid))[k]? = some b →
    ∀ pid ∈ b.engine.actor.children,
      State.minds { s with nodes := (s.put n next).nodes.modify m (·.deleteChild node.pid) } k pid = true
  rw [List.modify_eq_set_getElem?]
  cases upper : (s.put n next).nodes[m]? with
  | none =>
    intro k b found
    have present : (s.put n next).nodes[k]? = some b := found
    refine elsewhere k b present ?_
    rintro rfl
    rw [upper] at present
    cases present
  | some elder =>
    intro k b present pid member
    have evolves := deleteChild_evolves elder node.pid (running elder upper)
    have kept {l : Nat} (held : (s.put n next).minds l pid = true) :
        ((s.put n next).put m (elder.deleteChild node.pid)).minds l pid = true :=
      minds_put upper evolves (fun _ flag => flag) held
    cases put_some upper present with
    | inl same =>
      obtain ⟨rfl, rfl⟩ := same
      obtain ⟨listed, away⟩ := List.mem_filter.mp member
      exact kept (others k elder upper pid listed fun _ => of_decide_eq_true away)
    | inr old => exact kept (elsewhere k b old.2 old.1 pid member)

theorem Exact.move {s t : State M W} (exact_ : Exact s) (move : Move s label t)
    (enters : entersLive s label = true)
    (running : ∀ node ∈ s.nodes, node.engine.pool.any Goroutine.crashed = false) : Exact t := by
  have sound := exact_.sound.move move running
  cases move with
  | spawn positive => exact exact_.append sound rfl
  | taken => exact exact_
  | call =>
    exact ⟨sound, exact_.children⟩
  | caller look => exact ⟨sound, (exact_.look running look).children⟩
  | step there found free plain advanced =>
    refine exact_.advance there advanced (.inl rfl) sound ?_
    intro r reason found'
    rw [found] at found'
    exact (plain r (Option.some.inj found')).1 reason
  | returns there _ advanced =>
    obtain ⟨r, site, found, position⟩ := returns_receiving advanced
    refine exact_.advance there advanced (.inr rfl) sound ?_
    intro q reason found' other
    rw [found] at found'
    cases found'
    rw [position] at other
    cases other
  | cleanup there _ _ _ root advanced =>
    refine exact_.put there (advance_evolves rfl advanced) sound ?_ ?_
    · intro m parent
      rw [root] at parent
      cases parent
    · rw [advance_children (exact_.sound.runs _ _ there) advanced (.inl rfl)]
      exact exact_.children _ _ there
  | deleted there found position _ parent advanced =>
    refine exact_.deleteChild there parent advanced ?_ sound
    exact fun elder present => put_running running there found position advanced present
  | poison there | rejected there => exact exact_.assign there sound
  | answered there errand _ advanced =>
    obtain ⟨r, reason, rest, found, position⟩ := exact_.sound.poisoning there errand
    refine exact_.advance there advanced (.inl rfl) sound ?_
    intro q reason found' other
    rw [found] at found'
    cases found'
    rw [position] at other
    cases other
  | @look n node child pc nodes pc' i there errand look =>
    have looked := exact_.look running look
    rw [List.modify_eq_set_getElem?] at sound ⊢
    cases present : nodes[n]? with
    | none => exact looked
    | some now =>
      rw [present] at sound
      exact looked.assign present sound
  | spawnChild positive there found position free named missing =>
    rename_i n node i child name opts r site id
    have errand : Busy node i (.spawnChild child (some s.nodes.length)) := .spawning found position
    have waiting := exact_.assign there (exact_.sound.assign there (by simp [free]) errand)
    exact waiting.append sound rfl
  | setChild there errand advanced =>
    obtain ⟨r, site, found, position⟩ := exact_.sound.spawning there errand
    simp only [entersLive, doing_some there found, errand] at enters
    refine exact_.put there (advance_evolves rfl advanced) sound ?_ ?_
    · intro m _ flag
      rw [advance_flag (exact_.sound.runs _ _ there) advanced rfl]
      · exact flag
      · intro q reason found' other
        rw [found] at found'
        cases found'
        rw [position] at other
        cases other
    · rw [setChild_children advanced]
      intro pid member
      cases List.mem_append.mp member with
      | inl old => exact exact_.children _ _ there pid (List.mem_of_mem_filter old)
      | inr new => exact List.mem_singleton.mp new ▸ enters

theorem Exact.next {s t : State M W} (exact_ : Exact s) (stepped : s.step label = some t)
    (enters : entersLive s label = true) : Exact t := by
  obtain ⟨move, running⟩ := step_move stepped
  exact exact_.move move enters running

theorem initial_exact (address : String) : Exact (initial address : State M W) := by
  refine ⟨initial_sound address, ?_⟩
  intro n node there
  simp [initial] at there

/-- The mark of an actor is cleared by its own `cleanup` only. -/
theorem flagged_next {s t : State M W} (sound : Sound s)
    (flagged : ∀ (n : Nat) node, s.nodes[n]? = some node → Engine.Flagged node.parent.isSome node.engine)
    (stepped : s.step label = some t) :
    ∀ (n : Nat) node, t.nodes[n]? = some node → Engine.Flagged node.parent.isSome node.engine := by
  obtain ⟨move, running⟩ := step_move stepped
  intro n node there
  cases (move.follows running).back there with
  | inl old =>
    obtain ⟨before, found, evolves⟩ := old
    rw [evolves.parent]
    exact (sound.runs n before found).flagged evolves.runs (flagged n before found)
  | inr new =>
    obtain ⟨-, -, opts, positive, same⟩ := new
    rw [same]
    exact .inl rfl

/-- Where everybody has returned, an actor in the registry has not begun its
`cleanup`. -/
theorem quiescent_flag {node : Node M W} (flagged : Engine.Flagged node.parent.isSome node.engine)
    (quiet : node.engine.quiescent = true) (registered : node.engine.actor.registered = true)
    (parent : node.parent = some n) : node.engine.actor.parent = true := by
  obtain same | gone | ⟨r, member, leaving⟩ := flagged
  · rw [same, parent]
    rfl
  · rw [Actor.departed_registered gone] at registered
    cases registered
  · have done := List.all_eq_true.mp quiet _ member
    obtain ⟨base, replays, act⟩ := r
    cases act with
    | returned => cases leaving
    | _ => cases done

/-- The children map of an actor holds the ids of its registered children, and no
others. -/
theorem children_map_exact (address : String) (s : State M W)
    (reached : Reaches (restrict entersLive State.step) (initial address) s)
    (quiet : s.quiescent = true) (n : Nat) (node : Node M W) (there : s.nodes[n]? = some node)
    (id : String) :
    (∃ pid ∈ node.engine.actor.children, pid.id = id) ↔
      ∃ kid ∈ s.nodes, kid.parent = some n ∧ kid.engine.actor.registered = true ∧ kid.pid.id = id := by
  obtain ⟨known, flagged⟩ : Exact s ∧
      ∀ (n : Nat) node, s.nodes[n]? = some node → Engine.Flagged node.parent.isSome node.engine := by
    refine reached.invariant (P := fun s => Exact s ∧ ∀ (n : Nat) node, s.nodes[n]? = some node →
      Engine.Flagged node.parent.isSome node.engine) ?_ ⟨initial_exact address, ?_⟩
    · rintro a label b ⟨known, flagged⟩ stepped
      obtain ⟨enters, stepped⟩ := restrict_some stepped
      exact ⟨known.next stepped enters, flagged_next known.sound flagged stepped⟩
    · intro n node there
      simp [initial] at there
  rw [State.quiescent, Bool.and_eq_true, List.all_eq_true] at quiet
  constructor
  · rintro ⟨pid, member, named⟩
    obtain ⟨c, kid, present, parent, same, flag⟩ := minds_iff.mp (known.children n node there pid member)
    have registered := (known.sound.runs c kid present).departure.deleted flag
    exact ⟨kid, List.mem_of_getElem? present, parent, registered, same.trans named⟩
  · rintro ⟨kid, member, parent, registered, named⟩
    obtain ⟨c, present⟩ := List.mem_iff_getElem?.mp member
    have flag := quiescent_flag (flagged c kid present) (quiet.1 kid member) registered parent
    cases known.sound.listed n c node kid there present parent flag with
    | inl lists =>
      obtain ⟨pid, listed, same⟩ := lists
      exact ⟨pid, listed, same.trans named⟩
    | inr pending =>
      obtain ⟨i, errand⟩ := pending
      obtain ⟨r, site, found, position⟩ := known.sound.spawning there errand
      have done := List.all_eq_true.mp (quiet.1 node (List.mem_of_getElem? there)) _
        (List.mem_of_getElem? found)
      obtain ⟨base, replays, act⟩ := r
      subst position
      cases done

/-- The workers of both actors find nothing to do. -/
def restingFamily : List (Label Nat Nat) := family ++ steps 0 1 4 ++ steps 1 1 4

theorem children_map_exact_family :
    ∃ (s : State Nat Nat) (parent child : Node Nat Nat),
      Reaches (restrict entersLive State.step) (initial "local") s ∧ s.quiescent = true ∧
        s.nodes = [parent, child] ∧ child.parent = some 0 ∧ child.engine.actor.registered = true ∧
        ∃ pid ∈ parent.engine.actor.children, pid.id = child.pid.id := by
  obtain ⟨s, reached, ends⟩ := exists_of_run (restrict entersLive State.step)
    (initial "local" : State Nat Nat) restingFamily
    (fun s => s.quiescent = true ∧ s.nodes.map (fun node => (node.parent, node.engine.actor.registered)) =
      [(none, true), (some 0, true)]) (by decide +kernel)
  obtain ⟨quiet, shape⟩ := of_decide_eq_true ends
  obtain ⟨parent, rest, nodes, -, more⟩ := List.map_eq_cons_iff.mp shape
  obtain ⟨child, rest, rfl, spawned, more⟩ := List.map_eq_cons_iff.mp more
  cases List.map_eq_nil_iff.mp more
  obtain ⟨own, registered⟩ := Prod.mk.inj spawned
  refine ⟨s, parent, child, reached, quiet, nodes, own, registered, ?_⟩
  exact (children_map_exact "local" s reached quiet 0 parent (by simp [nodes]) child.pid.id).mpr
    ⟨child, by simp [nodes], own, registered, rfl⟩

/-- An actor asks for a child under an id that was spawned before, at the top. -/
def takenId : List (Label Nat Nat) :=
  [.spawn "parent/1/child" "2" ⟨3, 1, []⟩] ++ steps 0 0 1 ++ [.act 0 0 .returns, .act 0 0 .returns] ++
    steps 0 0 3 ++ [.spawn "parent" "1" ⟨3, 1, []⟩] ++ steps 1 0 1 ++
    [.act 1 0 (.spawnChild "child" "2" ⟨3, 1, []⟩)] ++ steps 1 0 1 ++
    [.act 1 0 .returns, .act 1 0 .returns] ++ steps 1 0 3 ++ steps 0 1 4 ++ steps 1 1 4

theorem foreign_child_listed :
    ∃ s : State Nat Nat, Reaches State.step (initial "local") s ∧ s.quiescent = true ∧
      s.nodes.map (fun node => (node.pid.id, node.parent, node.engine.actor.registered)) =
        [("parent/1/child/2", none, true), ("parent/1", none, true)] ∧
      s.nodes.map (fun node => node.engine.actor.children) =
        [[], [⟨"local", "parent/1/child/2"⟩]] := by
  obtain ⟨s, reached, ends⟩ := exists_of_run State.step (initial "local" : State Nat Nat) takenId
    (fun s => s.quiescent = true ∧
      s.nodes.map (fun node => (node.pid.id, node.parent, node.engine.actor.registered)) =
        [("parent/1/child/2", none, true), ("parent/1", none, true)] ∧
      s.nodes.map (fun node => node.engine.actor.children) =
        [[], [⟨"local", "parent/1/child/2"⟩]]) (by decide +kernel)
  exact ⟨s, reached, of_decide_eq_true ends⟩

end Hollywood.Tree
