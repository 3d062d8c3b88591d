import Hollywood.Tree.Registry

/-! Whether the children of an actor are stopped before it. `cleanup` waits for the
children it finds in the map, by the context of the pill it sends to each. It does not
wait for a child that has taken itself out of the map or out of the registry on its
own account, nor for one that is spawned after the map was read. -/
namespace Hollywood.Tree
open Transition
variable {M W : Type} [Inhabited M] {id : String} {n m c i j : Nat}

namespace State

/-- Each child of a node has departed or is as stated. -/
def Kids (s : State M W) (n : Nat) (Q : Nat → PID → Prop) : Prop :=
  ∀ (c : Nat) kid, s.nodes[c]? = some kid → kid.parent = some n →
    kid.engine.actor.departed = true ∨ Q c kid.pid

def Cleared (s : State M W) (n : Nat) (rest : List (Option PID)) : Prop :=
  s.Kids n fun _ kid => ∃ pid, some pid ∈ rest ∧ pid.id = kid.id

/-- What is known while `cleanup` waits for the context of a child. -/
def Waits (s : State M W) (n : Nat) (child : PID) : CallPc → Prop
  | .refused => s.Kids n fun _ kid => kid.id ≠ child.id
  | .inside m _ _ => s.Kids n fun c kid => kid.id ≠ child.id ∨ c = m
  | .sendPoisonPill | .lookup | .lost => True

theorem Kids.imp {s : State M W} {Q R : Nat → PID → Prop} (kids : s.Kids n Q)
    (weaker : ∀ c kid, Q c kid → R c kid) : s.Kids n R := by
  intro c kid present parent
  cases kids c kid present parent with
  | inl gone => exact .inl gone
  | inr held => exact .inr (weaker c kid.pid held)

end State

structure Orderly (s : State M W) : Prop where
  sound : Sound s
  cleared : ∀ (n : Nat) node (i : Nat) r rest, s.nodes[n]? = some node →
    node.engine.pool[i]? = some (.proc r) → r.act.awaits = some rest → s.Cleared n rest
  waiting : ∀ (n : Nat) node i child pc, s.nodes[n]? = some node → node.errand i = .poison child pc →
    s.Waits n child pc
  done : ∀ (n : Nat) node, s.nodes[n]? = some node → node.engine.actor.cancelled ≠ [] → s.Cleared n []

section put
variable {s : State M W} {node next : Node M W}

theorem State.Kids.put {Q : Nat → PID → Prop} (kids : s.Kids m Q) (sound : Sound s)
    (there : s.nodes[n]? = some node) (evolves : node.Evolves next) : (s.put n next).Kids m Q := by
  intro c kid present parent
  obtain ⟨before, old, moved⟩ := put_back there evolves present
  rw [moved.parent] at parent
  cases kids c before old parent with
  | inl gone => exact .inl (((sound.runs c before old).fades moved.runs).2.2 gone)
  | inr held => exact .inr (moved.pid ▸ held)

theorem State.Waits.put {child : PID} {pc : CallPc} (waits : s.Waits m child pc) (sound : Sound s)
    (there : s.nodes[n]? = some node) (evolves : node.Evolves next) : (s.put n next).Waits m child pc := by
  cases pc with
  | refused =>
    have kids : s.Kids m fun _ kid => kid.id ≠ child.id := waits
    exact kids.put sound there evolves
  | inside k =>
    have kids : s.Kids m fun c kid => kid.id ≠ child.id ∨ c = k := waits
    exact kids.put sound there evolves
  | sendPoisonPill | lookup | lost => trivial

theorem Orderly.put (orderly : Orderly s) (there : s.nodes[n]? = some node) (evolves : node.Evolves next)
    (sound : Sound (s.put n next))
    (cleared : ∀ (i : Nat) r rest, next.engine.pool[i]? = some (.proc r) → r.act.awaits = some rest →
      s.Cleared n rest)
    (waiting : ∀ i child pc, next.errand i = .poison child pc → s.Waits n child pc)
    (done : next.engine.actor.cancelled ≠ [] → s.Cleared n []) : Orderly (s.put n next) where
  sound := sound
  cleared m b i r rest found at_ waits := by
    cases put_some there found with
    | inl same =>
      obtain ⟨rfl, rfl⟩ := same
      exact State.Kids.put (cleared i r rest at_ waits) orderly.sound there evolves
    | inr other =>
      exact State.Kids.put (orderly.cleared m b i r rest other.2 at_ waits) orderly.sound there evolves
  waiting m b i child pc found errand := by
    cases put_some there found with
    | inl same =>
      obtain ⟨rfl, rfl⟩ := same
      exact (waiting i child pc errand).put orderly.sound there evolves
    | inr other =>
      exact (orderly.waiting m b i child pc other.2 errand).put orderly.sound there evolves
  done m b found ended := by
    cases put_some there found with
    | inl same =>
      obtain ⟨rfl, rfl⟩ := same
      exact State.Kids.put (done ended) orderly.sound there evolves
    | inr other => exact State.Kids.put (orderly.done m b other.2 ended) orderly.sound there evolves

end put

/-- What a goroutine starts is a worker. -/
theorem advance_workers {a : Actor M W} (advance : a.Advance g action b next spawned) :
    ∀ h ∈ spawned, ∃ pc, h = .proc (Actor.worker pc) := by
  cases advance with
  | mailed | returned =>
    intro h member
    obtain ⟨pc, -, rfl⟩ := List.mem_map.mp member
    exact ⟨pc, rfl⟩
  | moved move =>
    intro h member
    obtain ⟨r, started, rfl⟩ := List.mem_map.mp member
    obtain ⟨pc, rfl⟩ := move.spawns r started
    exact ⟨pc, rfl⟩
  | _ => exact List.forall_mem_nil _

/-- A goroutine that waits for children did so before its step, or has just read the
map or done with one of them. -/
theorem advance_awaits {node next : Node M W} (runs : Engine.Runs node.engine)
    (advanced : node.advance i action = some next) (calm : action.calm = true)
    (found : next.engine.pool[j]? = some (.proc r)) (waits : r.act.awaits = some rest) :
    (∃ q, node.engine.pool[j]? = some (.proc q) ∧ q.act.awaits = some rest) ∨
      ∃ q, node.engine.pool[i]? = some (.proc q) ∧ node.engine.actor.Awaits q.act rest := by
  obtain ⟨g, b, after, spawned, there, advance, rfl⟩ := advance_pool advanced
  change (node.engine.pool.set i after ++ spawned)[j]? = some (.proc r) at found
  rw [List.getElem?_append] at found
  split at found
  · rw [List.getElem?_set] at found
    split at found
    · rename_i same
      subst same
      rw [if_pos (List.getElem?_eq_some_iff.mp there).1] at found
      have same := Option.some.inj found
      obtain ⟨inside, known⟩ := runs.departure.inside g (List.mem_of_getElem? there)
      cases advance with
      | moved move =>
        cases same
        exact .inr ⟨_, there, move.awaits inside waits⟩
      | @resumed q outcome site position =>
        cases same
        cases outcome with
        | panics v => cases calm
        | returns =>
          obtain ⟨untroubled, -⟩ := known (Actor.receiving_holds inside position)
          exact .inr ⟨q, there, Actor.resume_awaits untroubled position waits⟩
      | spawnedChild =>
        cases same
        exact .inl ⟨r, there, waits⟩
      | _ => cases same
    · exact .inl ⟨r, found, waits⟩
  · obtain ⟨pc, same⟩ := advance_workers advance _ (List.mem_of_getElem? found)
    cases same
    cases waits

/-- No child of a node is in the middle of its own `cleanup`. -/
def State.settled (s : State M W) (n : Nat) : Bool :=
  s.nodes.all fun kid => kid.parent ≠ some n || kid.engine.actor.parent || kid.engine.actor.departed

/-- No child of a node under this id is between its removal from the registry and its
`Stopped`. -/
def State.holds (s : State M W) (n : Nat) (child : PID) : Bool :=
  s.nodes.all fun kid => kid.parent ≠ some n || kid.pid.id ≠ child.id ||
    kid.engine.actor.registered || kid.engine.actor.departed

/-- When `cleanup` reads the children map, no child is in the middle of its own. -/
def readsSettled (s : State M W) : Label M W → Bool
  | .act n i .step =>
    match s.doing n i with
    | some (.none, .proc ⟨_, _, .childrenLen _⟩) | some (.none, .proc ⟨_, _, .fillChildren _ _⟩) =>
      s.settled n
    | _ => true
  | _ => true

/-- When `cleanup` looks a child up to poison it, the child is registered or has
departed. -/
def looksInTime (s : State M W) : Label M W → Bool
  | .act n i .step =>
    match s.doing n i with
    | some (.poison child .sendPoisonPill, _) | some (.poison child .lookup, _) => s.holds n child
    | _ => true
  | _ => true

/-- No child is spawned by a receiver that handles its final `Stopped`. -/
def spawnsInTime (s : State M W) : Label M W → Bool
  | .act n i (.spawnChild _ _ _) =>
    match s.doing n i with
    | some (_, .proc ⟨_, _, .receiving (.cleanup _)⟩) => false
    | _ => true
  | _ => true

def timely (s : State M W) (label : Label M W) : Bool :=
  readsSettled s label && looksInTime s label && spawnsInTime s label

theorem settled_kid {s : State M W} (settled : s.settled n = true) (present : s.nodes[c]? = some kid)
    (parent : kid.parent = some n) : kid.engine.actor.parent = true ∨ kid.engine.actor.departed = true := by
  have all := List.all_eq_true.mp settled kid (List.mem_of_getElem? present)
  simpa [parent] using all

theorem holds_kid {s : State M W} (holds : s.holds n child = true) (present : s.nodes[c]? = some kid)
    (parent : kid.parent = some n) (named : kid.pid.id = child.id) :
    kid.engine.actor.registered = true ∨ kid.engine.actor.departed = true := by
  have all := List.all_eq_true.mp holds kid (List.mem_of_getElem? present)
  simpa [parent, named] using all

/-- A goroutine that waits for children, or reads the map, is the one in the process. -/
theorem awaits_holds {node : Node M W} {r : Routine M} (runs : Engine.Runs node.engine)
    (found : node.engine.pool[i]? = some (.proc r)) (waits : r.act.awaits = some rest) :
    r.act.stage.holds = true := by
  have sound : r.Sound node.engine.actor := (runs.departure.inside _ (List.mem_of_getElem? found)).1
  have placed := sound.placed
  obtain ⟨base, replays, act⟩ := r
  have pilled (reason : Reason M) (stage : Stage) (holder : stage.holds = true)
      (same : act.stage = reason.stage stage) : act.stage.holds = true := by
    cases reason with
    | pill f ctx =>
      rw [same]
      exact holder
    | limit =>
      simp only [same] at placed
      exact absurd placed Routine.Placed.not_astray
  cases act with
  | poison reason | stopInbox reason => exact pilled reason .retiring rfl rfl
  | unregister reason | stopping reason | cancel reason => exact pilled reason .retired rfl rfl
  | receiving site =>
    cases site with
    | cleanup reason => exact pilled reason .retired rfl rfl
    | _ => cases waits
  | _ => cases waits

theorem reads_holds {node : Node M W} {r : Routine M} (runs : Engine.Runs node.engine)
    (found : node.engine.pool[i]? = some (.proc r))
    (reading : ∃ reason, r.act = .childrenLen reason ∨ ∃ size, r.act = .fillChildren reason size) :
    r.act.stage.holds = true := by
  have sound : r.Sound node.engine.actor := (runs.departure.inside _ (List.mem_of_getElem? found)).1
  have placed := sound.placed
  obtain ⟨reason, position | ⟨size, position⟩⟩ := reading
  all_goals
    rw [position] at placed ⊢
    cases reason with
    | pill f ctx => rfl
    | limit => exact absurd placed Routine.Placed.not_astray

/-- What the map holds when `cleanup` reads it. -/
theorem Sound.read {s : State M W} {node : Node M W} {r : Routine M} (sound : Sound s)
    (there : s.nodes[n]? = some node) (found : node.engine.pool[i]? = some (.proc r))
    (reading : ∃ reason, r.act = .childrenLen reason ∨ ∃ size, r.act = .fillChildren reason size)
    (settled : s.settled n = true) : s.Kids n fun _ kid => node.lists kid := by
  intro c kid present parent
  cases settled_kid settled present parent with
  | inr gone => exact .inl gone
  | inl flag =>
    cases sound.listed n c node kid there present parent flag with
    | inl lists => exact .inr lists
    | inr pending =>
      -- the goroutine that is still in `SpawnChild` would be a second one in the process
      obtain ⟨j, errand⟩ := pending
      obtain ⟨q, site, found', position⟩ := sound.spawning there errand
      have departure := (sound.runs n node there).departure
      have holder := reads_holds (sound.runs n node there) found reading
      obtain ⟨holder', -⟩ := departure.receiving found' position
      have same := departure.unique found found' holder holder'
      subst same
      rw [found] at found'
      cases found'
      obtain ⟨reason, other | ⟨size, other⟩⟩ := reading
      all_goals
        rw [position] at other
        cases other

theorem advance_cleared {s : State M W} {node next : Node M W} {r : Routine M} (orderly : Orderly s)
    (there : s.nodes[n]? = some node) (advanced : node.advance i action = some next)
    (calm : action.calm = true)
    (reads : ∀ q, node.engine.pool[i]? = some (.proc q) →
      (∃ reason, q.act = .childrenLen reason ∨ ∃ size, q.act = .fillChildren reason size) →
      s.settled n = true)
    (head : ∀ q reason child rest, node.engine.pool[i]? = some (.proc q) →
      q.act = .poison reason (some child :: rest) → s.Kids n fun _ kid => kid.id ≠ child.id)
    (found : next.engine.pool[j]? = some (.proc r)) (waits : r.act.awaits = some rest) :
    s.Cleared n rest := by
  have runs := orderly.sound.runs n node there
  cases advance_awaits runs advanced calm found waits with
  | inl before =>
    obtain ⟨q, found, waits⟩ := before
    exact orderly.cleared n node j q rest there found waits
  | inr moved =>
    obtain ⟨q, found, awaits⟩ := moved
    generalize position : q.act = act at awaits
    cases awaits with
    | kept waits => exact orderly.cleared n node i q rest there found (position ▸ waits)
    | @poisoned reason child =>
      have before := orderly.cleared n node i q (child :: rest) there found (by rw [position]; rfl)
      intro c kid present parent
      obtain gone | ⟨pid, member, named⟩ := before c kid present parent
      · exact .inl gone
      · cases List.mem_cons.mp member with
        | inr later => exact .inr ⟨pid, later, named⟩
        | inl first =>
          subst first
          cases head q reason pid rest found position c kid present parent with
          | inl gone => exact .inl gone
          | inr other => exact absurd named.symm other
    | childless empty =>
      have reading : ∃ reason, q.act = .childrenLen reason ∨ ∃ size, q.act = .fillChildren reason size :=
        ⟨_, .inl position⟩
      refine (orderly.sound.read there found reading (reads q found reading)).imp ?_
      rintro c kid ⟨pid, member, -⟩
      rw [empty] at member
      cases member
    | read =>
      have reading : ∃ reason, q.act = .childrenLen reason ∨ ∃ size, q.act = .fillChildren reason size :=
        ⟨_, .inr ⟨_, position⟩⟩
      refine (orderly.sound.read there found reading (reads q found reading)).imp ?_
      rintro c kid ⟨pid, member, named⟩
      exact ⟨pid, List.mem_append_left _ (List.mem_map_of_mem member), named⟩

theorem advance_done {s : State M W} {node next : Node M W} (orderly : Orderly s)
    (there : s.nodes[n]? = some node) (advanced : node.advance i action = some next)
    (calm : action.calm = true) (ended : next.engine.actor.cancelled ≠ []) : s.Cleared n [] := by
  obtain ⟨engine, stepped, rfl⟩ := advance_some advanced
  have runs := orderly.sound.runs n node there
  have restricted : restrict Engine.calm Engine.State.step node.engine (.act i action) = some engine := by
    rw [restrict, if_pos (by exact calm), stepped]
  obtain ⟨-, -, cancelled⟩ := runs.departure.fades restricted
  cases cancelled ended with
  | inl before => exact orderly.done n node there before
  | inr ending =>
    obtain ⟨j, r, reason, -, found, position⟩ := ending
    exact orderly.cleared n node j r [] there found (by rw [position]; rfl)

theorem advance_errand {node next : Node M W} (advanced : node.advance i action = some next)
    (errand : next.errand j = .poison child pc) : node.errand j = .poison child pc := by
  obtain ⟨engine, -, rfl⟩ := advance_some advanced
  change (if j = i then Errand.none else node.errand j) = .poison child pc at errand
  split at errand
  · cases errand
  · exact errand

/-- A goroutine goes on: what its node waits for is what the discipline lets it. -/
theorem Orderly.advance {s : State M W} {node next : Node M W} (orderly : Orderly s)
    (there : s.nodes[n]? = some node) (advanced : node.advance i action = some next)
    (calm : action.calm = true) (sound : Sound (s.put n next))
    (reads : ∀ q, node.engine.pool[i]? = some (.proc q) →
      (∃ reason, q.act = .childrenLen reason ∨ ∃ size, q.act = .fillChildren reason size) →
      s.settled n = true)
    (head : ∀ q reason child rest, node.engine.pool[i]? = some (.proc q) →
      q.act = .poison reason (some child :: rest) → s.Kids n fun _ kid => kid.id ≠ child.id) :
    Orderly (s.put n next) := by
  refine orderly.put there (advance_evolves calm advanced) sound ?_ ?_ ?_
  · intro j r rest found waits
    exact advance_cleared orderly there advanced calm reads head found waits
  · intro j child pc errand
    exact orderly.waiting n node j child pc there (advance_errand advanced errand)
  · exact advance_done orderly there advanced calm

theorem Orderly.assign {s : State M W} {node : Node M W} {errand : Errand} (orderly : Orderly s)
    (there : s.nodes[n]? = some node) (sound : Sound (s.put n (node.assign i errand)))
    (waits : ∀ child pc, errand = .poison child pc → s.Waits n child pc) :
    Orderly (s.put n (node.assign i errand)) := by
  refine orderly.put there (assign_evolves _ _ _) sound ?_ ?_ ?_
  · exact fun j r rest found => orderly.cleared n node j r rest there found
  · intro j child pc held
    change (if j = i then errand else node.errand j) = .poison child pc at held
    split at held
    · exact waits child pc held
    · exact orderly.waiting n node j child pc there held
  · exact orderly.done n node there

theorem Orderly.look {s : State M W} {nodes : List (Node M W)} (orderly : Orderly s)
    (running : ∀ node ∈ s.nodes, node.engine.pool.any Goroutine.crashed = false)
    (look : Look s target call pc nodes pc') : Orderly { s with nodes := nodes } := by
  have sound := orderly.sound.look running look
  cases look with
  | present | absent | lost => exact orderly
  | @found m node known there =>
    refine orderly.put there (enter_evolves running known there) sound ?_ ?_ ?_
    · intro i r rest found waits
      change (node.engine.pool ++ [_])[i]? = some (.proc r) at found
      rw [List.getElem?_append] at found
      split at found
      · exact orderly.cleared m node i r rest there found waits
      · cases List.mem_singleton.mp (List.mem_of_getElem? found)
    · exact fun i child pc errand => orderly.waiting m node i child pc there errand
    · exact orderly.done m node there

/-- What a lookup tells about the children of that id. -/
theorem look_waits {s : State M W} {nodes : List (Node M W)} {child : PID} (sound : Sound s)
    (holds : s.holds n child = true) (look : Look s child call pc nodes pc') : s.Waits n child pc' := by
  have kids {Q : Nat → Prop} (named : ∀ (c : Nat) kid, s.nodes[c]? = some kid → kid.engine.actor.registered = true →
      kid.pid.id = child.id → Q c) : s.Kids n fun c kid => kid.id ≠ child.id ∨ Q c := by
    intro c kid present parent
    by_cases same : kid.pid.id = child.id
    · cases holds_kid holds present parent same with
      | inl registered => exact .inr (.inr (named c kid present registered same))
      | inr gone => exact .inl gone
    · exact .inr (.inl same)
  cases look with
  | present | lost => trivial
  | absent missing =>
    refine (kids (Q := fun _ => False) ?_).imp fun c kid held => held.resolve_right False.elim
    exact fun c kid present registered same => get_none missing present registered same
  | found known there =>
    obtain ⟨node, found, registered, named⟩ := get_some known
    refine kids ?_
    intro c kid present registered' same
    exact sound.unique c _ kid node present found registered' registered (same.trans named.symm)

theorem State.Waits.look {s : State M W} {nodes : List (Node M W)} {child : PID} {pc : CallPc}
    (waits : s.Waits n child pc) (sound : Sound s)
    (running : ∀ node ∈ s.nodes, node.engine.pool.any Goroutine.crashed = false)
    (look : Look s target call old nodes pc') : State.Waits { s with nodes := nodes } n child pc := by
  cases look with
  | present | absent | lost => exact waits
  | @found m node known there =>
    exact waits.put sound there (enter_evolves running known there)

theorem Orderly.deleteChild {s : State M W} (orderly : Orderly s) (child : PID)
    (running : ∀ node, s.nodes[n]? = some node → node.engine.pool.any Goroutine.crashed = false)
    (sound : Sound { s with nodes := s.nodes.modify n (·.deleteChild child) }) :
    Orderly { s with nodes := s.nodes.modify n (·.deleteChild child) } := by
  rw [List.modify_eq_set_getElem?] at sound ⊢
  cases there : s.nodes[n]? with
  | none => exact orderly
  | some node =>
    rw [there] at sound
    refine orderly.put there (deleteChild_evolves _ _ (running node there)) sound ?_ ?_ ?_
    · exact fun j r rest found => orderly.cleared n node j r rest there found
    · exact fun j child pc errand => orderly.waiting n node j child pc there errand
    · exact orderly.done n node there

/-- Nobody in the process of a node is past the reading of its map. -/
structure Quiet (node : Node M W) : Prop where
  awaits : ∀ (i : Nat) r rest, node.engine.pool[i]? = some (.proc r) → r.act.awaits ≠ some rest
  poisons : ∀ i child pc, node.errand i ≠ .poison child pc
  open_ : node.engine.actor.cancelled = []

theorem State.Kids.append {s : State M W} {new : Node M W} {Q : Nat → PID → Prop} (kids : s.Kids n Q)
    (other : new.parent ≠ some n) : State.Kids { s with nodes := s.nodes ++ [new] } n Q := by
  intro c kid present parent
  cases append_some present with
  | inl old => exact kids c kid old parent
  | inr added =>
    obtain ⟨rfl, rfl⟩ := added
    exact absurd parent other

theorem Orderly.append {s : State M W} {new : Node M W} (orderly : Orderly s)
    (sound : Sound { s with nodes := s.nodes ++ [new] }) (fresh : Quiet new)
    (quiet : ∀ (n : Nat) node, s.nodes[n]? = some node → new.parent = some n → Quiet node) :
    Orderly { s with nodes := s.nodes ++ [new] } where
  sound := sound
  cleared n node i r rest there found waits := by
    cases append_some there with
    | inl old =>
      refine State.Kids.append (orderly.cleared n node i r rest old found waits) ?_
      exact fun parent => (quiet n node old parent).awaits i r rest found waits
    | inr added =>
      obtain ⟨rfl, rfl⟩ := added
      exact absurd waits (fresh.awaits i r rest found)
  waiting n node i child pc there errand := by
    cases append_some there with
    | inl old =>
      have other (parent : new.parent = some n) : False := (quiet n node old parent).poisons i child pc errand
      have waits := orderly.waiting n node i child pc old errand
      cases pc with
      | refused =>
        have kids : s.Kids n fun _ kid => kid.id ≠ child.id := waits
        exact kids.append other
      | inside k =>
        have kids : s.Kids n fun c kid => kid.id ≠ child.id ∨ c = k := waits
        exact kids.append other
      | sendPoisonPill | lookup | lost => trivial
    | inr added =>
      obtain ⟨rfl, rfl⟩ := added
      exact absurd errand (fresh.poisons i child pc)
  done n node there ended := by
    cases append_some there with
    | inl old =>
      refine State.Kids.append (orderly.done n node old ended) ?_
      exact fun parent => ended (quiet n node old parent).open_
    | inr added =>
      obtain ⟨rfl, rfl⟩ := added
      exact absurd fresh.open_ ended

theorem new_quiet (pid : PID) (parent : Option Nat) (opts : Opts W) (positive : 0 < opts.inboxSize) :
    Quiet (Node.new pid parent opts positive : Node M W) := by
  constructor
  · intro i r rest found waits
    cases List.mem_singleton.mp (List.mem_of_getElem? found)
    cases waits
  · exact fun i child pc errand => Errand.noConfusion errand
  · rfl

/-- The actor whose receiver spawns a child is not past the reading of its map, unless
it handles its final `Stopped`. -/
theorem Sound.quiet {s : State M W} {node : Node M W} {r : Routine M} (sound : Sound s)
    (there : s.nodes[n]? = some node) (found : node.engine.pool[i]? = some (.proc r))
    (position : r.act = .receiving site) (open_ : r.act.awaits = none) : Quiet node := by
  have runs := sound.runs n node there
  obtain ⟨holder, none⟩ := runs.departure.receiving found position
  have awaits (j : Nat) (q : Routine M) (rest : List (Option PID))
      (found' : node.engine.pool[j]? = some (.proc q)) (waits : q.act.awaits = some rest) : False := by
    have same := runs.departure.unique found found' holder (awaits_holds runs found' waits)
    subst same
    rw [found] at found'
    cases found'
    rw [open_] at waits
    cases waits
  refine ⟨awaits, ?_, none⟩
  intro j child pc errand
  obtain ⟨q, reason, rest, found', position'⟩ := sound.poisoning there errand
  exact awaits j q _ found' (by rw [position']; rfl)

theorem answered_head {s : State M W} {child : PID} {pc : CallPc} (sound : Sound s)
    (waits : s.Waits n child pc) (answered : s.answered pc = true) :
    s.Kids n fun _ kid => kid.id ≠ child.id := by
  cases pc with
  | refused => exact waits
  | inside m goroutine ctx =>
    have kids : s.Kids n fun c kid => kid.id ≠ child.id ∨ c = m := waits
    intro c kid present parent
    cases kids c kid present parent with
    | inl gone => exact .inl gone
    | inr held =>
      cases held with
      | inl other => exact .inr other
      | inr same =>
        subst same
        simp only [State.answered, present, Option.any_some, Node.answered, Bool.and_eq_true,
          List.contains_iff_mem] at answered
        exact .inl ((sound.runs c kid present).departure.completed (List.ne_nil_of_mem answered.1))
  | sendPoisonPill | lookup | lost => cases answered

theorem Orderly.calls {s : State M W} (orderly : Orderly s) (calls : List (Caller M)) :
    Orderly { s with calls := calls } where
  sound := ⟨orderly.sound.runs, orderly.sound.unique, orderly.sound.elder, orderly.sound.busy,
    orderly.sound.listed⟩
  cleared := orderly.cleared
  waiting := orderly.waiting
  done := orderly.done

/-- The discipline at the places where `cleanup` reads the map. -/
theorem settled_reads {s : State M W} {node : Node M W} {r : Routine M}
    (settled : readsSettled s (.act n i .step) = true) (there : s.nodes[n]? = some node)
    (free : node.errand i = .none) (found : node.engine.pool[i]? = some (.proc r))
    (reading : ∃ reason, r.act = .childrenLen reason ∨ ∃ size, r.act = .fillChildren reason size) :
    s.settled n = true := by
  obtain ⟨base, replays, act⟩ := r
  simp only [readsSettled, doing_some there found, free] at settled
  obtain ⟨reason, position | ⟨size, position⟩⟩ := reading
  all_goals
    subst position
    exact settled

/-- The places where `cleanup` is busy with the children. -/
def minding : Act M → Bool
  | .childrenLen _ | .fillChildren _ _ | .poison _ _ => true
  | _ => false

theorem Orderly.elsewhere {s : State M W} {node next : Node M W} {r : Routine M} (orderly : Orderly s)
    (there : s.nodes[n]? = some node) (advanced : node.advance i action = some next)
    (calm : action.calm = true) (sound : Sound (s.put n next))
    (found : node.engine.pool[i]? = some (.proc r)) (away : minding r.act = false) :
    Orderly (s.put n next) := by
  refine orderly.advance there advanced calm sound ?_ ?_
  · rintro q found' ⟨reason, position | ⟨size, position⟩⟩
    all_goals
      rw [found] at found'
      cases found'
      rw [position] at away
      cases away
  · intro q reason child rest found' position
    rw [found] at found'
    cases found'
    rw [position] at away
    cases away

theorem Orderly.move {s t : State M W} (orderly : Orderly s) (move : Move s label t)
    (timed : timely s label = true)
    (running : ∀ node ∈ s.nodes, node.engine.pool.any Goroutine.crashed = false) : Orderly t := by
  have sound := orderly.sound.move move running
  simp only [timely, Bool.and_eq_true] at timed
  obtain ⟨⟨settled, looks⟩, spawns⟩ := timed
  cases move with
  | spawn positive =>
    apply orderly.append sound (new_quiet _ _ _ positive)
    rintro k elder present ⟨⟩
  | taken => exact orderly
  | call => exact orderly.calls _
  | caller look => exact (orderly.look running look).calls _
  | step there found free plain advanced =>
    refine orderly.advance there advanced rfl sound ?_ ?_
    · exact fun q found' => settled_reads settled there free found'
    · intro q reason child rest found' position
      rw [found] at found'
      exact absurd position ((plain q (Option.some.inj found')).2 reason child rest)
  | cleanup there found position _ _ advanced =>
    exact orderly.elsewhere there advanced rfl sound found (by rw [position]; rfl)
  | returns there _ advanced =>
    obtain ⟨r, site, found, position⟩ := returns_receiving advanced
    exact orderly.elsewhere there advanced rfl sound found (by rw [position]; rfl)
  | setChild there errand advanced =>
    obtain ⟨r, site, found, position⟩ := orderly.sound.spawning there errand
    exact orderly.elsewhere there advanced rfl sound found (by rw [position]; rfl)
  | answered there errand answered advanced =>
    obtain ⟨r, reason, rest, found, position⟩ := orderly.sound.poisoning there errand
    have head := answered_head orderly.sound (orderly.waiting _ _ _ _ _ there errand) answered
    refine orderly.advance there advanced rfl sound ?_ ?_
    · rintro q found' ⟨reason, other | ⟨size, other⟩⟩
      all_goals
        rw [found] at found'
        cases found'
        rw [position] at other
        cases other
    · intro q reason child rest found' other
      rw [found] at found'
      cases found'
      rw [position] at other
      cases other
      exact head
  | deleted there found position free parent advanced =>
    have moved := orderly.sound.advance there advanced (.inl rfl) (by simp [free])
    have after := orderly.elsewhere there advanced rfl moved found (by rw [position]; rfl)
    refine after.deleteChild _ ?_ sound
    exact fun elder present => put_running running there found position advanced present
  | poison there => exact orderly.assign there sound (by rintro child pc ⟨⟩; trivial)
  | rejected there => exact orderly.assign there sound nofun
  | @look n node child pc nodes pc' i there errand look =>
    have looked := orderly.look running look
    obtain ⟨r, reason, rest, found, position⟩ := orderly.sound.poisoning there errand
    have holds : s.holds n child = true := by
      simp only [looksInTime, doing_some there found, errand] at looks
      cases look <;> exact looks
    have waits := (look_waits orderly.sound holds look).look orderly.sound running look
    rw [List.modify_eq_set_getElem?] at sound ⊢
    cases present : nodes[n]? with
    | none => exact looked
    | some now =>
      rw [present] at sound
      refine looked.assign present sound ?_
      rintro other pc ⟨⟩
      exact waits
  | spawnChild positive there found position free named missing =>
    rename_i n node i child name opts r site id
    have errand : Busy node i (.spawnChild child (some s.nodes.length)) := .spawning found position
    have busy := orderly.sound.assign there (by simp [free]) errand
    have waiting := orderly.assign there busy (by rintro child pc ⟨⟩)
    have open_ : r.act.awaits = none := by
      obtain ⟨base, replays, act⟩ := r
      subst position
      simp only [spawnsInTime, doing_some there found] at spawns
      cases site with
      | cleanup reason => cases spawns
      | _ => rfl
    refine waiting.append sound (new_quiet _ _ _ positive) ?_
    rintro k parent present ⟨⟩
    have self := put_self there (node.assign i (.spawnChild child (some s.nodes.length)))
    rw [self] at present
    cases present
    exact busy.quiet self found position open_

theorem Orderly.next {s t : State M W} (orderly : Orderly s) (stepped : s.step label = some t)
    (timed : timely s label = true) : Orderly t := by
  obtain ⟨move, running⟩ := step_move stepped
  exact orderly.move move timed running

theorem initial_orderly (address : String) : Orderly (initial address : State M W) := by
  have empty (n : Nat) (node : Node M W) : (initial address).nodes[n]? ≠ some node := by simp [initial]
  constructor
  · exact initial_sound address
  · exact fun n node i r rest there => absurd there (empty n node)
  · exact fun n node i child pc there => absurd there (empty n node)
  · exact fun n node there => absurd there (empty n node)

/-- In every run in which no cleanup reads its children map, or looks a child up, while one
of its children is half gone, and no receiver spawns a child at its final `Stopped`: once an
actor has completed its cleanup, all its children are out of the registry and were given
their `Stopped`. -/
theorem children_stop_first (address : String) (s : State M W)
    (reached : Reaches (restrict timely State.step) (initial address) s)
    (n : Nat) (node : Node M W) (there : s.nodes[n]? = some node)
    (stopped : node.engine.actor.cancelled ≠ []) (kid : Node M W) (member : kid ∈ s.nodes)
    (parent : kid.parent = some n) : kid.engine.actor.departed = true := by
  have orderly : Orderly s := by
    refine Reaches.invariant (P := Orderly) ?_ reached (initial_orderly address)
    intro a label b orderly stepped
    obtain ⟨timed, stepped⟩ := restrict_some stepped
    exact orderly.next stepped timed
  obtain ⟨c, present⟩ := List.mem_iff_getElem?.mp member
  cases orderly.done n node there stopped c kid present parent with
  | inl gone => exact gone
  | inr held =>
    obtain ⟨pid, none, -⟩ := held
    cases none

/-- The parent is poisoned, poisons its child and waits for it. -/
def poisonedFamily : List (Label Nat Nat) :=
  family ++ [.call ⟨"local", "parent/1"⟩ .poison, .caller 0, .caller 0] ++ steps 0 2 2 ++ steps 0 1 13 ++
    steps 1 2 2 ++ steps 1 1 11 ++ [.act 1 1 .returns] ++ steps 1 1 1 ++
    steps 0 1 5 ++ [.act 0 1 .returns] ++ steps 0 1 1

theorem children_stop_first_poisoned :
    ∃ (s : State Nat Nat) (parent child : Node Nat Nat),
      Reaches (restrict timely State.step) (initial "local") s ∧ s.nodes = [parent, child] ∧
        parent.engine.actor.cancelled = [0] ∧ child.parent = some 0 ∧
        child.engine.actor.departed = true := by
  obtain ⟨s, reached, ends⟩ := exists_of_run (restrict timely State.step)
    (initial "local" : State Nat Nat) poisonedFamily
    (fun s => s.nodes.map (fun node => (node.parent, node.engine.actor.cancelled)) =
      [(none, [0]), (some 0, [0])]) (by decide +kernel)
  obtain ⟨parent, rest, nodes, cancelled, more⟩ := List.map_eq_cons_iff.mp (of_decide_eq_true ends)
  obtain ⟨child, rest, rfl, spawned, more⟩ := List.map_eq_cons_iff.mp more
  cases List.map_eq_nil_iff.mp more
  have ended : parent.engine.actor.cancelled = [0] := (Prod.mk.inj cancelled).2
  have own : child.parent = some 0 := (Prod.mk.inj spawned).1
  refine ⟨s, parent, child, reached, nodes, ended, own, ?_⟩
  exact children_stop_first "local" s reached 0 parent (by simp [nodes]) (by simp [ended])
    child (by simp [nodes]) own

/-- The child is stopped on its own account and has taken itself out of the map when
the parent reads it. -/
def overtakenChild : List (Label Nat Nat) :=
  family ++ [.call ⟨"local", "parent/1/child/2"⟩ .stop, .caller 0, .caller 0] ++ steps 1 2 2 ++
    steps 1 1 5 ++ [.call ⟨"local", "parent/1"⟩ .stop, .caller 1, .caller 1] ++ steps 0 2 2 ++
    steps 0 1 9 ++ [.act 0 1 .returns] ++ steps 0 1 1

/-- The parent is done while its child is still registered and has yet to receive its
`Stopped`. -/
theorem parent_overtakes_child :
    ∃ s : State Nat Nat, Reaches State.step (initial "local") s ∧
      s.nodes.map (fun node => (node.pid.id, node.parent, node.engine.actor.registered)) =
        [("parent/1", none, false), ("parent/1/child/2", some 0, true)] ∧
      s.nodes.map (fun node => (node.engine.actor.cancelled, node.engine.actor.log.map (·.message))) =
        [([0], [.initialized, .started, .stopped]), ([], [.initialized, .started])] := by
  obtain ⟨s, reached, ends⟩ := exists_of_run State.step (initial "local" : State Nat Nat) overtakenChild
    (fun s => s.nodes.map (fun node => (node.pid.id, node.parent, node.engine.actor.registered)) =
        [("parent/1", none, false), ("parent/1/child/2", some 0, true)] ∧
      s.nodes.map (fun node => (node.engine.actor.cancelled, node.engine.actor.log.map (·.message))) =
        [([0], [.initialized, .started, .stopped]), ([], [.initialized, .started])]) (by decide +kernel)
  exact ⟨s, reached, of_decide_eq_true ends⟩

end Hollywood.Tree
