import Hollywood.Engine.Departure

/-! Actors that spawn children (`Context.SpawnChild` in `actor/context.go`,
`Registry.add` in `actor/registry.go`, `cleanup` in `actor/process.go`), when no
receiver panics. Each actor runs as in `Engine`. The registry is the set of actors
whose flag is set; it is searched by id. `SpawnChild` runs the `Start` of the child
on the goroutine of the parent, and `cleanup` waits on the context of each child it
poisons: meanwhile that goroutine is on an errand. -/
namespace Hollywood.Tree
open Transition
variable {M W : Type} [Inhabited M]

/-- Where a call on the engine stands: at the lookup of `sendPoisonPill`, at that of
`SendLocal`, as a goroutine in the process it has found, or at its end, with its
context cancelled for want of a process or with a message that became a dead letter. -/
inductive CallPc where
  | sendPoisonPill
  | lookup
  | inside (node goroutine ctx : Nat)
  | refused
  | lost
  deriving DecidableEq, Repr

def CallPc.entry : Engine.Call M → CallPc
  | .stop | .poison => .sendPoisonPill
  | .send _ _ | .sendPriority _ _ | .clearMailbox => .lookup

structure Caller (M : Type) where
  target : PID
  call : Engine.Call M
  pc : CallPc

/-- What a goroutine of a process is doing in the engine: `SpawnChild` after the child
was added to the registry under a new node or rejected, or `Poison` of a child. -/
inductive Errand where
  | none
  | spawnChild (child : PID) (node : Option Nat)
  | poison (child : PID) (pc : CallPc)
  deriving DecidableEq, Repr

/-- An actor with the node of its parent context. -/
structure Node (M W : Type) [Inhabited M] where
  pid : PID
  parent : Option Nat
  engine : Engine.State M W
  errand : Nat → Errand

structure State (M W : Type) [Inhabited M] where
  address : String
  nodes : List (Node M W)
  calls : List (Caller M)

inductive Action (W : Type) where
  | step
  | returns
  | spawnChild (name id : String) (opts : Opts W)
  deriving DecidableEq, Repr

inductive Label (M W : Type) where
  | spawn (kind id : String) (opts : Opts W)
  | call (target : PID) (call : Engine.Call M)
  | caller (k : Nat)
  | act (node goroutine : Nat) (action : Action W)
  deriving DecidableEq, Repr

def pidSeparator : String := "/"

/-- The PID that `newProcess` gives to a kind and an id. -/
def newPID (address kind id : String) : PID := ⟨address, kind ++ pidSeparator ++ id⟩

/-- `SendLocal`, `SendPriorityLocal` and `ClearMailbox` on a process that was found. -/
def enter (e : Engine.State M W) (call : Engine.Call M) : Engine.State M W :=
  let request := call.request e.contexts
  { actor := { e.actor with accepted := e.actor.accepted ++ request.contexts }
    pool := e.pool ++ [.caller request (.inbox request.pc)]
    contexts := e.contexts + request.contexts.length }

namespace Node

def new (pid : PID) (parent : Option Nat) (opts : Opts W) (positive : 0 < opts.inboxSize) : Node M W :=
  ⟨pid, parent, Engine.initial opts positive parent.isSome, fun _ => .none⟩

def assign (node : Node M W) (i : Nat) (errand : Errand) : Node M W :=
  { node with errand := fun j => if j = i then errand else node.errand j }

/-- A goroutine goes on in its own process. -/
def advance (node : Node M W) (i : Nat) (action : Hollywood.Action) : Option (Node M W) :=
  (node.engine.step (.act i action)).map fun engine => { node.assign i .none with engine := engine }

/-- A child deletes itself from the map of its parent. -/
def deleteChild (node : Node M W) (child : PID) : Node M W :=
  { node with engine := { node.engine with actor := node.engine.actor.deleteChild child } }

/-- The call of `Start` by the goroutine that spawned the actor has returned. -/
def started (node : Node M W) : Bool :=
  match node.engine.pool[0]? with
  | some (Goroutine.proc ⟨_, _, .returned⟩) => true
  | _ => false

/-- A goroutine that sent to the actor has returned, and `cleanup` has cancelled its
context. -/
def answered (node : Node M W) (goroutine ctx : Nat) : Bool :=
  node.engine.actor.cancelled.contains ctx &&
    match node.engine.pool[goroutine]? with
    | some (Goroutine.caller _ .returned) => true
    | _ => false

end Node

namespace State

/-- The registry lookup. -/
def get (s : State M W) (pid : PID) : Option Nat :=
  s.nodes.findIdx? fun node => node.engine.actor.registered && node.pid.id = pid.id

def put (s : State M W) (n : Nat) (node : Node M W) : State M W :=
  { s with nodes := s.nodes.set n node }

/-- A lookup of a call, with the nodes afterwards. -/
def look (s : State M W) (target : PID) (call : Engine.Call M) :
    CallPc → Option (List (Node M W) × CallPc)
  | .sendPoisonPill => some (s.nodes, if (s.get target).isSome then .lookup else .refused)
  | .lookup =>
    match s.get target with
    | none => some (s.nodes, .lost)
    | some m => s.nodes[m]?.map fun node =>
      (s.nodes.set m { node with engine := enter node.engine call },
        .inside m node.engine.pool.length node.engine.contexts)
  | .inside _ _ _ | .refused | .lost => none

/-- The context of a call is cancelled. -/
def answered (s : State M W) : CallPc → Bool
  | .refused => true
  | .inside m goroutine ctx => s.nodes[m]?.any (·.answered goroutine ctx)
  | .sendPoisonPill | .lookup | .lost => false

/-- `SpawnChild` up to the call of `Start`. -/
def spawnChild (s : State M W) (n i : Nat) (node : Node M W) (name id : String) (opts : Opts W) :
    Option (State M W) :=
  let child := newPID s.address (node.pid.id ++ pidSeparator ++ name) id
  if positive : 0 < opts.inboxSize then
    match s.get child with
    | some _ => some (s.put n (node.assign i (.spawnChild child none)))
    | none =>
      let parent := node.assign i (.spawnChild child (some s.nodes.length))
      some { s with nodes := s.nodes.set n parent ++ [.new child (some n) opts positive] }
  else none

/-- The first action of `cleanup` and what it does to the map of the parent. -/
def cleanup (s : State M W) (n i : Nat) (node : Node M W) : Option (State M W) :=
  (node.advance i .step).map fun next =>
    match node.parent with
    | none => s.put n next
    | some p => { s with nodes := (s.nodes.set n next).modify p (·.deleteChild node.pid) }

/-- A goroutine on no errand. -/
def proceed (s : State M W) (n i : Nat) (node : Node M W) (g : Goroutine M) (action : Action W) :
    Option (State M W) :=
  match action, g with
  | .returns, _ => (node.advance i (.receive .returns)).map (s.put n)
  | .step, .caller _ _ => (node.advance i .step).map (s.put n)
  | .step, .proc r =>
    match r.act with
    | .cleanup _ => s.cleanup n i node
    | .poison _ (some child :: _) => some (s.put n (node.assign i (.poison child .sendPoisonPill)))
    | _ => (node.advance i .step).map (s.put n)
  | .spawnChild name id opts, .proc r =>
    match r.act with
    | .receiving _ => s.spawnChild n i node name id opts
    | _ => none
  | .spawnChild _ _ _, .caller _ _ => none

/-- A goroutine on an errand takes the next step of it, or is done with it. -/
def act (s : State M W) (n i : Nat) (action : Action W) : Option (State M W) := do
  let node ← s.nodes[n]?
  let g ← node.engine.pool[i]?
  match node.errand i, action with
  | .none, action => s.proceed n i node g action
  | .spawnChild child spawned, .step =>
    if spawned.all fun c => s.nodes[c]?.any Node.started then
      (node.advance i (.spawnChild child)).map (s.put n)
    else none
  | .poison child pc, .step =>
    if s.answered pc then (node.advance i .step).map (s.put n)
    else (s.look child .poison pc).map fun (nodes, pc) =>
      { s with nodes := nodes.modify n (·.assign i (.poison child pc)) }
  | _, _ => none

def step (s : State M W) (label : Label M W) : Option (State M W) :=
  if s.nodes.any fun node => node.engine.pool.any Goroutine.crashed then none
  else match label with
    | .spawn kind id opts =>
      if positive : 0 < opts.inboxSize then
        match s.get (newPID s.address kind id) with
        | some _ => some s
        | none => some { s with nodes := s.nodes ++ [.new (newPID s.address kind id) none opts positive] }
      else none
    | .call target call => some { s with calls := s.calls ++ [⟨target, call, .entry call⟩] }
    | .caller k => do
      let caller ← s.calls[k]?
      let (nodes, pc) ← s.look caller.target caller.call caller.pc
      pure { s with nodes := nodes, calls := s.calls.set k { caller with pc := pc } }
    | .act n i action => s.act n i action

end State

def initial (address : String) : State M W := ⟨address, [], []⟩

/-- What a lookup finds, with the nodes afterwards. -/
inductive Look (s : State M W) (target : PID) (call : Engine.Call M) :
    CallPc → List (Node M W) → CallPc → Prop where
  | present : s.get target = some m → Look s target call .sendPoisonPill s.nodes .lookup
  | absent : s.get target = none → Look s target call .sendPoisonPill s.nodes .refused
  | lost : s.get target = none → Look s target call .lookup s.nodes .lost
  | found : s.get target = some m → s.nodes[m]? = some node →
      Look s target call .lookup (s.nodes.set m { node with engine := enter node.engine call })
        (.inside m node.engine.pool.length node.engine.contexts)

/-- Everything that can happen in a tree of actors. -/
inductive Move (s : State M W) : Label M W → State M W → Prop where
  | spawn {id : String} (positive : 0 < opts.inboxSize) : s.get (newPID s.address kind id) = none →
      Move s (.spawn kind id opts)
        { s with nodes := s.nodes ++ [.new (newPID s.address kind id) none opts positive] }
  | taken {id : String} : Move s (.spawn kind id opts) s
  | call : Move s (.call target call) { s with calls := calls }
  | caller : Look s target call pc nodes pc' →
      Move s (.caller k) { s with nodes := nodes, calls := calls }
  | step : s.nodes[n]? = some node → node.engine.pool[i]? = some g → node.errand i = .none →
      (∀ r, g = .proc r → (∀ reason, r.act ≠ .cleanup reason) ∧
        ∀ reason child rest, r.act ≠ .poison reason (some child :: rest)) →
      node.advance i .step = some next → Move s (.act n i .step) (s.put n next)
  | returns : s.nodes[n]? = some node → node.errand i = .none →
      node.advance i (.receive .returns) = some next → Move s (.act n i .returns) (s.put n next)
  | cleanup : s.nodes[n]? = some node → node.engine.pool[i]? = some (.proc r) → r.act = .cleanup reason →
      node.errand i = .none → node.parent = none → node.advance i .step = some next →
      Move s (.act n i .step) (s.put n next)
  | deleted : s.nodes[n]? = some node → node.engine.pool[i]? = some (.proc r) → r.act = .cleanup reason →
      node.errand i = .none → node.parent = some p → node.advance i .step = some next →
      Move s (.act n i .step)
        { s with nodes := (s.nodes.set n next).modify p (·.deleteChild node.pid) }
  | poison : s.nodes[n]? = some node → node.engine.pool[i]? = some (.proc r) →
      r.act = .poison reason (some child :: rest) → node.errand i = .none →
      Move s (.act n i .step) (s.put n (node.assign i (.poison child .sendPoisonPill)))
  | look : s.nodes[n]? = some node → node.errand i = .poison child pc →
      Look s child .poison pc nodes pc' →
      Move s (.act n i .step) { s with nodes := nodes.modify n (·.assign i (.poison child pc')) }
  | answered : s.nodes[n]? = some node → node.errand i = .poison child pc → s.answered pc = true →
      node.advance i .step = some next → Move s (.act n i .step) (s.put n next)
  | spawnChild {id : String} (positive : 0 < opts.inboxSize) : s.nodes[n]? = some node →
      node.engine.pool[i]? = some (.proc r) → r.act = .receiving site → node.errand i = .none →
      child = newPID s.address (node.pid.id ++ pidSeparator ++ name) id → s.get child = none →
      Move s (.act n i (.spawnChild name id opts))
        { s with nodes := s.nodes.set n (node.assign i (.spawnChild child (some s.nodes.length))) ++
                   [.new child (some n) opts positive] }
  | rejected {id : String} : s.nodes[n]? = some node → node.engine.pool[i]? = some (.proc r) →
      r.act = .receiving site → node.errand i = .none →
      child = newPID s.address (node.pid.id ++ pidSeparator ++ name) id → s.get child = some m →
      Move s (.act n i (.spawnChild name id opts)) (s.put n (node.assign i (.spawnChild child none)))
  | setChild : s.nodes[n]? = some node → node.errand i = .spawnChild child spawned →
      node.advance i (.spawnChild child) = some next → Move s (.act n i .step) (s.put n next)

variable {id : String} {n m i : Nat}

theorem look_look {s : State M W} (looked : s.look target call pc = some (nodes, pc')) :
    Look s target call pc nodes pc' := by
  cases pc with
  | sendPoisonPill =>
    cases found : s.get target with
    | none =>
      simp only [State.look, found, Option.some.injEq, Prod.mk.injEq] at looked
      obtain ⟨rfl, rfl⟩ := looked
      exact .absent found
    | some m =>
      simp only [State.look, found, Option.some.injEq, Prod.mk.injEq] at looked
      obtain ⟨rfl, rfl⟩ := looked
      exact .present found
  | lookup =>
    cases found : s.get target with
    | none =>
      simp only [State.look, found, Option.some.injEq, Prod.mk.injEq] at looked
      obtain ⟨rfl, rfl⟩ := looked
      exact .lost found
    | some m =>
      simp only [State.look, found, Option.map_eq_some_iff, Prod.mk.injEq] at looked
      obtain ⟨node, there, rfl, rfl⟩ := looked
      exact .found found there
  | inside | refused | lost => cases looked

theorem spawnChild_move {s t : State M W} (there : s.nodes[n]? = some node)
    (found : node.engine.pool[i]? = some (.proc r)) (position : r.act = .receiving site)
    (free : node.errand i = .none) (stepped : s.spawnChild n i node name id opts = some t) :
    Move s (.act n i (.spawnChild name id opts)) t := by
  unfold State.spawnChild at stepped
  dsimp only at stepped
  split at stepped
  · split at stepped
    · cases stepped
      exact .rejected there found position free rfl (by assumption)
    · cases stepped
      exact .spawnChild _ there found position free rfl (by assumption)
  · cases stepped

theorem cleanup_move {s t : State M W} (there : s.nodes[n]? = some node)
    (found : node.engine.pool[i]? = some (.proc r)) (position : r.act = .cleanup reason)
    (free : node.errand i = .none) (stepped : s.cleanup n i node = some t) :
    Move s (.act n i .step) t := by
  obtain ⟨next, advanced, rfl⟩ := Option.map_eq_some_iff.mp stepped
  cases parent : node.parent with
  | none => exact .cleanup there found position free parent advanced
  | some p => exact .deleted there found position free parent advanced

theorem proceed_move {s t : State M W} (there : s.nodes[n]? = some node)
    (found : node.engine.pool[i]? = some g) (free : node.errand i = .none)
    (stepped : s.proceed n i node g action = some t) : Move s (.act n i action) t := by
  cases action with
  | returns =>
    obtain ⟨next, advanced, rfl⟩ := Option.map_eq_some_iff.mp stepped
    exact .returns there free advanced
  | step =>
    cases g with
    | caller request pc =>
      obtain ⟨next, advanced, rfl⟩ := Option.map_eq_some_iff.mp stepped
      exact .step there found free (by rintro r ⟨⟩) advanced
    | proc r =>
      simp only [State.proceed] at stepped
      split at stepped
      · exact cleanup_move there found (by assumption) free stepped
      · cases stepped
        exact .poison there found (by assumption) free
      · rename_i noCleanup noChild
        obtain ⟨next, advanced, rfl⟩ := Option.map_eq_some_iff.mp stepped
        refine .step there found free ?_ advanced
        rintro q ⟨⟩
        exact ⟨noCleanup, noChild⟩
  | spawnChild name id opts =>
    cases g with
    | caller request pc => cases stepped
    | proc r =>
      simp only [State.proceed] at stepped
      split at stepped
      · exact spawnChild_move there found (by assumption) free stepped
      · cases stepped

theorem act_move {s t : State M W} (stepped : s.act n i action = some t) :
    Move s (.act n i action) t := by
  obtain ⟨node, there, stepped⟩ := Option.bind_eq_some_iff.mp stepped
  obtain ⟨g, found, stepped⟩ := Option.bind_eq_some_iff.mp stepped
  split at stepped
  · exact proceed_move there found (by assumption) stepped
  · split at stepped
    · obtain ⟨next, advanced, rfl⟩ := Option.map_eq_some_iff.mp stepped
      exact .setChild there (by assumption) advanced
    · cases stepped
  · split at stepped
    · obtain ⟨next, advanced, rfl⟩ := Option.map_eq_some_iff.mp stepped
      exact .answered there (by assumption) (by assumption) advanced
    · obtain ⟨⟨nodes, pc⟩, looked, rfl⟩ := Option.map_eq_some_iff.mp stepped
      exact .look there (by assumption) (look_look looked)
  · cases stepped

theorem step_move {s t : State M W} (stepped : s.step label = some t) :
    Move s label t ∧ ∀ node ∈ s.nodes, node.engine.pool.any Goroutine.crashed = false := by
  unfold State.step at stepped
  split at stepped
  · cases stepped
  · rename_i running
    refine ⟨?_, by simpa using running⟩
    cases label with
    | spawn kind id opts =>
      dsimp only at stepped
      split at stepped
      · split at stepped
        · cases stepped
          exact .taken
        · cases stepped
          exact .spawn _ (by assumption)
      · cases stepped
    | call target call =>
      cases stepped
      exact .call
    | caller k =>
      obtain ⟨caller, found, stepped⟩ := Option.bind_eq_some_iff.mp stepped
      obtain ⟨⟨nodes, pc⟩, looked, stepped⟩ := Option.bind_eq_some_iff.mp stepped
      cases stepped
      exact .caller (look_look looked)
    | act n i action => exact act_move stepped

/-! Every actor of a tree runs as an actor of its own. -/

/-- What happens to an actor while the tree takes a step. -/
structure Node.Evolves (a b : Node M W) : Prop where
  pid : b.pid = a.pid
  parent : b.parent = a.parent
  runs : Reaches (restrict Engine.calm Engine.State.step) a.engine b.engine

theorem Node.Evolves.refl (a : Node M W) : a.Evolves a := ⟨rfl, rfl, .refl _⟩

theorem Node.Evolves.trans {a b c : Node M W} (first : a.Evolves b) (second : b.Evolves c) :
    a.Evolves c :=
  ⟨second.pid.trans first.pid, second.parent.trans first.parent, first.runs.trans second.runs⟩

theorem calm_step {e f : Engine.State M W} (label : Engine.Label M) (calm : Engine.calm e label = true)
    (stepped : e.step label = some f) :
    Reaches (restrict Engine.calm Engine.State.step) e f := by
  refine .next (.refl e) (l := label) ?_
  rw [restrict, if_pos calm, stepped]

/-- The goroutine that joined the pool last takes a step. -/
theorem caller_step {a : Actor M W} {pool : List (Goroutine M)} {request : Request M}
    (running : pool.any Goroutine.crashed = false) (called : a.call request pc = some (b, next, []))
    (contexts : Nat) :
    Reaches (restrict Engine.calm Engine.State.step)
      ⟨a, pool ++ [.caller request pc], contexts⟩ ⟨b, pool ++ [.caller request next], contexts⟩ := by
  have alive : (pool ++ [Goroutine.caller request pc]).any Goroutine.crashed = false := by
    rw [List.any_append, running]
    rfl
  apply calm_step (.act pool.length .step) rfl
  rw [Engine.State.step, alive]
  simp [Actor.act, called]

/-- A call that has found the actor has made its lookups in the engine of the actor. -/
theorem enter_reaches (e : Engine.State M W) (call : Engine.Call M)
    (registered : e.actor.registered = true) (running : e.pool.any Goroutine.crashed = false) :
    Reaches (restrict Engine.calm Engine.State.step) e (enter e call) := by
  have called : e.step (.call call) = some (e.call call) := by
    rw [Engine.State.step, running]
    rfl
  have found (a : Actor M W) (request : Request M) (known : a.registered = true) :
      a.call request .lookup = some (a, .inbox request.pc, []) := by
    simp [Actor.call, Actor.sendLocal, known]
  have poisoned (graceful : Bool) : Reaches (restrict Engine.calm Engine.State.step)
      ⟨e.actor, e.pool ++ [.caller (.poison graceful e.contexts) .sendPoisonPill], e.contexts + 1⟩
      ⟨{ e.actor with accepted := e.actor.accepted ++ [e.contexts] },
        e.pool ++ [.caller (.poison graceful e.contexts) (.inbox (Request.pc (.poison graceful e.contexts)))],
        e.contexts + 1⟩ := by
    have accepted : e.actor.call (.poison graceful e.contexts) .sendPoisonPill =
        some ({ e.actor with accepted := e.actor.accepted ++ [e.contexts] }, .lookup, []) := by
      simp [Actor.call, Actor.sendPoisonPill, registered, Request.contexts]
    exact (caller_step running accepted _).trans (caller_step running (found _ _ (by exact registered)) _)
  refine (calm_step _ rfl called).trans ?_
  cases call with
  | stop => exact poisoned false
  | poison => exact poisoned true
  | send | sendPriority | clearMailbox =>
    simp only [enter, Engine.Call.request, Request.contexts, List.append_nil, List.length_nil]
    exact caller_step running (found _ _ registered) _

theorem advance_some {node next : Node M W} (advanced : node.advance i action = some next) :
    ∃ engine, node.engine.step (.act i action) = some engine ∧
      next = { node.assign i .none with engine := engine } := by
  obtain ⟨engine, stepped, rfl⟩ := Option.map_eq_some_iff.mp advanced
  exact ⟨engine, stepped, rfl⟩

theorem advance_evolves {node next : Node M W} (calm : action.calm = true)
    (advanced : node.advance i action = some next) : node.Evolves next := by
  obtain ⟨engine, stepped, rfl⟩ := advance_some advanced
  exact ⟨rfl, rfl, calm_step (.act i action) calm stepped⟩

theorem deleteChild_evolves (node : Node M W) (child : PID)
    (running : node.engine.pool.any Goroutine.crashed = false) : node.Evolves (node.deleteChild child) := by
  refine ⟨rfl, rfl, calm_step (.childStopped child) rfl ?_⟩
  rw [Engine.State.step, running]
  rfl

/-- A lookup finds a registered actor of the id. -/
theorem get_some {s : State M W} (found : s.get pid = some m) :
    ∃ node, s.nodes[m]? = some node ∧ node.engine.actor.registered = true ∧ node.pid.id = pid.id := by
  obtain ⟨bound, holds, -⟩ := List.findIdx?_eq_some_iff_getElem.mp found
  rw [Bool.and_eq_true, decide_eq_true_eq] at holds
  exact ⟨_, List.getElem?_eq_getElem bound, holds⟩

theorem get_none {s : State M W} {node : Node M W} (missing : s.get pid = none) (there : s.nodes[m]? = some node)
    (registered : node.engine.actor.registered = true) : node.pid.id ≠ pid.id := by
  have absent := List.findIdx?_eq_none_iff.mp missing node (List.mem_of_getElem? there)
  simpa [registered] using absent

/-- A node that has just been added. -/
structure Fresh (s : State M W) (node : Node M W) : Prop where
  free : s.get node.pid = none
  new : ∃ opts positive, node = .new node.pid node.parent opts positive

/-- The actors of a state go on, and at most one is added. -/
def Follows (s t : State M W) : Prop :=
  ∃ nodes : List (Node M W), (∀ m : Nat, Option.Rel Node.Evolves s.nodes[m]? nodes[m]?) ∧
    (t.nodes = nodes ∨ ∃ node, Fresh s node ∧ t.nodes = nodes ++ [node])

theorem put_evolves {nodes : List (Node M W)} {node next : Node M W} (there : nodes[n]? = some node)
    (evolves : node.Evolves next) (m : Nat) : Option.Rel Node.Evolves nodes[m]? (nodes.set n next)[m]? := by
  refine Pool.rel_set .refl ?_ m
  intro other found
  rw [there] at found
  cases found
  exact evolves

theorem enter_evolves {s : State M W} {node : Node M W}
    (running : ∀ node ∈ s.nodes, node.engine.pool.any Goroutine.crashed = false)
    (known : s.get target = some m) (there : s.nodes[m]? = some node) :
    node.Evolves { node with engine := enter node.engine call } := by
  obtain ⟨same, found, registered, -⟩ := get_some known
  rw [there] at found
  cases found
  exact ⟨rfl, rfl, enter_reaches _ _ registered (running node (List.mem_of_getElem? there))⟩

theorem look_follows {s : State M W} {nodes : List (Node M W)}
    (running : ∀ node ∈ s.nodes, node.engine.pool.any Goroutine.crashed = false)
    (look : Look s target call pc nodes pc') (m : Nat) : Option.Rel Node.Evolves s.nodes[m]? nodes[m]? := by
  cases look with
  | present | absent | lost => exact Pool.rel_refl .refl m
  | found known there => exact put_evolves there (enter_evolves running known there) m

theorem assign_evolves (node : Node M W) (i : Nat) (errand : Errand) :
    node.Evolves (node.assign i errand) := ⟨rfl, rfl, .refl _⟩

/-- The goroutine at the start of `cleanup` goes on to its children. -/
theorem cleanup_pool {node next : Node M W} {r : Routine M} (found : node.engine.pool[i]? = some (.proc r))
    (position : r.act = .cleanup reason) (advanced : node.advance i .step = some next) :
    next.engine = { node.engine with
      actor := { node.engine.actor with parent := false }
      pool := node.engine.pool.set i (.proc (r.goto (.childrenLen reason))) } := by
  obtain ⟨engine, stepped, rfl⟩ := advance_some advanced
  unfold Engine.State.step at stepped
  split at stepped
  · cases stepped
  · simp only [found, Actor.act, Actor.step, position, Option.bind_eq_bind, Option.bind_some,
      Option.map_some, Option.pure_def, Option.some.injEq] at stepped
    subst stepped
    simp

theorem cleanup_running {node next : Node M W} {r : Routine M}
    (running : node.engine.pool.any Goroutine.crashed = false)
    (found : node.engine.pool[i]? = some (.proc r)) (position : r.act = .cleanup reason)
    (advanced : node.advance i .step = some next) : next.engine.pool.any Goroutine.crashed = false := by
  rw [cleanup_pool found position advanced]
  rw [List.any_eq_false] at running ⊢
  intro g member
  cases List.mem_or_eq_of_mem_set member with
  | inl old => exact running g old
  | inr same =>
    subst same
    exact Bool.false_ne_true

/-- Nobody has crashed once a goroutine has begun its `cleanup`. -/
theorem put_running {s : State M W} {node next elder : Node M W} {r : Routine M}
    (running : ∀ node ∈ s.nodes, node.engine.pool.any Goroutine.crashed = false)
    (there : s.nodes[n]? = some node) (found : node.engine.pool[i]? = some (.proc r))
    (position : r.act = .cleanup reason) (advanced : node.advance i .step = some next)
    (present : (s.put n next).nodes[m]? = some elder) :
    elder.engine.pool.any Goroutine.crashed = false := by
  cases List.mem_or_eq_of_mem_set (List.mem_of_getElem? present) with
  | inl old => exact running elder old
  | inr same =>
    subst same
    exact cleanup_running (running _ (List.mem_of_getElem? there)) found position advanced

theorem Move.follows {s t : State M W} (move : Move s label t)
    (running : ∀ node ∈ s.nodes, node.engine.pool.any Goroutine.crashed = false) : Follows s t := by
  cases move with
  | spawn positive free =>
    exact ⟨s.nodes, fun m => Pool.rel_refl .refl m, .inr ⟨_, ⟨free, _, positive, rfl⟩, rfl⟩⟩
  | taken | call => exact ⟨s.nodes, fun m => Pool.rel_refl .refl m, .inl rfl⟩
  | caller look => exact ⟨_, look_follows running look, .inl rfl⟩
  | step there _ _ _ advanced | cleanup there _ _ _ _ advanced | answered there _ _ advanced
  | returns there _ advanced | setChild there _ advanced =>
    exact ⟨_, put_evolves there (advance_evolves rfl advanced), .inl rfl⟩
  | poison there | rejected there => exact ⟨_, put_evolves there (assign_evolves _ _ _), .inl rfl⟩
  | deleted there found position _ _ advanced =>
    refine ⟨_, fun m => ?_, .inl rfl⟩
    refine Pool.rel_trans .trans (put_evolves there (advance_evolves rfl advanced) m) ?_
    refine Pool.rel_modify .refl _ ?_ m
    intro parent present
    apply deleteChild_evolves
    exact put_running running there found position advanced present
  | look there _ look =>
    refine ⟨_, fun m => ?_, .inl rfl⟩
    refine Pool.rel_trans .trans (look_follows running look m) ?_
    exact Pool.rel_modify .refl _ (fun other _ => assign_evolves _ _ _) m
  | spawnChild positive there _ _ _ _ free =>
    exact ⟨_, put_evolves there (assign_evolves _ _ _), .inr ⟨_, ⟨free, _, positive, rfl⟩, rfl⟩⟩

theorem Follows.back {s t : State M W} (follows : Follows s t) (there : t.nodes[m]? = some b) :
    (∃ a, s.nodes[m]? = some a ∧ a.Evolves b) ∨ (m = s.nodes.length ∧ Fresh s b) := by
  obtain ⟨nodes, moved, more⟩ := follows
  have old (found : nodes[m]? = some b) : ∃ a, s.nodes[m]? = some a ∧ a.Evolves b := by
    have related := moved m
    rw [found] at related
    generalize s.nodes[m]? = x at related
    cases related with
    | @some a _ evolves => exact ⟨a, rfl, evolves⟩
  cases more with
  | inl same => exact .inl (old (same ▸ there))
  | inr added =>
    obtain ⟨node, fresh, same⟩ := added
    rw [same, List.getElem?_append] at there
    split at there
    · exact .inl (old there)
    · rename_i beyond
      rw [List.getElem?_singleton] at there
      split at there
      · cases there
        rw [Pool.rel_length moved]
        exact .inr ⟨by omega, fresh⟩
      · cases there

end Hollywood.Tree
