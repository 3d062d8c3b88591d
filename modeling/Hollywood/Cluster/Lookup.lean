import Hollywood.Cluster
import Mathlib.Data.List.TakeWhile

/-! Lookup of active actors by kind. An actor is activated under `kind/id`, and its kind
is read off its id again as all that stands before the first slash. -/
namespace Hollywood.Cluster

/-- `strings.Split(s, "/")`. -/
def splitID (s : String) : List String := (s.toList.splitOn '/').map String.ofList

section
variable {α : Type} [DecidableEq α]

/-- The first part of a split is all that stands before the first separator. -/
theorem splitOn_head (sep : α) (l : List α) :
    (l.splitOn sep).head? = some (l.takeWhile (· ≠ sep)) := by
  induction l with
  | nil => rfl
  | cons x rest ih =>
    rw [List.splitOn] at ih ⊢
    rw [List.splitOnP_cons_eq_if_modifyHead]
    by_cases here : x = sep
    · simp [here]
    · simp only [beq_iff_eq, here, if_false, List.head?_modifyHead, ih, Option.map_some]
      rw [List.takeWhile_cons_of_pos (by simpa using here)]

theorem takeWhile_separated (sep : α) (l rest : List α) :
    (l ++ sep :: rest).takeWhile (· ≠ sep) = l.takeWhile (· ≠ sep) := by
  induction l with
  | nil => simp
  | cons x l ih => simp only [List.cons_append, List.takeWhile_cons, ih]

theorem takeWhile_plain_iff (sep : α) (l : List α) : l.takeWhile (· ≠ sep) = l ↔ sep ∉ l := by
  rw [List.takeWhile_eq_self_iff]
  constructor
  · intro plain inside
    simpa using plain sep inside
  · intro plain x inside
    simp only [ne_eq, decide_not, Bool.not_eq_eq_eq_not, Bool.not_true, decide_eq_false_iff_not]
    rintro rfl
    exact plain inside

end

/-- The answers to `getActive`: a PID, or nil, by id and a slice by kind. -/
inductive Active where
  | pid (pid : Option PID)
  | pids (pids : List PID)
  deriving DecidableEq

namespace Agent

/-- The loop of `handleGetActive` over the map of active actors. -/
def activeByKind (kind : String) : List PID → List PID
  | [] => []
  | pid :: rest =>
    match splitID pid.id with
    | [] => []
    | first :: _ => if kind = first then pid :: activeByKind kind rest else activeByKind kind rest

/-- The answers to a `getActive`, with the order in which it ranges over the map. -/
def handleGetActive (a : Agent) (order : List PID) (id kind : String) : List Active :=
  (if id.isEmpty then [] else [.pid (a.activated.get? id)]) ++
    if kind.isEmpty then [] else [.pids (activeByKind kind order)]

end Agent

/-- What the loop takes for the kind of an actor. -/
def kindOf (id : String) : String := String.ofList (id.toList.takeWhile (· ≠ '/'))

theorem splitID_eq (id : String) : ∃ parts, splitID id = kindOf id :: parts := by
  have head : (splitID id).head? = some (kindOf id) := by
    rw [splitID, List.head?_map, splitOn_head, kindOf, Option.map_some]
  cases split : splitID id with
  | nil => simp [split] at head
  | cons first parts =>
    rw [split] at head
    cases head
    exact ⟨parts, rfl⟩

/-- The loop never breaks off, so it is a filter. -/
theorem Agent.activeByKind_eq (kind : String) (order : List PID) :
    activeByKind kind order = order.filter fun pid => kind = kindOf pid.id := by
  induction order with
  | nil => rfl
  | cons pid rest ih =>
    obtain ⟨parts, split⟩ := splitID_eq pid.id
    rw [activeByKind, split, List.filter_cons, ih]
    simp only [decide_eq_true_eq]

theorem kindOf_actorID (kind id : String) : kindOf (actorID kind id) = kindOf kind := by
  have chars : (actorID kind id).toList = kind.toList ++ '/' :: id.toList := by
    simp [actorID, String.toList_append]
  rw [kindOf, kindOf, chars, takeWhile_separated]

theorem kindOf_eq_iff (kind : String) : kindOf kind = kind ↔ '/' ∉ kind.toList := by
  rw [← takeWhile_plain_iff, kindOf, ← String.toList_inj, String.toList_ofList]

/-- An activation that an agent was told of, with the kind and the id it was made for. -/
structure Activated where
  kind : String
  id : String
  address : String
  deriving DecidableEq

/-- The PID of an activated actor, as `newProcess` makes it. -/
def Activated.pid (x : Activated) : PID := ⟨x.address, actorID x.kind x.id⟩

/-- The kind that is read off an activated actor is its own if there is no slash in it. -/
theorem Activated.kindOf_pid (x : Activated) : kindOf x.pid.id = x.kind ↔ '/' ∉ x.kind.toList := by
  rw [pid, kindOf_actorID, kindOf_eq_iff]

/-- For every agent whose active actors were activated by some of a list of activations,
with any kinds and ids: the lookup by every kind returns exactly the active actors that
were activated with it, each once, if and only if there is no slash in the kind of any of
these. -/
theorem lookup_by_kind_exact_iff (a : Agent) (activations : List Activated)
    (recorded : ∀ pid ∈ a.activated.entries, ∃ x ∈ activations, x.pid = pid)
    (named : ∀ x ∈ activations, x.kind ≠ "") :
    (∀ kind order, kind ≠ "" → order.Perm a.activated.entries →
      ∃ pids, a.handleGetActive order "" kind = [.pids pids] ∧ pids.Nodup ∧
        ∀ pid, pid ∈ pids ↔ pid ∈ a.activated.entries ∧ ∃ x ∈ activations, x.kind = kind ∧ x.pid = pid) ↔
      ∀ x ∈ activations, x.pid ∈ a.activated.entries → '/' ∉ x.kind.toList := by
  have answer (kind : String) (order : List PID) (given : kind ≠ "") :
      a.handleGetActive order "" kind = [.pids (order.filter fun pid => kind = kindOf pid.id)] := by
    simp [Agent.handleGetActive, given, Agent.activeByKind_eq]
  constructor
  · intro exact_ x activated active
    -- the kind under which the actor is found is the one it was activated with
    obtain ⟨pids, answered, -, members⟩ :=
      exact_ x.kind a.activated.entries (named x activated) (.refl _)
    rw [answer _ _ (named x activated)] at answered
    cases answered
    have found := (members x.pid).mpr ⟨active, x, activated, rfl, rfl⟩
    rw [List.mem_filter, decide_eq_true_eq] at found
    exact x.kindOf_pid.mp found.2.symm
  · intro plain kind order given ranged
    refine ⟨_, answer kind order given, ?_, ?_⟩
    · exact (ranged.nodup_iff.mpr (List.Nodup.of_map _ a.activated.distinct)).filter _
    · intro pid
      rw [List.mem_filter, decide_eq_true_eq, ranged.mem_iff]
      refine and_congr_right fun active => ?_
      constructor
      · rintro rfl
        obtain ⟨x, activated, rfl⟩ := recorded pid active
        exact ⟨x, activated, (x.kindOf_pid.mpr (plain x activated active)).symm, rfl⟩
      · rintro ⟨x, activated, rfl, rfl⟩
        exact (x.kindOf_pid.mpr (plain x activated active)).symm

/-- An agent that has been told of activations. -/
def recording (activations : List Activated) : Agent :=
  activations.foldl (fun a x => a.addActivated x.pid) (newAgent "h:1" [])

/-- Whatever the agent is told, its active actors are among them. -/
theorem recorded_of_recording (activations : List Activated) :
    ∀ pid ∈ (recording activations).activated.entries, ∃ x ∈ activations, x.pid = pid := by
  have general (rest : List Activated) (a : Agent)
      (known : ∀ pid ∈ a.activated.entries, ∃ x ∈ activations, x.pid = pid) (inside : rest ⊆ activations) :
      ∀ pid ∈ (rest.foldl (fun a x => a.addActivated x.pid) a).activated.entries,
        ∃ x ∈ activations, x.pid = pid := by
    induction rest generalizing a with
    | nil => exact known
    | cons x rest ih =>
      obtain ⟨here, later⟩ := List.cons_subset.mp inside
      apply ih (a.addActivated x.pid) _ later
      intro pid member
      cases Keyed.mem_add member with
      | inl old => exact known pid old
      | inr new => exact ⟨x, here, new.symm⟩
  exact general activations (newAgent "h:1" []) (List.forall_mem_nil _) (List.Subset.refl _)

/-- Two kinds, one of whose actors has an id with a slash in it, and an activation that
comes too late. -/
def players : List Activated :=
  [⟨"player", "1", "h:1"⟩, ⟨"player", "eu/2", "h:2"⟩, ⟨"room", "1", "h:2"⟩, ⟨"player", "1", "h:3"⟩]

theorem lookup_by_kind_exact_iff_players :
    (recording players).handleGetActive (recording players).activated.entries "" "player" =
        [.pids [⟨"h:1", "player/1"⟩, ⟨"h:2", "player/eu/2"⟩]] ∧
      ∀ kind order, kind ≠ "" → order.Perm (recording players).activated.entries →
        ∃ pids, (recording players).handleGetActive order "" kind = [.pids pids] ∧ pids.Nodup ∧
          ∀ pid, pid ∈ pids ↔ pid ∈ (recording players).activated.entries ∧
            ∃ x ∈ players, x.kind = kind ∧ x.pid = pid := by
  refine ⟨by decide +kernel, ?_⟩
  refine (lookup_by_kind_exact_iff _ players (recorded_of_recording players) ?_).mpr ?_
  · decide +kernel
  · decide +kernel

/-- An actor of the kind `game/room` is not found under its kind, but under `game`, which
it was not activated with. -/
theorem slashed_kind_not_found :
    (recording [⟨"game/room", "1", "h:1"⟩]).activated.entries = [⟨"h:1", "game/room/1"⟩] ∧
      (recording [⟨"game/room", "1", "h:1"⟩]).handleGetActive [⟨"h:1", "game/room/1"⟩] "" "game/room" =
        [.pids []] ∧
      (recording [⟨"game/room", "1", "h:1"⟩]).handleGetActive [⟨"h:1", "game/room/1"⟩] "" "game" =
        [.pids [⟨"h:1", "game/room/1"⟩]] := by
  decide +kernel

end Hollywood.Cluster
