import Hollywood.Foundation.Pool
import Hollywood.Foundation.Transition
import Hollywood.Tree

/-! Requests and their responses (`Request` of `actor/engine.go`, `actor/response.go`).
Every request makes a response, which is registered under an id that is drawn at
random; whoever has received the request answers by sending to that id. Looking up
the process and sending on its channel are separate steps. -/
namespace Hollywood.Responses
open Transition

/-- A value sent to a response, with the request that its sender answers, which the
code does not see. -/
structure Answer (M : Type) where
  request : Nat
  msg : M
  deriving DecidableEq, Repr

/-- Responses are numbered as they are made; the processes of actors are not told apart. -/
inductive Process where
  | response (k : Nat)
  | actor
  deriving DecidableEq, Repr

inductive RequestPc where
  | add
  | send
  | returned
  deriving DecidableEq, Repr

/-- `Result` gives up with no outcome. -/
inductive ResultPc (M : Type) where
  | select
  | remove (outcome : Option (Answer M))
  | returned (outcome : Option (Answer M))
  deriving DecidableEq, Repr

inductive AnswerPc where
  | lookup
  | send (k : Nat)
  | delivered
  | dead
  deriving DecidableEq, Repr

inductive Goroutine (M : Type) where
  | request (k : Nat) (pc : RequestPc)
  | result (k : Nat) (pc : ResultPc M)
  | answer (answer : Answer M) (pc : AnswerPc)
  deriving DecidableEq, Repr

/-- The ids of the responses made so far, the buffers of their channels, which hold one
value, and the registry. -/
structure State (M : Type) where
  ids : List String
  results : Nat → Option (Answer M)
  registry : String → Option Process
  pool : List (Goroutine M)

abbrev maxInt32 : Nat := 2147483647

inductive Label (M : Type) where
  | request (draw : Fin maxInt32)
  | spawn (id : String)
  | remove (id : String)
  | result (k : Nat)
  | answer (k : Nat) (msg : M)
  | step (i : Nat)
  | receive (i : Nat)
  | timeout (i : Nat)
  deriving DecidableEq, Repr

variable {M : Type}

def initial : State M := ⟨[], fun _ => none, fun _ => none, []⟩

def responseId (draw : Fin maxInt32) : String := "response" ++ Tree.pidSeparator ++ toString draw.val

/-- `Registry.add`, which drops a process whose id is taken. -/
def add (registry : String → Option Process) (id : String) (proc : Process) : String → Option Process :=
  if (registry id).isSome then registry else Function.update registry id (some proc)

/-- The request has been sent, so that it can be answered. -/
def Goroutine.sent (k : Nat) : Goroutine M → Bool
  | .request j .returned => j = k
  | _ => false

namespace State

/-- `Request` has returned the response, or is about to. -/
def sent (s : State M) (k : Nat) : Bool := s.pool.any (·.sent k)

/-- The next step of a goroutine, other than the choice that `Result` makes. -/
def act (s : State M) (i : Nat) : Goroutine M → Option (State M)
  | .request k .add => do
    let id ← s.ids[k]?
    pure { s with registry := add s.registry id (.response k), pool := s.pool.set i (.request k .send) }
  | .request k .send => some { s with pool := s.pool.set i (.request k .returned) }
  | .result k (.remove outcome) => do
    let id ← s.ids[k]?
    pure { s with
      registry := Function.update s.registry id none
      pool := s.pool.set i (.result k (.returned outcome)) }
  | .answer answer .lookup => do
    let id ← s.ids[answer.request]?
    pure { s with
      pool := s.pool.set i (.answer answer
        (match s.registry id with
          | some (.response k) => .send k
          | some .actor => .delivered
          | none => .dead)) }
  | .answer answer (.send k) =>
    if (s.results k).isNone then
      some { s with
        results := Function.update s.results k (some answer)
        pool := s.pool.set i (.answer answer .delivered) }
    else none
  | _ => none

def step (s : State M) : Label M → Option (State M)
  | .request draw =>
    some { s with
      ids := s.ids ++ [responseId draw]
      results := Function.update s.results s.ids.length none
      pool := s.pool ++ [.request s.ids.length .add] }
  | .spawn id => some { s with registry := add s.registry id .actor }
  | .remove id =>
    if s.registry id = some .actor then some { s with registry := Function.update s.registry id none }
    else none
  | .result k => if s.sent k then some { s with pool := s.pool ++ [.result k .select] } else none
  | .answer k msg =>
    if s.sent k then some { s with pool := s.pool ++ [.answer ⟨k, msg⟩ .lookup] } else none
  | .step i => s.pool[i]?.bind (s.act i)
  | .receive i =>
    match s.pool[i]? with
    | some (.result k .select) => do
      let answer ← s.results k
      pure { s with
        results := Function.update s.results k none
        pool := s.pool.set i (.result k (.remove (some answer))) }
    | _ => none
  | .timeout i =>
    match s.pool[i]? with
    | some (.result k .select) => some { s with pool := s.pool.set i (.result k (.remove none)) }
    | _ => none

end State

/-- All that a step can do. -/
inductive Move (s : State M) : Label M → State M → Prop where
  | request : Move s (.request draw)
      ⟨s.ids ++ [responseId draw], Function.update s.results s.ids.length none, s.registry,
        s.pool ++ [.request s.ids.length .add]⟩
  | spawn {id : String} : Move s (.spawn id) { s with registry := add s.registry id .actor }
  | remove {id : String} : s.registry id = some .actor →
      Move s (.remove id) { s with registry := Function.update s.registry id none }
  | result : Move s (.result k) { s with pool := s.pool ++ [.result k .select] }
  | answer : Move s (.answer k msg) { s with pool := s.pool ++ [.answer ⟨k, msg⟩ .lookup] }
  | added {id : String} : s.pool[i]? = some (.request k .add) → s.ids[k]? = some id →
      Move s (.step i) { s with
        registry := add s.registry id (.response k)
        pool := s.pool.set i (.request k .send) }
  | sent : s.pool[i]? = some (.request k .send) →
      Move s (.step i) { s with pool := s.pool.set i (.request k .returned) }
  | received : s.pool[i]? = some (.result k .select) → s.results k = some answer →
      Move s (.receive i) { s with
        results := Function.update s.results k none
        pool := s.pool.set i (.result k (.remove (some answer))) }
  | timedOut : s.pool[i]? = some (.result k .select) →
      Move s (.timeout i) { s with pool := s.pool.set i (.result k (.remove none)) }
  | removed {id : String} : s.pool[i]? = some (.result k (.remove outcome)) → s.ids[k]? = some id →
      Move s (.step i) { s with
        registry := Function.update s.registry id none
        pool := s.pool.set i (.result k (.returned outcome)) }
  | found {id : String} : s.pool[i]? = some (.answer a .lookup) → s.ids[a.request]? = some id →
      s.registry id = some (.response k) →
      Move s (.step i) { s with pool := s.pool.set i (.answer a (.send k)) }
  | elsewhere : s.pool[i]? = some (.answer a .lookup) → (pc = .delivered ∨ pc = .dead) →
      Move s (.step i) { s with pool := s.pool.set i (.answer a pc) }
  | delivered : s.pool[i]? = some (.answer a (.send k)) →
      Move s (.step i) { s with
        results := Function.update s.results k (some a)
        pool := s.pool.set i (.answer a .delivered) }

theorem act_move {s t : State M} (found : s.pool[i]? = some g) (acted : s.act i g = some t) :
    Move s (.step i) t := by
  cases g with
  | request k pc =>
    cases pc with
    | add =>
      simp only [State.act, Option.bind_eq_bind, Option.bind_eq_some_iff, Option.pure_def] at acted
      obtain ⟨id, named, same⟩ := acted
      cases same
      exact .added found named
    | send =>
      cases acted
      exact .sent found
    | returned => cases acted
  | result k pc =>
    cases pc with
    | remove outcome =>
      simp only [State.act, Option.bind_eq_bind, Option.bind_eq_some_iff, Option.pure_def] at acted
      obtain ⟨id, named, same⟩ := acted
      cases same
      exact .removed found named
    | _ => cases acted
  | answer a pc =>
    cases pc with
    | lookup =>
      simp only [State.act, Option.bind_eq_bind, Option.bind_eq_some_iff, Option.pure_def] at acted
      obtain ⟨id, named, same⟩ := acted
      cases same
      cases registered : s.registry id with
      | none => exact .elsewhere found (.inr rfl)
      | some proc =>
        cases proc with
        | response k => exact .found found named registered
        | actor => exact .elsewhere found (.inl rfl)
    | send k =>
      simp only [State.act] at acted
      split at acted
      · cases acted
        exact .delivered found
      · cases acted
    | _ => cases acted

theorem step_move {s t : State M} (stepped : s.step label = some t) : Move s label t := by
  cases label with
  | request draw =>
    cases stepped
    exact .request
  | spawn id =>
    cases stepped
    exact .spawn
  | remove id =>
    simp only [State.step] at stepped
    split at stepped
    · rename_i registered
      cases stepped
      exact .remove registered
    · cases stepped
  | result k =>
    simp only [State.step] at stepped
    split at stepped
    · cases stepped
      exact .result
    · cases stepped
  | answer k msg =>
    simp only [State.step] at stepped
    split at stepped
    · cases stepped
      exact .answer
    · cases stepped
  | step i =>
    obtain ⟨g, found, acted⟩ := Option.bind_eq_some_iff.mp stepped
    exact act_move found acted
  | receive i =>
    simp only [State.step] at stepped
    split at stepped
    · rename_i found
      simp only [Option.bind_eq_bind, Option.bind_eq_some_iff, Option.pure_def] at stepped
      obtain ⟨answer, buffered, same⟩ := stepped
      cases same
      exact .received found buffered
    · cases stepped
  | timeout i =>
    simp only [State.step] at stepped
    split at stepped
    · rename_i found
      cases stepped
      exact .timedOut found
    · cases stepped

namespace Goroutine

/-- The request that a call is about. -/
def about : Goroutine M → Nat
  | .request k _ | .result k _ => k
  | .answer a _ => a.request

def finished : Goroutine M → Bool
  | .request _ .returned | .result _ (.returned _) | .answer _ .delivered | .answer _ .dead => true
  | _ => false

/-- A `Request` that has been through `Registry.add`. -/
def added (k : Nat) : Goroutine M → Bool
  | .request j .send | .request j .returned => j = k
  | _ => false

/-- A `Result` that has returned. -/
def ended (k : Nat) : Goroutine M → Bool
  | .result j (.returned _) => j = k
  | _ => false

/-- What the call holds answers its own request. -/
def Attributed : Goroutine M → Prop
  | .result k (.remove (some a)) | .result k (.returned (some a)) => a.request = k
  | .answer a (.send k) => a.request = k
  | _ => True

end Goroutine

/-- The response was handed to `Registry.add` and no `Result` has returned for it. -/
def State.Outstanding (s : State M) (k : Nat) : Prop :=
  (∃ g ∈ s.pool, g.added k = true) ∧ ∀ g ∈ s.pool, g.ended k = false

/-- No later request has drawn the id of this one. -/
def State.latest (s : State M) (k : Nat) : Bool :=
  s.ids[k]?.any fun id => id ∉ s.ids.drop (k + 1)

/-- A request draws an id that nobody is registered under and that no call is about;
once it is drawn again, the `Result` of the older request is not called and nobody
answers it; no actor is spawned under an id that a request has drawn. -/
def unshared (s : State M) : Label M → Bool
  | .request draw => (s.registry (responseId draw)).isNone &&
      s.pool.all fun g => g.finished || s.ids[g.about]? ≠ some (responseId draw)
  | .spawn id => id ∉ s.ids
  | .result k | .answer k _ => s.latest k
  | _ => true

theorem latest_iff {s : State M} : s.latest k = true ↔
    ∃ id, s.ids[k]? = some id ∧ ∀ j, k < j → s.ids[j]? ≠ some id := by
  simp only [State.latest, Option.any_eq_true, decide_eq_true_eq]
  apply exists_congr
  intro id
  apply and_congr_right
  intro named
  rw [List.mem_iff_getElem?, not_exists]
  constructor
  · intro unseen j later same
    apply unseen (j - (k + 1))
    rw [List.getElem?_drop]
    rwa [Nat.add_sub_cancel' later]
  · intro unseen j same
    rw [List.getElem?_drop] at same
    exact unseen _ (by omega) same

/-- Two requests with one id are not both the latest. -/
theorem latest_unique {s : State M} {id : String} (first : s.latest j = true) (second : s.latest k = true)
    (named : s.ids[j]? = some id) (named' : s.ids[k]? = some id) : j = k := by
  obtain ⟨left, same, unseen⟩ := latest_iff.mp first
  obtain ⟨right, same', unseen'⟩ := latest_iff.mp second
  cases same.symm.trans named
  cases same'.symm.trans named'
  rcases Nat.lt_trichotomy j k with before | rfl | after
  · exact absurd named' (unseen k before)
  · rfl
  · exact absurd named (unseen' j after)

/-- The state of affairs when ids are not shared. -/
structure Isolated (s : State M) : Prop where
  known : ∀ g ∈ s.pool, g.about < s.ids.length
  current : ∀ g ∈ s.pool, g.finished = false → s.latest g.about = true
  registered : ∀ id k, s.registry id = some (.response k) → s.ids[k]? = some id ∧ s.latest k = true
  unclaimed : ∀ k id, .request k .add ∈ s.pool → s.ids[k]? = some id →
    ∀ proc, s.registry id = some proc → proc = .response k
  outstanding : ∀ k id, s.Outstanding k → s.ids[k]? = some id → s.registry id = some (.response k)
  buffered : ∀ k a, s.results k = some a → a.request = k
  attributed : ∀ g ∈ s.pool, g.Attributed

theorem initial_isolated : Isolated (initial : State M) := by
  constructor
  · rintro g ⟨⟩
  · rintro g ⟨⟩
  · rintro id k ⟨⟩
  · rintro k id ⟨⟩
  · rintro k id ⟨⟨g, member, added⟩, ended⟩
    cases member
  · rintro k a ⟨⟩
  · rintro g ⟨⟩

/-- A later draw of another id leaves a request the latest one. -/
theorem latest_drawn {s t : State M} (drawn : t.ids = s.ids ++ [fresh]) (latest : s.latest k = true)
    (other : s.ids[k]? ≠ some fresh) : t.latest k = true := by
  obtain ⟨id, named, unseen⟩ := latest_iff.mp latest
  apply latest_iff.mpr
  refine ⟨id, ?_, ?_⟩
  · rw [drawn, List.getElem?_append_left (List.getElem?_eq_some_iff.mp named).1]
    exact named
  · intro j later same
    rw [drawn, List.getElem?_append] at same
    split at same
    · exact unseen j later same
    · have same := List.mem_singleton.mp (List.mem_of_getElem? same)
      rw [← same] at other
      exact other named

theorem about_of_added {g : Goroutine M} (added : g.added k = true) : g.about = k := by
  cases g with
  | request j pc =>
    cases pc with
    | add => cases added
    | _ => exact of_decide_eq_true added
  | _ => cases added

theorem Isolated.put {s : State M} (isolated : Isolated s) (own : ∀ a, held = some a → a.request = k) :
    ∀ j a, Function.update s.results k held j = some a → a.request = j :=
  (Function.forall_update_iff s.results fun j held => ∀ a, held = some a → a.request = j).mpr
    ⟨own, fun j _ => isolated.buffered j⟩

theorem Isolated.request {s : State M} (isolated : Isolated s) (free : s.registry fresh = none)
    (idle : ∀ g ∈ s.pool, g.finished = false → s.ids[g.about]? ≠ some fresh) :
    Isolated (⟨s.ids ++ [fresh], Function.update s.results s.ids.length none, s.registry,
      s.pool ++ [.request s.ids.length .add]⟩ : State M) := by
  have old {g : Goroutine M} (member : g ∈ s.pool) : (s.ids ++ [fresh])[g.about]? = s.ids[g.about]? :=
    List.getElem?_append_left (isolated.known g member)
  constructor
  · intro g member
    rw [List.length_append]
    cases List.mem_append.mp member with
    | inl earlier => exact Nat.lt_add_right 1 (isolated.known g earlier)
    | inr new =>
      obtain rfl := List.mem_singleton.mp new
      exact Nat.lt_succ_self _
  · intro g member underway
    cases List.mem_append.mp member with
    | inl earlier =>
      exact latest_drawn rfl (isolated.current g earlier underway) (idle g earlier underway)
    | inr new =>
      obtain rfl := List.mem_singleton.mp new
      apply latest_iff.mpr
      refine ⟨fresh, List.getElem?_concat_length, ?_⟩
      intro j later same
      have bound := (List.getElem?_eq_some_iff.mp same).1
      rw [List.length_append] at bound
      exact Nat.not_lt_of_le (Nat.le_of_lt_succ bound) later
  · intro id k registered
    obtain ⟨named, latest⟩ := isolated.registered id k registered
    constructor
    · exact (List.getElem?_append_left (List.getElem?_eq_some_iff.mp named).1).trans named
    · apply latest_drawn rfl latest
      rw [named]
      rintro ⟨⟩
      exact absurd (free.symm.trans registered) (by simp)
  · intro k id member named proc registered
    cases List.mem_append.mp member with
    | inl earlier => exact isolated.unclaimed k id earlier ((old earlier).symm.trans named) proc registered
    | inr new =>
      cases List.mem_singleton.mp new
      cases (List.getElem?_concat_length).symm.trans named
      exact absurd (free.symm.trans registered) (by simp)
  · rintro k id ⟨⟨g, member, added⟩, unended⟩ named
    cases List.mem_append.mp member with
    | inl earlier =>
      obtain rfl := about_of_added added
      apply isolated.outstanding _ id _ ((old earlier).symm.trans named)
      exact ⟨⟨g, earlier, added⟩, fun h member => unended h (List.mem_append_left _ member)⟩
    | inr new =>
      obtain rfl := List.mem_singleton.mp new
      cases added
  · apply isolated.put
    rintro a ⟨⟩
  · intro g member
    cases List.mem_append.mp member with
    | inl earlier => exact isolated.attributed g earlier
    | inr new =>
      obtain rfl := List.mem_singleton.mp new
      trivial

theorem add_some {registry : String → Option Process} {id : String}
    (found : add registry id proc other = some p) :
    registry other = some p ∨ other = id ∧ p = proc ∧ registry id = none := by
  unfold add at found
  split at found
  · exact .inl found
  · rename_i free
    by_cases same : other = id
    · subst same
      rw [Function.update_self] at found
      cases found
      exact .inr ⟨rfl, rfl, Option.not_isSome_iff_eq_none.mp free⟩
    · rw [Function.update_of_ne same] at found
      exact .inl found

theorem add_of_some {registry : String → Option Process} {id : String} (found : registry other = some p) :
    add registry id proc other = some p := by
  unfold add
  split
  · exact found
  · rename_i free
    have apart : other ≠ id := by
      rintro rfl
      rw [found] at free
      exact free rfl
    rw [Function.update_of_ne apart]
    exact found

theorem some_of_removed {registry : String → Option Process} {id : String}
    (found : Function.update registry id none other = some p) : registry other = some p := by
  by_cases same : other = id
  · rw [same, Function.update_self] at found
    cases found
  · rwa [Function.update_of_ne same] at found

theorem Isolated.spawn {s : State M} {id : String} (isolated : Isolated s) (unused : id ∉ s.ids) :
    Isolated { s with registry := add s.registry id .actor } := by
  obtain ⟨known, current, registered, unclaimed, outstanding, buffered, attributed⟩ := isolated
  refine ⟨known, current, ?_, ?_, ?_, buffered, attributed⟩
  · intro other k found
    cases add_some found with
    | inl before => exact registered other k before
    | inr new => cases new.2.1
  · intro k other member named proc found
    cases add_some found with
    | inl before => exact unclaimed k other member named proc before
    | inr new =>
      rw [new.1] at named
      exact absurd (List.mem_of_getElem? named) unused
  · intro k other outstands named
    exact add_of_some (outstanding k other outstands named)

/-- An id is vacated that no outstanding response has. -/
theorem Isolated.vacate {s : State M} {id : String} (isolated : Isolated s)
    (unneeded : ∀ k, s.Outstanding k → s.ids[k]? ≠ some id) :
    Isolated { s with registry := Function.update s.registry id none } := by
  obtain ⟨known, current, registered, unclaimed, outstanding, buffered, attributed⟩ := isolated
  refine ⟨known, current, ?_, ?_, ?_, buffered, attributed⟩
  · intro other k found
    exact registered other k (some_of_removed found)
  · intro k other member named proc found
    exact unclaimed k other member named proc (some_of_removed found)
  · intro k other outstands named
    have apart : other ≠ id := by
      rintro rfl
      exact unneeded k outstands named
    exact (Function.update_of_ne apart _ _).trans (outstanding k other outstands named)

theorem Isolated.remove {s : State M} {id : String} (isolated : Isolated s)
    (actor : s.registry id = some .actor) :
    Isolated { s with registry := Function.update s.registry id none } := by
  apply isolated.vacate
  intro k outstands named
  have found := isolated.outstanding k id outstands named
  rw [actor] at found
  cases found

/-- The response of the latest request with its id is removed. -/
theorem Isolated.end {s : State M} {id : String} (isolated : Isolated s) (latest : s.latest k = true)
    (named : s.ids[k]? = some id) (ended : ∃ g ∈ s.pool, g.ended k = true) :
    Isolated { s with registry := Function.update s.registry id none } := by
  apply isolated.vacate
  intro j outstands named'
  obtain ⟨_, latest'⟩ := isolated.registered id j (isolated.outstanding j id outstands named')
  obtain rfl := latest_unique latest' latest named' named
  obtain ⟨g, member, ended⟩ := ended
  rw [outstands.2 g member] at ended
  cases ended

theorem Isolated.register {s : State M} {id : String} (isolated : Isolated s)
    (member : .request k .add ∈ s.pool) (named : s.ids[k]? = some id) :
    Isolated { s with registry := add s.registry id (.response k) } := by
  have latest := isolated.current _ member rfl
  obtain ⟨known, current, registered, unclaimed, outstanding, buffered, attributed⟩ := isolated
  refine ⟨known, current, ?_, ?_, ?_, buffered, attributed⟩
  · intro other j found
    cases add_some found with
    | inl before => exact registered other j before
    | inr new =>
      obtain ⟨rfl, same, free⟩ := new
      cases same
      exact ⟨named, latest⟩
  · intro j other member' named' proc found
    cases add_some found with
    | inl before => exact unclaimed j other member' named' proc before
    | inr new =>
      obtain ⟨rfl, rfl, free⟩ := new
      exact congrArg Process.response (latest_unique latest (current _ member' rfl) named named')
  · intro j other outstands named'
    exact add_of_some (outstanding j other outstands named')

/-- A new call on the latest request with its id. -/
theorem Isolated.call {s : State M} (isolated : Isolated s) (latest : s.latest g.about = true)
    (entering : (∃ k, g = .result k .select) ∨ ∃ a, g = .answer a .lookup) :
    Isolated { s with pool := s.pool ++ [g] } := by
  obtain ⟨known, current, registered, unclaimed, outstanding, buffered, attributed⟩ := isolated
  refine ⟨?_, ?_, registered, ?_, ?_, buffered, ?_⟩
  · intro h member
    cases List.mem_append.mp member with
    | inl earlier => exact known h earlier
    | inr new =>
      obtain rfl := List.mem_singleton.mp new
      obtain ⟨id, named, unseen⟩ := latest_iff.mp latest
      exact (List.getElem?_eq_some_iff.mp named).1
  · intro h member underway
    cases List.mem_append.mp member with
    | inl earlier => exact current h earlier underway
    | inr new =>
      obtain rfl := List.mem_singleton.mp new
      exact latest
  · intro j id member named proc found
    cases List.mem_append.mp member with
    | inl earlier => exact unclaimed j id earlier named proc found
    | inr new =>
      obtain rfl := List.mem_singleton.mp new
      rcases entering with ⟨_, same⟩ | ⟨_, same⟩ <;> cases same
  · rintro j id ⟨⟨h, member, added⟩, unended⟩ named
    cases List.mem_append.mp member with
    | inl earlier =>
      apply outstanding j id _ named
      exact ⟨⟨h, earlier, added⟩, fun h member => unended h (List.mem_append_left _ member)⟩
    | inr new =>
      obtain rfl := List.mem_singleton.mp new
      rcases entering with ⟨_, rfl⟩ | ⟨_, rfl⟩ <;> cases added
  · intro h member
    cases List.mem_append.mp member with
    | inl earlier => exact attributed h earlier
    | inr new =>
      obtain rfl := List.mem_singleton.mp new
      rcases entering with ⟨_, rfl⟩ | ⟨_, rfl⟩ <;> trivial

theorem unended_of_underway {g : Goroutine M} (underway : g.finished = false) : g.ended k = false := by
  cases g with
  | result j pc =>
    cases pc with
    | returned outcome => cases underway
    | _ => rfl
  | _ => rfl

/-- One call goes on without touching the registry; a `Request` that has been through
`Registry.add` is registered. -/
theorem Isolated.progress {s : State M} (isolated : Isolated s) (found : s.pool[i]? = some g)
    (underway : g.finished = false) (about : next.about = g.about) (entered : ∀ k, next ≠ .request k .add)
    (added : ∀ k, next.added k = true → g.added k = false →
      ∀ id, s.ids[k]? = some id → s.registry id = some (.response k))
    (attributed : next.Attributed) (buffered : ∀ k a, results k = some a → a.request = k) :
    Isolated { s with results := results, pool := s.pool.set i next } := by
  have member : g ∈ s.pool := List.mem_of_getElem? found
  constructor
  · intro h member'
    cases List.mem_or_eq_of_mem_set member' with
    | inl earlier => exact isolated.known h earlier
    | inr new =>
      rw [new, about]
      exact isolated.known g member
  · intro h member' underway'
    cases List.mem_or_eq_of_mem_set member' with
    | inl earlier => exact isolated.current h earlier underway'
    | inr new =>
      rw [new, about]
      exact isolated.current g member underway
  · exact isolated.registered
  · intro k id member' named proc registered
    cases List.mem_or_eq_of_mem_set member' with
    | inl earlier => exact isolated.unclaimed k id earlier named proc registered
    | inr new => exact absurd new.symm (entered k)
  · rintro k id ⟨⟨h, member', adds⟩, unended⟩ named
    -- The call that moves had not returned.
    have open' : ∀ h ∈ s.pool, h.ended k = false := by
      intro h earlier
      by_contra ended
      obtain ⟨h', member'', ended'⟩ := Pool.exists_set (P := fun h => h.ended k ≠ false) found
        (fun bad => absurd (unended_of_underway underway) bad) ⟨h, earlier, ended⟩
      exact ended' (unended h' member'')
    cases List.mem_or_eq_of_mem_set member' with
    | inl earlier => exact isolated.outstanding k id ⟨⟨h, earlier, adds⟩, open'⟩ named
    | inr new =>
      rw [new] at adds
      cases before : g.added k with
      | true => exact isolated.outstanding k id ⟨⟨g, member, before⟩, open'⟩ named
      | false => exact added k adds before id named
  · exact buffered
  · intro h member'
    cases List.mem_or_eq_of_mem_set member' with
    | inl earlier => exact isolated.attributed h earlier
    | inr new =>
      rw [new]
      exact attributed

theorem Isolated.added {s : State M} {id : String} (isolated : Isolated s)
    (found : s.pool[i]? = some (.request k .add)) (named : s.ids[k]? = some id) :
    Isolated { s with
      registry := add s.registry id (.response k), pool := s.pool.set i (.request k .send) } := by
  have member := List.mem_of_getElem? found
  have registered : add s.registry id (.response k) id = some (.response k) := by
    cases taken : s.registry id with
    | none => simp [add, taken]
    | some proc =>
      rw [isolated.unclaimed k id member named proc taken] at taken
      exact add_of_some taken
  apply (isolated.register member named).progress found rfl
  · rfl
  · rintro j ⟨⟩
  · intro j adds _ other named'
    obtain rfl : k = j := of_decide_eq_true adds
    cases named.symm.trans named'
    exact registered
  · trivial
  · exact isolated.buffered

theorem Isolated.removed {s : State M} {id : String} (isolated : Isolated s)
    (found : s.pool[i]? = some (.result k (.remove outcome))) (named : s.ids[k]? = some id) :
    Isolated { s with
      registry := Function.update s.registry id none
      pool := s.pool.set i (.result k (.returned outcome)) } := by
  have member := List.mem_of_getElem? found
  have returned : Isolated { s with pool := s.pool.set i (.result k (.returned outcome)) } := by
    apply isolated.progress found rfl
    · rfl
    · rintro j ⟨⟩
    · rintro j ⟨⟩
    · cases outcome with
      | none => trivial
      | some a => exact isolated.attributed (.result k (.remove (some a))) member
    · exact isolated.buffered
  apply returned.end (k := k) (isolated.current _ member rfl) named
  exact ⟨_, Pool.mem_moved found, decide_eq_true rfl⟩

theorem Isolated.step {s t : State M} (isolated : Isolated s) (allowed : unshared s label = true)
    (stepped : s.step label = some t) : Isolated t := by
  cases step_move stepped with
  | request =>
    simp only [unshared, Bool.and_eq_true, Option.isNone_iff_eq_none, List.all_eq_true, Bool.or_eq_true,
      decide_eq_true_eq] at allowed
    apply isolated.request allowed.1
    intro g member underway
    exact (allowed.2 g member).resolve_left (by simp [underway])
  | spawn => exact isolated.spawn (of_decide_eq_true allowed)
  | remove actor => exact isolated.remove actor
  | result => exact isolated.call allowed (.inl ⟨_, rfl⟩)
  | answer => exact isolated.call allowed (.inr ⟨_, rfl⟩)
  | added found named => exact isolated.added found named
  | sent found =>
    apply isolated.progress found rfl
    · rfl
    · rintro j ⟨⟩
    · intro j adds before
      exact absurd (before.symm.trans adds) (by simp)
    · trivial
    · exact isolated.buffered
  | received found buffered =>
    apply isolated.progress found rfl
    · rfl
    · rintro j ⟨⟩
    · rintro j ⟨⟩
    · exact isolated.buffered _ _ buffered
    · apply isolated.put
      rintro a ⟨⟩
  | timedOut found =>
    apply isolated.progress found rfl
    · rfl
    · rintro j ⟨⟩
    · rintro j ⟨⟩
    · trivial
    · exact isolated.buffered
  | removed found named => exact isolated.removed found named
  | found found named registered =>
    obtain ⟨named', latest'⟩ := isolated.registered _ _ registered
    have latest := isolated.current _ (List.mem_of_getElem? found) rfl
    apply isolated.progress found rfl
    · rfl
    · rintro j ⟨⟩
    · rintro j ⟨⟩
    · exact latest_unique latest latest' named named'
    · exact isolated.buffered
  | elsewhere found done =>
    apply isolated.progress found rfl
    · rfl
    · rintro j ⟨⟩
    · rintro j ⟨⟩
    · rcases done with rfl | rfl <;> trivial
    · exact isolated.buffered
  | delivered found =>
    have own := isolated.attributed _ (List.mem_of_getElem? found)
    apply isolated.progress found rfl
    · rfl
    · rintro j ⟨⟩
    · rintro j ⟨⟩
    · trivial
    · apply isolated.put
      rintro a ⟨⟩
      exact own

/-- When ids are not shared, a `Result` returns an answer to its own request, every
outstanding response is registered, its channel holds nothing but an answer to it, and
whoever sends on a channel answers the request of that channel. -/
theorem requests_isolated {s : State M}
    (reached : Reaches (restrict unshared State.step) initial s) :
    (∀ k a, .result k (.returned (some a)) ∈ s.pool → a.request = k) ∧
    (∀ k, s.Outstanding k → ∃ id, s.ids[k]? = some id ∧ s.registry id = some (.response k) ∧
      ∀ a, s.results k = some a → a.request = k) ∧
    ∀ a k, .answer a (.send k) ∈ s.pool → a.request = k := by
  have isolated : Isolated s := by
    apply reached.invariant (P := Isolated) _ initial_isolated
    intro s label t isolated stepped
    obtain ⟨allowed, stepped⟩ := restrict_some stepped
    exact isolated.step allowed stepped
  refine ⟨?_, ?_, ?_⟩
  · intro k a member
    exact isolated.attributed _ member
  · intro k outstands
    obtain ⟨g, member, added⟩ := outstands.1
    obtain rfl := about_of_added added
    have named := List.getElem?_eq_getElem (isolated.known g member)
    exact ⟨_, named, isolated.outstanding _ _ outstands named, isolated.buffered _⟩
  · intro a k member
    exact isolated.attributed _ member

/-- Two requests are made; the second is answered first, and its `Result` returns. -/
def twoRequests : List (Label Nat) :=
  [.request 7, .step 0, .step 0, .request 8, .step 1, .step 1, .answer 1 11, .step 2, .step 2, .result 1,
    .receive 3, .step 3]

theorem requests_isolated_two :
    ∃ s : State Nat, .result 1 (.returned (some ⟨1, 11⟩)) ∈ s.pool ∧
      s.registry "response/7" = some (.response 0) ∧
      (∀ k a, .result k (.returned (some a)) ∈ s.pool → a.request = k) ∧
      (∀ k, s.Outstanding k → ∃ id, s.ids[k]? = some id ∧ s.registry id = some (.response k) ∧
        ∀ a, s.results k = some a → a.request = k) ∧
      ∀ a k, .answer a (.send k) ∈ s.pool → a.request = k := by
  obtain ⟨s, reached, ends⟩ := exists_of_run (restrict unshared State.step) initial
    twoRequests (fun s => .result 1 (.returned (some ⟨1, 11⟩)) ∈ s.pool ∧
      s.registry "response/7" = some (.response 0)) (by decide +kernel)
  obtain ⟨returned, registered⟩ := of_decide_eq_true ends
  exact ⟨s, returned, registered, requests_isolated reached⟩

/-- Both requests draw one id. The answer to the second goes to the first, whose `Result`
then removes the id. -/
def sharedId : List (Label Nat) :=
  [.request 7, .step 0, .step 0, .request 7, .step 1, .step 1, .answer 1 11, .step 2, .step 2, .result 0,
    .receive 3, .step 3]

theorem answer_returned_to_other_request :
    ∃ s : State Nat, Reaches State.step initial s ∧
      .result 0 (.returned (some ⟨1, 11⟩)) ∈ s.pool ∧ s.Outstanding 1 ∧ s.ids[1]? = some "response/7" ∧
      s.registry "response/7" = none := by
  obtain ⟨s, reached, ends⟩ := exists_of_run State.step initial sharedId
    (fun s => s.pool = [.request 0 .returned, .request 1 .returned, .answer ⟨1, 11⟩ .delivered,
      .result 0 (.returned (some ⟨1, 11⟩))] ∧ s.ids[1]? = some "response/7" ∧
      s.registry "response/7" = none) (by decide +kernel)
  obtain ⟨pool, named, vacated⟩ := of_decide_eq_true ends
  refine ⟨s, reached, ?_, ⟨?_, ?_⟩, named, vacated⟩ <;> rw [pool]
  · decide
  · exact ⟨.request 1 .returned, by decide, rfl⟩
  · decide

end Hollywood.Responses
