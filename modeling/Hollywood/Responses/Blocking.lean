import Hollywood.Responses

/-! Senders on the channel of a response, which holds one value. An answer that has looked
the response up sends on its channel even when `Result` has returned meanwhile. -/
namespace Hollywood.Responses
open Transition
variable {M : Type} {s t u : State M}

namespace Goroutine

/-- The `Request` that makes a response. -/
def requests (k : Nat) : Goroutine M → Bool
  | .request j _ => j = k
  | _ => false

/-- A `Result` on a response, at whatever point. -/
def calls (k : Nat) : Goroutine M → Bool
  | .result j _ => j = k
  | _ => false

/-- A `Result` that can still take a value. -/
def selecting (k : Nat) : Goroutine M → Bool
  | .result j .select => j = k
  | _ => false

/-- A `Result` that has not returned. -/
def resulting (k : Nat) : Goroutine M → Bool
  | .result j .select | .result j (.remove _) => j = k
  | _ => false

/-- An answer that has found the response and is to be sent on its channel. -/
def sending (k : Nat) : Goroutine M → Bool
  | .answer _ (.send j) => j = k
  | _ => false

theorem sending_iff {g : Goroutine M} : g.sending k = true ↔ ∃ a, g = .answer a (.send k) := by
  cases g with
  | answer a pc =>
    cases pc with
    | send j => simp [sending]
    | _ => simp [sending]
  | _ => simp [sending]

theorem resulting_iff {g : Goroutine M} : g.resulting k = true ↔
    g = .result k .select ∨ ∃ outcome, g = .result k (.remove outcome) := by
  cases g with
  | result j pc =>
    cases pc with
    | select => simp [resulting]
    | remove outcome => simp [resulting]
    | returned outcome => simp [resulting]
  | _ => simp [resulting]

end Goroutine

namespace State

/-- The values for a response that nobody has taken, in the buffer or with their senders. -/
def left (s : State M) (k : Nat) : Nat :=
  s.pool.countP (·.sending k) + if (s.results k).isSome then 1 else 0

end State

/-- Nobody calls `Result` on the response. -/
def uncalled (k : Nat) (_ : State M) : Label M → Bool
  | .result j => j ≠ k
  | _ => true

/-- A sender on the channel that stays where it is, whatever happens, unless `Result` is
called once more. -/
def State.Stuck (s : State M) (k i : Nat) : Prop :=
  ∃ a, s.pool[i]? = some (.answer a (.send k)) ∧
    ∀ t, Reaches (restrict (uncalled k) State.step) s t →
      t.pool[i]? = some (.answer a (.send k))

theorem sent_of_result (stepped : s.step (.result k) = some t) : s.sent k = true := by
  by_contra unsent
  simp [State.step, unsent] at stepped

theorem step_remove {id : String} (found : s.pool[i]? = some (.result k (.remove outcome)))
    (named : s.ids[k]? = some id) :
    s.step (.step i) = some { s with
      registry := Function.update s.registry id none
      pool := s.pool.set i (.result k (.returned outcome)) } := by
  rw [State.step, found, Option.bind_some, State.act, named]
  rfl

/-- A value is sent when there is room for it. -/
theorem step_send (found : s.pool[i]? = some (.answer a (.send k))) (room : s.results k = none) :
    s.step (.step i) = some { s with
      results := Function.update s.results k (some a)
      pool := s.pool.set i (.answer a .delivered) } := by
  rw [State.step, found, Option.bind_some, State.act, room]
  rfl

theorem room_of_send (found : s.pool[i]? = some (.answer a (.send k)))
    (stepped : s.step (.step i) = some t) : s.results k = none := by
  rw [State.step, found, Option.bind_some, State.act] at stepped
  split at stepped
  · rename_i room
    exact Option.isNone_iff_eq_none.mp room
  · cases stepped

/-! Every response is registered by its own `Request`, once, before `Result` is called. -/

structure Known (s : State M) : Prop where
  registered : ∀ id k, s.registry id = some (.response k) → s.ids[k]? = some id
  single : ∀ k, s.pool.countP (·.requests k) = if k < s.ids.length then 1 else 0
  sent : ∀ k, ∀ g ∈ s.pool, g.calls k = true → s.sent k = true

theorem initial_known : Known (initial : State M) := by
  constructor
  · rintro id k ⟨⟩
  · intro k
    rfl
  · rintro k g ⟨⟩

theorem Known.enter {g : Goroutine M} (known : Known s) (other : ∀ k, g.requests k = false)
    (called : ∀ k, g.calls k = true → s.sent k = true) : Known { s with pool := s.pool ++ [g] } := by
  constructor
  · exact known.registered
  · intro k
    rw [List.countP_append, List.countP_singleton, other k, known.single k]
    rfl
  · intro k h member calls
    have before : s.sent k = true := by
      cases List.mem_append.mp member with
      | inl earlier => exact known.sent k h earlier calls
      | inr new =>
        obtain rfl := List.mem_singleton.mp new
        exact called k calls
    rw [State.sent, List.any_append]
    exact Bool.or_eq_true_iff.mpr (.inl before)

theorem Known.progress {next : Goroutine M} {registry : String → Option Process} (known : Known s)
    (found : s.pool[i]? = some g) (requests : ∀ k, next.requests k = g.requests k)
    (calls : ∀ k, next.calls k = g.calls k) (sent : ∀ k, g.sent k = true → next.sent k = true)
    (registered : ∀ id k, registry id = some (.response k) → s.ids[k]? = some id) :
    Known { s with results := results, registry := registry, pool := s.pool.set i next } := by
  constructor
  · exact registered
  · intro k
    rw [Pool.countP_kept (·.requests k) found next (requests k), known.single k]
  · intro k h member called
    have before : s.sent k = true := by
      cases List.mem_or_eq_of_mem_set member with
      | inl earlier => exact known.sent k h earlier called
      | inr new =>
        rw [new, calls k] at called
        exact known.sent k g (List.mem_of_getElem? found) called
    rw [State.sent, List.any_eq_true] at before ⊢
    exact Pool.exists_set found (sent k) before

theorem Known.step (known : Known s) (stepped : s.step label = some t) : Known t := by
  cases step_move stepped with
  | request =>
    constructor
    · intro id k registered
      have named := known.registered id k registered
      exact (List.getElem?_append_left (List.getElem?_eq_some_iff.mp named).1).trans named
    · intro k
      rw [List.countP_append, List.countP_singleton, known.single k, Goroutine.requests, List.length_append,
        List.length_singleton]
      simp only [decide_eq_true_eq]
      grind
    · intro k g member called
      cases List.mem_append.mp member with
      | inl earlier =>
        rw [State.sent, List.any_append]
        exact Bool.or_eq_true_iff.mpr (.inl (known.sent k g earlier called))
      | inr new =>
        obtain rfl := List.mem_singleton.mp new
        cases called
  | spawn =>
    refine ⟨?_, known.single, known.sent⟩
    intro id k found
    cases add_some found with
    | inl before => exact known.registered id k before
    | inr new => cases new.2.1
  | remove _ =>
    refine ⟨?_, known.single, known.sent⟩
    intro id k found
    exact known.registered id k (some_of_removed found)
  | result =>
    apply known.enter (fun _ => rfl)
    intro k called
    obtain rfl := of_decide_eq_true called
    exact sent_of_result stepped
  | answer => exact known.enter (fun _ => rfl) (by rintro k ⟨⟩)
  | added found named =>
    refine known.progress found (fun _ => rfl) (fun _ => rfl) (by rintro k ⟨⟩) ?_
    intro id k registered
    cases add_some registered with
    | inl before => exact known.registered id k before
    | inr new =>
      obtain ⟨rfl, same, _⟩ := new
      cases same
      exact named
  | sent found => exact known.progress found (fun _ => rfl) (fun _ => rfl) (by rintro k ⟨⟩) known.registered
  | removed found named =>
    refine known.progress found (fun _ => rfl) (fun _ => rfl) (by rintro k ⟨⟩) ?_
    intro id k registered
    exact known.registered id k (some_of_removed registered)
  | received found _ | timedOut found | found found _ _ | elsewhere found _ | delivered found =>
    exact known.progress found (fun _ => rfl) (fun _ => rfl) (by rintro k ⟨⟩) known.registered

/-- Once the request has been sent its response is not registered any more. -/
theorem Known.added_once (known : Known s) (sent : s.sent k = true) : .request k .add ∉ s.pool := by
  intro member
  obtain ⟨g, member', sent⟩ := List.any_eq_true.mp sent
  obtain ⟨i, first⟩ := List.mem_iff_getElem?.mp member
  obtain ⟨j, second⟩ := List.mem_iff_getElem?.mp member'
  have requests : g.requests k = true := by
    cases g with
    | request j pc =>
      cases pc with
      | returned => exact sent
      | _ => cases sent
    | _ => cases sent
  have few : s.pool.countP (·.requests k) ≤ 1 := by
    rw [known.single k]
    split
    · exact Nat.le_refl 1
    · exact Nat.zero_le 1
  obtain rfl := Pool.index_unique few first second (decide_eq_true rfl) requests
  cases first.symm.trans second
  cases sent

/-! After `Result` has returned nobody finds the response. -/

structure State.Closed (s : State M) (k : Nat) : Prop where
  numbered : k < s.ids.length
  unregistered : ∀ id, s.registry id ≠ some (.response k)
  added : .request k .add ∉ s.pool

theorem left_enter {g : Goroutine M} (other : g.sending k = false) :
    State.left { s with pool := s.pool ++ [g] } k = s.left k := by
  rw [State.left, State.left, List.countP_append, List.countP_singleton, other]
  rfl

theorem left_progress (found : s.pool[i]? = some g) (next : Goroutine M)
    (same : next.sending k = g.sending k) :
    State.left { s with registry := registry, pool := s.pool.set i next } k = s.left k := by
  rw [State.left, State.left, Pool.countP_kept (·.sending k) found next same]

/-- The value that is sent moves to the buffer. -/
theorem left_delivered (found : s.pool[i]? = some (.answer a (.send k))) (room : s.results k = none) :
    State.left { s with
      results := Function.update s.results k (some a)
      pool := s.pool.set i (.answer a .delivered) } k = s.left k := by
  have senders := Pool.countP_set (·.sending k) found (.answer a .delivered)
  rw [if_pos (Goroutine.sending_iff.mpr ⟨a, rfl⟩)] at senders
  simp only [State.left, Function.update_self, room]
  exact senders

theorem Known.closes (known : Known s) (found : s.pool[i]? = some (.result k (.remove outcome)))
    (stepped : s.step (.step i) = some t) : t.Closed k ∧ t.left k = s.left k := by
  have sent := known.sent k _ (List.mem_of_getElem? found) (decide_eq_true rfl)
  rw [State.step, found, Option.bind_some, State.act] at stepped
  obtain ⟨id, named, same⟩ := Option.bind_eq_some_iff.mp stepped
  cases same
  refine ⟨⟨(List.getElem?_eq_some_iff.mp named).1, ?_, ?_⟩, left_progress found _ rfl⟩
  · intro other registered
    -- the response was registered under the id that is removed, if at all
    have named' := known.registered other k (some_of_removed registered)
    cases named.symm.trans named'
    exact absurd ((Function.update_self id none s.registry).symm.trans registered) (by rintro ⟨⟩)
  · intro member
    cases List.mem_or_eq_of_mem_set member with
    | inl earlier => exact known.added_once sent earlier
    | inr new => cases new

theorem State.Closed.enter {g : Goroutine M} (closed : s.Closed k) (other : g ≠ .request k .add) :
    State.Closed { s with pool := s.pool ++ [g] } k := by
  refine ⟨closed.numbered, closed.unregistered, ?_⟩
  intro member
  cases List.mem_append.mp member with
  | inl earlier => exact closed.added earlier
  | inr new => exact other (List.mem_singleton.mp new).symm

theorem State.Closed.progress {next : Goroutine M} {registry : String → Option Process}
    {results : Nat → Option (Answer M)} (closed : s.Closed k)
    (unregistered : ∀ id, registry id ≠ some (.response k)) (other : next ≠ .request k .add) :
    State.Closed { s with results := results, registry := registry, pool := s.pool.set i next } k := by
  refine ⟨closed.numbered, unregistered, ?_⟩
  intro member
  cases List.mem_or_eq_of_mem_set member with
  | inl earlier => exact closed.added earlier
  | inr new => exact other new.symm

theorem State.Closed.step (closed : s.Closed k) (stepped : s.step label = some t) : t.Closed k := by
  cases step_move stepped with
  | request =>
    refine ⟨?_, closed.unregistered, ?_⟩
    · rw [List.length_append]
      exact Nat.lt_add_right 1 closed.numbered
    · intro member
      cases List.mem_append.mp member with
      | inl earlier => exact closed.added earlier
      | inr new =>
        cases List.mem_singleton.mp new
        exact Nat.lt_irrefl _ closed.numbered
  | spawn =>
    refine ⟨closed.numbered, ?_, closed.added⟩
    intro id found
    cases add_some found with
    | inl before => exact closed.unregistered id before
    | inr new => cases new.2.1
  | remove _ =>
    refine ⟨closed.numbered, ?_, closed.added⟩
    intro id found
    exact closed.unregistered id (some_of_removed found)
  | result => exact closed.enter (by rintro ⟨⟩)
  | answer => exact closed.enter (by rintro ⟨⟩)
  | added found named =>
    refine closed.progress ?_ (by rintro ⟨⟩)
    intro id registered
    cases add_some registered with
    | inl before => exact closed.unregistered id before
    | inr new =>
      cases new.2.1
      exact closed.added (List.mem_of_getElem? found)
  | removed found named =>
    refine closed.progress ?_ (by rintro ⟨⟩)
    intro id registered
    exact closed.unregistered id (some_of_removed registered)
  | sent found | received found _ | timedOut found | found found _ _ | elsewhere found _ | delivered found =>
    exact closed.progress closed.unregistered (by rintro ⟨⟩)

/-- Nobody else joins the senders, and a value that is sent goes to the buffer. -/
theorem State.Closed.left_step (closed : s.Closed k) (stepped : s.step label = some t) :
    t.left k ≤ s.left k := by
  cases step_move stepped with
  | request =>
    have apart : k ≠ s.ids.length := Nat.ne_of_lt closed.numbered
    simp only [State.left, Function.update_of_ne apart, List.countP_append]
    exact Nat.le_refl _
  | spawn => exact Nat.le_refl _
  | remove _ => exact Nat.le_refl _
  | result => exact Nat.le_of_eq (left_enter rfl)
  | answer => exact Nat.le_of_eq (left_enter rfl)
  | added found _ | sent found | timedOut found | removed found _ =>
    exact Nat.le_of_eq (left_progress found _ rfl)
  | elsewhere found done =>
    rcases done with rfl | rfl
    · exact Nat.le_of_eq (left_progress found _ rfl)
    · exact Nat.le_of_eq (left_progress found _ rfl)
  | found found _ registered =>
    apply Nat.le_of_eq (left_progress found _ _)
    apply decide_eq_false
    rintro rfl
    exact closed.unregistered _ registered
  | @received i j a found _ =>
    simp only [State.left, Pool.countP_kept (·.sending k) found (.result j (.remove (some a))) rfl]
    apply Nat.add_le_add_left
    by_cases same : k = j
    · simp only [same, Function.update_self, Option.isSome_none, Bool.false_eq_true, if_false]
      exact Nat.zero_le _
    · simp only [Function.update_of_ne same]
      exact Nat.le_refl _
  | @delivered i j a found =>
    by_cases same : k = j
    · subst same
      exact Nat.le_of_eq (left_delivered found (room_of_send found stepped))
    · have other : false = decide (j = k) := (decide_eq_false (Ne.symm same)).symm
      simp only [State.left, Pool.countP_kept (·.sending k) found (.answer a .delivered) other,
        Function.update_of_ne same]
      exact Nat.le_refl _

/-! A sender on a full channel, with no `Result` under way, stays there. -/

structure Jammed (s : State M) (k i : Nat) (a : Answer M) : Prop where
  numbered : k < s.ids.length
  full : (s.results k).isSome = true
  idle : ∀ g ∈ s.pool, g.resulting k = false
  waiting : s.pool[i]? = some (.answer a (.send k))

theorem Jammed.enter {g : Goroutine M} (jammed : Jammed s k i a) (other : g.resulting k = false) :
    Jammed { s with pool := s.pool ++ [g] } k i a := by
  refine ⟨jammed.numbered, jammed.full, ?_, ?_⟩
  · intro h member
    cases List.mem_append.mp member with
    | inl earlier => exact jammed.idle h earlier
    | inr new => exact (List.mem_singleton.mp new) ▸ other
  · exact (List.getElem?_append_left (List.getElem?_eq_some_iff.mp jammed.waiting).1).trans jammed.waiting

theorem Jammed.progress {next : Goroutine M} {registry : String → Option Process}
    {results : Nat → Option (Answer M)} (jammed : Jammed s k i a)
    (found : s.pool[j]? = some g) (moves : g ≠ .answer a (.send k)) (other : next.resulting k = false)
    (full : (results k).isSome = true) :
    Jammed { s with results := results, registry := registry, pool := s.pool.set j next } k i a := by
  refine ⟨jammed.numbered, full, ?_, ?_⟩
  · intro h member
    cases List.mem_or_eq_of_mem_set member with
    | inl earlier => exact jammed.idle h earlier
    | inr new => exact new ▸ other
  · have apart : j ≠ i := by
      rintro rfl
      cases found.symm.trans jammed.waiting
      exact moves rfl
    exact (List.getElem?_set_ne apart).trans jammed.waiting

theorem Jammed.step (jammed : Jammed s k i a) (allowed : uncalled k s label = true)
    (stepped : s.step label = some t) : Jammed t k i a := by
  have under {j : Nat} {g : Goroutine M} (found : s.pool[j]? = some g) : g.resulting k = false :=
    jammed.idle g (List.mem_of_getElem? found)
  cases step_move stepped with
  | request =>
    have apart : k ≠ s.ids.length := Nat.ne_of_lt jammed.numbered
    have entered := jammed.enter (g := .request s.ids.length .add) rfl
    refine ⟨?_, ?_, entered.idle, entered.waiting⟩
    · rw [List.length_append]
      exact Nat.lt_add_right 1 jammed.numbered
    · exact (congrArg Option.isSome (Function.update_of_ne apart _ _)).trans jammed.full
  | spawn => exact ⟨jammed.numbered, jammed.full, jammed.idle, jammed.waiting⟩
  | remove _ => exact ⟨jammed.numbered, jammed.full, jammed.idle, jammed.waiting⟩
  | result => exact jammed.enter (decide_eq_false (of_decide_eq_true allowed))
  | answer => exact jammed.enter rfl
  | added found _ | sent found | removed found _ | found found _ _ | elsewhere found _ =>
    exact jammed.progress found (by rintro ⟨⟩) rfl jammed.full
  | timedOut found =>
    have other := under found
    exact jammed.progress found (by rintro ⟨⟩) other jammed.full
  | @received _ j _ found _ =>
    have other := under found
    have apart : k ≠ j := Ne.symm (of_decide_eq_false other)
    refine jammed.progress found (by rintro ⟨⟩) other ?_
    rw [Function.update_of_ne apart]
    exact jammed.full
  | @delivered _ j _ found =>
    have apart : k ≠ j := by
      rintro rfl
      have full := jammed.full
      rw [room_of_send found stepped] at full
      cases full
    refine jammed.progress found ?_ rfl ?_
    · rintro ⟨⟩
      exact apart rfl
    · rw [Function.update_of_ne apart]
      exact jammed.full

theorem Jammed.stuck (jammed : Jammed s k i a) : s.Stuck k i := by
  refine ⟨a, jammed.waiting, ?_⟩
  intro t path
  refine (path.invariant (P := fun t => Jammed t k i a) ?_ jammed).waiting
  intro s label t jammed stepped
  obtain ⟨allowed, stepped⟩ := restrict_some stepped
  exact jammed.step allowed stepped

/-- A sender that finds room in the channel is not stuck. -/
theorem full_of_stuck (stuck : s.Stuck k i) : (s.results k).isSome = true := by
  obtain ⟨a, waiting, stays⟩ := stuck
  by_contra room
  have stepped := step_send waiting (Option.not_isSome_iff_eq_none.mp room)
  have allowed : restrict (uncalled k) State.step s (.step i) = s.step (.step i) := if_pos rfl
  have moved := stays _ (.next (.refl s) (allowed.trans stepped))
  rw [List.getElem?_set_self (List.getElem?_eq_some_iff.mp waiting).1] at moved
  cases moved

theorem exists_sending (present : 0 < s.pool.countP (·.sending k)) :
    ∃ (i : Nat) (a : Answer M), s.pool[i]? = some (.answer a (.send k)) := by
  obtain ⟨g, member, sending⟩ := List.countP_pos_iff.mp present
  obtain ⟨a, rfl⟩ := Goroutine.sending_iff.mp sending
  obtain ⟨i, found⟩ := List.mem_iff_getElem?.mp member
  exact ⟨i, a, found⟩

/-- Every `Result` under way can give up and return, and takes nothing then. -/
theorem results_return (closed : s.Closed k) (two : 2 ≤ s.left k) :
    ∃ t, Reaches State.step s t ∧ (∀ g ∈ t.pool, g.resulting k = false) ∧
      t.Closed k ∧ 2 ≤ t.left k := by
  apply eventually State.step (fun s => s.Closed k ∧ 2 ≤ s.left k)
    (fun s => ∀ g ∈ s.pool, g.resulting k = false)
    (fun s => s.pool.countP (·.selecting k) + s.pool.countP (·.resulting k)) _ ⟨closed, two⟩
  rintro s ⟨closed, two⟩
  by_cases idle : ∀ g ∈ s.pool, g.resulting k = false
  · exact .inl idle
  · right
    simp only [not_forall, Bool.not_eq_false] at idle
    obtain ⟨g, member, under⟩ := idle
    obtain ⟨i, found⟩ := List.mem_iff_getElem?.mp member
    rcases Goroutine.resulting_iff.mp under with rfl | ⟨outcome, rfl⟩
    · have stepped : s.step (.timeout i) =
          some { s with pool := s.pool.set i (.result k (.remove none)) } := by
        rw [State.step, found]
      have selects := Pool.countP_lt (·.selecting k) found (.result k (.remove none)) (decide_eq_true rfl) rfl
      have results := Pool.countP_kept (·.resulting k) found (.result k (.remove none)) rfl
      refine ⟨.timeout i, _, stepped, ⟨closed.step stepped, ?_⟩, ?_⟩
      · rw [left_progress found (.result k (.remove none)) rfl]
        exact two
      · exact Nat.add_lt_add_of_lt_of_le selects (Nat.le_of_eq results)
    · have stepped := step_remove found (List.getElem?_eq_getElem closed.numbered)
      have selects := Pool.countP_kept (·.selecting k) found (.result k (.returned outcome)) rfl
      have results := Pool.countP_lt (·.resulting k) found (.result k (.returned outcome))
        (decide_eq_true rfl) rfl
      refine ⟨.step i, _, stepped, ⟨closed.step stepped, ?_⟩, ?_⟩
      · rw [left_progress found (.result k (.returned outcome)) rfl]
        exact two
      · exact Nat.add_lt_add_of_le_of_lt (Nat.le_of_eq selects) results

/-- With no `Result` under way, one value in the buffer keeps the others out. -/
theorem stuck_of_full (closed : s.Closed k) (idle : ∀ g ∈ s.pool, g.resulting k = false)
    (full : (s.results k).isSome = true) (two : 2 ≤ s.left k) : ∃ i, s.Stuck k i := by
  rw [State.left, if_pos full] at two
  obtain ⟨i, a, waiting⟩ := exists_sending (Nat.le_of_succ_le_succ two)
  have jammed : Jammed s k i a := ⟨closed.numbered, full, idle, waiting⟩
  exact ⟨i, jammed.stuck⟩

/-- Of two values that are left one can be sent, and then the other cannot. -/
theorem exists_stuck (closed : s.Closed k) (two : 2 ≤ s.left k) :
    ∃ t, Reaches State.step s t ∧ ∃ i, t.Stuck k i := by
  obtain ⟨t, path, idle, closed, two⟩ := results_return closed two
  by_cases full : (t.results k).isSome = true
  · exact ⟨t, path, stuck_of_full closed idle full two⟩
  · have room : t.results k = none := Option.not_isSome_iff_eq_none.mp full
    have senders := two
    rw [State.left, if_neg full] at senders
    obtain ⟨i, a, found⟩ := exists_sending (Nat.lt_of_succ_le (Nat.le_of_succ_le senders))
    have stepped := step_send found room
    refine ⟨_, path.next stepped, stuck_of_full (closed.step stepped) ?_ ?_ ?_⟩
    · intro g member
      cases List.mem_or_eq_of_mem_set member with
      | inl earlier => exact idle g earlier
      | inr new => exact new ▸ rfl
    · simp only [Function.update_self, Option.isSome_some]
    · rw [left_delivered found room]
      exact two

/-- For every request, any number of answers to it and every interleaving with its `Result`:
when `Result` returns, no sender is or will be stuck on the channel if and only if at most
one of the values that were on their way to it is left, in the buffer or with its sender. -/
theorem senders_released_iff {s t : State M} (reached : Reaches State.step initial s)
    (returning : s.pool[i]? = some (.result k (.remove outcome)))
    (returned : s.step (.step i) = some t) :
    (∀ u, Reaches State.step t u → ∀ j, ¬ u.Stuck k j) ↔ s.left k ≤ 1 := by
  have known : Known s :=
    reached.invariant (P := Known) (fun known stepped => known.step stepped) initial_known
  obtain ⟨closed, same⟩ := known.closes returning returned
  rw [← same]
  constructor
  · intro released
    by_contra more
    obtain ⟨u, path, j, stuck⟩ := exists_stuck closed (Nat.lt_of_not_le more)
    exact released u path j stuck
  · intro few u path j stuck
    have bound : u.Closed k ∧ u.left k ≤ 1 := by
      refine path.invariant (P := fun u => u.Closed k ∧ u.left k ≤ 1) ?_ ⟨closed, few⟩
      rintro s label t ⟨closed, few⟩ stepped
      exact ⟨closed.step stepped, (closed.left_step stepped).trans few⟩
    -- the stuck sender and the value in the buffer are two
    have full := full_of_stuck stuck
    obtain ⟨a, waiting, -⟩ := stuck
    have sender : 0 < u.pool.countP (·.sending k) :=
      List.countP_pos_iff.mpr ⟨_, List.mem_of_getElem? waiting, Goroutine.sending_iff.mpr ⟨a, rfl⟩⟩
    have few := bound.2
    rw [State.left, if_pos full] at few
    omega

/-- Two actors answer. `Result` takes the first answer and the second is sent before it
returns. -/
def answeredTwice (draw : Fin maxInt32) : List (Label Nat) :=
  [.request draw, .step 0, .step 0, .answer 0 11, .answer 0 12, .step 1, .step 2, .step 1, .result 0, .receive 3,
    .step 2]

theorem senders_released_iff_answered :
    ∃ s t : State Nat, s.pool[3]? = some (.result 0 (.remove (some ⟨0, 11⟩))) ∧ s.results 0 = some ⟨0, 12⟩ ∧
      s.step (.step 3) = some t ∧ ∀ u, Reaches State.step t u → ∀ j, ¬ u.Stuck 0 j := by
  obtain ⟨s, reached, ends⟩ := exists_of_run State.step initial (answeredTwice 7)
    (fun s => s.pool[3]? = some (.result 0 (.remove (some ⟨0, 11⟩))) ∧ s.results 0 = some ⟨0, 12⟩ ∧
      s.ids[0]? = some "response/7" ∧ s.left 0 = 1) (by decide +kernel)
  obtain ⟨returning, buffered, named, one⟩ := of_decide_eq_true ends
  refine ⟨s, _, returning, buffered, step_remove returning named, ?_⟩
  exact (senders_released_iff reached returning (step_remove returning named)).mpr (Nat.le_of_eq one)

/-- Both actors have found the response when `Result` gives up. The first answer fills the
buffer. -/
def answeredLate (draw : Fin maxInt32) : List (Label Nat) :=
  [.request draw, .step 0, .step 0, .answer 0 11, .answer 0 12, .step 1, .step 2, .result 0, .timeout 3,
    .step 3, .step 1]

theorem second_answer_stuck :
    ∃ s : State Nat, Reaches State.step initial s ∧
      s.pool = [.request 0 .returned, .answer ⟨0, 11⟩ .delivered, .answer ⟨0, 12⟩ (.send 0),
        .result 0 (.returned none)] ∧ s.Stuck 0 2 := by
  obtain ⟨s, reached, ends⟩ := exists_of_run State.step initial (answeredLate 7)
    (fun s => s.pool = [.request 0 .returned, .answer ⟨0, 11⟩ .delivered, .answer ⟨0, 12⟩ (.send 0),
      .result 0 (.returned none)] ∧ s.ids.length = 1 ∧ (s.results 0).isSome = true) (by decide +kernel)
  obtain ⟨pool, length, full⟩ := of_decide_eq_true ends
  have jammed : Jammed s 0 2 ⟨0, 12⟩ := by
    constructor
    · rw [length]
      exact Nat.one_pos
    · exact full
    · rw [pool]
      decide
    · rw [pool]
      rfl
  exact ⟨s, reached, pool, jammed.stuck⟩

end Hollywood.Responses
