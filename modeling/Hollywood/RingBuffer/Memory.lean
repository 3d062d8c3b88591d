import Hollywood.Foundation.Transition
import Hollywood.RingBuffer.Refinement

/-! The memory of the ring buffer: when it grows, and what its slots hold that are not in
use. `Push` takes the buffer for full when the advanced tail meets the head, `PushFront`
when `len` has come to `mod - 1`. `Clear` only resets the indices. -/
namespace Hollywood.RingBuffer
open Transition

/-- A call of a method; the count of `PopN` is any `int64`. -/
inductive Call (α : Type) where
  | push (item : α)
  | pushFront (item : α)
  | pop
  | popN (n : Int)
  | clear
  deriving DecidableEq, Repr

variable {α : Type} [Inhabited α]

/-- The buffer after a call. `PopN` with a negative count panics in `make` unless the
buffer is empty. -/
def call (rb : RingBuffer α) : Call α → Option (RingBuffer α)
  | .push item => rb.push item
  | .pushFront item => rb.pushFront item
  | .pop => rb.pop.map (·.2)
  | .popN n => if 0 ≤ n ∨ rb.len = 0 then (rb.popN n.toNat).map (·.2) else none
  | .clear => some rb.clear

omit [Inhabited α] in
def Call.op : Call α → Deque.Op α
  | .push item => .push item
  | .pushFront item => .pushFront item
  | .pop => .pop
  | .popN n => .popN n.toNat
  | .clear => .clear

theorem call_perform {rb after : RingBuffer α} {c : Call α} (called : rb.call c = some after) :
    ∃ result, rb.perform c.op = some (result, after) := by
  cases c with
  | push item =>
    simp only [call] at called
    exact ⟨.done, by simp [Call.op, perform, called]⟩
  | pushFront item =>
    simp only [call] at called
    exact ⟨.done, by simp [Call.op, perform, called]⟩
  | pop =>
    obtain ⟨⟨⟨item, ok⟩, popped⟩, found, rfl⟩ := Option.map_eq_some_iff.mp called
    exact ⟨.item item ok, by simp [Call.op, perform, found]⟩
  | popN n =>
    rw [call, Option.ite_none_right_eq_some] at called
    obtain ⟨⟨⟨items, ok⟩, popped⟩, found, rfl⟩ := Option.map_eq_some_iff.mp called.2
    exact ⟨.items items ok, by simp [Call.op, perform, found]⟩
  | clear =>
    cases called
    exact ⟨.done, rfl⟩

theorem call_effect {rb after : RingBuffer α} {c : Call α} (valid : Represents rb queue)
    (called : rb.call c = some after) : Effect rb c.op (Deque.perform queue c.op).2 after := by
  obtain ⟨result, performed⟩ := call_perform called
  obtain ⟨_, same, effect⟩ := perform_effect valid c.op
  cases performed.symm.trans same
  exact effect

/-- A buffer that calls have led to. -/
def Sound (rb : RingBuffer α) : Prop := ∃ queue, Represents rb queue

theorem sound_call {rb after : RingBuffer α} {c : Call α} (sound : rb.Sound)
    (called : rb.call c = some after) : after.Sound := by
  obtain ⟨queue, valid⟩ := sound
  exact ⟨_, (call_effect valid called).represents⟩

theorem sound_run {rb last : RingBuffer α} {calls : List (Call α)} (sound : rb.Sound)
    (ran : run call rb calls = some last) : last.Sound :=
  (reaches_of_run ran).invariant sound_call sound

/-- The largest number of items that were queued at one time. -/
def peak (rb : RingBuffer α) : List (Call α) → Nat
  | [] => rb.len
  | c :: rest =>
    match rb.call c with
    | some after => max rb.len (after.peak rest)
    | none => rb.len

theorem len_le_peak (rb : RingBuffer α) (calls : List (Call α)) : rb.len ≤ rb.peak calls := by
  cases calls with
  | nil => exact le_rfl
  | cons c rest =>
    rw [peak]
    split
    · exact le_max_left _ _
    · exact le_rfl

/-- A buffer grows to twice the number of items it then holds. -/
theorem capacity_call {rb after : RingBuffer α} {c : Call α} (valid : Represents rb queue)
    (called : rb.call c = some after) : after.content.mod ≤ max rb.content.mod (2 * after.len) := by
  have effect := call_effect valid called
  have length := effect.represents.len
  have held := valid.len
  rw [effect.capacity]
  cases c with
  | push item | pushFront item =>
    simp only [Call.op, Deque.perform, List.length_append, List.length_cons, List.length_nil] at length
    simp only [Call.op, grown]
    split
    · omega
    · exact le_max_left _ _
  | pop | popN n | clear => exact le_max_left _ _

theorem capacity_run {rb last : RingBuffer α} {calls : List (Call α)} (sound : rb.Sound)
    (ran : run call rb calls = some last) :
    last.content.mod ≤ max rb.content.mod (2 * rb.peak calls) := by
  induction calls generalizing rb with
  | nil =>
    cases ran
    exact le_max_left _ _
  | cons c rest ih =>
    obtain ⟨after, called, ran⟩ := Option.bind_eq_some_iff.mp ran
    obtain ⟨queue, valid⟩ := id sound
    have first := capacity_call valid called
    have later := ih (sound_call sound called) ran
    have held := after.len_le_peak rest
    have highest : rb.peak (c :: rest) = max rb.len (after.peak rest) := by rw [peak, called]
    omega

/-- In every state that calls lead to from a fresh buffer, the two tests for a full buffer
agree, an insertion allocates a new buffer exactly when `len` is `mod - 1` and no other call
does, and the capacity is at most the larger of the initial size and twice the largest
length so far. -/
theorem grows_only_when_full (size : Nat) (positive : 1 ≤ size) (calls : List (Call α))
    (rb : RingBuffer α) (ran : run call (new size) calls = some rb) :
    ((rb.content.tail + 1) % rb.content.mod = rb.content.head ↔ rb.len + 1 ≥ rb.content.mod) ∧
    (∀ c after, rb.call c = some after →
      (after.content.mod ≠ rb.content.mod ↔
        (∃ item, c = .push item ∨ c = .pushFront item) ∧ rb.len + 1 = rb.content.mod)) ∧
    rb.content.mod ≤ max size (2 * (new size : RingBuffer α).peak calls) := by
  have fresh : (new size : RingBuffer α).Sound := ⟨[], new_represents positive⟩
  obtain ⟨queue, valid⟩ := sound_run fresh ran
  have length := valid.len
  have spare := valid.spare
  refine ⟨?_, ?_, capacity_run fresh ran⟩
  · rw [valid.full_iff]
    omega
  · intro c after called
    rw [(call_effect valid called).capacity]
    cases c with
    | push item | pushFront item =>
      simp only [Call.op, grown]
      split
      · rename_i full
        refine iff_of_true ?_ ⟨⟨item, by simp⟩, full⟩
        omega
      · rename_i room
        exact iff_of_false (fun differs => differs rfl) (fun both => room both.2)
    | pop | popN n | clear => simp [Call.op, grown]

/-- A buffer of size one that grows twice, wraps around and is cleared. -/
def wrapping : List (Call Nat) :=
  [.push 1, .pushFront 2, .pop, .push 3, .pushFront 4, .popN 9, .popN (-1), .pushFront 5, .clear]

theorem grows_only_when_full_wrapping :
    ∃ rb : RingBuffer Nat, run call (new 1) wrapping = some rb ∧
      rb.content.mod ≤ max 1 (2 * (new 1 : RingBuffer Nat).peak wrapping) ∧
      (new 1 : RingBuffer Nat).peak wrapping = 3 ∧ rb.content.mod = 4 := by
  obtain ⟨rb, ran⟩ := Option.isSome_iff_exists.mp
    (by decide : (run call (new 1 : RingBuffer Nat) wrapping).isSome = true)
  refine ⟨rb, ran, (grows_only_when_full 1 le_rfl wrapping rb ran).2.2, by decide, ?_⟩
  have size : (run call (new 1) wrapping).map (·.content.mod) = some 4 := by decide
  rw [ran] at size
  exact Option.some.inj size

/-- Every slot of `items` outside the window `head + 1 .. head + len` holds the zero value. -/
def Clean (rb : RingBuffer α) : Prop :=
  ∀ j < rb.content.items.size, (∀ i < rb.len, (rb.content.head + 1 + i) % rb.content.mod ≠ j) →
    rb.content.items[j]? = some default

omit [Inhabited α] in
/-- Every slot is some number of places behind the sentinel. -/
theorem Represents.slot_surjective {rb : RingBuffer α} (valid : Represents rb queue)
    (bound : j < rb.content.mod) :
    ∃ i < rb.content.mod, (rb.content.head + 1 + i) % rb.content.mod = j := by
  have head := valid.head
  by_cases behind : rb.content.head + 1 ≤ j
  · refine ⟨j - (rb.content.head + 1), by omega, ?_⟩
    rw [Nat.add_sub_cancel' behind, Nat.mod_eq_of_lt bound]
  · refine ⟨j + rb.content.mod - (rb.content.head + 1), by omega, ?_⟩
    rw [Nat.add_sub_cancel' (by omega), Nat.add_mod_right, Nat.mod_eq_of_lt bound]

theorem clean_iff_vacant {rb : RingBuffer α} (valid : Represents rb queue) :
    rb.Clean ↔ rb.Vacant := by
  constructor
  · intro clean i outside bound
    apply clean _ (valid.slot_inside _)
    intro k inside same
    have equal := slot_injective (by omega) bound same
    omega
  · intro vacant j bound outside
    rw [valid.size] at bound
    obtain ⟨i, around, rfl⟩ := valid.slot_surjective bound
    refine vacant i ?_ around
    by_contra inside
    exact outside i (by omega) rfl

/-- `Clear` leaves all that was queued in its slots. -/
theorem clear_clean_iff {rb : RingBuffer α} (sound : rb.Sound) (clean : rb.Clean) :
    rb.clear.Clean ↔ ∀ item ∈ rb.toList, item = default := by
  obtain ⟨queue, valid⟩ := sound
  rw [valid.toList_eq]
  constructor
  · intro cleared item queued
    obtain ⟨i, bound, rfl⟩ := List.mem_iff_getElem.mp queued
    have slot := valid.slots i bound
    have zero := cleared _ (valid.slot_inside (rb.content.head + 1 + i))
      (fun i bound => absurd bound (Nat.not_lt_zero i))
    rw [List.getElem?_eq_getElem bound] at slot
    exact Option.some.inj (slot.symm.trans zero)
  · intro zeros j bound _
    change rb.content.items[j]? = some default
    by_cases inside : ∃ i < rb.len, (rb.content.head + 1 + i) % rb.content.mod = j
    · obtain ⟨i, queued, rfl⟩ := inside
      rw [valid.len] at queued
      rw [valid.slots i queued, List.getElem?_eq_getElem queued,
        zeros _ (List.getElem_mem queued)]
    · exact clean j bound fun i queued same => inside ⟨i, queued, same⟩

theorem clean_call_iff {rb after : RingBuffer α} {c : Call α} (sound : rb.Sound) (clean : rb.Clean)
    (called : rb.call c = some after) :
    after.Clean ↔ (c = .clear → ∀ item ∈ rb.toList, item = default) := by
  by_cases clears : c = .clear
  · subst clears
    cases called
    rw [clear_clean_iff sound clean]
    exact ⟨fun zeros _ => zeros, fun zeros => zeros rfl⟩
  · obtain ⟨queue, valid⟩ := sound
    have effect := call_effect valid called
    have other : c.op ≠ .clear := by
      cases c with
      | clear => exact absurd rfl clears
      | push | pushFront | pop | popN => rintro ⟨⟩
    refine iff_of_true ?_ (fun same => absurd same clears)
    exact (clean_iff_vacant effect.represents).mpr
      (effect.vacant other ((clean_iff_vacant valid).mp clean))

/-- All along a sequence of calls on a fresh buffer the slots outside the window hold the
zero value, if and only if whatever is queued when `Clear` is called is the zero value. -/
theorem no_dead_items_iff (size : Nat) (positive : 1 ≤ size) (calls : List (Call α))
    (rb : RingBuffer α) (ran : run call (new size) calls = some rb) :
    Always call Clean (new size) calls ↔
      Steps call (fun rb c => c = .clear → ∀ item ∈ rb.toList, item = default)
        (new size) calls := by
  have fresh : (new size : RingBuffer α).Sound := ⟨[], new_represents positive⟩
  have clean : (new size : RingBuffer α).Clean := by
    intro j bound _
    exact make_get (by simpa [new, make] using bound)
  exact always_iff_steps sound_call clean_call_iff fresh clean ran

/-- Everything is popped before the buffer is cleared. -/
theorem no_dead_items_iff_popped :
    Always call Clean (new 1 : RingBuffer Nat) [.push 1, .pushFront 2, .popN 2, .clear] := by
  obtain ⟨rb, ran⟩ := Option.isSome_iff_exists.mp (by decide :
    (run call (new 1 : RingBuffer Nat) [.push 1, .pushFront 2, .popN 2, .clear]).isSome = true)
  refine (no_dead_items_iff 1 le_rfl _ rb ran).mpr ?_
  iterate 3
    refine (steps_cons rfl).mpr ⟨by rintro ⟨⟩, ?_⟩
  refine (steps_cons rfl).mpr ⟨fun _ => by decide, ?_⟩
  intro earlier l later t split
  cases earlier with
  | nil => cases split
  | cons => cases split

/-- The message that was queued when the buffer was cleared stays in slot 1. -/
theorem cleared_item_retained :
    (run call (new 4 : RingBuffer Nat) [.push 7, .clear]).map
        (fun rb => (rb.len, rb.content.items, rb.content.head)) = some (0, #[0, 7, 0, 0], 0) := by
  decide

end Hollywood.RingBuffer
