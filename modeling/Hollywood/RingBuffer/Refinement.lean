import Hollywood.RingBuffer
import Mathlib.Data.Nat.ModEq

/-! The ring buffer refines an unbounded double-ended queue. The slot at `head`
is an empty sentinel; the queued items are the `len` slots behind it, modulo
`mod`, wherever the window has wrapped to. -/
namespace Hollywood
namespace RingBuffer
variable {α : Type} [Inhabited α]

/-- The representation invariant, together with the queue it stands for. -/
structure Represents (rb : RingBuffer α) (queue : List α) : Prop where
  size : rb.content.items.size = rb.content.mod
  head : rb.content.head < rb.content.mod
  len : rb.len = queue.length
  spare : queue.length < rb.content.mod
  tail : rb.content.tail = (rb.content.head + queue.length) % rb.content.mod
  slots : ∀ i < queue.length,
    rb.content.items[(rb.content.head + 1 + i) % rb.content.mod]? = queue[i]?

theorem slot_injective {a i j mod : Nat} (left : i < mod) (right : j < mod)
    (same : (a + i) % mod = (a + j) % mod) : i = j :=
  (Nat.ModEq.add_left_cancel' a same).eq_of_lt_of_lt left right

theorem rem_some (positive : 0 < b) : rem a b = some (a % b) :=
  if_neg (Nat.ne_of_gt positive)

omit [Inhabited α] in
theorem write_spec (items : Array α) (i : Nat) (item : α) (bound : i < items.size) :
    ∃ out, write items i item = some out ∧ out.size = items.size ∧
      out[i]? = some item ∧ ∀ j, j ≠ i → out[j]? = items[j]? := by
  refine ⟨_, dif_pos bound, by simp, by simp, ?_⟩
  intro j different
  rw [Array.getElem?_set, if_neg different.symm]

omit [Inhabited α] in
/-- The copying loop fills exactly the slots it walks over. -/
theorem copy_spec (items into : Array α) (start n offset : Nat) (positive : 0 < mod)
    (size : items.size = mod) (room : offset + n ≤ into.size) :
    ∃ out, copy items start mod n offset into = some out ∧ out.size = into.size ∧
      (∀ i < n, out[offset + i]? = items[(start + i) % mod]?) ∧
      ∀ j, j < offset ∨ offset + n ≤ j → out[j]? = into[j]? := by
  induction n with
  | zero => exact ⟨into, rfl, rfl, fun i bound => absurd bound (Nat.not_lt_zero i), fun _ _ => rfl⟩
  | succ n ih =>
    obtain ⟨out, copied, sized, filled, kept⟩ := ih (by omega)
    have inside : (start + n) % mod < items.size := by
      rw [size]
      exact Nat.mod_lt _ positive
    obtain ⟨last, written, lastSize, atEnd, before⟩ :=
      write_spec out (offset + n) items[(start + n) % mod] (by omega)
    refine ⟨last, ?_, lastSize.trans sized, ?_, ?_⟩
    · have run : copy items start mod n offset into >>= (fun newBuff => do
          let idx ← rem (start + n) mod
          let item ← items[idx]?
          write newBuff (offset + n) item) = some last := by
        rw [copied]
        simp only [Option.bind_eq_bind, Option.bind_some, rem_some positive,
          Array.getElem?_eq_getElem inside, written]
      simpa only [copy, List.range_succ, List.foldlM_append, List.foldlM_cons, List.foldlM_nil,
        bind_pure] using run
    · intro i bound
      rcases Nat.lt_succ_iff_lt_or_eq.mp bound with earlier | rfl
      · rw [before _ (by omega), filled i earlier]
      · rw [atEnd, Array.getElem?_eq_getElem inside]
    · intro j outside
      rw [before j (by omega), kept j (by omega)]

theorem make_get {size i : Nat} (bound : i < size) : (make size : Array α)[i]? = some default := by
  simp [make, bound]

theorem new_represents (positive : 0 < size) : Represents (new size : RingBuffer α) [] where
  size := by simp [new, make]
  head := positive
  len := rfl
  spare := positive
  tail := by simp [new]
  slots := fun i bound => absurd bound (Nat.not_lt_zero i)

omit [Inhabited α] in
theorem Represents.positive {rb : RingBuffer α} (valid : Represents rb queue) :
    0 < rb.content.mod :=
  Nat.zero_lt_of_lt valid.head

omit [Inhabited α] in
/-- No index reduced modulo `mod` is out of range. -/
theorem Represents.slot_inside {rb : RingBuffer α} (valid : Represents rb queue) (i : Nat) :
    i % rb.content.mod < rb.content.items.size := by
  rw [valid.size]
  exact Nat.mod_lt _ valid.positive

omit [Inhabited α] in
theorem Represents.sentinel {rb : RingBuffer α} (valid : Represents rb queue) :
    (rb.content.head + 0) % rb.content.mod = rb.content.head :=
  Nat.mod_eq_of_lt valid.head

omit [Inhabited α] in
/-- Advancing the tail meets the head exactly when one slot is left. -/
theorem Represents.full_iff {rb : RingBuffer α} (valid : Represents rb queue) :
    (rb.content.tail + 1) % rb.content.mod = rb.content.head ↔
      queue.length + 1 = rb.content.mod := by
  have bound := valid.spare
  rw [valid.tail, Nat.mod_add_mod, Nat.add_assoc]
  constructor
  · intro meets
    by_contra roomy
    have zero := slot_injective (by omega) valid.positive (meets.trans valid.sentinel.symm)
    omega
  · intro full
    rw [full, Nat.add_mod_right, Nat.mod_eq_of_lt valid.head]

/-- Outside the window of the queued items there is nothing but the zero value. -/
def Vacant (rb : RingBuffer α) : Prop :=
  ∀ i, rb.len ≤ i → i < rb.content.mod →
    rb.content.items[(rb.content.head + 1 + i) % rb.content.mod]? = some default

/-- The sentinel is the last slot of the ring. -/
theorem Vacant.sentinel {rb : RingBuffer α} (vacant : rb.Vacant) (valid : Represents rb queue) :
    rb.content.items[rb.content.head]? = some default := by
  have spare := valid.spare
  have last := vacant (rb.content.mod - 1) (by rw [valid.len]; omega) (by omega)
  rwa [show rb.content.head + 1 + (rb.content.mod - 1) = rb.content.head + rb.content.mod by omega,
    Nat.add_mod_right, Nat.mod_eq_of_lt valid.head] at last

/-- The whole ring moves to the front of the new buffer, the sentinel first. -/
theorem push_full {rb : RingBuffer α} (valid : Represents rb queue)
    (full : queue.length + 1 = rb.content.mod) (item : α) :
    ∃ after, rb.push item = some after ∧ Represents after (queue ++ [item]) ∧
      after.content.mod = rb.content.mod * 2 ∧ (rb.Vacant → after.Vacant) := by
  have positive := valid.positive
  have meets := valid.full_iff.mpr full
  obtain ⟨newBuff, copied, sized, filled, kept⟩ := copy_spec rb.content.items
    (make (rb.content.mod * 2)) rb.content.head rb.content.mod 0 positive valid.size
    (by simp [make]; omega)
  have newSize : newBuff.size = rb.content.mod * 2 := by simpa [make] using sized
  obtain ⟨items, written, itemsSize, atTail, others⟩ :=
    write_spec newBuff rb.content.mod item (by omega)
  refine ⟨⟨rb.len + 1, ⟨items, 0, rb.content.mod, rb.content.mod * 2⟩⟩, ?_, ?_, rfl, ?_⟩
  · simp only [push, Option.bind_eq_bind, rem_some positive, Option.bind_some, meets, if_true,
      copied, Option.pure_def, written]
  · refine ⟨by simp [itemsSize, newSize], by simp; omega, by simp [valid.len], by simp; omega,
      ?_, ?_⟩
    · simp only [List.length_append, List.length_singleton]
      rw [Nat.mod_eq_of_lt (by omega)]
      omega
    · intro i bound
      simp only [List.length_append, List.length_singleton] at bound
      change items[(0 + 1 + i) % (rb.content.mod * 2)]? = _
      rw [Nat.mod_eq_of_lt (by omega)]
      rcases Nat.lt_succ_iff_lt_or_eq.mp bound with earlier | rfl
      · rw [others _ (by omega), List.getElem?_append_left earlier, ← valid.slots i earlier]
        have slot := filled (1 + i) (by omega)
        simpa only [Nat.zero_add, Nat.add_assoc] using slot
      · rw [List.getElem?_concat_length, show 0 + 1 + queue.length = rb.content.mod by omega,
          atTail]
  · intro vacant i outside bound
    change rb.len + 1 ≤ i at outside
    change i < rb.content.mod * 2 at bound
    change items[(0 + 1 + i) % (rb.content.mod * 2)]? = _
    have length := valid.len
    by_cases last : i + 1 = rb.content.mod * 2
    · -- the copy of the old sentinel is the new one
      rw [show 0 + 1 + i = rb.content.mod * 2 by omega, Nat.mod_self, others _ (by omega)]
      have first := filled 0 positive
      rw [Nat.add_zero, Nat.add_zero, Nat.mod_eq_of_lt valid.head] at first
      rw [first]
      exact vacant.sentinel valid
    · rw [Nat.mod_eq_of_lt (by omega), others _ (by omega), kept _ (by omega), make_get (by omega)]

theorem push_room {rb : RingBuffer α} (valid : Represents rb queue)
    (room : queue.length + 1 ≠ rb.content.mod) (item : α) :
    ∃ after, rb.push item = some after ∧ Represents after (queue ++ [item]) ∧
      after.content.mod = rb.content.mod ∧ (rb.Vacant → after.Vacant) := by
  have positive := valid.positive
  have spare := valid.spare
  have apart : ¬ (rb.content.tail + 1) % rb.content.mod = rb.content.head :=
    fun meets => room (valid.full_iff.mp meets)
  have advanced : (rb.content.tail + 1) % rb.content.mod =
      (rb.content.head + 1 + queue.length) % rb.content.mod := by
    rw [valid.tail, Nat.mod_add_mod]
    congr 1
    omega
  obtain ⟨items, written, itemsSize, atTail, others⟩ := write_spec rb.content.items
    ((rb.content.tail + 1) % rb.content.mod) item (valid.slot_inside _)
  -- the slot written to is the one behind the queue
  have kept (i : Nat) (bound : i < rb.content.mod) (different : i ≠ queue.length) :
      items[(rb.content.head + 1 + i) % rb.content.mod]? =
        rb.content.items[(rb.content.head + 1 + i) % rb.content.mod]? := by
    apply others
    rw [advanced]
    intro same
    exact different (slot_injective bound (by omega) same)
  refine ⟨⟨rb.len + 1, ⟨items, rb.content.head, (rb.content.tail + 1) % rb.content.mod,
    rb.content.mod⟩⟩, ?_, ?_, rfl, ?_⟩
  · simp only [push, Option.bind_eq_bind, rem_some positive, Option.bind_some, apart, if_false,
      Option.pure_def, written]
  · refine ⟨by simp [itemsSize, valid.size], valid.head, by simp [valid.len],
      by simp; omega, ?_, ?_⟩
    · simp only [List.length_append, List.length_singleton, advanced]
      congr 1
      omega
    · intro i bound
      simp only [List.length_append, List.length_singleton] at bound
      change items[(rb.content.head + 1 + i) % rb.content.mod]? = _
      rcases Nat.lt_succ_iff_lt_or_eq.mp bound with earlier | rfl
      · rw [kept i (by omega) (by omega), List.getElem?_append_left earlier, valid.slots i earlier]
      · rw [← advanced, atTail, List.getElem?_concat_length]
  · intro vacant i outside bound
    change rb.len + 1 ≤ i at outside
    change i < rb.content.mod at bound
    have length := valid.len
    exact (kept i bound (by omega)).trans (vacant i (by omega) bound)

/-- The items move to the front of the new buffer, behind the sentinel. -/
theorem pushFront_full {rb : RingBuffer α} (valid : Represents rb queue)
    (full : queue.length + 1 = rb.content.mod) (item : α) :
    ∃ after, rb.pushFront item = some after ∧ Represents after (item :: queue) ∧
      after.content.mod = rb.content.mod * 2 ∧ (rb.Vacant → after.Vacant) := by
  have positive := valid.positive
  have length := valid.len
  have test : rb.len + 1 ≥ rb.content.mod := by omega
  obtain ⟨newBuff, copied, sized, filled, kept⟩ := copy_spec rb.content.items
    (make (rb.content.mod * 2)) (rb.content.head + 1) rb.len 1 positive valid.size
    (by simp [make, valid.len]; omega)
  have newSize : newBuff.size = rb.content.mod * 2 := by simpa [make] using sized
  obtain ⟨items, written, itemsSize, atHead, others⟩ := write_spec newBuff 0 item (by omega)
  have wrapped : (0 + rb.content.mod * 2 - 1) % (rb.content.mod * 2) =
      rb.content.mod * 2 - 1 := by
    rw [Nat.zero_add, Nat.mod_eq_of_lt (by omega)]
  -- behind the new sentinel, which is the last slot, the buffer begins
  have start (i : Nat) (bound : i < rb.content.mod * 2) :
      (rb.content.mod * 2 - 1 + 1 + i) % (rb.content.mod * 2) = i := by
    rw [show rb.content.mod * 2 - 1 + 1 + i = i + rb.content.mod * 2 by omega, Nat.add_mod_right,
      Nat.mod_eq_of_lt bound]
  refine ⟨⟨rb.len + 1, ⟨items, rb.content.mod * 2 - 1, rb.len, rb.content.mod * 2⟩⟩, ?_, ?_, rfl, ?_⟩
  · simp only [pushFront, Option.bind_eq_bind, if_pos test, copied, Option.pure_def,
      Option.bind_some, written, rem_some (show 0 < rb.content.mod * 2 by omega), wrapped]
  · refine ⟨by simp [itemsSize, newSize], by simp; omega, by simp [valid.len], by simp; omega,
      ?_, ?_⟩
    · change rb.len = (rb.content.mod * 2 - 1 + (queue.length + 1)) % (rb.content.mod * 2)
      rw [← Nat.add_assoc, Nat.add_right_comm, start queue.length (by omega), valid.len]
    · intro i bound
      change items[(rb.content.mod * 2 - 1 + 1 + i) % (rb.content.mod * 2)]? = _
      simp only [List.length_cons] at bound
      rw [start i (by omega)]
      cases i with
      | zero => rw [atHead, List.getElem?_cons_zero]
      | succ i =>
        have queued : i < queue.length := by omega
        rw [others _ (by omega), List.getElem?_cons_succ, ← valid.slots i queued,
          Nat.add_comm i 1, filled i (valid.len ▸ queued)]
  · intro _ i outside bound
    change rb.len + 1 ≤ i at outside
    change i < rb.content.mod * 2 at bound
    change items[(rb.content.mod * 2 - 1 + 1 + i) % (rb.content.mod * 2)]? = _
    rw [start i bound, others _ (by omega), kept _ (by omega), make_get bound]

theorem pushFront_room {rb : RingBuffer α} (valid : Represents rb queue)
    (room : queue.length + 1 ≠ rb.content.mod) (item : α) :
    ∃ after, rb.pushFront item = some after ∧ Represents after (item :: queue) ∧
      after.content.mod = rb.content.mod ∧ (rb.Vacant → after.Vacant) := by
  have positive := valid.positive
  have spare := valid.spare
  have length := valid.len
  have test : ¬ rb.len + 1 ≥ rb.content.mod := by omega
  obtain ⟨items, written, itemsSize, atHead, others⟩ :=
    write_spec rb.content.items rb.content.head item (by rw [valid.size]; exact valid.head)
  -- one slot down from the sentinel and `k + 1` slots up again is `k` slots up
  have back (k : Nat) : ((rb.content.head + rb.content.mod - 1) % rb.content.mod + 1 + k) %
      rb.content.mod = (rb.content.head + k) % rb.content.mod := by
    rw [Nat.add_assoc, Nat.mod_add_mod, show rb.content.head + rb.content.mod - 1 + (1 + k) =
      rb.content.head + k + rb.content.mod by omega, Nat.add_mod_right]
  have kept (i : Nat) (bound : i + 1 < rb.content.mod) :
      items[(rb.content.head + (i + 1)) % rb.content.mod]? =
        rb.content.items[(rb.content.head + 1 + i) % rb.content.mod]? := by
    have apart : (rb.content.head + (i + 1)) % rb.content.mod ≠ rb.content.head := by
      intro same
      have zero := slot_injective bound positive (same.trans valid.sentinel.symm)
      omega
    rw [others _ apart]
    congr 2
    omega
  refine ⟨⟨rb.len + 1, ⟨items, (rb.content.head + rb.content.mod - 1) % rb.content.mod,
    rb.content.tail, rb.content.mod⟩⟩, ?_, ?_, rfl, ?_⟩
  · simp only [pushFront, Option.bind_eq_bind, if_neg test, Option.pure_def, Option.bind_some,
      written, rem_some positive]
  · refine ⟨by simp [itemsSize, valid.size], Nat.mod_lt _ positive, by simp [valid.len],
      by simp; omega, ?_, ?_⟩
    · change rb.content.tail = ((rb.content.head + rb.content.mod - 1) % rb.content.mod +
        (queue.length + 1)) % rb.content.mod
      rw [Nat.add_comm queue.length 1, ← Nat.add_assoc, back, valid.tail]
    · intro i bound
      change items[((rb.content.head + rb.content.mod - 1) % rb.content.mod + 1 + i) %
        rb.content.mod]? = _
      simp only [List.length_cons] at bound
      rw [back]
      cases i with
      | zero => rw [valid.sentinel, atHead, List.getElem?_cons_zero]
      | succ i =>
        rw [kept i (by omega), List.getElem?_cons_succ, valid.slots i (by omega)]
  · intro vacant i outside bound
    change rb.len + 1 ≤ i at outside
    change i < rb.content.mod at bound
    change items[((rb.content.head + rb.content.mod - 1) % rb.content.mod + 1 + i) %
      rb.content.mod]? = _
    obtain ⟨k, rfl⟩ : ∃ k, i = k + 1 := ⟨i - 1, by omega⟩
    rw [back, kept k bound]
    exact vacant k (by omega) (by omega)

theorem pop_empty {rb : RingBuffer α} (valid : Represents rb []) :
    rb.pop = some ((default, false), rb) :=
  if_pos valid.len

theorem pop_spec {rb : RingBuffer α} (valid : Represents rb (item :: rest)) :
    ∃ after, rb.pop = some ((item, true), after) ∧ Represents after rest ∧
      after.content.mod = rb.content.mod ∧ (rb.Vacant → after.Vacant) := by
  have positive := valid.positive
  have spare := valid.spare
  simp only [List.length_cons] at spare
  have nonempty : ¬ rb.len = 0 := by simp [valid.len]
  have first : rb.content.items[(rb.content.head + 1) % rb.content.mod]? = some item := by
    simpa using valid.slots 0 (by simp)
  obtain ⟨items, written, itemsSize, zeroed, others⟩ := write_spec rb.content.items
    ((rb.content.head + 1) % rb.content.mod) default (valid.slot_inside _)
  have shifted (i : Nat) : ((rb.content.head + 1) % rb.content.mod + 1 + i) % rb.content.mod =
      (rb.content.head + 1 + (i + 1)) % rb.content.mod := by
    rw [Nat.add_assoc, Nat.mod_add_mod, Nat.add_comm 1 i]
  have kept (i : Nat) (bound : i + 1 < rb.content.mod) :
      items[(rb.content.head + 1 + (i + 1)) % rb.content.mod]? =
        rb.content.items[(rb.content.head + 1 + (i + 1)) % rb.content.mod]? := by
    apply others
    intro same
    have zero := slot_injective (a := rb.content.head + 1) (i := i + 1) (j := 0) bound positive same
    omega
  refine ⟨⟨rb.len - 1, ⟨items, (rb.content.head + 1) % rb.content.mod, rb.content.tail,
    rb.content.mod⟩⟩, ?_, ?_, rfl, ?_⟩
  · simp only [pop, if_neg nonempty, Option.bind_eq_bind, rem_some positive, Option.bind_some,
      first, written, Option.pure_def]
  · refine ⟨itemsSize.trans valid.size, Nat.mod_lt _ positive, by simp [valid.len],
      by simp; omega, ?_, ?_⟩
    · change rb.content.tail = ((rb.content.head + 1) % rb.content.mod + rest.length) %
        rb.content.mod
      rw [valid.tail, Nat.mod_add_mod, List.length_cons, Nat.add_assoc, Nat.add_comm 1]
    · intro i bound
      change items[((rb.content.head + 1) % rb.content.mod + 1 + i) % rb.content.mod]? = _
      rw [shifted, kept i (by omega), valid.slots (i + 1) (by simpa using bound),
        List.getElem?_cons_succ]
  · intro vacant i outside bound
    change rb.len - 1 ≤ i at outside
    change i < rb.content.mod at bound
    change items[((rb.content.head + 1) % rb.content.mod + 1 + i) % rb.content.mod]? = _
    have length := valid.len
    rw [List.length_cons] at length
    rw [shifted]
    by_cases last : i + 1 = rb.content.mod
    · rw [last, Nat.add_mod_right, zeroed]
    · rw [kept i (by omega)]
      exact vacant (i + 1) (by omega) (by omega)

/-- After `n` passes the loop of `PopN` holds the first `n` items, their slots hold the
zero value, and every slot it has not reached is as it was. -/
theorem popSlot_loop {rb : RingBuffer α} (valid : Represents rb queue) (n : Nat)
    (within : n ≤ queue.length) :
    ∃ slots, (List.range n).foldlM (popSlot rb.content) ([], rb.content.items) =
        some (queue.take n, slots) ∧ slots.size = rb.content.items.size ∧
      (∀ i < n, slots[(rb.content.head + 1 + i) % rb.content.mod]? = some default) ∧
      ∀ i, n ≤ i → i < rb.content.mod →
        slots[(rb.content.head + 1 + i) % rb.content.mod]? =
          rb.content.items[(rb.content.head + 1 + i) % rb.content.mod]? := by
  have spare := valid.spare
  induction n with
  | zero =>
    exact ⟨rb.content.items, rfl, rfl, fun i bound => absurd bound (Nat.not_lt_zero i),
      fun _ _ _ => rfl⟩
  | succ n ih =>
    obtain ⟨slots, looped, sized, zeroed, untouched⟩ := ih (by omega)
    have queued : slots[(rb.content.head + 1 + n) % rb.content.mod]? = queue[n]? := by
      rw [untouched n le_rfl (by omega), valid.slots n (by omega)]
    obtain ⟨last, written, lastSize, atSlot, others⟩ := write_spec slots
      ((rb.content.head + 1 + n) % rb.content.mod) default
      (by rw [sized]; exact valid.slot_inside _)
    refine ⟨last, ?_, lastSize.trans sized, ?_, ?_⟩
    · rw [List.range_succ, List.foldlM_append, looped]
      have inside : n < queue.length := by omega
      rw [List.getElem?_eq_getElem inside] at queued
      simp only [Option.bind_eq_bind, Option.bind_some, List.foldlM_cons, List.foldlM_nil,
        popSlot, rem_some valid.positive, queued, written, Option.pure_def,
        List.take_append_getElem inside]
    · intro i bound
      rcases Nat.lt_succ_iff_lt_or_eq.mp bound with earlier | rfl
      · rw [others, zeroed i earlier]
        intro same
        have equal := slot_injective (by omega) (by omega) same
        omega
      · exact atSlot
    · intro i later bound
      rw [others, untouched i (by omega) bound]
      intro same
      have equal := slot_injective bound (by omega) same
      omega

theorem popN_empty {rb : RingBuffer α} (valid : Represents rb []) (n : Nat) :
    rb.popN n = some (([], false), rb) :=
  if_pos valid.len

theorem popN_spec {rb : RingBuffer α} (valid : Represents rb queue) (nonempty : queue ≠ [])
    (n : Nat) :
    ∃ after, rb.popN n = some ((queue.take n, true), after) ∧
      Represents after (queue.drop n) ∧ after.content.mod = rb.content.mod ∧
      (rb.Vacant → after.Vacant) := by
  have spare := valid.spare
  have present : ¬ rb.len = 0 := by
    rw [valid.len]
    exact fun none => nonempty (List.eq_nil_of_length_eq_zero none)
  obtain ⟨m, capped⟩ : ∃ m, m = if n ≥ rb.len then rb.len else n := ⟨_, rfl⟩
  have clamp : m = min n queue.length := by
    rw [capped, valid.len]
    split <;> omega
  obtain ⟨slots, looped, sized, zeroed, untouched⟩ := popSlot_loop valid m (by omega)
  have taken : queue.take m = queue.take n := by rw [clamp, ← List.take_eq_take_min]
  have dropped : queue.drop m = queue.drop n := by rw [clamp, ← List.drop_eq_drop_min]
  have shifted (i : Nat) : ((rb.content.head + m) % rb.content.mod + 1 + i) % rb.content.mod =
      (rb.content.head + 1 + (m + i)) % rb.content.mod := by
    rw [Nat.add_assoc, Nat.mod_add_mod]
    congr 1
    omega
  refine ⟨⟨rb.len - m, ⟨slots, (rb.content.head + m) % rb.content.mod, rb.content.tail,
    rb.content.mod⟩⟩, ?_, ?_, rfl, ?_⟩
  · simp only [popN, if_neg present, ← capped, Option.bind_eq_bind, looped, Option.bind_some,
      rem_some valid.positive, Option.pure_def, taken]
  · rw [← dropped]
    have length : (queue.drop m).length = queue.length - m := List.length_drop
    refine ⟨sized.trans valid.size, Nat.mod_lt _ valid.positive, by rw [length, valid.len],
      by simp only [length]; omega, ?_, ?_⟩
    · change rb.content.tail = ((rb.content.head + m) % rb.content.mod + _) % rb.content.mod
      rw [valid.tail, Nat.mod_add_mod, length]
      congr 1
      omega
    · intro i bound
      change slots[((rb.content.head + m) % rb.content.mod + 1 + i) % rb.content.mod]? = _
      rw [shifted, untouched (m + i) (by omega) (by omega), valid.slots (m + i) (by omega),
        List.getElem?_drop]
  · intro vacant i outside bound
    change rb.len - m ≤ i at outside
    change i < rb.content.mod at bound
    change slots[((rb.content.head + m) % rb.content.mod + 1 + i) % rb.content.mod]? = _
    rw [shifted]
    have length := valid.len
    by_cases wraps : m + i < rb.content.mod
    · rw [untouched (m + i) (by omega) wraps]
      exact vacant (m + i) (by omega) wraps
    · -- once around the ring are the slots that were just vacated
      rw [show rb.content.head + 1 + (m + i) =
        rb.content.head + 1 + (m + i - rb.content.mod) + rb.content.mod by omega, Nat.add_mod_right]
      exact zeroed _ (by omega)

omit [Inhabited α] in
theorem clear_represents {rb : RingBuffer α} (valid : Represents rb queue) :
    Represents rb.clear [] where
  size := valid.size
  head := valid.positive
  len := rfl
  spare := valid.positive
  tail := by simp [clear]
  slots := fun i bound => absurd bound (Nat.not_lt_zero i)

omit [Inhabited α] in
/-- The capacity after an operation: an insertion into a full buffer doubles it. -/
def grown (rb : RingBuffer α) : Deque.Op α → Nat
  | .push _ | .pushFront _ => if rb.len + 1 = rb.content.mod then rb.content.mod * 2 else rb.content.mod
  | .pop | .popN _ | .clear | .len => rb.content.mod

/-- What an operation does to the buffer: the queue's own state, the capacity, and no item
left behind unless by `Clear`. -/
structure Effect (rb : RingBuffer α) (op : Deque.Op α) (queue : List α) (after : RingBuffer α) : Prop
    where
  represents : Represents after queue
  capacity : after.content.mod = rb.grown op
  vacant : op ≠ .clear → rb.Vacant → after.Vacant

theorem Effect.same {rb : RingBuffer α} {op : Deque.Op α} (valid : Represents rb queue)
    (capacity : rb.content.mod = rb.grown op) : Effect rb op queue rb :=
  ⟨valid, capacity, fun _ vacant => vacant⟩

theorem push_effect {rb : RingBuffer α} (valid : Represents rb queue) (item : α) :
    ∃ after, rb.push item = some after ∧ Effect rb (.push item) (queue ++ [item]) after := by
  by_cases full : queue.length + 1 = rb.content.mod
  · obtain ⟨after, pushed, represents, capacity, vacant⟩ := push_full valid full item
    exact ⟨after, pushed, represents, by simp [grown, valid.len, full, capacity], fun _ => vacant⟩
  · obtain ⟨after, pushed, represents, capacity, vacant⟩ := push_room valid full item
    exact ⟨after, pushed, represents, by simp [grown, valid.len, full, capacity], fun _ => vacant⟩

theorem pushFront_effect {rb : RingBuffer α} (valid : Represents rb queue) (item : α) :
    ∃ after, rb.pushFront item = some after ∧ Effect rb (.pushFront item) (item :: queue) after := by
  by_cases full : queue.length + 1 = rb.content.mod
  · obtain ⟨after, pushed, represents, capacity, vacant⟩ := pushFront_full valid full item
    exact ⟨after, pushed, represents, by simp [grown, valid.len, full, capacity], fun _ => vacant⟩
  · obtain ⟨after, pushed, represents, capacity, vacant⟩ := pushFront_room valid full item
    exact ⟨after, pushed, represents, by simp [grown, valid.len, full, capacity], fun _ => vacant⟩

/-- One operation: no panic, the queue's own result, and its effect. -/
theorem perform_effect {rb : RingBuffer α} (valid : Represents rb queue) (op : Deque.Op α) :
    ∃ after, rb.perform op = some ((Deque.perform queue op).1, after) ∧
      Effect rb op (Deque.perform queue op).2 after := by
  cases op with
  | push item =>
    obtain ⟨after, pushed, effect⟩ := push_effect valid item
    exact ⟨after, by simp [perform, pushed, Deque.perform], effect⟩
  | pushFront item =>
    obtain ⟨after, pushed, effect⟩ := pushFront_effect valid item
    exact ⟨after, by simp [perform, pushed, Deque.perform], effect⟩
  | pop =>
    cases queue with
    | nil => exact ⟨rb, by simp [perform, pop_empty valid, Deque.perform], .same valid rfl⟩
    | cons item rest =>
      obtain ⟨after, popped, represents, capacity, vacant⟩ := pop_spec valid
      exact ⟨after, by simp [perform, popped, Deque.perform], represents, capacity, fun _ => vacant⟩
  | popN n =>
    cases queue with
    | nil => exact ⟨rb, by simp [perform, popN_empty valid, Deque.perform], .same valid rfl⟩
    | cons item rest =>
      obtain ⟨after, popped, represents, capacity, vacant⟩ := popN_spec valid (by simp) n
      exact ⟨after, by simp [perform, popped, Deque.perform], represents, capacity, fun _ => vacant⟩
  | clear =>
    exact ⟨rb.clear, rfl, clear_represents valid, rfl, fun other => absurd rfl other⟩
  | len => exact ⟨rb, by simp [perform, Deque.perform, valid.len], .same valid rfl⟩

theorem perform_spec {rb : RingBuffer α} (valid : Represents rb queue) (op : Deque.Op α) :
    ∃ after, rb.perform op = some ((Deque.perform queue op).1, after) ∧
      Represents after (Deque.perform queue op).2 := by
  obtain ⟨after, performed, effect⟩ := perform_effect valid op
  exact ⟨after, performed, effect.represents⟩

theorem execute_spec {rb : RingBuffer α} (valid : Represents rb queue) (ops : List (Deque.Op α)) :
    ∃ after, rb.execute ops = some ((Deque.execute queue ops).1, after) ∧
      Represents after (Deque.execute queue ops).2 := by
  induction ops generalizing rb queue with
  | nil => exact ⟨rb, rfl, valid⟩
  | cons op rest ih =>
    obtain ⟨middle, performed, valid⟩ := perform_spec valid op
    obtain ⟨after, executed, valid⟩ := ih valid
    exact ⟨after, by simp [execute, performed, executed, Deque.execute], valid⟩

/-- Every sequence of operations on a fresh buffer runs without an index out of
range and returns what the unbounded queue returns. -/
theorem new_refines_deque (size : Nat) (positive : 1 ≤ size) (ops : List (Deque.Op α)) :
    ∃ after, (new size : RingBuffer α).execute ops = some ((Deque.execute [] ops).1, after) := by
  obtain ⟨after, executed, -⟩ := execute_spec (new_represents positive) ops
  exact ⟨after, executed⟩

theorem new_refines_deque_wrapping : 1 ≤ 1 ∧ ∃ after,
    (new 1 : RingBuffer Nat).execute [.push 1, .push 2, .pop, .pushFront 3, .push 4, .popN 9, .pop] =
      some ([.done, .done, .item 1 true, .done, .done, .items [3, 2, 4] true, .item 0 false], after) :=
  ⟨le_rfl, new_refines_deque 1 le_rfl _⟩

/-- The queued items, oldest first. -/
def toList (rb : RingBuffer α) : List α :=
  (List.range rb.len).map fun i =>
    (rb.content.items[(rb.content.head + 1 + i) % rb.content.mod]?).getD default

theorem Represents.toList_eq {rb : RingBuffer α} (valid : Represents rb queue) :
    rb.toList = queue := by
  apply List.ext_getElem?
  intro i
  simp only [toList, valid.len, List.getElem?_map]
  by_cases bound : i < queue.length
  · rw [List.getElem?_range bound, Option.map_some, valid.slots i bound,
      List.getElem?_eq_getElem bound, Option.getD_some]
  · rw [List.getElem?_eq_none (by simpa using bound), List.getElem?_eq_none (by omega),
      Option.map_none]

end RingBuffer

/-- A ring buffer that some sequence of operations can have produced: the
invariant is part of the value, so its operations are total. -/
structure Ring (α : Type) [Inhabited α] where
  buffer : RingBuffer α
  valid : buffer.Represents buffer.toList

namespace Ring
variable {α : Type} [Inhabited α]

def new (size : Nat) (positive : 0 < size) : Ring α where
  buffer := .new size
  valid := by
    have valid := RingBuffer.new_represents (α := α) positive
    rwa [valid.toList_eq]

def toList (ring : Ring α) : List α := ring.buffer.toList

theorem perform_isSome (ring : Ring α) (op : Deque.Op α) : (ring.buffer.perform op).isSome := by
  obtain ⟨after, performed, -⟩ := RingBuffer.perform_spec ring.valid op
  rw [performed, Option.isSome_some]

def perform (ring : Ring α) (op : Deque.Op α) : Deque.Result α × Ring α :=
  (((ring.buffer.perform op).get (ring.perform_isSome op)).1,
    { buffer := ((ring.buffer.perform op).get (ring.perform_isSome op)).2
      valid := by
        obtain ⟨after, performed, valid⟩ := RingBuffer.perform_spec ring.valid op
        simp only [performed, Option.get_some]
        rwa [valid.toList_eq] })

/-- `Len` reads the counter without taking the mutex. -/
def len (ring : Ring α) : Nat := ring.buffer.len

theorem len_eq (ring : Ring α) : ring.len = ring.toList.length := ring.valid.len

theorem new_toList (size : Nat) (positive : 0 < size) :
    (new size positive : Ring α).toList = [] :=
  (RingBuffer.new_represents positive).toList_eq

theorem perform_eq (ring : Ring α) (op : Deque.Op α) :
    (ring.perform op).1 = (Deque.perform ring.toList op).1 ∧
      (ring.perform op).2.toList = (Deque.perform ring.toList op).2 := by
  obtain ⟨after, performed, valid⟩ := RingBuffer.perform_spec ring.valid op
  simp only [perform, toList, performed, Option.get_some]
  exact ⟨trivial, valid.toList_eq⟩

@[simp] theorem perform_result (ring : Ring α) (op : Deque.Op α) :
    (ring.perform op).1 = (Deque.perform ring.toList op).1 := (ring.perform_eq op).1

@[simp] theorem perform_toList (ring : Ring α) (op : Deque.Op α) :
    (ring.perform op).2.toList = (Deque.perform ring.toList op).2 := (ring.perform_eq op).2

end Ring
end Hollywood
