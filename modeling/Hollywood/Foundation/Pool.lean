import Mathlib.Algebra.GroupWithZero.Nat
import Mathlib.Algebra.Order.Group.Multiset
import Mathlib.Data.List.Basic

/-! Goroutine pools: a step replaces one member and may append new ones. The
members that did not move are exposed as a prefix and a suffix. -/
namespace Hollywood.Pool
variable {G : Type*} {pool : List G} {g : G} {i : Nat}

theorem split (found : pool[i]? = some g) :
    ∃ before after, pool = before ++ g :: after ∧
      ∀ g', pool.set i g' = before ++ g' :: after := by
  obtain ⟨bound, rfl⟩ := List.getElem?_eq_some_iff.mp found
  refine ⟨pool.take i, pool.drop (i + 1), ?_, ?_⟩
  · rw [List.getElem_cons_drop, List.take_append_drop]
  · intro g'
    exact List.set_eq_take_append_cons_drop.trans (if_pos bound)

/-- Replacing one member changes a count by what that member contributes. -/
theorem countP_step (p : G → Bool) (found : pool[i]? = some g) (next : G) (spawned : List G) :
    (pool.set i next ++ spawned).countP p + (if p g then 1 else 0) =
      pool.countP p + (if p next then 1 else 0) + spawned.countP p := by
  obtain ⟨before, after, rfl, replaced⟩ := split found
  rw [replaced]
  simp only [List.countP_append, List.countP_cons]
  omega

/-- The same for a sum of what the members weigh. -/
theorem sum_step (weight : G → Nat) (found : pool[i]? = some g) (next : G) (spawned : List G) :
    ((pool.set i next ++ spawned).map weight).sum + weight g =
      (pool.map weight).sum + weight next + (spawned.map weight).sum := by
  obtain ⟨before, after, rfl, replaced⟩ := split found
  rw [replaced]
  simp only [List.map_append, List.map_cons, List.sum_append, List.sum_cons]
  omega

theorem countP_set (p : G → Bool) (found : pool[i]? = some g) (next : G) :
    (pool.set i next).countP p + (if p g then 1 else 0) = pool.countP p + (if p next then 1 else 0) := by
  simpa using countP_step p found next []

/-- Where at most one member owns, no other member has what only an owner has. -/
theorem countP_sole {p q : G → Bool} (few : pool.countP p ≤ 1) (found : pool[i]? = some g)
    (owner : p g = true) (owned : ∀ h, q h = true → p h = true) :
    pool.countP q = if q g then 1 else 0 := by
  obtain ⟨before, after, rfl, -⟩ := split found
  have earlier := List.countP_mono_left (l := before) fun h _ => owned h
  have later := List.countP_mono_left (l := after) fun h _ => owned h
  simp only [List.countP_append, List.countP_cons, owner, if_true] at few ⊢
  omega

theorem countP_kept (p : G → Bool) (found : pool[i]? = some g) (next : G) (same : p next = p g) :
    (pool.set i next).countP p = pool.countP p := by
  have count := countP_set p found next
  rw [same] at count
  exact Nat.add_right_cancel count

theorem countP_lt (p : G → Bool) (found : pool[i]? = some g) (next : G) (before : p g = true)
    (after : p next = false) : (pool.set i next).countP p < pool.countP p := by
  have count := countP_set p found next
  rw [before, after] at count
  exact Nat.lt_of_succ_le (Nat.le_of_eq count)

theorem sum_set (weight : G → Nat) (found : pool[i]? = some g) (next : G) :
    ((pool.set i next).map weight).sum + weight g = (pool.map weight).sum + weight next := by
  simpa using sum_step weight found next []

/-- What a member shows is unchanged when its replacement shows the same. -/
theorem map_set {β : Type*} (f : G → β) (found : pool[i]? = some g) (same : f next = f g) :
    (pool.set i next).map f = pool.map f := by
  obtain ⟨before, after, rfl, replaced⟩ := split found
  rw [replaced]
  simp only [List.map_append, List.map_cons, same]

/-- A property that at most one member has singles out a position. -/
theorem index_unique {p : G → Bool} (few : pool.countP p ≤ 1) (first : pool[i]? = some a)
    (second : pool[j]? = some b) (holds : p a = true) (holds' : p b = true) : i = j := by
  induction pool generalizing i j with
  | nil => cases first
  | cons g rest ih =>
    have inside {k : Nat} {c : G} (found : rest[k]? = some c) (holds : p c = true) : 0 < rest.countP p :=
      List.countP_pos_iff.mpr ⟨c, List.mem_of_getElem? found, holds⟩
    rw [List.countP_cons] at few
    cases i with
    | zero =>
      cases first
      rw [if_pos holds] at few
      cases j with
      | zero => rfl
      | succ j =>
        have more := inside second holds'
        omega
    | succ i =>
      have more := inside first holds
      cases j with
      | zero =>
        cases second
        rw [if_pos holds'] at few
        omega
      | succ j => rw [ih (Nat.le_of_add_right_le few) first second]

/-- A property of some member survives where the moving member keeps it. -/
theorem exists_set {P : G → Prop} (found : pool[i]? = some g) (kept : P g → P next)
    (present : ∃ h ∈ pool, P h) : ∃ h ∈ pool.set i next, P h := by
  obtain ⟨before, after, rfl, replaced⟩ := split found
  rw [replaced]
  obtain ⟨h, member, holds⟩ := present
  simp only [List.mem_append, List.mem_cons] at member ⊢
  rcases member with earlier | rfl | later
  · exact ⟨h, .inl earlier, holds⟩
  · exact ⟨next, .inr (.inl rfl), kept holds⟩
  · exact ⟨h, .inr (.inr later), holds⟩

/-- Every member keeps its property when the moving one gets it for its next
point, the others keep it, and the new ones start with it. -/
theorem forall_step {P Q : G → Prop} (found : pool[i]? = some g)
    (kept : ∀ g ∈ pool, P g) (others : ∀ g, P g → Q g) (moved : P g → Q next)
    (fresh : ∀ g ∈ spawned, Q g) : ∀ g ∈ pool.set i next ++ spawned, Q g := by
  obtain ⟨before, after, rfl, replaced⟩ := split found
  rw [replaced]
  intro h member
  simp only [List.mem_append, List.mem_cons] at member kept
  rcases member with (earlier | rfl | later) | new
  · exact others h (kept h (.inl earlier))
  · exact moved (kept g (.inr (.inl rfl)))
  · exact others h (kept h (.inr (.inr later)))
  · exact fresh h new

/-- A member other than the moving one stays in the pool. -/
theorem exists_kept {P : G → Prop} (found : pool[i]? = some g) (present : ∃ h ∈ pool, P h)
    (other : ¬ P g) : ∃ h ∈ pool.set i next ++ spawned, P h := by
  obtain ⟨before, after, rfl, replaced⟩ := split found
  rw [replaced]
  obtain ⟨h, member, holds⟩ := present
  refine ⟨h, ?_, holds⟩
  simp only [List.mem_append, List.mem_cons] at member ⊢
  rcases member with earlier | rfl | later
  · exact .inl (.inl earlier)
  · exact absurd holds other
  · exact .inl (.inr (.inr later))

theorem mem_moved (found : pool[i]? = some g) : next ∈ pool.set i next := by
  obtain ⟨before, after, rfl, replaced⟩ := split found
  simp [replaced]

theorem exists_moved {P : G → Prop} (found : pool[i]? = some g) (holds : P next) :
    ∃ h ∈ pool.set i next ++ spawned, P h := by
  obtain ⟨before, after, rfl, replaced⟩ := split found
  exact ⟨next, by simp [replaced], holds⟩

/-! Members compared position by position. -/

section
variable {R : G → G → Prop}

theorem rel_refl (refl : ∀ g, R g g) (j : Nat) : Option.Rel R pool[j]? pool[j]? := by
  cases pool[j]? with
  | none => exact .none
  | some g => exact .some (refl g)

theorem rel_modify (refl : ∀ g, R g g) (f : G → G) (moved : ∀ g, pool[i]? = some g → R g (f g)) (j : Nat) :
    Option.Rel R pool[j]? (pool.modify i f)[j]? := by
  rw [List.getElem?_modify]
  cases found : pool[j]? with
  | none => exact .none
  | some g =>
    refine .some ?_
    split
    · rename_i same
      exact moved g (same ▸ found)
    · exact refl g

theorem rel_set (refl : ∀ g, R g g) (moved : ∀ g, pool[i]? = some g → R g next) (j : Nat) :
    Option.Rel R pool[j]? (pool.set i next)[j]? := by
  rw [List.set_eq_modify]
  exact rel_modify refl _ moved j

theorem rel_trans (trans : ∀ {a b c}, R a b → R b c → R a c) {x y z : Option G}
    (first : Option.Rel R x y) (second : Option.Rel R y z) : Option.Rel R x z := by
  cases first with
  | none => exact second
  | some related =>
    cases second with
    | some further => exact .some (trans related further)

theorem rel_length {other : List G} (related : ∀ j : Nat, Option.Rel R pool[j]? other[j]?) :
    pool.length = other.length := by
  apply Nat.le_antisymm
  · have last := related other.length
    rw [List.getElem?_eq_none (Nat.le_refl other.length)] at last
    generalize after : pool[other.length]? = x at last
    cases last
    exact List.getElem?_eq_none_iff.mp after
  · have last := related pool.length
    rw [List.getElem?_eq_none (Nat.le_refl pool.length)] at last
    generalize after : other[pool.length]? = x at last
    cases last
    exact List.getElem?_eq_none_iff.mp after

end

/-- Data carried by the members is unchanged when the moving one keeps its own. -/
theorem flatMap_step {β : Type*} (f : G → List β) (found : pool[i]? = some g) (next : G)
    (spawned : List G) (same : f next = f g) (fresh : spawned.flatMap f = []) :
    (pool.set i next ++ spawned).flatMap f = pool.flatMap f := by
  obtain ⟨before, after, rfl, replaced⟩ := split found
  rw [replaced]
  simp only [List.flatMap_append, List.flatMap_cons, same, fresh, List.append_nil]

/-- Replacing one member changes the data of the pool by what that member carries. -/
theorem flatMap_replace {β : Type*} (f : G → List β) (found : pool[i]? = some g) (next : G)
    (spawned : List G) :
    ((pool.set i next ++ spawned).flatMap f : Multiset β) + f g =
      pool.flatMap f + f next + spawned.flatMap f := by
  obtain ⟨before, after, rfl, replaced⟩ := split found
  rw [replaced]
  simp only [List.flatMap_append, List.flatMap_cons, ← Multiset.coe_add]
  ac_rfl

/-- When at most one member may carry data and that member moves, the data of
the pool is its own, before and after. -/
theorem flatMap_exclusive {β : Type*} (f : G → List β) (owns : G → Bool)
    (found : pool[i]? = some g) (owner : owns g = true) (exclusive : pool.countP owns ≤ 1)
    (carried : ∀ h, owns h = false → f h = []) :
    pool.flatMap f = f g ∧ ∀ next spawned,
      (pool.set i next ++ spawned).flatMap f = f next ++ spawned.flatMap f := by
  obtain ⟨before, after, rfl, replaced⟩ := split found
  simp only [List.countP_append, List.countP_cons, owner, if_true] at exclusive
  have silent (part : List G) (none : part.countP owns = 0) : part.flatMap f = [] := by
    rw [List.flatMap_eq_nil_iff]
    intro h member
    exact carried h (by simpa using List.countP_eq_zero.mp none h member)
  have first := silent before (by omega)
  have last := silent after (by omega)
  refine ⟨by simp [first, last], ?_⟩
  intro next spawned
  rw [replaced]
  simp [first, last]

end Hollywood.Pool
