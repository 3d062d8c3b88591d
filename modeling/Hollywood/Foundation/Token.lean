import Hollywood.Foundation.Pool

/-! A token passed between the members of a pool and the state they share. At
most one member holds it, or it is free in the state; what the holder knows
about the state stays true while others move, and `rest` holds when nobody has
the token. -/
namespace Hollywood.Pool
variable {S G : Type*} {holds : G → Bool} {free : S → Nat} {inside : S → G → Prop}
  {rest : S → Prop} {pool : List G} {g next : G} {spawned : List G} {i : Nat} {s t : S}

structure Guarded (holds : G → Bool) (free : S → Nat) (inside : S → G → Prop) (rest : S → Prop)
    (s : S) (pool : List G) : Prop where
  exclusive : pool.countP holds + free s ≤ 1
  inside : ∀ g ∈ pool, inside s g
  rest : pool.countP holds = 0 → rest s

/-- One member moves: the token is not copied, whoever has it afterwards knows
enough, and members that cannot have moved keep what they know. -/
theorem Guarded.step (guarded : Guarded holds free inside rest s pool)
    (found : pool[i]? = some g)
    (conserved : inside s g →
      (next :: spawned).countP holds + free t ≤ (if holds g then 1 else 0) + free s)
    (entered : inside s g → (free s ≠ 0 → rest s) → ∀ h ∈ next :: spawned, inside t h)
    (settled : inside s g → (holds g = false → rest s) → (next :: spawned).countP holds = 0 → rest t)
    (framed : ∀ h, inside s h → (holds h = true → holds g = false) → inside t h) :
    Guarded holds free inside rest t (pool.set i next ++ spawned) := by
  have current := guarded.inside g (List.mem_of_getElem? found)
  have count := countP_step holds found next spawned
  have exclusive := guarded.exclusive
  have budget := conserved current
  rw [List.countP_cons] at budget
  refine ⟨by omega, ?_, ?_⟩
  · obtain ⟨before, after, rfl, replaced⟩ := split found
    have arrived := entered current fun available => guarded.rest (by omega)
    -- a second member that holds the token would make the count at least two
    have others : ∀ h ∈ before ++ after, holds h = true → holds g = false := by
      intro h member holder
      by_contra mover
      have positive : 0 < (before ++ after).countP holds := List.countP_pos_iff.mpr ⟨h, member, holder⟩
      simp only [List.countP_append, List.countP_cons] at exclusive positive
      rw [Bool.not_eq_false] at mover
      rw [mover, if_pos rfl] at exclusive
      omega
    rw [replaced]
    intro h member
    simp only [List.mem_append, List.mem_cons] at member
    rcases member with (earlier | rfl | later) | new
    · exact framed h (guarded.inside h (by simp [earlier])) (others h (by simp [earlier]))
    · exact arrived h (by simp)
    · exact framed h (guarded.inside h (by simp [later])) (others h (by simp [later]))
    · exact arrived h (by simp [new])
  · intro none
    apply settled current
    · intro idle
      apply guarded.rest
      rw [idle] at count
      simp only [Bool.false_eq_true, if_false] at count
      omega
    · obtain ⟨before, after, rfl, replaced⟩ := split found
      rw [replaced] at none
      simp only [List.countP_append, List.countP_cons] at none ⊢
      omega

theorem Guarded.somebody (guarded : Guarded holds free inside rest s pool) :
    (∃ g ∈ pool, holds g = true ∧ inside s g) ∨ rest s := by
  by_cases none : pool.countP holds = 0
  · exact .inr (guarded.rest none)
  · obtain ⟨g, member, holder⟩ := List.countP_pos_iff.mp (Nat.pos_of_ne_zero none)
    exact .inl ⟨g, member, holder, guarded.inside g member⟩

/-- The state changes under the pool without anyone moving. -/
theorem Guarded.change (guarded : Guarded holds free inside rest s pool) (same : free t = free s)
    (framed : ∀ h, inside s h → inside t h) (settled : rest s → rest t) :
    Guarded holds free inside rest t pool :=
  ⟨by rw [same]; exact guarded.exclusive, fun g member => framed g (guarded.inside g member),
    fun none => settled (guarded.rest none)⟩

/-- A member without the token joins. -/
theorem Guarded.join (guarded : Guarded holds free inside rest s pool) (idle : holds g = false)
    (knows : inside s g) : Guarded holds free inside rest s (pool ++ [g]) := by
  refine ⟨by simpa [idle] using guarded.exclusive, ?_, fun none => guarded.rest ?_⟩
  · intro h member
    rw [List.mem_append, List.mem_singleton] at member
    rcases member with earlier | rfl
    · exact guarded.inside h earlier
    · exact knows
  · simpa [idle] using none

end Hollywood.Pool
