import Mathlib.Logic.Function.Iterate

/-! Runs of a total machine, `next` applied again and again. -/
namespace Hollywood.Iteration
variable {S : Type*} {next : S → S}

theorem invariant (P : S → Prop) (preserves : ∀ s, P s → P (next s)) (n : Nat) {s : S}
    (initial : P s) : P (next^[n] s) := by
  induction n with
  | zero => exact initial
  | succ n ih =>
    rw [Function.iterate_succ_apply']
    exact preserves _ ih

/-- A machine that makes progress until it gets there gets there. -/
theorem eventually (P goal : S → Prop) (measure : S → Nat)
    (progress : ∀ s, P s → goal s ∨ P (next s) ∧ measure (next s) < measure s) {s : S}
    (initial : P s) : ∃ n, goal (next^[n] s) ∧ P (next^[n] s) := by
  induction bound : measure s using Nat.strongRecOn generalizing s with
  | ind fuel ih =>
    rcases progress s initial with there | ⟨kept, smaller⟩
    · exact ⟨0, there, initial⟩
    · obtain ⟨n, there, kept⟩ := ih _ (bound ▸ smaller) kept rfl
      exact ⟨n + 1, by rwa [Function.iterate_succ_apply], by rwa [Function.iterate_succ_apply]⟩

/-- The run from `s` comes to `t`. -/
def Leads (next : S → S) (s t : S) : Prop := ∃ n, next^[n] s = t

namespace Leads

theorem refl (s : S) : Leads next s s := ⟨0, rfl⟩

theorem step (leads : Leads next (next s) t) : Leads next s t := by
  obtain ⟨n, reached⟩ := leads
  exact ⟨n + 1, reached⟩

theorem head (stepped : next s = t) (leads : Leads next t u) : Leads next s u :=
  step (stepped ▸ leads)

theorem trans (first : Leads next s t) (second : Leads next t u) : Leads next s u := by
  obtain ⟨n, rfl⟩ := first
  obtain ⟨m, rfl⟩ := second
  exact ⟨m + n, Function.iterate_add_apply _ _ _ _⟩

theorem invariant (P : S → Prop) (preserves : ∀ s, P s → P (next s)) (leads : Leads next s t)
    (initial : P s) : P t := by
  obtain ⟨n, rfl⟩ := leads
  exact Iteration.invariant P preserves n initial

/-- A state that the run passes leads to the state where it halts. -/
theorem halt (passes : Leads next s t) (ends : Leads next s u) (halts : next u = u) :
    Leads next t u := by
  obtain ⟨n, rfl⟩ := passes
  obtain ⟨m, rfl⟩ := ends
  rcases Nat.le_total n m with ordered | ordered
  · obtain ⟨k, rfl⟩ := Nat.exists_eq_add_of_le' ordered
    exact ⟨k, (Function.iterate_add_apply _ _ _ _).symm⟩
  · obtain ⟨k, rfl⟩ := Nat.exists_eq_add_of_le' ordered
    rw [Function.iterate_add_apply, Function.iterate_fixed halts]
    exact refl _

end Leads

/-- Two halts of one run are the same state. -/
theorem halts_unique {s : S} (first : next (next^[n] s) = next^[n] s)
    (second : next (next^[m] s) = next^[m] s) : next^[n] s = next^[m] s := by
  rcases Nat.le_total n m with ordered | ordered
  · obtain ⟨k, rfl⟩ := Nat.exists_eq_add_of_le' ordered
    rw [Function.iterate_add_apply, Function.iterate_fixed first]
  · obtain ⟨k, rfl⟩ := Nat.exists_eq_add_of_le' ordered
    rw [Function.iterate_add_apply, Function.iterate_fixed second]

end Hollywood.Iteration
