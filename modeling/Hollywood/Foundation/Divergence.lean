import Hollywood.Foundation.Transition
import Mathlib.Order.OrderIsoNat

/-! Infinite runs of a labelled machine: those that a rank rules out, and those that
exist because a step is always possible. -/
namespace Hollywood.Transition
variable {S L : Type*} {step : S → L → Option S}

/-- The labels lead through the states of `path`, one step after the other. -/
def Endless (step : S → L → Option S) (path : Nat → S) (labels : Nat → L) : Prop :=
  ∀ n, step (path n) (labels n) = some (path (n + 1))

/-- Steps that lower a rank, which no step raises, happen finitely often. -/
theorem Endless.eventually_never {R : Type*} [PartialOrder R] [WellFoundedLT R] {path : Nat → S}
    {labels : Nat → L} (endless : Endless step path labels) (rank : S → R) (marked : L → Prop)
    (lowers : ∀ {s l t}, step s l = some t → marked l → rank t < rank s)
    (keeps : ∀ {s l t}, step s l = some t → ¬ marked l → rank t ≤ rank s) :
    ∃ bound, ∀ n, bound ≤ n → ¬ marked (labels n) := by
  have falling : Antitone fun n => rank (path n) := by
    apply antitone_nat_of_succ_le
    intro n
    by_cases mark : marked (labels n)
    · exact (lowers (endless n) mark).le
    · exact keeps (endless n) mark
  obtain ⟨bound, settled⟩ := WellFoundedLT.antitone_chain_condition falling
  refine ⟨bound, ?_⟩
  intro n late mark
  have lower := lowers (endless n) mark
  rw [← settled n late, ← settled (n + 1) (Nat.le_succ_of_le late)] at lower
  exact lt_irrefl _ lower

/-- A property that some step always preserves allows an infinite run of such steps. -/
theorem exists_endless {P : S → Prop} {marked : L → Prop}
    (progress : ∀ s, P s → ∃ l t, marked l ∧ step s l = some t ∧ P t) (start : P s) :
    ∃ path labels, path 0 = s ∧ Endless step path labels ∧ ∀ n, marked (labels n) := by
  choose label next marks steps keeps using progress
  let walk : Nat → { s // P s } :=
    fun n => Nat.rec ⟨s, start⟩ (fun _ current => ⟨next current.1 current.2, keeps current.1 current.2⟩) n
  refine ⟨fun n => (walk n).1, fun n => label (walk n).1 (walk n).2, rfl, ?_, ?_⟩
  · intro n
    exact steps (walk n).1 (walk n).2
  · intro n
    exact marks (walk n).1 (walk n).2

end Hollywood.Transition
