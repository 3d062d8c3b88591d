import Mathlib.Logic.Relation

/-! Labelled machines given by a partial step function. A run is a list of
labels, so concrete executions evaluate; reachability forgets the labels. -/
namespace Hollywood.Transition
variable {S L : Type*} {step : S → L → Option S}

/-- Execute the labels in order; `none` when one of them is not enabled. -/
def run (step : S → L → Option S) : S → List L → Option S
  | s, [] => some s
  | s, l :: rest => (step s l).bind (run step · rest)

theorem run_append (s : S) (earlier later : List L) :
    run step s (earlier ++ later) = (run step s earlier).bind (run step · later) := by
  induction earlier generalizing s with
  | nil => rfl
  | cons l rest ih =>
    rw [List.cons_append, run, run]
    cases step s l with
    | none => rfl
    | some t => exact ih t

/-- The machine that takes a step only where `admits` lets it. -/
def restrict (admits : S → L → Bool) (step : S → L → Option S) (s : S) (l : L) : Option S :=
  if admits s l then step s l else none

inductive Reaches (step : S → L → Option S) : S → S → Prop where
  | refl (s) : Reaches step s s
  | next : Reaches step s t → step t l = some u → Reaches step s u

theorem restrict_some {admits : S → L → Bool} (stepped : restrict admits step s l = some t) :
    admits s l = true ∧ step s l = some t := by
  unfold restrict at stepped
  split at stepped
  · exact ⟨by assumption, stepped⟩
  · contradiction

namespace Reaches

theorem trans (first : Reaches step s t) (second : Reaches step t u) : Reaches step s u := by
  induction second with
  | refl => exact first
  | next _ stepped ih => exact .next ih stepped

theorem invariant {P : S → Prop} (preserves : ∀ {s l t}, P s → step s l = some t → P t)
    (path : Reaches step s t) (initial : P s) : P t := by
  induction path with
  | refl => exact initial
  | next _ stepped ih => exact preserves ih stepped

/-- A machine with more enabled steps reaches at least as much. -/
theorem mono {wider : S → L → Option S}
    (included : ∀ {s l t}, step s l = some t → wider s l = some t)
    (path : Reaches step s t) : Reaches wider s t := by
  induction path with
  | refl => exact .refl _
  | next _ stepped ih => exact .next ih (included stepped)

/-- A weaker discipline allows at least the same runs. -/
theorem relax {admits : S → L → Bool} (wider : S → L → Bool)
    (path : Reaches (restrict admits step) s t)
    (weaker : ∀ {s l}, admits s l = true → wider s l = true) : Reaches (restrict wider step) s t := by
  refine path.mono fun stepped => ?_
  obtain ⟨allowed, moved⟩ := restrict_some stepped
  rwa [restrict, if_pos (weaker allowed)]

end Reaches

/-- Where a step towards the goal is always enabled, the goal can be reached. -/
theorem eventually (step : S → L → Option S) (P goal : S → Prop) (measure : S → Nat)
    (progress : ∀ s, P s → goal s ∨ ∃ l t, step s l = some t ∧ P t ∧ measure t < measure s)
    (initial : P s) : ∃ t, Reaches step s t ∧ goal t ∧ P t := by
  induction bound : measure s using Nat.strongRecOn generalizing s with
  | ind fuel ih =>
    rcases progress s initial with there | ⟨l, next, stepped, kept, smaller⟩
    · exact ⟨s, .refl s, there, initial⟩
    · obtain ⟨t, path, there, kept⟩ := ih _ (bound ▸ smaller) kept rfl
      exact ⟨t, (Reaches.next (.refl s) stepped).trans path, there, kept⟩

/-- Every state that a run passes through has a property. -/
def Always (step : S → L → Option S) (P : S → Prop) (s : S) (labels : List L) : Prop :=
  ∀ earlier later t, labels = earlier ++ later → run step s earlier = some t → P t

theorem always_cons {P : S → Prop} {rest : List L} (stepped : step s l = some t) :
    Always step P s (l :: rest) ↔ P s ∧ Always step P t rest := by
  constructor
  · intro always
    constructor
    · exact always [] (l :: rest) s rfl rfl
    · intro earlier later u split ran
      refine always (l :: earlier) later u (congrArg _ split) ?_
      rw [run, stepped, Option.bind_some, ran]
  · rintro ⟨now, always⟩ earlier later u split ran
    cases earlier with
    | nil =>
      cases ran
      exact now
    | cons _ earlier =>
      cases split
      rw [run, stepped, Option.bind_some] at ran
      exact always earlier later u rfl ran

/-- Every step that a run takes has a property, with the state it is taken in. -/
def Steps (step : S → L → Option S) (Q : S → L → Prop) (s : S) (labels : List L) : Prop :=
  ∀ earlier l later t, labels = earlier ++ l :: later → run step s earlier = some t → Q t l

theorem steps_cons {Q : S → L → Prop} {rest : List L} (stepped : step s l = some t) :
    Steps step Q s (l :: rest) ↔ Q s l ∧ Steps step Q t rest := by
  constructor
  · intro steps
    constructor
    · exact steps [] l rest s rfl rfl
    · intro earlier m later u split ran
      refine steps (l :: earlier) m later u (congrArg _ split) ?_
      rw [run, stepped, Option.bind_some, ran]
  · rintro ⟨now, steps⟩ earlier m later u split ran
    cases earlier with
    | nil =>
      cases split
      cases ran
      exact now
    | cons _ earlier =>
      cases split
      rw [run, stepped, Option.bind_some] at ran
      exact steps earlier m later u rfl ran

/-- Where two properties of a step agree, they agree on the steps of a run. -/
theorem steps_congr {P Q : S → L → Prop} {I : S → Prop} {labels : List L}
    (preserves : ∀ {s l t}, I s → step s l = some t → I t)
    (agree : ∀ {s l t}, I s → step s l = some t → (P s l ↔ Q s l))
    (initial : I s) (ran : run step s labels = some u) :
    Steps step P s labels ↔ Steps step Q s labels := by
  induction labels generalizing s with
  | nil => simp [Steps]
  | cons l rest ih =>
    obtain ⟨t, stepped, ran⟩ := Option.bind_eq_some_iff.mp ran
    rw [steps_cons stepped, steps_cons stepped, agree initial stepped,
      ih (preserves initial stepped) ran]

/-- Where exactly the steps with `Q` keep `P`, a run has `P` all along if and only if all
its steps have `Q`. -/
theorem always_iff_steps {Q : S → L → Prop} {I P : S → Prop} {labels : List L}
    (preserves : ∀ {s l t}, I s → step s l = some t → I t)
    (decides : ∀ {s l t}, I s → P s → step s l = some t → (P t ↔ Q s l))
    (initial : I s) (holds : P s) (ran : run step s labels = some u) :
    Always step P s labels ↔ Steps step Q s labels := by
  induction labels generalizing s with
  | nil =>
    refine iff_of_true ?_ ?_
    · intro earlier later t split reached
      cases earlier with
      | nil =>
        cases reached
        exact holds
      | cons => cases split
    · intro earlier l later t split
      cases earlier with
      | nil => cases split
      | cons => cases split
  | cons l rest ih =>
    obtain ⟨t, stepped, ran⟩ := Option.bind_eq_some_iff.mp ran
    rw [always_cons stepped, steps_cons stepped, ← decides initial holds stepped]
    constructor
    · rintro ⟨-, always⟩
      have kept : P t := always [] rest t rfl rfl
      exact ⟨kept, (ih (preserves initial stepped) kept ran).mp always⟩
    · rintro ⟨kept, steps⟩
      exact ⟨holds, (ih (preserves initial stepped) kept ran).mpr steps⟩

/-- A run keeps to a discipline if and only if all its steps do. -/
theorem steps_iff_restrict {admits : S → L → Bool} {labels : List L} (ran : run step s labels = some u) :
    Steps step (fun s l => admits s l = true) s labels ↔
      run (restrict admits step) s labels = some u := by
  induction labels generalizing s with
  | nil =>
    refine iff_of_true ?_ ran
    simp [Steps]
  | cons l rest ih =>
    obtain ⟨t, stepped, ran⟩ := Option.bind_eq_some_iff.mp ran
    rw [steps_cons stepped, run, restrict]
    by_cases admitted : admits s l = true
    · rw [if_pos admitted, stepped, Option.bind_some, ih ran]
      exact and_iff_right admitted
    · rw [if_neg admitted, Option.bind_none]
      exact iff_of_false (fun both => admitted both.1) (by rintro ⟨⟩)

/-- Where a discipline lets exactly those steps through that keep a property, a run has
the property all along if and only if it keeps to the discipline. -/
theorem always_iff_restrict {admits : S → L → Bool} {I P : S → Prop} {labels : List L}
    (preserves : ∀ {s l t}, I s → step s l = some t → I t)
    (decides : ∀ {s l t}, I s → P s → step s l = some t → (P t ↔ admits s l = true))
    (initial : I s) (holds : P s) (ran : run step s labels = some u) :
    Always step P s labels ↔ run (restrict admits step) s labels = some u := by
  rw [← steps_iff_restrict ran]
  exact always_iff_steps preserves decides initial holds ran

theorem run_of_restrict {admits : S → L → Bool} {labels : List L}
    (ran : run (restrict admits step) s labels = some t) : run step s labels = some t := by
  induction labels generalizing s with
  | nil => exact ran
  | cons l rest ih =>
    obtain ⟨u, stepped, ran⟩ := Option.bind_eq_some_iff.mp ran
    rw [run, (restrict_some stepped).2, Option.bind_some]
    exact ih ran

theorem steps_of_restrict {admits : S → L → Bool} {Q : S → L → Prop} {labels : List L}
    (sufficient : ∀ {s l}, admits s l = true → Q s l)
    (ran : run (restrict admits step) s labels = some t) : Steps step Q s labels := by
  intro earlier l later u split reached
  have admitted := (steps_iff_restrict (run_of_restrict ran)).mpr ran
  exact sufficient (admitted earlier l later u split reached)

/-- Where a property, once lost, stays lost, and a discipline lets exactly those steps
through that do not lose it, the end of a run has the property if and only if the run
keeps to the discipline. -/
theorem holds_iff_restrict {admits : S → L → Bool} {I P : S → Prop} {labels : List L}
    (preserves : ∀ {s l t}, I s → step s l = some t → I t)
    (decides : ∀ {s l t}, I s → step s l = some t → (P t ↔ P s ∧ admits s l = true))
    (initial : I s) (ran : run step s labels = some u) :
    P u ↔ P s ∧ run (restrict admits step) s labels = some u := by
  induction labels generalizing s with
  | nil =>
    cases ran
    exact (and_iff_left rfl).symm
  | cons l rest ih =>
    obtain ⟨t, stepped, ran⟩ := Option.bind_eq_some_iff.mp ran
    rw [ih (preserves initial stepped) ran, decides initial stepped, and_assoc, run, restrict]
    refine and_congr_right fun _ => ?_
    by_cases admitted : admits s l = true
    · rw [if_pos admitted, stepped, Option.bind_some]
      exact and_iff_right admitted
    · rw [if_neg admitted, Option.bind_none]
      exact iff_of_false (fun both => admitted both.1) (by rintro ⟨⟩)

/-- Two machines that stay related and take the same steps have the same runs. -/
theorem run_lockstep {T : Type*} {other : T → L → Option T} {R : S → T → Prop} {t : T}
    (together : ∀ {s t} (l), R s t → Option.Rel R (step s l) (other t l))
    (labels : List L) (related : R s t) : Option.Rel R (run step s labels) (run other t labels) := by
  induction labels generalizing s t with
  | nil => exact .some related
  | cons l rest ih =>
    have next := together l related
    rw [run, run]
    generalize step s l = left at next
    generalize other t l = right at next
    cases next with
    | none => exact .none
    | some still => exact ih still

theorem reaches_of_run {labels : List L} (executed : run step s labels = some t) :
    Reaches step s t := by
  induction labels generalizing s with
  | nil =>
    cases executed
    exact .refl _
  | cons l rest ih =>
    simp only [run, Option.bind_eq_some_iff] at executed
    obtain ⟨middle, first, tail⟩ := executed
    exact (Reaches.next (.refl s) first).trans (ih tail)

/-- A concrete run that ends in a state satisfying a decidable predicate. -/
theorem exists_of_run (step : S → L → Option S) (s : S) (labels : List L) (p : S → Bool)
    (executed : (run step s labels).any p = true) : ∃ t, Reaches step s t ∧ p t = true := by
  cases found : run step s labels with
  | none => simp [found] at executed
  | some t =>
    rw [found, Option.any_some] at executed
    exact ⟨t, reaches_of_run found, executed⟩

/-- A concrete run with a state of interest on its way. -/
theorem exists_of_runs (step : S → L → Option S) (s : S) (first second : List L) (p q : S → Bool)
    (executed : (run step s first).any (fun t => p t && (run step t second).any q) = true) :
    ∃ t u, Reaches step s t ∧ p t = true ∧ Reaches step t u ∧ q u = true := by
  obtain ⟨t, reached, ends⟩ := exists_of_run step s first _ executed
  rw [Bool.and_eq_true] at ends
  obtain ⟨u, later, last⟩ := exists_of_run step t second q ends.2
  exact ⟨t, u, reached, ends.1, later, last⟩

end Hollywood.Transition
