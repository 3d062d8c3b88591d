import Hollywood.Foundation.Pool
import Hollywood.Foundation.Transition
import Mathlib.Data.Multiset.DershowitzManna
import Mathlib.Data.Prod.Lex
import Mathlib.Order.WellFounded

/-! What a machine comes to whatever is done: steps that a rank counts down end, and
what holds wherever none of them is left is inevitable. No fairness is needed. -/
namespace Hollywood.Transition
variable {S L : Type*} {step : S → L → Option S} {moves : L → Prop} {goal : S → Prop}

/-- None of the moves can be made. -/
def Stuck (step : S → L → Option S) (moves : L → Prop) (s : S) : Prop := ∀ l, moves l → step s l = none

/-- In whatever order the moves are made, there is an end of them, and at the end is the goal. -/
inductive Inevitable (step : S → L → Option S) (moves : L → Prop) (goal : S → Prop) : S → Prop where
  | intro {s : S} : (Stuck step moves s → goal s) →
      (∀ l t, moves l → step s l = some t → Inevitable step moves goal t) → Inevitable step moves goal s

/-- Induction on a rank that every move lowers, along an invariant. -/
theorem inevitable_of_wellFounded {R : Type*} {lower : R → R → Prop} (founded : WellFounded lower) {I : S → Prop}
    (rank : S → R) (keeps : ∀ {s l t}, I s → moves l → step s l = some t → I t)
    (lowers : ∀ {s l t}, I s → moves l → step s l = some t → lower (rank t) (rank s))
    (ends : ∀ {s}, I s → Stuck step moves s → goal s) (holds : I s) : Inevitable step moves goal s := by
  induction ranked : rank s using founded.induction generalizing s with
  | _ r ih =>
    refine .intro (ends holds) fun l t move stepped => ?_
    exact ih (rank t) (ranked ▸ lowers holds move stepped) (keeps holds move stepped) rfl

theorem inevitable_of_rank {R : Type*} [Preorder R] [WellFoundedLT R] {I : S → Prop} (rank : S → R)
    (keeps : ∀ {s l t}, I s → moves l → step s l = some t → I t)
    (lowers : ∀ {s l t}, I s → moves l → step s l = some t → rank t < rank s)
    (ends : ∀ {s}, I s → Stuck step moves s → goal s) (holds : I s) : Inevitable step moves goal s :=
  inevitable_of_wellFounded wellFounded_lt rank keeps lowers ends holds

/-- Some order of the moves shows the end. -/
theorem Inevitable.exists_end (inevitable : Inevitable step moves goal s) :
    ∃ labels t, (∀ l ∈ labels, moves l) ∧ run step s labels = some t ∧ Stuck step moves t ∧ goal t := by
  induction inevitable with
  | @intro s ends _ ih =>
    by_cases stuck : Stuck step moves s
    · exact ⟨[], s, fun _ member => absurd member List.not_mem_nil, rfl, stuck, ends stuck⟩
    · obtain ⟨l, stuck⟩ := not_forall.mp stuck
      obtain ⟨move, enabled⟩ := Classical.not_imp.mp stuck
      obtain ⟨t, stepped⟩ := Option.ne_none_iff_exists'.mp enabled
      obtain ⟨labels, u, made, ran, rest⟩ := ih l t move stepped
      refine ⟨l :: labels, u, List.forall_mem_cons.mpr ⟨move, made⟩, ?_, rest⟩
      rw [run, stepped]
      exact ran

end Hollywood.Transition

/-! A rank for machines with a pool, in three parts: what is left to take out of the shared
data and what the members may still put into it, what the members have ahead of them, and
where they stand, which is read against a mode of the shared data. -/
namespace Hollywood.Pool
variable {G K : Type*} {pool : List G} {g next : G} {spawned : List G} {i : Nat}
  {load ahead : G → Nat} {place : K → G → Nat} {level level' : Nat} {mode mode' : K}

def rank (level : Nat) (mode : K) (load ahead : G → Nat) (place : K → G → Nat) (pool : List G) :
    Nat ×ₗ Nat ×ₗ Nat :=
  toLex (level + (pool.map load).sum, toLex ((pool.map ahead).sum, (pool.map (place mode)).sum))

/-- A step that lowers the rank. Only one that lowers an earlier part may change the mode. -/
inductive Sinks (level level' : Nat) (mode mode' : K) (load ahead : G → Nat) (place : K → G → Nat)
    (g next : G) (spawned : List G) : Prop where
  | drained (falls : level' + (load next + (spawned.map load).sum) < level + load g)
  | nearer (kept : level' + (load next + (spawned.map load).sum) ≤ level + load g)
      (falls : ahead next + (spawned.map ahead).sum < ahead g)
  | onward (kept : level' + (load next + (spawned.map load).sum) ≤ level + load g)
      (near : ahead next + (spawned.map ahead).sum ≤ ahead g) (same : mode' = mode)
      (falls : place mode next + (spawned.map (place mode)).sum < place mode g)

theorem Sinks.lowers (sinks : Sinks level level' mode mode' load ahead place g next spawned)
    (found : pool[i]? = some g) :
    rank level' mode' load ahead place (pool.set i next ++ spawned) <
      rank level mode load ahead place pool := by
  have loads := sum_step load found next spawned
  have aheads := sum_step ahead found next spawned
  rw [rank, rank, Prod.Lex.toLex_lt_toLex, Prod.Lex.toLex_lt_toLex]
  cases sinks with
  | drained falls => omega
  | nearer kept falls => omega
  | onward kept near same falls =>
    subst same
    have places := sum_step (place mode') found next spawned
    omega

/-- The same step of a member that is part of a larger one. -/
theorem Sinks.lift {H : Type*} {load' ahead' : H → Nat} {place' : K → H → Nat} {h next' : H} {wrap : G → H}
    (sinks : Sinks level level' mode mode' load ahead place g next spawned)
    (before : load' h = load g ∧ ahead' h = ahead g ∧ ∀ k, place' k h = place k g)
    (after : load' next' ≤ load next ∧ ahead' next' ≤ ahead next ∧ ∀ k, place' k next' ≤ place k next)
    (fresh : ∀ w ∈ spawned, load' (wrap w) = load w ∧ ahead' (wrap w) = ahead w ∧
      ∀ k, place' k (wrap w) = place k w) :
    Sinks level level' mode mode' load' ahead' place' h next' (spawned.map wrap) := by
  have loads : (spawned.map wrap).map load' = spawned.map load := by
    rw [List.map_map]
    exact List.map_congr_left fun w member => (fresh w member).1
  have aheads : (spawned.map wrap).map ahead' = spawned.map ahead := by
    rw [List.map_map]
    exact List.map_congr_left fun w member => (fresh w member).2.1
  have places : (spawned.map wrap).map (place' mode) = spawned.map (place mode) := by
    rw [List.map_map]
    exact List.map_congr_left fun w member => (fresh w member).2.2 mode
  have mine := before.2.2 mode
  have then_ := after.2.2 mode
  cases sinks with
  | drained falls => exact .drained (by rw [loads]; omega)
  | nearer kept falls => exact .nearer (by rw [loads]; omega) (by rw [aheads]; omega)
  | onward kept near same falls =>
    exact .onward (by rw [loads]; omega) (by rw [aheads]; omega) same (by rw [places]; omega)

section multiset
variable {R : Type*} [PartialOrder R] {f : G → R} {old new : List G} {top : R}

/-- Members that stay, sink, or are below the top one, as multisets: those that do not stay
are exchanged. -/
theorem exists_exchange (related : ∀ k : Nat, Option.Rel (fun a b => f b ≤ f a ∨ f b < top) old[k]? new[k]?) :
    ∃ kept after before : Multiset R, (new.map f : Multiset R) = kept + after ∧
      (old.map f : Multiset R) = kept + before ∧ (∀ y ∈ after, (∃ z ∈ before, y < z) ∨ y < top) ∧
      ∀ (n : Nat) a b, old[n]? = some a → new[n]? = some b → f b ≠ f a → f a ∈ before := by
  induction old generalizing new with
  | nil =>
    cases new with
    | nil => exact ⟨0, 0, 0, rfl, rfl, fun _ member => absurd member (Multiset.notMem_zero _), nofun⟩
    | cons b new => cases related 0
  | cons a old ih =>
    cases new with
    | nil => cases related 0
    | cons b new =>
      obtain ⟨kept, after, before, first, second, below, gone⟩ := ih fun k => related (k + 1)
      simp only [List.map_cons, ← Multiset.cons_coe, first, second]
      by_cases same : f b = f a
      · refine ⟨f a ::ₘ kept, after, before, by rw [same, Multiset.cons_add], (Multiset.cons_add _ _ _).symm,
          below, ?_⟩
        intro n x y there here moved
        cases n with
        | zero =>
          cases there
          cases here
          exact absurd same moved
        | succ n => exact gone n x y there here moved
      · have head : f b < f a ∨ f b < top := by
          cases related 0 with
          | some sinks => exact sinks.imp_left fun le => lt_of_le_of_ne le same
        refine ⟨kept, f b ::ₘ after, f a ::ₘ before, (Multiset.add_cons _ _ _).symm,
          (Multiset.add_cons _ _ _).symm, ?_, ?_⟩
        · intro y member
          rcases Multiset.mem_cons.mp member with rfl | later
          · exact head.imp_left fun lt => ⟨f a, Multiset.mem_cons_self _ _, lt⟩
          · exact (below y later).imp_left fun ⟨z, present, lt⟩ => ⟨z, Multiset.mem_cons_of_mem present, lt⟩
        · intro n x y there here moved
          cases n with
          | zero =>
            cases there
            exact Multiset.mem_cons_self _ _
          | succ n => exact Multiset.mem_cons_of_mem (gone n x y there here moved)

/-- One member sinks; others may rise as long as they stay below what it was. -/
theorem multiset_lt {n : Nat} (there : old[n]? = some g) (here : new[n]? = some next) (falls : f next < f g)
    (related : ∀ k : Nat, Option.Rel (fun a b => f b ≤ f a ∨ f b < f g) old[k]? new[k]?) :
    Multiset.IsDershowitzMannaLT (new.map f : Multiset R) (old.map f) := by
  obtain ⟨kept, after, before, first, second, below, gone⟩ := exists_exchange related
  have present := gone n g next there here falls.ne
  refine ⟨kept, after, before, fun empty => ?_, first, second, fun y member => ?_⟩
  · rw [empty] at present
    exact absurd present (Multiset.notMem_zero _)
  · exact (below y member).elim id fun lt => ⟨f g, present, lt⟩

end multiset

end Hollywood.Pool
