import Mathlib.Data.List.Basic

/-! First-in first-out queues kept in one list, each element with the queue it is
in. An element enters at the end of the list and leaves only as the first one of
its queue, so that the elements of a queue leave in the order they entered. -/
namespace Hollywood.Queues
variable {Q P : Type} [DecidableEq Q]

/-- Take the first element of a queue; the rest stays as it is. -/
def take (queue : Q) : List (Q × P) → Option (P × List (Q × P))
  | [] => none
  | entry :: rest =>
    if entry.1 = queue then some (entry.2, rest)
    else (take queue rest).map fun taken => (taken.1, entry :: taken.2)

def content (queue : Q) (all : List (Q × P)) : List P :=
  (all.filter fun entry => entry.1 = queue).map (·.2)

theorem take_some {all : List (Q × P)} (taken : take queue all = some (p, left)) :
    ∃ before after, all = before ++ (queue, p) :: after ∧ left = before ++ after ∧
      ∀ entry ∈ before, entry.1 ≠ queue := by
  induction all generalizing left with
  | nil => cases taken
  | cons entry rest ih =>
    rw [take] at taken
    split at taken
    · rename_i same
      subst same
      cases taken
      exact ⟨[], rest, rfl, rfl, by rintro _ ⟨⟩⟩
    · rename_i other
      obtain ⟨⟨next, remaining⟩, later, same⟩ := Option.map_eq_some_iff.mp taken
      cases same
      obtain ⟨before, after, rfl, rfl, skipped⟩ := ih later
      refine ⟨entry :: before, after, rfl, rfl, ?_⟩
      intro earlier member
      rcases List.mem_cons.mp member with rfl | inside
      · exact other
      · exact skipped earlier inside

theorem take_ne_none {all : List (Q × P)} (member : (queue, p) ∈ all) : take queue all ≠ none := by
  induction all with
  | nil => cases member
  | cons entry rest ih =>
    rw [take]
    split
    · exact Option.some_ne_none _
    · rename_i other
      rcases List.mem_cons.mp member with rfl | later
      · exact absurd rfl other
      · rw [Ne, Option.map_eq_none_iff]
        exact ih later

omit [DecidableEq Q] in
theorem mem_taken {all : List (Q × P)} (split : all = before ++ entry :: after) : entry ∈ all := by
  rw [split]
  exact List.mem_append_right _ List.mem_cons_self

omit [DecidableEq Q] in
theorem mem_left {all : List (Q × P)} (split : all = before ++ taken :: after)
    (member : entry ∈ before ++ after) : entry ∈ all := by
  rw [split]
  simp only [List.mem_append, List.mem_cons] at member ⊢
  exact member.imp_right .inr

omit [DecidableEq Q] in
/-- An element that was there is still there or is the one taken out. -/
theorem mem_cases {all : List (Q × P)} (split : all = before ++ taken :: after) (member : entry ∈ all) :
    entry = taken ∨ entry ∈ before ++ after := by
  rw [split] at member
  simp only [List.mem_append, List.mem_cons] at member ⊢
  exact or_left_comm.mp member

end Hollywood.Queues
