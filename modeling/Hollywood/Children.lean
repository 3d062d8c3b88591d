import Hollywood.Foundation.Keyed
import Hollywood.Foundation.Transition
import Hollywood.Process

/-! A call of `Context.Children` among other uses of the children map, a
`safemap.SafeMap`. The call makes its slice for the length of the map and fills it by
`ForEach`, which is a second operation on the map. -/
namespace Hollywood
open Transition

/-- The function that `ForEach` is given, called on the children one after the other:
`pids[i] = child` and `i++`; `none` is the panic of an index out of range. -/
def fillSlice (i : Nat) (pids : List (Option PID)) : List PID → Option (List (Option PID))
  | [] => some pids
  | child :: rest => if i < pids.length then fillSlice (i + 1) (pids.set i (some child)) rest else none

namespace Children

/-- Where the call stands. -/
inductive Pc where
  | len
  | forEach (size : Nat)
  | returned (pids : List (Option PID))
  | panicked
  deriving DecidableEq, Repr

/-- The map has the id of each child as its key. -/
structure State where
  children : Keyed PID.id
  pc : Pc
  deriving DecidableEq

/-- The operations of other goroutines on the map, and the two of the call; ranging over a
Go map takes the children in any order. -/
inductive Label where
  | set (child : PID)
  | delete (id : String)
  | len
  | forEach (order : List PID)
  deriving DecidableEq, Repr

/-- `ForEach` on a slice that was made for `size` children. -/
def fill (size : Nat) (order : List PID) : Pc :=
  match fillSlice 0 (List.replicate size none) order with
  | some pids => .returned pids
  | none => .panicked

def step (s : State) : Label → Option State
  | .set child => some { s with children := s.children.put child }
  | .delete id => some { s with children := s.children.erase id }
  | .len =>
    match s.pc with
    | .len => some { s with pc := .forEach s.children.entries.length }
    | _ => none
  | .forEach order =>
    match s.pc with
    | .forEach size =>
      if order.Perm s.children.entries then some { s with pc := fill size order } else none
    | _ => none

/-- What a step can do: change the map, size the slice or fill it. -/
inductive Move (s : State) : Label → State → Prop where
  | changed (children : Keyed PID.id) : (∀ order, label ≠ .forEach order) →
      Move s label { s with children := children }
  | sized : s.pc = .len → Move s .len { s with pc := .forEach s.children.entries.length }
  | filled : s.pc = .forEach size → order.Perm s.children.entries →
      Move s (.forEach order) { s with pc := fill size order }

theorem step_move {s t : State} {label : Label} (stepped : step s label = some t) : Move s label t := by
  cases label with
  | set child =>
    cases stepped
    exact .changed _ (by rintro order ⟨⟩)
  | delete id =>
    cases stepped
    exact .changed _ (by rintro order ⟨⟩)
  | len =>
    simp only [step] at stepped
    split at stepped
    · cases stepped
      exact .sized (by assumption)
    · contradiction
  | forEach order =>
    simp only [step] at stepped
    split at stepped
    · split at stepped
      · cases stepped
        exact .filled (by assumption) (by assumption)
      · contradiction
    · contradiction

/-- The first slots of the slice are taken, as far as it goes. -/
theorem fillSlice_eq (order filled : List PID) (free : Nat) :
    fillSlice filled.length (filled.map some ++ List.replicate free none) order =
      if order.length ≤ free then
        some ((filled ++ order).map some ++ List.replicate (free - order.length) none) else none := by
  induction order generalizing filled free with
  | nil => simp [fillSlice]
  | cons child rest ih =>
    rw [fillSlice]
    cases free with
    | zero => simp
    | succ free =>
      have taken : (filled.map some ++ List.replicate (free + 1) none).set filled.length (some child) =
          (filled ++ [child]).map some ++ List.replicate free none := by
        rw [List.set_append_right _ _ (by simp), List.length_map, Nat.sub_self, List.replicate_succ,
          List.set_cons_zero, List.map_append, List.append_assoc]
        rfl
      have later := ih (filled ++ [child]) free
      rw [List.length_append, List.length_singleton, List.append_assoc] at later
      rw [if_pos (by simp), taken, later]
      simp only [List.length_cons, List.cons_append, List.nil_append, Nat.add_le_add_iff_right,
        Nat.add_sub_add_right]

theorem fill_eq (size : Nat) (order : List PID) : fill size order =
    if order.length ≤ size then
      .returned (order.map some ++ List.replicate (size - order.length) none) else .panicked := by
  have filled := fillSlice_eq order [] size
  rw [List.map_nil, List.nil_append, List.nil_append, List.length_nil] at filled
  rw [fill, filled]
  by_cases fits : order.length ≤ size
  · rw [if_pos fits, if_pos fits]
  · rw [if_neg fits, if_neg fits]

/-- The slice is filled to its end if it was made for as many children as there are. -/
theorem fill_whole (order : List PID) : fill order.length order = .returned (order.map some) := by
  rw [fill_eq, if_pos le_rfl, Nat.sub_self, List.replicate_zero, List.append_nil]

theorem length_of_fill {size : Nat} {order : List PID} {pids : List (Option PID)}
    (filled : fill size order = .returned pids) (whole : none ∉ pids) : order.length = size := by
  rw [fill_eq] at filled
  split at filled
  · rename_i fits
    cases filled
    by_contra other
    apply whole
    refine List.mem_append_right _ (List.mem_replicate.mpr ⟨?_, rfl⟩)
    omega
  · cases filled

/-- The model of a process has the same `Children`, in one order of the map. -/
theorem fillChildren_eq {M W : Type} [Inhabited M] (a : Actor M W) (r : Routine M) (reason : Reason M)
    (size : Nat) : a.fillChildren r reason size =
      match fill size a.children with
      | .returned pids => (a, r.goto (.poison reason pids))
      | _ => a.abort r .error reason := by
  rw [fill_eq, Actor.fillChildren]
  by_cases fits : a.children.length ≤ size
  · rw [if_pos fits, if_pos fits]
  · rw [if_neg fits, if_neg fits]

section
variable {s t : State} {labels : List Label}

/-- A call that has ended does not change any more. -/
theorem ended_stays (ended : t.pc = .panicked ∨ ∃ pids, t.pc = .returned pids)
    (ran : run step t labels = some s) : s.pc = t.pc := by
  induction labels generalizing t with
  | nil =>
    cases ran
    rfl
  | cons l rest ih =>
    obtain ⟨u, stepped, ran⟩ := Option.bind_eq_some_iff.mp ran
    cases step_move stepped with
    | changed children _ => exact ih (t := ⟨children, t.pc⟩) ended ran
    | sized len => simp [len] at ended
    | filled forEach _ => simp [forEach] at ended

theorem fill_ended (size : Nat) (order : List PID) :
    fill size order = .panicked ∨ ∃ pids, fill size order = .returned pids := by
  rw [fill_eq]
  split
  · exact .inr ⟨_, rfl⟩
  · exact .inl rfl

/-- How a call ends is decided when it ranges over the map. -/
theorem ended_filled (open_ : t.pc = .len ∨ ∃ size, t.pc = .forEach size)
    (ran : run step t labels = some s) (ended : s.pc = .panicked ∨ ∃ pids, s.pc = .returned pids) :
    ∃ earlier order later u size, labels = earlier ++ .forEach order :: later ∧
      run step t earlier = some u ∧ u.pc = .forEach size ∧ order.Perm u.children.entries ∧
      s.pc = fill size order := by
  induction labels generalizing t with
  | nil =>
    cases ran
    rcases open_ with len | ⟨size, forEach⟩
    · simp [len] at ended
    · simp [forEach] at ended
  | cons l rest ih =>
    obtain ⟨next, stepped, ran⟩ := Option.bind_eq_some_iff.mp ran
    have onwards (still : next.pc = .len ∨ ∃ size, next.pc = .forEach size) := ih still ran
    have extend (found : ∃ earlier order later u size, rest = earlier ++ .forEach order :: later ∧
        run step next earlier = some u ∧ u.pc = .forEach size ∧
        order.Perm u.children.entries ∧ s.pc = fill size order) :
        ∃ earlier order later u size, l :: rest = earlier ++ .forEach order :: later ∧
          run step t earlier = some u ∧ u.pc = .forEach size ∧
          order.Perm u.children.entries ∧ s.pc = fill size order := by
      obtain ⟨earlier, order, later, u, size, rfl, reached, facts⟩ := found
      refine ⟨l :: earlier, order, later, u, size, rfl, ?_, facts⟩
      rw [run, stepped, Option.bind_some, reached]
    cases step_move stepped with
    | changed children _ => exact extend (onwards open_)
    | sized len => exact extend (onwards (.inr ⟨_, rfl⟩))
    | @filled size order forEach ranged =>
      exact ⟨[], order, rest, t, size, rfl, rfl, forEach, ranged, ended_stays (fill_ended size order) ran⟩

end

/-- The length that the slice was made for. -/
def Pc.size : Pc → Option Nat
  | .forEach size => some size
  | _ => none

/-- The map has as many children when the call ranges over it as when its length was
taken. -/
def sameNumber (s : State) : Label → Bool
  | .forEach _ => s.pc.size = some s.children.entries.length
  | _ => true

/-- For every interleaving of a call of `Children` with other operations on the map: the
call does not panic and returns the children that the map held at one moment of the
call, each once and nothing else, if and only if the number of children is the same at its
two operations. -/
theorem children_snapshot_iff (children : Keyed PID.id) (labels : List Label) (s : State)
    (ran : run step ⟨children, .len⟩ labels = some s) :
    (s.pc ≠ .panicked ∧ ∀ pids, s.pc = .returned pids → ∃ earlier later t, labels = earlier ++ later ∧
      run step ⟨children, .len⟩ earlier = some t ∧ t.pc ≠ .returned pids ∧
      pids.Perm (t.children.entries.map some)) ↔
      Steps step (fun s label => sameNumber s label = true) ⟨children, .len⟩ labels := by
  constructor
  · rintro ⟨unharmed, snapshot⟩ earlier label later t split reached
    rw [split, run_append, reached, Option.bind_some] at ran
    obtain ⟨u, stepped, ran⟩ := Option.bind_eq_some_iff.mp ran
    cases step_move stepped with
    | changed _ other =>
      cases label with
      | forEach order => exact absurd rfl (other order)
      | set | delete | len => rfl
    | sized _ => rfl
    | @filled size order forEach ranged =>
      -- the call ends here, and what the map held at one moment has no nil entry
      have ends := ended_stays (t := ⟨t.children, fill size order⟩) (fill_ended size order) ran
      rcases fill_ended size order with panicked | ⟨pids, returned⟩
      · exact absurd (ends.trans panicked) unharmed
      · obtain ⟨_, _, u, -, -, -, taken⟩ := snapshot pids (ends.trans returned)
        have whole : none ∉ pids := fun missing => by simpa using taken.mem_iff.mp missing
        rw [sameNumber, forEach, decide_eq_true_eq, Pc.size, ← ranged.length_eq,
          length_of_fill returned whole]
  · intro same
    have taken (ended : s.pc = .panicked ∨ ∃ pids, s.pc = .returned pids) :
        ∃ earlier later t, ∃ order : List PID, labels = earlier ++ later ∧
          run step ⟨children, .len⟩ earlier = some t ∧ (∃ size, t.pc = .forEach size) ∧
          order.Perm t.children.entries ∧ s.pc = .returned (order.map some) := by
      obtain ⟨earlier, order, later, t, size, split, reached, forEach, ranged, ends⟩ :=
        ended_filled (.inl rfl) ran ended
      have number : sameNumber t (.forEach order) = true := same earlier _ later t split reached
      rw [sameNumber, forEach, decide_eq_true_eq, Pc.size, Option.some.injEq, ← ranged.length_eq] at number
      refine ⟨earlier, _, t, order, split, reached, ⟨size, forEach⟩, ranged, ?_⟩
      rw [ends, number, fill_whole]
    constructor
    · intro panicked
      obtain ⟨_, _, _, _, -, -, -, -, returned⟩ := taken (.inl panicked)
      cases panicked.symm.trans returned
    · intro pids returned
      obtain ⟨earlier, later, t, order, split, reached, ⟨size, forEach⟩, ranged, ends⟩ :=
        taken (.inr ⟨pids, returned⟩)
      cases returned.symm.trans ends
      exact ⟨earlier, later, t, split, reached, by rw [forEach]; rintro ⟨⟩, ranged.map some⟩

/-- Of two children one goes and another one comes between the two operations. -/
def replaced : List Label :=
  [.len, .delete "p/b", .set ⟨"h:1", "p/c"⟩, .forEach [⟨"h:1", "p/c"⟩, ⟨"h:1", "p/a"⟩], .delete "p/a"]

def family : Keyed PID.id := .ofList [⟨"h:1", "p/a"⟩, ⟨"h:1", "p/b"⟩]

theorem children_snapshot_iff_replaced :
    ∃ s, run step ⟨family, .len⟩ replaced = some s ∧
      s.pc = .returned [some ⟨"h:1", "p/c"⟩, some ⟨"h:1", "p/a"⟩] ∧
      ∃ earlier later t, replaced = earlier ++ later ∧
        run step ⟨family, .len⟩ earlier = some t ∧
        t.pc ≠ .returned [some ⟨"h:1", "p/c"⟩, some ⟨"h:1", "p/a"⟩] ∧
        [some ⟨"h:1", "p/c"⟩, some ⟨"h:1", "p/a"⟩].Perm (t.children.entries.map some) := by
  obtain ⟨s, ran, ends⟩ := (Option.any_eq_true (fun s : State =>
      decide (s.pc = .returned [some ⟨"h:1", "p/c"⟩, some ⟨"h:1", "p/a"⟩]))
    (run (restrict sameNumber step) ⟨family, .len⟩ replaced)).mp
      (by decide +kernel)
  have plain := run_of_restrict ran
  have returned := of_decide_eq_true ends
  have snapshot := (children_snapshot_iff family replaced s plain).mpr
    (steps_of_restrict id ran)
  exact ⟨s, plain, returned, snapshot.2 _ returned⟩

/-- A child that stops in between leaves a nil entry, one that starts makes the call
panic. -/
theorem children_torn :
    (run step ⟨family, .len⟩
        [.len, .delete "p/a", .forEach [⟨"h:1", "p/b"⟩]]).map (·.pc) =
      some (.returned [some ⟨"h:1", "p/b"⟩, none]) ∧
    (run step ⟨family, .len⟩ [.len, .set ⟨"h:1", "p/c"⟩,
        .forEach [⟨"h:1", "p/a"⟩, ⟨"h:1", "p/b"⟩, ⟨"h:1", "p/c"⟩]]).map (·.pc) =
      some .panicked := by
  decide +kernel

end Children
end Hollywood
