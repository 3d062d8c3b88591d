import Mathlib.Data.List.Nodup

/-! Maps whose values carry their own key, such as a table of records by id. The
entries are listed; where the order of ranging over a map can be observed, it is
left open by the definition that ranges. -/
namespace Hollywood

@[ext] structure Keyed {K V : Type} (key : V → K) where
  entries : List V
  distinct : (entries.map key).Nodup

namespace Keyed
variable {K V : Type} {key : V → K} {m : Keyed key} {v w : V} {k : K}

def empty : Keyed key := ⟨[], List.nodup_nil⟩

def filter (p : V → Bool) (m : Keyed key) : Keyed key :=
  ⟨m.entries.filter p, m.distinct.sublist (List.filter_sublist.map key)⟩

theorem mem_filter {p : V → Bool} : w ∈ (m.filter p).entries ↔ w ∈ m.entries ∧ p w = true :=
  List.mem_filter

theorem unique (first : v ∈ m.entries) (second : w ∈ m.entries) (same : key v = key w) : v = w :=
  List.inj_on_of_nodup_map m.distinct first second same

/-- One entry alone has a property that it has. -/
theorem countP_eq_one_iff {p : V → Bool} (member : v ∈ m.entries) (holds : p v = true) :
    m.entries.countP p = 1 ↔ ∀ w ∈ m.entries, p w = true → w = v := by
  rw [List.countP_eq_length_filter]
  have inside : v ∈ m.entries.filter p := List.mem_filter.mpr ⟨member, holds⟩
  constructor
  · intro one w listed same
    obtain ⟨single, alone⟩ := List.length_eq_one_iff.mp one
    have other : w ∈ m.entries.filter p := List.mem_filter.mpr ⟨listed, same⟩
    rw [alone, List.mem_singleton] at inside other
    rw [inside, other]
  · intro alone
    have all : ∀ w ∈ m.entries.filter p, w = v := fun w listed =>
      alone w (List.mem_filter.mp listed).1 (List.mem_filter.mp listed).2
    have copies := List.eq_replicate_iff.mpr ⟨rfl, all⟩
    have few := List.nodup_replicate.mp (copies ▸ (List.Nodup.of_map _ m.distinct).filter p)
    have present := List.length_pos_of_mem inside
    omega

variable [DecidableEq K]

def get? (m : Keyed key) (k : K) : Option V := m.entries.find? fun v => key v = k

def contains (m : Keyed key) (k : K) : Bool := (m.get? k).isSome

def erase (m : Keyed key) (k : K) : Keyed key := m.filter fun v => key v ≠ k

theorem mem_erase : w ∈ (m.erase k).entries ↔ w ∈ m.entries ∧ key w ≠ k := by
  rw [erase, mem_filter, decide_eq_true_eq]

/-- Enter a value in the place of the one that has its key. -/
def put (m : Keyed key) (v : V) : Keyed key where
  entries := (m.erase (key v)).entries ++ [v]
  distinct := by
    rw [List.map_append, List.nodup_append]
    refine ⟨(m.erase (key v)).distinct, by simp, ?_⟩
    intro k present l last same
    obtain ⟨w, member, rfl⟩ := List.mem_map.mp present
    apply (mem_erase.mp member).2
    rw [same]
    simpa using last

/-- Enter a value unless its key is taken. -/
def add (m : Keyed key) (v : V) : Keyed key :=
  if m.contains (key v) then m else m.put v

def ofList (values : List V) : Keyed key := values.foldl put empty

instance [DecidableEq V] : DecidableEq (Keyed key) := fun m n =>
  decidable_of_iff (m.entries = n.entries) Keyed.ext_iff.symm

theorem get?_eq_some : m.get? k = some v ↔ v ∈ m.entries ∧ key v = k := by
  constructor
  · intro found
    exact ⟨List.mem_of_find?_eq_some found, by simpa using List.find?_some found⟩
  · rintro ⟨member, rfl⟩
    cases found : m.get? (key v) with
    | none => simpa using List.find?_eq_none.mp found v member
    | some w =>
      have named : key w = key v := by simpa using List.find?_some found
      rw [unique (List.mem_of_find?_eq_some found) member named]

@[simp] theorem get?_empty : (empty : Keyed key).get? k = none := rfl

theorem mem_put : w ∈ (m.put v).entries ↔ w = v ∨ (w ∈ m.entries ∧ key w ≠ key v) := by
  rw [put, List.mem_append, mem_erase, List.mem_singleton, or_comm]

theorem get?_erase (k l : K) : (m.erase k).get? l = if l = k then none else m.get? l := by
  apply Option.ext
  intro v
  rw [get?_eq_some, mem_erase]
  split
  · rename_i same
    subst same
    constructor
    · rintro ⟨⟨-, other⟩, named⟩
      exact absurd named other
    · rintro ⟨⟩
  · rename_i other
    rw [get?_eq_some]
    constructor
    · rintro ⟨⟨member, -⟩, named⟩
      exact ⟨member, named⟩
    · rintro ⟨member, rfl⟩
      exact ⟨⟨member, other⟩, rfl⟩

theorem get?_put (v : V) (k : K) : (m.put v).get? k = if key v = k then some v else m.get? k := by
  apply Option.ext
  intro w
  rw [get?_eq_some, mem_put]
  split
  · rename_i named
    constructor
    · rintro ⟨rfl | ⟨-, other⟩, same⟩
      · rfl
      · exact absurd (same.trans named.symm) other
    · rintro ⟨⟩
      exact ⟨.inl rfl, named⟩
  · rename_i other
    rw [get?_eq_some]
    constructor
    · rintro ⟨rfl | ⟨member, -⟩, named⟩
      · exact absurd named other
      · exact ⟨member, named⟩
    · rintro ⟨member, rfl⟩
      exact ⟨.inr ⟨member, Ne.symm other⟩, rfl⟩

theorem get?_add (v : V) (k : K) :
    (m.add v).get? k = if key v = k then (m.get? k).or (some v) else m.get? k := by
  unfold add contains
  split
  · rename_i known
    obtain ⟨w, found⟩ := Option.isSome_iff_exists.mp known
    split
    · rename_i same
      subst same
      rw [found, Option.some_or]
    · rfl
  · rename_i unknown
    rw [get?_put]
    split
    · rename_i same
      subst same
      rw [Option.not_isSome_iff_eq_none.mp unknown, Option.none_or]
    · rfl

theorem contains_put (v : V) (k : K) :
    (m.put v).contains k = (decide (key v = k) || m.contains k) := by
  rw [contains, get?_put]
  split
  · rename_i same
    simp [same]
  · rename_i other
    simp [other, contains]

theorem contains_add (v : V) (k : K) :
    (m.add v).contains k = (decide (key v = k) || m.contains k) := by
  rw [contains, get?_add]
  split
  · rename_i same
    simp [same]
  · rename_i other
    simp [other, contains]

/-- What is in a map after an addition was there or is the value itself. -/
theorem mem_add (member : w ∈ (m.add v).entries) : w ∈ m.entries ∨ w = v := by
  unfold add at member
  split at member
  · exact .inl member
  · rcases mem_put.mp member with same | ⟨kept, -⟩
    · exact .inr same
    · exact .inl kept

/-- Of the values that are entered one after the other, the last one with a key stays. -/
theorem get?_foldl_put (values : List V) (m : Keyed key) (k : K) :
    (values.foldl put m).get? k = (values.reverse.find? fun v => key v = k).or (m.get? k) := by
  induction values generalizing m with
  | nil => rfl
  | cons v rest ih =>
    rw [List.foldl_cons, ih, get?_put, List.reverse_cons, List.find?_append, Option.or_assoc]
    congr 1
    split <;> simp_all

/-- Of the values that are added one after the other, the first one with a key stays. -/
theorem get?_foldl_add (values : List V) (m : Keyed key) (k : K) :
    (values.foldl add m).get? k = (m.get? k).or (values.find? fun v => key v = k) := by
  induction values generalizing m with
  | nil => simp
  | cons v rest ih =>
    rw [List.foldl_cons, ih, get?_add, List.find?_cons]
    split <;> simp_all

theorem get?_ofList (values : List V) (k : K) :
    (ofList values : Keyed key).get? k = values.reverse.find? fun v => key v = k := by
  rw [ofList, get?_foldl_put, get?_empty, Option.or_none]

theorem contains_iff : m.contains k = true ↔ ∃ v ∈ m.entries, key v = k := by
  rw [contains, Option.isSome_iff_exists]
  constructor
  · rintro ⟨v, found⟩
    exact ⟨v, get?_eq_some.mp found⟩
  · rintro ⟨v, member, named⟩
    exact ⟨v, get?_eq_some.mpr ⟨member, named⟩⟩

theorem contains_ofList (values : List V) (k : K) :
    (ofList values : Keyed key).contains k = true ↔ k ∈ values.map key := by
  rw [contains, get?_ofList, List.find?_isSome]
  simp

/-- Values with different keys all stay. -/
theorem mem_ofList {values : List V} (distinct : (values.map key).Nodup) :
    v ∈ (ofList values : Keyed key).entries ↔ v ∈ values := by
  constructor
  · intro member
    have found := get?_eq_some.mpr ⟨member, rfl⟩
    rw [get?_ofList] at found
    exact List.mem_reverse.mp (List.mem_of_find?_eq_some found)
  · intro member
    have known := (contains_ofList values (key v)).mpr (List.mem_map_of_mem member)
    obtain ⟨w, found⟩ := Option.isSome_iff_exists.mp known
    obtain ⟨entered, named⟩ := get?_eq_some.mp found
    rw [get?_ofList] at found
    have listed := List.mem_reverse.mp (List.mem_of_find?_eq_some found)
    rwa [List.inj_on_of_nodup_map distinct listed member named] at entered

end Keyed

end Hollywood
