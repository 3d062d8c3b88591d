import Hollywood.Foundation.Keyed
import Hollywood.Foundation.Transition
import Hollywood.Process
import Mathlib.Data.Finset.Card
import Mathlib.Data.List.Forall2

/-! Sets of PIDs (`actor/pid_map.go`): a slice, and a map from the key of each PID to its
index there. `Remove` fills the hole with the last PID of the slice, whose index it has to
repair. `none` stands for a Go panic: an index out of range, or a store in a nil map. -/
namespace Hollywood
open Transition

structure PidKey where
  address : String
  id : String
  deriving DecidableEq, Repr

/-- An entry of the map. -/
structure PidIndex where
  key : PidKey
  index : Nat
  deriving DecidableEq, Repr

/-- The map is nil until it is needed. -/
structure PIDSet where
  pids : List PID
  lookup : Option (Keyed PidIndex.key)
  deriving DecidableEq

namespace PIDSet

def key (pid : PID) : PidKey := ⟨pid.address, pid.id⟩

theorem key_injective {v w : PID} (same : key v = key w) : v = w := by
  cases v
  cases w
  cases same
  rfl

def ensureInit (p : PIDSet) : PIDSet :=
  match p.lookup with
  | none => { p with lookup := some .empty }
  | some _ => p

/-- The index under a key; there is nothing in a nil map. -/
def find (p : PIDSet) (k : PidKey) : Option Nat :=
  p.lookup.bind fun lookup => (lookup.get? k).map (·.index)

def indexOf (p : PIDSet) (v : PID) : Int :=
  match p.find (key v) with
  | some i => i
  | none => -1

def contains (p : PIDSet) (v : PID) : Bool := (p.find (key v)).isSome

/-- `p.lookup[k] = i`. -/
def store (p : PIDSet) (k : PidKey) (i : Nat) : Option PIDSet :=
  p.lookup.map fun lookup => { p with lookup := some (lookup.put ⟨k, i⟩) }

/-- `delete(p.lookup, k)`. -/
def delete (p : PIDSet) (k : PidKey) : PIDSet :=
  { p with lookup := p.lookup.map fun lookup => lookup.erase k }

def add (p : PIDSet) (v : PID) : Option PIDSet :=
  let p := p.ensureInit
  if p.contains v then some p
  else
    let p := { p with pids := p.pids ++ [v] }
    p.store (key v) (p.pids.length - 1)

def newPIDSet (pids : List PID) : Option PIDSet := pids.foldlM add ⟨[], none⟩

/-- `p.pids[i] = lastPID` and `p.lookup[p.key(lastPID)] = i`. -/
def moveLast (p : PIDSet) (i : Nat) : Option PIDSet :=
  p.pids[p.pids.length - 1]?.bind fun last =>
    if i < p.pids.length then store { p with pids := p.pids.set i last } (key last) i else none

/-- `p.pids = p.pids[:len(p.pids)-1]`. -/
def shorten (p : PIDSet) : Option PIDSet :=
  if p.pids.length = 0 then none else some { p with pids := p.pids.take (p.pids.length - 1) }

/-- The rest of `Remove` once the index is known. -/
def removeAt (p : PIDSet) (v : PID) (i : Int) : Option PIDSet :=
  let p := p.delete (key v)
  if i < (p.pids.length : Int) - 1 then (p.moveLast i.toNat).bind shorten else p.shorten

def remove (p : PIDSet) (v : PID) : Option (Bool × PIDSet) :=
  let p := p.ensureInit
  let i := p.indexOf v
  if i = -1 then some (false, p) else (p.removeAt v i).map fun q => (true, q)

def len (p : PIDSet) : Nat := p.pids.length

def clear (_ : PIDSet) : PIDSet := ⟨[], some .empty⟩

/-- The calls of the function that `ForEach` is given. -/
def forEach (p : PIDSet) : List (Nat × PID) := (List.range p.pids.length).zip p.pids

def get (p : PIDSet) (index : Int) : Option PID := if 0 ≤ index then p.pids[index.toNat]? else none

def clone (p : PIDSet) : Option PIDSet := newPIDSet p.pids

/-- The map has the index of every PID of the slice and nothing else, and the PIDs are those
of a set. -/
structure Represents (p : PIDSet) (s : Finset PID) : Prop where
  indexed : ∀ k i, p.find k = some i ↔ ∃ v, p.pids[i]? = some v ∧ key v = k
  members : ∀ v, v ∈ p.pids ↔ v ∈ s

variable {p : PIDSet} {s : Finset PID} {v : PID}

namespace Represents

theorem find_at {i : Nat} (valid : p.Represents s) (there : p.pids[i]? = some v) : p.find (key v) = some i :=
  (valid.indexed _ i).mpr ⟨v, there, rfl⟩

theorem at_find (valid : p.Represents s) (found : p.find (key v) = some i) : p.pids[i]? = some v := by
  obtain ⟨w, there, same⟩ := (valid.indexed _ i).mp found
  rwa [key_injective same] at there

theorem unique {i j : Nat} (valid : p.Represents s) (first : p.pids[i]? = some v)
    (second : p.pids[j]? = some v) : i = j :=
  Option.some.inj ((valid.find_at first).symm.trans (valid.find_at second))

theorem nodup (valid : p.Represents s) : p.pids.Nodup := by
  refine List.nodup_iff_getElem?_ne_getElem?.mpr ?_
  intro i j before bound same
  have there := List.getElem?_eq_getElem bound
  have equal := valid.unique (same.trans there) there
  omega

theorem contains_eq (valid : p.Represents s) (v : PID) : p.contains v = decide (v ∈ s) := by
  rw [Bool.eq_iff_iff, decide_eq_true_eq, ← valid.members, contains, Option.isSome_iff_exists,
    List.mem_iff_getElem?]
  constructor
  · rintro ⟨i, found⟩
    exact ⟨i, valid.at_find found⟩
  · rintro ⟨i, there⟩
    exact ⟨i, valid.find_at there⟩

theorem ensureInit (valid : p.Represents s) : p.ensureInit.Represents s := by
  rw [PIDSet.ensureInit]
  split
  · rename_i unset
    refine ⟨?_, valid.members⟩
    intro k i
    rw [← valid.indexed k i]
    simp [find, unset]
  · exact valid

end Represents

theorem ensureInit_lookup (p : PIDSet) : ∃ lookup, p.ensureInit.lookup = some lookup := by
  rw [ensureInit]
  split
  · exact ⟨_, rfl⟩
  · rename_i lookup known
    exact ⟨lookup, known⟩

theorem store_spec {map : Keyed PidIndex.key} (known : p.lookup = some map) (k : PidKey) (i : Nat) :
    ∃ q, p.store k i = some q ∧ q.pids = p.pids ∧
      ∀ l, q.find l = if k = l then some i else p.find l := by
  refine ⟨{ p with lookup := some (map.put ⟨k, i⟩) }, by rw [store, known, Option.map_some], rfl, ?_⟩
  intro l
  simp only [find, known, Option.bind_some, Keyed.get?_put]
  split
  · rfl
  · rfl

theorem delete_find (p : PIDSet) (k l : PidKey) :
    (p.delete k).find l = if l = k then none else p.find l := by
  cases known : p.lookup with
  | none => simp [delete, find, known]
  | some lookup =>
    simp only [delete, find, known, Option.map_some, Option.bind_some, Keyed.get?_erase]
    split
    · rfl
    · rfl

theorem empty_represents (lookup : Option (Keyed PidIndex.key)) (fresh : ∀ k, find ⟨[], lookup⟩ k = none) :
    Represents ⟨[], lookup⟩ ∅ where
  indexed k i := by simp [fresh]
  members v := by simp

theorem add_spec (valid : p.Represents s) (v : PID) :
    ∃ q, p.add v = some q ∧ q.Represents (insert v s) := by
  have inited := valid.ensureInit
  obtain ⟨lookup, known⟩ := p.ensureInit_lookup
  by_cases present : v ∈ s
  · refine ⟨p.ensureInit, ?_, ?_⟩
    · rw [add, if_pos]
      rw [inited.contains_eq, decide_eq_true_eq]
      exact present
    · rwa [Finset.insert_eq_of_mem present]
  · have absent : ¬ p.ensureInit.contains v = true := by
      rw [inited.contains_eq, decide_eq_true_eq]
      exact present
    obtain ⟨q, stored, listed, indices⟩ := store_spec
      (p := { p.ensureInit with pids := p.ensureInit.pids ++ [v] }) known (key v)
      ((p.ensureInit.pids ++ [v]).length - 1)
    refine ⟨q, by rw [add, if_neg absent, stored], ?_, ?_⟩
    · intro k i
      rw [indices, listed, List.length_append, List.length_singleton, Nat.add_sub_cancel]
      change (if key v = k then some p.ensureInit.pids.length else p.ensureInit.find k) = some i ↔ _
      split
      · rename_i same
        subst same
        constructor
        · rintro ⟨⟩
          exact ⟨v, List.getElem?_concat_length, rfl⟩
        · rintro ⟨w, there, equal⟩
          rw [key_injective equal] at there
          rw [List.getElem?_append] at there
          split at there
          · exact absurd ((inited.members v).mp (List.mem_of_getElem? there)) present
          · have bound := (List.getElem?_eq_some_iff.mp there).1
            simp only [List.length_singleton] at bound
            congr 1
            omega
      · rename_i other
        rw [inited.indexed]
        constructor
        · rintro ⟨w, there, named⟩
          exact ⟨w, by rw [List.getElem?_append_left (List.getElem?_eq_some_iff.mp there).1, there], named⟩
        · rintro ⟨w, there, named⟩
          refine ⟨w, ?_, named⟩
          rw [List.getElem?_append] at there
          split at there
          · exact there
          · have last := List.mem_singleton.mp (List.mem_of_getElem? there)
            rw [last] at named
            exact absurd named other
    · intro w
      rw [listed, List.mem_append, List.mem_singleton, Finset.mem_insert, inited.members, or_comm]

/-- The slice after a removal: the last PID stands in the hole, if there is one. -/
theorem getElem?_removed {pids : List PID} {last : PID} {i : Nat} (bound : i < pids.length)
    (final : pids[pids.length - 1]? = some last) (j : Nat) :
    ((pids.set i last).take (pids.length - 1))[j]? =
      if j + 1 < pids.length then (if j = i then pids[pids.length - 1]? else pids[j]?) else none := by
  rw [List.getElem?_take]
  by_cases inside : j + 1 < pids.length
  · rw [if_pos (by omega), if_pos inside, List.getElem?_set]
    by_cases hole : j = i
    · rw [if_pos hole, if_pos hole.symm, if_pos bound, final]
    · rw [if_neg hole, if_neg (Ne.symm hole)]
  · rw [if_neg (by omega), if_neg inside]

/-- A set whose slice has lost a PID in that way, and whose map has been repaired, is as it
should be. -/
theorem removed_represents {q : PIDSet} {i : Nat} (valid : p.Represents s)
    (there : p.pids[i]? = some v)
    (slots : ∀ j, q.pids[j]? =
      if j + 1 < p.pids.length then (if j = i then p.pids[p.pids.length - 1]? else p.pids[j]?) else none)
    (indices : ∀ w, q.find (key w) = if w = v then none
      else if p.pids[p.pids.length - 1]? = some w then some i else p.find (key w)) :
    q.Represents (s.erase v) := by
  have bound := (List.getElem?_eq_some_iff.mp there).1
  -- where a PID other than the removed one stands afterwards
  have moved (w : PID) (j : Nat) : q.find (key w) = some j ↔ q.pids[j]? = some w := by
    rw [indices, slots]
    by_cases gone : w = v
    · subst gone
      rw [if_pos rfl]
      refine iff_of_false (by rintro ⟨⟩) ?_
      intro still
      split at still
      · rename_i inside
        split at still
        · rename_i hole
          have same := valid.unique there still
          omega
        · rename_i other
          exact other (valid.unique still there)
      · cases still
    · rw [if_neg gone]
      by_cases last : p.pids[p.pids.length - 1]? = some w
      · rw [if_pos last]
        have apart : i ≠ p.pids.length - 1 := by
          rintro rfl
          rw [there] at last
          exact gone (Option.some.inj last).symm
        constructor
        · rintro ⟨⟩
          rw [if_pos (by omega), if_pos rfl, last]
        · intro found
          split at found
          · split at found
            · rename_i hole
              rw [hole]
            · have same := valid.unique found last
              omega
          · cases found
      · rw [if_neg last]
        constructor
        · intro found
          have before := valid.at_find found
          have inside := (List.getElem?_eq_some_iff.mp before).1
          have notLast : j ≠ p.pids.length - 1 := by
            rintro rfl
            exact last before
          have notHole : j ≠ i := by
            rintro rfl
            rw [there] at before
            exact gone (Option.some.inj before).symm
          rw [if_pos (by omega), if_neg notHole, before]
        · intro found
          split at found
          · split at found
            · exact absurd found last
            · exact valid.find_at found
          · cases found
  constructor
  · intro k j
    constructor
    · intro found
      exact ⟨⟨k.address, k.id⟩, (moved ⟨k.address, k.id⟩ j).mp found, rfl⟩
    · rintro ⟨w, found, rfl⟩
      exact (moved w j).mpr found
  · intro w
    rw [Finset.mem_erase, ← valid.members, List.mem_iff_getElem?, List.mem_iff_getElem?]
    constructor
    · rintro ⟨j, found⟩
      have index := (moved w j).mpr found
      rw [indices] at index
      split at index
      · cases index
      · rename_i other
        refine ⟨other, ?_⟩
        split at index
        · rename_i last
          exact ⟨_, last⟩
        · exact ⟨j, valid.at_find index⟩
    · rintro ⟨other, j, found⟩
      have index := indices w
      rw [if_neg other] at index
      split at index
      · exact ⟨i, (moved w i).mp index⟩
      · exact ⟨j, (moved w j).mp (index.trans (valid.find_at found))⟩

theorem shorten_spec {q : PIDSet} (some_ : 0 < q.pids.length) :
    q.shorten = some { q with pids := q.pids.take (q.pids.length - 1) } := by
  rw [shorten, if_neg (by omega)]

theorem removeAt_end {i : Nat} (valid : p.Represents s) (there : p.pids[i]? = some v)
    (final : i = p.pids.length - 1) : ∃ q, p.removeAt v i = some q ∧ q.Represents (s.erase v) := by
  have bound := (List.getElem?_eq_some_iff.mp there).1
  have kept : (p.delete (key v)).pids = p.pids := rfl
  refine ⟨{ p.delete (key v) with pids := p.pids.take (p.pids.length - 1) }, ?_,
    removed_represents valid there ?_ ?_⟩
  · rw [removeAt, if_neg (by rw [kept]; omega), shorten_spec (by rw [kept]; omega), kept]
  · intro j
    rw [List.getElem?_take]
    by_cases inside : j + 1 < p.pids.length
    · rw [if_pos (by omega), if_pos inside, if_neg (by omega)]
    · rw [if_neg (by omega), if_neg inside]
  · intro w
    change (p.delete (key v)).find (key w) = _
    rw [delete_find, ← final, there]
    by_cases gone : w = v
    · rw [if_pos gone, if_pos (congrArg key gone)]
    · rw [if_neg gone, if_neg (fun same => gone (key_injective same)),
        if_neg (fun same => gone (Option.some.inj same).symm)]

theorem removeAt_hole {i : Nat} {map : Keyed PidIndex.key} (valid : p.Represents s)
    (known : p.lookup = some map) (there : p.pids[i]? = some v) (hole : i < p.pids.length - 1) :
    ∃ q, p.removeAt v i = some q ∧ q.Represents (s.erase v) := by
  have bound := (List.getElem?_eq_some_iff.mp there).1
  obtain ⟨last, final⟩ : ∃ last, p.pids[p.pids.length - 1]? = some last :=
    ⟨_, List.getElem?_eq_getElem (by omega)⟩
  have deleted : (p.delete (key v)).lookup = some (map.erase (key v)) := by
    rw [delete, known, Option.map_some]
  obtain ⟨q, stored, listed, indices⟩ :=
    store_spec (p := { p.delete (key v) with pids := p.pids.set i last }) deleted (key last) i
  have moved : (p.delete (key v)).moveLast i = some q := by
    rw [moveLast]
    change (p.pids[p.pids.length - 1]?.bind fun last => if i < p.pids.length then _ else none) = _
    rw [final, Option.bind_some, if_pos bound]
    exact stored
  have length : q.pids.length = p.pids.length := by rw [listed, List.length_set]
  have kept : (p.delete (key v)).pids = p.pids := rfl
  refine ⟨{ q with pids := q.pids.take (q.pids.length - 1) }, ?_, removed_represents valid there ?_ ?_⟩
  · rw [removeAt, if_pos (by rw [kept]; omega), Int.toNat_natCast, moved, Option.bind_some,
      shorten_spec (by omega)]
  · intro j
    rw [length, listed]
    exact getElem?_removed bound final j
  · intro w
    change q.find (key w) = _
    rw [indices]
    change (if key last = key w then some i else (p.delete (key v)).find (key w)) = _
    rw [delete_find, final]
    by_cases gone : w = v
    · subst gone
      rw [if_neg, if_pos rfl, if_pos rfl]
      intro same
      have equal := valid.unique there (final.trans (congrArg some (key_injective same)))
      omega
    · rw [if_neg gone]
      by_cases moved : last = w
      · rw [if_pos (congrArg key moved), if_pos (congrArg some moved)]
      · rw [if_neg (fun same => moved (key_injective same)),
          if_neg (fun same => gone (key_injective same)), if_neg (fun same => moved (Option.some.inj same))]

theorem removeAt_spec {i : Nat} {map : Keyed PidIndex.key} (valid : p.Represents s)
    (known : p.lookup = some map) (there : p.pids[i]? = some v) :
    ∃ q, p.removeAt v i = some q ∧ q.Represents (s.erase v) := by
  have bound := (List.getElem?_eq_some_iff.mp there).1
  by_cases hole : i < p.pids.length - 1
  · exact removeAt_hole valid known there hole
  · exact removeAt_end valid there (by omega)

theorem remove_spec (valid : p.Represents s) (v : PID) :
    ∃ q, p.remove v = some (decide (v ∈ s), q) ∧ q.Represents (s.erase v) := by
  have inited := valid.ensureInit
  obtain ⟨map, known⟩ := p.ensureInit_lookup
  by_cases present : v ∈ s
  · obtain ⟨i, there⟩ := List.mem_iff_getElem?.mp ((inited.members v).mpr present)
    have index : p.ensureInit.indexOf v = i := by rw [indexOf, inited.find_at there]
    obtain ⟨q, removed, valid⟩ := removeAt_spec inited known there
    refine ⟨q, ?_, valid⟩
    rw [remove, if_neg (by rw [index]; omega), index, decide_eq_true present, removed, Option.map_some]
  · have absent : p.ensureInit.find (key v) = none := by
      have outside := inited.contains_eq v
      rwa [decide_eq_false present, contains, Option.isSome_eq_false_iff, Option.isNone_iff_eq_none] at outside
    refine ⟨p.ensureInit, ?_, ?_⟩
    · rw [remove, if_pos (by rw [indexOf, absent]), decide_eq_false present]
    · rwa [Finset.erase_eq_of_notMem present]

theorem newPIDSet_spec (pids : List PID) : ∃ p, newPIDSet pids = some p ∧ p.Represents pids.toFinset := by
  have general (rest : List PID) {p : PIDSet} {s : Finset PID} (valid : p.Represents s) :
      ∃ q, rest.foldlM add p = some q ∧ q.Represents (s ∪ rest.toFinset) := by
    induction rest generalizing p s with
    | nil => exact ⟨p, rfl, by simpa using valid⟩
    | cons v rest ih =>
      obtain ⟨middle, added, valid⟩ := add_spec valid v
      obtain ⟨q, folded, valid⟩ := ih valid
      refine ⟨q, by rw [List.foldlM_cons, added, Option.bind_eq_bind, Option.bind_some, folded], ?_⟩
      rwa [List.toFinset_cons, Finset.union_insert, ← Finset.insert_union]
  obtain ⟨p, made, valid⟩ := general pids (empty_represents none fun _ => rfl)
  exact ⟨p, made, by rwa [Finset.empty_union] at valid⟩

theorem clone_spec (valid : p.Represents s) : ∃ q, p.clone = some q ∧ q.Represents s := by
  obtain ⟨q, made, copied⟩ := newPIDSet_spec p.pids
  refine ⟨q, made, copied.indexed, ?_⟩
  intro v
  rw [copied.members, List.mem_toFinset, valid.members]

/-- What can be observed of a set of PIDs agrees with the finite set `s`, and its slice and
its map agree with each other. -/
structure Refines (p : PIDSet) (s : Finset PID) : Prop where
  distinct : p.pids.Nodup
  indexed : ∀ k i, p.find k = some i ↔ ∃ v, p.pids[i]? = some v ∧ key v = k
  contains : ∀ v, p.contains v = decide (v ∈ s)
  remove : ∀ v, (p.remove v).map (·.1) = some (decide (v ∈ s))
  len : p.len = s.card
  forEach : ∀ v, (p.forEach.map (·.2)).count v = if v ∈ s then 1 else 0
  get : ∀ v, v ∈ s ↔ ∃ i, p.get i = some v
  once : ∀ i j v, p.get i = some v → p.get j = some v → i = j
  bounds : ∀ i, (p.get i).isSome = true ↔ 0 ≤ i ∧ i < p.len

theorem get_eq_some {i : Int} : p.get i = some v ↔ 0 ≤ i ∧ p.pids[i.toNat]? = some v := by
  rw [get, Option.ite_none_right_eq_some]

theorem Represents.refines (valid : p.Represents s) : p.Refines s where
  distinct := valid.nodup
  indexed := valid.indexed
  contains := valid.contains_eq
  remove v := by
    obtain ⟨q, removed, -⟩ := remove_spec valid v
    rw [removed, Option.map_some]
  len := by
    have same : p.pids.toFinset = s := Finset.ext fun v => by rw [List.mem_toFinset, valid.members]
    rw [PIDSet.len, ← same, List.toFinset_card_of_nodup valid.nodup]
  forEach v := by
    rw [PIDSet.forEach, List.map_snd_zip (by simp)]
    split
    · rename_i present
      exact List.count_eq_one_of_mem valid.nodup ((valid.members v).mpr present)
    · rename_i absent
      exact List.count_eq_zero.mpr fun listed => absent ((valid.members v).mp listed)
  get v := by
    rw [← valid.members, List.mem_iff_getElem?]
    constructor
    · rintro ⟨i, there⟩
      exact ⟨i, get_eq_some.mpr ⟨Int.natCast_nonneg i, there⟩⟩
    · rintro ⟨i, found⟩
      exact ⟨_, (get_eq_some.mp found).2⟩
  once i j v first second := by
    obtain ⟨low, there⟩ := get_eq_some.mp first
    obtain ⟨low', there'⟩ := get_eq_some.mp second
    have same := valid.unique there there'
    omega
  bounds i := by
    rw [Option.isSome_iff_exists]
    simp only [get_eq_some, exists_and_left, List.getElem?_eq_some_iff, PIDSet.len]
    constructor
    · rintro ⟨low, v, bound, -⟩
      exact ⟨low, by omega⟩
    · rintro ⟨low, bound⟩
      exact ⟨low, _, by omega, rfl⟩

/-- The operations on a family of sets, which are numbered as they are made: the first one
by `NewPIDSet`, the others by `Clone`. -/
inductive Label where
  | add (k : Nat) (v : PID)
  | remove (k : Nat) (v : PID)
  | clear (k : Nat)
  | clone (k : Nat)
  deriving DecidableEq, Repr

def step (sets : List PIDSet) : Label → Option (List PIDSet)
  | .add k v => do
    let q ← (← sets[k]?).add v
    pure (sets.set k q)
  | .remove k v => do
    let (_, q) ← (← sets[k]?).remove v
    pure (sets.set k q)
  | .clear k => do pure (sets.set k (← sets[k]?).clear)
  | .clone k => do pure (sets ++ [← (← sets[k]?).clone])

/-- The same operations on finite sets. -/
def setStep (family : List (Finset PID)) : Label → Option (List (Finset PID))
  | .add k v => family[k]?.map fun s => family.set k (insert v s)
  | .remove k v => family[k]?.map fun s => family.set k (s.erase v)
  | .clear k => family[k]?.map fun _ => family.set k ∅
  | .clone k => family[k]?.map fun s => family ++ [s]

section
variable {sets : List PIDSet} {family : List (Finset PID)}

theorem related_at (related : sets.Forall₂ Represents family) (k : Nat) :
    sets[k]? = none ∧ family[k]? = none ∨
      ∃ p s, sets[k]? = some p ∧ family[k]? = some s ∧ p.Represents s := by
  induction related generalizing k with
  | nil => exact .inl ⟨rfl, rfl⟩
  | cons first _ ih =>
    cases k with
    | zero => exact .inr ⟨_, _, rfl, rfl, first⟩
    | succ k => exact ih k

theorem related_set (related : sets.Forall₂ Represents family) (valid : p.Represents s) (k : Nat) :
    (sets.set k p).Forall₂ Represents (family.set k s) := by
  induction related generalizing k with
  | nil => exact .nil
  | cons first rest ih =>
    cases k with
    | zero => exact .cons valid rest
    | succ k => exact .cons first (ih k)

/-- An operation on one set of the family that there is on both sides. -/
theorem related_bind (related : sets.Forall₂ Represents family) (k : Nat)
    {f : PIDSet → Option (List PIDSet)} {g : Finset PID → List (Finset PID)}
    (does : ∀ p s, p.Represents s → ∃ after, f p = some after ∧ after.Forall₂ Represents (g s)) :
    Option.Rel (List.Forall₂ Represents) (sets[k]?.bind f) (family[k]?.map g) := by
  rcases related_at related k with ⟨missing, missing'⟩ | ⟨p, s, known, known', valid⟩
  · rw [missing, missing']
    exact .none
  · obtain ⟨after, done, still⟩ := does p s valid
    rw [known, known', Option.bind_some, Option.map_some, done]
    exact .some still

theorem step_related (related : sets.Forall₂ Represents family) (l : Label) :
    Option.Rel (List.Forall₂ Represents) (step sets l) (setStep family l) := by
  cases l with
  | add k v =>
    apply related_bind related k
    intro p s valid
    obtain ⟨q, added, valid⟩ := add_spec valid v
    refine ⟨sets.set k q, ?_, related_set related valid k⟩
    rw [added]
    rfl
  | remove k v =>
    apply related_bind related k
    intro p s valid
    obtain ⟨q, removed, valid⟩ := remove_spec valid v
    refine ⟨sets.set k q, ?_, related_set related valid k⟩
    rw [removed]
    rfl
  | clear k =>
    apply related_bind related k
    intro p s valid
    exact ⟨sets.set k p.clear, rfl, related_set related (empty_represents _ fun _ => rfl) k⟩
  | clone k =>
    apply related_bind related k
    intro p s valid
    obtain ⟨q, cloned, valid⟩ := clone_spec valid
    refine ⟨sets ++ [q], ?_, List.rel_append related (.cons valid .nil)⟩
    rw [cloned]
    rfl

end

/-- `NewPIDSet` of any list makes a set from which every sequence of operations on it, on
its clones and on theirs takes the steps that it takes for finite sets. None of them
panics, and after it each set of the family is as its finite set says. -/
theorem refines_finite_sets (pids : List PID) :
    ∃ first, newPIDSet pids = some first ∧ ∀ labels,
      Option.Rel (List.Forall₂ Refines) (run step [first] labels)
        (run setStep [pids.toFinset] labels) := by
  obtain ⟨first, made, valid⟩ := newPIDSet_spec pids
  refine ⟨first, made, fun labels => ?_⟩
  have related := run_lockstep (fun l related => step_related related l) labels
    (.cons valid .nil : List.Forall₂ Represents [first] [pids.toFinset])
  generalize run step [first] labels = sets at related ⊢
  generalize run setStep [pids.toFinset] labels = family at related ⊢
  cases related with
  | none => exact .none
  | some related => exact .some (related.imp fun _ _ valid => valid.refines)

/-- A hole in the middle, the last position, an absent PID and a clone that is changed on
its own, after a list with a duplicate. -/
example : let pid := fun id => (⟨"h:1", id⟩ : PID)
    ((newPIDSet [pid "a", pid "b", pid "a", pid "c"]).bind fun first =>
      run step [first] [.remove 0 (pid "a"), .clone 0, .remove 0 (pid "b"), .remove 1 (pid "d"),
        .add 1 (pid "a"), .clear 0]).map (·.map (·.pids)) = some [[], [pid "c", pid "b", pid "a"]] := by
  decide +kernel

end PIDSet
end Hollywood
