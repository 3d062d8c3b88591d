import Mathlib.Data.List.Basic
import Mathlib.Data.List.Dedup
import Mathlib.Data.List.Forall2
import Mathlib.Algebra.Group.Nat.Defs

/-! Interning tables. Each new key is entered at the end of a list and gets its
position there as a 32-bit index; a known key gets the index it already has. All
indices lead back to what was interned if and only if the keys tell the entries
apart and the positions fit. -/
namespace Hollywood

/-- Indexing a slice by an `int32`; `none` where Go panics. -/
def index (entries : List E) (id : Int32) : Option E :=
  if 0 ≤ id.toInt then entries[id.toInt.toNat]? else none

theorem index_ofNat {entries : List E} {i : Nat} (small : i < 2 ^ 31) :
    index entries (Int32.ofNat i) = entries[i]? := by
  have value := Int32.toInt_ofNat_of_lt small
  rw [index, value, if_pos (Int.natCast_nonneg i), Int.toNat_natCast]

theorem index_overflow (entries : List E) : index entries (Int32.ofNat (2 ^ 31)) = none :=
  if_neg (by decide)

theorem exists_related {R : α → β → Prop} (all : List.Forall₂ R items ids) (member : item ∈ items) :
    ∃ id, R item id := by
  induction all with
  | nil => cases member
  | cons first _ ih =>
    rcases List.mem_cons.mp member with rfl | later
    · exact ⟨_, first⟩
    · exact ih later

structure Table (K E : Type) where
  lookup : List (K × Int32)
  entries : List E

namespace Table
variable {K E : Type} [DecidableEq K] {key : E → K}

def empty : Table K E := ⟨[], []⟩

/-- The index of a key, which is entered with `entry` if it is new. The index of
a new key is the size of the map so far, as an `int32`. -/
def intern (table : Table K E) (k : K) (entry : E) : Int32 × Table K E :=
  match table.lookup.lookup k with
  | some id => (id, table)
  | none =>
    let max := Int32.ofNat table.lookup.length
    (max, ⟨(k, max) :: table.lookup, table.entries ++ [entry]⟩)

/-- Every index handed out for a key is the position of an entry with that key. -/
structure Faithful (key : E → K) (table : Table K E) : Prop where
  counted : table.lookup.length = table.entries.length
  found : ∀ {k id}, table.lookup.lookup k = some id →
    ∃ i entry, id = Int32.ofNat i ∧ table.entries[i]? = some entry ∧ key entry = k

def Extends (table more : Table K E) : Prop :=
  ∀ k id, table.lookup.lookup k = some id → more.lookup.lookup k = some id

theorem Extends.refl (table : Table K E) : table.Extends table := fun _ _ found => found

theorem Extends.trans {a b c : Table K E} (first : a.Extends b) (second : b.Extends c) :
    a.Extends c := fun k id found => second k id (first k id found)

theorem empty_faithful : (empty : Table K E).Faithful key where
  counted := rfl
  found := by
    intro k id found
    cases found

theorem intern_cases (table : Table K E) (k : K) (entry : E) :
    (table.lookup.lookup k = some (table.intern k entry).1 ∧ (table.intern k entry).2 = table) ∨
    (table.lookup.lookup k = none ∧
      table.intern k entry = (Int32.ofNat table.lookup.length,
        ⟨(k, Int32.ofNat table.lookup.length) :: table.lookup, table.entries ++ [entry]⟩)) := by
  cases known : table.lookup.lookup k with
  | some id => exact .inl ⟨by simp [intern, known], by simp [intern, known]⟩
  | none => exact .inr ⟨rfl, by simp [intern, known]⟩

theorem intern_found (table : Table K E) (k : K) (entry : E) :
    (table.intern k entry).2.lookup.lookup k = some (table.intern k entry).1 := by
  rcases table.intern_cases k entry with ⟨known, same⟩ | ⟨-, added⟩
  · rw [same, known]
  · simp [added]

theorem intern_extends (table : Table K E) (k : K) (entry : E) :
    table.Extends (table.intern k entry).2 := by
  intro other id found
  rcases table.intern_cases k entry with ⟨-, same⟩ | ⟨new, added⟩
  · rw [same, found]
  · have different : other ≠ k := by
      rintro rfl
      rw [new] at found
      cases found
    simpa [added, List.lookup_cons, beq_eq_false_iff_ne.mpr different] using found

theorem intern_faithful {table : Table K E} (faithful : table.Faithful key) (entry : E) :
    (table.intern (key entry) entry).2.Faithful key := by
  rcases table.intern_cases (key entry) entry with ⟨-, same⟩ | ⟨-, added⟩
  · rw [same]
    exact faithful
  · rw [added]
    refine ⟨by simp [faithful.counted], ?_⟩
    intro k id found
    rw [List.lookup_cons] at found
    split at found
    · rename_i same
      rw [beq_iff_eq] at same
      refine ⟨table.entries.length, entry, ?_, by simp, same.symm⟩
      rw [← faithful.counted]
      exact (Option.some.inj found).symm
    · obtain ⟨i, known, position, present, named⟩ := faithful.found found
      exact ⟨i, known, position, by rw [List.getElem?_append_left (List.getElem?_eq_some_iff.mp present).1,
        present], named⟩

theorem mem_intern {table : Table K E} {k : K} {entry other : E}
    (member : other ∈ (table.intern k entry).2.entries) : other ∈ table.entries ∨ other = entry := by
  rcases table.intern_cases k entry with ⟨-, same⟩ | ⟨-, added⟩
  · rw [same] at member
    exact .inl member
  · rw [added] at member
    simpa using member

theorem intern_length (table : Table K E) (k : K) (entry : E) :
    (table.intern k entry).2.entries.length ≤ table.entries.length + 1 := by
  rcases table.intern_cases k entry with ⟨-, same⟩ | ⟨-, added⟩
  · rw [same]
    exact Nat.le_succ _
  · simp [added]

/-- The entry that the index of a key leads to. -/
def resolve (table : Table K E) (k : K) : Option E := (table.lookup.lookup k).bind (index table.entries)

/-- An index handed out by a table of representable size leads to an entry of its
key. -/
theorem Faithful.resolve {table : Table K E} {id : Int32} (faithful : table.Faithful key)
    (fits : table.entries.length ≤ 2 ^ 31) (found : table.lookup.lookup k = some id) :
    ∃ entry ∈ table.entries, index table.entries id = some entry ∧ table.resolve k = some entry ∧
      key entry = k := by
  obtain ⟨i, entry, rfl, present, named⟩ := faithful.found found
  obtain ⟨inside, -⟩ := List.getElem?_eq_some_iff.mp present
  have indexed : index table.entries (Int32.ofNat i) = some entry := by
    rw [index_ofNat (by omega), present]
  refine ⟨entry, List.mem_of_getElem? present, indexed, ?_, named⟩
  rw [Table.resolve, found, Option.bind_some, indexed]

/-- The entries have different keys, and the key of an entry is found at its
position. -/
structure Positioned (key : E → K) (table : Table K E) : Prop where
  distinct : (table.entries.map key).Nodup
  position : ∀ {i entry}, table.entries[i]? = some entry →
    table.lookup.lookup (key entry) = some (Int32.ofNat i)

theorem empty_positioned : (empty : Table K E).Positioned key := by
  constructor
  · exact List.nodup_nil
  · intro i entry present
    cases present

theorem Positioned.absent {table : Table K E} (positioned : table.Positioned key)
    (new : table.lookup.lookup k = none) : k ∉ table.entries.map key := by
  intro member
  obtain ⟨entry, present, rfl⟩ := List.mem_map.mp member
  obtain ⟨i, present⟩ := List.mem_iff_getElem?.mp present
  rw [positioned.position present] at new
  cases new

theorem intern_positioned {table : Table K E} (faithful : table.Faithful key)
    (positioned : table.Positioned key) (entry : E) :
    (table.intern (key entry) entry).2.Positioned key := by
  have kept := table.intern_extends (key entry) entry
  have recorded := table.intern_found (key entry) entry
  rcases table.intern_cases (key entry) entry with ⟨-, same⟩ | ⟨new, added⟩
  · rw [same]
    exact positioned
  · rw [added] at kept recorded ⊢
    constructor
    · rw [List.map_append, List.map_singleton, List.nodup_append]
      refine ⟨positioned.distinct, List.nodup_singleton _, ?_⟩
      rintro k known other last rfl
      obtain rfl := List.mem_singleton.mp last
      exact positioned.absent new known
    · intro i other present
      by_cases old : i < table.entries.length
      · rw [List.getElem?_append_left old] at present
        exact kept _ _ (positioned.position present)
      · obtain ⟨inside, -⟩ := List.getElem?_eq_some_iff.mp present
        obtain rfl : i = table.entries.length := by
          simp only [List.length_append, List.length_singleton] at inside
          omega
        obtain rfl : entry = other := by simpa using present
        rw [recorded, faithful.counted]

/-- Interning one entry after the other: the indices they get, and the table at
the end. -/
def internAll (key : E → K) : Table K E → List E → List Int32 × Table K E
  | table, [] => ([], table)
  | table, entry :: rest =>
    let first := table.intern (key entry) entry
    let later := internAll key first.2 rest
    (first.1 :: later.1, later.2)

theorem internAll_faithful {table : Table K E} (faithful : table.Faithful key) (items : List E) :
    (table.internAll key items).2.Faithful key := by
  induction items generalizing table with
  | nil => exact faithful
  | cons entry rest ih => exact ih (intern_faithful faithful entry)

theorem internAll_positioned {table : Table K E} (faithful : table.Faithful key)
    (positioned : table.Positioned key) (items : List E) :
    (table.internAll key items).2.Positioned key := by
  induction items generalizing table with
  | nil => exact positioned
  | cons entry rest ih =>
    exact ih (intern_faithful faithful entry) (intern_positioned faithful positioned entry)

theorem internAll_extends (table : Table K E) (key : E → K) (items : List E) :
    table.Extends (table.internAll key items).2 := by
  induction items generalizing table with
  | nil => exact .refl table
  | cons entry rest ih => exact (table.intern_extends (key entry) entry).trans (ih _)

/-- Whatever is interned later, the key of an item keeps the index it got. -/
theorem internAll_found (table : Table K E) (key : E → K) (items : List E) :
    List.Forall₂ (fun entry id => (table.internAll key items).2.lookup.lookup (key entry) = some id)
      items (table.internAll key items).1 := by
  induction items generalizing table with
  | nil => exact .nil
  | cons entry rest ih =>
    have recorded := table.intern_found (key entry) entry
    exact .cons (internAll_extends _ key rest _ _ recorded) (ih _)

theorem mem_internAll {table : Table K E} {items : List E} {entry : E}
    (member : entry ∈ (table.internAll key items).2.entries) : entry ∈ table.entries ∨ entry ∈ items := by
  induction items generalizing table with
  | nil => exact .inl member
  | cons first rest ih =>
    rcases ih member with earlier | later
    · rcases mem_intern earlier with before | rfl
      · exact .inl before
      · exact .inr List.mem_cons_self
    · exact .inr (List.mem_cons_of_mem _ later)

theorem mem_internAll_empty {items : List E} {entry : E}
    (member : entry ∈ (empty.internAll key items).2.entries) : entry ∈ items :=
  (mem_internAll member).resolve_left List.not_mem_nil

/-- The indices that the items got lead back to them if and only if their keys do. -/
theorem internAll_indexed_iff (table : Table K E) (key : E → K) (items : List E) :
    List.Forall₂ (fun entry id => index (table.internAll key items).2.entries id = some entry)
        items (table.internAll key items).1 ↔
      ∀ entry ∈ items, (table.internAll key items).2.resolve (key entry) = some entry := by
  have recorded := table.internAll_found key items
  constructor
  · intro indexed entry member
    obtain ⟨id, found, present⟩ :=
      exists_related (List.Forall₂.mp (fun _ _ => And.intro) recorded indexed) member
    rw [Table.resolve, found, Option.bind_some, present]
  · intro resolves
    refine ((List.forall₂_and_left _ _).mpr ⟨resolves, recorded⟩).imp ?_
    rintro entry id ⟨resolved, found⟩
    rwa [Table.resolve, found, Option.bind_some] at resolved

theorem injective_of_resolve {table : Table K E} {items : List E}
    (resolves : ∀ entry ∈ items, table.resolve (key entry) = some entry) :
    ∀ a ∈ items, ∀ b ∈ items, key a = key b → a = b := by
  intro a member b other same
  have resolved := resolves a member
  rw [same, resolves b other] at resolved
  exact (Option.some.inj resolved).symm

/-- The entry at position 2 ^ 31 would have a negative index. -/
theorem Positioned.fits {table : Table K E} (positioned : table.Positioned key)
    (resolves : ∀ entry ∈ table.entries, table.resolve (key entry) = some entry) :
    table.entries.length ≤ 2 ^ 31 := by
  by_contra many
  obtain ⟨entry, present⟩ : ∃ entry, table.entries[2 ^ 31]? = some entry :=
    ⟨_, List.getElem?_eq_getElem (Nat.lt_of_not_le many)⟩
  have resolved := resolves entry (List.mem_of_getElem? present)
  rw [Table.resolve, positioned.position present, Option.bind_some, index_overflow] at resolved
  cases resolved

section
variable [DecidableEq E] {items : List E}

/-- With keys that tell the items apart, each different item is entered once. -/
theorem internAll_entries (injective : ∀ a ∈ items, ∀ b ∈ items, key a = key b → a = b) :
    (empty.internAll key items).2.entries.Perm items.dedup := by
  have faithful : (empty.internAll key items).2.Faithful key := internAll_faithful empty_faithful items
  have positioned : (empty.internAll key items).2.Positioned key :=
    internAll_positioned empty_faithful empty_positioned items
  refine (List.perm_ext_iff_of_nodup positioned.distinct.of_map items.nodup_dedup).mpr fun entry => ?_
  rw [List.mem_dedup]
  constructor
  · exact mem_internAll_empty
  · intro member
    obtain ⟨id, found⟩ := exists_related (internAll_found empty key items) member
    obtain ⟨i, other, -, present, named⟩ := faithful.found found
    have known := List.mem_of_getElem? present
    rwa [injective other (mem_internAll_empty known) entry member named] at known

/-- Interned into an empty table, every item gets an index that leads back to it,
if and only if the keys tell the items apart and there are indices for all of the
different ones. -/
theorem internAll_resolves_iff (key : E → K) (items : List E) :
    List.Forall₂ (fun entry id => index (empty.internAll key items).2.entries id = some entry)
        items (empty.internAll key items).1 ↔
      (∀ a ∈ items, ∀ b ∈ items, key a = key b → a = b) ∧ items.dedup.length ≤ 2 ^ 31 := by
  rw [internAll_indexed_iff]
  constructor
  · intro resolves
    have injective := injective_of_resolve resolves
    have positioned : (empty.internAll key items).2.Positioned key :=
      internAll_positioned empty_faithful empty_positioned items
    refine ⟨injective, ?_⟩
    rw [← (internAll_entries injective).length_eq]
    exact positioned.fits fun entry member => resolves entry (mem_internAll_empty member)
  · rintro ⟨injective, fits⟩ entry member
    rw [← (internAll_entries injective).length_eq] at fits
    have faithful : (empty.internAll key items).2.Faithful key := internAll_faithful empty_faithful items
    obtain ⟨id, found⟩ := exists_related (internAll_found empty key items) member
    obtain ⟨other, known, -, resolved, named⟩ := faithful.resolve fits found
    rw [resolved, injective other (mem_internAll_empty known) entry member named]

end

end Table

end Hollywood
