import Hollywood.Remote.RoundTrip

/-! The tables of PIDs that a stream writer fills while it packs a batch. A PID is
known by the hash of its address and its id in a row, so two PIDs share an entry
whenever an id takes over where the shorter address ends. -/
namespace Hollywood

theorem PID.equals_iff {pid other : PID} : pid.equals other = true ↔ pid = other := by
  cases pid
  cases other
  simp [PID.equals]

namespace Remote
variable {P : Type} {hash : List UInt8 → UInt64}

/-- One PID after the other through `lookupPIDs`: the indices returned, and the map
and the slice at the end. -/
def lookupAll (hash : List UInt8 → UInt64) : Table UInt64 PID → List PID → List Int32 × Table UInt64 PID
  | pids, [] => ([], pids)
  | pids, pid :: rest =>
    let first := lookupPIDs hash pids (some pid)
    let later := lookupAll hash first.2 rest
    (first.1 :: later.1, later.2)

theorem lookupAll_eq_internAll (hash : List UInt8 → UInt64) (table : Table UInt64 PID) (pids : List PID) :
    lookupAll hash table pids = table.internAll (PID.lookupKey hash) pids := by
  induction pids generalizing table with
  | nil => rfl
  | cons pid rest ih => rw [lookupAll, ih, Table.internAll, lookupPIDs]

/-- Every index returned along the way leads to an equal PID, in the slice of that
moment and in the later ones. -/
def Resolves (hash : List UInt8 → UInt64) (pids : List PID) : Prop :=
  ∀ earlier later, pids = earlier ++ later →
    List.Forall₂ (fun pid id => ∃ entry,
      index (lookupAll hash .empty earlier).2.entries id = some entry ∧ entry.equals pid = true)
      earlier (lookupAll hash .empty earlier).1

/-- Two PIDs get the same index only if they are equal. -/
def Separates (hash : List UInt8 → UInt64) (pids : List PID) : Prop :=
  ∀ p q id, (p, id) ∈ pids.zip (lookupAll hash .empty pids).1 →
    (q, id) ∈ pids.zip (lookupAll hash .empty pids).1 → p.equals q = true

/-- The byte strings of the given PIDs, if different, have different hashes. -/
def CollisionFree (hash : List UInt8 → UInt64) (pids : List PID) : Prop :=
  ∀ p ∈ pids, ∀ q ∈ pids, hash p.key = hash q.key → p.key = q.key

instance (hash : List UInt8 → UInt64) (pids : List PID) : Decidable (CollisionFree hash pids) :=
  inferInstanceAs (Decidable (∀ p ∈ pids, ∀ q ∈ pids, hash p.key = hash q.key → p.key = q.key))

section
variable {pids : List PID}

theorem resolved_iff (hash : List UInt8 → UInt64) (pids : List PID) :
    List.Forall₂ (fun pid id => ∃ entry,
      index (lookupAll hash .empty pids).2.entries id = some entry ∧ entry.equals pid = true)
      pids (lookupAll hash .empty pids).1 ↔
    (∀ p ∈ pids, ∀ q ∈ pids, p.lookupKey hash = q.lookupKey hash → p = q) ∧
      pids.dedup.length ≤ 2 ^ 31 := by
  simp only [PID.equals_iff, exists_eq_right, lookupAll_eq_internAll]
  exact Table.internAll_resolves_iff _ _

/-- What the slice at the end tells about all PIDs, the slice of an earlier moment
tells about the PIDs up to then. -/
theorem resolves_iff (hash : List UInt8 → UInt64) (pids : List PID) :
    Resolves hash pids ↔
      (∀ p ∈ pids, ∀ q ∈ pids, p.lookupKey hash = q.lookupKey hash → p = q) ∧
        pids.dedup.length ≤ 2 ^ 31 := by
  constructor
  · intro resolves
    exact (resolved_iff hash pids).mp (resolves pids [] (List.append_nil pids).symm)
  · rintro ⟨injective, fits⟩ earlier later rfl
    have within : earlier ⊆ earlier ++ later := List.subset_append_left earlier later
    refine (resolved_iff hash earlier).mpr ⟨?_, ?_⟩
    · intro p member q other
      exact injective p (within member) q (within other)
    · have fewer : earlier.dedup ⊆ (earlier ++ later).dedup := by
        intro pid member
        exact List.mem_dedup.mpr (within (List.mem_dedup.mp member))
      exact (List.subperm_of_subset earlier.nodup_dedup fewer).length_le.trans fits

theorem separates_of_resolves (resolves : Resolves hash pids) : Separates hash pids := by
  have resolved := resolves pids [] (List.append_nil pids).symm
  intro p q id first second
  obtain ⟨entry, indexed, same⟩ := List.forall₂_zip resolved first
  obtain ⟨other, again, sameToo⟩ := List.forall₂_zip resolved second
  rw [PID.equals_iff] at same sameToo ⊢
  rw [← same, ← sameToo]
  exact Option.some.inj (indexed.symm.trans again)

theorem CollisionFree.lookupKey_iff (collisionFree : CollisionFree hash pids) (member : p ∈ pids)
    (other : q ∈ pids) : p.lookupKey hash = q.lookupKey hash ↔ p.address ++ p.id = q.address ++ q.id := by
  rw [← PID.key_eq_iff]
  exact ⟨collisionFree p member q other, congrArg hash⟩

end

/-- With a hash that keeps their byte strings apart, the PIDs of a sequence are
told apart by the tables if and only if no two of them have the same address and id
in a row, and there are no more of them than indices. -/
theorem tables_tell_apart_iff (hash : List UInt8 → UInt64) (pids : List PID)
    (collisionFree : CollisionFree hash pids) :
    Resolves hash pids ∧ Separates hash pids ↔
      (∀ p ∈ pids, ∀ q ∈ pids, p.address ++ p.id = q.address ++ q.id → p = q) ∧
        pids.dedup.length ≤ 2 ^ 31 := by
  have keys : (∀ p ∈ pids, ∀ q ∈ pids, p.lookupKey hash = q.lookupKey hash → p = q) ↔
      ∀ p ∈ pids, ∀ q ∈ pids, p.address ++ p.id = q.address ++ q.id → p = q := by
    refine forall₂_congr fun p member => forall₂_congr fun q other => ?_
    rw [collisionFree.lookupKey_iff member other]
  rw [← keys, ← resolves_iff]
  constructor
  · rintro ⟨resolves, -⟩
    exact resolves
  · intro resolves
    exact ⟨resolves, separates_of_resolves resolves⟩

def oneTwice : List PID := [⟨"h:1", "a"⟩, ⟨"h:2", "a"⟩, ⟨"h:1", "a"⟩]

theorem tables_tell_apart_one_twice :
    CollisionFree polynomial oneTwice ∧ (lookupAll polynomial .empty oneTwice).1 = [0, 1, 0] ∧
      Resolves polynomial oneTwice ∧ Separates polynomial oneTwice := by
  have collisionFree : CollisionFree polynomial oneTwice := by decide +kernel
  refine ⟨collisionFree, by decide +kernel, ?_⟩
  exact (tables_tell_apart_iff polynomial oneTwice collisionFree).mpr ⟨by decide +kernel, by decide⟩

/-- Two PIDs whose addresses end at different places of one byte string. -/
def runTogether : List PID := [⟨"a", "bc"⟩, ⟨"ab", "c"⟩]

theorem runTogether_share_entry :
    CollisionFree polynomial runTogether ∧
      (lookupAll polynomial .empty runTogether).1 = [0, 0] ∧
      (lookupAll polynomial .empty runTogether).2.entries = [⟨"a", "bc"⟩] ∧
      index (lookupAll polynomial .empty runTogether).2.entries 0 = some ⟨"a", "bc"⟩ ∧
      PID.equals ⟨"a", "bc"⟩ ⟨"ab", "c"⟩ = false ∧
      ¬ Resolves polynomial runTogether ∧ ¬ Separates polynomial runTogether := by
  refine ⟨by decide +kernel, by decide +kernel, by decide +kernel, by decide +kernel, by decide, ?_, ?_⟩
  · intro resolves
    have injective := ((resolves_iff polynomial runTogether).mp resolves).1
    revert injective
    decide +kernel
  · intro separates
    have same := separates ⟨"a", "bc"⟩ ⟨"ab", "c"⟩ 0 (by decide +kernel) (by decide +kernel)
    revert same
    decide

end Remote

end Hollywood
