import Mathlib.Algebra.GroupWithZero.Nat
import Mathlib.Algebra.Order.BigOperators.Group.List
import Mathlib.Algebra.Order.Group.Nat
import Mathlib.Data.Finset.Card
import Mathlib.Data.List.AList

/-!
# Finite maps

Hash maps as association lists without repeated keys. The total of a measure over a map
says how much its entries amount to; changing one entry changes it by the difference.
-/
namespace Okoscope.Lib.FiniteMap

open List

variable {κ ν : Type} [DecidableEq κ]

abbrev Map (κ ν : Type) := AList fun _ : κ => ν

def size (m : Map κ ν) : Nat := m.entries.length

/-- Changes the value of a key that is there. -/
def adjust (m : Map κ ν) (k : κ) (f : ν → ν) : Map κ ν :=
  match m.lookup k with
  | some v => m.insert k (f v)
  | none => m

variable {m : Map κ ν} {k : κ} {v : ν} {l : List (κ × ν)}

theorem adjust_of_lookup (h : m.lookup k = some v) (f : ν → ν) : adjust m k f = m.insert k (f v) := by
  rw [adjust, h]

/-! ## Lookups -/

variable {k' : κ}

theorem lookup_insert_eq : (m.insert k v).lookup k' = if k' = k then some v else m.lookup k' := by
  by_cases h : k' = k
  · rw [if_pos h, h, AList.lookup_insert]
  · rw [if_neg h, AList.lookup_insert_ne h]

theorem lookup_erase_eq : (m.erase k).lookup k' = if k' = k then none else m.lookup k' := by
  by_cases h : k' = k
  · rw [if_pos h, h, AList.lookup_erase]
  · rw [if_neg h, AList.lookup_erase_ne h]

theorem lookup_insert_some {v' : ν} (h : (m.insert k v').lookup k' = some v) :
    k' = k ∧ v = v' ∨ k' ≠ k ∧ m.lookup k' = some v := by
  rw [lookup_insert_eq] at h
  split at h
  next hk => exact .inl ⟨hk, (Option.some.inj h).symm⟩
  next hk => exact .inr ⟨hk, h⟩

theorem lookup_erase_some (h : (m.erase k).lookup k' = some v) : k' ≠ k ∧ m.lookup k' = some v := by
  rw [lookup_erase_eq] at h
  split at h
  · cases h
  next hk => exact ⟨hk, h⟩

theorem lookup_adjust {f : ν → ν} : (adjust m k f).lookup k' = if k' = k then (m.lookup k).map f else m.lookup k' := by
  unfold adjust
  split
  next hv => rw [lookup_insert_eq, hv, Option.map_some]
  next hnone =>
    by_cases h : k' = k
    · rw [if_pos h, h, hnone, Option.map_none]
    · rw [if_neg h]

theorem mem_entries_iff {e : (_ : κ) × ν} : e ∈ m.entries ↔ m.lookup e.1 = some e.2 :=
  AList.mem_lookup_iff.symm

theorem erase_insert : (m.insert k v).erase k = m.erase k :=
  AList.ext (kerase_cons_eq rfl)

theorem insert_erase (m : Map κ ν) (k : κ) (v : ν) : (m.erase k).insert k v = m.insert k v := by
  apply AList.ext
  rw [AList.entries_insert_of_notMem fun h => (AList.mem_erase.mp h).1 rfl, AList.entries_insert]
  rfl

/-- Puts all entries of a list into a map, one after the other. -/
def insertAll (m : Map κ ν) (l : List (κ × ν)) : Map κ ν := l.foldl (fun m e => m.insert e.1 e.2) m

/-! ## Totals -/

/-- The measure of all entries. -/
def total (f : κ → ν → Nat) (m : Map κ ν) : Nat := (m.entries.map fun e => f e.1 e.2).sum

/-- The measure of the entry of a key, zero if there is none. -/
def part (f : κ → ν → Nat) (m : Map κ ν) (k : κ) : Nat := (m.lookup k).elim 0 (f k)

section
variable (f : κ → ν → Nat)

theorem sum_kerase {l : List ((_ : κ) × ν)} (h : l.NodupKeys) :
    ((l.kerase k).map fun e => f e.1 e.2).sum + (l.dlookup k).elim 0 (f k) = (l.map fun e => f e.1 e.2).sum := by
  induction l with
  | nil => rfl
  | cons e l ih =>
    obtain ⟨k', v⟩ := e
    obtain ⟨-, hl⟩ := nodupKeys_cons.mp h
    by_cases hk : k = k'
    · subst hk
      have herase : List.kerase k (⟨k, v⟩ :: l) = l := kerase_cons_eq rfl
      rw [herase, dlookup_cons_eq, Option.elim_some, map_cons, sum_cons, Nat.add_comm]
    · rw [kerase_cons_ne hk, dlookup_cons_ne l ⟨k', v⟩ hk, map_cons, map_cons, sum_cons, sum_cons, Nat.add_assoc, ih hl]

theorem total_erase (m : Map κ ν) (k : κ) : total f (m.erase k) + part f m k = total f m :=
  sum_kerase f m.nodupKeys

theorem total_insert (m : Map κ ν) (k : κ) (v : ν) : total f (m.insert k v) + part f m k = total f m + f k v := by
  have herase := total_erase f m k
  have hinsert : total f (m.insert k v) = f k v + total f (m.erase k) := by
    rfl
  omega

theorem part_le_total (m : Map κ ν) (k : κ) : part f m k ≤ total f m := by
  have h := total_erase f m k
  omega

theorem part_erase_ne (h : k' ≠ k) : part f (m.erase k) k' = part f m k' := by
  rw [part, lookup_erase_eq, if_neg h, part]

theorem part_add_part_le_total (m : Map κ ν) (h : k' ≠ k) : part f m k + part f m k' ≤ total f m := by
  have herase := total_erase f m k
  have hrest := part_le_total f (m.erase k) k'
  rw [part_erase_ne f h] at hrest
  omega

theorem part_of_lookup (h : m.lookup k = some v) : part f m k = f k v := by
  rw [part, h, Option.elim_some]

theorem part_of_none (h : m.lookup k = none) : part f m k = 0 := by
  rw [part, h, Option.elim_none]

theorem part_insert : part f (m.insert k v) k' = if k' = k then f k v else part f m k' := by
  unfold part
  rw [lookup_insert_eq]
  by_cases h : k' = k
  · rw [if_pos h, if_pos h, Option.elim_some, h]
  · rw [if_neg h, if_neg h]

end

omit [DecidableEq κ] in
theorem size_eq_total : size m = total (fun _ _ => 1) m := by
  simp [size, total]

theorem size_insert_of_none (h : m.lookup k = none) (v : ν) : size (m.insert k v) = size m + 1 := by
  have htotal := total_insert (fun _ _ => 1) m k v
  rw [part_of_none _ h] at htotal
  rw [size_eq_total, size_eq_total]
  exact htotal

theorem size_insert_of_lookup (h : m.lookup k = some v) {v' : ν} : size (m.insert k v') = size m := by
  have htotal := total_insert (fun _ _ => 1) m k v'
  rw [part_of_lookup _ h] at htotal
  rw [size_eq_total, size_eq_total]
  omega

theorem size_insert_le (m : Map κ ν) (k : κ) (v : ν) : size (m.insert k v) ≤ size m + 1 := by
  cases h : m.lookup k with
  | none => exact (size_insert_of_none h v).le
  | some => exact (size_insert_of_lookup h).le.trans (Nat.le_succ _)

theorem size_adjust {f : ν → ν} : size (adjust m k f) = size m := by
  unfold adjust
  split
  next hv => exact size_insert_of_lookup hv
  · rfl

theorem size_erase_of_lookup (h : m.lookup k = some v) : size (m.erase k) + 1 = size m := by
  have htotal := total_erase (fun _ _ => 1) m k
  rw [part_of_lookup _ h] at htotal
  rw [size_eq_total, size_eq_total]
  exact htotal

theorem size_le_card {s : Finset κ} (h : ∀ k ∈ m.keys, k ∈ s) : size m ≤ s.card := by
  have hlength : m.keys.length = size m := length_map _
  rw [← hlength, ← toFinset_card_of_nodup m.keys_nodup]
  exact Finset.card_le_card fun k hk => h k (mem_toFinset.mp hk)

theorem size_erase_le (m : Map κ ν) : size (m.erase k) ≤ size m := by
  have htotal := total_erase (fun _ _ => 1) m k
  rw [size_eq_total, size_eq_total]
  omega

/-! ## Changing all values -/

/-- Each value changed, or its entry dropped. -/
def filterMapEntries (g : κ → ν → Option ν) (l : List ((_ : κ) × ν)) : List ((_ : κ) × ν) :=
  l.filterMap fun e => (g e.1 e.2).map (Sigma.mk e.1)

omit [DecidableEq κ] in
theorem keys_filterMapEntries {g : κ → ν → Option ν} {l : List ((_ : κ) × ν)} :
    (filterMapEntries g l).keys.Sublist l.keys := by
  induction l with
  | nil => exact .refl _
  | cons e l ih =>
    cases hg : g e.1 e.2 with
    | none =>
      have hcons : filterMapEntries g (e :: l) = filterMapEntries g l := by
        simp [filterMapEntries, hg]
      rw [hcons]
      exact ih.cons _
    | some v =>
      have hcons : filterMapEntries g (e :: l) = ⟨e.1, v⟩ :: filterMapEntries g l := by
        simp [filterMapEntries, hg]
      rw [hcons]
      exact ih.cons_cons _

def filterMap (g : κ → ν → Option ν) (m : Map κ ν) : Map κ ν where
  entries := filterMapEntries g m.entries
  nodupKeys := keys_filterMapEntries.nodup m.nodupKeys

omit [DecidableEq κ] in
theorem size_filterMap_le {g : κ → ν → Option ν} : size (filterMap g m) ≤ size m :=
  length_filterMap_le _ _

theorem lookup_filterMap {g : κ → ν → Option ν} : (filterMap g m).lookup k = (m.lookup k).bind (g k) := by
  refine Option.ext fun v => ?_
  rw [← Option.mem_def, AList.mem_lookup_iff, Option.bind_eq_some_iff]
  show ⟨k, v⟩ ∈ filterMapEntries g m.entries ↔ _
  rw [filterMapEntries, mem_filterMap]
  constructor
  · rintro ⟨e, he, hv⟩
    obtain ⟨_, hw, hsame⟩ := Option.map_eq_some_iff.mp hv
    cases hsame
    exact ⟨e.2, mem_entries_iff.mp he, hw⟩
  · rintro ⟨w, hw, hv⟩
    exact ⟨⟨k, w⟩, mem_entries_iff.mpr hw, by rw [hv]; rfl⟩

omit [DecidableEq κ] in
def mapValues (g : ν → ν) (m : Map κ ν) : Map κ ν := filterMap (fun _ v => some (g v)) m

variable {g : ν → ν}

theorem lookup_mapValues : (mapValues g m).lookup k = (m.lookup k).map g := by
  rw [mapValues, lookup_filterMap]
  cases m.lookup k <;> rfl

omit [DecidableEq κ] in
theorem entries_mapValues : (mapValues g m).entries = m.entries.map fun e => ⟨e.1, g e.2⟩ := by
  simp [mapValues, filterMap, filterMapEntries]

omit [DecidableEq κ] in
theorem total_mapValues {f : κ → ν → Nat} : total f (mapValues g m) = total (fun k v => f k (g v)) m := by
  rw [total, entries_mapValues, map_map]
  rfl

omit [DecidableEq κ] in
theorem size_mapValues : size (mapValues g m) = size m := by
  rw [size, entries_mapValues, length_map, size]

/-! ## Iteration -/

/-- The order in which a hash map happens to be iterated. -/
structure Shuffle (α : Type) where
  apply : List α → List α
  perm : ∀ l, (apply l).Perm l

/-- The order that the entries are kept in. -/
def Shuffle.asIs {α : Type} : Shuffle α := ⟨id, fun l => .refl l⟩

end Okoscope.Lib.FiniteMap
