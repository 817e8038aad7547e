import Mathlib.Data.List.Basic
import Mathlib.Data.List.Pairwise
import Mathlib.Data.List.TakeWhile
import Mathlib.Order.Lattice

/-!
# Ordered maps

A finite map held as its entries in strictly increasing key order, the order in
which it is iterated.
-/
namespace Okoscope.Lib

open List

structure OrderedMap (κ ν : Type) [LinearOrder κ] where
  entries : List (κ × ν)
  sorted : entries.Pairwise fun a b => a.1 < b.1

namespace OrderedMap

variable {κ ν : Type} [LinearOrder κ]

instance [DecidableEq ν] : DecidableEq (OrderedMap κ ν) := fun a b =>
  decidable_of_iff (a.entries = b.entries) ⟨fun h => by cases a; cases b; cases h; rfl, fun h => by rw [h]⟩

def empty : OrderedMap κ ν := ⟨[], .nil⟩

def keys (m : OrderedMap κ ν) : List κ := m.entries.map Prod.fst

def values (m : OrderedMap κ ν) : List ν := m.entries.map Prod.snd

def lookup (m : OrderedMap κ ν) (k : κ) : Option ν := (m.entries.find? fun e => e.1 = k).map Prod.snd

/-- Puts the value at the key, replacing what was there. -/
def insert (m : OrderedMap κ ν) (k : κ) (v : ν) : OrderedMap κ ν where
  entries := m.entries.filter (fun e => e.1 < k) ++ (k, v) :: m.entries.filter (fun e => k < e.1)
  sorted := by
    rw [pairwise_append, pairwise_cons]
    refine ⟨m.sorted.filter _, ⟨fun e he => by simpa using (mem_filter.mp he).2, m.sorted.filter _⟩, ?_⟩
    intro a ha b hb
    have hak : a.1 < k := by simpa using (mem_filter.mp ha).2
    rcases mem_cons.mp hb with rfl | hb
    · exact hak
    · exact lt_trans hak (by simpa using (mem_filter.mp hb).2)

def erase (m : OrderedMap κ ν) (k : κ) : OrderedMap κ ν where
  entries := m.entries.filter fun e => e.1 ≠ k
  sorted := m.sorted.filter _

variable {k : κ} {m : OrderedMap κ ν}

theorem lookup_eq_none_iff : m.lookup k = none ↔ k ∉ m.keys := by
  simp only [lookup, keys, Option.map_eq_none_iff, find?_eq_none, decide_eq_true_eq, mem_map]
  constructor
  · rintro h ⟨e, he, hk⟩
    exact h e he hk
  · intro h e he hk
    exact h ⟨e, he, hk⟩

variable {v : ν}

theorem lookup_of_mem (h : (k, v) ∈ m.entries) : m.lookup k = some v := by
  obtain ⟨entries, sorted⟩ := m
  simp only [lookup] at h ⊢
  induction entries with
  | nil => cases h
  | cons e _ ih =>
    obtain ⟨hlt, hrest⟩ := pairwise_cons.mp sorted
    rcases mem_cons.mp h with rfl | h
    · rw [find?_cons_of_pos (by simp), Option.map_some]
    · have hne : e.1 ≠ k := ne_of_lt (hlt _ h)
      rw [find?_cons_of_neg (by simpa using hne)]
      exact ih hrest h

theorem erase_of_lookup_eq_none (h : m.lookup k = none) : m.erase k = m := by
  obtain ⟨entries, _⟩ := m
  have hentries : entries.filter (fun e => e.1 ≠ k) = entries := by
    rw [filter_eq_self]
    intro e he
    have hne : e.1 ≠ k := fun hk => lookup_eq_none_iff.mp h (hk ▸ mem_map_of_mem he)
    simpa using hne
  simp only [erase, hentries]

theorem entries_insert_of_gt (v : ν) (h : ∀ k' ∈ m.keys, k' < k) : (m.insert k v).entries = m.entries ++ [(k, v)] := by
  have hlt : ∀ e ∈ m.entries, e.1 < k := fun e he => h e.1 (mem_map_of_mem he)
  have hbelow : m.entries.filter (fun e => e.1 < k) = m.entries := by
    rw [filter_eq_self]
    intro e he
    simpa using hlt e he
  have habove : m.entries.filter (fun e => k < e.1) = [] := by
    rw [filter_eq_nil_iff]
    intro e he
    simpa using le_of_lt (hlt e he)
  show m.entries.filter (fun e => e.1 < k) ++ (k, v) :: m.entries.filter (fun e => k < e.1) = _
  rw [hbelow, habove]

theorem mem_entries_insert {e : κ × ν} : e ∈ (m.insert k v).entries ↔ e = (k, v) ∨ e ∈ m.entries ∧ e.1 ≠ k := by
  show e ∈ m.entries.filter (fun e => e.1 < k) ++ (k, v) :: m.entries.filter (fun e => k < e.1) ↔ _
  rw [mem_append, mem_cons, mem_filter, mem_filter, decide_eq_true_eq, decide_eq_true_eq]
  constructor
  · rintro (⟨hmem, hlt⟩ | rfl | ⟨hmem, hlt⟩)
    · exact .inr ⟨hmem, hlt.ne⟩
    · exact .inl rfl
    · exact .inr ⟨hmem, hlt.ne'⟩
  · rintro (rfl | ⟨hmem, hne⟩)
    · exact .inr (.inl rfl)
    · rcases lt_or_gt_of_ne hne with hlt | hlt
      · exact .inl ⟨hmem, hlt⟩
      · exact .inr (.inr ⟨hmem, hlt⟩)

theorem mem_entries_of_lookup (h : m.lookup k = some v) : (k, v) ∈ m.entries := by
  obtain ⟨e, he, rfl⟩ := Option.map_eq_some_iff.mp h
  have hkey : e.1 = k := by simpa using find?_some he
  rw [← hkey]
  exact mem_of_find?_eq_some he

/-- What holds of every entry and the ones after it is what holds of every two entries in the order of their
keys. -/
theorem pairwise_entries_iff {r : κ × ν → κ × ν → Prop} :
    m.entries.Pairwise r ↔ ∀ a ∈ m.entries, ∀ b ∈ m.entries, a.1 < b.1 → r a b := by
  obtain ⟨entries, sorted⟩ := m
  induction entries with
  | nil => simp
  | cons e _ ih =>
    obtain ⟨hlt, hsorted⟩ := pairwise_cons.mp sorted
    rw [pairwise_cons, ih hsorted]
    constructor
    · rintro ⟨hfirst, hrest⟩ a ha b hb hab
      rcases mem_cons.mp ha with rfl | ha'
      · rcases mem_cons.mp hb with rfl | hb'
        · exact absurd hab (lt_irrefl _)
        · exact hfirst b hb'
      · rcases mem_cons.mp hb with rfl | hb'
        · exact absurd hab (lt_asymm (hlt a ha'))
        · exact hrest a ha' b hb' hab
    · intro h
      constructor
      · exact fun b hb => h e mem_cons_self b (mem_cons_of_mem _ hb) (hlt b hb)
      · exact fun a ha b hb => h a (mem_cons_of_mem _ ha) b (mem_cons_of_mem _ hb)

/-! ## Taking entries from the front -/

section
variable {α : Type} {p : α → Bool} {l : List α}

/-- Dropping from the front as long as the predicate holds drops everything that satisfies it, exactly if
nothing that satisfies it comes after something that does not. -/
theorem forall_mem_dropWhile_iff : (∀ a ∈ l.dropWhile p, p a = false) ↔ l.Pairwise fun a b => p b → p a := by
  induction l with
  | nil => simp
  | cons a l ih =>
    rw [pairwise_cons, dropWhile_cons]
    cases ha : p a with
    | true => simpa using ih
    | false =>
      simp only [Bool.false_eq_true, if_false, forall_mem_cons, ha, true_and, imp_false, Bool.not_eq_true]
      constructor
      · intro h
        have hnone : ∀ b ∈ l, ∀ c ∈ l, p c → p b := by
          intro b _ c hc hpc
          rw [h c hc] at hpc
          cases hpc
        exact ⟨h, List.Pairwise.imp_of_mem (fun hb hc _ => hnone _ hb _ hc) (pairwise_of_forall fun _ _ => trivial)⟩
      · exact fun h => h.1

theorem dropWhile_eq_filter_iff : l.dropWhile p = l.filter (fun a => !p a) ↔ ∀ a ∈ l.dropWhile p, p a = false := by
  constructor
  · intro h a ha
    rw [h, mem_filter] at ha
    simpa using ha.2
  intro h
  conv_rhs => rw [← takeWhile_append_dropWhile (p := p) (l := l), filter_append]
  have htake : (l.takeWhile p).filter (fun a => !p a) = [] := by
    rw [filter_eq_nil_iff]
    intro a ha
    simp [mem_takeWhile_imp ha]
  have hdrop : (l.dropWhile p).filter (fun a => !p a) = l.dropWhile p := by
    rw [filter_eq_self]
    intro a ha
    simp [h a ha]
  rw [htake, hdrop, nil_append]

theorem takeWhile_eq_filter (h : ∀ a ∈ l.dropWhile p, p a = false) : l.takeWhile p = l.filter p := by
  conv_rhs => rw [← takeWhile_append_dropWhile (p := p) (l := l), filter_append]
  have htake : (l.takeWhile p).filter p = l.takeWhile p := by
    rw [filter_eq_self]
    exact fun a ha => mem_takeWhile_imp ha
  have hdrop : (l.dropWhile p).filter p = [] := by
    rw [filter_eq_nil_iff]
    intro a ha
    simp [h a ha]
  rw [htake, hdrop, append_nil]

end

/-- Drops the first entries, as long as their keys satisfy the predicate. -/
def dropWhile (m : OrderedMap κ ν) (p : κ → Bool) : OrderedMap κ ν where
  entries := m.entries.dropWhile fun e => p e.1
  sorted := m.sorted.sublist (dropWhile_sublist _)

end OrderedMap

end Okoscope.Lib
