import Mathlib.Data.List.Nodup
import Okoscope.Lib.OrderedMap

/-!
# Ledgers of numbered deliveries

What a sender has produced under increasing numbers, and which numbers were
acknowledged. A map tracks the ledger when it holds exactly the deliveries that
are not acknowledged yet, in order.
-/
namespace Okoscope.Lib

open List

structure Ledger (κ ν : Type) where
  produced : List (κ × ν)
  acknowledged : List κ

namespace Ledger

variable {κ ν : Type} [LinearOrder κ]

def outstanding (l : Ledger κ ν) : List (κ × ν) := l.produced.filter fun e => e.1 ∉ l.acknowledged

/-- The map holds the outstanding deliveries of the ledger. -/
structure Tracks (m : OrderedMap κ ν) (l : Ledger κ ν) : Prop where
  entries : m.entries = l.outstanding
  increasing : l.produced.Pairwise fun a b => a.1 < b.1
  known : ∀ k ∈ l.acknowledged, k ∈ l.produced.map Prod.fst
  once : l.acknowledged.Nodup

theorem tracks_empty : Tracks (OrderedMap.empty : OrderedMap κ ν) ⟨[], []⟩ where
  entries := rfl
  increasing := .nil
  known := nofun
  once := .nil

section
variable {m : OrderedMap κ ν} {l : Ledger κ ν}

theorem Tracks.mem_keys_iff (h : Tracks m l) {k : κ} :
    k ∈ m.keys ↔ k ∈ l.produced.map Prod.fst ∧ k ∉ l.acknowledged := by
  rw [OrderedMap.keys, h.entries]
  simp only [outstanding, mem_map, mem_filter, decide_eq_true_eq]
  constructor
  · rintro ⟨e, ⟨he, hk⟩, rfl⟩
    exact ⟨⟨e, he, rfl⟩, hk⟩
  · rintro ⟨⟨e, he, rfl⟩, hk⟩
    exact ⟨e, ⟨he, hk⟩, rfl⟩

/-- Producing under a number above all earlier ones. -/
theorem Tracks.produce (h : Tracks m l) {k : κ} (v : ν) (hk : ∀ k' ∈ l.produced.map Prod.fst, k' < k) :
    Tracks (m.insert k v) ⟨l.produced ++ [(k, v)], l.acknowledged⟩ where
  entries := by
    have hkeys : ∀ k' ∈ m.keys, k' < k := fun k' hk' => hk k' (h.mem_keys_iff.mp hk').1
    have hfresh : k ∉ l.acknowledged := fun hack => lt_irrefl k (hk k (h.known k hack))
    rw [OrderedMap.entries_insert_of_gt v hkeys, h.entries]
    simp [outstanding, hfresh]
  increasing := by
    rw [pairwise_append]
    refine ⟨h.increasing, pairwise_singleton _ _, ?_⟩
    intro a ha b hb
    rw [mem_singleton] at hb
    rw [hb]
    exact hk a.1 (mem_map_of_mem ha)
  known := fun k' hk' => by
    rw [map_append]
    exact mem_append_left _ (h.known k' hk')
  once := h.once

theorem Tracks.acknowledge (h : Tracks m l) {k : κ} (hk : k ∈ m.keys) :
    Tracks (m.erase k) ⟨l.produced, l.acknowledged ++ [k]⟩ where
  entries := by
    show m.entries.filter (fun e => e.1 ≠ k) = _
    rw [h.entries]
    simp only [outstanding, filter_filter]
    simp [and_comm]
  increasing := h.increasing
  known := fun k' hk' => by
    rcases mem_append.mp hk' with hk' | hk'
    · exact h.known k' hk'
    · rw [mem_singleton.mp hk']
      exact (h.mem_keys_iff.mp hk).1
  once := by
    rw [nodup_append]
    refine ⟨h.once, nodup_singleton k, ?_⟩
    intro a ha b hb
    rw [mem_singleton.mp hb]
    rintro rfl
    exact (h.mem_keys_iff.mp hk).2 ha

end

end Ledger

end Okoscope.Lib
