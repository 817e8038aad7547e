import Mathlib.Data.List.Nodup

/-!
# Tables

A table is the list of its rows, and a column with a unique index has no value
twice. An update rewrites the rows that meet a condition and leaves the others
alone; an insert adds a row at the end.
-/
namespace Okoscope.Lib.Table

open List

variable {ρ κ : Type}

theorem mem_append_singleton {rows : List ρ} {row r : ρ} : r ∈ rows ++ [row] ↔ r ∈ rows ∨ r = row := by
  rw [mem_append, mem_singleton]

/-- Rewrites the rows that meet the condition. -/
def updateWhere (cond : ρ → Bool) (f : ρ → ρ) (rows : List ρ) : List ρ :=
  rows.map fun r => if cond r then f r else r

/-- The row with the given key. -/
def get? [DecidableEq κ] (key : ρ → κ) (k : κ) (rows : List ρ) : Option ρ := rows.find? fun r => key r = k

/-- Inserts a row, or replaces the row with its key. -/
def put [DecidableEq κ] (key : ρ → κ) (row : ρ) (rows : List ρ) : List ρ :=
  rows.filter (fun r => key r ≠ key row) ++ [row]

/-- Inserts a row, or merges it into the row with its key. -/
def upsert [DecidableEq κ] (key : ρ → κ) (merge : ρ → ρ → ρ) (row : ρ) (rows : List ρ) : List ρ :=
  if rows.any fun r => key r = key row then updateWhere (fun r => key r = key row) (merge row) rows
  else rows ++ [row]

section
variable {cond : ρ → Bool} {f : ρ → ρ} {key : ρ → κ} {rows : List ρ}

variable {r : ρ}

theorem mem_updateWhere : r ∈ updateWhere cond f rows ↔ ∃ s ∈ rows, (if cond s then f s else s) = r := by
  simp [updateWhere, mem_map]

variable {p : ρ → Prop}

theorem forall_mem_updateWhere (h : ∀ r ∈ rows, p r)
    (hf : ∀ r ∈ rows, cond r → p (f r)) : ∀ r ∈ updateWhere cond f rows, p r := by
  intro r hr
  obtain ⟨s, hs, rfl⟩ := mem_updateWhere.mp hr
  by_cases hc : cond s
  · rw [if_pos hc]
    exact hf s hs hc
  · rw [if_neg hc]
    exact h s hs

theorem map_key_updateWhere (hkey : ∀ r, key (f r) = key r) : (updateWhere cond f rows).map key = rows.map key := by
  rw [updateWhere, map_map]
  apply map_congr_left
  intro r _
  show key (if cond r then f r else r) = key r
  split
  · exact hkey r
  · rfl

variable {k : κ}

/-- What the rows of a key satisfy after an update that keeps the keys. -/
theorem forall_keyed_updateWhere (hkey : ∀ r, key (f r) = key r) :
    (∀ r ∈ updateWhere cond f rows, key r = k → p r) ↔ ∀ r ∈ rows, key r = k → p (if cond r then f r else r) := by
  have hsame : ∀ r, key (if cond r then f r else r) = key r := by
    intro r
    split
    · exact hkey r
    · rfl
  simp [updateWhere, hsame]

theorem exists_keyed_updateWhere (hkey : ∀ r, key (f r) = key r) :
    (∃ r ∈ updateWhere cond f rows, key r = k) ↔ ∃ r ∈ rows, key r = k := by
  rw [← mem_map, map_key_updateWhere hkey, mem_map]

variable {new : List ρ}

theorem forall_keyed_append (h : ∀ r ∈ new, key r ≠ k) :
    (∀ r ∈ rows ++ new, key r = k → p r) ↔ ∀ r ∈ rows, key r = k → p r := by
  rw [forall_mem_append]
  exact and_iff_left fun r hr hk => absurd hk (h r hr)

theorem exists_keyed_append (h : ∀ r ∈ new, key r ≠ k) : (∃ r ∈ rows ++ new, key r = k) ↔ ∃ r ∈ rows, key r = k := by
  have hnone : k ∉ new.map key := by simpa using h
  rw [← mem_map, map_append, mem_append, or_iff_left hnone, mem_map]

theorem eq_of_key_eq (hn : (rows.map key).Nodup) {s : ρ} (hr : r ∈ rows) (hs : s ∈ rows) (h : key r = key s) : r = s :=
  inj_on_of_nodup_map hn hr hs h

/-- New rows whose keys were free before have free keys still, if the rows added since keep off them. -/
theorem nodup_map_append_of_apart {rows' : List ρ} (hn : ((rows ++ new).map key).Nodup) (hn' : (rows'.map key).Nodup)
    (h : ∀ r ∈ rows', r ∈ rows ∨ ∀ n ∈ new, key r ≠ key n) : ((rows' ++ new).map key).Nodup := by
  rw [map_append, nodup_append] at hn ⊢
  refine ⟨hn', hn.2.1, fun a ha b hb => ?_⟩
  obtain ⟨r, hr, rfl⟩ := mem_map.mp ha
  obtain hr | hr := h r hr
  · exact hn.2.2 _ (mem_map_of_mem hr) b hb
  · obtain ⟨n, hn, rfl⟩ := mem_map.mp hb
    exact hr n hn

variable {row : ρ}

theorem nodup_map_append_singleton (hn : (rows.map key).Nodup) (h : ∀ r ∈ rows, key r ≠ key row) :
    ((rows ++ [row]).map key).Nodup := by
  rw [map_append, nodup_append]
  refine ⟨hn, nodup_singleton _, fun a ha b hb => ?_⟩
  obtain ⟨r, hr, rfl⟩ := mem_map.mp ha
  rw [map_singleton, mem_singleton] at hb
  subst hb
  exact h r hr

theorem get?_eq_some [DecidableEq κ] (h : get? key k rows = some r) : r ∈ rows ∧ key r = k := by
  refine ⟨mem_of_find?_eq_some h, ?_⟩
  have hk := find?_some h
  simpa using hk

/-- A condition that fixes the key finds the row of that key. -/
theorem find?_of_mem (hn : (rows.map key).Nodup) {p : ρ → Bool} (hr : r ∈ rows) (hp : p r)
    (hkey : ∀ s, p s → key s = key r) : rows.find? p = some r := by
  cases hf : rows.find? p with
  | none => exact absurd hp (find?_eq_none.mp hf r hr)
  | some s => rw [eq_of_key_eq hn (mem_of_find?_eq_some hf) hr (hkey s (find?_some hf))]

theorem get?_of_mem [DecidableEq κ] (hn : (rows.map key).Nodup) (hr : r ∈ rows) : get? key (key r) rows = some r :=
  find?_of_mem hn hr (by simp) fun s hs => by simpa using hs

theorem mem_put [DecidableEq κ] : r ∈ put key row rows ↔ (r ∈ rows ∧ key r ≠ key row) ∨ r = row := by
  simp [put]

theorem get?_put [DecidableEq κ] :
    get? key k (put key row rows) = if key row = k then some row else get? key k rows := by
  rw [get?, put, find?_append]
  split
  next h =>
    subst h
    have hnone : (rows.filter fun r => key r ≠ key row).find? (fun r => key r = key row) = none := by
      rw [find?_eq_none]
      intro r hr
      have hne := (mem_filter.mp hr).2
      simpa using hne
    rw [hnone]
    simp
  next h =>
    have hlast : [row].find? (fun r => key r = k) = none := by simpa using h
    rw [hlast, Option.or_none, find?_filter, get?]
    congr 1
    funext r
    by_cases hr : key r = k
    · simp [hr, Ne.symm h]
    · simp [hr]

/-- The row found after an update that keeps the keys is the row found before, rewritten if it meets
the condition. -/
theorem get?_updateWhere [DecidableEq κ] (hkey : ∀ r, key (f r) = key r) (k : κ) :
    get? key k (updateWhere cond f rows) = (get? key k rows).map fun r => if cond r then f r else r := by
  rw [get?, updateWhere, find?_map, get?]
  congr 2
  funext r
  show decide (key (if cond r then f r else r) = k) = decide (key r = k)
  split
  · rw [hkey]
  · rfl

theorem updateWhere_of_none (h : ∀ r ∈ rows, cond r = false) : updateWhere cond f rows = rows := by
  conv => rhs; rw [← map_id rows]
  apply map_congr_left
  intro r hr
  rw [h r hr]
  rfl

theorem nodup_map_upsert [DecidableEq κ] {merge : ρ → ρ → ρ} (hmerge : ∀ r, key (merge row r) = key r)
    (hn : (rows.map key).Nodup) : ((upsert key merge row rows).map key).Nodup := by
  rw [upsert]
  split
  · rw [map_key_updateWhere hmerge]
    exact hn
  · next hfree =>
    refine nodup_map_append_singleton hn fun r hr heq => hfree ?_
    exact any_eq_true.mpr ⟨r, hr, by simpa using heq⟩

end

theorem exists_mem_of_erase {α : Type} [BEq α] {rows : List α} {row : α} {p : α → Prop}
    (h : ∃ r ∈ rows.erase row, p r) : ∃ r ∈ rows, p r := by
  obtain ⟨r, hr, hp⟩ := h
  exact ⟨r, mem_of_mem_erase hr, hp⟩

end Okoscope.Lib.Table
