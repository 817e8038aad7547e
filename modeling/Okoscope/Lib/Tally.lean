import Mathlib.Algebra.BigOperators.Group.List.Lemmas
import Mathlib.Algebra.GroupWithZero.Nat
import Okoscope.Lib.Table

/-!
# Tables that count

A table of counters has one row for each place, with the number of things that were
put there. The things themselves may be gone; what is left of them is the list of
their places. The table tallies that list if the counters of any set of places add up
to the number of things in it. Counting more things in, grouped or one by one, keeps
it so, and so does dropping places together with what was put there.
-/
namespace Okoscope.Lib.Tally

open Table List

variable {ρ β α κ : Type}

/-- The counters of the rows that meet the condition, added up. -/
def total (count : ρ → Nat) (p : ρ → Bool) (rows : List ρ) : Nat := ((rows.filter p).map count).sum

/-- The counters of any set of places add up to the things put there. -/
def Tallies (count : ρ → Nat) (place : ρ → β) (rows : List ρ) (places : List β) : Prop :=
  ∀ p : β → Bool, total count (fun r => p (place r)) rows = places.countP p

/-- Each key that occurs, once, with the elements that have it: `GROUP BY`. -/
def groupBy [DecidableEq κ] (key : α → κ) (xs : List α) : List (κ × List α) :=
  (xs.map key).dedup.map fun k => (k, xs.filter fun x => key x = k)

theorem countP_eq_add {l : List α} {p q r : α → Bool} (h : ∀ a ∈ l, p a = (q a || r a))
    (hapart : ∀ a ∈ l, q a → r a = false) : l.countP p = l.countP q + l.countP r := by
  induction l with
  | nil => rfl
  | cons a _ ih =>
    obtain ⟨ha, hl⟩ := forall_mem_cons.mp h
    obtain ⟨hapart, hl'⟩ := forall_mem_cons.mp hapart
    rw [countP_cons, countP_cons, countP_cons, ih hl hl', ha]
    by_cases hq : q a
    · simp only [hq, hapart hq, Bool.true_or, if_true, Bool.false_eq_true, if_false]
      omega
    · simp only [hq, Bool.false_or, Bool.false_eq_true, if_false]
      omega

variable {p : ρ → Bool}

section
variable {count : ρ → Nat} {place : ρ → β} {rows : List ρ} {places : List β}

theorem total_cons {r : ρ} : total count p (r :: rows) = (if p r then count r else 0) + total count p rows := by
  unfold total
  by_cases h : p r <;> simp [h]

theorem total_append {rows' : List ρ} : total count p (rows ++ rows') = total count p rows + total count p rows' := by
  simp [total]

theorem total_singleton {r : ρ} : total count p [r] = if p r then count r else 0 := by
  rw [total_cons, show total count p [] = 0 from rfl, Nat.add_zero]

variable {merge : ρ → ρ → ρ} {row : ρ}

section
variable (hn : (rows.map place).Nodup) (hcount : ∀ r, count (merge row r) = count r + count row)
  (hplace : ∀ r, place (merge row r) = place r)
include hn hcount hplace

/-- Merging a row into the one row of its place raises the counters there by its count. -/
theorem total_updateWhere [DecidableEq β] (hrow : ∃ r ∈ rows, place r = place row) {p : β → Bool} :
    total count (fun r => p (place r)) (updateWhere (fun r => place r = place row) (merge row) rows) =
      total count (fun r => p (place r)) rows + if p (place row) then count row else 0 := by
  induction rows with
  | nil =>
    obtain ⟨_, hr, -⟩ := hrow
    cases hr
  | cons r rest ih =>
    rw [map_cons, nodup_cons] at hn
    rw [updateWhere, map_cons, total_cons, total_cons]
    by_cases hr : place r = place row
    · -- no other row has the place, so the rest stays as it is
      have hrest : rest.map (fun s => if decide (place s = place row) then merge row s else s) = rest := by
        refine updateWhere_of_none fun s hs => decide_eq_false fun heq => hn.1 ?_
        rw [hr, ← heq]
        exact mem_map_of_mem hs
      simp only [hr, decide_true, if_true, hplace, hcount]
      rw [hrest]
      split <;> omega
    · obtain ⟨s, hs, hs'⟩ := hrow
      have hrest : ∃ s ∈ rest, place s = place row := by
        rcases mem_cons.mp hs with rfl | hs
        · exact absurd hs' hr
        · exact ⟨s, hs, hs'⟩
      have htail := ih hn.2 hrest
      rw [updateWhere] at htail
      simp only [hr, decide_false, Bool.false_eq_true, if_false]
      omega

theorem total_upsert [DecidableEq β] {p : β → Bool} : total count (fun r => p (place r)) (upsert place merge row rows) =
      total count (fun r => p (place r)) rows + if p (place row) then count row else 0 := by
  rw [upsert]
  split
  · next hany =>
    obtain ⟨r, hr, heq⟩ := any_eq_true.mp hany
    exact total_updateWhere hn hcount hplace ⟨r, hr, by simpa using heq⟩
  · rw [total_append, total_singleton]

end

theorem tallies_nil : Tallies count place [] [] := by
  intro p
  rfl

section
variable (h : Tallies count place rows places)
include h

theorem Tallies.congr {places' : List β} (heq : ∀ p, places'.countP p = places.countP p) :
    Tallies count place rows places' := by
  intro p
  rw [heq p]
  exact h p

/-- Counting in as many things as the row says, all at its place. -/
theorem Tallies.count_in [DecidableEq β] (hn : (rows.map place).Nodup)
    (hcount : ∀ r, count (merge row r) = count r + count row) (hplace : ∀ r, place (merge row r) = place r) :
    Tallies count place (upsert place merge row rows) (places ++ replicate (count row) (place row)) := by
  intro p
  rw [total_upsert hn hcount hplace, h p, countP_append, countP_replicate]

theorem Tallies.count_eq [DecidableEq β] (hn : (rows.map place).Nodup) {r : ρ} (hr : r ∈ rows) :
    count r = places.countP (fun b => b = place r) := by
  rw [← h fun b => b = place r]
  clear h
  induction rows with
  | nil => cases hr
  | cons s rest ih =>
    rw [map_cons, nodup_cons] at hn
    rw [total_cons]
    rcases mem_cons.mp hr with rfl | hr
    · have hrest : rest.filter (fun s => decide (place s = place r)) = [] := by
        rw [filter_eq_nil_iff]
        intro s hs heq
        exact hn.1 (mem_map.mpr ⟨s, hs, of_decide_eq_true heq⟩)
      rw [if_pos (decide_eq_true rfl), total, hrest]
      rfl
    · have hne : place s ≠ place r := fun heq => hn.1 (heq ▸ mem_map_of_mem hr)
      rw [if_neg (by simpa using hne), Nat.zero_add]
      exact ih hn.2 hr

theorem Tallies.filter (keep : β → Bool) :
    Tallies count place (rows.filter fun r => keep (place r)) (places.filter keep) := by
  intro p
  rw [countP_filter, total, filter_filter]
  exact h fun b => p b && keep b

end

end

variable {toRow : κ × List α → ρ} {merge : ρ → ρ → ρ}

section

theorem nodup_groups [DecidableEq β] {place : ρ → β} {rows : List ρ} (hn : (rows.map place).Nodup)
    (hplace : ∀ row r, place (merge row r) = place r) (gs : List (κ × List α)) :
    ((gs.foldl (fun rows g => upsert place merge (toRow g) rows) rows).map place).Nodup := by
  induction gs generalizing rows with
  | nil => exact hn
  | cons _ _ ih => exact ih (nodup_map_upsert (hplace _) hn)

variable [DecidableEq κ] {key : α → κ}

/-- The groups of some keys have as many elements together as there are elements of these keys. -/
theorem sum_groupBy (p : κ → Bool) (xs : List α) :
    ((groupBy key xs).map fun g => if p g.1 then g.2.length else 0).sum = xs.countP fun x => p (key x) := by
  have hlength : ∀ k, (xs.filter fun x => key x = k).length = (xs.map key).count k := by
    intro k
    rw [← countP_eq_length_filter, List.count, countP_map]
    rfl
  have hsum : ∀ ks : List κ, (ks.map fun k => if p k then (xs.map key).count k else 0).sum =
      ((ks.filter p).map fun k => (xs.map key).count k).sum := by
    intro ks
    induction ks with
    | nil => rfl
    | cons k _ ih => by_cases hk : p k <;> simp [hk, ih]
  rw [groupBy, map_map]
  show ((xs.map key).dedup.map fun k => if p k then (xs.filter fun x => key x = k).length else 0).sum = _
  simp only [hlength]
  rw [hsum, sum_map_count_dedup_filter_eq_countP, countP_map]
  rfl

/-- Counting things in group by group counts in every one of them. -/
theorem Tallies.count_in_groups [DecidableEq β] {count : ρ → Nat} {place : ρ → β} {rows : List ρ} {places : List β}
    {placeOf : κ → β} (h : Tallies count place rows places) (hn : (rows.map place).Nodup)
    (hcount : ∀ row r, count (merge row r) = count r + count row) (hplace : ∀ row r, place (merge row r) = place r)
    (hlength : ∀ g, count (toRow g) = g.2.length) (hplaceOf : ∀ g, place (toRow g) = placeOf g.1) (xs : List α) :
    Tallies count place ((groupBy key xs).foldl (fun rows g => upsert place merge (toRow g) rows) rows)
      (places ++ xs.map fun x => placeOf (key x)) := by
  have hgroups : ∀ (gs : List (κ × List α)) (rows : List ρ), (rows.map place).Nodup → ∀ p : β → Bool,
      total count (fun r => p (place r)) (gs.foldl (fun rows g => upsert place merge (toRow g) rows) rows) =
        total count (fun r => p (place r)) rows + (gs.map fun g => if p (placeOf g.1) then g.2.length else 0).sum := by
    intro gs
    induction gs with
    | nil =>
      intro rows _ p
      rfl
    | cons _ _ ih =>
      intro rows hn p
      rw [foldl_cons, ih _ (nodup_map_upsert (hplace _) hn), total_upsert hn (hcount _) (hplace _), hplaceOf, hlength,
        map_cons, sum_cons, Nat.add_assoc]
  intro p
  rw [hgroups _ rows hn p, sum_groupBy (fun k => p (placeOf k)), h p, countP_append, countP_map]
  rfl

end

end Okoscope.Lib.Tally
