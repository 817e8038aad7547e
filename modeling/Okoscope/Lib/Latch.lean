import Mathlib.Algebra.Order.Group.Int
import Mathlib.Data.List.Perm.Basic

/-!
# Latches

A latch shows the image of the last observation it recorded, until an observation closes it.
An observation that closes takes effect once it is a quiet period later than everything the
latch has recorded, and nothing changes a closed latch. Observations may arrive in any order:
what a latch shows in the end depends on the order, except under conditions that are exact.
-/
namespace Okoscope.Lib

open List

structure Latch (ι : Type) where
  image : ι
  last : Int
  closed : Bool

namespace Latch

structure Observation (ι : Type) where
  image : ι
  time : Int
  closes : Bool

variable {ι : Type}

def observe (quiet : Int) (s : Latch ι) (o : Observation ι) : Latch ι :=
  if s.closed then s
  else if o.closes then
    if s.last + quiet ≤ o.time then { s with image := o.image, closed := true } else s
  else
    { s with image := o.image, last := max s.last o.time }

def observeAll (quiet : Int) (s : Latch ι) (os : List (Observation ι)) : Latch ι := os.foldl (observe quiet) s

variable {quiet : Int} {s : Latch ι} {o : Observation ι} {os : List (Observation ι)}

/-! ## One observation -/

theorem observe_of_closed (h : s.closed) : observe quiet s o = s := by
  rw [observe, if_pos h]

theorem observe_of_record (h : s.closed = false) (ho : o.closes = false) :
    observe quiet s o = { s with image := o.image, last := max s.last o.time } := by
  simp [observe, h, ho]

theorem observe_of_late (h : s.closed = false) (ho : o.closes) (hlate : s.last + quiet ≤ o.time) :
    observe quiet s o = { s with image := o.image, closed := true } := by
  simp [observe, h, ho, if_pos hlate]

theorem observe_of_early (h : s.closed = false) (ho : o.closes) (hearly : o.time < s.last + quiet) :
    observe quiet s o = s := by
  simp [observe, h, ho, if_neg (not_le.mpr hearly)]

/-! ## Runs -/

theorem observeAll_of_closed (h : s.closed) : observeAll quiet s os = s := by
  induction os with
  | nil => rfl
  | cons => rwa [observeAll, foldl_cons, observe_of_closed h]

section
variable (h : s.closed = false)
include h

section
variable (hearly : ∀ o ∈ os, o.closes → o.time < s.last + quiet)
include hearly

theorem closed_observeAll_of_early : (observeAll quiet s os).closed = false := by
  induction os generalizing s with
  | nil => exact h
  | cons o _ ih =>
    obtain ⟨ho, hos⟩ := forall_mem_cons.mp hearly
    rw [observeAll, foldl_cons]
    cases hcloses : o.closes with
    | true =>
      rw [observe_of_early h hcloses (ho hcloses)]
      exact ih h hos
    | false =>
      rw [observe_of_record h hcloses]
      refine ih h fun o' ho' hcloses' => ?_
      have hlt := hos o' ho' hcloses'
      show o'.time < max s.last o.time + quiet
      omega

/-- When in addition all that is recorded has one image, the latch shows it. -/
theorem image_observeAll_of_early {i : ι} (hrecords : ∀ o ∈ os, o.closes = false → o.image = i)
    (hsome : s.image = i ∨ ∃ o ∈ os, o.closes = false) : (observeAll quiet s os).image = i := by
  induction os generalizing s with
  | nil =>
    rcases hsome with himage | ⟨o, ho, -⟩
    · exact himage
    · cases ho
  | cons o _ ih =>
    obtain ⟨ho, hos⟩ := forall_mem_cons.mp hearly
    obtain ⟨hro, hros⟩ := forall_mem_cons.mp hrecords
    rw [observeAll, foldl_cons]
    cases hcloses : o.closes with
    | true =>
      rw [observe_of_early h hcloses (ho hcloses)]
      refine ih h hos hros ?_
      rcases hsome with himage | ⟨o', ho', hrecord⟩
      · exact .inl himage
      rcases mem_cons.mp ho' with rfl | ho'
      · rw [hcloses] at hrecord
        cases hrecord
      · exact .inr ⟨o', ho', hrecord⟩
    | false =>
      rw [observe_of_record h hcloses]
      refine ih h (fun o' ho' hcloses' => ?_) hros (.inl (hro hcloses))
      have hlt := hos o' ho' hcloses'
      show o'.time < max s.last o.time + quiet
      omega

end

/-- One closing observation that is late enough for everything closes the latch in any
order, on the image that all late ones share. -/
theorem observeAll_of_late {z : Observation ι} (hz : z ∈ os) (hcloses : z.closes)
    (hlate : s.last + quiet ≤ z.time) (hafter : ∀ r ∈ os, r.closes = false → r.time + quiet ≤ z.time) {i : ι}
    (himages : ∀ z' ∈ os, z'.closes → s.last + quiet ≤ z'.time → z'.image = i) :
    (observeAll quiet s os).closed ∧ (observeAll quiet s os).image = i := by
  induction os generalizing s with
  | nil => cases hz
  | cons o os ih =>
    rw [observeAll, foldl_cons]
    by_cases hclosing : o.closes ∧ s.last + quiet ≤ o.time
    · rw [observe_of_late h hclosing.1 hclosing.2, ← observeAll, observeAll_of_closed rfl]
      exact ⟨rfl, himages o mem_cons_self hclosing.1 hclosing.2⟩
    -- the first observation is not the one that is late enough
    have hmem : z ∈ os := by
      rcases mem_cons.mp hz with rfl | hmem
      · exact absurd ⟨hcloses, hlate⟩ hclosing
      · exact hmem
    obtain ⟨hro, hros⟩ := forall_mem_cons.mp hafter
    have himages' := (forall_mem_cons.mp himages).2
    cases ho : o.closes with
    | true =>
      have hearly : o.time < s.last + quiet := by
        by_contra hnot
        exact hclosing ⟨ho, not_lt.mp hnot⟩
      rw [observe_of_early h ho hearly]
      exact ih h hmem hlate hros himages'
    | false =>
      rw [observe_of_record h ho]
      have hr := hro ho
      refine ih h hmem ?_ hros fun z' hz' hcloses' hlate' => ?_
      · rcases max_choice s.last o.time with heq | heq <;> rw [heq] <;> omega
      · have hle : max s.last o.time + quiet ≤ z'.time := hlate'
        exact himages' z' hz' hcloses' (by omega)

/-- Records only: the latch stays open and is as late as any of them. -/
theorem observeAll_of_records (hrecords : ∀ o ∈ os, o.closes = false) :
    (observeAll quiet s os).closed = false ∧ s.last ≤ (observeAll quiet s os).last ∧
      ∀ o ∈ os, o.time ≤ (observeAll quiet s os).last := by
  induction os generalizing s with
  | nil => exact ⟨h, le_rfl, nofun⟩
  | cons o os ih =>
    obtain ⟨ho, hos⟩ := forall_mem_cons.mp hrecords
    have hstep : observeAll quiet s (o :: os) =
        observeAll quiet { s with image := o.image, last := max s.last o.time } os := by
      rw [observeAll, foldl_cons, observe_of_record h ho, observeAll]
    rw [hstep]
    obtain ⟨hopen, hlast, htimes⟩ := ih (s := { s with image := o.image, last := max s.last o.time }) h hos
    refine ⟨hopen, le_trans (le_max_left _ _) hlast, forall_mem_cons.mpr ⟨?_, htimes⟩⟩
    exact le_trans (le_max_right _ _) hlast

/-- A latch that is closed in the end was closed by an observation that was late at the start. -/
theorem exists_late_of_closed (hclosed : (observeAll quiet s os).closed) :
    ∃ z ∈ os, z.closes ∧ s.last + quiet ≤ z.time := by
  by_contra hnone
  have hearly : ∀ o ∈ os, o.closes → o.time < s.last + quiet :=
    fun o ho hcloses => not_le.mp fun hle => hnone ⟨o, ho, hcloses, hle⟩
  rw [closed_observeAll_of_early h hearly] at hclosed
  cases hclosed

end

/-! ## Independence of the order -/

/-- The closing observations that are late for what the latch has recorded so far. -/
def Late (quiet : Int) (s : Latch ι) (o : Observation ι) : Prop := o.closes ∧ s.last + quiet ≤ o.time

/-- The conditions under which the latch ends up with an image in every order: it is closed
and shows it; or nothing can close it and everything recorded shows it; or everything that can
close it shows it, and one such observation is late for everything recorded. -/
def Settles (quiet : Int) (s : Latch ι) (os : List (Observation ι)) (i : ι) : Prop :=
  (s.closed ∧ s.image = i) ∨
    (s.closed = false ∧ (∀ o ∈ os, ¬ Late quiet s o) ∧ (∀ r ∈ os, r.closes = false → r.image = i) ∧
      (s.image = i ∨ ∃ r ∈ os, r.closes = false)) ∨
    (s.closed = false ∧ (∀ z ∈ os, Late quiet s z → z.image = i) ∧
      ∃ z ∈ os, Late quiet s z ∧ ∀ r ∈ os, r.closes = false → r.time + quiet ≤ z.time)

instance (quiet : Int) (s : Latch ι) (o : Observation ι) : Decidable (Late quiet s o) :=
  inferInstanceAs (Decidable (_ ∧ _))

instance [DecidableEq ι] (quiet : Int) (s : Latch ι) (os : List (Observation ι)) (i : ι) :
    Decidable (Settles quiet s os i) :=
  inferInstanceAs (Decidable (_ ∨ _ ∨ _))

/-- The latch shows the image, closed or not as given, after every order. -/
def ShowsAfter (quiet : Int) (s : Latch ι) (orders : List (Observation ι) → Prop) (i : ι) (closed : Bool) : Prop :=
  ∀ arrivals, orders arrivals → (observeAll quiet s arrivals).image = i ∧ (observeAll quiet s arrivals).closed = closed

/-- The conditions suffice, for arrivals in any order and with any repetition. -/
theorem Settles.showsAfter {i : ι} (h : Settles quiet s os i) :
    ∃ closed, ShowsAfter quiet s (fun arrivals => ∀ o, o ∈ arrivals ↔ o ∈ os) i closed := by
  rcases h with ⟨hclosed, himage⟩ | ⟨hopen, hearly, hrecords, hsome⟩ | ⟨hopen, himages, z, hz, hlate, hafter⟩
  · refine ⟨true, fun arrivals _ => ?_⟩
    rw [observeAll_of_closed hclosed]
    exact ⟨himage, hclosed⟩
  · refine ⟨false, fun arrivals hmem => ?_⟩
    have hearly' : ∀ o ∈ arrivals, o.closes → o.time < s.last + quiet :=
      fun o ho hcloses => not_le.mp fun hle => hearly o ((hmem o).mp ho) ⟨hcloses, hle⟩
    refine ⟨image_observeAll_of_early hopen hearly' (fun r hr => hrecords r ((hmem r).mp hr)) ?_,
      closed_observeAll_of_early hopen hearly'⟩
    rcases hsome with himage | ⟨r, hr, hrecord⟩
    · exact .inl himage
    · exact .inr ⟨r, (hmem r).mpr hr, hrecord⟩
  · refine ⟨true, fun arrivals hmem => ?_⟩
    exact (observeAll_of_late hopen ((hmem z).mpr hz) hlate.1 hlate.2 (fun r hr => hafter r ((hmem r).mp hr))
      fun z' hz' hcloses hlate' => himages z' ((hmem z').mp hz') ⟨hcloses, hlate'⟩).symm

section
variable {i : ι} {closed : Bool} (h : ShowsAfter quiet s (·.Perm os) i closed) (hs : s.closed = false)
include h hs

/-- A late observation that comes first closes the latch on its own image. -/
theorem ShowsAfter.of_late {z : Observation ι} (hz : z ∈ os) (hlate : Late quiet s z) : z.image = i ∧ closed := by
  obtain ⟨before, after, heq⟩ := append_of_mem hz
  have hfinal := h (z :: (before ++ after)) (by rw [heq]; exact perm_middle.symm)
  rw [observeAll, foldl_cons, observe_of_late hs hlate.1 hlate.2, ← observeAll, observeAll_of_closed rfl] at hfinal
  exact ⟨hfinal.1, hfinal.2.symm⟩

/-- When the latch ends up closed, it is closed as well after everything that records came first. -/
theorem ShowsAfter.exists_late (hclosed : closed) :
    ∃ z ∈ os, Late quiet s z ∧ ∀ r ∈ os, r.closes = false → r.time + quiet ≤ z.time := by
  have hfinal := (h _ (filter_append_perm (fun o => !o.closes) os)).2
  rw [hclosed, observeAll, foldl_append, ← observeAll, ← observeAll] at hfinal
  have hrecords : ∀ o ∈ os.filter fun o => !o.closes, o.closes = false :=
    fun o ho => by simpa using (mem_filter.mp ho).2
  obtain ⟨hopen, hlast, htimes⟩ := observeAll_of_records hs hrecords
  obtain ⟨z, hz, hcloses, hle⟩ := exists_late_of_closed hopen hfinal
  refine ⟨z, (mem_filter.mp hz).1, ⟨hcloses, by omega⟩, ?_⟩
  intro r hr hrecord
  have htime := htimes r (mem_filter.mpr ⟨hr, by simp [hrecord]⟩)
  omega

/-- When nothing is late, a record that comes last is what the latch shows. -/
theorem ShowsAfter.of_record (hearly : ∀ o ∈ os, o.closes → o.time < s.last + quiet) {r : Observation ι}
    (hr : r ∈ os) (hrecord : r.closes = false) : r.image = i := by
  obtain ⟨before, after, rfl⟩ := append_of_mem hr
  have hperm : ((before ++ after) ++ [r]).Perm (before ++ r :: after) := by
    rw [append_assoc]
    exact (perm_append_singleton r after).append_left before
  have hfinal := (h _ hperm).1
  have hothers : ∀ o ∈ before ++ after, o.closes → o.time < s.last + quiet :=
    fun o ho => hearly o (hperm.subset (mem_append_left _ ho))
  rwa [observeAll, foldl_append, foldl_cons, foldl_nil, ← observeAll,
    observe_of_record (closed_observeAll_of_early hs hothers) hrecord] at hfinal

end

/-- They are necessary, already for the orders in which everything arrives once. -/
theorem settles_of_showsAfter {i : ι} {closed : Bool} (h : ShowsAfter quiet s (·.Perm os) i closed) :
    Settles quiet s os i := by
  cases hs : s.closed with
  | true =>
    have hfinal := (h os (.refl os)).1
    rw [observeAll_of_closed hs] at hfinal
    exact .inl ⟨hs, hfinal⟩
  | false =>
    right
    by_cases hlate : ∃ z ∈ os, Late quiet s z
    · right
      obtain ⟨_, hz, hzlate⟩ := hlate
      exact ⟨hs, fun z' hz' hlate' => (h.of_late hs hz' hlate').1, h.exists_late hs (h.of_late hs hz hzlate).2⟩
    left
    have hearly : ∀ o ∈ os, o.closes → o.time < s.last + quiet :=
      fun o ho hcloses => not_le.mp fun hle => hlate ⟨o, ho, hcloses, hle⟩
    refine ⟨hs, fun o ho hl => hlate ⟨o, ho, hl⟩, fun r hr => h.of_record hs hearly hr, ?_⟩
    by_cases hsome : ∃ r ∈ os, r.closes = false
    · exact .inr hsome
    left
    have hnone : ∀ r ∈ os, r.closes = false → r.image = s.image :=
      fun r hr hrecord => absurd ⟨r, hr, hrecord⟩ hsome
    rw [← image_observeAll_of_early hs hearly hnone (.inl rfl)]
    exact (h os (.refl os)).1

/-! ## Observations of other things -/

/-- An order of the images comes from an order of the elements. -/
theorem exists_perm_map {α β : Type} {f : α → β} {l : List α} {images : List β} (h : images.Perm (l.map f)) :
    ∃ l' : List α, l'.Perm l ∧ l'.map f = images := by
  have hself : List.Forall₂ (fun b a => b = f a) (l.map f) l := forall₂_map_right_iff.mp (forall₂_refl _)
  obtain ⟨l', himages, hperm⟩ := perm_comp_forall₂ h hself
  have heq : List.Forall₂ Eq images (l'.map f) := forall₂_map_right_iff.mpr himages
  rw [forall₂_eq_eq_eq] at heq
  exact ⟨l', hperm, heq.symm⟩

end Latch

end Okoscope.Lib
