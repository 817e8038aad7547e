import Mathlib.Data.List.Sort
import Mathlib.Data.List.TakeWhile

/-!
# Listings in pages

A listing is read page by page: each page comes with a cursor for the next one, or
without one if it is the last. The rows of a page are those after the cursor in the
order of a key, one more than asked for, to see whether there are any left. What a
reader gets who follows the cursors depends on what a page does with the row too many
and with the rows it does not show.
-/
namespace Okoscope.Lib.Paging

open List

variable {ρ β γ κ ε : Type}

/-! ## Following cursors -/

/-- What a reader has got when a page comes without a cursor. -/
inductive Pages (next : Option γ → Except ε (List β × Option γ)) : Option γ → List β → Prop
  | last {c : Option γ} {items : List β} (h : next c = .ok (items, none)) : Pages next c items
  | more {c : Option γ} {k : γ} {items rest : List β} (h : next c = .ok (items, some k))
      (hrest : Pages next (some k) rest) : Pages next c (items ++ rest)

section
variable {next : Option γ → Except ε (List β × Option γ)} {c : Option γ} {items all : List β}

theorem pages_last_iff (h : next c = .ok (items, none)) : Pages next c all ↔ all = items := by
  constructor
  · intro hall
    cases hall with
    | last h' =>
      rw [h] at h'
      cases h'
      rfl
    | more h' =>
      rw [h] at h'
      cases h'
  · intro hall
    subst hall
    exact .last h

theorem pages_more_iff {k : γ} (h : next c = .ok (items, some k)) :
    Pages next c all ↔ ∃ rest, Pages next (some k) rest ∧ all = items ++ rest := by
  constructor
  · intro hall
    cases hall with
    | last h' =>
      rw [h] at h'
      cases h'
    | more h' hrest =>
      rw [h] at h'
      cases h'
      exact ⟨_, hrest, rfl⟩
  · rintro ⟨rest, hrest, rfl⟩
    exact .more h hrest

theorem Pages.unique {all' : List β} (h : Pages next c all) (h' : Pages next c all') : all = all' := by
  induction h generalizing all' with
  | last hl => exact ((pages_last_iff hl).mp h').symm
  | more hm _ ih =>
    obtain ⟨_, hrest', rfl⟩ := (pages_more_iff hm).mp h'
    rw [ih hrest']

end

/-! ## Rows after a cursor -/

variable {as bs l : List ρ} {x : ρ} {n : Nat}

variable {cond : ρ → Bool} {table : List ρ}

section
variable [LinearOrder κ] {key : ρ → κ}

/-- The rows in the order of their keys. -/
def inOrder (key : ρ → κ) (rows : List ρ) : List ρ := rows.insertionSort fun a b => key a ≤ key b

/-- The first rows after the cursor, if there is one, that satisfy the condition. -/
def rowsAfter (key : ρ → κ) (cond : ρ → Bool) (cursor : Option κ) (n : Nat) (table : List ρ) : List ρ :=
  (inOrder key (table.filter fun r => cond r && cursor.all fun k => k < key r)).take n

variable {rows : List ρ}

theorem pairwise_inOrder : (inOrder key rows).Pairwise fun a b => key a ≤ key b :=
  have : Std.Total fun a b : ρ => key a ≤ key b := ⟨fun a b => le_total (key a) (key b)⟩
  have : IsTrans ρ fun a b => key a ≤ key b := ⟨fun _ _ _ h h' => le_trans h h'⟩
  pairwise_insertionSort _ rows

theorem strict_inOrder (h : (rows.map key).Nodup) : (inOrder key rows).Pairwise fun a b => key a < key b := by
  have hnodup : ((inOrder key rows).map key).Nodup := ((perm_insertionSort _ rows).map key).nodup_iff.mpr h
  rw [List.Nodup, pairwise_map] at hnodup
  exact (pairwise_inOrder.and hnodup).imp fun h => lt_of_le_of_ne h.1 h.2

theorem inOrder_filter (h : (rows.map key).Nodup) {p : ρ → Bool} :
    inOrder key (rows.filter p) = (inOrder key rows).filter p := by
  have hsub : ((rows.filter p).map key).Nodup := h.sublist (filter_sublist.map key)
  refine List.Perm.eq_of_pairwise (fun a b _ _ hab hba => absurd hab (lt_asymm hba)) (strict_inOrder hsub)
    ((strict_inOrder h).filter p) ?_
  exact (perm_insertionSort _ _).trans ((perm_insertionSort _ rows).symm.filter p)

theorem rowsAfter_none : rowsAfter key cond none n table = (inOrder key (table.filter cond)).take n := by
  simp [rowsAfter]

/-- After the cursor of a row come the rows that follow it in the listing. -/
theorem rowsAfter_some (hkeys : (table.map key).Nodup) (h : inOrder key (table.filter cond) = as ++ x :: bs) :
    rowsAfter key cond (some (key x)) n table = bs.take n := by
  have hcond : ((table.filter cond).map key).Nodup := hkeys.sublist (filter_sublist.map key)
  have hstrict := strict_inOrder hcond
  rw [h, pairwise_append, pairwise_cons] at hstrict
  obtain ⟨-, ⟨hafter, -⟩, hbefore⟩ := hstrict
  have hsplit : table.filter (fun r => cond r && (some (key x)).all fun k => k < key r) =
      (table.filter cond).filter fun r => key x < key r := by
    rw [filter_filter]
    congr 1
    funext r
    rw [Bool.and_comm]
    rfl
  rw [rowsAfter, hsplit, inOrder_filter hcond, h, filter_append, filter_cons]
  have has : as.filter (fun r => key x < key r) = [] := by
    refine filter_eq_nil_iff.mpr fun a ha => ?_
    have hlt := hbefore a ha x mem_cons_self
    simpa using hlt.le
  have hbs : bs.filter (fun r => key x < key r) = bs := by
    refine filter_eq_self.mpr fun b hb => ?_
    simpa using hafter b hb
  rw [has, hbs]
  simp

end

/-! ## Pages of the rows in order -/

/-- Every page is made of the rows after the one its cursor names. -/
structure Walks (next : Option γ → Except ε (List β × Option γ)) (rows : List ρ) (idOf : ρ → γ)
    (page : List ρ → List β × Option γ) : Prop where
  start : next none = .ok (page rows)
  resume : ∀ as x bs, rows = as ++ x :: bs → next (some (idOf x)) = .ok (page bs)

section
variable [LinearOrder κ] {next : Option γ → Except ε (List β × Option γ)} {key : ρ → κ} {idOf : ρ → γ}

/-- A listing whose cursors are keys of rows. -/
theorem walks_rowsAfter (toKey : γ → κ) (page : List ρ → List β × Option γ) (hkeys : (table.map key).Nodup)
    (hkey : ∀ r, toKey (idOf r) = key r) (hnext : ∀ c, next c = .ok (page (rowsAfter key cond (c.map toKey) n table))) :
    Walks next (inOrder key (table.filter cond)) idOf fun l => page (l.take n) where
  start := by
    rw [hnext, Option.map_none, rowsAfter_none]
  resume as x bs h := by
    rw [hnext, Option.map_some, hkey, rowsAfter_some hkeys h]

/-- A listing whose cursors are ids of rows, which are looked up for the keys. -/
theorem walks_lookup (lookup : γ → Option κ) (page : List ρ → List β × Option γ) (hkeys : (table.map key).Nodup)
    (hlookup : ∀ r ∈ inOrder key (table.filter cond), lookup (idOf r) = some (key r))
    (hnext : ∀ c, (c.isSome && (c.bind lookup).isNone) = false →
      next c = .ok (page (rowsAfter key cond (c.bind lookup) n table))) :
    Walks next (inOrder key (table.filter cond)) idOf fun l => page (l.take n) where
  start := by
    rw [hnext none rfl, Option.bind_none, rowsAfter_none]
  resume as x bs h := by
    have hx := hlookup x (h ▸ mem_append_right as mem_cons_self)
    rw [hnext (some (idOf x)) (by rw [Option.bind_some, hx]; rfl), Option.bind_some, hx, rowsAfter_some hkeys h]

end

/-- Drops the row too many; the cursor is that of the last row given. -/
def cut (limit : Nat) (cursorOf : β → γ) (items : List β) : List β × Option γ :=
  if limit < items.length then (items.dropLast, items.dropLast.getLast?.map cursorOf) else (items, none)

/-- Drops the row too many; the cursor is that of the row dropped. -/
def cutPopped (limit : Nat) (cursorOf : β → γ) (items : List β) : List β × Option γ :=
  if limit < items.length then (items.dropLast, items.getLast?.map cursorOf) else (items, none)

section
variable {next : Option γ → Except ε (List β × Option γ)} {rows : List ρ} {idOf : ρ → γ} {cursorOf : β → γ}
  {limit : Nat}

/-! ### Rows left out after they were counted -/

/-- How many rows are shown before the first that is not. -/
def leading (shown : ρ → Option β) (rows : List ρ) : Nat := (rows.takeWhile fun x => (shown x).isSome).length

/-- How many rows are looked at if the first row that is not shown comes after so many. -/
def reach (limit leading : Nat) : Nat := ((leading - 1) / limit + 1) * limit + 1

variable {shown : ρ → Option β}

theorem leading_append (h : ∀ a ∈ as, (shown a).isSome) : leading shown (as ++ bs) = as.length + leading shown bs := by
  rw [leading, takeWhile_append_of_pos h, length_append, leading]

theorem isSome_of_mem_take (hn : n ≤ leading shown l) (hx : x ∈ l.take n) : (shown x).isSome := by
  have hsplit := takeWhile_append_dropWhile (p := fun x => (shown x).isSome) (l := l)
  rw [← hsplit, take_append_of_le_length hn] at hx
  have hx' : x ∈ l.takeWhile fun x => (shown x).isSome := mem_of_mem_take hx
  exact mem_takeWhile_imp (p := fun x => (shown x).isSome) hx'

theorem length_filterMap_of_isSome (h : ∀ x ∈ l, (shown x).isSome) : (l.filterMap shown).length = l.length := by
  rw [length_filterMap_eq_countP, countP_eq_length]
  exact h

/-- A page finds more rows to show than it was asked for only if it shows all it has fetched. -/
theorem limit_lt_length_iff : limit < ((l.take (limit + 1)).filterMap shown).length ↔ limit < leading shown l := by
  constructor
  · intro h
    rw [length_filterMap_eq_countP] at h
    have hle : (l.take (limit + 1)).length ≤ limit + 1 := length_take_le _ _
    have hcount := countP_le_length (p := fun x => (shown x).isSome) (l := l.take (limit + 1))
    have hall := countP_eq_length.mp (Nat.le_antisymm hcount (by omega))
    rw [← take_append_drop (limit + 1) l, leading_append hall]
    omega
  · intro h
    have hall : ∀ x ∈ l.take (limit + 1), (shown x).isSome := fun x hx => isSome_of_mem_take h hx
    rw [length_filterMap_of_isSome hall, length_take]
    have hlength : leading shown l ≤ l.length := ( takeWhile_prefix _).length_le
    omega

/-- A page that is followed by another. -/
theorem split_of_limit_lt_leading (hlimit : 0 < limit) (h : limit < leading shown l) :
    ∃ as x bs, l = as ++ x :: bs ∧ as.length + 1 = limit ∧ 0 < leading shown bs ∧
      ∀ a ∈ as ++ [x], (shown a).isSome := by
  have hlength : leading shown l ≤ l.length := ( takeWhile_prefix _).length_le
  have hdrop : limit - 1 < l.length := by omega
  have hsplit : l.take limit = l.take (limit - 1) ++ [l[limit - 1]] := by
    rw [take_append_getElem hdrop]
    congr 1
    omega
  have hall : ∀ a ∈ l.take (limit - 1) ++ [l[limit - 1]], (shown a).isSome := by
    rw [← hsplit]
    exact fun a ha => isSome_of_mem_take h.le ha
  have hwhole : l = (l.take (limit - 1) ++ [l[limit - 1]]) ++ l.drop limit := by
    rw [← hsplit, take_append_drop]
  refine ⟨l.take (limit - 1), l[limit - 1], l.drop limit, ?_, ?_, ?_, hall⟩
  · rwa [append_assoc, singleton_append] at hwhole
  · rw [length_take]
    omega
  · rw [hwhole, leading_append hall, length_append, length_take, length_singleton] at h
    omega

theorem reach_add {m : Nat} (hn : 0 < n) (hm : 0 < m) : reach n (n + m) = n + reach n m := by
  have hdiv : (n + m - 1) / n = (m - 1) / n + 1 := by
    rw [Nat.add_sub_assoc hm, Nat.add_div_left _ hn]
  rw [reach, reach, hdiv, Nat.add_mul ((m - 1) / n + 1), Nat.one_mul]
  omega

theorem reach_of_le {m : Nat} (hn : 0 < n) (h : m ≤ n) : reach n m = n + 1 := by
  rw [reach, Nat.div_eq_of_lt (by omega), Nat.zero_add, Nat.one_mul]

theorem cut_of_limit_lt (hid : ∀ x y, shown x = some y → cursorOf y = idOf x)
    (has : as.length + 1 = limit) (hbs : 0 < leading shown bs) (hall : ∀ a ∈ as ++ [x], (shown a).isSome) :
    cut limit cursorOf (((as ++ x :: bs).take (limit + 1)).filterMap shown) =
      ((as ++ [x]).filterMap shown, some (idOf x)) := by
  obtain ⟨b, rest, rfl, hb⟩ : ∃ b rest, bs = b :: rest ∧ (shown b).isSome := by
    cases bs with
    | nil => exact absurd hbs (Nat.lt_irrefl 0)
    | cons b rest =>
      refine ⟨b, rest, rfl, isSome_of_mem_take hbs ?_⟩
      exact mem_cons_self
  obtain ⟨y, hy⟩ := Option.isSome_iff_exists.mp (hall x (by simp))
  obtain ⟨z, hz⟩ := Option.isSome_iff_exists.mp hb
  have htake : (as ++ x :: b :: rest).take (limit + 1) = (as ++ [x]) ++ [b] := by
    rw [show as ++ x :: b :: rest = ((as ++ [x]) ++ [b]) ++ rest by simp]
    exact take_left' (by simp [← has])
  have hshown : (as ++ [x]).filterMap shown = as.filterMap shown ++ [y] := by
    rw [filterMap_append, filterMap_cons_some hy, filterMap_nil]
  have hlength : ((as ++ [x]).filterMap shown).length = limit := by
    rw [length_filterMap_of_isSome hall, length_append, length_singleton, has]
  have hitems : ((as ++ [x]) ++ [b]).filterMap shown = (as ++ [x]).filterMap shown ++ [z] := by
    rw [filterMap_append (l := as ++ [x]), filterMap_cons_some hz, filterMap_nil]
  have hmany : limit < ((as ++ [x]).filterMap shown ++ [z]).length := by
    rw [length_append, hlength]
    exact Nat.lt_succ_self _
  rw [htake, hitems, cut, if_pos hmany, dropLast_concat, hshown, getLast?_concat, Option.map_some, hid x y hy]

/-- The rows are filtered after one too many was fetched, and the next page is asked for only if more
than the limit are left: the reader gets all rows that are shown exactly if none comes after the page
with the first row that is not. -/
theorem pages_filtered_iff (hlimit : 0 < limit) (hid : ∀ x y, shown x = some y → cursorOf y = idOf x)
    (hw : Walks next rows idOf fun l => cut limit cursorOf ((l.take (limit + 1)).filterMap shown)) :
    Pages next none (rows.filterMap shown) ↔ ∀ x ∈ rows.drop (reach limit (leading shown rows)), shown x = none := by
  -- the rows from a page on, by how many there are
  have hrest : ∀ n (l : List ρ), l.length ≤ n → (∃ before, rows = before ++ l) → ∀ c,
      next c = .ok (cut limit cursorOf ((l.take (limit + 1)).filterMap shown)) →
      (Pages next c (l.filterMap shown) ↔ ∀ x ∈ l.drop (reach limit (leading shown l)), shown x = none) := by
    intro n
    induction n with
    | zero =>
      intro l hl _ c hc
      obtain rfl : l = [] := length_eq_zero_iff.mp (Nat.le_zero.mp hl)
      refine ⟨fun _ x hx => ?_, fun _ => .last hc⟩
      cases hx
    | succ n ih =>
      intro l hl hsuffix c hc
      by_cases hfull : limit < leading shown l
      · obtain ⟨as, x, bs, rfl, has, hbs, hall⟩ := split_of_limit_lt_leading hlimit hfull
        obtain ⟨before, hrows⟩ := hsuffix
        rw [cut_of_limit_lt hid has hbs hall] at hc
        have hnext : next (some (idOf x)) = .ok (cut limit cursorOf ((bs.take (limit + 1)).filterMap shown)) :=
          hw.resume (before ++ as) x bs (by rw [hrows, append_assoc])
        have hbs' : bs.length ≤ n := by
          rw [length_append, length_cons] at hl
          omega
        have hsplit : as ++ x :: bs = (as ++ [x]) ++ bs := by simp
        have hreach : reach limit (leading shown (as ++ x :: bs)) = (as ++ [x]).length + reach limit (leading shown bs) := by
          rw [hsplit, leading_append hall, length_append, length_singleton, has, reach_add hlimit hbs]
        rw [pages_more_iff hc, hreach, hsplit, drop_length_add_append, filterMap_append]
        rw [← ih bs hbs' ⟨before ++ as ++ [x], by rw [hrows]; simp⟩ _ hnext]
        constructor
        · rintro ⟨rest, hrest, he⟩
          rwa [append_cancel_left he]
        · intro hrest
          exact ⟨_, hrest, rfl⟩
      · rw [cut, if_neg (limit_lt_length_iff.not.mpr hfull)] at hc
        rw [pages_last_iff hc, reach_of_le hlimit (Nat.le_of_not_lt hfull)]
        conv => lhs; lhs; rw [← take_append_drop (limit + 1) l, filterMap_append]
        rw [append_right_eq_self, filterMap_eq_nil_iff]
  exact hrest rows.length rows le_rfl ⟨[], rfl⟩ none hw.start

/-! ### Rows dropped at the end of a page -/

variable {view : ρ → β}

theorem cutPopped_of_lt (hid : ∀ x, cursorOf (view x) = idOf x) (has : as.length = limit) :
    cutPopped limit cursorOf (((as ++ x :: bs).take (limit + 1)).map view) = (as.map view, some (idOf x)) := by
  have htake : (as ++ x :: bs).take (limit + 1) = as ++ [x] := by
    rw [show as ++ x :: bs = (as ++ [x]) ++ bs by simp]
    exact take_left' (by simp [has])
  have hmany : limit < (as.map view ++ [view x]).length := by
    rw [length_append, length_map, has]
    exact Nat.lt_succ_self _
  rw [htake, map_append, map_singleton, cutPopped, if_pos hmany, dropLast_concat, getLast?_concat,
    Option.map_some, hid x]

theorem cutPopped_of_length_le (h : l.length ≤ limit) :
    cutPopped limit cursorOf ((l.take (limit + 1)).map view) = (l.map view, none) := by
  rw [take_of_length_le (by omega), cutPopped, if_neg]
  rw [length_map]
  omega

theorem split_of_limit_lt_length (h : limit < l.length) : ∃ as x bs, l = as ++ x :: bs ∧ as.length = limit := by
  refine ⟨l.take limit, l[limit], l.drop (limit + 1), by simp, ?_⟩
  rw [length_take]
  omega

/-- A reader gets no more rows than there are, and fewer if there is a next page. -/
theorem length_le_of_pages (hid : ∀ x, cursorOf (view x) = idOf x)
    (hw : Walks next rows idOf fun l => cutPopped limit cursorOf ((l.take (limit + 1)).map view)) {c : Option γ}
    {all : List β} (h : Pages next c all) (hl : ∃ before, rows = before ++ l)
    (hc : next c = .ok (cutPopped limit cursorOf ((l.take (limit + 1)).map view))) :
    all.length ≤ l.length ∧ (limit < l.length → all.length < l.length) := by
  induction h generalizing l with
  | last h =>
    by_cases hmore : limit < l.length
    · obtain ⟨_, _, _, rfl, has⟩ := split_of_limit_lt_length hmore
      rw [h, cutPopped_of_lt hid has] at hc
      cases hc
    rw [h, cutPopped_of_length_le (Nat.le_of_not_lt hmore)] at hc
    cases hc
    rw [length_map]
    exact ⟨le_rfl, fun h => absurd h hmore⟩
  | more h _ ih =>
    by_cases hmore : limit < l.length
    · obtain ⟨as, x, bs, rfl, has⟩ := split_of_limit_lt_length hmore
      obtain ⟨before, hrows⟩ := hl
      rw [h, cutPopped_of_lt hid has] at hc
      cases hc
      have hrest := (ih ⟨before ++ as ++ [x], by rw [hrows]; simp⟩
        (hw.resume (before ++ as) x bs (by rw [hrows, append_assoc]))).1
      simp only [length_append, length_map, length_cons]
      omega
    · rw [h, cutPopped_of_length_le (Nat.le_of_not_lt hmore)] at hc
      cases hc

/-- The next page starts after the row that was dropped: the reader gets all rows exactly if there is
no next page. -/
theorem pages_popped_iff (cursorOf : β → γ) (hid : ∀ x, cursorOf (view x) = idOf x)
    (hw : Walks next rows idOf fun l => cutPopped limit cursorOf ((l.take (limit + 1)).map view)) :
    Pages next none (rows.map view) ↔ rows.length ≤ limit := by
  constructor
  · intro h
    have hlength := (length_le_of_pages hid hw h ⟨[], rfl⟩ hw.start).2
    rw [length_map] at hlength
    omega
  · intro h
    have hstart := hw.start
    rw [cutPopped_of_length_le h] at hstart
    exact .last hstart

end

end Okoscope.Lib.Paging
