import Okoscope.Server.PolicyInvariants

/-!
# Policies under concurrent transactions

The discipline that all transactions on policies keep: which evaluations and
links are sound, and what a commit may change given the rows it holds. A
transaction that evaluates reads the version before the revisions, so that an
evaluation with the version of today was made from the revisions of today; a
transaction that changes revisions holds the row of the version until it commits.
-/
namespace Okoscope.Server.PolicyDiscipline

open Lib.Table Lib.ReadCommitted
open Policy PolicyTables PolicyProjection
open PolicyInvariants List

variable {δ α β : Type}

/-! ## The discipline -/

/-- The evaluation was made for a linked item of the group, under policies no newer than the
present ones, and it is right if they are the present ones. -/
def Justified (db : Db δ) (e : GroupEvaluation) : Prop :=
  ∃ g ∈ db.groups, ∃ i ∈ db.items, g.id = e.groupId ∧ i.key.scope = g.key.scope ∧
    ⟨g.key.scope, i.id, g.id⟩ ∈ db.links ∧ e.policyStateVersion ≤ db.version g.key.scope ∧
    (e.policyStateVersion = db.version g.key.scope →
      e.evaluation = evaluateScoped ⟨g.key.scope, i.key.behavior, g.key.placement⟩ (Db.candidates db g.key.scope))

/-- A link names a group of its own application. -/
def LinkSound (db : Db δ) (l : Link) : Prop := ∃ g ∈ db.groups, g.id = l.groupId ∧ g.key.scope = l.scope

structure Sound (db : Db δ) : Prop where
  groupIds : (db.groups.map Group.id).Nodup
  itemIds : (db.items.map Item.id).Nodup
  links : ∀ l ∈ db.links, LinkSound db l
  evaluations : ∀ e ∈ db.groupEvaluations, Justified db e
  currents : Currents db

/-- Rows are added, and the revisions of an application change only with its version. -/
structure Grows (s t : Db δ) : Prop where
  groups : ∀ g ∈ s.groups, g ∈ t.groups
  items : ∀ i ∈ s.items, i ∈ t.items
  links : ∀ l ∈ s.links, l ∈ t.links
  version_le : ∀ scope, s.version scope ≤ t.version scope
  revisions : ∀ scope, s.version scope = t.version scope → t.enabledRevisions scope = s.enabledRevisions scope

/-- What a commit may change: new groups and items are held, and so is a version that changes. -/
structure Commit (locks : List Lock) (s t : Db δ) : Prop where
  grows : Grows s t
  groups : ∀ g ∈ t.groups, g ∈ s.groups ∨ .group g.id ∈ locks
  items : ∀ i ∈ t.items, i ∈ s.items ∨ .item i.id ∈ locks
  version : ∀ scope, t.version scope = s.version scope ∨ .state scope ∈ locks

def discipline : Discipline (Db δ) Lock := ⟨Sound, Commit⟩

theorem Grows.refl {s : Db δ} : Grows s s where
  groups _ h := h
  items _ h := h
  links _ h := h
  version_le _ := le_rfl
  revisions _ _ := rfl

variable {s t db : Db δ} {held : List Lock} {ws : List (Write δ)} {w : Write δ} {P : Db δ → Prop}
variable {Q : α → Db δ → Prop} {scope : PolicyScope} {itemId groupId : Nat} {behavior : BehaviorKey}

theorem Grows.trans {u : Db δ} (h : Grows s t) (h' : Grows t u) : Grows s u where
  groups g hg := h'.groups g (h.groups g hg)
  items i hi := h'.items i (h.items i hi)
  links l hl := h'.links l (h.links l hl)
  version_le scope := (h.version_le scope).trans (h'.version_le scope)
  revisions scope he := by
    -- a version that came back to where it was has not moved in between
    have hle := h.version_le scope
    have hle' := h'.version_le scope
    rw [h'.revisions scope (by omega), h.revisions scope (by omega)]

theorem Justified.mono (h : Grows s t) {e : GroupEvaluation} (he : Justified s e) : Justified t e := by
  obtain ⟨g, hg, i, hi, hid, hscope, hl, hle, hright⟩ := he
  have hle' := h.version_le g.key.scope
  refine ⟨g, h.groups g hg, i, h.items i hi, hid, hscope, h.links _ hl, hle.trans hle', fun heq => ?_⟩
  have hsame : s.version g.key.scope = t.version g.key.scope := by omega
  rw [hright (heq.trans hsame.symm), Db.candidates, Db.candidates, h.revisions _ hsame]

theorem LinkSound.mono (h : Grows s t) {l : Link} (hl : LinkSound s l) : LinkSound t l := by
  obtain ⟨g, hg, hgl⟩ := hl
  exact ⟨g, h.groups g hg, hgl⟩

/-- What a transaction that holds rows finds after others have committed. -/
structure Later (held : List Lock) (s t : Db δ) : Prop where
  grows : Grows s t
  groups : ∀ g ∈ t.groups, g ∈ s.groups ∨ .group g.id ∉ held
  items : ∀ i ∈ t.items, i ∈ s.items ∨ .item i.id ∉ held
  version : ∀ scope, .state scope ∈ held → t.version scope = s.version scope

theorem later_of_rely (h : discipline.Rely held s t) : Later held s t := by
  refine Discipline.Rely.le ?_ ?_ ?_ h
  · intro s
    exact ⟨.refl, fun g hg => .inl hg, fun i hi => .inl hi, fun _ _ => rfl⟩
  · intro s t u h h'
    refine ⟨h.grows.trans h'.grows, fun g hg => ?_, fun i hi => ?_, fun scope hs => ?_⟩
    · obtain hg | hg := h'.groups g hg
      · exact h.groups g hg
      · exact .inr hg
    · obtain hi | hi := h'.items i hi
      · exact h.items i hi
      · exact .inr hi
    · rw [h'.version scope hs, h.version scope hs]
  · intro locks s t hd hc
    refine ⟨hc.grows, fun g hg => ?_, fun i hi => ?_, fun scope hs => ?_⟩
    · exact (hc.groups g hg).imp_right fun hl hh => hd hl hh
    · exact (hc.items i hi).imp_right fun hl hh => hd hl hh
    · exact (hc.version scope).resolve_right fun hl => hd hl hs

/-! ## Transactions that evaluate -/

/-- The writes of ingestion and recomputation, which leave what commands write alone. -/
def quiet : Write δ → Bool
  | .event _ _ | .group _ | .item _ | .link _ | .sighting _ | .groupEvaluation _ | .sightingEvaluation _
  | .recomputationState _ _ _ => true
  | _ => false

theorem version_applyAll_quiet (hq : ∀ w ∈ ws, quiet w) : (applyAll apply s ws).version scope = s.version scope := by
  apply version_applyAll
  intro v hv
  cases hq _ hv

theorem enabledRevisions_applyAll_quiet (hq : ∀ w ∈ ws, quiet w) :
    (applyAll apply s ws).enabledRevisions scope = s.enabledRevisions scope := by
  refine applyAll_induction apply (p := fun db : Db δ => db.enabledRevisions scope = s.enabledRevisions scope) ?_ rfl
  intro w hw db ih
  rw [← ih]
  have hq' := hq w hw
  cases w <;> first | rfl | cases hq'

theorem Grows.applyAll_quiet (h : Grows s t) (hq : ∀ w ∈ ws, quiet w) :
    Grows (applyAll apply s ws) (applyAll apply t ws) where
  groups g hg := by
    rw [groups_applyAll, mem_append] at hg ⊢
    exact hg.imp_left (h.groups g)
  items i hi := by
    rw [items_applyAll, mem_append] at hi ⊢
    exact hi.imp_left (h.items i)
  links l hl := links_applyAll.mpr ((links_applyAll.mp hl).imp_left (h.links l))
  version_le scope := by
    rw [version_applyAll_quiet hq, version_applyAll_quiet hq]
    exact h.version_le scope
  revisions scope he := by
    rw [version_applyAll_quiet hq, version_applyAll_quiet hq] at he
    rw [enabledRevisions_applyAll_quiet hq, enabledRevisions_applyAll_quiet hq, h.revisions scope he]

theorem grows_applyAll_quiet (hq : ∀ w ∈ ws, quiet w) (s : Db δ) : Grows s (applyAll apply s ws) where
  groups g hg := by
    rw [groups_applyAll]
    exact mem_append_left _ hg
  items i hi := by
    rw [items_applyAll]
    exact mem_append_left _ hi
  links l hl := links_applyAll.mpr (.inl hl)
  version_le scope := (version_applyAll_quiet hq).ge
  revisions scope _ := enabledRevisions_applyAll_quiet hq

/-- What a transaction that evaluates has done so far: what it will commit is sound together with
what is committed. -/
structure Projecting (held : List Lock) (ws : List (Write δ)) (s : Db δ) : Prop where
  quiet : ∀ w ∈ ws, quiet w
  groups : ∀ g, .group g ∈ ws → .group g.id ∈ held
  items : ∀ i, .item i ∈ ws → .item i.id ∈ held
  groupIds : ((applyAll apply s ws).groups.map Group.id).Nodup
  itemIds : ((applyAll apply s ws).items.map Item.id).Nodup
  links : ∀ l, .link l ∈ ws → LinkSound (applyAll apply s ws) l
  evaluations : ∀ e, .groupEvaluation e ∈ ws → Justified (applyAll apply s ws) e

theorem projecting_nil (hs : Sound s) : Projecting [] [] s where
  quiet _ h := by cases h
  groups _ h := by cases h
  items _ h := by cases h
  groupIds := hs.groupIds
  itemIds := hs.itemIds
  links _ h := by cases h
  evaluations _ h := by cases h

section
variable (h : Projecting held ws s)
include h

theorem Projecting.later {s' : Db δ} (hl : Later held s s') (hs' : Sound s') : Projecting held ws s' := by
  have hview := hl.grows.applyAll_quiet h.quiet
  refine ⟨h.quiet, h.groups, h.items, ?_, ?_, fun l hw => (h.links l hw).mono hview,
    fun e hw => (h.evaluations e hw).mono hview⟩
  · have hids := h.groupIds
    rw [groups_applyAll] at hids ⊢
    refine nodup_map_append_of_apart hids hs'.groupIds fun g hg => (hl.groups g hg).imp_right fun hfree n hn heq => ?_
    rw [heq] at hfree
    exact hfree (h.groups n (mem_newGroups.mp hn))
  · have hids := h.itemIds
    rw [items_applyAll] at hids ⊢
    refine nodup_map_append_of_apart hids hs'.itemIds fun i hi => (hl.items i hi).imp_right fun hfree n hn heq => ?_
    rw [heq] at hfree
    exact hfree (h.items n (mem_newItems.mp hn))

theorem Projecting.sound (hs : Sound s) : Sound (applyAll apply s ws) := by
  have hgrows := grows_applyAll_quiet h.quiet s
  refine ⟨h.groupIds, h.itemIds, fun l hl => ?_, fun e he => ?_, fun p hp id hid => ?_⟩
  · obtain hl | hl := links_applyAll.mp hl
    · exact (hs.links l hl).mono hgrows
    · exact h.links l hl
  · obtain he | he := groupEvaluations_applyAll he
    · exact (hs.evaluations e he).mono hgrows
    · exact h.evaluations e he
  obtain ⟨q, hq, hqid⟩ | ⟨_, _, hw⟩ := current_applyAll (fun p hw => by cases h.quiet _ hw) hp hid
  · obtain ⟨r, hr, hrid⟩ := hs.currents q hq id hqid
    exact ⟨r, revisions_applyAll.mpr (.inl hr), hrid⟩
  · cases h.quiet _ hw

theorem Projecting.commit : Commit held s (applyAll apply s ws) where
  grows := grows_applyAll_quiet h.quiet s
  groups g hg := by
    rw [groups_applyAll, mem_append, mem_newGroups] at hg
    exact hg.imp_right (h.groups g)
  items i hi := by
    rw [items_applyAll, mem_append, mem_newItems] at hi
    exact hi.imp_right (h.items i)
  version scope := .inl (version_applyAll_quiet h.quiet)

theorem Projecting.commits : discipline.Commits apply held ws s := by
  intro s' hr hs'
  have h' := h.later (later_of_rely hr) hs'
  exact ⟨h'.sound hs', h'.commit⟩

end

/-- What a transaction that evaluates may write next, given the locks it takes for it. -/
def Admits (locks : List Lock) (v : Db δ) : Write δ → Prop
  | .group g => .group g.id ∈ locks ∧ ∀ g' ∈ v.groups, g'.id ≠ g.id
  | .item i => .item i.id ∈ locks ∧ ∀ i' ∈ v.items, i'.id ≠ i.id
  | .link l => LinkSound v l
  | .groupEvaluation e => Justified v e
  | w => quiet w

variable {locks : List Lock}

theorem Admits.quiet {v : Db δ} (h : Admits locks v w) : quiet w := by
  cases w <;> first | rfl | exact h

theorem Projecting.push (h : Projecting held ws s) (hw : Admits locks (applyAll apply s ws) w) :
    Projecting (held ++ locks) (ws ++ [w]) s := by
  have hgrows : Grows (applyAll apply s ws) (applyAll apply s (ws ++ [w])) := by
    rw [applyAll_append]
    refine grows_applyAll_quiet (fun w' hw' => ?_) _
    rw [mem_singleton] at hw'
    subst hw'
    exact hw.quiet
  refine ⟨fun w' hw' => ?_, fun g hg => ?_, fun i hi => ?_, ?_, ?_, fun l hl => ?_, fun e he => ?_⟩
  · obtain hw' | rfl := mem_append_singleton.mp hw'
    · exact h.quiet w' hw'
    · exact hw.quiet
  · obtain hg | rfl := mem_append_singleton.mp hg
    · exact mem_append_left _ (h.groups g hg)
    · exact mem_append_right _ hw.1
  · obtain hi | rfl := mem_append_singleton.mp hi
    · exact mem_append_left _ (h.items i hi)
    · exact mem_append_right _ hw.1
  · rw [applyAll_append]
    cases w
    case group g => exact nodup_map_append_singleton h.groupIds hw.2
    all_goals exact h.groupIds
  · rw [applyAll_append]
    cases w
    case item i => exact nodup_map_append_singleton h.itemIds hw.2
    all_goals exact h.itemIds
  · obtain hl | rfl := mem_append_singleton.mp hl
    · exact (h.links l hl).mono hgrows
    · exact LinkSound.mono hgrows hw
  · obtain he | rfl := mem_append_singleton.mp he
    · exact (h.evaluations e he).mono hgrows
    · exact Justified.mono hgrows hw

/-! ### Rules for programs that evaluate -/

abbrev Program (δ α : Type) := Tx (Db δ) (Write δ) Lock Failure α

/-- What the growth of the database does not undo. -/
def Stable (P : Db δ → Prop) : Prop := ∀ v v', Grows v v' → P v → P v'

/-- Run on a database of which the transaction sees the first, the program ends with a result and a
database that the second describes, having written what a transaction that evaluates may write. -/
structure Projects (P : Db δ → Prop) (t : Tx (Db δ) (Write δ) Lock Failure α) (Q : α → Db δ → Prop) : Prop where
  wp : ∀ held ws s, Sound s → Projecting held ws s → P (applyAll apply s ws) →
    discipline.wp apply
      (fun a held' ws' s' => Sound s' ∧ Projecting held' ws' s' ∧ Q a (applyAll apply s' ws')) t held ws s

variable {t : Program δ α}

variable {f : α → Program δ β} {R : β → Db δ → Prop}

theorem Projects.bind (ht : Projects P t Q) (hf : ∀ a, Projects (Q a) (f a) R) : Projects P (t >>= f) R := by
  refine ⟨fun held ws s hs hw hp => ?_⟩
  rw [Discipline.wp_bind]
  refine Discipline.wp_mono ?_ (ht.wp held ws s hs hw hp)
  intro a held' ws' s' h
  exact (hf a).wp held' ws' s' h.1 h.2.1 h.2.2

theorem projects_pure {a : α} (h : ∀ v, P v → Q a v) : Projects P (pure a) Q :=
  ⟨fun _ _ _ hs hw hp => ⟨hs, hw, h _ hp⟩⟩

theorem projects_fail {e : Failure} : Projects P (.fail e) Q :=
  ⟨fun _ _ _ _ _ _ => trivial⟩

variable {Q' : α → Db δ → Prop}

section
variable {P' : Db δ → Prop} (h : Projects P t Q) (hp : ∀ v, P' v → P v)
include h hp

theorem Projects.mono (hq : ∀ a v, Q a v → Q' a v) : Projects P' t Q' := by
  refine ⟨fun held ws s hs hw hp' => Discipline.wp_mono ?_ (h.wp held ws s hs hw (hp _ hp'))⟩
  intro a held' ws' s' h
  exact ⟨h.1, h.2.1, hq a _ h.2.2⟩

theorem Projects.pre : Projects P' t Q :=
  h.mono hp fun _ _ h => h

end

theorem Projects.post (h : Projects P t Q) (hq : ∀ a v, Q a v → Q' a v) : Projects P t Q' :=
  h.mono (fun _ h => h) hq

/-- A step that keeps what is known, whatever it returns. -/
theorem Projects.seq (ht : Projects P t fun _ => P) (hf : ∀ a, Projects P (f a) R) : Projects P (t >>= f) R :=
  ht.bind hf

theorem projects_of_fact {φ : Prop} (hφ : ∀ v, P v → φ) (h : φ → Projects P t Q) : Projects P t Q :=
  ⟨fun held ws s hs hw hp => (h (hφ _ hp)).wp held ws s hs hw hp⟩

/-- One statement that writes one row or none. -/
theorem projects_stmt (hP : Stable P) {locks : View (Db δ) Lock → List Lock}
    {writes : View (Db δ) Lock → List (Write δ)} {result : View (Db δ) Lock → α}
    (hw : ∀ v, P v.state → writes v = [] ∨ ∃ w, writes v = [w] ∧ Admits (locks v) v.state w) :
    Projects P (.stmt locks writes fun v => .done (result v))
      (fun a db => P db ∧ ∃ v, Sound v.state ∧ P v.state ∧ a = result v ∧ db = applyAll apply v.state (writes v)) := by
  refine ⟨fun held ws s _ hproj hp s' busy hr hs' => ?_⟩
  have hl := later_of_rely hr
  have hproj' := hproj.later hl hs'
  have hsound := hproj'.sound hs'
  have hp' := hP _ _ (hl.grows.applyAll_quiet hproj.quiet) hp
  obtain hnone | ⟨w, hone, hadmits⟩ := hw ⟨applyAll apply s' ws, busy⟩ hp'
  · simp only [Discipline.wp, hnone, append_nil]
    have hhold := fun locks => ({ hproj' with
      groups := fun g hg => mem_append_left _ (hproj'.groups g hg)
      items := fun i hi => mem_append_left _ (hproj'.items i hi) } : Projecting (held ++ locks) ws s')
    exact ⟨hs', hhold _, hp', ⟨applyAll apply s' ws, busy⟩, hsound, hp', rfl, by rw [hnone]; rfl⟩
  simp only [Discipline.wp, hone]
  have hview : applyAll apply s' (ws ++ [w]) = applyAll apply (applyAll apply s' ws) [w] := applyAll_append ..
  refine ⟨hs', hproj'.push hadmits, hP _ _ ?_ hp', ⟨applyAll apply s' ws, busy⟩, hsound, hp', rfl,
    by rw [hview, hone]⟩
  rw [hview]
  refine grows_applyAll_quiet (fun w' hw' => ?_) _
  rw [mem_singleton] at hw'
  subst hw'
  exact hadmits.quiet

theorem projects_query (hP : Stable P) {f : Db δ → α}
    (hQ : ∀ db, Sound db → P db → Q (f db) db) : Projects P (.query f) Q := by
  refine (projects_stmt hP (fun _ _ => .inl rfl)).post ?_
  intro a db h
  obtain ⟨hp, _, hs, -, rfl, rfl⟩ := h
  exact hQ _ hs hp

theorem projects_exec (hP : Stable P) {locks : Db δ → List Lock} {writes : Db δ → List (Write δ)} {result : Db δ → α}
    (hw : ∀ db, P db → writes db = [] ∨ ∃ w, writes db = [w] ∧ Admits (locks db) db w)
    (hQ : ∀ db, P db → P (applyAll apply db (writes db)) → Q (result db) (applyAll apply db (writes db))) :
    Projects P (.exec locks writes result) Q := by
  refine (projects_stmt hP (fun v hv => hw v.state hv)).post ?_
  intro a db h
  obtain ⟨hp, _, -, hv, rfl, rfl⟩ := h
  exact hQ _ hv hp

theorem projects_ensure {ok : Bool} {e : Failure} : Projects P (.ensure ok e) (fun _ db => P db ∧ ok) := by
  cases ok
  · exact projects_fail
  · exact ⟨fun _ _ _ hs hw hp => ⟨hs, hw, hp, rfl⟩⟩

theorem projects_each {f : β → Program δ Unit} {bs : List β}
    (hf : ∀ b ∈ bs, Projects P (f b) fun _ => P) : Projects P (.each f bs) fun _ => P := by
  refine ⟨fun held ws s hs hw hp => Discipline.wp_each
    (I := fun held ws s => Sound s ∧ Projecting held ws s ∧ P (applyAll apply s ws)) ?_ ⟨hs, hw, hp⟩⟩
  intro b hb held ws s h
  exact (hf b hb).wp held ws s h.1 h.2.1 h.2.2

open Projects

theorem projects_insertUnless {R : Db δ → Prop} (hP : Stable P) {present taken : Db δ → Bool} {lock : Lock}
    {index : String} (hw : ∀ v, P v → present v = false → taken v = false → Admits [lock] v w)
    (hR : ∀ v, R (apply v w)) :
    Projects P (insertUnless present taken lock w index) (fun created db => P db ∧ (created → R db)) := by
  refine bind (Q := fun r db => P db ∧ (r.1 = false → r.2 = false → R db)) (projects_exec hP ?_ ?_) ?_
  · intro v hv
    by_cases hfree : (present v || taken v)
    · exact .inl (if_pos hfree)
    rw [Bool.not_eq_true, Bool.or_eq_false_iff] at hfree
    refine .inr ⟨w, by simp [hfree], ?_⟩
    rw [hfree.1]
    exact hw v hv hfree.1 hfree.2
  · intro v _ hv
    refine ⟨hv, fun hpresent htaken => ?_⟩
    dsimp only at hpresent htaken
    rw [hpresent, htaken]
    exact hR v
  · intro r
    obtain ⟨found, _⟩ := r
    cases found
    · refine projects_ensure.bind fun _ => projects_pure fun db h => ?_
      obtain ⟨⟨hp, hr⟩, hconflict⟩ := h
      refine ⟨hp, fun _ => hr rfl ?_⟩
      simpa using hconflict
    · refine projects_pure fun db h => ?_
      exact ⟨h.1, nofun⟩

theorem stable_true : Stable (fun _ : Db δ => True) := fun _ _ _ _ => trivial

theorem Stable.and {Q : Db δ → Prop} (hP : Stable P) (hQ : Stable Q) : Stable (fun v => P v ∧ Q v) :=
  fun v v' h hpq => ⟨hP v v' h hpq.1, hQ v v' h hpq.2⟩

theorem stable_group (g : Group) : Stable (fun v : Db δ => g ∈ v.groups) := fun _ _ h hg => h.groups g hg

theorem stable_link {l : Link} : Stable (fun v : Db δ => l ∈ v.links) := fun _ _ h hl => h.links l hl

/-! ### The programs that evaluate -/

/-- The value is right for an item of the application, or was made under older policies. -/
def Evaluated (scope : PolicyScope) (itemId : Nat) (placement : Placement) (value : MaterializedEvaluation)
    (v : Db δ) : Prop :=
  ∃ i ∈ v.items, i.id = itemId ∧ i.key.scope = scope ∧ value.stateVersion ≤ v.version scope ∧
    (value.stateVersion = v.version scope →
      value.evaluation = evaluateScoped ⟨scope, i.key.behavior, placement⟩ (Db.candidates v scope))

theorem stable_evaluated (scope : PolicyScope) (itemId : Nat) (placement : Placement) (value : MaterializedEvaluation) :
    Stable (Evaluated (δ := δ) scope itemId placement value) := by
  intro v v' h he
  obtain ⟨i, hi, hid, hscope, hle, hright⟩ := he
  have hle' := h.version_le scope
  refine ⟨i, h.items i hi, hid, hscope, hle.trans hle', fun heq => ?_⟩
  have hsame : v.version scope = v'.version scope := by omega
  rw [hright (heq.trans hsame.symm), Db.candidates, Db.candidates, h.revisions _ hsame]

/-- An item of the application with a behaviour. -/
def HasItem (scope : PolicyScope) (itemId : Nat) (behavior : BehaviorKey) (v : Db δ) : Prop :=
  ∃ i ∈ v.items, i.id = itemId ∧ i.key.scope = scope ∧ i.key.behavior = behavior

theorem stable_hasItem : Stable (HasItem (δ := δ) scope itemId behavior) := by
  intro v v' h hi
  obtain ⟨i, hi, hrest⟩ := hi
  exact ⟨i, h.items i hi, hrest⟩

theorem hasItem_of_identityKey (h : db.identityKey scope itemId = some behavior) :
    HasItem scope itemId behavior db := by
  obtain ⟨i, hi, rfl⟩ := Option.map_eq_some_iff.mp h
  obtain ⟨hi, hscope⟩ := Option.filter_eq_some_iff.mp hi
  obtain ⟨hmem, hid⟩ := get?_eq_some hi
  exact ⟨i, hmem, hid, of_decide_eq_true hscope, rfl⟩

/-- The version is read before the revisions: a version that is current when the evaluation is
stored was current when the revisions were read. -/
theorem projects_evaluateItem (hP : Stable P) (scope : PolicyScope) (itemId : Nat) (placement : Placement) :
    Projects P (evaluateItem scope itemId placement)
      (fun value db => P db ∧ Evaluated scope itemId placement value db) := by
  refine bind (Q := fun found db => P db ∧ ∀ behavior, found = some behavior →
    HasItem scope itemId behavior db) (projects_query hP ?_) fun found => ?_
  · intro db _ hp
    exact ⟨hp, fun behavior h => hasItem_of_identityKey h⟩
  cases found with
  | none => exact projects_fail
  | some behavior =>
    let R (db : Db δ) : Prop := P db ∧ HasItem scope itemId behavior db
    have hR : Stable R := hP.and stable_hasItem
    refine pre (P := R) ?_ fun db h => ⟨h.1, h.2 behavior rfl⟩
    refine bind (Q := fun (stateVersion : Option Nat) db => R db ∧ stateVersion.getD 0 ≤ db.version scope)
      (projects_query hR fun _ _ hp => ⟨hp, le_rfl⟩) fun stateVersion => ?_
    have hVersion : Stable fun db : Db δ => stateVersion.getD 0 ≤ db.version scope :=
      fun v v' h hle => hle.trans (h.version_le scope)
    refine bind (Q := fun rows db => (R db ∧ stateVersion.getD 0 ≤ db.version scope) ∧
      rows = db.enabledRevisionsForIdentity scope behavior)
      (projects_query (hR.and hVersion) fun _ _ hp => ⟨hp, rfl⟩) fun rows => ?_
    refine projects_pure fun db h => ?_
    obtain ⟨⟨⟨hp, i, hi, hid, hscope, rfl⟩, hle⟩, rfl⟩ := h
    refine ⟨hp, i, hi, hid, hscope, hle, fun _ => ?_⟩
    -- the revisions of one behaviour say what all revisions say about it
    show evaluateScoped _ ((db.enabledRevisionsForIdentity scope i.key.behavior).map (candidateOf scope)) = _
    rw [evaluateScoped, evaluateScoped, Db.candidates, Db.enabledRevisionsForIdentity, filter_map, filter_map,
      filter_filter]
    congr 3
    apply filter_congr
    intro r _
    by_cases h : r.behavior = i.key.behavior <;> simp [EvaluationInput.concerns, candidateOf, h]

/-- The group stands in the table and is linked to the item. -/
def Linked (itemId groupId : Nat) (key : GroupKey) (db : Db δ) : Prop :=
  ⟨groupId, key⟩ ∈ db.groups ∧ ⟨key.scope, itemId, groupId⟩ ∈ db.links

theorem stable_linked (itemId groupId : Nat) (key : GroupKey) : Stable (Linked (δ := δ) itemId groupId key) :=
  (stable_group _).and stable_link

variable {value : MaterializedEvaluation} {key : GroupKey}

variable {o : Observation} {events : List Observation}

section
variable (hP : Stable P)
include hP

theorem projects_storeGroup (key : GroupKey)
    (h : ∀ db, P db → Linked itemId groupId key db ∧ Evaluated key.scope itemId key.placement value db) :
    Projects P (storeGroup key.scope groupId value) fun _ => P := by
  rw [storeGroup, storeGroupEvaluation]
  refine projects_exec (Q := fun _ => P) hP (fun db hp => .inr ⟨_, rfl, ?_⟩) fun _ _ hp => hp
  obtain ⟨hl, i, hi, rfl, hscope, hle, hright⟩ := h db hp
  exact ⟨⟨groupId, key⟩, hl.1, i, hi, rfl, hscope, hl.2, hle, hright⟩

theorem projects_storeSighting (scope : PolicyScope) (key : SightingKey) (value : MaterializedEvaluation) :
    Projects P (storeSighting scope key value) fun _ => P := by
  rw [storeSighting, storeSightingEvaluation]
  exact projects_exec (Q := fun _ => P) hP (fun _ _ => .inr ⟨_, rfl, rfl⟩) fun _ _ hp => hp

theorem projects_projectExistingGroup (h : ∀ db, P db → Linked itemId groupId key db) :
    Projects P (projectExistingGroup key.scope itemId groupId key.placement) fun _ => P := by
  refine (projects_evaluateItem hP key.scope itemId key.placement).bind fun value => ?_
  refine (projects_storeGroup (hP.and (stable_evaluated _ _ _ _)) key fun db hp => ⟨h db hp.1, hp.2⟩).post
    fun _ _ hp => hp.1

theorem projects_projectExistingSighting {key : SightingKey} :
    Projects P (projectExistingSighting scope key) fun _ => P := by
  refine (projects_evaluateItem hP scope key.itemId key.placement).bind fun value => ?_
  exact (projects_storeSighting hP scope key value).pre fun _ hp => hp.1

/-! ### Ingestion -/

theorem projects_insertGroupIfAbsent {g : Group} :
    Projects P (insertGroupIfAbsent g) (fun created db => P db ∧ (created → g ∈ db.groups)) := by
  refine projects_insertUnless (R := fun db => g ∈ db.groups) hP ?_ fun v => ?_
  · intro v _ _ htaken
    refine ⟨mem_singleton_self _, fun g' hg' => ?_⟩
    have hfree := any_eq_false.mp htaken g' hg'
    simpa using hfree
  · exact mem_concat_self

theorem projects_lockExistingGroup :
    Projects P (lockExistingGroup key) (fun id db => P db ∧ ⟨id, key⟩ ∈ db.groups) := by
  refine bind (Q := fun found db => P db ∧ ∀ g, found = some g → g ∈ db.groups ∧ g.key = key)
    (projects_exec hP (fun _ _ => .inl rfl) ?_) fun found => ?_
  · intro db hp _
    refine ⟨hp, fun g hg => ⟨mem_of_find?_eq_some hg, ?_⟩⟩
    have hkey := find?_some hg
    exact of_decide_eq_true hkey
  · cases found with
    | none => exact projects_fail
    | some g =>
      refine projects_pure fun db h => ?_
      obtain ⟨hg, rfl⟩ := h.2 g rfl
      exact ⟨h.1, hg⟩

theorem projects_assignEvent :
    Projects P (assignEvent scope o) (fun groupId db => P db ∧ ⟨groupId, o.groupKey scope⟩ ∈ db.groups) := by
  refine (projects_insertGroupIfAbsent hP).bind fun created => ?_
  cases created
  · exact (projects_lockExistingGroup hP).pre fun _ h => h.1
  · exact projects_pure fun _ h => ⟨h.1, h.2 rfl⟩

theorem projects_upsertDerivedGroup {g : Group} :
    Projects P (upsertDerivedGroup g) (fun groupId db => P db ∧ ⟨groupId, g.key⟩ ∈ db.groups) := by
  refine bind (Q := fun r db => P db ∧ (∀ g', r.1 = some g' → g' ∈ db.groups ∧ g'.key = g.key) ∧
    (r.1 = none → r.2 = false → g ∈ db.groups)) (projects_exec hP ?_ ?_) fun r => ?_
  · intro db _
    by_cases hfree : (db.groups.any (·.key = g.key) || db.groups.any (·.id = g.id))
    · exact .inl (if_pos hfree)
    refine .inr ⟨.group g, if_neg hfree, ?_⟩
    rw [Bool.not_eq_true, Bool.or_eq_false_iff] at hfree
    have hnone : db.groups.find? (·.key = g.key) = none := by
      rw [find?_eq_none]
      exact any_eq_false.mp hfree.1
    refine ⟨by simp [hnone], fun g' hg' => ?_⟩
    have hid := any_eq_false.mp hfree.2 g' hg'
    simpa using hid
  · intro db _ hp
    refine ⟨hp, fun g' hg' => ?_, fun hnone htaken => ?_⟩
    · have hmem := mem_of_find?_eq_some hg'
      have hkey := find?_some hg'
      have hpresent : db.groups.any (·.key = g.key) := any_eq_true.mpr ⟨g', hmem, hkey⟩
      rw [hpresent]
      exact ⟨hmem, of_decide_eq_true hkey⟩
    · dsimp only at hnone htaken
      have habsent : db.groups.any (·.key = g.key) = false := any_eq_false.mpr (find?_eq_none.mp hnone)
      rw [habsent, htaken]
      exact mem_concat_self
  · obtain ⟨existing, _⟩ := r
    cases existing with
    | some g' =>
      refine projects_pure fun db h => ?_
      obtain ⟨hp, hfound, -⟩ := h
      obtain ⟨hmem, hkey⟩ := hfound g' rfl
      rw [← hkey]
      exact ⟨hp, hmem⟩
    | none =>
      refine projects_ensure.bind fun _ => projects_pure fun db h => ?_
      obtain ⟨⟨hp, -, hnew⟩, htaken⟩ := h
      exact ⟨hp, hnew rfl (by simpa using htaken)⟩

theorem projects_linkGroup (h : ∀ db, P db → ⟨groupId, key⟩ ∈ db.groups) :
    Projects P (linkGroup ⟨key.scope, itemId, groupId⟩) fun _ db => P db ∧ Linked itemId groupId key db := by
  refine projects_exec hP ?_ ?_
  · intro db hp
    by_cases hl : db.links.contains ⟨key.scope, itemId, groupId⟩
    · exact .inl (if_pos hl)
    · exact .inr ⟨_, if_neg hl, ⟨groupId, key⟩, h db hp, rfl, rfl⟩
  · intro db _ hp
    refine ⟨hp, h _ hp, ?_⟩
    by_cases hl : db.links.contains ⟨key.scope, itemId, groupId⟩
    · rw [if_pos hl]
      exact contains_iff_mem.mp hl
    · rw [if_neg hl]
      exact mem_concat_self

theorem projects_insertItem {i : Item} : Projects P (insertItem i) (fun _ => P) := by
  refine (projects_insertUnless (R := fun _ => True) hP ?_ fun _ => trivial).post fun _ _ h => h.1
  intro v _ _ htaken
  refine ⟨mem_singleton_self _, fun i' hi' => ?_⟩
  have hfree := any_eq_false.mp htaken i' hi'
  simpa using hfree

theorem projects_ensureItem : Projects P (ensureItem scope o) fun _ => P := by
  refine (projects_insertItem hP).bind fun created => ?_
  cases created
  · refine seq (projects_query hP fun _ _ hp => hp) fun found => ?_
    cases found with
    | none => exact projects_fail
    | some => exact projects_pure fun _ h => h
  · exact projects_pure fun _ h => h

theorem projects_projectEvent (h : ∀ db, P db → ⟨groupId, o.groupKey scope⟩ ∈ db.groups) :
    Projects P (projectEvent scope o groupId) fun itemId db => P db ∧ Linked itemId groupId (o.groupKey scope) db := by
  refine (projects_ensureItem hP).bind fun itemId => ?_
  refine (projects_linkGroup hP h).bind fun _ => ?_
  have hL : Stable fun db : Db δ => P db ∧ Linked itemId groupId (o.groupKey scope) db := hP.and (stable_linked _ _ _)
  refine seq (projects_exec hL (fun _ _ => .inr ⟨.sighting _, rfl, rfl⟩) fun _ _ hp => hp) fun _ => ?_
  exact projects_pure fun _ h => h

theorem projects_projectCurrentEvaluation (h : ∀ db, P db → Linked itemId groupId (o.groupKey scope) db) :
    Projects P (projectCurrentEvaluation scope o groupId itemId) fun _ => P := by
  refine (projects_evaluateItem hP scope itemId o.placement).bind fun value => ?_
  have hE := hP.and (stable_evaluated (δ := δ) scope itemId o.placement value)
  refine (projects_storeGroup hE (o.groupKey scope) fun db hp => ⟨h db hp.1, hp.2⟩).bind fun _ => ?_
  exact (projects_storeSighting hE _ _ _).post fun _ _ hp => hp.1

theorem projects_upsertRestartLoopGroup : Projects P (upsertRestartLoopGroup scope o itemId) fun _ => P := by
  rw [upsertRestartLoopGroup]
  cases o.restartLoop with
  | none => exact projects_pure fun _ h => h
  | some =>
    refine (projects_upsertDerivedGroup hP).bind fun groupId => ?_
    exact (projects_linkGroup (hP.and (stable_group _)) fun _ hp => hp.2).post fun _ _ hp => hp.1.1

theorem projects_insertEvent {agentId eventId : Nat} : Projects P (insertEvent agentId eventId) fun _ => P := by
  refine (projects_insertUnless (R := fun _ => True) hP ?_ fun _ => trivial).post fun _ _ h => h.1
  intro _ _ _ _
  rfl

theorem projects_persistEvent : Projects P (persistEvent scope o) fun _ => P := by
  refine seq (projects_query hP fun _ _ hp => hp) fun owned => ?_
  refine projects_ensure.bind fun _ => ?_
  refine pre (P := P) ?_ fun _ hp => hp.1
  refine (projects_insertEvent hP).bind fun fresh => ?_
  cases fresh
  · exact projects_pure fun _ h => h
  refine (projects_assignEvent hP).bind fun groupId => ?_
  refine (projects_projectEvent (hP.and (stable_group _)) fun _ hp => hp.2).bind fun itemId => ?_
  have hL := (hP.and (stable_group ⟨groupId, o.groupKey scope⟩)).and (stable_linked itemId groupId (o.groupKey scope))
  refine (projects_projectCurrentEvaluation hL fun _ hp => hp.2).bind fun _ => ?_
  refine (projects_upsertRestartLoopGroup hL).bind fun _ => ?_
  exact projects_pure fun _ hp => hp.1.1

theorem projects_persistEvents {closed : Option Int} : Projects P (persistEvents scope closed events) fun _ => P := by
  induction events with
  | nil => exact projects_pure fun _ h => h
  | cons _ _ ih =>
    rw [persistEvents]
    split
    · refine ih.bind fun counts => ?_
      exact projects_pure fun _ h => h
    · refine (projects_persistEvent hP).bind fun one => ?_
      refine ih.bind fun counts => ?_
      exact projects_pure fun _ h => h

end

theorem projects_persistApplicationBatchOutcome :
    Projects (fun _ : Db δ => True) (persistApplicationBatchOutcome scope events) fun _ _ => True := by
  have hlock : Projects (fun _ : Db δ => True) (lockProject scope.organizationId scope.projectId) fun _ _ => True := by
    refine seq (projects_exec stable_true (fun _ _ => .inl rfl) fun _ _ _ => trivial) fun found => ?_
    cases found with
    | none => exact projects_fail
    | some => exact projects_pure fun _ h => h
  exact hlock.bind fun closed => projects_persistEvents stable_true

/-! ### Recomputation -/

theorem projects_claimRecomputation {now : Int} {owner : Nat} :
    Projects (fun _ : Db δ => True) (claimRecomputation now owner) fun _ _ => True := by
  refine (projects_stmt stable_true fun v _ => ?_).mono (fun _ h => h) fun _ _ _ => trivial
  cases nextClaimable now v with
  | none => exact .inl rfl
  | some => exact .inr ⟨.recomputationState _ _ _, rfl, rfl⟩

theorem projects_setRecomputation (hP : Stable P) {id owner : Nat} {state : RecomputeState} :
    Projects P (setRecomputation id owner state) fun _ => P := by
  refine projects_exec (Q := fun _ => P) hP (fun db _ => ?_) fun _ _ hp => hp
  cases (get? Recomputation.id id db.recomputations).filter (leasedTo owner) with
  | none => exact .inl rfl
  | some => exact .inr ⟨.recomputationState _ _ _, rfl, rfl⟩

/-- The groups of a batch are linked as the batch has it. -/
theorem linked_of_mem_groupsToEvaluate (hids : (db.groups.map Group.id).Nodup) (hlinks : ∀ l ∈ db.links, LinkSound db l)
    {limit : Nat} {r : Nat × Group} (hr : r ∈ db.groupsToEvaluate scope behavior limit) :
    r.2.key.scope = scope ∧ Linked r.1 r.2.id r.2.key db := by
  have hr := mem_of_mem_take hr
  rw [mem_insertionSort, Db.pendingGroups, mem_filter, mem_filterMap] at hr
  obtain ⟨⟨l, hl, hlinked⟩, -⟩ := hr
  obtain ⟨hl, hscope⟩ := mem_filter.mp hl
  rw [decide_eq_true_eq] at hscope
  obtain ⟨_, hi, hlinked⟩ := Option.bind_eq_some_iff.mp hlinked
  obtain ⟨g, hg, hlinked⟩ := Option.bind_eq_some_iff.mp hlinked
  obtain ⟨-, hlinked⟩ := Option.ite_none_right_eq_some.mp hlinked
  cases hlinked
  obtain ⟨hi, hiid⟩ := get?_eq_some hi
  obtain ⟨hg, hgid⟩ := get?_eq_some hg
  obtain ⟨g', hg', hgid', hgscope⟩ := hlinks l hl
  obtain rfl : g' = g := eq_of_key_eq hids hg' hg (hgid'.trans hgid.symm)
  refine ⟨hgscope.trans hscope, hg, ?_⟩
  rwa [hgscope, hiid, hgid]

theorem projects_recomputeBatch {operation : Recomputation} {owner batchSize : Nat} :
    Projects (fun _ : Db δ => True) (recomputeBatch operation owner batchSize) fun _ _ => True := by
  refine bind (Q := fun groups db => ∀ r ∈ groups, r.2.key.scope = operation.scope ∧
    Linked r.1 r.2.id r.2.key db) (projects_query stable_true ?_) fun groups => ?_
  · intro db hs _ r hr
    exact linked_of_mem_groupsToEvaluate hs.groupIds hs.links hr
  have hL : Stable fun db : Db δ => ∀ r ∈ groups, r.2.key.scope = operation.scope ∧ Linked r.1 r.2.id r.2.key db := by
    intro v v' h hv r hr
    exact ⟨(hv r hr).1, stable_linked _ _ _ v v' h (hv r hr).2⟩
  refine bind (projects_each fun r hr => ?_) fun _ => ?_
  · refine projects_of_fact (fun _ hp => (hp r hr).1) fun hscope => ?_
    have hproject := projects_projectExistingGroup hL fun _ hp => (hp r hr).2
    rwa [hscope] at hproject
  refine pre (P := fun _ => True) ?_ fun _ _ => trivial
  refine seq ?_ fun sightings => ?_
  · rw [remainingSightings]
    split
    · exact projects_query stable_true fun _ _ _ => trivial
    · exact projects_pure fun _ h => h
  refine bind (projects_each fun s _ => projects_projectExistingSighting stable_true) fun _ => ?_
  rw [settleRecomputation]
  split
  · exact projects_setRecomputation stable_true
  · exact projects_setRecomputation stable_true

theorem projects_runOneBatch {now : Int} {owner batchSize : Nat} :
    Projects (fun _ : Db δ => True) (runOneBatch now owner batchSize) fun _ _ => True := by
  refine projects_ensure.bind fun _ => ?_
  refine pre (P := fun _ => True) ?_ fun _ _ => trivial
  refine projects_claimRecomputation.bind fun claimed => ?_
  cases claimed with
  | none => exact projects_pure fun _ h => h
  | some =>
    refine projects_recomputeBatch.bind fun _ => ?_
    exact projects_pure fun _ h => h

end Okoscope.Server.PolicyDiscipline
