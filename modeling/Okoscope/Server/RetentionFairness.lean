import Okoscope.Lib.Paging

/-!
# Turns of the retention worker

Every tick of the worker takes a page of projects after a cursor and serves them in order
until one fails. The cursor goes on to each project that is started, whether it fails or not,
and back to the beginning when no project is left. No project waits for longer than a round.
-/
namespace Okoscope.Server.RetentionFairness

open Lib.Paging List

/-- A project. Identifiers are compared as numbers; they are generated and never nil, which is zero. -/
structure Project where
  organizationId : Nat
  id : Nat
  generated : 0 < id

/-- How each function for one project ends when it is called. -/
structure Work (ε : Type) where
  processProject : Project → Except ε Nat
  cleanupProject : Project → Except ε Nat
  hasBacklog : Project → Except ε Bool

inductive Call where
  | processProject (id : Nat)
  | cleanupProject (id : Nat)
  | hasBacklog (id : Nat)
  deriving DecidableEq

/-- The calls that were made, and what came of them. -/
structure Called (ε α : Type) where
  calls : List Call
  result : Except ε α

/-- What a tick leaves: the cursor, the calls that it made, and its result, the number of events compacted and that
of projects with a backlog. -/
structure Tick (ε : Type) extends Called ε (Nat × Nat) where
  cursor : Nat

def projectPage (projects : List Project) (cursor : Nat) : List Project :=
  rowsAfter Project.id (fun _ => true) (some cursor) 32 projects

variable {ε : Type}

/-- No call is made after one that failed. -/
instance : Monad (Called ε) where
  pure a := ⟨[], .ok a⟩
  bind x f :=
    match x.result with
    | .error e => ⟨x.calls, .error e⟩
    | .ok a => ⟨x.calls ++ (f a).calls, (f a).result⟩

def processProject (work : Work ε) (project : Project) : Called ε Nat :=
  ⟨[.processProject project.id], work.processProject project⟩

def cleanupProject (work : Work ε) (project : Project) : Called ε Nat :=
  ⟨[.cleanupProject project.id], work.cleanupProject project⟩

def hasBacklog (work : Work ε) (project : Project) : Called ε Bool :=
  ⟨[.hasBacklog project.id], work.hasBacklog project⟩

def serve (work : Work ε) (project : Project) : Called ε (Nat × Bool) := do
  let compacted ← processProject work project
  let cleaned ← cleanupProject work project
  let pending ← hasBacklog work project
  pure (compacted + cleaned, pending)

/-- The loop over a page. The cursor is advanced before a project is served. -/
def serveAll (work : Work ε) (cursor count backlog : Nat) : List Project → Tick ε
  | [] => ⟨⟨[], .ok (count, backlog)⟩, cursor⟩
  | project :: rest =>
    match (serve work project).result with
    | .error e => ⟨⟨(serve work project).calls, .error e⟩, project.id⟩
    | .ok (n, pending) =>
      let tick := serveAll work project.id (count + n) (backlog + pending.toNat) rest
      { tick with calls := (serve work project).calls ++ tick.calls }

def tick (projects : List Project) (work : Work ε) (cursor : Nat) : Tick ε :=
  let page := projectPage projects cursor
  serveAll work (if page.isEmpty then 0 else cursor) 0 0 page

/-- The cursor before each tick, for any sequence of outcomes. -/
def cursorAt (projects : List Project) (works : Nat → Work ε) : Nat → Nat
  | 0 => 0
  | n + 1 => (tick projects (works n) (cursorAt projects works n)).cursor

/-! ## One tick -/

variable {projects : List Project} (work : Work ε) {cursor : Nat}

/-- The tick called `process_project` for the project. -/
def Tick.Starts (t : Tick ε) (p : Project) : Prop := .processProject p.id ∈ t.calls

theorem mem_calls_bind {α β : Type} {call : Call} {x : Called ε α} {f : α → Called ε β} (h : call ∈ x.calls) :
    call ∈ (x >>= f).calls := by
  show call ∈ Called.calls (match x.result with | .error e => ⟨x.calls, .error e⟩ | .ok a => _)
  split
  · exact h
  · exact mem_append_left _ h

/-- Whatever fails, serving a project begins with this call. -/
theorem mem_calls_serve (p : Project) : .processProject p.id ∈ (serve work p).calls :=
  mem_calls_bind (mem_singleton_self _)

/-- The loop leaves the cursor at a project of the page, after all that it started. -/
theorem serveAll_page (cursor count backlog : Nat) {page : List Project} (hpage : page ≠ [])
    (hsorted : page.Pairwise (·.id ≤ ·.id)) : (∃ p ∈ page, (serveAll work cursor count backlog page).cursor = p.id) ∧
      ∀ p ∈ page, p.id ≤ (serveAll work cursor count backlog page).cursor →
        (serveAll work cursor count backlog page).Starts p := by
  induction page generalizing cursor count backlog with
  | nil => exact absurd rfl hpage
  | cons project rest ih =>
    obtain ⟨hfirst, hsorted⟩ := pairwise_cons.mp hsorted
    rw [serveAll]
    have hcalled := mem_calls_serve work project
    cases (serve work project).result with
    | error =>
      refine ⟨⟨project, mem_cons_self, rfl⟩, fun p hp hle => ?_⟩
      have hid : p.id = project.id := by
        obtain rfl | hp := mem_cons.mp hp
        · rfl
        · exact le_antisymm hle (hfirst p hp)
      rwa [Tick.Starts, hid]
    | ok served =>
      cases rest with
      | nil =>
        refine ⟨⟨project, mem_cons_self, rfl⟩, fun p hp _ => mem_append_left _ ?_⟩
        rwa [mem_singleton.mp hp]
      | cons next rest =>
        obtain ⟨⟨p, hp, hcursor⟩, hstarted⟩ := ih _ _ _ (cons_ne_nil _ _) hsorted
        refine ⟨⟨p, mem_cons_of_mem _ hp, hcursor⟩, fun q hq hle => ?_⟩
        obtain rfl | hq := mem_cons.mp hq
        · exact mem_append_left _ hcalled
        · exact mem_append_right _ (hstarted q hq hle)

theorem projectPage_eq_take (projects : List Project) (cursor : Nat) :
    ∃ rows : List Project, projectPage projects cursor = rows.take 32 ∧ rows.Pairwise (·.id ≤ ·.id) ∧
      ∀ p, p ∈ rows ↔ p ∈ projects ∧ cursor < p.id :=
  ⟨_, rfl, pairwise_inOrder, fun p => by simp [inOrder, mem_insertionSort]⟩

/-- A tick starts every project it passes, and passes at least one that waits. -/
theorem tick_of_waiting {p : Project} (hp : p ∈ projects) (hwaits : cursor < p.id) :
    (∃ q ∈ projects, cursor < q.id ∧ (tick projects work cursor).cursor = q.id) ∧
      ∀ q ∈ projects, cursor < q.id → q.id ≤ (tick projects work cursor).cursor →
        (tick projects work cursor).Starts q := by
  obtain ⟨rows, hpage, hsorted, hmem⟩ := projectPage_eq_take projects cursor
  rw [tick, hpage]
  have hsome : rows.take 32 ≠ [] := by
    intro hempty
    have hnone := (take_eq_nil_iff.mp hempty).resolve_left (by decide)
    exact ne_nil_of_mem ((hmem p).mpr ⟨hp, hwaits⟩) hnone
  obtain ⟨⟨r, hr, hcursor⟩, hstarted⟩ :=
    serveAll_page work (if (rows.take 32).isEmpty then 0 else cursor) 0 0 hsome hsorted.take
  have hr' := (hmem r).mp (mem_of_mem_take hr)
  refine ⟨⟨r, hr'.1, hr'.2, hcursor⟩, fun q hq hlt hle => ?_⟩
  have hq' := (hmem q).mpr ⟨hq, hlt⟩
  rw [← take_append_drop 32 rows, mem_append] at hq'
  obtain hq' | hlater := hq'
  · exact hstarted q hq' hle
  · -- a later project has the id of the last one on the page at most if it is that one
    rw [← take_append_drop 32 rows, pairwise_append] at hsorted
    have heq : q.id = r.id := le_antisymm (hle.trans hcursor.le) (hsorted.2.2 r hr q hlater)
    rw [Tick.Starts, heq]
    exact hstarted r hr hcursor.ge

theorem tick_of_none (hnone : ∀ p ∈ projects, p.id ≤ cursor) : (tick projects work cursor).cursor = 0 := by
  obtain ⟨rows, hpage, -, hmem⟩ := projectPage_eq_take projects cursor
  have hrows : rows = [] := by
    refine eq_nil_iff_forall_not_mem.mpr fun p hp => ?_
    obtain ⟨hp, hlt⟩ := (hmem p).mp hp
    exact absurd hlt (not_lt.mpr (hnone p hp))
  rw [tick, hpage, hrows]
  rfl

/-! ## Rounds -/

/-- The projects up to an identifier. -/
def upTo (projects : List Project) (id : Nat) : Nat := projects.countP (·.id ≤ id)

theorem upTo_mono (projects : List Project) {x y : Nat} (h : x ≤ y) : upTo projects x ≤ upTo projects y :=
  countP_mono_left fun _ _ hp => decide_eq_true ((of_decide_eq_true hp).trans h)

theorem upTo_lt {p : Project} (hp : p ∈ projects) {x y : Nat} (hx : x < p.id) (hy : p.id ≤ y) :
    upTo projects x < upTo projects y := by
  obtain ⟨before, after, rfl⟩ := append_of_mem hp
  have hbefore := upTo_mono before (hx.le.trans hy)
  have hafter := upTo_mono after (hx.le.trans hy)
  simp only [upTo, countP_append, countP_cons, decide_eq_true hy, decide_eq_false (not_le.mpr hx), if_true,
    Bool.false_eq_true, if_false] at *
  omega

/-- How many ticks it takes at most until a project is started: one for each project up to it, and one more if the
worker has to go back to the beginning. -/
def waiting (projects : List Project) (cursor id : Nat) : Nat :=
  if cursor < id then upTo projects id - upTo projects cursor
  else projects.length - upTo projects cursor + 1 + upTo projects id

/-- A tick that does not start a project brings it closer. -/
theorem waiting_tick {p : Project} (hp : p ∈ projects) (hnot : ¬ (tick projects work cursor).Starts p) :
    waiting projects (tick projects work cursor).cursor p.id < waiting projects cursor p.id := by
  have hall : ∀ id, upTo projects id ≤ projects.length := fun _ => countP_le_length
  by_cases hnone : ∀ q ∈ projects, q.id ≤ cursor
  · have hpassed := hnone p hp
    rw [tick_of_none _ hnone, waiting, if_pos p.generated, waiting, if_neg (by omega)]
    omega
  · obtain ⟨r, hr, hlater⟩ : ∃ r ∈ projects, cursor < r.id := by simpa using hnone
    obtain ⟨⟨q, hq, hlt, hcursor⟩, hstarted⟩ := tick_of_waiting work hr hlater
    have hcloser := upTo_lt hq hlt le_rfl
    have hle := hall q.id
    unfold waiting
    by_cases hwaits : cursor < p.id
    · have hbefore : (tick projects work cursor).cursor < p.id := not_le.mp fun hle => hnot (hstarted p hp hwaits hle)
      have hmono := upTo_mono projects hbefore.le
      rw [if_pos hbefore, if_pos hwaits, hcursor]
      rw [hcursor] at hmono
      omega
    · rw [if_neg (by omega), if_neg hwaits, hcursor]
      omega

/-- For every set of projects and whatever fails in which tick, `process_project` is called for every project at
least once in as many consecutive ticks as there are projects and one. -/
theorem started_every_round (projects : List Project) (works : Nat → Work ε) (n : Nat) :
    ∀ p ∈ projects, ∃ k < projects.length + 1,
      (tick projects (works (n + k)) (cursorAt projects works (n + k))).Starts p := by
  intro p hp
  have hrounds : ∀ d n, waiting projects (cursorAt projects works n) p.id ≤ d → ∃ k < d,
      (tick projects (works (n + k)) (cursorAt projects works (n + k))).Starts p := by
    intro d
    induction d with
    | zero =>
      intro n hle
      unfold waiting at hle
      split at hle
      next hwaits =>
        have hlt := upTo_lt hp hwaits le_rfl
        omega
      · omega
    | succ d ih =>
      intro n hle
      by_cases hstarted : (tick projects (works n) (cursorAt projects works n)).Starts p
      · exact ⟨0, Nat.succ_pos d, hstarted⟩
      · have hcloser := waiting_tick _ hp hstarted
        obtain ⟨k, hk, hnext⟩ := ih (n + 1) (Nat.lt_succ_iff.mp (hcloser.trans_le hle))
        exact ⟨k + 1, Nat.succ_lt_succ hk, by rwa [show n + (k + 1) = n + 1 + k by omega]⟩
  refine hrounds _ n ?_
  have hall : upTo projects p.id ≤ projects.length := countP_le_length
  unfold waiting
  split
  · omega
  next hpassed =>
    have hmono := upTo_mono projects (not_lt.mp hpassed)
    have hcursor : upTo projects (cursorAt projects works n) ≤ projects.length := countP_le_length
    omega

def twoProjects : List Project := [⟨1, 1, Nat.one_pos⟩, ⟨1, 2, Nat.two_pos⟩]

def firstFails : Work Unit where
  processProject p := if p.id = 1 then .error () else .ok 0
  cleanupProject _ := .ok 0
  hasBacklog _ := .ok false

/-- One of two projects always fails, and the other one is started all the same. -/
theorem started_beside_failing : ∃ k < 3, .processProject 2 ∈
      (tick twoProjects firstFails (cursorAt twoProjects (fun _ => firstFails) (0 + k))).calls :=
  started_every_round twoProjects (fun _ => firstFails) 0 ⟨1, 2, Nat.two_pos⟩ (by simp [twoProjects])

end Okoscope.Server.RetentionFairness
