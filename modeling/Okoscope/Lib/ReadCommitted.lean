import Mathlib.Logic.Relation
import Okoscope.Lib.Run

/-!
# Transactions at the isolation level READ COMMITTED

A transaction is a program of statements. Each statement sees what is committed
at that moment together with what its own transaction has written, may lock rows
and may write; what is written becomes visible to others at the commit. A
statement that needs a row another transaction holds waits, and runs on what is
committed when the wait is over.

Any number of transactions run interleaved. A discipline says which states are
good and what a commit may change given the rows it holds locked; a transaction
keeps the discipline if it does so whatever disciplined transactions that hold
other rows commit between its statements. Terms may be set for the commits of a
run: rows that nobody else may hold at that moment, and a condition on what is
committed.
-/
namespace Okoscope.Lib.ReadCommitted

open Run List

variable {σ ω κ ε α β τ : Type}

/-- What a statement sees: the rows, and the locks that other transactions hold. -/
structure View (σ κ : Type) where
  state : σ
  busy : List κ

/-- A transaction still to be run. -/
inductive Tx (σ ω κ ε α : Type) where
  | done (a : α)
  | fail (e : ε)
  | stmt (locks : View σ κ → List κ) (writes : View σ κ → List ω) (next : View σ κ → Tx σ ω κ ε α)

namespace Tx

def bind : Tx σ ω κ ε α → (α → Tx σ ω κ ε β) → Tx σ ω κ ε β
  | .done a, f => f a
  | .fail e, _ => .fail e
  | .stmt locks writes next, f => .stmt locks writes fun v => (next v).bind f

instance : Monad (Tx σ ω κ ε) where
  pure := .done
  bind := .bind

/-- A statement that only reads. -/
def query (f : σ → α) : Tx σ ω κ ε α := .stmt (fun _ => []) (fun _ => []) fun v => .done (f v.state)

/-- A statement that locks rows and writes, and what it returns. -/
def exec (locks : σ → List κ) (writes : σ → List ω) (result : σ → α) : Tx σ ω κ ε α :=
  .stmt (fun v => locks v.state) (fun v => writes v.state) fun v => .done (result v.state)

/-- A check of a constraint; a row that violates it ends the transaction. -/
def ensure (ok : Bool) (e : ε) : Tx σ ω κ ε Unit := if ok then .done () else .fail e

/-- A statement that locks rows and writes, unless a constraint or a trigger refuses it, which ends
the transaction. -/
def guarded (locks : σ → List κ) (refused : σ → Option ε) (writes : σ → List ω) : Tx σ ω κ ε Unit :=
  .stmt (fun v => locks v.state) (fun v => writes v.state) fun v =>
    match refused v.state with
    | some e => .fail e
    | none => .done ()

def ofExcept : Except ε α → Tx σ ω κ ε α
  | .ok a => .done a
  | .error e => .fail e

def ofOption (e : ε) : Option α → Tx σ ω κ ε α
  | some a => .done a
  | none => .fail e

/-- Every write the transaction can make is of a kind. -/
def WritesOnly (p : ω → Prop) : Tx σ ω κ ε α → Prop
  | .done _ => True
  | .fail _ => True
  | .stmt _ writes next => ∀ v, (∀ w ∈ writes v, p w) ∧ (next v).WritesOnly p

/-- Every result the transaction can have is of a kind. -/
def Returns (p : α → Prop) : Tx σ ω κ ε α → Prop
  | .done a => p a
  | .fail _ => True
  | .stmt _ _ next => ∀ v, (next v).Returns p

/-- Runs a program for each element in turn. -/
def each (f : β → Tx σ ω κ ε Unit) : List β → Tx σ ω κ ε Unit
  | [] => .done ()
  | b :: bs => (f b).bind fun _ => each f bs

end Tx

/-- What a list of writes makes of the rows. -/
def applyAll (apply : σ → ω → σ) (s : σ) (ws : List ω) : σ := ws.foldl apply s

variable {ws : List ω} {s : σ} {f : α → Tx σ ω κ ε β} {locks : σ → List κ} {writes : σ → List ω} {result : σ → α}

section
variable (apply : σ → ω → σ)

@[simp] theorem applyAll_nil (s : σ) : applyAll apply s [] = s := rfl

@[simp] theorem applyAll_cons (s : σ) (w : ω) (ws : List ω) :
    applyAll apply s (w :: ws) = applyAll apply (apply s w) ws := rfl

theorem applyAll_append (s : σ) (ws ws' : List ω) :
    applyAll apply s (ws ++ ws') = applyAll apply (applyAll apply s ws) ws' := foldl_append

theorem applyAll_induction {p : σ → Prop} (hw : ∀ w ∈ ws, ∀ s, p s → p (apply s w))
    (hs : p s) : p (applyAll apply s ws) := by
  induction ws generalizing s with
  | nil => exact hs
  | cons w _ ih =>
    exact ih (fun w' h => hw w' (mem_cons_of_mem _ h)) (hw w mem_cons_self s hs)

end

variable {x : Except ε α} {refused : σ → Option ε} {ok : Bool} {e : ε}

section
variable {p : ω → Prop}

theorem writesOnly_bind {t : Tx σ ω κ ε α} (ht : t.WritesOnly p) (hf : ∀ a, (f a).WritesOnly p) :
    (t >>= f).WritesOnly p := by
  induction t with
  | done a => exact hf a
  | fail => trivial
  | stmt _ _ _ ih => exact fun v => ⟨(ht v).1, ih v (ht v).2⟩

theorem writesOnly_pure {a : α} : (pure a : Tx σ ω κ ε α).WritesOnly p := trivial

theorem writesOnly_query {f : σ → α} : (Tx.query f : Tx σ ω κ ε α).WritesOnly p :=
  fun _ => ⟨nofun, trivial⟩

theorem writesOnly_exec (h : ∀ s, ∀ w ∈ writes s, p w) : (Tx.exec locks writes result : Tx σ ω κ ε α).WritesOnly p :=
  fun v => ⟨h v.state, trivial⟩

theorem writesOnly_guarded (h : ∀ s, ∀ w ∈ writes s, p w) : (Tx.guarded locks refused writes).WritesOnly p := by
  refine fun v => ⟨h v.state, ?_⟩
  dsimp only
  split <;> trivial

theorem writesOnly_ensure : (Tx.ensure ok e : Tx σ ω κ ε Unit).WritesOnly p := by
  cases ok <;> trivial

theorem writesOnly_ofExcept : (Tx.ofExcept x : Tx σ ω κ ε α).WritesOnly p := by
  cases x <;> trivial

theorem writesOnly_ofOption {x : Option α} : (Tx.ofOption e x : Tx σ ω κ ε α).WritesOnly p := by
  cases x <;> trivial

end

theorem returns_bind {p : β → Prop} {q : α → Prop} {t : Tx σ ω κ ε α} (ht : t.Returns q)
    (hf : ∀ a, q a → (f a).Returns p) : (t >>= f).Returns p := by
  induction t with
  | done a => exact hf a ht
  | fail => trivial
  | stmt _ _ _ ih => exact fun v => ih v (ht v)

theorem returns_then {p : β → Prop} {t : Tx σ ω κ ε α} (hf : ∀ a, (f a).Returns p) : (t >>= f).Returns p := by
  induction t with
  | done a => exact hf a
  | fail => trivial
  | stmt _ _ _ ih => exact ih

/-! ## A transaction on its own -/

/-- Runs a transaction with no other beside it. -/
def Tx.alone (apply : σ → ω → σ) : Tx σ ω κ ε α → σ → Except ε (α × σ)
  | .done a, s => .ok (a, s)
  | .fail e, _ => .error e
  | .stmt _ writes next, s => (next ⟨s, []⟩).alone apply (applyAll apply s (writes ⟨s, []⟩))

section
variable {apply : σ → ω → σ}

theorem alone_bind (t : Tx σ ω κ ε α) (f : α → Tx σ ω κ ε β) (s : σ) :
    (t >>= f).alone apply s = t.alone apply s >>= fun r => (f r.1).alone apply r.2 := by
  induction t generalizing s with
  | stmt _ _ _ ih => exact ih ⟨s, []⟩ _
  | _ => rfl

theorem alone_induction {p : σ → Prop} (hw : ∀ w s, p s → p (apply s w)) {t : Tx σ ω κ ε α} (hs : p s) {r : α × σ}
    (h : t.alone apply s = .ok r) : p r.2 := by
  induction t generalizing s with
  | done =>
    cases h
    exact hs
  | fail => cases h
  | stmt _ _ _ ih => exact ih _ (applyAll_induction apply (fun w _ => hw w) hs) h

/-- From a state of the first kind the transaction ends, if it does, with a result and a state of the
second. -/
structure Triple (apply : σ → ω → σ) (P : σ → Prop) (t : Tx σ ω κ ε α) (Q : α → σ → Prop) : Prop where
  alone : ∀ s r, P s → t.alone apply s = .ok r → Q r.1 r.2

section
variable {P P' : σ → Prop} {t : Tx σ ω κ ε α} {Q Q' : α → σ → Prop}

variable {R : β → σ → Prop}

theorem Triple.bind (ht : Triple apply P t Q) (hf : ∀ a, Triple apply (Q a) (f a) R) : Triple apply P (t >>= f) R := by
  refine ⟨fun s r hs h => ?_⟩
  rw [alone_bind] at h
  obtain ⟨r', hr', h⟩ := Outcome.bind_eq_ok.mp h
  exact (hf r'.1).alone r'.2 r (ht.alone s r' hs hr') h

theorem Triple.mono (h : Triple apply P t Q) (hp : ∀ s, P' s → P s) (hq : ∀ a s, Q a s → Q' a s) :
    Triple apply P' t Q' :=
  ⟨fun s r hs ha => hq _ _ (h.alone s r (hp s hs) ha)⟩

theorem Triple.pre (h : Triple apply P t Q) (hp : ∀ s, P' s → P s) : Triple apply P' t Q := h.mono hp fun _ _ hq => hq

/-- A step that keeps what is known, whatever it returns. -/
theorem Triple.seq (ht : Triple apply P t fun _ => P) (hf : ∀ a, Triple apply P (f a) R) : Triple apply P (t >>= f) R :=
  ht.bind hf

theorem triple_of_fact {φ : Prop} (hφ : ∀ s, P s → φ) (h : φ → Triple apply P t Q) : Triple apply P t Q :=
  ⟨fun s r hs hr => (h (hφ s hs)).alone s r hs hr⟩

/-- A triple may be proved for one initial state at a time. -/
theorem triple_of_state (h : ∀ s, P s → Triple apply (fun s' => s' = s) t Q) : Triple apply P t Q :=
  ⟨fun s r hs hr => (h s hs).alone s r rfl hr⟩

theorem triple_pure {a : α} (h : ∀ s, P s → Q a s) : Triple apply P (pure a : Tx σ ω κ ε α) Q := by
  refine ⟨fun s r hs hr => ?_⟩
  cases hr
  exact h s hs

theorem triple_return {a : α} : Triple apply P (pure a : Tx σ ω κ ε α) fun _ => P := triple_pure fun _ h => h

theorem Triple.map (ht : Triple apply P t Q) {g : α → β} (h : ∀ a s, Q a s → R (g a) s) :
    Triple apply P (t >>= fun a => pure (g a)) R :=
  ht.bind fun a => triple_pure (h a)

theorem triple_fail : Triple apply P (.fail e : Tx σ ω κ ε α) Q := ⟨nofun⟩

theorem triple_stmt {locks : View σ κ → List κ} {writes : View σ κ → List ω} {result : View σ κ → α}
    (h : ∀ s, P s → Q (result ⟨s, []⟩) (applyAll apply s (writes ⟨s, []⟩))) :
    Triple apply P (.stmt locks writes fun v => .done (result v) : Tx σ ω κ ε α) Q := by
  refine ⟨fun s r hs hr => ?_⟩
  cases hr
  exact h s hs

theorem triple_query {f : σ → α} (h : ∀ s, P s → Q (f s) s) : Triple apply P (.query f : Tx σ ω κ ε α) Q :=
  triple_stmt h

theorem triple_read {f : σ → α} : Triple apply P (.query f : Tx σ ω κ ε α) fun _ => P := triple_query fun _ h => h

theorem triple_exec (h : ∀ s, P s → Q (result s) (applyAll apply s (writes s))) :
    Triple apply P (.exec locks writes result : Tx σ ω κ ε α) Q :=
  triple_stmt h

theorem triple_ensure {Q : Unit → σ → Prop} (h : ∀ s, P s → ok → Q () s) :
    Triple apply P (.ensure ok e : Tx σ ω κ ε Unit) Q := by
  cases ok
  · exact triple_fail
  · exact triple_pure fun s hs => h s hs rfl

theorem triple_test : Triple apply P (.ensure ok e : Tx σ ω κ ε Unit) fun _ => P := triple_ensure fun _ h _ => h

theorem triple_ofExcept (h : ∀ s a, P s → x = .ok a → Q a s) : Triple apply P (.ofExcept x : Tx σ ω κ ε α) Q := by
  cases x with
  | error => exact triple_fail
  | ok a => exact triple_pure fun s hs => h s a hs rfl

/-- The rule of the loop, for rounds that each establish something the other rounds keep. -/
theorem triple_each {f : β → Tx σ ω κ ε Unit} {bs : List β} (hf : ∀ b ∈ bs, Triple apply P (f b) fun _ s => P s ∧ R b s)
    (hkeep : ∀ b ∈ bs, ∀ c ∈ bs, Triple apply (fun s => P s ∧ R c s) (f b) fun _ s => R c s) :
    Triple apply P (.each f bs) fun _ s => P s ∧ ∀ b ∈ bs, R b s := by
  induction bs with
  | nil => exact triple_pure fun s hs => ⟨hs, nofun⟩
  | cons b bs ih =>
    -- what the first round establishes goes through the rest
    have hrest : ∀ bs', (∀ c ∈ bs', c ∈ bs) → Triple apply (fun s => P s ∧ R b s) (.each f bs') fun _ s => R b s := by
      intro bs' hsub
      induction bs' with
      | nil => exact triple_pure fun _ hs => hs.2
      | cons c _ ih' =>
        have hc := mem_cons_of_mem b (hsub c mem_cons_self)
        have hround : Triple apply (fun s => P s ∧ R b s) (f c) fun _ s => P s ∧ R b s :=
          ⟨fun s r hs hr => ⟨((hf c hc).alone s r hs.1 hr).1, (hkeep c hc b mem_cons_self).alone s r hs hr⟩⟩
        exact hround.bind fun _ => ih' fun d hd => hsub d (mem_cons_of_mem _ hd)
    have hall := ih (fun c hc => hf c (mem_cons_of_mem _ hc))
      fun c hc d hd => hkeep c (mem_cons_of_mem _ hc) d (mem_cons_of_mem _ hd)
    refine (hf b mem_cons_self).bind fun _ => ⟨fun s r hs hr => ?_⟩
    have hr' := hall.alone s r hs.1 hr
    refine ⟨hr'.1, fun c hc => ?_⟩
    obtain rfl | hc := mem_cons.mp hc
    · exact (hrest bs fun _ h => h).alone s r hs hr
    · exact hr'.2 c hc

end

end

/-! ## Transactions side by side -/

/-- An open transaction: the rows it holds locked, what it has written and what it is still to do. -/
structure Session (σ ω κ ε α : Type) where
  held : List κ
  written : List ω
  rest : Tx σ ω κ ε α

/-- What is committed, and the transactions started so far; one that has ended leaves its place
empty. -/
structure World (σ ω κ ε α : Type) where
  committed : σ
  sessions : List (Option (Session σ ω κ ε α))

def World.init (s : σ) : World σ ω κ ε α := ⟨s, []⟩

/-- The rows that sessions other than the one at a place hold locked. -/
def World.busy (w : World σ ω κ ε α) (i : Nat) : List κ :=
  (w.sessions.set i none).flatMap fun s => s.elim [] Session.held

inductive Step (τ : Type) where
  | start (t : τ)
  | advance (i : Nat)
  | abandon (i : Nat)

inductive Answer (ε α : Type) where
  | started
  | progressed
  | blocked
  | committed (a : α)
  | failed (e : ε)
  | absent
  deriving DecidableEq

section
variable [DecidableEq κ] (apply : σ → ω → σ) (program : τ → Tx σ ω κ ε α)

/-- Runs the next statement of an open transaction, or ends it. -/
def World.advance (w : World σ ω κ ε α) (i : Nat) (s : Session σ ω κ ε α) : Answer ε α × World σ ω κ ε α :=
  match s.rest with
  | .done a => (.committed a, ⟨applyAll apply w.committed s.written, w.sessions.set i none⟩)
  | .fail e => (.failed e, { w with sessions := w.sessions.set i none })
  | .stmt locks writes next =>
    let v : View σ κ := ⟨applyAll apply w.committed s.written, w.busy i⟩
    if (locks v).any (v.busy.contains ·) then (.blocked, w)
    else (.progressed, { w with
      sessions := w.sessions.set i (some ⟨s.held ++ locks v, s.written ++ writes v, next v⟩) })

def step (w : World σ ω κ ε α) : Step τ → Answer ε α × World σ ω κ ε α
  | .start t => (.started, { w with sessions := w.sessions ++ [some ⟨[], [], program t⟩] })
  | .advance i =>
    match w.sessions[i]? with
    | some (some s) => w.advance apply i s
    | _ => (.absent, w)
  | .abandon i => (.progressed, { w with sessions := w.sessions.set i none })

end

/-! ## Disciplines -/

/-- Which states are good, and what a commit may change given the rows it holds locked. -/
structure Discipline (σ κ : Type) where
  inv : σ → Prop
  guarantee : List κ → σ → σ → Prop

variable {I : List κ → List ω → σ → Prop} {r : σ → σ → Prop}

namespace Discipline
variable (D : Discipline σ κ) (apply : σ → ω → σ)

/-- A commit by a transaction that holds none of the given rows. -/
def Interferes (held : List κ) (s t : σ) : Prop :=
  ∃ locks, List.Disjoint locks held ∧ D.guarantee locks s t ∧ D.inv t

/-- Any number of such commits. -/
def Rely (held : List κ) : σ → σ → Prop := Relation.ReflTransGen (D.Interferes held)

/-- What a transaction has to meet so that it ends in a state its postcondition describes: the
postcondition speaks of the result, the rows held, the writes made and what is committed. -/
def wp (post : α → List κ → List ω → σ → Prop) : Tx σ ω κ ε α → List κ → List ω → σ → Prop
  | .done a, held, ws, s => post a held ws s
  | .fail _, _, _, _ => True
  | .stmt locks writes next, held, ws, s =>
    ∀ s' busy, D.Rely held s s' → D.inv s' →
      wp post (next ⟨applyAll apply s' ws, busy⟩) (held ++ locks ⟨applyAll apply s' ws, busy⟩)
        (ws ++ writes ⟨applyAll apply s' ws, busy⟩) s'

/-- The writes may be committed whenever the other transactions have come to rest. -/
def Commits (held : List κ) (ws : List ω) (s : σ) : Prop :=
  ∀ s', D.Rely held s s' → D.inv s' → D.inv (applyAll apply s' ws) ∧ D.guarantee held s' (applyAll apply s' ws)

/-- The transaction keeps the discipline from every good state. -/
def Keeps (t : Tx σ ω κ ε α) : Prop :=
  ∀ s, D.inv s → D.wp apply (fun _ => D.Commits apply) t [] [] s

variable {D apply}

theorem Rely.refl {held : List κ} : D.Rely held s s := Relation.ReflTransGen.refl

variable {held : List κ}

theorem Rely.trans {t u : σ} (h : D.Rely held s t) (h' : D.Rely held t u) : D.Rely held s u :=
  Relation.ReflTransGen.trans h h'

/-- The more rows are held, the less others can do. -/
theorem Rely.antitone {held' : List κ} (hsub : held ⊆ held') {t : σ} (h : D.Rely held' s t) : D.Rely held s t := by
  induction h with
  | refl => exact Relation.ReflTransGen.refl
  | tail _ hstep ih =>
    obtain ⟨locks, hd, hg, hi⟩ := hstep
    exact Relation.ReflTransGen.tail ih ⟨locks, fun k hk hk' => hd hk (hsub hk'), hg, hi⟩

/-- A preorder that every harmless commit keeps is kept by any number of them. -/
theorem Rely.le (hrefl : ∀ s, r s s) (htrans : ∀ s t u, r s t → r t u → r s u)
    (hr : ∀ locks s t, List.Disjoint locks held → D.guarantee locks s t → r s t) {t : σ} (h : D.Rely held s t) :
    r s t := by
  induction h with
  | refl => exact hrefl s
  | tail _ hstep ih =>
    obtain ⟨locks, hd, hg, -⟩ := hstep
    exact htrans _ _ _ ih (hr locks _ _ hd hg)

theorem wp_bind {post : β → List κ → List ω → σ → Prop} {t : Tx σ ω κ ε α} (held : List κ) (ws : List ω) (s : σ) :
    D.wp apply post (t >>= f) held ws s ↔ D.wp apply (fun a => D.wp apply post (f a)) t held ws s := by
  induction t generalizing held ws s with
  | stmt _ _ _ ih =>
    exact forall_congr' fun s' => forall_congr' fun busy => forall_congr' fun _ => forall_congr' fun _ =>
      ih _ _ _ _
  | _ => exact Iff.rfl

variable {post : α → List κ → List ω → σ → Prop}

theorem wp_mono {post' : α → List κ → List ω → σ → Prop} (hp : ∀ a held ws s, post a held ws s → post' a held ws s)
    {t : Tx σ ω κ ε α} (h : D.wp apply post t held ws s) : D.wp apply post' t held ws s := by
  induction t generalizing held ws s with
  | done a => exact hp a held ws s h
  | fail => trivial
  | stmt _ _ _ ih => exact fun s' busy hr hi => ih _ (h s' busy hr hi)

/-- What a transaction has to meet survives the commits it relies on, if its postcondition does. -/
theorem wp_stable (hp : ∀ a held ws s s', D.Rely held s s' → post a held ws s → post a held ws s') (t : Tx σ ω κ ε α)
    {s' : σ} (hr : D.Rely held s s') (h : D.wp apply post t held ws s) : D.wp apply post t held ws s' := by
  cases t with
  | done a => exact hp a held ws s s' hr h
  | fail => trivial
  | stmt => exact fun s'' busy hr' hi => h s'' busy (hr.trans hr') hi

theorem Commits.stable {s' : σ} (hr : D.Rely held s s') (h : D.Commits apply held ws s) :
    D.Commits apply held ws s' := fun s'' hr' hi => h s'' (hr.trans hr') hi

/-- A transaction on its own is one that nobody interrupts. -/
theorem wp_alone {t : Tx σ ω κ ε α} (hs : D.inv s) (h : D.wp apply post t held ws s) {r : α × σ}
    (hr : t.alone apply (applyAll apply s ws) = .ok r) :
    ∃ held' ws', r.2 = applyAll apply s ws' ∧ post r.1 held' ws' s := by
  induction t generalizing held ws with
  | done =>
    cases hr
    exact ⟨held, ws, rfl, h⟩
  | fail => cases hr
  | stmt _ _ _ ih =>
    refine ih _ (h s [] .refl hs) ?_
    rw [applyAll_append]
    exact hr

variable {t : Tx σ ω κ ε α}

theorem Keeps.alone (h : D.Keeps apply t) (hs : D.inv s) {r : α × σ} (hr : t.alone apply s = .ok r) : D.inv r.2 := by
  obtain ⟨held, _, he, hc⟩ := wp_alone hs (h s hs) hr
  rw [he]
  exact (hc s .refl hs).1

/-! ### Rules for the statement forms -/

theorem wp_query {f : σ → α} (h : ∀ s', D.Rely held s s' → D.inv s' → post (f (applyAll apply s' ws)) held ws s') :
    D.wp apply post (Tx.query f : Tx σ ω κ ε α) held ws s := by
  intro s' busy hr hi
  simpa only [wp, append_nil] using h s' hr hi

theorem wp_exec
    (h : ∀ s', D.Rely held s s' → D.inv s' → post (result (applyAll apply s' ws))
      (held ++ locks (applyAll apply s' ws)) (ws ++ writes (applyAll apply s' ws)) s') :
    D.wp apply post (Tx.exec locks writes result : Tx σ ω κ ε α) held ws s :=
  fun s' _ hr hi => h s' hr hi

section
variable {post : Unit → List κ → List ω → σ → Prop}

theorem wp_guarded
    (h : ∀ s', D.Rely held s s' → D.inv s' → refused (applyAll apply s' ws) = none →
      post () (held ++ locks (applyAll apply s' ws)) (ws ++ writes (applyAll apply s' ws)) s') :
    D.wp apply post (Tx.guarded locks refused writes) held ws s := by
  intro s' busy hr hi
  dsimp only
  split
  · trivial
  · next hn => exact h s' hr hi hn

theorem wp_ensure (h : ok → post () held ws s) : D.wp apply post (Tx.ensure ok e : Tx σ ω κ ε Unit) held ws s := by
  cases ok
  · trivial
  · exact h rfl

end

theorem wp_ofExcept (h : ∀ a, x = .ok a → post a held ws s) :
    D.wp apply post (Tx.ofExcept x : Tx σ ω κ ε α) held ws s := by
  cases x with
  | error => trivial
  | ok a => exact h a rfl

theorem wp_ofOption {x : Option α} (h : ∀ a, x = some a → post a held ws s) :
    D.wp apply post (Tx.ofOption e x : Tx σ ω κ ε α) held ws s := by
  cases x with
  | none => trivial
  | some a => exact h a rfl

/-- The rule for a transaction whose writes are all of a kind: it keeps what survives the commits of
others, more rows held and more writes of that kind. -/
theorem wp_of_writesOnly {p : ω → Prop}
    (hI : ∀ held ws s s' ks new, D.Rely held s s' → (∀ w ∈ new, p w) → I held ws s → I (held ++ ks) (ws ++ new) s')
    (ht : t.WritesOnly p) (h : I held ws s) : D.wp apply (fun _ => I) t held ws s := by
  induction t generalizing held ws s with
  | done => exact h
  | fail => trivial
  | stmt _ _ _ ih =>
    intro s' busy hr _
    obtain ⟨hw, hnext⟩ := ht ⟨applyAll apply s' ws, busy⟩
    exact ih _ hnext (hI held ws s s' _ _ hr hw h)

/-- What may be committed may be committed with more rows held and with writes that are no matter to
the discipline. -/
theorem wp_commits {p : ω → Prop}
    (hmono : ∀ locks locks' s t, D.guarantee locks s t → locks ⊆ locks' → D.guarantee locks' s t)
    (hp : ∀ locks s t w, p w → D.inv t ∧ D.guarantee locks s t → D.inv (apply t w) ∧ D.guarantee locks s (apply t w))
    (ht : t.WritesOnly p) (h : D.Commits apply held ws s) : D.wp apply (fun _ => D.Commits apply) t held ws s := by
  refine wp_of_writesOnly (fun held ws s s' ks new hr hnew hc s'' hr' hi => ?_) ht h
  have hsub := subset_append_left held ks
  obtain ⟨hinv, hfits⟩ := hc s'' (hr.trans (Rely.antitone hsub hr')) hi
  rw [applyAll_append]
  refine applyAll_induction apply (p := fun t => D.inv t ∧ D.guarantee (held ++ ks) s'' t) ?_
    ⟨hinv, hmono held _ s'' _ hfits hsub⟩
  exact fun w hw t h => hp _ s'' t w (hnew w hw) h

/-- The rule for a part that writes nothing. -/
theorem wp_bind_reads {post : β → List κ → List ω → σ → Prop} (ht : t.WritesOnly fun _ => False)
    (hf : ∀ a held' s', held ⊆ held' → D.wp apply post (f a) held' ws s') : D.wp apply post (t >>= f) held ws s := by
  induction t generalizing held s with
  | done a => exact hf a held s (List.Subset.refl held)
  | fail => trivial
  | stmt _ writes _ ih =>
    intro s' busy _ _
    obtain ⟨hw, hnext⟩ := ht ⟨applyAll apply s' ws, busy⟩
    have hnone : writes ⟨applyAll apply s' ws, busy⟩ = [] := eq_nil_iff_forall_not_mem.mpr hw
    rw [hnone, append_nil]
    refine ih _ hnext fun a held' s'' hsub => hf a held' s'' ?_
    exact List.Subset.trans (subset_append_left held _) hsub

theorem wp_of_returns {p : α → Prop} (ht : t.Returns p) (held : List κ) (ws : List ω) (s : σ) :
    D.wp apply (fun a _ _ _ => p a) t held ws s := by
  induction t generalizing held ws s with
  | done => exact ht
  | fail => trivial
  | stmt _ _ _ ih => exact fun s' busy _ _ => ih _ (ht _) _ _ _

/-- The rule of the loop: each round keeps what holds of the rows held, the writes and what is
committed. -/
theorem wp_each {f : β → Tx σ ω κ ε Unit} {bs : List β}
    (hf : ∀ b ∈ bs, ∀ held ws s, I held ws s → D.wp apply (fun _ => I) (f b) held ws s) (h : I held ws s) :
    D.wp apply (fun _ => I) (Tx.each f bs) held ws s := by
  induction bs generalizing held ws s with
  | nil => exact h
  | cons b _ ih =>
    refine (wp_bind held ws s).mpr ?_
    refine wp_mono ?_ (hf b mem_cons_self held ws s h)
    intro _ held ws s h
    exact ih (fun b' hb => hf b' (mem_cons_of_mem _ hb)) h

end Discipline

/-! ## Terms of a commit -/

/-- When a commit is let through: some rows count as locked by it, and what is committed has to
allow it. -/
structure Terms (σ ω κ α : Type) where
  claims : α → List ω → List κ
  allowed : α → List ω → σ → Bool

/-- Every commit is let through. -/
def Terms.free : Terms σ ω κ α := ⟨fun _ _ => [], fun _ _ _ => true⟩

/-- Whether a step that commits does so on the terms: nobody else holds the rows it claims, and it
is allowed. -/
def World.meets [DecidableEq κ] (T : Terms σ ω κ α) (w : World σ ω κ ε α) : Step τ → Bool
  | .advance i =>
    match w.sessions[i]? with
    | some (some ⟨_, written, .done a⟩) =>
      (T.claims a written).all (fun k => !(w.busy i).contains k) && T.allowed a written w.committed
    | _ => true
  | _ => true

theorem meets_free [DecidableEq κ] (w : World σ ω κ ε α) (a : Step τ) : w.meets .free a := by
  unfold World.meets
  split
  · split <;> rfl
  · rfl

/-! ## Disciplined worlds -/

/-- A postcondition of transactions that survives the commits of others and, on the terms, makes
a commit of one's own fit the discipline. -/
structure Contract (D : Discipline σ κ) (apply : σ → ω → σ) (T : Terms σ ω κ α)
    (post : α → List κ → List ω → σ → Prop) : Prop where
  stable : ∀ a held ws s s', D.Rely held s s' → post a held ws s → post a held ws s'
  commits : ∀ a held ws s, post a held ws s → D.inv s → T.allowed a ws s →
    D.inv (applyAll apply s ws) ∧ D.guarantee (held ++ T.claims a ws) s (applyAll apply s ws)

variable {steps : List (Step τ)}

section
variable {D : Discipline σ κ} {apply : σ → ω → σ} {T : Terms σ ω κ α} {post : α → List κ → List ω → σ → Prop}

theorem contract_commits : Contract D apply (.free : Terms σ ω κ α) fun _ => D.Commits apply where
  stable _ _ _ _ _ hr hc := hc.stable hr
  commits a held ws s hc hi _ := by
    show _ ∧ D.guarantee (held ++ []) s _
    rw [append_nil]
    exact hc s .refl hi

/-- The writes may be committed on the terms, whenever the other transactions have come to rest. -/
def Discipline.CommitsOn (D : Discipline σ κ) (apply : σ → ω → σ) (T : Terms σ ω κ α) (a : α) (held : List κ) (ws : List ω)
    (s : σ) : Prop :=
  ∀ s', D.Rely held s s' → D.inv s' → T.allowed a ws s' →
    D.inv (applyAll apply s' ws) ∧ D.guarantee (held ++ T.claims a ws) s' (applyAll apply s' ws)

theorem contract_commitsOn : Contract D apply T (D.CommitsOn apply T) where
  stable _ _ _ _ _ hr hc := fun s' hr' hi => hc s' (hr.trans hr') hi
  commits _ _ _ s hc hi ha := hc s .refl hi ha

/-- A good state, open transactions that will end as the postcondition says, and no row held
twice. -/
structure Disciplined (D : Discipline σ κ) (apply : σ → ω → σ) (post : α → List κ → List ω → σ → Prop)
    (w : World σ ω κ ε α) : Prop where
  inv : D.inv w.committed
  sessions : ∀ (i : Nat) (s : Session σ ω κ ε α), w.sessions[i]? = some (some s) →
    D.wp apply post s.rest s.held s.written w.committed
  apart : ∀ (i j : Nat) (s t : Session σ ω κ ε α), i ≠ j → w.sessions[i]? = some (some s) → w.sessions[j]? = some (some t) →
    List.Disjoint s.held t.held

variable {i : Nat}

theorem getElem?_set_some {l : List (Option β)} {j : Nat} {o : Option β} {b : β}
    (h : (l.set i o)[j]? = some (some b)) : (j = i ∧ o = some b) ∨ (j ≠ i ∧ l[j]? = some (some b)) := by
  by_cases hji : i = j
  · subst hji
    rw [getElem?_set_self'] at h
    cases hl : l[i]? <;> simp only [hl] at h
    · cases h
    · exact .inl ⟨rfl, Option.some.inj h⟩
  · rw [getElem?_set_ne hji] at h
    exact .inr ⟨fun h => hji h.symm, h⟩

/-- Ending a session leaves the others. -/
theorem of_getElem?_set_none {l : List (Option β)} {j : Nat} {b : β} (h : (l.set i none)[j]? = some (some b)) :
    j ≠ i ∧ l[j]? = some (some b) :=
  (getElem?_set_some h).resolve_left fun hown => nomatch hown.2

variable {w : World σ ω κ ε α}

theorem mem_busy {k : κ} : k ∈ w.busy i ↔ ∃ j s, j ≠ i ∧ w.sessions[j]? = some (some s) ∧ k ∈ s.held := by
  rw [World.busy, mem_flatMap]
  constructor
  · intro h
    obtain ⟨o, ho, hk⟩ := h
    cases o with
    | none => cases hk
    | some s =>
      obtain ⟨j, hj⟩ := mem_iff_getElem?.mp ho
      obtain ⟨hji, hj⟩ := of_getElem?_set_none hj
      exact ⟨j, s, hji, hj, hk⟩
  · intro h
    obtain ⟨j, s, hji, hj, hk⟩ := h
    refine ⟨some s, mem_iff_getElem?.mpr ⟨j, ?_⟩, hk⟩
    rw [getElem?_set_ne (fun h => hji h.symm)]
    exact hj

theorem disciplined_init (h : D.inv s) : Disciplined D apply post (World.init s : World σ ω κ ε α) where
  inv := h
  sessions i s hs := by simp [World.init] at hs
  apart i j s t _ hs := by simp [World.init] at hs

theorem disciplined_abandon (h : Disciplined D apply post w) (i : Nat) :
    Disciplined D apply post { w with sessions := w.sessions.set i none } where
  inv := h.inv
  sessions j s hs := h.sessions j s (of_getElem?_set_none hs).2
  apart j k s t hjk hs ht := h.apart j k s t hjk (of_getElem?_set_none hs).2 (of_getElem?_set_none ht).2

theorem disciplined_start (h : Disciplined D apply post w) {t : Tx σ ω κ ε α}
    (ht : ∀ s, D.inv s → D.wp apply post t [] [] s) :
    Disciplined D apply post { w with sessions := w.sessions ++ [some ⟨[], [], t⟩] } := by
  have hplace : ∀ (i : Nat) (s : Session σ ω κ ε α), (w.sessions ++ [some ⟨[], [], t⟩])[i]? = some (some s) →
      w.sessions[i]? = some (some s) ∨ s = ⟨[], [], t⟩ := by
    intro i s hs
    rw [getElem?_append] at hs
    split at hs
    · exact .inl hs
    rw [getElem?_singleton] at hs
    split at hs
    · exact .inr (Option.some.inj (Option.some.inj hs)).symm
    · cases hs
  refine ⟨h.inv, ?_, ?_⟩
  · intro i s hs
    obtain hs | rfl := hplace i s hs
    · exact h.sessions i s hs
    · exact ht w.committed h.inv
  · intro i j s u hij hs hu
    obtain hs' | rfl := hplace i s hs
    · obtain hu' | rfl := hplace j u hu
      · exact h.apart i j s u hij hs' hu'
      · exact disjoint_nil_right _
    · exact disjoint_nil_left _

/-- Others may do anything that leads to good states. It serves to tell what a transaction does as long as
the states are good, whoever sees to that. -/
def Discipline.within (good : σ → Prop) : Discipline σ κ := ⟨good, fun _ _ _ => True⟩

variable {good : σ → Prop} {q : α → List ω → Prop}

/-- The transaction at a place will, if it commits, have written what belongs to its result. -/
structure Awaits (good : σ → Prop) (apply : σ → ω → σ) (q : α → List ω → Prop) (w : World σ ω κ ε α) (i : Nat) : Prop where
  committed : good w.committed
  started : i < w.sessions.length
  session : ∀ s, w.sessions[i]? = some (some s) →
    (Discipline.within good).wp apply (fun a _ ws _ => q a ws) s.rest s.held s.written w.committed

theorem Awaits.keeps (h : Awaits good apply q w i) {w' : World σ ω κ ε α} (hgood : good w'.committed)
    (hlength : i < w'.sessions.length)
    (hs : ∀ s, w'.sessions[i]? = some (some s) → w.sessions[i]? = some (some s)) : Awaits good apply q w' i where
  committed := hgood
  started := hlength
  session s hs' := by
    have hrely : (Discipline.within good).Rely s.held w.committed w'.committed :=
      .single ⟨[], disjoint_nil_left _, trivial, hgood⟩
    exact Discipline.wp_stable (fun _ _ _ _ _ _ hq => hq) s.rest hrely (h.session s (hs s hs'))

variable [DecidableEq κ] {program : τ → Tx σ ω κ ε α}

variable {a : α}

theorem session_of_committed (ha : (step apply program w (.advance i)).1 = .committed a) :
    ∃ held ws, w.sessions[i]? = some (some ⟨held, ws, .done a⟩) ∧
      (step apply program w (.advance i)).2.committed = applyAll apply w.committed ws := by
  rw [step] at ha ⊢
  split at ha
  next s hs =>
    obtain ⟨held, ws, rest⟩ := s
    rw [World.advance] at ha ⊢
    cases rest with
    | done =>
      cases ha
      exact ⟨held, ws, hs, rfl⟩
    | fail => cases ha
    | stmt =>
      dsimp only at ha
      split at ha <;> cases ha
  · cases ha

section
variable (C : Contract D apply T post)
include C

section
variable (h : Disciplined D apply post w)
include h

section
variable {held : List κ} (hs : w.sessions[i]? = some (some ⟨held, ws, .done a⟩))
  (hm : w.meets T (.advance i : Step τ))
include hs hm

/-- What a commit on the terms does, and which rows it counts as holding. -/
theorem commit_fits : post a held ws w.committed ∧ T.allowed a ws w.committed ∧ D.inv (applyAll apply w.committed ws) ∧
      D.guarantee (held ++ T.claims a ws) w.committed (applyAll apply w.committed ws) ∧
      ∀ j t, j ≠ i → w.sessions[j]? = some (some t) → List.Disjoint (held ++ T.claims a ws) t.held := by
  have hpost : post a held ws w.committed := h.sessions i _ hs
  simp only [World.meets, hs, Bool.and_eq_true, all_eq_true, Bool.not_eq_true'] at hm
  obtain ⟨hclaims, hallowed⟩ := hm
  obtain ⟨hinv, hg⟩ := C.commits a held ws w.committed hpost h.inv hallowed
  refine ⟨hpost, hallowed, hinv, hg, fun j t hji ht k hk hk' => ?_⟩
  obtain hk | hk := mem_append.mp hk
  · exact h.apart i j _ t (fun e => hji e.symm) hs ht hk hk'
  · have hfree := hclaims k hk
    rw [contains_eq_mem, decide_eq_false_iff_not] at hfree
    exact hfree (mem_busy.mpr ⟨j, t, hji, ht, hk'⟩)

/-- A commit is one of those the other sessions rely on. -/
theorem disciplined_commit : Disciplined D apply post ⟨applyAll apply w.committed ws, w.sessions.set i none⟩ := by
  obtain ⟨-, -, hinv, hg, hapart⟩ := commit_fits C h hs hm
  have ha := disciplined_abandon h i
  refine ⟨hinv, ?_, ha.apart⟩
  intro j t ht
  obtain ⟨hji, ht'⟩ := of_getElem?_set_none ht
  have hstep : D.Interferes t.held w.committed (applyAll apply w.committed ws) :=
    ⟨held ++ T.claims a ws, hapart j t hji ht', hg, hinv⟩
  exact Discipline.wp_stable C.stable t.rest (Relation.ReflTransGen.single hstep) (ha.sessions j t ht)

end

theorem disciplined_advance {s : Session σ ω κ ε α}
    (hs : w.sessions[i]? = some (some s)) (hm : w.meets T (.advance i : Step τ)) :
    Disciplined D apply post (w.advance apply i s).2 := by
  obtain ⟨held, ws, rest⟩ := s
  have hwp := h.sessions i _ hs
  rw [World.advance]
  cases rest with
  | done => exact disciplined_commit C h hs hm
  | fail => exact disciplined_abandon h i
  | stmt locks _ next =>
    dsimp only at hwp ⊢
    split
    · exact h
    next hfree =>
    have hfree' : ∀ k ∈ locks ⟨applyAll apply w.committed ws, w.busy i⟩, k ∉ w.busy i := by
      simpa only [any_eq_true, contains_iff_mem, not_exists, not_and] using hfree
    -- the rows newly locked were free, so they are held by no other session
    have hapart : ∀ j t, j ≠ i → w.sessions[j]? = some (some t) →
        List.Disjoint (held ++ locks ⟨applyAll apply w.committed ws, w.busy i⟩) t.held := by
      intro j t hji ht k hk hk'
      obtain hk | hk := mem_append.mp hk
      · exact h.apart i j _ t (fun e => hji e.symm) hs ht hk hk'
      · exact hfree' k hk (mem_busy.mpr ⟨j, t, hji, ht, hk'⟩)
    refine ⟨h.inv, ?_, ?_⟩
    · intro j t ht
      obtain ⟨-, he⟩ | ⟨-, ht'⟩ := getElem?_set_some ht
      · cases he
        exact hwp w.committed (w.busy i) .refl h.inv
      · exact h.sessions j t ht'
    · intro j k t u hjk ht hu
      obtain ⟨hji, he⟩ | ⟨hji, ht'⟩ := getElem?_set_some ht
      · cases he
        obtain ⟨hki, -⟩ | ⟨hki, hu'⟩ := getElem?_set_some hu
        · exact absurd (hji.trans hki.symm) hjk
        · exact hapart k u hki hu'
      · obtain ⟨-, he⟩ | ⟨-, hu'⟩ := getElem?_set_some hu
        · cases he
          exact fun k hk hk' => hapart j t hji ht' hk' hk
        · exact h.apart j k t u hjk ht' hu'

theorem disciplined_step (hp : ∀ t s, D.inv s → D.wp apply post (program t) [] [] s)
    {a : Step τ} (hm : w.meets T a) : Disciplined D apply post (step apply program w a).2 := by
  cases a with
  | start t => exact disciplined_start h (hp t)
  | advance =>
    rw [step]
    split
    next hs => exact disciplined_advance C h hs hm
    · exact h
  | abandon i => exact disciplined_abandon h i

end

/-- Every run whose commits meet the terms stays disciplined. -/
theorem disciplined_trace (hs : D.inv s) (hp : ∀ t s, D.inv s → D.wp apply post (program t) [] [] s)
    (h : Along (step apply program) (fun w a => w.meets T a) (World.init s) steps) :
    Disciplined D apply post (trace (step apply program) (World.init s) steps).2 :=
  trace_invariant_along (fun _ w => Disciplined D apply post w)
    (fun _ _ _ hw hm => disciplined_step C hw hp hm) (disciplined_init hs) h

/-- A step on the terms leaves what is committed alone or changes it as the discipline says. -/
theorem step_guarantee (h : Disciplined D apply post w) {a : Step τ} (hm : w.meets T a) :
    (step apply program w a).2.committed = w.committed ∨
      ∃ locks, D.guarantee locks w.committed (step apply program w a).2.committed := by
  cases a with
  | advance =>
    rw [step]
    split
    next s hs =>
      obtain ⟨held, _, rest⟩ := s
      rw [World.advance]
      cases rest with
      | done =>
        obtain ⟨-, -, -, hg, -⟩ := commit_fits C h hs hm
        exact .inr ⟨_, hg⟩
      | fail => exact .inl rfl
      | stmt =>
        dsimp only
        split <;> exact .inl rfl
    · exact .inl rfl
  | _ => exact .inl rfl

/-- A preorder that every fitting commit keeps holds between what is committed at any two moments
of a run. -/
theorem trace_guarantee (hrefl : ∀ s, r s s) (htrans : ∀ s t u, r s t → r t u → r s u)
    (hr : ∀ locks s t, D.guarantee locks s t → r s t) (hp : ∀ t s, D.inv s → D.wp apply post (program t) [] [] s)
    (h : Disciplined D apply post w) (hm : Along (step apply program) (fun w a => w.meets T a) w steps) :
    r w.committed (trace (step apply program) w steps).2.committed := by
  induction steps generalizing w with
  | nil => exact hrefl _
  | cons a _ ih =>
    have hrest := ih (disciplined_step C h hp hm.1) hm.2
    refine htrans _ _ _ ?_ hrest
    have hstep : (step apply program w a).2.committed = w.committed ∨
        ∃ locks, D.guarantee locks w.committed (step apply program w a).2.committed := step_guarantee C h hm.1
    obtain heq | ⟨locks, hg⟩ := hstep
    · rw [heq]
      exact hrefl _
    · exact hr locks _ _ hg

end

/-! ## Part of a run -/

theorem Awaits.step (h : Awaits good apply q w i) {b : Step τ} (hgood : good (step apply program w b).2.committed) :
    Awaits good apply q (step apply program w b).2 i := by
  cases b with
  | start t =>
    refine h.keeps hgood (by simp only [ReadCommitted.step, length_append]; have := h.started; omega) fun s hs => ?_
    rwa [ReadCommitted.step, getElem?_append_left h.started] at hs
  | abandon j =>
    exact h.keeps hgood (by simpa [ReadCommitted.step] using h.started) fun s hs => (of_getElem?_set_none hs).2
  | advance j =>
    rw [ReadCommitted.step] at hgood ⊢
    split at hgood
    next s hs =>
      obtain ⟨held, ws, rest⟩ := s
      rw [World.advance] at hgood ⊢
      cases rest with
      | done => exact h.keeps hgood (by simpa using h.started) fun s hs => (of_getElem?_set_none hs).2
      | fail => exact h.keeps hgood (by simpa using h.started) fun s hs => (of_getElem?_set_none hs).2
      | stmt locks writes next =>
        dsimp only at hgood ⊢
        split
        · exact h
        · refine ⟨h.committed, by simpa using h.started, fun t ht => ?_⟩
          -- only its own statements change the session
          obtain ⟨rfl, he⟩ | ⟨-, ht'⟩ := getElem?_set_some ht
          · cases he
            exact h.session _ hs w.committed (w.busy i) .refl h.committed
          · exact h.session t ht'
    · exact h

/-- A transaction whose part of a run, from its start to its commit, stays in good states has written what
belongs to its result. -/
theorem committed_within {t : τ}
    (ht : ∀ s, good s → (Discipline.within good).wp apply (fun a _ ws _ => q a ws) (program t) [] [] s)
    (hw : good w.committed) (hgood : Along (step apply program)
      (fun w b => good w.committed → good (step apply program w b).2.committed) w (.start t :: steps))
    (ha : (step apply program (trace (step apply program) w (.start t :: steps)).2 (.advance w.sessions.length)).1 =
      .committed a) :
    ∃ ws, q a ws ∧ good (trace (step apply program) w (.start t :: steps)).2.committed ∧
      (step apply program (trace (step apply program) w (.start t :: steps)).2 (.advance w.sessions.length)).2.committed =
        applyAll apply (trace (step apply program) w (.start t :: steps)).2.committed ws := by
  have hstarted : Awaits good apply q (step apply program w (.start t)).2 w.sessions.length := by
    refine ⟨hw, by simp [ReadCommitted.step], fun s hs => ?_⟩
    rw [ReadCommitted.step, getElem?_concat_length] at hs
    cases hs
    exact ht w.committed hw
  have hawaits : Awaits good apply q (trace (step apply program) (step apply program w (.start t)).2 steps).2
      w.sessions.length :=
    trace_invariant_along (fun _ w' => Awaits good apply q w' w.sessions.length)
      (fun _ _ _ h hb => h.step (hb h.committed)) hstarted hgood.2
  obtain ⟨held, ws, hs, hafter⟩ := session_of_committed ha
  exact ⟨ws, hawaits.session _ hs, hawaits.committed, hafter⟩

/-- If every transaction keeps the discipline on its own account, every interleaving of any number
of them leaves a good state. -/
theorem committed_inv (hp : ∀ t, D.Keeps apply (program t)) (hs : D.inv s) :
    D.inv (trace (step apply program) (World.init s) steps).2.committed :=
  (disciplined_trace contract_commits hs hp (along_of_always meets_free _)).inv

end

end Okoscope.Lib.ReadCommitted
