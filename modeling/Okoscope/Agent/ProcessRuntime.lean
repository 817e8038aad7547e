import Okoscope.EventModel.Termination
import Okoscope.Lib.FiniteMap
import Okoscope.Lib.Run

/-!
# Process generations

The agent numbers the processes it observes, remembers the last execution of
each, and consumes the record when the process exits. The store is bounded:
the oldest numbered record is evicted, and the evicted key is remembered so
that a later exit is not taken for an unobserved process.
-/
namespace Okoscope.Agent.ProcessRuntime

open Lib Lib.Run Lib.FiniteMap EventModel
open GenerationCorrelation

structure ProcessKey where
  cgroupId : UInt64
  tgid : UInt32
  deriving DecidableEq

structure ExecEvidence where
  eventId : Uuid
  executable : String
  deriving DecidableEq

structure ProcessGeneration where
  identity : ProcessGenerationIdentity
  observedAtNs : UInt64
  exec : Option ExecEvidence
  deriving DecidableEq

structure ConsumedGeneration where
  identity : Option ProcessGenerationIdentity
  correlation : GenerationCorrelation
  deriving DecidableEq

abbrev Entries := AList fun _ : ProcessKey => ProcessGeneration

structure ProcessGenerationStore where
  capacity : Nat
  epoch : Uuid
  nextGeneration : UInt64
  entries : Entries
  lru : List (ProcessKey × UInt64)
  evicted : Finset ProcessKey

/-- The order in which a hash set happens to be iterated. -/
structure IterationOrder where
  first : Finset ProcessKey → Option ProcessKey
  first_mem : ∀ s : Finset ProcessKey, s.Nonempty → ∃ k ∈ s, first s = some k

noncomputable instance : Inhabited IterationOrder where
  default :=
    { first := fun s => s.toList.head?
      first_mem := fun s h => by
        obtain ⟨key, rest, hlist⟩ := List.exists_cons_of_ne_nil h.toList_ne_nil
        exact ⟨key, Finset.mem_toList.mp (by rw [hlist]; exact List.mem_cons_self), by rw [hlist]; rfl⟩ }

/-- A failed `expect`. -/
inductive Panic where
  | expectFailed (message : String)
  deriving DecidableEq, Repr

variable {g : ProcessGeneration} {consumed : ConsumedGeneration} {t : ProcessGenerationStore}

variable {evicted : Finset ProcessKey} {executable : String} {capacity : Nat}

namespace ProcessGenerationStore

/-- A fresh store; `epoch` is the random identifier of this agent run. -/
def new (capacity : Nat) (epoch : Uuid) : ProcessGenerationStore where
  capacity
  epoch
  nextGeneration := 1
  entries := ∅
  lru := []
  evicted := ∅

/-- Pops numbered keys, oldest first, until the entries fit; a popped key is
evicted when its entry still has that number. -/
def evictOldest (capacity : Nat) : List (ProcessKey × UInt64) → Entries → Finset ProcessKey →
      List (ProcessKey × UInt64) × Entries × Finset ProcessKey
  | [], entries, evicted => ([], entries, evicted)
  | (key, generation) :: lru, entries, evicted =>
    if entries.entries.length > capacity then
      if (entries.lookup key).any fun entry => entry.identity.generation = generation then
        evictOldest capacity lru (entries.erase key) (insert key evicted)
      else
        evictOldest capacity lru entries evicted
    else ((key, generation) :: lru, entries, evicted)

/-- Forgets evicted keys, in iteration order, down to the limit. The loop removes
one key a turn, so the size of the set bounds its turns. -/
def trimEvicted (order : IterationOrder) (limit : Nat) : Nat → Finset ProcessKey → Finset ProcessKey
  | 0, evicted => evicted
  | fuel + 1, evicted =>
    if evicted.card > limit then
      match order.first evicted with
      | some key => trimEvicted order limit fuel (evicted.erase key)
      | none => trimEvicted order limit fuel evicted
    else evicted

def enforceCapacity (order : IterationOrder) (s : ProcessGenerationStore) : ProcessGenerationStore :=
  let (lru, entries, evicted) := evictOldest s.capacity s.lru s.entries s.evicted
  { s with lru, entries, evicted := trimEvicted order (max s.capacity 1) evicted.card evicted }

/-- The identity the next allocation gives out. -/
def nextIdentity (s : ProcessGenerationStore) (startObserved : Bool) : ProcessGenerationIdentity where
  generation := s.nextGeneration
  observationEpoch := s.epoch
  startObserved

def allocate (order : IterationOrder) (s : ProcessGenerationStore) (key : ProcessKey) (atNs : UInt64)
    (startObserved : Bool) : ProcessGenerationIdentity × ProcessGenerationStore :=
  let identity := s.nextIdentity startObserved
  (identity, enforceCapacity order
    { s with
      nextGeneration := max (Word.saturatingAdd s.nextGeneration 1) 1
      entries := s.entries.insert key { identity, observedAtNs := atNs, exec := none }
      evicted := s.evicted.erase key
      lru := s.lru ++ [(key, s.nextGeneration)] })

def observeStart (order : IterationOrder) (s : ProcessGenerationStore) (key : ProcessKey) (atNs : UInt64) :
    ProcessGenerationIdentity × ProcessGenerationStore :=
  allocate order s key atNs true

def ensureGeneration (order : IterationOrder) (s : ProcessGenerationStore) (key : ProcessKey) (atNs : UInt64) :
    ProcessGenerationIdentity × ProcessGenerationStore :=
  match s.entries.lookup key with
  | some entry => (entry.identity, s)
  | none => allocate order s key atNs false

def observeExec (order : IterationOrder) (s : ProcessGenerationStore) (key : ProcessKey) (atNs : UInt64)
    (eventId : Uuid) (executable : String) : ProcessGenerationIdentity × ProcessGenerationStore :=
  let ensured := ensureGeneration order s key atNs
  match ensured.2.entries.lookup key with
  | some entry =>
    (ensured.1, { ensured.2 with
      entries := ensured.2.entries.insert key { entry with exec := some { eventId, executable } } })
  | none => ensured

def unresolved (identity : Option ProcessGenerationIdentity) (reason : UnresolvedGenerationReason) :
    ConsumedGeneration where
  identity
  correlation := .unresolved reason

/-- The correlation of a consumed entry. The constructor's refusal is a panic. -/
def correlate (entry : ProcessGeneration) : Except Panic GenerationCorrelation :=
  match entry.exec with
  | none => .ok (.unresolved .beforeObservation)
  | some exec =>
    match newObserved entry.identity.generation exec.eventId exec.executable with
    | .ok correlation => .ok correlation
    | .error _ => .error (.expectFailed "stored exec evidence is valid")

def consumeExit (order : IterationOrder) (s : ProcessGenerationStore) (key : ProcessKey) (atNs : UInt64) :
    Except Panic (ConsumedGeneration × ProcessGenerationStore) :=
  if key ∈ s.evicted ∧ s.entries.lookup key = none then .ok (unresolved none .evicted, s)
  else
    let s := (ensureGeneration order s key atNs).2
    match s.entries.lookup key with
    | none => .ok (unresolved none .beforeObservation, s)
    | some entry =>
      if entry.observedAtNs > atNs then .ok (unresolved none .generationMismatch, s)
      else
        -- `remove` returns the entry that was just read, so its `expect` cannot fail
        match correlate entry with
        | .error panic => .error panic
        | .ok correlation =>
          .ok ({ identity := some entry.identity, correlation }, { s with entries := s.entries.erase key })

variable {key : ProcessKey}

/-- The exit of a key that was evicted, that names no generation, and that consumes the entry of its key. -/
theorem consumeExit_cases {order : IterationOrder} {s : ProcessGenerationStore} {atNs : UInt64}
    (h : consumeExit order s key atNs = .ok (consumed, t)) :
    (key ∈ s.evicted ∧ s.entries.lookup key = none ∧ consumed = unresolved none .evicted ∧ t = s) ∨
    ¬ (key ∈ s.evicted ∧ s.entries.lookup key = none) ∧
      ((t = (ensureGeneration order s key atNs).2 ∧ ∃ reason, consumed = unresolved none reason) ∨
      ∃ entry correlation, (ensureGeneration order s key atNs).2.entries.lookup key = some entry ∧
        correlate entry = .ok correlation ∧ consumed = ⟨some entry.identity, correlation⟩ ∧
        t = { (ensureGeneration order s key atNs).2 with
          entries := (ensureGeneration order s key atNs).2.entries.erase key }) := by
  unfold consumeExit at h
  dsimp only at h
  split at h
  next hgone =>
    cases h
    exact .inl ⟨hgone.1, hgone.2, rfl, rfl⟩
  next hgone =>
  refine .inr ⟨hgone, ?_⟩
  split at h
  · cases h
    exact .inl ⟨rfl, _, rfl⟩
  next entry hentry =>
  split at h
  · cases h
    exact .inl ⟨rfl, _, rfl⟩
  split at h
  · cases h
  next correlation hcorrelate =>
  cases h
  exact .inr ⟨entry, correlation, hentry, hcorrelate, rfl, rfl⟩

/-! ## What the operations leave in the store -/

/-- Every remembered process satisfies `p`. -/
def All (p : ProcessGeneration → Prop) (s : ProcessGenerationStore) : Prop :=
  ∀ key g, s.entries.lookup key = some g → p g

variable {entries : Entries}

theorem evictOldest_lookup {lru : List (ProcessKey × UInt64)}
    (h : (evictOldest capacity lru entries evicted).2.1.lookup key = some g) : entries.lookup key = some g := by
  induction lru generalizing entries evicted with
  | nil => exact h
  | cons _ _ ih =>
    rw [evictOldest] at h
    split at h
    · split at h
      · exact (lookup_erase_some (ih h)).2
      · exact ih h
    · exact h

theorem evictOldest_of_fits (lru : List (ProcessKey × UInt64)) (evicted : Finset ProcessKey)
    (h : entries.entries.length ≤ capacity) : evictOldest capacity lru entries evicted = (lru, entries, evicted) := by
  cases lru with
  | nil => rfl
  | cons => rw [evictOldest, if_neg (by omega)]

theorem trimEvicted_card_le {order : IterationOrder} {limit fuel : Nat} (h : evicted.card ≤ limit + fuel) :
    (trimEvicted order limit fuel evicted).card ≤ limit := by
  induction fuel generalizing evicted with
  | zero => exact h
  | succ _ ih =>
    rw [trimEvicted]
    split
    · next =>
      obtain ⟨_, hk, hfirst⟩ := order.first_mem evicted (Finset.card_pos.mp (by omega))
      rw [hfirst]
      apply ih
      rw [Finset.card_erase_of_mem hk]
      omega
    · omega

section
variable {p : ProcessGeneration → Prop} (order : IterationOrder) {s : ProcessGenerationStore}
  (key : ProcessKey)

theorem All.enforceCapacity (h : s.All p) : (enforceCapacity order s).All p :=
  fun key g hg => h key g (evictOldest_lookup hg)

theorem All.insert (h : s.All p) (hg : p g) :
    ({ s with entries := s.entries.insert key g } : ProcessGenerationStore).All p := by
  intro key' g' hlookup
  obtain ⟨-, rfl⟩ | ⟨-, hold⟩ := lookup_insert_some hlookup
  · exact hg
  · exact h key' g' hold

theorem All.erase (h : s.All p) : ({ s with entries := s.entries.erase key } : ProcessGenerationStore).All p :=
  fun key' g' hlookup => h key' g' (lookup_erase_some hlookup).2

end

/-! ## Soundness -/

/-- A remembered process has a number and the epoch, and its evidence is valid. -/
structure SoundGeneration (epoch : Uuid) (valid : String → Prop) (g : ProcessGeneration) : Prop where
  generation : g.identity.generation ≠ 0
  observationEpoch : g.identity.observationEpoch = epoch
  evidence : ∀ exec, g.exec = some exec → valid exec.executable

structure Sound (epoch : Uuid) (valid : String → Prop) (s : ProcessGenerationStore) : Prop where
  epoch_eq : s.epoch = epoch
  next : s.nextGeneration ≠ 0
  entries : s.All (SoundGeneration epoch valid)

theorem sound_new (capacity : Nat) (epoch : Uuid) (valid : String → Prop) : Sound epoch valid (new capacity epoch) :=
  ⟨rfl, (by decide : (1 : UInt64) ≠ 0), nofun⟩

theorem max_one_ne_zero (a : UInt64) : max a 1 ≠ 0 := by
  have hmax : max a 1 = if a ≤ 1 then 1 else a := rfl
  rw [hmax]
  split
  · decide
  · next h =>
    rintro rfl
    exact h (by decide)

section
variable {epoch : Uuid} {valid : String → Prop} (order : IterationOrder) {s : ProcessGenerationStore}
  (key : ProcessKey) (atNs : UInt64)

section
variable (h : Sound epoch valid s)
include h

theorem Sound.insert (hg : SoundGeneration epoch valid g) :
    Sound epoch valid { s with entries := s.entries.insert key g } :=
  ⟨h.epoch_eq, h.next, h.entries.insert key hg⟩

theorem Sound.erase : Sound epoch valid { s with entries := s.entries.erase key } :=
  ⟨h.epoch_eq, h.next, h.entries.erase key⟩

theorem Sound.allocate {startObserved : Bool} : Sound epoch valid (allocate order s key atNs startObserved).2 := by
  have hfresh : SoundGeneration epoch valid
      { identity := s.nextIdentity startObserved, observedAtNs := atNs, exec := none } :=
    ⟨h.next, h.epoch_eq, nofun⟩
  exact ⟨h.epoch_eq, max_one_ne_zero _, All.enforceCapacity order (h.entries.insert key hfresh)⟩

theorem Sound.ensureGeneration : Sound epoch valid (ensureGeneration order s key atNs).2 := by
  unfold ProcessGenerationStore.ensureGeneration
  split
  · exact h
  · exact h.allocate order key atNs

theorem Sound.observeExec {eventId : Uuid} (hx : valid executable) :
    Sound epoch valid (observeExec order s key atNs eventId executable).2 := by
  have hensured := h.ensureGeneration order key atNs
  unfold ProcessGenerationStore.observeExec
  dsimp only
  split
  · next entry hentry =>
    obtain ⟨hg, he, -⟩ := hensured.entries key entry hentry
    exact hensured.insert key ⟨hg, he, fun exec h => by cases h; exact hx⟩
  · exact hensured

theorem Sound.consumeExit (ht : consumeExit order s key atNs = .ok (consumed, t)) : Sound epoch valid t := by
  have hensured := h.ensureGeneration order key atNs
  obtain ⟨-, -, -, rfl⟩ | ⟨-, ⟨rfl, -⟩ | ⟨_, _, -, -, -, rfl⟩⟩ := consumeExit_cases ht
  · exact h
  · exact hensured
  · exact hensured.erase key

end

theorem correlate_observed {exec : ExecEvidence} {correlation : GenerationCorrelation}
    (hexec : g.exec = some exec) (h : correlate g = .ok correlation) :
    correlation = .observed g.identity.generation exec.eventId exec.executable := by
  simp only [correlate, hexec] at h
  split at h
  · next hnew =>
    cases h
    exact (newObserved_eq_ok.mp hnew).2.2
  · cases h

theorem Sound.consumeExit_ok (h : Sound epoch (validText ·) s) :
    ∃ result, ProcessGenerationStore.consumeExit order s key atNs = .ok result := by
  have hensured := h.ensureGeneration order key atNs
  unfold ProcessGenerationStore.consumeExit
  dsimp only
  split
  · exact ⟨_, rfl⟩
  split
  · exact ⟨_, rfl⟩
  next entry hentry =>
  have hsound := hensured.entries key entry hentry
  have hcorrelate : ∃ correlation, correlate entry = .ok correlation := by
    unfold correlate
    split
    · exact ⟨_, rfl⟩
    next exec he =>
    rw [newObserved_eq_ok.mpr ⟨hsound.generation, hsound.evidence exec he, rfl⟩]
    exact ⟨_, rfl⟩
  obtain ⟨_, hc⟩ := hcorrelate
  rw [hc]
  split <;> exact ⟨_, rfl⟩

end

/-! ## With room in the store -/

section
variable (order : IterationOrder) {s : ProcessGenerationStore} {key : ProcessKey} (atNs : UInt64)

/-- An allocation does not exceed the capacity. -/
def HasRoom (s : ProcessGenerationStore) : Prop := s.entries.entries.length < s.capacity

theorem allocate_entries (hroom : s.HasRoom) (startObserved : Bool) :
    (allocate order s key atNs startObserved).2.entries =
      s.entries.insert key { identity := s.nextIdentity startObserved, observedAtNs := atNs, exec := none } := by
  simp only [allocate, enforceCapacity]
  rw [evictOldest_of_fits _ _ ((size_insert_le _ _ _).trans hroom)]

theorem ensureGeneration_of_lookup (h : s.entries.lookup key = some g) :
    ensureGeneration order s key atNs = (g.identity, s) := by
  rw [ensureGeneration, h]

theorem observeExec_of_lookup (h : s.entries.lookup key = some g) (eventId : Uuid) (executable : String) :
    observeExec order s key atNs eventId executable = (g.identity,
      { s with entries := s.entries.insert key { g with exec := some { eventId, executable } } }) := by
  simp [observeExec, ensureGeneration_of_lookup order atNs h, h]

theorem observeExec_of_absent (hroom : s.HasRoom) (h : s.entries.lookup key = none) (eventId : Uuid) :
    (observeExec order s key atNs eventId executable).1 = s.nextIdentity false ∧
    (observeExec order s key atNs eventId executable).2.entries.lookup key = some
      { identity := s.nextIdentity false, observedAtNs := atNs, exec := some { eventId, executable } } := by
  have hlookup : (allocate order s key atNs false).2.entries.lookup key =
      some { identity := s.nextIdentity false, observedAtNs := atNs, exec := none } := by
    rw [allocate_entries order atNs hroom, AList.lookup_insert]
  rw [observeExec, ensureGeneration, h]
  simp only [hlookup, AList.lookup_insert, and_true]
  rfl

/-- The store keeps its capacity and gains at most `n` entries. -/
def Grows (n : Nat) (s t : ProcessGenerationStore) : Prop :=
  t.capacity = s.capacity ∧ t.entries.entries.length ≤ s.entries.entries.length + n

/-- Besides, no entry but that of `key` changes. -/
structure ChangesOnly (key : ProcessKey) (n : Nat) (s t : ProcessGenerationStore) : Prop where
  grows : Grows n s t
  others : ∀ key' ≠ key, t.entries.lookup key' = s.entries.lookup key'

theorem changesOnly_refl {n : Nat} : ChangesOnly key n s s := ⟨⟨rfl, Nat.le_add_right _ _⟩, fun _ _ => rfl⟩

section
variable (hroom : s.HasRoom)
include hroom

theorem changesOnly_allocate {startObserved : Bool} :
    ChangesOnly key 1 s (allocate order s key atNs startObserved).2 := by
  refine ⟨⟨rfl, ?_⟩, fun key' hk => ?_⟩
  · rw [allocate_entries order atNs hroom]
    exact size_insert_le _ _ _
  · rw [allocate_entries order atNs hroom, AList.lookup_insert_ne hk]

theorem changesOnly_ensureGeneration : ChangesOnly key 1 s (ensureGeneration order s key atNs).2 := by
  rw [ensureGeneration]
  split
  · exact changesOnly_refl
  · exact changesOnly_allocate order atNs hroom

theorem changesOnly_observeExec (eventId : Uuid) (executable : String) :
    ChangesOnly key 2 s (observeExec order s key atNs eventId executable).2 := by
  obtain ⟨⟨hcapacity, hlength⟩, hothers⟩ : ChangesOnly key 1 s _ := changesOnly_ensureGeneration order atNs hroom
  simp only [observeExec]
  split
  · exact ⟨⟨hcapacity, (size_insert_le _ _ _).trans (Nat.succ_le_succ hlength)⟩,
      fun key' hk => (AList.lookup_insert_ne hk).trans (hothers key' hk)⟩
  · exact ⟨⟨hcapacity, by omega⟩, hothers⟩

theorem changesOnly_consumeExit (ht : consumeExit order s key atNs = .ok (consumed, t)) : ChangesOnly key 1 s t := by
  have hensured : ChangesOnly key 1 s _ := changesOnly_ensureGeneration order atNs hroom
  obtain ⟨-, -, -, rfl⟩ | ⟨-, ⟨rfl, -⟩ | ⟨_, _, -, -, -, rfl⟩⟩ := consumeExit_cases ht
  · exact changesOnly_refl
  · exact hensured
  · exact ⟨⟨hensured.grows.1, (List.kerase_sublist key _).length_le.trans hensured.grows.2⟩,
      fun key' hk => (AList.lookup_erase_ne hk).trans (hensured.others key' hk)⟩

end

theorem consumeExit_of_lookup (h : s.entries.lookup key = some g)
    (htime : ¬ g.observedAtNs > atNs) :
    consumeExit order s key atNs =
      (correlate g).map fun correlation =>
        ({ identity := some g.identity, correlation }, { s with entries := s.entries.erase key }) := by
  simp only [consumeExit, h, ensureGeneration_of_lookup order atNs h, reduceCtorEq, and_false, if_false, if_neg htime]
  cases correlate g <;> rfl

end

end ProcessGenerationStore

/-! ## Calls -/

inductive Call where
  | observeStart (key : ProcessKey) (atNs : UInt64)
  | ensureGeneration (key : ProcessKey) (atNs : UInt64)
  | observeExec (key : ProcessKey) (atNs : UInt64) (eventId : Uuid) (executable : String)
  | consumeExit (key : ProcessKey) (atNs : UInt64)

inductive Answer where
  | identity (value : ProcessGenerationIdentity)
  | consumed (value : ConsumedGeneration)
  deriving DecidableEq

open ProcessGenerationStore

/-- One call on the store; the order is the one its hash set has at that moment. -/
def perform (s : ProcessGenerationStore) : IterationOrder × Call → Except Panic (Answer × ProcessGenerationStore)
  | (order, .observeStart key atNs) =>
    let (identity, s) := observeStart order s key atNs
    .ok (.identity identity, s)
  | (order, .ensureGeneration key atNs) =>
    let (identity, s) := ensureGeneration order s key atNs
    .ok (.identity identity, s)
  | (order, .observeExec key atNs eventId executable) =>
    let (identity, s) := observeExec order s key atNs eventId executable
    .ok (.identity identity, s)
  | (order, .consumeExit key atNs) =>
    match consumeExit order s key atNs with
    | .error panic => .error panic
    | .ok (consumed, s) => .ok (.consumed consumed, s)

/-- The call stores no executable that the correlation's constructor would refuse. -/
def Call.Admissible : Call → Prop
  | .observeExec _ _ _ executable => validText executable
  | .observeStart _ _ | .ensureGeneration _ _ | .consumeExit _ _ => True

/-- One admissible call on a sound store answers, and leaves the store sound. -/
theorem perform_sound {epoch : Uuid} (s : ProcessGenerationStore) (c : IterationOrder × Call)
    (hs : Sound epoch (validText ·) s) (hc : c.2.Admissible) :
    ∃ answer t, perform s c = .ok (answer, t) ∧ Sound epoch (validText ·) t := by
  obtain ⟨order, call⟩ := c
  cases call with
  | observeStart key atNs => exact ⟨_, _, rfl, hs.allocate order key atNs⟩
  | ensureGeneration key atNs => exact ⟨_, _, rfl, hs.ensureGeneration order key atNs⟩
  | observeExec key atNs => exact ⟨_, _, rfl, hs.observeExec order key atNs hc⟩
  | consumeExit key atNs =>
    obtain ⟨⟨consumed, t⟩, hok⟩ := hs.consumeExit_ok order key atNs
    refine ⟨.consumed consumed, t, ?_, hs.consumeExit order key atNs hok⟩
    rw [perform, hok]

/-- No call of a run panics when every stored executable is a text the correlation
accepts, for any capacity, keys, times and iteration orders. -/
theorem calls_never_panic (capacity : Nat) (epoch : Uuid) (calls : List (IterationOrder × Call))
    (hcalls : ∀ c ∈ calls, c.2.Admissible) :
    ∃ answers t, run perform (new capacity epoch) calls = .ok (answers, t) := by
  obtain ⟨answers, t, hrun, -⟩ := run_invariant perform_sound (sound_new capacity epoch _) hcalls
  exact ⟨answers, t, hrun⟩

/-- A server that starts, executes its program and exits. -/
theorem started_server_never_panics : ∃ answers t, run perform (new 1 Uuid.nil)
      [(default, .observeStart ⟨20, 10⟩ 100), (default, .observeExec ⟨20, 10⟩ 101 Uuid.nil "/usr/bin/server"),
        (default, .consumeExit ⟨20, 10⟩ 102)] = .ok (answers, t) := by
  apply calls_never_panic
  have hserver : validText "/usr/bin/server" := by decide
  simp [Call.Admissible, hserver]

theorem correlate_refused {exec : ExecEvidence} (hexec : g.exec = some exec)
    (hrefused : validText exec.executable = false) :
    correlate g = .error (.expectFailed "stored exec evidence is valid") := by
  have hnew : ∃ e, newObserved g.identity.generation exec.eventId exec.executable = .error e := by
    rw [newObserved, hrefused, if_pos (Or.inr (by decide))]
    exact ⟨_, rfl⟩
  obtain ⟨_, he⟩ := hnew
  simp [correlate, hexec, he]

theorem refused_evidence_panics (order order' : IterationOrder) (epoch : Uuid) (key : ProcessKey)
    {atNs atNs' : UInt64} (eventId : Uuid) (hcapacity : 0 < capacity) (htime : ¬ atNs > atNs')
    (hrefused : validText executable = false) : run perform (new capacity epoch)
        [(order, .observeExec key atNs eventId executable), (order', .consumeExit key atNs')] =
      .error (.expectFailed "stored exec evidence is valid") := by
  have hroom : (new capacity epoch).HasRoom := hcapacity
  have habsent : (new capacity epoch).entries.lookup key = none := rfl
  obtain ⟨-, hlookup⟩ := observeExec_of_absent order atNs hroom habsent eventId
  have hexit := consumeExit_of_lookup order' atNs' hlookup htime
  rw [correlate_refused rfl hrefused] at hexit
  simp [run, perform, hexit, Except.map]

/-- The path of the executable is one byte longer than the correlation allows. -/
theorem long_executable_panics : run perform (new 8192 Uuid.nil)
        [(default, .observeExec ⟨20, 10⟩ 100 Uuid.nil (String.ofList ('/' :: List.replicate 256 'a'))),
          (default, .consumeExit ⟨20, 10⟩ 101)] = .error (.expectFailed "stored exec evidence is valid") :=
  refused_evidence_panics _ _ _ _ _ (by decide) (by decide) (by decide +kernel)

end Okoscope.Agent.ProcessRuntime
