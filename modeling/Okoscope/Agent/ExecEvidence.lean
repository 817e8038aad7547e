import Okoscope.Agent.ProcessRuntime

/-!
# Whose execution an exit names

The store keeps the last execution it was told of with the generation of a process,
whatever its time; and it remembers that a process was evicted while its memory of
evicted processes has room. When the calls for a process come in the order of their
times, an exit names an execution within the lifetime of the generation it consumes.
-/
namespace Okoscope.Agent.ProcessRuntime

open Lib Lib.Run Lib.FiniteMap EventModel
open ProcessGenerationStore
open AList List

/-! ## Calls -/

def Call.key : Call → ProcessKey
  | .observeStart key _ | .ensureGeneration key _ | .observeExec key _ _ _ | .consumeExit key _ => key

def Call.atNs : Call → UInt64
  | .observeStart _ atNs | .ensureGeneration _ atNs | .observeExec _ atNs _ _ | .consumeExit _ atNs => atNs

/-- Whether a call allocates a generation for its key, and whether it saw the start. -/
def Call.allocation (s : ProcessGenerationStore) : Call → Option Bool
  | .observeStart _ _ => some true
  | .ensureGeneration key _ | .observeExec key _ _ _ => if s.entries.lookup key = none then some false else none
  | .consumeExit key _ => if s.entries.lookup key = none ∧ key ∉ s.evicted then some false else none

/-- The store after the allocation of a call, if it makes one. -/
def allocated (order : IterationOrder) (s : ProcessGenerationStore) (call : Call) : ProcessGenerationStore :=
  match call.allocation s with
  | some startObserved => (s.allocate order call.key call.atNs startObserved).2
  | none => s

variable {atNs : UInt64}

theorem ensureGeneration_eq {order : IterationOrder} {s : ProcessGenerationStore} {key : ProcessKey} :
    (ensureGeneration order s key atNs).2 = allocated order s (.ensureGeneration key atNs) := by
  cases h : s.entries.lookup key <;> simp [ensureGeneration, allocated, Call.allocation, h, Call.key, Call.atNs]

variable {s t : ProcessGenerationStore} {order : IterationOrder} {call : Call} {answer : Answer}
variable {calls : List (IterationOrder × Call)} {key : ProcessKey} {g : ProcessGeneration} {answers : List Answer}
variable {c : IterationOrder × Call}

theorem perform_consumeExit (h : perform s (order, .consumeExit key atNs) = .ok (answer, t)) :
    ∃ consumed, consumeExit order s key atNs = .ok (consumed, t) ∧ answer = .consumed consumed := by
  rw [perform] at h
  split at h
  · cases h
  next consumed _ hconsumed =>
  cases h
  exact ⟨consumed, hconsumed, rfl⟩

theorem allocated_consumeExit (h : ¬ (key ∈ s.evicted ∧ s.entries.lookup key = none)) :
    allocated order s (.consumeExit key atNs) = (ensureGeneration order s key atNs).2 := by
  rw [ensureGeneration_eq]
  cases hl : s.entries.lookup key with
  | some => simp [allocated, Call.allocation, hl]
  | none =>
    have hne : key ∉ s.evicted := fun hk => h ⟨hk, hl⟩
    simp [allocated, Call.allocation, hl, hne, Call.key, Call.atNs]

/-- What a call leaves: the store after its allocation, with the evidence of an execution put into the
entry of its key, or without the entry that an exit consumed. -/
theorem perform_cases (h : perform s (order, call) = .ok (answer, t)) : t = allocated order s call ∨
    (∃ key atNs eventId executable entry, call = .observeExec key atNs eventId executable ∧
      (allocated order s call).entries.lookup key = some entry ∧ t = { allocated order s call with
        entries := (allocated order s call).entries.insert key { entry with exec := some ⟨eventId, executable⟩ } }) ∨
    (∃ key atNs, call = .consumeExit key atNs ∧
      t = { allocated order s call with entries := (allocated order s call).entries.erase key }) := by
  cases call with
  | observeStart =>
    cases h
    exact .inl rfl
  | ensureGeneration =>
    cases h
    exact .inl ensureGeneration_eq
  | observeExec key atNs eventId executable =>
    have halloc : allocated order s (.observeExec key atNs eventId executable) =
        (ensureGeneration order s key atNs).2 := ensureGeneration_eq.symm
    obtain rfl : (observeExec order s key atNs eventId executable).2 = t := congrArg Prod.snd (Except.ok.inj h)
    rw [halloc]
    cases hl : (ensureGeneration order s key atNs).2.entries.lookup key with
    | none =>
      refine .inl ?_
      simp [observeExec, hl]
    | some entry =>
      refine .inr (.inl ⟨key, atNs, eventId, executable, entry, rfl, hl, ?_⟩)
      simp [observeExec, hl]
  | consumeExit key atNs =>
    obtain ⟨_, hconsumed, -⟩ := perform_consumeExit h
    obtain ⟨hevicted, hnone, -, rfl⟩ | ⟨hpresent, hleft⟩ := consumeExit_cases hconsumed
    · simp [allocated, Call.allocation, hevicted, hnone]
    rw [allocated_consumeExit hpresent]
    obtain ⟨rfl, -⟩ | ⟨_, _, -, -, -, rfl⟩ := hleft
    · exact .inl rfl
    · exact .inr (.inr ⟨key, atNs, rfl, rfl⟩)

/-! ## Evidence -/

/-- Calls for one key come in the order of their times. -/
def InOrder (calls : List Call) : Prop := calls.Pairwise fun c d => c.key = d.key → c.atNs ≤ d.atNs

/-- The generation was observed by a call for its key; its evidence came with a later one. -/
structure SourcedGeneration (calls : List Call) (key : ProcessKey) (g : ProcessGeneration) : Prop where
  observed : ∃ call ∈ calls, call.key = key ∧ call.atNs = g.observedAtNs
  evidence : ∀ exec, g.exec = some exec → ∃ atNs, .observeExec key atNs exec.eventId exec.executable ∈ calls ∧
    g.observedAtNs ≤ atNs

def Sourced (calls : List Call) (s : ProcessGenerationStore) : Prop :=
  ∀ key g, s.entries.lookup key = some g → SourcedGeneration calls key g

theorem SourcedGeneration.mono {calls calls' : List Call}
    (h : SourcedGeneration calls key g) (hsub : calls ⊆ calls') : SourcedGeneration calls' key g where
  observed := by
    obtain ⟨call, hc, hk⟩ := h.observed
    exact ⟨call, hsub hc, hk⟩
  evidence exec he := by
    obtain ⟨atNs, hc, hle⟩ := h.evidence exec he
    exact ⟨atNs, hsub hc, hle⟩

/-- What an allocation leaves at a key: the fresh generation at its own, what was there at others. -/
theorem lookup_allocated (h : (allocated order s call).entries.lookup key = some g) :
    (s.entries.lookup key = some g ∧ (call.allocation s ≠ none → key ≠ call.key)) ∨
      ∃ startObserved, call.allocation s = some startObserved ∧ key = call.key ∧
        g = ⟨s.nextIdentity startObserved, call.atNs, none⟩ := by
  unfold allocated at h
  split at h
  next startObserved hsome =>
    obtain ⟨hk, hg⟩ | ⟨hk, hold⟩ := lookup_insert_some (evictOldest_lookup h)
    · exact .inr ⟨startObserved, hsome, hk, hg⟩
    · exact .inl ⟨hold, fun _ => hk⟩
  next hnone => exact .inl ⟨h, fun hne => absurd hnone hne⟩

theorem sourced_allocated {calls : List Call}
    (h : Sourced calls s) : Sourced (calls ++ [call]) (allocated order s call) := by
  intro key g hg
  obtain ⟨hold, -⟩ | ⟨_, -, rfl, rfl⟩ := lookup_allocated hg
  · exact (h key g hold).mono (subset_append_left _ _)
  · refine ⟨⟨call, by simp, rfl, rfl⟩, fun exec he => ?_⟩
    cases he

theorem sourced_perform {calls : List Call} (h : Sourced calls s) (hin : InOrder (calls ++ [call]))
    (ht : perform s (order, call) = .ok (answer, t)) : Sourced (calls ++ [call]) t := by
  have halloc : Sourced (calls ++ [call]) (allocated order s call) := sourced_allocated h
  obtain rfl | ⟨key, atNs, _, _, entry, rfl, hentry, rfl⟩ | ⟨key, atNs, rfl, rfl⟩ := perform_cases ht
  · exact halloc
  · intro key' g hg
    obtain ⟨rfl, rfl⟩ | ⟨-, hold⟩ := lookup_insert_some hg
    · obtain ⟨c, hc, hkey, hat⟩ := (halloc key' entry hentry).observed
      refine ⟨⟨c, hc, hkey, hat⟩, fun exec he => ?_⟩
      cases he
      refine ⟨atNs, by simp, ?_⟩
      -- the generation was observed by this call or by an earlier one for the key
      rw [← hat]
      obtain hc | hc := mem_append.mp hc
      · exact (pairwise_append.mp hin).2.2 c hc _ (mem_singleton_self _) hkey
      · rw [mem_singleton.mp hc]
        exact UInt64.le_refl atNs
    · exact halloc key' g hold
  · exact fun key' g hg => halloc key' g (lookup_erase_some hg).2

variable {epoch : Uuid}

theorem sourced_run {capacity : Nat} (hin : InOrder (calls.map Prod.snd))
    (h : run perform (new capacity epoch) calls = .ok (answers, s)) : Sourced (calls.map Prod.snd) s := by
  refine run_history (fun done s => InOrder (done.map Prod.snd) → Sourced (done.map Prod.snd) s) ?_ ?_ h hin
  · intro done s c b t hs hstep hin
    rw [map_append] at hin ⊢
    exact sourced_perform (hs (pairwise_append.mp hin).1) hin hstep
  · intro _ key g hg
    cases hg

variable {generation : UInt64}

/-- An exit that names an execution consumed the entry the store had. -/
theorem consumed_observed {identity : Option ProcessGenerationIdentity} {eventId : Uuid} {executable : String}
    (h : perform s (order, .consumeExit key atNs) = .ok (.consumed ⟨identity, .observed generation eventId executable⟩, t)) :
    ∃ entry, s.entries.lookup key = some entry ∧ identity = some entry.identity ∧
      entry.exec = some ⟨eventId, executable⟩ := by
  obtain ⟨_, hconsumed, heq⟩ := perform_consumeExit h
  obtain ⟨-, -, rfl, -⟩ | ⟨-, ⟨-, _, rfl⟩ | ⟨entry, _, hentry, hcorrelate, rfl, -⟩⟩ := consumeExit_cases hconsumed
  · cases heq
  · cases heq
  cases heq
  have hexec : entry.exec = some ⟨eventId, executable⟩ := by
    cases he : entry.exec with
    | none => simp [correlate, he] at hcorrelate
    | some =>
      have heq := correlate_observed he hcorrelate
      cases heq
      rfl
  rw [ensureGeneration_eq] at hentry
  obtain ⟨hold, -⟩ | ⟨_, -, -, rfl⟩ := lookup_allocated hentry
  · exact ⟨entry, hold, rfl, hexec⟩
  · cases hexec

/-! ## Eviction -/

/-- Every entry has its number in the queue. -/
def Stamped (lru : List (ProcessKey × UInt64)) (entries : Entries) : Prop :=
  ∀ key g, entries.lookup key = some g → (key, g.identity.generation) ∈ lru

section
variable {capacity : Nat} {lru : List (ProcessKey × UInt64)} {entries : Entries} {evicted : Finset ProcessKey}

theorem stamped_erase (h : Stamped ((key, generation) :: lru) entries) : Stamped lru (entries.erase key) := by
  intro key' g hg
  obtain ⟨hk, hold⟩ := lookup_erase_some hg
  obtain he | hmem := mem_cons.mp (h key' g hold)
  · exact absurd (congrArg Prod.fst he) hk
  · exact hmem

/-- Popping numbered keys makes the entries fit and leaves each its number. -/
theorem evictOldest_fits (h : Stamped lru entries) :
    (evictOldest capacity lru entries evicted).2.1.entries.length ≤ capacity ∧
      Stamped (evictOldest capacity lru entries evicted).1 (evictOldest capacity lru entries evicted).2.1 := by
  induction lru generalizing entries evicted with
  | nil =>
    refine ⟨?_, h⟩
    have hnone : size entries ≤ (∅ : Finset ProcessKey).card := by
      refine size_le_card fun key hkey => ?_
      obtain ⟨g, hg⟩ := Option.isSome_iff_exists.mp (lookup_isSome.mpr (mem_keys.mpr hkey))
      exact absurd (h key g hg) not_mem_nil
    exact hnone.trans (Nat.zero_le _)
  | cons head _ ih =>
    obtain ⟨_, _⟩ := head
    rw [evictOldest]
    split
    next =>
      split
      next =>
        exact ih (stamped_erase h)
      next hstale =>
        refine ih fun key' g hg => ?_
        obtain he | hmem := mem_cons.mp (h key' g hg)
        · cases he
          exact absurd (by rw [hg]; simp) hstale
        · exact hmem
    next hfits => exact ⟨Nat.le_of_not_lt hfits, h⟩

theorem subset_evictOldest : evicted ⊆ (evictOldest capacity lru entries evicted).2.2 := by
  induction lru generalizing entries evicted with
  | nil => exact Finset.Subset.refl _
  | cons head _ ih =>
    obtain ⟨key, _⟩ := head
    rw [evictOldest]
    split
    · split
      · exact Finset.Subset.trans (Finset.subset_insert key evicted) ih
      · exact ih
    · exact Finset.Subset.refl _

theorem mem_evictOldest (hbefore : entries.lookup key ≠ none)
    (hafter : (evictOldest capacity lru entries evicted).2.1.lookup key = none) :
    key ∈ (evictOldest capacity lru entries evicted).2.2 := by
  induction lru generalizing entries evicted with
  | nil => exact absurd hafter hbefore
  | cons head _ ih =>
    obtain ⟨popped, _⟩ := head
    rw [evictOldest] at hafter ⊢
    split at hafter
    next hlong =>
      rw [if_pos hlong]
      split at hafter
      next hlive =>
        rw [if_pos hlive]
        by_cases hk : key = popped
        · exact subset_evictOldest (by rw [hk]; exact Finset.mem_insert_self _ _)
        · exact ih (by rw [lookup_erase_ne hk]; exact hbefore) hafter
      next hstale =>
        rw [if_neg hstale]
        exact ih hbefore hafter
    · exact absurd hafter hbefore

/-- No more keys are evicted than there are entries too many. -/
theorem card_evictOldest :
    (evictOldest capacity lru entries evicted).2.2.card ≤ evicted.card + (entries.entries.length - capacity) := by
  induction lru generalizing entries evicted with
  | nil => exact Nat.le_add_right _ _
  | cons head lru ih =>
    obtain ⟨key, _⟩ := head
    rw [evictOldest]
    split
    next =>
      split
      next hlive =>
        obtain ⟨g, hg⟩ : ∃ g, entries.lookup key = some g := by
          cases hg : entries.lookup key with
          | none => simp [hg] at hlive
          | some g => exact ⟨g, rfl⟩
        have hnext : (evictOldest capacity lru (entries.erase key) (insert key evicted)).2.2.card ≤
          (insert key evicted).card + ((entries.erase key).entries.length - capacity) := ih
        have hlen : (entries.erase key).entries.length + 1 = entries.entries.length := size_erase_of_lookup hg
        have hcard := Finset.card_insert_le key evicted
        omega
      · exact ih
    · exact Nat.le_add_right _ _

end

/-- The store is within its bounds, and every entry has its number in the queue. -/
structure Bounded (s : ProcessGenerationStore) : Prop where
  entries : s.entries.entries.length ≤ s.capacity
  stamped : Stamped s.lru s.entries
  evicted : s.evicted.card ≤ max s.capacity 1

theorem bounded_allocate (h : Bounded s) {startObserved : Bool} :
    Bounded (s.allocate order key atNs startObserved).2 := by
  have hstamped : Stamped (s.lru ++ [(key, (s.nextIdentity startObserved).generation)])
      (s.entries.insert key ⟨s.nextIdentity startObserved, atNs, none⟩) := by
    intro key' g' hg
    obtain ⟨rfl, rfl⟩ | ⟨-, hold⟩ := lookup_insert_some hg
    · simp
    · exact mem_append_left _ (h.stamped key' g' hold)
  exact ⟨(evictOldest_fits hstamped).1, (evictOldest_fits hstamped).2, trimEvicted_card_le (Nat.le_add_left _ _)⟩

theorem bounded_perform (h : Bounded s) (ht : perform s c = .ok (answer, t)) : Bounded t := by
  obtain ⟨order, call⟩ := c
  have halloc : Bounded (allocated order s call) := by
    unfold allocated
    split
    · exact bounded_allocate h
    · exact h
  obtain rfl | ⟨key, _, _, _, entry, rfl, hentry, rfl⟩ | ⟨key, _, rfl, rfl⟩ := perform_cases ht
  · exact halloc
  · refine ⟨(size_insert_of_lookup hentry).trans_le halloc.entries, ?_, halloc.evicted⟩
    intro key' g hg
    obtain ⟨rfl, rfl⟩ | ⟨-, hold⟩ := lookup_insert_some hg
    · exact halloc.stamped key' entry hentry
    · exact halloc.stamped key' g hold
  · exact ⟨(kerase_sublist key _).length_le.trans halloc.entries,
      fun key' g hg => halloc.stamped key' g (lookup_erase_some hg).2, halloc.evicted⟩

theorem bounded_new {capacity : Nat} : Bounded (new capacity epoch) := by
  refine ⟨Nat.zero_le _, ?_, Nat.zero_le _⟩
  intro key g hg
  cases hg

theorem bounded_run {capacity : Nat} (h : run perform (new capacity epoch) calls = .ok (answers, s)) : Bounded s :=
  run_preserves Bounded (fun _ => True) (fun _ _ _ _ hs _ hstep => bounded_perform hs hstep) bounded_new
    (fun _ _ => trivial) h

/-! ### Memory -/

/-- What the collections of the store hold. -/
def held (s : ProcessGenerationStore) : Nat := s.entries.entries.length + s.lru.length + s.evicted.card

theorem run_without_room (h : run perform (new 0 epoch) calls = .ok (answers, s)) : s.capacity = 0 ∧ s.lru = [] := by
  refine run_preserves (fun s => s.capacity = 0 ∧ s.lru = []) (fun _ => True) ?_ ⟨rfl, rfl⟩ (fun _ _ => trivial) h
  rintro s ⟨order, call⟩ answer t ⟨hcapacity, hlru⟩ - ht
  have halloc : (allocated order s call).capacity = 0 ∧ (allocated order s call).lru = [] := by
    unfold allocated
    split
    next =>
      refine ⟨hcapacity, ?_⟩
      simp only [allocate, enforceCapacity, hlru, hcapacity, nil_append]
      rw [evictOldest, if_pos (by rw [entries_insert]; exact Nat.succ_pos _), if_pos (by simp [lookup_insert]; rfl)]
      rfl
    · exact ⟨hcapacity, hlru⟩
  obtain rfl | ⟨_, _, _, _, _, rfl, -, rfl⟩ | ⟨_, _, rfl, rfl⟩ := perform_cases ht
  · exact halloc
  · exact halloc
  · exact halloc

/-- Starts of one process: its entry is replaced, and every start has its place in the queue. -/
theorem run_starts (n : Nat) (hcapacity : 1 ≤ s.capacity) (hkey : s.entries.entries.kerase key = []) :
    ∃ answers t, run perform s (replicate n (default, .observeStart key 0)) = .ok (answers, t) ∧
      t.lru.length = s.lru.length + n := by
  induction n generalizing s with
  | zero => exact ⟨[], s, rfl, rfl⟩
  | succ _ ih =>
    have hentries : (s.entries.insert key ⟨s.nextIdentity true, 0, none⟩).entries =
        [⟨key, ⟨s.nextIdentity true, 0, none⟩⟩] := by rw [entries_insert, hkey]
    have hstart : (observeStart default s key 0).2.lru = s.lru ++ [(key, s.nextGeneration)] ∧
        (observeStart default s key 0).2.entries = s.entries.insert key ⟨s.nextIdentity true, 0, none⟩ := by
      simp only [observeStart, allocate, enforceCapacity]
      rw [evictOldest_of_fits _ _ (by rw [hentries]; exact hcapacity)]
      exact ⟨rfl, rfl⟩
    have hkey' : (observeStart default s key 0).2.entries.entries.kerase key = [] := by
      rw [hstart.2, hentries]
      exact kerase_cons_eq rfl
    obtain ⟨answers, t, hrun, hlength⟩ := ih (s := (observeStart default s key 0).2) hcapacity hkey'
    refine ⟨_, t, run_cons_eq_ok.mpr ⟨_, _, answers, rfl, hrun, rfl⟩, ?_⟩
    rw [hlength, hstart.1, length_append, length_singleton]
    omega

/-- No number bounds what a store of this capacity holds after a run. -/
def Unbounded (capacity : Nat) : Prop :=
  ∀ bound, ∃ epoch calls answers s, run perform (new capacity epoch) calls = .ok (answers, s) ∧ bound < held s

theorem unbounded_of_room {capacity : Nat} (hcapacity : 1 ≤ capacity) : Unbounded capacity := by
  intro bound
  have hkey : (new capacity Uuid.nil).entries.entries.kerase ⟨20, 10⟩ = [] := rfl
  obtain ⟨answers, t, hrun, hlength⟩ := run_starts (bound + 1) hcapacity hkey
  refine ⟨Uuid.nil, _, answers, t, hrun, ?_⟩
  unfold held
  omega

/-- The queue is cleaned only when an entry is evicted, so that the store is bounded only if it has no room. -/
theorem memory_bounded_iff (capacity : Nat) :
    (∃ bound, ∀ epoch calls answers s, run perform (new capacity epoch) calls = .ok (answers, s) → held s ≤ bound) ↔
      capacity = 0 := by
  constructor
  · rintro ⟨bound, hbound⟩
    by_contra hne
    obtain ⟨epoch, calls, answers, s, hrun, hlt⟩ := unbounded_of_room (Nat.one_le_iff_ne_zero.mpr hne) bound
    exact absurd (hbound epoch calls answers s hrun) (Nat.not_le.mpr hlt)
  · rintro rfl
    refine ⟨1, fun epoch calls answers s hrun => ?_⟩
    obtain ⟨hcapacity, hlru⟩ := run_without_room hrun
    obtain ⟨hentries, -, hevicted⟩ := bounded_run hrun
    rw [held, hlru, length_nil]
    omega

/-- The capacity that the agent runs with. -/
theorem agent_store_unbounded : Unbounded 8192 := unbounded_of_room (by decide)

/-! ### With room in the memory of evicted keys -/

/-- A call that evicts finds room in the memory of evicted keys. -/
def RemembersEvicted (s : ProcessGenerationStore) (call : Call) : Prop :=
  call.allocation s ≠ none → s.entries.lookup call.key = none → s.capacity ≤ s.entries.entries.length →
    (s.evicted.erase call.key).card < max s.capacity 1

instance (s : ProcessGenerationStore) (call : Call) : Decidable (RemembersEvicted s call) :=
  inferInstanceAs (Decidable (_ → _ → _ → _))

/-- All calls of a run do. -/
def Remembering : ProcessGenerationStore → List (IterationOrder × Call) → Prop
  | _, [] => True
  | s, c :: calls =>
    RemembersEvicted s c.2 ∧
      match perform s c with
      | .ok (_, t) => Remembering t calls
      | .error _ => True

instance decidableRemembering :
    (s : ProcessGenerationStore) → (calls : List (IterationOrder × Call)) → Decidable (Remembering s calls)
  | _, [] => isTrue trivial
  | s, c :: calls =>
    have : Decidable (match perform s c with
        | .ok (_, t) => Remembering t calls
        | .error _ => True) :=
      match perform s c with
      | .ok (_, t) => decidableRemembering t calls
      | .error _ => isTrue trivial
    inferInstanceAs (Decidable (_ ∧ _))

theorem Remembering.next (h : Remembering s (c :: calls)) (ht : perform s c = .ok (answer, t)) : Remembering t calls := by
  have hmatch := h.2
  rw [ht] at hmatch
  exact hmatch

variable {calls' : List (IterationOrder × Call)}

theorem remembering_append (h : Remembering s (calls ++ calls')) (hrun : run perform s calls = .ok (answers, t)) :
    Remembering t calls' := by
  induction calls generalizing s answers with
  | nil =>
    cases hrun
    exact h
  | cons _ _ ih =>
    obtain ⟨_, _, _, hstep, hrest, -⟩ := run_cons_eq_ok.mp hrun
    exact ih (h.next hstep) hrest

theorem remembering_of_append (h : Remembering s (calls ++ calls')) : Remembering s calls := by
  induction calls generalizing s with
  | nil => trivial
  | cons _ _ ih =>
    refine ⟨h.1, ?_⟩
    split
    next ht => exact ih (h.next ht)
    · trivial

theorem trimEvicted_of_card_le (order : IterationOrder) {limit : Nat} (fuel : Nat) {evicted : Finset ProcessKey}
    (h : evicted.card ≤ limit) : trimEvicted order limit fuel evicted = evicted := by
  cases fuel with
  | zero => rfl
  | succ => rw [trimEvicted, if_neg (by omega)]

/-- With room, an allocation forgets no evicted key but its own, and remembers the one it evicts. -/
theorem evicted_allocate (h : Bounded s) {startObserved : Bool}
    (hroom : s.entries.lookup key = none → s.capacity ≤ s.entries.entries.length → (s.evicted.erase key).card < max s.capacity 1) :
    (s.allocate order key atNs startObserved).2.evicted = (evictOldest s.capacity (s.lru ++ [(key, s.nextGeneration)])
        (s.entries.insert key ⟨s.nextIdentity startObserved, atNs, none⟩) (s.evicted.erase key)).2.2 := by
  refine trimEvicted_of_card_le order _ ?_
  refine card_evictOldest.trans ?_
  have hlen : (s.entries.insert key ⟨s.nextIdentity startObserved, atNs, none⟩).entries.length ≤
    s.entries.entries.length + 1 := size_insert_le _ _ _
  have hcard := Finset.card_erase_le (s := s.evicted) (a := key)
  have hentries := h.entries
  have hevicted := h.evicted
  show (s.evicted.erase key).card +
    ((s.entries.insert key ⟨s.nextIdentity startObserved, atNs, none⟩).entries.length - s.capacity) ≤ max s.capacity 1
  cases hl : s.entries.lookup key with
  | some =>
    have hsame : (s.entries.insert key ⟨s.nextIdentity startObserved, atNs, none⟩).entries.length =
      s.entries.entries.length := size_insert_of_lookup hl
    omega
  | none =>
    have hroom' := hroom hl
    by_cases hfull : s.capacity ≤ s.entries.entries.length
    · omega
    · omega

/-- The key was evicted, is remembered as such and has no entry. -/
def Gone (key : ProcessKey) (s : ProcessGenerationStore) : Prop := key ∈ s.evicted ∧ s.entries.lookup key = none

/-- The call observes the key. -/
def Call.Observes (key : ProcessKey) : Call → Prop
  | .observeStart k _ | .ensureGeneration k _ | .observeExec k _ _ _ => k = key
  | .consumeExit _ _ => False

/-- The allocation of a call evicts the entry of a key. -/
def EvictedBy (s : ProcessGenerationStore) (c : IterationOrder × Call) (key : ProcessKey) : Prop :=
  c.2.allocation s ≠ none ∧ (key = c.2.key ∨ s.entries.lookup key ≠ none) ∧
    (allocated c.1 s c.2).entries.lookup key = none

theorem gone_allocated (h : Bounded s)
    (hroom : RemembersEvicted s call) (hgone : Gone key s) (hkey : call.allocation s ≠ none → key ≠ call.key) :
    Gone key (allocated order s call) := by
  unfold allocated
  split
  next startObserved hsome =>
    have hne : key ≠ call.key := hkey (by rw [hsome]; simp)
    refine ⟨?_, ?_⟩
    · rw [evicted_allocate h fun hl hfull => hroom (by rw [hsome]; simp) hl hfull]
      exact subset_evictOldest (Finset.mem_erase.mpr ⟨hne, hgone.1⟩)
    cases hl : (s.allocate order call.key call.atNs startObserved).2.entries.lookup key with
    | none => rfl
    | some =>
      have hinserted := evictOldest_lookup hl
      rw [lookup_insert_ne hne, hgone.2] at hinserted
      cases hinserted
  · exact hgone

theorem gone_of_evictedBy (h : Bounded s)
    (hroom : RemembersEvicted s c.2) (he : EvictedBy s c key) : Gone key (allocated c.1 s c.2) := by
  obtain ⟨halloc, hbefore, hafter⟩ := he
  refine ⟨?_, hafter⟩
  obtain ⟨startObserved, hsome⟩ := Option.ne_none_iff_exists'.mp halloc
  have hstore : allocated c.1 s c.2 = (s.allocate c.1 c.2.key c.2.atNs startObserved).2 := by
    rw [allocated, hsome]
  rw [hstore] at hafter ⊢
  rw [evicted_allocate h fun hl hfull => hroom halloc hl hfull]
  refine mem_evictOldest ?_ hafter
  by_cases hk : key = c.2.key
  · rw [hk, lookup_insert]
    exact Option.some_ne_none _
  · rw [lookup_insert_ne hk]
    exact hbefore.resolve_left hk

/-- A call changes nothing about a key that is gone but through its allocation. -/
theorem gone_perform_of_allocated (hgone : Gone key (allocated c.1 s c.2)) (ht : perform s c = .ok (answer, t)) :
    Gone key t := by
  obtain ⟨_, _⟩ := c
  obtain rfl | ⟨key', _, _, _, _, rfl, hentry, rfl⟩ | ⟨key', _, rfl, rfl⟩ := perform_cases ht
  · exact hgone
  · refine ⟨hgone.1, ?_⟩
    by_cases hk : key = key'
    · subst hk
      cases hgone.2.symm.trans hentry
    · exact (lookup_insert_ne hk).trans hgone.2
  · refine ⟨hgone.1, ?_⟩
    by_cases hk : key = key'
    · rw [hk]
      exact lookup_erase _ _
    · exact (lookup_erase_ne hk).trans hgone.2

theorem gone_perform (h : Bounded s) (hroom : RemembersEvicted s c.2) (hgone : Gone key s) (hnot : ¬ c.2.Observes key)
    (ht : perform s c = .ok (answer, t)) : Gone key t := by
  refine gone_perform_of_allocated (gone_allocated h hroom hgone ?_) ht
  intro halloc hk
  cases hc : c.2 with
  | consumeExit key' =>
    rw [hc] at halloc hk
    obtain rfl : key = key' := hk
    simp [Call.allocation, hgone.1, hgone.2] at halloc
  | _ =>
    rw [hc] at hnot hk
    exact hnot hk.symm

theorem gone_run (h : Bounded s) (hroom : Remembering s calls) (hgone : Gone key s)
    (hnot : ∀ c ∈ calls, ¬ c.2.Observes key) (hrun : run perform s calls = .ok (answers, t)) : Gone key t := by
  induction calls generalizing s answers with
  | nil =>
    cases hrun
    exact hgone
  | cons c _ ih =>
    obtain ⟨_, _, _, hstep, hrest, -⟩ := run_cons_eq_ok.mp hrun
    have hgone' := gone_perform h hroom.1 hgone (hnot c mem_cons_self) hstep
    exact ih (bounded_perform h hstep) (hroom.next hstep) hgone'
      (fun d hd => hnot d (mem_cons_of_mem _ hd)) hrest

/-! ## Both -/

/-- Exits name executions of the generation they consume, within its time; and the exit of an evicted
key is answered as such until the key is observed again. -/
structure Attributed (capacity : Nat) (epoch : Uuid) (calls : List (IterationOrder × Call)) : Prop where
  evidence : ∀ before order key atNs after answers s t identity generation eventId executable,
    calls = before ++ (order, .consumeExit key atNs) :: after →
    run perform (new capacity epoch) before = .ok (answers, s) →
    perform s (order, .consumeExit key atNs) = .ok (.consumed ⟨identity, .observed generation eventId executable⟩, t) →
    ∃ entry execNs, s.entries.lookup key = some entry ∧ identity = some entry.identity ∧
      .observeExec key execNs eventId executable ∈ before.map Prod.snd ∧
      entry.observedAtNs ≤ execNs ∧ execNs ≤ atNs
  eviction : ∀ before c between order key atNs after answers s answers' t,
    calls = before ++ c :: between ++ (order, .consumeExit key atNs) :: after →
    run perform (new capacity epoch) before = .ok (answers, s) → EvictedBy s c key →
    (∀ d ∈ between, ¬ d.2.Observes key) →
    run perform (new capacity epoch) (before ++ c :: between) = .ok (answers', t) →
    perform t (order, .consumeExit key atNs) = .ok (.consumed (unresolved none .evicted), t)

/-- Calls in the order of their times and room in the memory of evicted keys are enough. -/
theorem exec_evidence_attributed (capacity : Nat) (epoch : Uuid) (calls : List (IterationOrder × Call))
    (hin : InOrder (calls.map Prod.snd)) (hroom : Remembering (new capacity epoch) calls) :
    Attributed capacity epoch calls where
  evidence before order key atNs after answers s t identity generation eventId executable hcalls hrun hexit := by
    rw [hcalls, map_append, InOrder, pairwise_append] at hin
    obtain ⟨hbefore, -, hpairs⟩ := hin
    obtain ⟨entry, hentry, hidentity, hexec⟩ := consumed_observed hexit
    obtain ⟨execNs, hmem, hle⟩ := (sourced_run hbefore hrun key entry hentry).evidence _ hexec
    have hlast : Call.consumeExit key atNs ∈ ((order, Call.consumeExit key atNs) :: after).map Prod.snd := mem_cons_self
    exact ⟨entry, execNs, hentry, hidentity, hmem, hle, hpairs _ hmem _ hlast rfl⟩
  eviction before c between order key atNs after answers s answers' t hcalls hrun hevicted hnot hrun' := by
    rw [hcalls, append_assoc] at hroom
    have hroom' := remembering_append hroom hrun
    have hbounded := bounded_run hrun
    obtain ⟨_, _, _, hbefore, hrest, -⟩ := run_append_eq_ok.mp hrun'
    cases hrun.symm.trans hbefore
    obtain ⟨_, s', _, hstep, hbetween, -⟩ := run_cons_eq_ok.mp hrest
    have hgone := gone_perform_of_allocated (gone_of_evictedBy hbounded hroom'.1 hevicted) hstep
    have hbetween' : Remembering s' between := remembering_of_append (hroom'.next hstep)
    have hgone' := gone_run (bounded_perform hbounded hstep) hbetween' hgone hnot hbetween
    simp [perform, consumeExit, hgone'.1, hgone'.2]

def firstKey : ProcessKey := ⟨1, 10⟩
def secondKey : ProcessKey := ⟨1, 11⟩
def thirdKey : ProcessKey := ⟨1, 12⟩

/-- One process executes a program and exits; then its successor is evicted before it exits. -/
noncomputable def orderedCalls : List (IterationOrder × Call) :=
  [.observeStart firstKey 100, .observeExec firstKey 150 Uuid.nil "/bin/sh", .consumeExit firstKey 200,
    .observeStart firstKey 300, .observeStart secondKey 400, .consumeExit firstKey 500].map (default, ·)

theorem exec_evidence_attributed_orderedCalls :
    InOrder (orderedCalls.map Prod.snd) ∧ Remembering (new 1 Uuid.nil) orderedCalls ∧
      Attributed 1 Uuid.nil orderedCalls := by
  have hin : InOrder (orderedCalls.map Prod.snd) := by
    show List.Pairwise _ _
    decide +kernel
  have hroom : Remembering (new 1 Uuid.nil) orderedCalls := by decide +kernel
  exact ⟨hin, hroom, exec_evidence_attributed 1 Uuid.nil orderedCalls hin hroom⟩

/-- An execution reported with a time before the start is kept with the generation, and its exit names it. -/
noncomputable def lateExecCalls : List (IterationOrder × Call) :=
  [.observeStart firstKey 100, .observeExec firstKey 50 Uuid.nil "/bin/sh", .consumeExit firstKey 200].map (default, ·)

theorem earlier_exec_named : ¬ Attributed 1 Uuid.nil lateExecCalls := by
  intro h
  have hexit := h.evidence (lateExecCalls.take 2) default firstKey 200 [] _ _ _ _ _ _ _ rfl rfl rfl
  obtain ⟨_, execNs, hentry, -, hmem, hstart, -⟩ := hexit
  cases hentry
  have hns : execNs = 50 := by simpa [lateExecCalls] using hmem
  rw [hns] at hstart
  exact absurd hstart (by decide)

/-- Iterates a set from a key on when the key is in it. -/
noncomputable def IterationOrder.startingAt (key : ProcessKey) : IterationOrder where
  first s := if key ∈ s then some key else (default : IterationOrder).first s
  first_mem s h := by
    by_cases hkey : key ∈ s
    · exact ⟨key, hkey, if_pos hkey⟩
    · rw [if_neg hkey]
      exact (default : IterationOrder).first_mem s h

/-- Three processes in a store for one: of the two that are evicted one is forgotten, and its exit is
answered as that of a process never seen. -/
noncomputable def crowdedCalls : List (IterationOrder × Call) :=
  [.observeStart firstKey 100, .observeStart secondKey 200, .observeStart thirdKey 300,
    .consumeExit firstKey 400].map (.startingAt firstKey, ·)

theorem evicted_key_forgotten : InOrder (crowdedCalls.map Prod.snd) ∧ ¬ Attributed 1 Uuid.nil crowdedCalls := by
  have hin : InOrder (crowdedCalls.map Prod.snd) := by
    show List.Pairwise _ _
    decide +kernel
  refine ⟨hin, fun h => ?_⟩
  have hunobserved : ∀ d ∈ [(IterationOrder.startingAt firstKey, Call.observeStart thirdKey 300)],
      ¬ d.2.Observes firstKey := by
    simp [Call.Observes, thirdKey, firstKey]
  have hexit := h.eviction (crowdedCalls.take 1) _ _ _ firstKey 400 [] _ _ _ _ rfl rfl
    ⟨by decide +kernel, .inr (by decide +kernel), by decide +kernel⟩ hunobserved rfl
  have hanswer := congrArg (Except.map Prod.fst) hexit
  exact absurd hanswer (by decide +kernel)

end Okoscope.Agent.ProcessRuntime
