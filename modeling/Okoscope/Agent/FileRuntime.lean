import Okoscope.Agent.Config

/-!
# File activity

A record of a file operation is an event if its path is observed; a rename with
one observed path is the deletion or the creation of that path. Modifications
are held back for a while, so that many of one open file are one event, and come
out before the deletion or the renaming of their path.
-/
namespace Okoscope.Agent.FileRuntime

open Lib Lib.FiniteMap Lib.Run EventModel
open Config KernelRecords Emission List

def fileModifyAggregationCapacity : Nat := 4096

/-- Five seconds of the monotonic clock. -/
def fileModifyAggregationWindow : Nat := 5 * 10 ^ 9

def translateRenameScope (value : FileRename) (oldObserved newObserved : Bool) : Option EventPayload :=
  match oldObserved, newObserved with
  | true, true => some (.fileRename value)
  | true, false => some (.fileDelete { path := value.oldPath })
  | false, true => some (.fileCreate { path := value.newPath })
  | false, false => none

/-- What the configuration lets through; which operations it names is not asked. -/
def scopedPayload (files : FileObservationConfig) : EventPayload → Option EventPayload
  | .fileCreate value => if files.observes value.path then some (.fileCreate value) else none
  | .fileModify value => if files.observes value.path then some (.fileModify value) else none
  | .fileDelete value => if files.observes value.path then some (.fileDelete value) else none
  | .fileRename value => translateRenameScope value (files.observes value.oldPath) (files.observes value.newPath)
  | _ => none

def runtimeFileEvent (files : FileObservationConfig) (env : Surroundings) (decoded : DecodedFileEvent) :
    Option RuntimeEvent := do
  let attribution ← env.attribution
  let payload ← scopedPayload files decoded.payload
  return eventOf env attribution (processOf decoded.kernel.cgroupId decoded.kernel.pidTgid decoded.kernel.command) payload

/-! ## Modifications -/

structure ModifyKey where
  workloadUid : String
  containerId : String
  tgid : UInt32
  fd : Int32
  generation : UInt64
  deriving DecidableEq

structure PendingModify where
  event : RuntimeEvent
  deadline : Nat

structure FileModifyAggregator where
  pending : Map ModifyKey PendingModify
  capacity : Nat

def modifyPath : EventPayload → Option String
  | .fileModify value => some value.path.value
  | _ => none

def structuralPath : EventPayload → Option String
  | .fileDelete value => some value.path.value
  | .fileRename value => some value.oldPath.value
  | _ => none

variable {key : ModifyKey} {pending : PendingModify} {order : Shuffle Entry} {selected : Entry → Bool}

namespace FileModifyAggregator

abbrev Entry := (_ : ModifyKey) × PendingModify

def new (capacity : Nat) : FileModifyAggregator := ⟨∅, capacity⟩

def modifyKey (event : RuntimeEvent) (fd : Int32) (generation : UInt64) : ModifyKey where
  workloadUid := event.attribution.workloadUid
  containerId := event.attribution.containerId
  tgid := event.process.tgid
  fd
  generation

/-- Takes out the entries that the test selects, in some order. -/
def release (s : FileModifyAggregator) (order : Shuffle Entry) (selected : Entry → Bool) :
    List RuntimeEvent × FileModifyAggregator :=
  ((order.apply (s.pending.entries.filter selected)).map (·.2.event),
    { s with pending := filterMap (fun key pending => if selected ⟨key, pending⟩ then none else some pending) s.pending })

/-- The entry is a modification of this path in the container of the event. -/
def concerns (event : RuntimeEvent) (path : String) (e : Entry) : Bool :=
  e.2.event.attribution.workloadUid = event.attribution.workloadUid &&
    e.2.event.attribution.containerId = event.attribution.containerId && modifyPath e.2.event.payload = some path

/-- Holds a modification back; a later one of the same open file takes its place. -/
def hold (s : FileModifyAggregator) (event : RuntimeEvent) (key : ModifyKey) (now : Nat) : FileModifyAggregator :=
  match s.pending.lookup key with
  | some pending => { s with pending := s.pending.insert key { pending with event } }
  | none =>
    if size s.pending ≥ s.capacity then s
    else { s with pending := s.pending.insert key { event, deadline := now + fileModifyAggregationWindow } }

/-- The events that are ready for delivery. -/
def observe (s : FileModifyAggregator) (order : Shuffle Entry) (event : RuntimeEvent) (fd : Int32) (generation : UInt64)
    (now : Nat) : List RuntimeEvent × FileModifyAggregator :=
  if (modifyPath event.payload).isSome then ([], s.hold event (modifyKey event fd generation) now)
  else
    match structuralPath event.payload with
    | none => ([event], s)
    | some path =>
      let (ready, s) := s.release order (concerns event path)
      (ready ++ [event], s)

def drainExpired (s : FileModifyAggregator) (order : Shuffle Entry) (now : Nat) : List RuntimeEvent × FileModifyAggregator :=
  s.release order fun e => e.2.deadline ≤ now

def drainAll (s : FileModifyAggregator) (order : Shuffle Entry) : List RuntimeEvent × FileModifyAggregator :=
  s.release order fun _ => true

/-! ## Held events -/

/-- Every modification that is held back satisfies the property. -/
def Holds (P : RuntimeEvent → Prop) (s : FileModifyAggregator) : Prop :=
  ∀ key pending, s.pending.lookup key = some pending → P pending.event

section
variable {P : RuntimeEvent → Prop} {s : FileModifyAggregator}

theorem holds_new {capacity : Nat} : (new capacity).Holds P := by
  intro key pending h
  cases h

/-- The events that are held back. -/
def held (s : FileModifyAggregator) : List RuntimeEvent := s.pending.entries.map (·.2.event)

theorem forall_held : (∀ event ∈ held s, P event) ↔ s.Holds P := by
  simp only [held, forall_mem_map, Sigma.forall, mem_entries_iff, Holds]

theorem entries_release :
    (s.release order selected).2.pending.entries = s.pending.entries.filter fun e => !selected e := by
  rw [← filterMap_eq_filter]
  refine filterMap_congr fun e _ => ?_
  cases hsel : selected e <;> simp [Option.guard, hsel]

theorem release_lookup (order : Shuffle Entry) (h : (s.release order selected).2.pending.lookup key = some pending) :
    s.pending.lookup key = some pending := by
  have hmem : (⟨key, pending⟩ : Entry) ∈ _ := mem_entries_iff.mpr h
  exact mem_entries_iff.mp (mem_filter.mp (entries_release ▸ hmem)).1

/-- What comes out is held no longer, and the rest stays. -/
theorem release_perm (order : Shuffle Entry) (selected : Entry → Bool) :
    ((s.release order selected).1 ++ held (s.release order selected).2).Perm (held s) := by
  rw [held, entries_release, release, ← map_append]
  exact (((order.perm _).append_right _).trans (filter_append_perm _ _)).map _

theorem hold_subperm {event : RuntimeEvent} {now : Nat} :
    (held (s.hold event key now)).Subperm (held s ++ [event]) := by
  have hinsert : ∀ deadline,
      (held { s with pending := s.pending.insert key ⟨event, deadline⟩ }).Subperm (held s ++ [event]) := fun _ =>
    .trans (((kerase_sublist key _).map _).cons_cons event).subperm (perm_append_singleton event _).symm.subperm
  unfold hold
  split
  next pending _ => exact hinsert pending.deadline
  · split
    · exact (sublist_append_left _ _).subperm
    · exact hinsert _

variable {event : RuntimeEvent} {fd : Int32} {generation : UInt64} {now : Nat}

/-- Every event that is delivered or held was held or is the one observed, and none is twice. -/
theorem observe_subperm : ((s.observe order event fd generation now).1 ++
    held (s.observe order event fd generation now).2).Subperm (held s ++ [event]) := by
  unfold observe
  split
  · exact hold_subperm
  split
  · exact perm_append_comm.subperm
  next path _ =>
    refine (List.Perm.trans ?_ ((release_perm order (concerns event path)).append_right [event])).subperm
    simp only [append_assoc]
    exact .append_left _ perm_append_comm

theorem Holds.of_subset (h : s.Holds P) {t : FileModifyAggregator} {ready events : List RuntimeEvent}
    (hsub : ready ++ held t ⊆ held s ++ events) (hevents : ∀ event ∈ events, P event) :
    (∀ event ∈ ready, P event) ∧ t.Holds P := by
  rw [← forall_held] at h ⊢
  rw [← forall_mem_append]
  intro event hevent
  exact (mem_append.mp (hsub hevent)).elim (h event) (hevents event)

theorem Holds.release (h : s.Holds P) (order : Shuffle Entry) (selected : Entry → Bool) :
    (∀ event ∈ (s.release order selected).1, P event) ∧ (s.release order selected).2.Holds P :=
  h.of_subset (fun _ hmem => mem_append_left [] ((release_perm order selected).subset hmem)) (forall_mem_nil _)

end

/-! ## Every modification is delivered -/

/-- An observed event, with the descriptor and the generation of its record. -/
structure Observed where
  order : Shuffle Entry
  event : RuntimeEvent
  fd : Int32
  generation : UInt64
  now : Nat

def observeStep (s : FileModifyAggregator) (observed : Observed) : List RuntimeEvent × FileModifyAggregator :=
  s.observe observed.order observed.event observed.fd observed.generation observed.now

/-- The modification finds its key free, with room for it, or held by a modification of the same path. -/
def Separate (s : FileModifyAggregator) (observed : Observed) : Prop :=
  (modifyPath observed.event.payload).isSome →
    match s.pending.lookup (modifyKey observed.event observed.fd observed.generation) with
    | some pending => modifyPath pending.event.payload = modifyPath observed.event.payload
    | none => size s.pending < s.capacity

instance (s : FileModifyAggregator) (observed : Observed) : Decidable (Separate s observed) := by
  unfold Separate
  split <;> infer_instance

/-- Modifications of one path by one process of a container. -/
def Alike (a b : RuntimeEvent) : Prop :=
  a.attribution.workloadUid = b.attribution.workloadUid ∧ a.attribution.containerId = b.attribution.containerId ∧
    a.process.tgid = b.process.tgid ∧ modifyPath a.payload = modifyPath b.payload

instance (a b : RuntimeEvent) : Decidable (Alike a b) := inferInstanceAs (Decidable (_ ∧ _))

/-- The key is that of the event's process and container. -/
def Keyed (key : ModifyKey) (event : RuntimeEvent) : Prop :=
  key.workloadUid = event.attribution.workloadUid ∧ key.containerId = event.attribution.containerId ∧
    key.tgid = event.process.tgid

/-- Every observed modification was delivered, or is held, up to later ones of its path. -/
structure Covered (history : List (Observed × List RuntimeEvent)) (s : FileModifyAggregator) : Prop where
  keyed : ∀ key pending, s.pending.lookup key = some pending → Keyed key pending.event
  covered : ∀ entry ∈ history, (modifyPath entry.1.event.payload).isSome →
    (∃ event ∈ history.flatMap Prod.snd, Alike entry.1.event event) ∨
      ∃ key pending, s.pending.lookup key = some pending ∧ Alike entry.1.event pending.event

section
variable {s : FileModifyAggregator} {history : List (Observed × List RuntimeEvent)} {observed : Observed}

/-- What is taken out is delivered, and the rest stays. -/
theorem release_or_held (h : s.pending.lookup key = some pending) :
    pending.event ∈ (s.release order selected).1 ∨ (s.release order selected).2.pending.lookup key = some pending := by
  cases hsel : selected ⟨key, pending⟩ with
  | true =>
    refine .inl (mem_map.mpr ⟨⟨key, pending⟩, (order.perm _).mem_iff.mpr ?_, rfl⟩)
    exact mem_filter.mpr ⟨mem_entries_iff.mpr h, hsel⟩
  | false =>
    simp [release, lookup_filterMap, h, hsel]

/-- An observation that delivers what it gives up, and holds the event itself if it is a modification. -/
theorem Covered.extend (h : Covered history s) {t : FileModifyAggregator} {ready : List RuntimeEvent}
    (hkeyed : ∀ key pending, t.pending.lookup key = some pending → Keyed key pending.event)
    (hold : ∀ key pending, s.pending.lookup key = some pending →
      (∃ event ∈ ready, Alike pending.event event) ∨ ∃ key' pending', t.pending.lookup key' = some pending' ∧
        Alike pending.event pending'.event) (hself : (modifyPath observed.event.payload).isSome →
      ∃ key pending, t.pending.lookup key = some pending ∧ Alike observed.event pending.event) :
    Covered (history ++ [(observed, ready)]) t := by
  have htrans : ∀ {a b c : RuntimeEvent}, Alike a b → Alike b c → Alike a c := fun h h' =>
    ⟨h.1.trans h'.1, h.2.1.trans h'.2.1, h.2.2.1.trans h'.2.2.1, h.2.2.2.trans h'.2.2.2⟩
  refine ⟨hkeyed, fun entry hentry hmodify => ?_⟩
  simp only [flatMap_append, mem_append, flatMap_singleton]
  obtain hentry | hentry := mem_append.mp hentry
  · obtain ⟨event, hevent, halike⟩ | ⟨key, pending, hl, halike⟩ := h.covered entry hentry hmodify
    · exact .inl ⟨event, .inl hevent, halike⟩
    · obtain ⟨event, hevent, halike'⟩ | ⟨key', pending', hl', halike'⟩ := hold key pending hl
      · exact .inl ⟨event, .inr hevent, htrans halike halike'⟩
      · exact .inr ⟨key', pending', hl', htrans halike halike'⟩
  · obtain rfl := mem_singleton.mp hentry
    exact .inr (hself hmodify)

theorem Covered.step (h : Covered history s) (hsep : Separate s observed) :
    Covered (history ++ [(observed, (observeStep s observed).1)]) (observeStep s observed).2 := by
  have hrefl : ∀ event, Alike event event := fun _ => ⟨rfl, rfl, rfl, rfl⟩
  unfold observeStep observe
  split
  next hmodify =>
    have hfound := hsep hmodify
    generalize hkey : modifyKey observed.event observed.fd observed.generation = key at hfound
    -- the event takes the place of one of its path, or a free one
    have hinsert : ∀ deadline, (∀ pending, s.pending.lookup key = some pending →
        modifyPath pending.event.payload = modifyPath observed.event.payload) →
        Covered (history ++ [(observed, [])])
          { s with pending := s.pending.insert key ⟨observed.event, deadline⟩ } := by
      intro deadline hsame
      refine h.extend (fun key' pending hl => ?_) (fun key' pending hl => .inr ?_) fun _ =>
        ⟨key, ⟨observed.event, deadline⟩, ?_, hrefl _⟩
      · obtain ⟨rfl, rfl⟩ | ⟨-, hl⟩ := lookup_insert_some hl
        · subst hkey
          exact ⟨rfl, rfl, rfl⟩
        · exact h.keyed key' pending hl
      · by_cases heq : key' = key
        · subst heq
          obtain ⟨hw, hc, ht⟩ := h.keyed key' pending hl
          refine ⟨key', _, by rw [lookup_insert_eq, if_pos rfl], ?_⟩
          subst hkey
          exact ⟨hw.symm, hc.symm, ht.symm, hsame pending hl⟩
        · exact ⟨key', pending, by rw [lookup_insert_eq, if_neg heq, hl], hrefl _⟩
      · rw [lookup_insert_eq, if_pos rfl]
    rw [hold]
    cases hl : s.pending.lookup key with
    | some pending =>
      rw [hl] at hfound
      exact hinsert pending.deadline fun _ hp => by cases hl.symm.trans hp; exact hfound
    | none =>
      rw [hl] at hfound
      rw [if_neg (Nat.not_le.mpr hfound)]
      exact hinsert _ fun _ hp => by cases hl.symm.trans hp
  next hmodify =>
    split
    · exact h.extend h.keyed (fun key pending hl => .inr ⟨key, pending, hl, hrefl _⟩) fun hm => absurd hm hmodify
    next =>
      refine h.extend (fun key pending hl => h.keyed key pending (release_lookup observed.order hl)) (fun key pending hl => ?_)
        fun hm => absurd hm hmodify
      obtain hready | hheld := release_or_held hl
      · exact .inl ⟨_, mem_append_left _ hready, hrefl _⟩
      · exact .inr ⟨key, pending, hheld, hrefl _⟩

/-- When no modification takes the place of one of another path, every modification is delivered once all that is
held is drained. -/
theorem modifications_delivered {capacity : Nat} {observations : List Observed}
    (hsep : Along observeStep Separate (new capacity) observations) (order : Shuffle Entry) :
    let t := trace observeStep (new capacity) observations
    ∀ observed ∈ observations, (modifyPath observed.event.payload).isSome →
      ∃ event ∈ t.1.flatMap Prod.snd ++ (t.2.drainAll order).1, Alike observed.event event := by
  intro t observed hmem hmodify
  have hcovered : Covered t.1 t.2 := trace_invariant_along Covered (fun _ _ _ => Covered.step)
    ⟨fun key pending hl => (by cases hl), fun _ hentry => absurd hentry not_mem_nil⟩ hsep
  have hhistory : t.1.map Prod.fst = observations := map_fst_trace
  rw [← hhistory] at hmem
  obtain ⟨entry, hentry, rfl⟩ := mem_map.mp hmem
  obtain ⟨event, hevent, halike⟩ | ⟨_, _, hl, halike⟩ := hcovered.covered entry hentry hmodify
  · exact ⟨event, mem_append_left _ hevent, halike⟩
  · obtain hready | hheld := release_or_held hl
    · exact ⟨_, mem_append_right _ hready, halike⟩
    · simp [release, lookup_filterMap] at hheld

/-- A truncation by path, whose record has no descriptor. -/
def truncation (path : FileActivityPath) : Observed where
  order := .asIs
  event := ⟨Uuid.nil, 0, eventSchemaVersion, paymentApi, ⟨42, 100, 100, "api"⟩, .fileModify { path }⟩
  fd := -1
  generation := 0
  now := 0

def firstFile : FileActivityPath := ⟨"/a", by decide +kernel, by decide +kernel⟩
def secondFile : FileActivityPath := ⟨"/b", by decide +kernel, by decide +kernel⟩

def write (path : FileActivityPath) (fd : Int32) : Observed := { truncation path with fd }

/-- Two files are written through descriptors, and the first once more; its writes are merged. -/
def twoFiles : List Observed := [write firstFile 3, write secondFile 4, write firstFile 3]

theorem twoFiles_delivered :
    let t := trace observeStep (new 2) twoFiles
    (∃ event ∈ t.1.flatMap Prod.snd ++ (t.2.drainAll .asIs).1, Alike (write firstFile 3).event event) ∧
      ∃ event ∈ t.1.flatMap Prod.snd ++ (t.2.drainAll .asIs).1, Alike (write secondFile 4).event event := by
  have hsep : Along observeStep Separate (new 2) twoFiles := by decide +kernel
  exact ⟨modifications_delivered hsep .asIs _ mem_cons_self (by decide),
    modifications_delivered hsep .asIs _ (mem_cons_of_mem _ mem_cons_self) (by decide)⟩

/-- A process truncates two files: their records have one key, and the first is lost. -/
theorem second_truncation_replaces :
    let t := trace observeStep (new fileModifyAggregationCapacity) [truncation firstFile, truncation secondFile]
    ∀ event ∈ t.1.flatMap Prod.snd ++ (t.2.drainAll .asIs).1, ¬ Alike (truncation firstFile).event event := by
  decide +kernel

/-! ## Order -/

inductive Op where
  | observe (observed : Observed)
  | drainExpired (order : Shuffle Entry) (now : Nat)
  | drainAll (order : Shuffle Entry)

def opStep (s : FileModifyAggregator) : Op → List RuntimeEvent × FileModifyAggregator
  | .observe observed => observeStep s observed
  | .drainExpired order now => s.drainExpired order now
  | .drainAll order => s.drainAll order

def Op.events : Op → List RuntimeEvent
  | .observe observed => [observed.event]
  | _ => []

theorem opStep_subperm (op : Op) : ((opStep s op).1 ++ held (opStep s op).2).Subperm (held s ++ op.events) := by
  cases op with
  | observe => exact observe_subperm
  | drainExpired | drainAll => exact (append_nil (held s) ▸ release_perm _ _).subperm

/-- The events that a run delivers, in order. -/
def delivered (s : FileModifyAggregator) (ops : List Op) : List RuntimeEvent := (trace opStep s ops).1.flatMap Prod.snd

theorem trace_subperm {ops : List Op} :
    (delivered s ops ++ held (trace opStep s ops).2).Subperm (held s ++ ops.flatMap Op.events) := by
  induction ops generalizing s with
  | nil => exact (append_nil (held s)).symm ▸ .refl _
  | cons op ops ih =>
    have hrest := ((subperm_append_left (opStep s op).1).mpr ih).trans
      (append_assoc .. ▸ (subperm_append_right (ops.flatMap Op.events)).mpr (opStep_subperm op))
    simpa [delivered, trace] using hrest

/-! ### Windows -/

/-- A modification that is held under this key. -/
def under (keyOf : RuntimeEvent → ModifyKey) (key : ModifyKey) (event : RuntimeEvent) : Bool :=
  (modifyPath event.payload).isSome && keyOf event = key

/-- The operation opens a window of the key: it holds back a modification that finds the key free, and room. -/
def opens (key : ModifyKey) (s : FileModifyAggregator) : Op → Bool
  | .observe o => (modifyPath o.event.payload).isSome && modifyKey o.event o.fd o.generation = key &&
      (s.pending.lookup key).isNone && size s.pending < s.capacity
  | _ => false

/-- How many windows of the key a run opens. -/
def opened (key : ModifyKey) (s : FileModifyAggregator) : List Op → Nat
  | [] => 0
  | op :: ops => (opens key s op).toNat + opened key (opStep s op).2 ops

/-- The operation observes an event under the key that is given for it. -/
def Op.Keys (keyOf : RuntimeEvent → ModifyKey) : Op → Prop
  | .observe o => modifyKey o.event o.fd o.generation = keyOf o.event
  | _ => True

/-- Every event is held under its key. -/
def HeldUnder (keyOf : RuntimeEvent → ModifyKey) (s : FileModifyAggregator) : Prop :=
  ∀ key pending, s.pending.lookup key = some pending → under keyOf key pending.event

theorem countP_held {p : RuntimeEvent → Bool} :
    (held s).countP p = total (fun _ pending => (p pending.event).toNat) s.pending := by
  rw [held, total]
  induction s.pending.entries with
  | nil => rfl
  | cons e _ ih =>
    rw [map_cons, map_cons, countP_cons, sum_cons, ih, Nat.add_comm]
    cases p e.2.event <;> rfl

section
variable {keyOf : RuntimeEvent → ModifyKey} (hs : HeldUnder keyOf s)
include hs

theorem release_windows (order : Shuffle Entry) (selected : Entry → Bool) {p : RuntimeEvent → Bool} :
    HeldUnder keyOf (s.release order selected).2 ∧
      ((s.release order selected).1 ++ held (s.release order selected).2).countP p = (held s).countP p :=
  ⟨fun key pending h => hs key pending (release_lookup order h), (release_perm order selected).countP_eq p⟩

/-- A modification under a key that is held takes the place of the one before. -/
theorem hold_windows {event : RuntimeEvent} {now : Nat} (hevent : ∀ k, under keyOf k event = decide (k = key)) (k : ModifyKey) :
    HeldUnder keyOf (s.hold event key now) ∧ (held (s.hold event key now)).countP (under keyOf k) ≤
      (held s).countP (under keyOf k) +
        (decide (key = k) && (s.pending.lookup k).isNone && decide (size s.pending < s.capacity)).toNat := by
  have hinsert : ∀ deadline, HeldUnder keyOf { s with pending := s.pending.insert key ⟨event, deadline⟩ } := by
    intro deadline k pending hl
    obtain ⟨rfl, rfl⟩ | ⟨-, hl⟩ := lookup_insert_some hl
    · rw [hevent, decide_eq_true rfl]
    · exact hs k pending hl
  unfold hold
  rw [countP_held, countP_held]
  split
  next pending hl =>
    refine ⟨hinsert _, ?_⟩
    have htotal := total_insert (fun _ (pending : PendingModify) => (under keyOf k pending.event).toNat) s.pending key
      { pending with event }
    rw [part_of_lookup _ hl] at htotal
    have hold := hs key pending hl
    simp only [under, Bool.and_eq_true, decide_eq_true_eq] at hold
    have hsame : under keyOf k pending.event = under keyOf k event := by
      rw [hevent, under, hold.1, hold.2, Bool.true_and]
      exact decide_eq_decide.mpr eq_comm
    dsimp only at htotal ⊢
    rw [hsame] at htotal
    omega
  next hl =>
    split
    · exact ⟨hs, Nat.le_add_right _ _⟩
    next hroom =>
      refine ⟨hinsert _, ?_⟩
      have htotal := total_insert (fun _ (pending : PendingModify) => (under keyOf k pending.event).toNat) s.pending key
        ⟨event, now + fileModifyAggregationWindow⟩
      rw [part_of_none _ hl, hevent] at htotal
      by_cases hk : k = key
      · subst hk
        simp [hl, Nat.not_le.mp hroom] at htotal ⊢
        omega
      · simp only [decide_eq_false hk, Bool.toNat_false, Nat.add_zero] at htotal
        exact htotal.le.trans (Nat.le_add_right _ _)

theorem opStep_windows {op : Op} (hop : op.Keys keyOf) (k : ModifyKey) : HeldUnder keyOf (opStep s op).2 ∧
      ((opStep s op).1 ++ held (opStep s op).2).countP (under keyOf k) ≤
        (held s).countP (under keyOf k) + (opens k s op).toNat := by
  cases op with
  | drainExpired order now => exact (release_windows hs order _).imp_right fun h => h.le.trans (Nat.le_add_right _ _)
  | drainAll order => exact (release_windows hs order _).imp_right fun h => h.le.trans (Nat.le_add_right _ _)
  | observe o =>
    simp only [opStep, observeStep, observe, opens]
    split
    next hmodify =>
      have hevent : ∀ k, under keyOf k o.event = decide (k = modifyKey o.event o.fd o.generation) := by
        intro k
        rw [under, hmodify, Bool.true_and, hop]
        exact decide_eq_decide.mpr eq_comm
      rw [hmodify, Bool.true_and]
      exact hold_windows hs hevent k
    next hmodify =>
      have hnone : under keyOf k o.event = false := by simp [under, hmodify]
      split
      · exact ⟨hs, by simp [hnone]⟩
      next path _ =>
        obtain ⟨hheld, hcount⟩ := release_windows hs o.order (concerns o.event path) (p := under keyOf k)
        refine ⟨hheld, ?_⟩
        rw [countP_append] at hcount
        rw [countP_append, countP_append, countP_singleton, hnone, ← hcount]
        exact Nat.le_add_right _ _

theorem trace_windows {ops : List Op} (hops : ∀ op ∈ ops, op.Keys keyOf) (k : ModifyKey) :
    (delivered s ops).countP (under keyOf k) ≤ (held s).countP (under keyOf k) + opened k s ops := by
  induction ops generalizing s with
  | nil => exact Nat.zero_le _
  | cons op ops ih =>
    obtain ⟨hop, hops⟩ := forall_mem_cons.mp hops
    obtain ⟨hnext, hcount⟩ := opStep_windows hs hop k
    have hrest := ih hnext hops
    have hsplit : delivered s (op :: ops) = (opStep s op).1 ++ delivered (opStep s op).2 ops := by
      simp [delivered, trace]
    rw [hsplit, countP_append, opened]
    rw [countP_append] at hcount
    omega

end

/-- A modification of this path in the container of the event. -/
def modifies (event : RuntimeEvent) (path : String) (e : RuntimeEvent) : Bool :=
  concerns event path ⟨modifyKey e 0 0, e, 0⟩

/-- The deletion or renaming of a path comes out last, and leaves no modification of it behind. -/
theorem observeStep_structural {path : String} (hpath : structuralPath observed.event.payload = some path) :
    (∃ ready, (observeStep s observed).1 = ready ++ [observed.event]) ∧
      (held (observeStep s observed).2).filter (modifies observed.event path) = [] := by
  have hmodify : ¬ (modifyPath observed.event.payload).isSome := by
    cases hp : observed.event.payload <;> simp [hp, modifyPath, structuralPath] at hpath ⊢
  rw [observeStep, observe, if_neg hmodify, hpath]
  refine ⟨⟨_, rfl⟩, ?_⟩
  rw [filter_eq_nil_iff, held, entries_release, forall_mem_map]
  exact fun _ he => Bool.not_eq_true _ ▸ (Bool.not_eq_true' _).mp (mem_filter.mp he).2

/-- No event comes out twice, the modifications that come out under a key are no more than the windows opened for
it, and a modification of a path that comes out after its deletion or renaming was observed after it. -/
theorem modifications_precede_structural (capacity : Nat) (ops : List Op) :
    (delivered (new capacity) ops).Subperm (ops.flatMap Op.events) ∧
    (∀ keyOf : RuntimeEvent → ModifyKey, (∀ op ∈ ops, op.Keys keyOf) → ∀ key,
      (delivered (new capacity) ops).countP (under keyOf key) ≤ opened key (new capacity) ops) ∧
    ∀ before observed after path, ops = before ++ .observe observed :: after →
      structuralPath observed.event.payload = some path →
      let answer := observeStep (trace opStep (new capacity) before).2 observed
      (∃ ready, answer.1 = ready ++ [observed.event]) ∧
        delivered (new capacity) ops = delivered (new capacity) before ++ answer.1 ++ delivered answer.2 after ∧
        ((delivered answer.2 after).filter (modifies observed.event path)).Subperm
          ((after.flatMap Op.events).filter (modifies observed.event path)) := by
  have honce : ∀ s ops, (delivered s ops).Subperm (held s ++ ops.flatMap Op.events) := fun _ _ =>
    .trans (sublist_append_left _ _).subperm trace_subperm
  have hwindows : ∀ keyOf : RuntimeEvent → ModifyKey, (∀ op ∈ ops, op.Keys keyOf) → ∀ key,
      (delivered (new capacity) ops).countP (under keyOf key) ≤ opened key (new capacity) ops := by
    intro keyOf hops key
    have hnone : HeldUnder keyOf (new capacity) := fun _ _ h => nomatch h
    simpa [held, new] using trace_windows hnone hops key
  refine ⟨honce _ ops, hwindows, fun before observed after path hops hpath => ?_⟩
  subst hops
  obtain ⟨hready, hforgotten⟩ := observeStep_structural (s := (trace opStep (new capacity) before).2) hpath
  refine ⟨hready, by simp [delivered, trace_append_fst, trace, opStep], ?_⟩
  have hafter := (honce (observeStep (trace opStep (new capacity) before).2 observed).2 after).filter
    (modifies observed.event path)
  rwa [filter_append, hforgotten] at hafter

def deletion (path : FileActivityPath) : Observed :=
  { truncation path with event := { (truncation path).event with payload := .fileDelete { path } } }

theorem truncation_precedes_deletion :
    (delivered (observeStep (trace opStep (new 1) [.observe (truncation firstFile)]).2 (deletion firstFile)).2
      [.drainAll .asIs]).filter (modifies (deletion firstFile).event "/a") = [] :=
  subperm_nil.mp ((modifications_precede_structural 1 _).2.2 _ (deletion firstFile) _ "/a" rfl rfl).2.2

end
end FileModifyAggregator
end Okoscope.Agent.FileRuntime
