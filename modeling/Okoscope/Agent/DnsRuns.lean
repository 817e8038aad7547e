import Mathlib.Data.Finite.Sum
import Mathlib.Data.Fintype.Vector
import Mathlib.Data.String.Basic
import Mathlib.SetTheory.Cardinal.NatCard
import Okoscope.Agent.DnsTransactions
import Okoscope.Lib.Table

/-!
# Runs of the questions and names

The names of an address are those of the answers that its own control group received, whatever
else is asked, answered or looked up. A question that is asked again before its first number left the
queue keeps the ones behind it waiting after their time.
-/
namespace Okoscope.Agent.DnsTransactions

open Lib Lib.Run Lib.FiniteMap EventModel
open Emission (CachedName dedupByName dedupAfter contextFor)
open DnsState List

inductive Op where
  | registerQuery (key : PendingQueryKey) (process : ProcessIdentity) (now : Nat)
  | correlateResponse (key : PendingQueryKey) (response : NetworkDnsResponse) (now : Nat) (observedAt : DateTime)
  | contextFor (cgroupId : UInt64) (address : IpAddr) (now : DateTime)

inductive Answer where
  | registered (taken : Bool)
  | correlated (process : Option ProcessIdentity)
  | context (value : Option DnsContext)
  deriving DecidableEq

/-- The instant of an operation on the questions. -/
def Op.instant : Op → Option Nat
  | .registerQuery _ _ now | .correlateResponse _ _ now _ => some now
  | .contextFor _ _ _ => none

/-- The time of an operation on the names. -/
def Op.time : Op → Option DateTime
  | .registerQuery _ _ _ => none
  | .correlateResponse _ _ _ observedAt => some observedAt
  | .contextFor _ _ now => some now

def step (s : DnsState) : Op → Answer × DnsState
  | .registerQuery key process now => ((s.registerQuery key process now).map .registered id)
  | .correlateResponse key response now observedAt =>
    ((s.correlateResponse key response now observedAt).map .correlated id)
  | .contextFor cgroupId address now =>
    (.context (contextFor s.namesOf cgroupId address now), s.afterContext cgroupId address now)

variable {s : DnsState} {key : PendingQueryKey} {query : PendingQuery} {now timeout : Nat} {op : Op} {ops : List Op}
variable {maxPending maxNames maxTtl : Nat} {cgroupId : UInt64} {address : IpAddr}

/-! ## Questions -/

/-- No question has waited for the timeout. -/
def Fresh (now : Nat) (s : DnsState) : Prop :=
  ∀ key query, s.pending.lookup key = some query → now - query.createdAt < s.transactionTimeout

/-- A question is asked again only when the queue no longer has it. -/
def AsksNew (s : DnsState) : Op → Prop
  | .registerQuery key _ now => key ∉ (s.expirePending now).pendingOrder
  | .correlateResponse _ _ _ _ | .contextFor _ _ _ => True

instance (s : DnsState) (op : Op) : Decidable (AsksNew s op) :=
  match op with
  | .registerQuery key _ now => inferInstanceAs (Decidable (key ∉ (s.expirePending now).pendingOrder))
  | .correlateResponse _ _ _ _ | .contextFor _ _ _ => inferInstanceAs (Decidable True)

/-- Every question is in the queue, and the queue is in the order of the questions' times. -/
structure Queued (now : Nat) (order : List PendingQueryKey) (pending : Map PendingQueryKey PendingQuery) : Prop where
  stored : ∀ key query, pending.lookup key = some query → key ∈ order ∧ query.createdAt ≤ now
  sorted : order.Pairwise fun key key' => ∀ query query', pending.lookup key = some query →
    pending.lookup key' = some query' → query.createdAt ≤ query'.createdAt

variable {order : List PendingQueryKey} {pending : Map PendingQueryKey PendingQuery}

theorem queued_empty (now : Nat) : Queued now [] ∅ := ⟨fun key query hl => (by cases hl), List.Pairwise.nil⟩

theorem Queued.later (h : Queued now order pending) {now' : Nat} (hle : now ≤ now') : Queued now' order pending :=
  ⟨fun key query hl => ⟨(h.stored key query hl).1, (h.stored key query hl).2.trans hle⟩, h.sorted⟩

theorem Queued.erase (h : Queued now order pending) : Queued now order (pending.erase key) := by
  refine ⟨fun key' query hl => h.stored key' query (lookup_erase_some hl).2, h.sorted.imp fun hle query query' hq hq' => ?_⟩
  exact hle query query' (lookup_erase_some hq).2 (lookup_erase_some hq').2

theorem Queued.tail (h : Queued now (key :: order) pending) (hgone : pending.lookup key = none) :
    Queued now order pending := by
  refine ⟨fun key' query hl => ⟨?_, (h.stored key' query hl).2⟩, h.sorted.of_cons⟩
  obtain rfl | hmem := mem_cons.mp (h.stored key' query hl).1
  · cases hgone.symm.trans hl
  · exact hmem

/-- The loop stops at a question with time left, and those behind it are not older. -/
theorem queued_dropExpired (timeout : Nat) (h : Queued now order pending) :
    Queued now (dropExpired timeout now order pending).1 (dropExpired timeout now order pending).2 ∧
      ∀ key query, (dropExpired timeout now order pending).2.lookup key = some query →
        pending.lookup key = some query ∧ now - query.createdAt < timeout := by
  induction order generalizing pending with
  | nil => exact ⟨h, fun key query hl => absurd (h.stored key query hl).1 not_mem_nil⟩
  | cons first _ ih =>
    rw [dropExpired]
    split
    next hgone => exact ih (h.tail hgone)
    next oldest holdest =>
      split
      next hlive =>
        refine ⟨h, fun key query hl => ⟨hl, ?_⟩⟩
        obtain rfl | hmem := mem_cons.mp (h.stored key query hl).1
        · cases holdest.symm.trans hl
          exact hlive
        · have hle := (pairwise_cons.mp h.sorted).1 key hmem oldest query holdest hl
          omega
      · have hgone : (pending.erase first).lookup first = none := by rw [lookup_erase_eq, if_pos rfl]
        obtain ⟨hqueued, hfresh⟩ := ih (h.erase.tail hgone)
        exact ⟨hqueued, fun key query hl => (hfresh key query hl).imp_left fun hl => (lookup_erase_some hl).2⟩

theorem cacheAnswers_frame (key : PendingQueryKey) (observedAt : DateTime) (answers : List DnsAddressAnswer)
    (s : DnsState) : ∃ addresses, answers.foldl (cacheAnswer key observedAt) s = { s with addresses } := by
  induction answers generalizing s with
  | nil => exact ⟨s.addresses, rfl⟩
  | cons answer _ ih => exact ih (cacheAnswer key observedAt s answer)

theorem afterContext_frame {time : DateTime} :
    ∃ addresses, s.afterContext cgroupId address time = { s with addresses } := by
  rw [afterContext]
  split
  · exact ⟨s.addresses, rfl⟩
  · dsimp only
    split <;> exact ⟨_, rfl⟩

variable {process : ProcessIdentity}

theorem queued_insert (h : Queued now order pending) (hnew : key ∉ order) :
    Queued now (order ++ [key]) (pending.insert key ⟨now, process⟩) := by
  have hold : ∀ key' ∈ order, (pending.insert key ⟨now, process⟩).lookup key' = pending.lookup key' := by
    intro key' hmem
    rw [lookup_insert_eq, if_neg (by rintro rfl; exact hnew hmem)]
  refine ⟨fun key' query hl => ?_, pairwise_append.mpr ⟨?_, pairwise_singleton _ _, ?_⟩⟩
  · obtain ⟨rfl, rfl⟩ | ⟨-, hl⟩ := lookup_insert_some hl
    · exact ⟨mem_concat_self, le_refl now⟩
    · exact (h.stored key' query hl).imp_left (mem_append_left _)
  · refine h.sorted.imp_of_mem fun hk hk' hle query query' hl hl' => ?_
    exact hle query query' (hold _ hk ▸ hl) (hold _ hk' ▸ hl')
  · intro key' hmem last hlast query query' hl hl'
    rw [mem_singleton.mp hlast, lookup_insert_eq, if_pos rfl] at hl'
    cases hl'
    exact (h.stored key' query (hold key' hmem ▸ hl)).2

/-- An operation at a time no earlier than those before it leaves no question that waited for the timeout. -/
theorem queued_step (h : Queued now s.pendingOrder s.pending) (hnow : op.instant = none ∨ op.instant = some now)
    (hnew : AsksNew s op) : Queued now (step s op).2.pendingOrder (step s op).2.pending ∧
      (step s op).2.transactionTimeout = s.transactionTimeout ∧
      (op.instant = some now → 0 < s.transactionTimeout → Fresh now (step s op).2) := by
  obtain ⟨hqueued, hfresh⟩ := queued_dropExpired s.transactionTimeout h
  cases op with
  | contextFor =>
    obtain ⟨_, hframe⟩ := afterContext_frame
    rw [step, hframe]
    exact ⟨h, rfl, nofun⟩
  | registerQuery key _ now' =>
    obtain rfl : now' = now := by simpa [Op.instant] using hnow
    simp only [step, registerQuery]
    split
    · exact ⟨hqueued, rfl, fun _ _ key query hl => (hfresh key query hl).2⟩
    refine ⟨queued_insert hqueued hnew, rfl, fun _ hpos key' query hl => ?_⟩
    dsimp only [Prod.map, id] at hl ⊢
    obtain ⟨-, rfl⟩ | ⟨-, hl⟩ := lookup_insert_some hl
    · rw [Nat.sub_self]
      exact hpos
    · exact (hfresh key' query hl).2
  | correlateResponse key response now' observedAt =>
    obtain rfl : now' = now := by simpa [Op.instant] using hnow
    simp only [step, correlateResponse]
    split
    · exact ⟨hqueued, rfl, fun _ _ key query hl => (hfresh key query hl).2⟩
    next query _ =>
      obtain ⟨_, hframe⟩ := cacheAnswers_frame key observedAt response.answers
        { s.expirePending now' with pending := (s.expirePending now').pending.erase key }
      simp only [Prod.map, id, hframe]
      exact ⟨hqueued.erase, rfl, fun _ _ key' query hl => (hfresh key' query (lookup_erase_some hl).2).2⟩

theorem correlated_some {response : NetworkDnsResponse} {observedAt : DateTime}
    (h : (step s (.correlateResponse key response now observedAt)).1 = .correlated (some process)) :
    ∃ query, (s.expirePending now).pending.lookup key = some query ∧ query.process = process := by
  simp only [step, correlateResponse] at h
  split at h
  · cases h
  next query hquery =>
    cases h
    exact ⟨query, hquery, rfl⟩

/-- When no question is asked again while it is in the queue, nothing that waited for the timeout is left by an
operation, counts against its room or is what a response under its key answers. -/
theorem pending_queries_expire (maxPending maxNames maxTtl : Nat) (htimeout : 0 < timeout)
    (hclock : ((ops ++ [op]).filterMap Op.instant).Pairwise (· ≤ ·)) (hnow : op.instant = some now)
    (hnew : Along step AsksNew (new maxPending maxNames timeout maxTtl) (ops ++ [op])) :
    let s := (trace step (new maxPending maxNames timeout maxTtl) ops).2
    Fresh now (step s op).2 ∧ Fresh now (s.expirePending now) ∧
      ∀ key response observedAt process, op = .correlateResponse key response now observedAt →
        (step s op).1 = .correlated (some process) → ∃ query, s.pending.lookup key = some query ∧
          query.process = process ∧ now - query.createdAt < timeout := by
  obtain ⟨hops, hop, -⟩ := along_append.mp hnew
  rw [filterMap_append, filterMap_cons, hnow] at hclock
  have hrun := trace_clocked
    (fun (now : Nat) _ (s : DnsState) => Queued now s.pendingOrder s.pending ∧ s.transactionTimeout = timeout)
    (fun now => ⟨queued_empty now, rfl⟩) (fun t t' h s hle hinv => ⟨hinv.1.later hle, hinv.2⟩)
    (fun t h s a hinv ha hadm => ⟨(queued_step hinv.1 ha hadm).1, (queued_step hinv.1 ha hadm).2.1.trans hinv.2⟩)
    hclock hops
  generalize (trace step (new maxPending maxNames timeout maxTtl) ops).2 = s at hrun hop
  obtain ⟨hqueued, rfl⟩ := hrun
  obtain ⟨-, hfresh⟩ := queued_dropExpired s.transactionTimeout hqueued
  refine ⟨(queued_step hqueued (.inr hnow) hop).2.2 hnow htimeout, fun key query hl => (hfresh key query hl).2, ?_⟩
  rintro key response observedAt process rfl hp
  obtain ⟨query, hl, heq⟩ := correlated_some hp
  exact ⟨query, (hfresh key query hl).1, heq, (hfresh key query hl).2⟩

def questionOf (name : DnsName) : PendingQueryKey := ⟨1, .udp, .v4 ⟨[10, 96, 0, 10], rfl⟩, 7, name, .a⟩
def firstQuestion : PendingQueryKey := questionOf ⟨"a.example", by decide +kernel⟩
def secondQuestion : PendingQueryKey := questionOf ⟨"b.example", by decide +kernel⟩
def thirdQuestion : PendingQueryKey := questionOf ⟨"c.example", by decide +kernel⟩
def fourthQuestion : PendingQueryKey := questionOf ⟨"d.example", by decide +kernel⟩
def resolver : ProcessIdentity := ⟨1, 10, 10, "resolver"⟩

/-- A response without addresses. -/
def responseTo (key : PendingQueryKey) : NetworkDnsResponse where
  transactionId := key.transactionId
  direction := .ingress
  transport := key.transport
  resolverAddress := key.resolverAddress
  name := key.name
  queryType := key.queryType
  responseCode := .noError
  truncated := false
  answers := []
  cnameChain := []
  effectiveTtlSeconds := none

theorem pending_queries_expire_second :
    let s := (trace step (new 8 8 10 1)
      [.registerQuery firstQuestion resolver 0, .registerQuery secondQuestion resolver 1]).2
    Fresh 10 (step s (.correlateResponse secondQuestion (responseTo secondQuestion) 10 0)).2 :=
  (pending_queries_expire 8 8 1 (show 0 < 10 by decide) (by decide) rfl (by decide +kernel)).1

/-- The first question is asked again and has its old place at the front of the queue: the second, which
waited for the timeout, is answered, or takes the room of another. -/
theorem asked_again_blocks_queue :
    let ops : List Op := [.registerQuery firstQuestion resolver 0, .registerQuery secondQuestion resolver 1,
      .registerQuery firstQuestion resolver 5, .registerQuery thirdQuestion resolver 6]
    let s := (trace step (new 3 8 10 1) ops).2
    (ops.filterMap Op.instant ++ [11]).Pairwise (· ≤ ·) ∧
      (step s (.correlateResponse secondQuestion (responseTo secondQuestion) 11 0)).1 = .correlated (some resolver) ∧
      (step s (.registerQuery fourthQuestion resolver 11)).1 = .registered false ∧ ¬ Fresh 11 (s.expirePending 11) := by
  refine ⟨by decide, by decide +kernel, by decide +kernel, fun h => ?_⟩
  have hage := h secondQuestion ⟨1, resolver⟩ (by decide +kernel)
  exact absurd hage (by decide)

/-! ## Names -/

/-- What an answer to a question for a name does to the names of an address. -/
def bindAnswer (maxNames maxTtl : Nat) (address : IpAddr) (name : DnsName) (observedAt : DateTime)
    (names : List CachedName) (answer : DnsAddressAnswer) : List CachedName :=
  if answer.address = address then
    let kept := names.filter fun cached => cached.expiresAt > observedAt ∧ cached.name ≠ name
    let ttl := min (answer.ttlSeconds.toNat * DateTime.nanosPerSecond) maxTtl
    if kept.length < maxNames then kept ++ [{ name, observedAt, expiresAt := observedAt + ttl }] else kept
  else names

/-- The responses that were correlated for a control group. -/
def correlatedFor (cgroupId : UInt64) : Op × Answer → Option (DnsName × DateTime × List DnsAddressAnswer)
  | (.correlateResponse key response _ observedAt, .correlated (some _)) =>
    if key.cgroupId = cgroupId then some (key.name, observedAt, response.answers) else none
  | _ => none

def bindResponse (maxNames maxTtl : Nat) (address : IpAddr) (names : List CachedName) :
    DnsName × DateTime × List DnsAddressAnswer → List CachedName
  | (name, observedAt, answers) => answers.foldl (bindAnswer maxNames maxTtl address name observedAt) names

/-- The names of an address, from the responses that were correlated for its control group alone. -/
def bound (maxNames maxTtl : Nat) (cgroupId : UInt64) (address : IpAddr) (history : List (Op × Answer)) :
    List CachedName :=
  (history.filterMap (correlatedFor cgroupId)).foldl (bindResponse maxNames maxTtl address) []

def live (time : DateTime) (names : List CachedName) : List CachedName :=
  names.filter fun cached => cached.expiresAt > time

/-- The names that have not expired, as a lookup reads and leaves them. -/
def liveSorted (time : DateTime) (names : List CachedName) : List CachedName :=
  dedupByName ((live time names).mergeSort fun a b => a.name.value ≤ b.name.value)

/-- The stored names and the bound ones agree on what has not expired. -/
structure Matches (maxNames : Nat) (time : DateTime) (stored names : List CachedName) : Prop where
  perm : (live time stored).Perm (live time names)
  nodup : (stored.map CachedName.name).Nodup
  room : stored.length ≤ maxNames
  past : ∀ cached ∈ stored, cached.observedAt ≤ time

variable {time : DateTime} {stored names : List CachedName}

theorem live_live {time' : DateTime} (hle : time ≤ time') : live time' (live time names) = live time' names := by
  rw [live, live, filter_filter]
  refine filter_congr fun cached _ => ?_
  have himp : cached.expiresAt > time' → cached.expiresAt > time := fun hlt => lt_of_le_of_lt hle hlt
  simpa using himp

theorem Matches.later (h : Matches maxNames time stored names) {time' : DateTime} (hle : time ≤ time') :
    Matches maxNames time' stored names := by
  refine ⟨?_, h.nodup, h.room, fun cached hmem => (h.past cached hmem).trans hle⟩
  have hperm := h.perm.filter fun cached => cached.expiresAt > time'
  change (live time' _).Perm (live time' _) at hperm
  rwa [live_live hle, live_live hle] at hperm

variable {answer : DnsAddressAnswer}

theorem matches_bindAnswer (h : Matches maxNames time stored names) {name : DnsName} :
    Matches maxNames time (bindAnswer maxNames maxTtl address name time stored answer)
      (bindAnswer maxNames maxTtl address name time names answer) := by
  have hfilter : ∀ l : List CachedName, (l.filter fun cached => cached.expiresAt > time ∧ cached.name ≠ name) =
      (live time l).filter fun cached => cached.name ≠ name := by
    intro l
    rw [live, filter_filter]
    exact filter_congr fun cached _ => by simp [and_comm]
  have hkept := h.perm.filter fun cached => cached.name ≠ name
  have hsub : ((live time stored).filter fun cached => cached.name ≠ name).Sublist stored :=
    filter_sublist.trans filter_sublist
  have hnodup := h.nodup.sublist (hsub.map _)
  simp only [bindAnswer, hfilter, hkept.length_eq]
  split
  · split
    next hroom =>
      refine ⟨?_, ?_, ?_, ?_⟩
      · simp only [live, filter_append]
        exact (hkept.filter _).append (.refl _)
      · exact Table.nodup_map_append_singleton hnodup fun cached hmem => of_decide_eq_true (mem_filter.mp hmem).2
      · rw [length_append, hkept.length_eq]
        exact hroom
      intro cached hmem
      obtain hmem | rfl := Table.mem_append_singleton.mp hmem
      · exact h.past cached (hsub.subset hmem)
      · exact le_refl time
    · exact ⟨hkept.filter _, hnodup, hsub.length_le.trans h.room, fun cached hmem => h.past cached (hsub.subset hmem)⟩
  · exact h

variable {answers : List DnsAddressAnswer}

theorem matches_bindAnswers (h : Matches maxNames time stored names) {name : DnsName} :
    Matches maxNames time (answers.foldl (bindAnswer maxNames maxTtl address name time) stored)
      (answers.foldl (bindAnswer maxNames maxTtl address name time) names) := by
  induction answers generalizing stored names with
  | nil => exact h
  | cons _ _ ih => exact ih (matches_bindAnswer h)

theorem name_ext {a b : DnsName} (h : a.value = b.value) : a = b := by
  cases a
  cases h
  rfl

theorem dedupAfter_of_lt {last : CachedName} {l : List CachedName}
    (h : (last :: l).Pairwise fun a b => a.name.value < b.name.value) : dedupAfter last l = l := by
  induction l generalizing last with
  | nil => rfl
  | cons cached _ ih =>
    obtain ⟨hlt, hrest⟩ := pairwise_cons.mp h
    have hne : cached.name ≠ last.name := fun heq => (hlt cached mem_cons_self).ne (by rw [heq])
    rw [dedupAfter, if_neg hne, ih hrest]

theorem liveSorted_spec (h : (stored.map CachedName.name).Nodup) : (liveSorted time stored).Perm (live time stored) ∧
      (liveSorted time stored).Pairwise fun a b => a.name.value < b.name.value := by
  have hperm := mergeSort_perm (live time stored) fun a b => a.name.value ≤ b.name.value
  have hsorted : ((live time stored).mergeSort fun a b => a.name.value ≤ b.name.value).Pairwise fun a b =>
      decide (a.name.value ≤ b.name.value) := by
    refine pairwise_mergeSort (fun a b c hab hbc => ?_) (fun a b => ?_) _
    · exact decide_eq_true ((of_decide_eq_true hab).trans (of_decide_eq_true hbc))
    · simpa using le_total a.name.value b.name.value
  have hnodup := (hperm.map CachedName.name).nodup_iff.mpr (h.sublist (filter_sublist.map _))
  rw [liveSorted]
  generalize (live time stored).mergeSort (fun a b => a.name.value ≤ b.name.value) = sorted at hperm hsorted hnodup
  have hlt : sorted.Pairwise fun a b => a.name.value < b.name.value := by
    refine (hsorted.and (pairwise_map.mp hnodup)).imp fun {a b} hab => ?_
    exact lt_of_le_of_ne (of_decide_eq_true hab.1) fun heq => hab.2 (name_ext heq)
  have hdedup : dedupByName sorted = sorted := by
    cases sorted with
    | nil => rfl
    | cons => rw [dedupByName, dedupAfter_of_lt hlt]
  rw [hdedup]
  exact ⟨hperm, hlt⟩

theorem matches_liveSorted (h : Matches maxNames time stored names) : Matches maxNames time (liveSorted time stored) names := by
  obtain ⟨hperm, -⟩ := liveSorted_spec h.nodup
  have hsub : (live time stored).Sublist stored := filter_sublist
  have hlive : (live time (liveSorted time stored)).Perm (live time (live time stored)) := hperm.filter _
  rw [live_live (le_refl time)] at hlive
  refine ⟨hlive.trans h.perm, ?_, ?_, fun cached hmem => h.past cached (hsub.subset (hperm.mem_iff.mp hmem))⟩
  · exact (hperm.map _).nodup_iff.mpr (h.nodup.sublist (hsub.map _))
  · exact hperm.length_eq.trans_le (hsub.length_le.trans h.room)

/-! ### The store's names -/

variable {observedAt : DateTime}

theorem namesOf_cacheAnswers : (answers.foldl (cacheAnswer key observedAt) s).namesOf cgroupId address =
      if key.cgroupId = cgroupId then
        answers.foldl (bindAnswer s.maxNamesPerAddress s.maxTtl address key.name observedAt) (s.namesOf cgroupId address)
      else s.namesOf cgroupId address := by
  induction answers generalizing s with
  | nil => simp
  | cons answer _ ih =>
    rw [foldl_cons, ih, namesOf]
    simp only [namesOf, cacheAnswer, lookup_insert_eq, Prod.mk.injEq, foldl_cons, bindAnswer]
    by_cases hc : key.cgroupId = cgroupId
    · by_cases ha : answer.address = address
      · subst hc ha
        simp
      · simp [hc, ha, Ne.symm ha]
    · simp [hc, Ne.symm hc]

theorem namesOf_afterContext {cgroupId' : UInt64} {address' : IpAddr} :
    (s.afterContext cgroupId address time).namesOf cgroupId' address' =
      if (cgroupId', address') = (cgroupId, address) then liveSorted time (s.namesOf cgroupId address)
      else s.namesOf cgroupId' address' := by
  unfold afterContext
  split
  next hnone =>
    split
    next heq =>
      cases heq
      simp [namesOf, hnone, liveSorted, live, dedupByName]
    · rfl
  next values hvalues =>
    have hstored : s.namesOf cgroupId address = values := by rw [namesOf, hvalues, Option.getD_some]
    rw [hstored, liveSorted, live]
    dsimp only
    split
    next hempty =>
      rw [List.isEmpty_iff] at hempty
      rw [hempty, namesOf, lookup_erase_eq]
      split
      · simp [dedupByName]
      · rfl
    · rw [namesOf, lookup_insert_eq]
      split <;> rfl

/-- The store keeps for every address what the responses of its control group bind. -/
structure Bound (maxNames maxTtl : Nat) (time : DateTime) (history : List (Op × Answer)) (s : DnsState) : Prop where
  maxNames_eq : s.maxNamesPerAddress = maxNames
  maxTtl_eq : s.maxTtl = maxTtl
  names : ∀ cgroupId address,
    Matches maxNames time (s.namesOf cgroupId address) (bound maxNames maxTtl cgroupId address history)

variable {history : List (Op × Answer)}

theorem bound_concat {entry : Op × Answer} :
    bound maxNames maxTtl cgroupId address (history ++ [entry]) = ((correlatedFor cgroupId entry).toList).foldl
      (bindResponse maxNames maxTtl address) (bound maxNames maxTtl cgroupId address history) := by
  rw [bound, filterMap_append, foldl_append, bound]
  cases hc : correlatedFor cgroupId entry <;> simp [hc]

theorem bound_step (h : Bound maxNames maxTtl time history s) (htime : op.time = none ∨ op.time = some time) :
    Bound maxNames maxTtl time (history ++ [(op, (step s op).1)]) (step s op).2 := by
  obtain ⟨rfl, rfl, hnames⟩ := h
  cases op with
  | registerQuery key process now =>
    have hsame : (s.registerQuery key process now).2.addresses = s.addresses ∧
        (s.registerQuery key process now).2.maxNamesPerAddress = s.maxNamesPerAddress ∧
        (s.registerQuery key process now).2.maxTtl = s.maxTtl := by
      rw [registerQuery]
      split <;> exact ⟨rfl, rfl, rfl⟩
    refine ⟨hsame.2.1, hsame.2.2, fun cgroupId address => ?_⟩
    rw [bound_concat, step, namesOf, Prod.map, id, hsame.1]
    exact hnames cgroupId address
  | contextFor cgroupId' address' now =>
    obtain rfl : now = time := by simpa [Op.time] using htime
    obtain ⟨_, hframe⟩ := afterContext_frame
    refine ⟨by rw [step, hframe], by rw [step, hframe], fun cgroupId address => ?_⟩
    rw [bound_concat, step, namesOf_afterContext]
    split
    next heq =>
      cases heq
      exact matches_liveSorted (hnames cgroupId' address')
    · exact hnames cgroupId address
  | correlateResponse key response now observedAt =>
    obtain rfl : observedAt = time := by simpa [Op.time] using htime
    simp only [step, correlateResponse]
    split
    · exact ⟨rfl, rfl, fun cgroupId address => by rw [bound_concat]; exact hnames cgroupId address⟩
    next =>
      obtain ⟨_, hframe⟩ := cacheAnswers_frame key observedAt response.answers
        { s.expirePending now with pending := (s.expirePending now).pending.erase key }
      refine ⟨by rw [Prod.map, hframe]; rfl, by rw [Prod.map, hframe]; rfl, fun cgroupId address => ?_⟩
      rw [bound_concat, Prod.map, id, namesOf_cacheAnswers]
      simp only [correlatedFor]
      split
      · exact matches_bindAnswers (hnames cgroupId address)
      · exact hnames cgroupId address

/-- The context of a connection is read from the names that the responses of its control group bind. -/
theorem contextFor_eq (h : Matches maxNames time (s.namesOf cgroupId address) names) (hmax : maxNames ≤ maxDnsContextNames) :
    (live time names = [] → contextFor s.namesOf cgroupId address time = none) ∧
    (live time names ≠ [] → ∃ context, contextFor s.namesOf cgroupId address time = some context ∧
      context.names.Perm ((live time names).map CachedName.name) ∧
      context.names.Pairwise (fun a b => a.value < b.value) ∧ context.ambiguous = decide (1 < context.names.length) ∧
      context.validate = .ok ()) := by
  obtain ⟨hperm, hlt⟩ := liveSorted_spec h.nodup
  have hlength := hperm.length_eq.trans_le (filter_sublist.length_le.trans (h.room.trans hmax))
  have hvalues : ∀ cached ∈ liveSorted time (s.namesOf cgroupId address),
      cached.observedAt ≤ time ∧ time < cached.expiresAt := by
    intro cached hmem
    obtain ⟨hstored, hlive⟩ := mem_filter.mp (hperm.mem_iff.mp hmem)
    exact ⟨h.past cached hstored, of_decide_eq_true hlive⟩
  have hall := hperm.trans h.perm
  have hcontext : ∀ values, liveSorted time (s.namesOf cgroupId address) = values →
      contextFor s.namesOf cgroupId address time = ((values.map CachedName.observedAt).max?.bind fun observedAt =>
        (values.map CachedName.expiresAt).min?.bind fun expiresAt =>
          (DnsContext.new (values.map CachedName.name) observedAt expiresAt).toOption) := by
    rintro _ rfl
    rfl
  cases hl : liveSorted time (s.namesOf cgroupId address) with
  | nil =>
    rw [hl] at hall
    exact ⟨fun _ => hcontext [] hl, fun hne => absurd hall.symm.eq_nil hne⟩
  | cons first rest =>
    rw [hl] at hall hlt hlength hvalues
    obtain ⟨observedAt, hobserved⟩ : ∃ t, ((first :: rest).map CachedName.observedAt).max? = some t := ⟨_, rfl⟩
    obtain ⟨expiresAt, hexpires⟩ : ∃ t, ((first :: rest).map CachedName.expiresAt).min? = some t := ⟨_, rfl⟩
    obtain ⟨newest, hnewest, rfl⟩ := mem_map.mp (max?_mem hobserved)
    obtain ⟨oldest, holdest, rfl⟩ := mem_map.mp (min?_mem hexpires)
    have hbefore : newest.observedAt < oldest.expiresAt := lt_of_le_of_lt (hvalues _ hnewest).1 (hvalues _ holdest).2
    have hnew := DnsContext.new_eq_ok.mpr ⟨⟨cons_ne_nil first.name (rest.map CachedName.name),
      by simpa using hlength, hbefore⟩, rfl⟩
    have hsorted : ((first :: rest).map CachedName.name).Pairwise fun a b => a.value < b.value := pairwise_map.mpr hlt
    refine ⟨fun hnil => by simp [hnil] at hall, fun _ => ⟨_, ?_, hall.map _, hsorted, rfl, DnsContext.validate_new hnew⟩⟩
    rw [hcontext _ hl, hobserved, hexpires, Option.bind_some, Option.bind_some]
    exact Outcome.toOption_eq_some.mpr hnew

/-- Whatever is asked, answered or looked up for other control groups and addresses, the context of a connection
at a time is that of the names that the responses of its control group bind. -/
theorem dns_context_exact (maxPending timeout maxTtl : Nat) (hmax : maxNames ≤ maxDnsContextNames)
    (hclock : (ops.filterMap Op.time ++ [time]).Pairwise (· ≤ ·)) (cgroupId : UInt64) (address : IpAddr) :
    let s := trace step (new maxPending maxNames timeout maxTtl) ops
    let names := live time (bound maxNames maxTtl cgroupId address s.1)
    (names = [] → (step s.2 (.contextFor cgroupId address time)).1 = .context none) ∧
    (names ≠ [] → ∃ context, (step s.2 (.contextFor cgroupId address time)).1 = .context (some context) ∧
      context.names.Perm (names.map CachedName.name) ∧ context.names.Pairwise (fun a b => a.value < b.value) ∧
      context.ambiguous = decide (1 < context.names.length) ∧ context.validate = .ok ()) := by
  have hbound := trace_clocked (Bound maxNames maxTtl) (s := new maxPending maxNames timeout maxTtl)
    (fun _ => ⟨rfl, rfl, fun cgroupId address => ⟨.refl _, nodup_nil, Nat.zero_le _, nofun⟩⟩)
    (fun t t' h s hle hinv => ⟨hinv.1, hinv.2, fun cgroupId address => (hinv.3 cgroupId address).later hle⟩)
    (fun t h s a hinv ha _ => bound_step hinv ha) hclock (along_of_always (fun _ _ => trivial) _)
  obtain ⟨hnone, hsome⟩ := contextFor_eq (hbound.names cgroupId address) hmax
  refine ⟨fun h => congrArg Answer.context (hnone h), fun h => ?_⟩
  obtain ⟨context, heq, hcontext⟩ := hsome h
  exact ⟨context, congrArg Answer.context heq, hcontext⟩

def someAddress : IpAddr := .v4 ⟨[192, 0, 2, 1], rfl⟩

/-- The first question is asked, and answered with an address. -/
def answeredOps : List Op :=
  [.registerQuery firstQuestion resolver 0, .correlateResponse firstQuestion
    { responseTo firstQuestion with answers := [⟨firstQuestion.name, someAddress, 60⟩] } 1 0]

theorem dns_context_exact_answered :
    ∃ context, (step (trace step (new 8 8 10 (10 ^ 9)) answeredOps).2 (.contextFor 1 someAddress 5)).1 =
      .context (some context) ∧ context.names = [firstQuestion.name] ∧ context.validate = .ok () := by
  have hclock : (answeredOps.filterMap Op.time ++ [5]).Pairwise (· ≤ ·) := by decide
  obtain ⟨-, hsome⟩ := dns_context_exact 8 10 (10 ^ 9) (le_refl 8) hclock 1 someAddress
  obtain ⟨context, hcontext, hperm, -, -, hvalid⟩ := hsome (by decide +kernel)
  exact ⟨context, hcontext, perm_singleton.mp hperm, hvalid⟩

/-! ## Memory -/

/-- The entries of all collections. -/
def held (s : DnsState) : Nat := size s.pending + s.pendingOrder.length + size s.addresses

/-- Without a timeout no question that is queued is left. -/
theorem dropExpired_zero : (dropExpired 0 now order pending).1 = [] ∧
    ∀ key ∈ (dropExpired 0 now order pending).2, key ∈ pending ∧ key ∉ order := by
  induction order generalizing pending with
  | nil => exact ⟨rfl, fun key hkey => ⟨hkey, not_mem_nil⟩⟩
  | cons first _ ih =>
    rw [dropExpired]
    split
    next hgone =>
      obtain ⟨hnil, hleft⟩ := @ih pending
      refine ⟨hnil, fun key hkey => ⟨(hleft key hkey).1, not_mem_cons_of_ne_of_not_mem ?_ (hleft key hkey).2⟩⟩
      rintro rfl
      exact AList.lookup_eq_none.mp hgone (hleft key hkey).1
    · rw [if_neg (Nat.not_lt_zero _)]
      obtain ⟨hnil, hleft⟩ := @ih (pending.erase first)
      refine ⟨hnil, fun key hkey => ?_⟩
      obtain ⟨hne, hin⟩ := AList.mem_erase.mp (hleft key hkey).1
      exact ⟨hin, not_mem_cons_of_ne_of_not_mem hne (hleft key hkey).2⟩

/-- At most one question is queued, none lives to be answered, and so no address has a name. -/
structure Narrow (s : DnsState) : Prop where
  limits : s.maxPending = 0 ∧ s.pendingOrder = [] ∨ s.transactionTimeout = 0
  queued : ∀ key ∈ s.pending, key ∈ s.pendingOrder
  order : s.pendingOrder.length ≤ 1
  addresses : s.addresses = ∅

theorem narrow_new (hlimits : maxPending = 0 ∨ timeout = 0) : Narrow (new maxPending maxNames timeout maxTtl) where
  limits := hlimits.imp_left fun hroom => ⟨hroom, rfl⟩
  queued key hkey := absurd hkey (AList.notMem_empty key)
  order := Nat.zero_le 1
  addresses := rfl

theorem Narrow.expired (h : Narrow s) :
    (s.expirePending now).pendingOrder = [] ∧ ∀ key, key ∉ (s.expirePending now).pending := by
  unfold DnsState.expirePending
  rcases h.limits with ⟨-, hnil⟩ | htimeout
  · simp only [hnil, dropExpired, true_and]
    exact fun key hkey => absurd (hnil ▸ h.queued key hkey) not_mem_nil
  · rw [htimeout]
    obtain ⟨hnil, hleft⟩ := @dropExpired_zero now s.pendingOrder s.pending
    exact ⟨hnil, fun key hkey => (hleft key hkey).2 (h.queued key (hleft key hkey).1)⟩

theorem Narrow.expirePending (h : Narrow s) : Narrow (s.expirePending now) where
  limits := h.limits.imp_left fun hroom => ⟨hroom.1, h.expired.1⟩
  queued key hkey := absurd hkey (h.expired.2 key)
  order := by
    rw [h.expired.1]
    exact Nat.zero_le 1
  addresses := h.addresses

theorem Narrow.step (h : Narrow s) : Narrow (step s op).2 := by
  cases op with
  | contextFor =>
    simp only [DnsTransactions.step, afterContext, h.addresses, AList.lookup_empty]
    exact h
  | registerQuery key process now =>
    have hexpired : Narrow (s.expirePending now) := h.expirePending
    simp only [DnsTransactions.step, registerQuery]
    split
    · exact hexpired
    next hfree =>
      have htimeout : (s.expirePending now).transactionTimeout = 0 :=
        hexpired.limits.resolve_left fun hroom => hfree (hroom.1 ▸ Nat.zero_le _)
      have horder : (s.expirePending now).pendingOrder ++ [key] = [key] := by rw [h.expired.1, nil_append]
      refine { hexpired with limits := .inr htimeout, queued := fun other hother => ?_, order := ?_ }
      · show other ∈ (s.expirePending now).pendingOrder ++ [key]
        rw [horder]
        exact mem_singleton.mpr (((AList.mem_insert _).mp hother).resolve_right (h.expired.2 other))
      · exact (congrArg length horder).le
  | correlateResponse key response now observedAt =>
    have hnone : (s.expirePending now).pending.lookup key = none := AList.lookup_eq_none.mpr (h.expired.2 key)
    simp only [DnsTransactions.step, correlateResponse, hnone]
    exact h.expirePending

theorem Narrow.held_le (h : Narrow s) : held s ≤ 2 := by
  have hpending : size s.pending ≤ s.pendingOrder.toFinset.card :=
    size_le_card fun key hkey => mem_toFinset.mpr (h.queued key hkey)
  have horder := h.order
  have hcard := s.pendingOrder.toFinset_card_le
  have hnone : size s.addresses = 0 := by rw [h.addresses]; rfl
  unfold held
  omega

theorem finite_addresses : Finite (UInt64 × IpAddr) := by
  have hword : Finite UInt64 := .of_injective UInt64.toFin fun _ _ => UInt64.toFin_inj.mp
  have hbyte : Finite UInt8 := .of_injective UInt8.toFin fun _ _ => UInt8.toFin_inj.mp
  have haddress : Finite IpAddr := by
    refine .of_surjective (Sum.elim IpAddr.v4 IpAddr.v6) fun address => ?_
    cases address with
    | v4 octets => exact ⟨.inl octets, rfl⟩
    | v6 octets => exact ⟨.inr octets, rfl⟩
  infer_instance

/-- A question that is asked again at the same instant is queued again. -/
theorem trace_asked_again (hroom : 1 < maxPending) (htimeout : 0 < timeout) (n : Nat) :
    (trace step (new maxPending maxNames timeout maxTtl)
      (replicate (n + 1) (.registerQuery firstQuestion resolver 0))).2 = { new maxPending maxNames timeout maxTtl with
        pending := (∅ : Map PendingQueryKey PendingQuery).insert firstQuestion ⟨0, resolver⟩
        pendingOrder := replicate (n + 1) firstQuestion } := by
  induction n with
  | zero =>
    have hfree : ¬ maxPending ≤ 0 := by omega
    simp [trace, step, registerQuery, expirePending, dropExpired, new, hfree, size]
  | succ n ih =>
    have hkept : ∀ pending : Map PendingQueryKey PendingQuery,
        dropExpired timeout 0 (replicate (n + 1) firstQuestion) (pending.insert firstQuestion ⟨0, resolver⟩) =
          (replicate (n + 1) firstQuestion, pending.insert firstQuestion ⟨0, resolver⟩) := by
      intro pending
      rw [replicate_succ, dropExpired, AList.lookup_insert]
      exact if_pos htimeout
    have hfree : ¬ size ((∅ : Map PendingQueryKey PendingQuery).insert firstQuestion ⟨0, resolver⟩) ≥ maxPending := by
      show ¬ maxPending ≤ 1
      omega
    rw [replicate_succ', trace_append, ih]
    simp only [trace, step, registerQuery, expirePending, new, hkept]
    rw [if_neg hfree, AList.insert_insert, ← replicate_succ']
    rfl

/-- No number bounds what a store with these limits holds after a run. -/
def Unbounded (maxPending maxNames timeout maxTtl : Nat) : Prop :=
  ∀ bound, ∃ ops, bound < held (trace step (new maxPending maxNames timeout maxTtl) ops).2

theorem unbounded_of_waiting (hroom : 1 < maxPending) (htimeout : 0 < timeout) :
    Unbounded maxPending maxNames timeout maxTtl := by
  intro bound
  refine ⟨replicate (bound + 1) (.registerQuery firstQuestion resolver 0), ?_⟩
  rw [trace_asked_again hroom htimeout, held, length_replicate]
  omega

theorem dropExpired_empty : dropExpired timeout now order ∅ = ([], ∅) := by
  induction order with
  | nil => rfl
  | cons _ _ ih => exact ih

def askedBy (cgroupId : UInt64) : PendingQueryKey := { firstQuestion with cgroupId }

/-- A control group asks for a name, and the answer is the address. -/
def answering (pair : UInt64 × IpAddr) : List Op :=
  [.registerQuery (askedBy pair.1) resolver 0, .correlateResponse (askedBy pair.1)
    { responseTo (askedBy pair.1) with answers := [⟨firstQuestion.name, pair.2, 60⟩] } 0 0]

/-- The answer takes the only question, and leaves an entry for the address. -/
theorem trace_answering (hroom : 0 < s.maxPending) (htimeout : 0 < s.transactionTimeout) (hidle : s.pending = ∅)
    (pair : UInt64 × IpAddr) : (trace step s (answering pair)).2 =
      { cacheAnswer (askedBy pair.1) 0 s ⟨firstQuestion.name, pair.2, 60⟩ with pendingOrder := [askedBy pair.1] } := by
  let waiting : Map PendingQueryKey PendingQuery := AList.insert (askedBy pair.1) ⟨0, resolver⟩ ∅
  have hasked : (s.registerQuery (askedBy pair.1) resolver 0).2 =
      { s with pending := waiting, pendingOrder := [askedBy pair.1] } := by
    rw [registerQuery, expirePending, hidle, dropExpired_empty]
    exact congrArg Prod.snd (if_neg (Nat.not_le.mpr hroom))
  have hkept : dropExpired s.transactionTimeout 0 [askedBy pair.1] waiting = ([askedBy pair.1], waiting) := by
    rw [dropExpired, AList.lookup_insert]
    exact if_pos htimeout
  have herased : waiting.erase (askedBy pair.1) = s.pending := hidle ▸ AList.ext (kerase_cons_eq rfl)
  show ((s.registerQuery (askedBy pair.1) resolver 0).2.correlateResponse _ _ 0 0).2 = _
  rw [hasked, correlateResponse, expirePending, hkept]
  simp only [waiting, AList.lookup_insert, foldl_cons, foldl_nil, cacheAnswer]
  rw [herased]

theorem trace_answered (hroom : 0 < s.maxPending) (htimeout : 0 < s.transactionTimeout) (hidle : s.pending = ∅)
    (pairs : List (UInt64 × IpAddr)) :
    ∀ pair, pair ∈ s.addresses ∨ pair ∈ pairs → pair ∈ (trace step s (pairs.flatMap answering)).2.addresses := by
  induction pairs generalizing s with
  | nil => exact fun pair hpair => hpair.resolve_right not_mem_nil
  | cons first rest ih =>
    intro pair hpair
    rw [flatMap_cons, trace_append, trace_answering hroom htimeout hidle first]
    refine @ih { cacheAnswer _ _ s _ with pendingOrder := _ } hroom htimeout hidle pair ?_
    rcases hpair with hold | hnew
    · exact .inl ((AList.mem_insert _).mpr (.inr hold))
    · exact (mem_cons.mp hnew).imp (fun heq => (AList.mem_insert _).mpr (.inl heq)) id

/-- As soon as one question can wait for its answer, an entry stays for every address of every control group that
was ever in an answer: nothing smaller than the number of these bounds the store. -/
theorem dns_memory_bounded_iff (maxPending maxNames timeout maxTtl : Nat) :
    (∃ bound < Nat.card (UInt64 × IpAddr),
        ∀ ops, held (trace step (new maxPending maxNames timeout maxTtl) ops).2 ≤ bound) ↔
      maxPending = 0 ∨ timeout = 0 := by
  have hfinite := finite_addresses
  constructor
  · rintro ⟨bound, hlt, hbound⟩
    by_contra hmore
    have hall := Fintype.ofFinite (UInt64 × IpAddr)
    have hkept := trace_answered (s := new maxPending maxNames timeout maxTtl) (show 0 < maxPending by omega)
      (show 0 < timeout by omega) rfl Finset.univ.toList
    have hheld := hbound (Finset.univ.toList.flatMap answering)
    generalize (trace step (new maxPending maxNames timeout maxTtl) _).2 = s at hkept hheld
    have hlength : Nat.card (UInt64 × IpAddr) ≤ size s.addresses := by
      have hsub : Finset.univ.toList ⊆ s.addresses.keys := fun pair hpair => hkept pair (.inr hpair)
      have hle := (subperm_of_subset (Finset.nodup_toList _) hsub).length_le
      rwa [Finset.length_toList, Finset.card_univ, ← Nat.card_eq_fintype_card, AList.keys, keys, length_map] at hle
    unfold held at hheld
    omega
  · intro hlimits
    have hcard : 2 < Nat.card (UInt64 × IpAddr) := by
      have hthree := Nat.card_le_card_of_injective (fun n : Fin 3 => (UInt64.ofNat n, someAddress)) (by decide)
      rwa [Nat.card_fin] at hthree
    exact ⟨2, hcard, fun ops =>
      (trace_invariant step (fun _ => Narrow) (fun _ _ _ h => h.step) (narrow_new hlimits) ops).held_le⟩

/-- The limits that the agent runs with. -/
theorem agent_dns_unbounded : Unbounded 4096 maxDnsContextNames (5 * 10 ^ 9) (86400 * 10 ^ 9) :=
  unbounded_of_waiting (by decide) (by decide)

end Okoscope.Agent.DnsTransactions
