import Okoscope.Agent.Emission

/-!
# Questions that wait for an answer, and the names of addresses

A question waits for a limited time for its answer, and the oldest are dropped
first. The addresses of an answer keep the name that was asked for until the
answer expires.
-/
namespace Okoscope.Agent.DnsTransactions

open Lib Lib.FiniteMap EventModel
open Emission (CachedName dedupByName)

structure PendingQueryKey where
  cgroupId : UInt64
  transport : DnsTransport
  resolverAddress : IpAddr
  transactionId : UInt16
  name : DnsName
  queryType : DnsQueryType
  deriving DecidableEq

structure PendingQuery where
  createdAt : Nat
  process : ProcessIdentity
  deriving DecidableEq

structure DnsState where
  pending : Map PendingQueryKey PendingQuery
  pendingOrder : List PendingQueryKey
  addresses : Map (UInt64 × IpAddr) (List CachedName)
  maxPending : Nat
  maxNamesPerAddress : Nat
  transactionTimeout : Nat
  maxTtl : Nat

variable {key : PendingQueryKey}

namespace DnsState

def new (maxPending maxNamesPerAddress transactionTimeout maxTtl : Nat) : DnsState where
  pending := ∅
  pendingOrder := []
  addresses := ∅
  maxPending
  maxNamesPerAddress
  transactionTimeout
  maxTtl

/-- Drops questions from the front of the queue until one has time left; one that was answered
is only taken out of the queue. -/
def dropExpired (timeout now : Nat) : List PendingQueryKey → Map PendingQueryKey PendingQuery →
    List PendingQueryKey × Map PendingQueryKey PendingQuery
  | [], pending => ([], pending)
  | key :: order, pending =>
    match pending.lookup key with
    | none => dropExpired timeout now order pending
    | some query =>
      if now - query.createdAt < timeout then (key :: order, pending)
      else dropExpired timeout now order (pending.erase key)

def expirePending (s : DnsState) (now : Nat) : DnsState :=
  let (pendingOrder, pending) := dropExpired s.transactionTimeout now s.pendingOrder s.pending
  { s with pending, pendingOrder }

def registerQuery (s : DnsState) (key : PendingQueryKey) (process : ProcessIdentity) (now : Nat) : Bool × DnsState :=
  let s := s.expirePending now
  if size s.pending ≥ s.maxPending then (false, s)
  else (true, { s with
    pending := s.pending.insert key { createdAt := now, process }
    pendingOrder := s.pendingOrder ++ [key] })

/-- The address of an answer keeps the name that was asked for, if it has room for it. -/
def cacheAnswer (key : PendingQueryKey) (observedAt : DateTime) (s : DnsState) (answer : DnsAddressAnswer) : DnsState :=
  let ttl := min (answer.ttlSeconds.toNat * DateTime.nanosPerSecond) s.maxTtl
  let entry := ((s.addresses.lookup (key.cgroupId, answer.address)).getD []).filter fun cached =>
    cached.expiresAt > observedAt ∧ cached.name ≠ key.name
  let entry := if entry.length < s.maxNamesPerAddress then
      entry ++ [{ name := key.name, observedAt, expiresAt := observedAt + ttl }]
    else entry
  { s with addresses := s.addresses.insert (key.cgroupId, answer.address) entry }

def correlateResponse (s : DnsState) (key : PendingQueryKey) (response : NetworkDnsResponse) (now : Nat)
    (observedAt : DateTime) : Option ProcessIdentity × DnsState :=
  let s := s.expirePending now
  match s.pending.lookup key with
  | none => (none, s)
  | some query =>
    (some query.process, response.answers.foldl (cacheAnswer key observedAt) { s with pending := s.pending.erase key })

/-- The names of an address, as the context of a connection reads them. -/
def namesOf (s : DnsState) : Emission.Addresses := fun cgroupId address => (s.addresses.lookup (cgroupId, address)).getD []

/-- What reading the context of a connection leaves: the names that have not expired, sorted. -/
def afterContext (s : DnsState) (cgroupId : UInt64) (address : IpAddr) (now : DateTime) : DnsState :=
  match s.addresses.lookup (cgroupId, address) with
  | none => s
  | some values =>
    let live := values.filter fun cached => cached.expiresAt > now
    let sorted := dedupByName (live.mergeSort fun a b => a.name.value ≤ b.name.value)
    if live.isEmpty then { s with addresses := s.addresses.erase (cgroupId, address) }
    else { s with addresses := s.addresses.insert (cgroupId, address) sorted }

/-! ## Questions that have time left -/

theorem lookup_dropExpired {timeout now : Nat} {query : PendingQuery} (hlive : now - query.createdAt < timeout)
    (order : List PendingQueryKey) {pending : Map PendingQueryKey PendingQuery} (h : pending.lookup key = some query) :
    (dropExpired timeout now order pending).2.lookup key = some query := by
  induction order generalizing pending with
  | nil => exact h
  | cons first _ ih =>
    rw [dropExpired]
    split
    · exact ih h
    next holdest =>
      split
      · exact h
      next hexpired =>
        -- a question that is dropped has no time left, so it is another one
        have hne : key ≠ first := by
          rintro rfl
          cases h.symm.trans holdest
          exact hexpired hlive
        apply ih
        rw [lookup_erase_eq, if_neg hne]
        exact h

/-- A question that was taken is answered by a response of the same instant. -/
theorem correlateResponse_registerQuery {s t : DnsState} {process : ProcessIdentity} {now : Nat}
    (htimeout : 0 < s.transactionTimeout) (h : s.registerQuery key process now = (true, t))
    (response : NetworkDnsResponse) (observedAt : DateTime) :
    (t.correlateResponse key response now observedAt).1 = some process := by
  rw [registerQuery] at h
  split at h
  · cases h
  cases h
  have hlookup : ((s.expirePending now).pending.insert key ⟨now, process⟩).lookup key = some ⟨now, process⟩ := by
    rw [lookup_insert_eq, if_pos rfl]
  have hlive : now - (⟨now, process⟩ : PendingQuery).createdAt < s.transactionTimeout := by
    rw [Nat.sub_self]
    exact htimeout
  have hkept := lookup_dropExpired hlive ((s.expirePending now).pendingOrder ++ [key]) hlookup
  simp only [correlateResponse, expirePending] at hkept ⊢
  rw [hkept]

end DnsState
end Okoscope.Agent.DnsTransactions
