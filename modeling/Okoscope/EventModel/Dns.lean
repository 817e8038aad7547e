import Okoscope.EventModel.Network

/-!
# DNS activity and the context it gives to connections

Names are canonical: lower-case ASCII labels without a trailing dot. A context
attaches the recently resolved names of an address to a connection attempt.
-/
namespace Okoscope.EventModel

open Lib Lib.Outcome

def maxDnsNameLen : Nat := 253
def maxDnsContextNames : Nat := 8
def maxDnsAnswers : Nat := 16
def maxDnsCnameChain : Nat := 8
def maxDnsTtlSeconds : UInt32 := 86400

inductive DnsValidationError where
  | invalidName
  | tooManyValues
  | invalidTtl
  | invalidContext
  deriving DecidableEq, Repr

def validDnsLabel (label : List Char) : Bool :=
  label ≠ [] && label.length ≤ 63 && label.all (fun c => Text.isAsciiAlphanumeric c || c = '-') &&
    label.head? ≠ some '-' && label.getLast? ≠ some '-'

def validDnsName (value : String) : Bool :=
  !(value = "" || maxDnsNameLen < Text.len value || value.toList.getLast? = some '.') &&
    !value.toList.any (fun c => Text.isAsciiUppercase c || !Text.isAscii c) &&
    (value.toList.splitOn '.').all validDnsLabel

/-- A canonical DNS name. -/
structure DnsName where
  value : String
  valid : validDnsName value
  deriving DecidableEq

def DnsName.new (value : String) : Except DnsValidationError DnsName :=
  if h : validDnsName value then .ok ⟨value, h⟩ else .error .invalidName

/-- A name is in the form that the constructor gives it. -/
@[simp] theorem DnsName.new_value (n : DnsName) : DnsName.new n.value = .ok n := by
  simp only [new, n.valid, dif_pos]

inductive DnsQueryType where
  | a
  | aaaa
  deriving DecidableEq, Repr

inductive DnsTransport where
  | udp
  | tcp
  deriving DecidableEq, Repr

inductive DnsDirection where
  | egress
  | ingress
  deriving DecidableEq, Repr

inductive DnsResponseCode where
  | noError
  | formErr
  | servFail
  | nxDomain
  | notImp
  | refused
  deriving DecidableEq, Repr

inductive DnsConfidence where
  | observedRecently
  deriving DecidableEq, Repr

structure DnsAddressAnswer where
  name : DnsName
  address : IpAddr
  ttlSeconds : UInt32
  deriving DecidableEq

structure DnsCname where
  «alias» : DnsName
  canonical : DnsName
  ttlSeconds : UInt32
  deriving DecidableEq

structure NetworkDnsQuery where
  transactionId : UInt16
  direction : DnsDirection
  transport : DnsTransport
  resolverAddress : IpAddr
  name : DnsName
  queryType : DnsQueryType
  deriving DecidableEq

structure NetworkDnsResponse where
  transactionId : UInt16
  direction : DnsDirection
  transport : DnsTransport
  resolverAddress : IpAddr
  name : DnsName
  queryType : DnsQueryType
  responseCode : DnsResponseCode
  truncated : Bool
  answers : List DnsAddressAnswer
  cnameChain : List DnsCname
  effectiveTtlSeconds : Option UInt32
  deriving DecidableEq

structure DnsContext where
  names : List DnsName
  observedAt : DateTime
  expiresAt : DateTime
  confidence : DnsConfidence
  ambiguous : Bool
  deriving DecidableEq

def validateTtl (ttlSeconds : UInt32) : Except DnsValidationError Unit :=
  if ¬ (1 ≤ ttlSeconds ∧ ttlSeconds ≤ maxDnsTtlSeconds) then .error .invalidTtl else .ok ()

def DnsAddressAnswer.new (name : DnsName) (address : IpAddr) (ttlSeconds : UInt32) :
    Except DnsValidationError DnsAddressAnswer := do
  validateTtl ttlSeconds
  return { name, address, ttlSeconds }

def DnsCname.new («alias» canonical : DnsName) (ttlSeconds : UInt32) : Except DnsValidationError DnsCname := do
  validateTtl ttlSeconds
  return { «alias», canonical, ttlSeconds }

def NetworkDnsResponse.validate (r : NetworkDnsResponse) : Except DnsValidationError Unit :=
  if maxDnsAnswers < r.answers.length ∨ maxDnsCnameChain < r.cnameChain.length then .error .tooManyValues
  else do
    r.answers.forM fun answer => validateTtl answer.ttlSeconds
    r.cnameChain.forM fun cname => validateTtl cname.ttlSeconds
    match r.effectiveTtlSeconds with
    | some ttl => validateTtl ttl
    | none => .ok ()

namespace DnsContext

def new (names : List DnsName) (observedAt expiresAt : DateTime) : Except DnsValidationError DnsContext :=
  if names = [] ∨ maxDnsContextNames < names.length ∨ expiresAt ≤ observedAt then .error .invalidContext
  else .ok { names, observedAt, expiresAt, confidence := .observedRecently, ambiguous := 1 < names.length }

def validate (c : DnsContext) : Except DnsValidationError Unit :=
  if c.names = [] ∨ maxDnsContextNames < c.names.length ∨ c.expiresAt ≤ c.observedAt ∨
      c.ambiguous ≠ decide (1 < c.names.length) ∨ c.confidence ≠ .observedRecently then .error .invalidContext
  else .ok ()

variable {c : DnsContext}

theorem new_eq_ok {names : List DnsName} {observedAt expiresAt : DateTime} : new names observedAt expiresAt = .ok c ↔
      (names ≠ [] ∧ names.length ≤ maxDnsContextNames ∧ observedAt < expiresAt) ∧
        c = ⟨names, observedAt, expiresAt, .observedRecently, decide (1 < names.length)⟩ := by
  simp only [new, ite_error_eq_ok, not_or, not_lt, not_le, ok_eq_ok, ne_eq, eq_comm (a := c)]

theorem validate_eq_ok :
    c.validate = .ok () ↔ (c.names ≠ [] ∧ c.names.length ≤ maxDnsContextNames ∧ c.observedAt < c.expiresAt) ∧
      c.ambiguous = decide (1 < c.names.length) := by
  simp only [validate, ite_error_eq_ok, not_or, not_lt, not_le, not_not, ne_eq, and_true, and_assoc]

/-- What the constructor builds, validation accepts. -/
theorem validate_new {names : List DnsName} {observedAt expiresAt : DateTime}
    (h : new names observedAt expiresAt = .ok c) : c.validate = .ok () := by
  obtain ⟨hc, rfl⟩ := new_eq_ok.mp h
  exact validate_eq_ok.mpr ⟨hc, rfl⟩

end DnsContext

theorem DnsAddressAnswer.new_eq_ok {name : DnsName} {address : IpAddr} {ttl : UInt32} {a : DnsAddressAnswer} :
    new name address ttl = .ok a ↔ validateTtl ttl = .ok () ∧ a = ⟨name, address, ttl⟩ := by
  simp only [new, bind_unit_eq_ok, pure_eq_ok, eq_comm (a := a)]

theorem DnsCname.new_eq_ok {name canonical : DnsName} {ttl : UInt32} {c : DnsCname} :
    new name canonical ttl = .ok c ↔ validateTtl ttl = .ok () ∧ c = ⟨name, canonical, ttl⟩ := by
  simp only [new, bind_unit_eq_ok, pure_eq_ok, eq_comm (a := c)]

/-- The checks of a response. -/
structure NetworkDnsResponse.Checked (r : NetworkDnsResponse) : Prop where
  answersBounded : r.answers.length ≤ maxDnsAnswers
  cnamesBounded : r.cnameChain.length ≤ maxDnsCnameChain
  answers : ∀ a ∈ r.answers, validateTtl a.ttlSeconds = .ok ()
  cnames : ∀ c ∈ r.cnameChain, validateTtl c.ttlSeconds = .ok ()
  effective : ∀ ttl, r.effectiveTtlSeconds = some ttl → validateTtl ttl = .ok ()

/-- Validation accepts exactly the responses that are bounded and consistent. -/
theorem NetworkDnsResponse.validate_eq_ok {r : NetworkDnsResponse} : r.validate = .ok () ↔ r.Checked := by
  simp only [validate, ite_error_eq_ok, not_or, not_lt, bind_eq_ok, exists_unit, forM_eq_ok]
  cases httl : r.effectiveTtlSeconds with
  | none =>
    constructor
    · rintro ⟨⟨ha, hc⟩, hat, hct, -⟩
      exact ⟨ha, hc, hat, hct, fun ttl h => by rw [httl] at h; cases h⟩
    · rintro ⟨ha, hc, hat, hct, -⟩
      exact ⟨⟨ha, hc⟩, hat, hct, rfl⟩
  | some ttl =>
    constructor
    · rintro ⟨⟨ha, hc⟩, hat, hct, ht⟩
      exact ⟨ha, hc, hat, hct, fun ttl' h => by rw [httl] at h; cases h; exact ht⟩
    · rintro ⟨ha, hc, hat, hct, ht⟩
      exact ⟨⟨ha, hc⟩, hat, hct, ht ttl httl⟩

/-- An outbound connection attempt. -/
structure NetworkConnect where
  addressFamily : NetworkAddressFamily
  destinationAddress : IpAddr
  destinationPort : UInt16
  outcome : NetworkConnectOutcome
  errno : Option UInt16
  dnsContext : Option DnsContext
  deriving DecidableEq

namespace NetworkConnect

/-- The outcome agrees with the error number. -/
def consistent : NetworkConnectOutcome → Option UInt16 → Bool
  | .succeeded, none => true
  | .inProgress, some errno => errno = linuxEinprogress
  | .failed, some errno => (1 ≤ errno && errno ≤ maxLinuxErrno) && !(errno = linuxEinprogress)
  | _, _ => false

def new (addressFamily : NetworkAddressFamily) (destinationAddress : IpAddr) (destinationPort : UInt16)
    (outcome : NetworkConnectOutcome) (errno : Option UInt16) : Except NetworkConnectError NetworkConnect :=
  if destinationPort = 0 then .error .zeroDestinationPort
  else if destinationAddress.family ≠ addressFamily then .error .addressFamilyMismatch
  else if errno.any (fun value => value = 0 || value > maxLinuxErrno) then .error .invalidErrno
  else if ¬ consistent outcome errno then .error .inconsistentOutcome
  else .ok { addressFamily, destinationAddress, destinationPort, outcome, errno, dnsContext := none }

def withDnsContext (c : NetworkConnect) (context : DnsContext) : NetworkConnect :=
  { c with dnsContext := some context }

/-- The checks of the constructor. -/
structure Checked (family : NetworkAddressFamily) (address : IpAddr) (port : UInt16)
    (outcome : NetworkConnectOutcome) (errno : Option UInt16) : Prop where
  portNonzero : port ≠ 0
  familyAgrees : address.family = family
  errnoRange : errno.any (fun value => value = 0 || value > maxLinuxErrno) = false
  outcomeAgrees : consistent outcome errno

theorem new_eq_ok {family : NetworkAddressFamily} {address : IpAddr} {port : UInt16}
    {outcome : NetworkConnectOutcome} {errno : Option UInt16} {c : NetworkConnect} :
    new family address port outcome errno = .ok c ↔ Checked family address port outcome errno ∧
      c = ⟨family, address, port, outcome, errno, none⟩ := by
  simp only [new, ite_error_eq_ok, ne_eq, not_not, ok_eq_ok]
  constructor
  · rintro ⟨hport, hfam, herr, hcons, rfl⟩
    exact ⟨⟨hport, hfam, Bool.eq_false_iff.mpr herr, hcons⟩, rfl⟩
  · rintro ⟨⟨hport, hfam, herr, hcons⟩, rfl⟩
    exact ⟨hport, hfam, Bool.eq_false_iff.mp herr, hcons, rfl⟩

end NetworkConnect
end Okoscope.EventModel
