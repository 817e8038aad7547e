import Okoscope.EventModel.Network

/-!
# Targets of webhooks

A webhook is sent to the addresses its host resolves to, each of them checked before. An IPv6
address may carry an IPv4 address in one of several forms, of which the check knows one.
-/
namespace Okoscope.Server.WebhookTargets

open Lib.Bytes Lib.Outcome EventModel List

/-! ## Addresses -/

/-- Private, loopback, link-local, multicast, unspecified, shared and reserved addresses. -/
def unsafeV4 (ip : ByteVec 4) : Bool :=
  let (a, b) := (ip.get 0, ip.get 1)
  (a = 10 || (a = 172 && 16 ≤ b && b ≤ 31) || (a = 192 && b = 168)) || a = 127 || (a = 169 && b = 254) ||
    (224 ≤ a && a ≤ 239) || ip = .fill 4 0 || a = 0 || (a = 100 && 64 ≤ b && b ≤ 127) || 240 ≤ a

def loopback : ByteVec 16 := ⟨replicate 15 0 ++ [1], rfl⟩
def unspecified : ByteVec 16 := .fill 16 0

/-- The first of eight segments. -/
def segment (ip : ByteVec 16) : UInt16 := ip.head.toUInt16 <<< 8 ||| ip.tail.head.toUInt16

def toIpv4Mapped (ip : ByteVec 16) : Option (ByteVec 4) :=
  if ip.toList.take 12 = replicate 10 0 ++ [0xff, 0xff] then some (ip.drop 12) else none

def unsafeV6 (ip : ByteVec 16) : Bool :=
  ip = loopback || segment ip &&& 0xff00 = 0xff00 || ip = unspecified || segment ip &&& 0xfe00 = 0xfc00 ||
    segment ip &&& 0xffc0 = 0xfe80 || (toIpv4Mapped ip).any unsafeV4

def isUnsafeIp : IpAddr → Bool
  | .v4 ip => unsafeV4 ip
  | .v6 ip => unsafeV6 ip

/-! ## Requests -/

inductive WebhookError where
  | invalidUrl (reason : String)
  | unsafeAddress
  | resolution

structure WebhookPolicy where
  allowHttp : Bool
  allowPrivateIps : Bool

structure Url where
  scheme : String
  username : String
  password : Option String
  fragment : Option String
  host : Option String
  port : Option UInt16

structure SocketAddr where
  ip : IpAddr
  port : UInt16

/-- What the builder of a client is told. Nothing is said about proxies, so those of the environment are used. -/
structure ClientOptions where
  redirects : Nat
  resolvedHost : String
  resolvedAddresses : List SocketAddr

/-- What a client connects to for a request: a proxy, the host of the URL, or that of a redirect. -/
inductive Peer where
  | proxy
  | host
  | redirected
  deriving DecidableEq

structure Connection where
  peer : Peer
  address : SocketAddr

/-- The checks of a URL, if the text is one. -/
def parseUrl (value : Option Url) (policy : WebhookPolicy) : Except WebhookError Url := do
  let url ← okOr value (.invalidUrl "malformed URL")
  if url.scheme ≠ "https" && !(policy.allowHttp && url.scheme = "http") then .error (.invalidUrl "HTTPS is required")
  else if url.username ≠ "" || url.password.isSome then .error (.invalidUrl "credentials are prohibited")
  else if url.fragment.isSome then .error (.invalidUrl "fragments are prohibited")
  else if url.host.isNone then .error (.invalidUrl "host is required")
  else .ok url

/-- What resolves hosts and what connects to them. A host may be an address itself. -/
structure Network where
  literal : String → Option IpAddr
  lookupHost : String → UInt16 → Except WebhookError (List SocketAddr)
  connect : ClientOptions → Url → List Connection

def resolveTarget (url : Url) (policy : WebhookPolicy) (network : Network) : Except WebhookError (List SocketAddr) := do
  let host ← okOr url.host (.invalidUrl "host is required")
  let port ← okOr url.port (.invalidUrl "port is required")
  let addresses ← network.lookupHost host port
  if addresses.isEmpty then .error (.invalidUrl "host has no addresses")
  else if !policy.allowPrivateIps && addresses.any (isUnsafeIp ·.ip) then .error .unsafeAddress
  else .ok addresses

def client (host : String) (addresses : List SocketAddr) : ClientOptions where
  redirects := 0
  resolvedHost := host
  resolvedAddresses := addresses

/-- The connections that are made to send a webhook. -/
def send (target : Option Url) (policy : WebhookPolicy) (network : Network) : Except WebhookError (List Connection) := do
  let url ← parseUrl target policy
  let addresses ← resolveTarget url policy network
  let host ← okOr url.host (.invalidUrl "host is required")
  return network.connect (client host addresses) url

/-- What is assumed of the HTTP library, of the resolver and of the environment of the server. -/
structure Network.Direct (network : Network) : Prop where
  /-- the environment names no proxy for the URL -/
  unproxied : ∀ options url, ∀ c ∈ network.connect options url, c.peer ≠ .proxy
  /-- a client that follows no redirects connects to no other host -/
  unredirected : ∀ options url, options.redirects = 0 → ∀ c ∈ network.connect options url, c.peer ≠ .redirected
  /-- a host that is an address resolves to this address only -/
  literal_resolved : ∀ host port ip addresses, network.literal host = some ip →
    network.lookupHost host port = .ok addresses → ∀ address ∈ addresses, address.ip = ip
  /-- and is connected to without a resolver -/
  literal_connected : ∀ options url host ip, url.host = some host → network.literal host = some ip →
    ∀ c ∈ network.connect options url, c.peer = .host → c.address.ip = ip
  /-- any other host that addresses are given for is found at these -/
  overridden : ∀ options url, url.host = some options.resolvedHost → network.literal options.resolvedHost = none →
    ∀ c ∈ network.connect options url, c.peer = .host → c.address ∈ options.resolvedAddresses

section
variable {url : Url} {policy : WebhookPolicy} {network : Network}

theorem resolveTarget_checked {addresses : List SocketAddr} (h : resolveTarget url policy network = .ok addresses)
    (hpolicy : policy.allowPrivateIps = false) : (∀ address ∈ addresses, isUnsafeIp address.ip = false) ∧
      addresses ≠ [] ∧ ∃ host port, url.host = some host ∧ network.lookupHost host port = .ok addresses := by
  obtain ⟨host, hhost, h⟩ := bind_eq_ok.mp h
  obtain ⟨port, -, h⟩ := bind_eq_ok.mp h
  obtain ⟨_, hlookup, h⟩ := bind_eq_ok.mp h
  obtain ⟨hsome, h⟩ := ite_error_eq_ok.mp h
  obtain ⟨hsafe, h⟩ := ite_error_eq_ok.mp h
  cases h
  exact ⟨by simpa [hpolicy] using hsafe, by simpa using hsome, host, port, okOr_eq_ok.mp hhost, hlookup⟩

theorem send_checked {target : Option Url} (hdirect : network.Direct) {connections : List Connection}
    (h : send target policy network = .ok connections) (hpolicy : policy.allowPrivateIps = false) :
    ∀ c ∈ connections, isUnsafeIp c.address.ip = false := by
  obtain ⟨url, -, h⟩ := bind_eq_ok.mp h
  obtain ⟨addresses, hresolved, h⟩ := bind_eq_ok.mp h
  obtain ⟨host, hhost, h⟩ := bind_eq_ok.mp h
  cases h
  obtain ⟨hchecked, hsome, _, _, hhost', hlookup⟩ := resolveTarget_checked hresolved hpolicy
  have hhost := okOr_eq_ok.mp hhost
  cases hhost.symm.trans hhost'
  intro c hc
  have hpeer : c.peer = .host := by
    cases hpeer : c.peer with
    | proxy => exact absurd hpeer (hdirect.unproxied _ _ c hc)
    | host => rfl
    | redirected => exact absurd hpeer (hdirect.unredirected _ _ rfl c hc)
  cases hliteral : network.literal host with
  | none => exact hchecked _ (hdirect.overridden _ _ hhost hliteral c hc hpeer)
  | some ip =>
    obtain ⟨address, haddress⟩ := exists_mem_of_ne_nil addresses hsome
    rw [hdirect.literal_connected _ _ host ip hhost hliteral c hc hpeer,
      ← hdirect.literal_resolved host _ ip addresses hliteral hlookup address haddress]
    exact hchecked address haddress

end

/-! ## Embedded addresses -/

inductive Form where
  | mapped
  | compatible
  | sixToFour
  | nat64
  deriving DecidableEq

/-- The IPv4 address that an address of the form embeds. -/
def embedded (ip : ByteVec 16) : Form → Option (ByteVec 4)
  | .mapped => toIpv4Mapped ip
  | .compatible => if ip.toList.take 12 = replicate 12 0 then some (ip.drop 12) else none
  | .sixToFour => if ip.toList.take 2 = [0x20, 0x02] then some ((ip.drop 2).take 4) else none
  | .nat64 => if ip.toList.take 12 = [0, 0x64, 0xff, 0x9b] ++ replicate 8 0 then some (ip.drop 12) else none

/-- Of the addresses of another form than the mapped one, the check finds two. -/
theorem unsafeV6_of_embedded {ip : ByteVec 16} {form : Form} (hform : form ≠ .mapped) (h : (embedded ip form).isSome) :
    unsafeV6 ip = (ip = loopback || ip = unspecified) := by
  have hbytes : (ip.head, ip.tail.head) ∈ [(0, 0), (0x20, 0x02), (0, 0x64)] ∧ toIpv4Mapped ip = none := by
    obtain ⟨l, hl⟩ := ip
    match l, hl with
    | a :: b :: l, hl =>
      cases form with
      | mapped => exact absurd rfl hform
      | compatible =>
        simp [embedded, replicate] at h
        obtain ⟨rfl, rfl, h⟩ := h
        exact ⟨by simp [List.Vector.head, List.Vector.tail], if_neg (by simp [h, replicate])⟩
      | sixToFour =>
        simp [embedded] at h
        obtain ⟨rfl, rfl⟩ := h
        exact ⟨by simp [List.Vector.head, List.Vector.tail], if_neg (by simp [replicate])⟩
      | nat64 =>
        simp [embedded] at h
        obtain ⟨rfl, rfl, -⟩ := h
        exact ⟨by simp [List.Vector.head, List.Vector.tail], if_neg (by simp [replicate])⟩
  obtain ⟨hbytes, hmapped⟩ := hbytes
  -- no mask fits the first segment of any of the forms
  have hmasks : ∀ p ∈ [((0 : UInt8), (0 : UInt8)), (0x20, 0x02), (0, 0x64)],
      let n := p.1.toUInt16 <<< 8 ||| p.2.toUInt16
      n &&& 0xff00 ≠ 0xff00 ∧ n &&& 0xfe00 ≠ 0xfc00 ∧ n &&& 0xffc0 ≠ 0xfe80 := by
    intro p hp
    simp only [mem_cons, not_mem_nil, or_false] at hp
    rcases hp with rfl | rfl | rfl <;> decide
  obtain ⟨hmulticast, hunique, hlink⟩ := hmasks _ hbytes
  simp [unsafeV6, segment, hmulticast, hunique, hlink, hmapped]

end Okoscope.Server.WebhookTargets
