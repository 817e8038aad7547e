import Okoscope.EventModel.Event

/-!
# Canonical encodings and semantic summaries

The grouping and the inventory fingerprints share their notion of a required
text, the length-prefixed encoding of the fields they hash, and the JSON values
of the summary they store beside the digest.
-/
namespace Okoscope.Server

open Lib Lib.Bytes EventModel

/-- NUL or whitespace: what the fingerprints strip from both ends of a text. -/
def strippable (c : Char) : Bool := c = '\x00' || Text.isWhitespace c

/-- The text without its strippable ends. -/
def normalized (value : String) : String := Text.trimMatches strippable value

/-- A text with a character the fingerprints keep. -/
def Significant (value : String) : Prop := ¬ Text.Blank strippable value

instance (value : String) : Decidable (Significant value) := inferInstanceAs (Decidable (¬ _))

/-- The normalized text, or the error for an empty one. -/
def requiredText {ε : Type} (empty : String → ε) (field value : String) : Except ε String :=
  if normalized value = "" then .error (empty field) else .ok (normalized value)

theorem requiredText_eq_ok {ε : Type} {empty : String → ε} {field value text : String} :
    requiredText empty field value = .ok text ↔ Significant value ∧ text = normalized value := by
  unfold requiredText Significant
  rw [Outcome.ite_error_eq_ok, normalized, Text.trimMatches_eq_empty_iff, Outcome.ok_eq_ok, eq_comm (a := text)]

/-! ## The encoder -/

/-- The hash input for a list of fields: each is preceded by its length in eight bytes. -/
def encodeFields (fields : List (List UInt8)) : List UInt8 :=
  fields.flatMap fun field => beBytes 8 field.length ++ field

def digestFields (fields : List (List UInt8)) : ByteVec 32 := Sha256.digest (encodeFields fields)

def familyText : NetworkAddressFamily → String
  | .ipv4 => "ipv4"
  | .ipv6 => "ipv6"

def ipBytes : IpAddr → List UInt8
  | .v4 octets => octets.toList
  | .v6 octets => octets.toList

def portBytes (port : UInt16) : List UInt8 := beBytes 2 port.toNat

def exitCodeBytes (code : Int32) : List UInt8 := beBytes 4 code.toUInt32.toNat

def boolByte (b : Bool) : UInt8 := if b then 1 else 0

def asciiLowercase (value : String) : String :=
  String.ofList (value.toList.map fun c => if Text.isAsciiUppercase c then Char.ofNat (c.toNat + 32) else c)

/-! ## Summaries -/

/-- A JSON value. Addresses and instants are leaves: their text is the standard
rendering of the value. -/
inductive Json where
  | null
  | bool (value : Bool)
  | num (value : Int)
  | str (value : String)
  | ip (value : IpAddr)
  | time (value : DateTime)
  | arr (values : List Json)
  | obj (fields : List (String × Json))

/-- An optional value, null when absent. -/
def Json.opt {α : Type} (f : α → Json) : Option α → Json
  | some a => f a
  | none => .null

def sourceJson : EvidenceSource → Json
  | .kernel => .str "kernel"
  | .kubernetes => .str "kubernetes"
  | .derived => .str "derived"

def queryTypeJson : DnsQueryType → Json
  | .a => .str "A"
  | .aaaa => .str "AAAA"

def transportJson : DnsTransport → Json
  | .udp => .str "udp"
  | .tcp => .str "tcp"

def directionJson : DnsDirection → Json
  | .egress => .str "egress"
  | .ingress => .str "ingress"

def responseCodeJson : DnsResponseCode → Json
  | .noError => .str "no_error"
  | .formErr => .str "form_err"
  | .servFail => .str "serv_fail"
  | .nxDomain => .str "nx_domain"
  | .notImp => .str "not_imp"
  | .refused => .str "refused"

def unresolvedReasonJson : UnresolvedGenerationReason → Json
  | .beforeObservation => .str "before_observation"
  | .evicted => .str "evicted"
  | .generationMismatch => .str "generation_mismatch"
  | .containerLifetimeMismatch => .str "container_lifetime_mismatch"

def classificationJson : ProcessExitClassification → Json
  | .leader => .str "leader"
  | .legacyUnclassified => .str "legacy_unclassified"

def terminationJson : ProcessTermination → Json
  | .exited status => .obj [("type", .str "exited"), ("status", .num status.toNat)]
  | .signaled signal signalName coreDumpFlag =>
    .obj [("type", .str "signaled"), ("signal", .num signal.toNat), ("signal_name", .str signalName),
      ("core_dump_flag", .bool coreDumpFlag)]

def correlationJson : GenerationCorrelation → Json
  | .observed generation execEventId executable =>
    .obj [("status", .str "observed"), ("generation", .num generation.toNat),
      ("exec_event_id", .str execEventId.toText), ("executable", .str executable)]
  | .unresolved reason => .obj [("status", .str "unresolved"), ("reason", unresolvedReasonJson reason)]

def dnsContextJson (c : DnsContext) : Json :=
  .obj [("names", .arr (c.names.map fun n => .str n.value)), ("observed_at", .time c.observedAt),
    ("expires_at", .time c.expiresAt), ("confidence", .str "observed_recently"), ("ambiguous", .bool c.ambiguous)]

/-- The debug rendering of a query type. -/
def queryTypeDebug : DnsQueryType → String
  | .a => "A"
  | .aaaa => "Aaaa"

/-- The debug rendering of a response code. -/
def responseCodeDebug : DnsResponseCode → String
  | .noError => "NoError"
  | .formErr => "FormErr"
  | .servFail => "ServFail"
  | .nxDomain => "NxDomain"
  | .notImp => "NotImp"
  | .refused => "Refused"

end Okoscope.Server
