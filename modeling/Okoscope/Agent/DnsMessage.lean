import Okoscope.Agent.KernelRecords

/-!
# DNS messages

The parser reads the question and the address and alias records of a message.
Names are followed through compression pointers, which have to lead back, for a
bounded number of turns. Every read is checked against the length of the message.
-/
namespace Okoscope.Agent.DnsMessage

open Lib Lib.Bytes Lib.Outcome EventModel
open KernelRecords (arrayAt)

def dnsHeaderLen : Nat := 12
def maxPointerHops : Nat := 16
def classIn : UInt16 := 1
def typeA : UInt16 := 1
def typeCname : UInt16 := 5
def typeAaaa : UInt16 := 28

structure ParsedDnsMessage where
  transactionId : UInt16
  isResponse : Bool
  truncated : Bool
  name : DnsName
  queryType : DnsQueryType
  responseCode : DnsResponseCode
  answers : List DnsAddressAnswer
  cnameChain : List DnsCname
  effectiveTtlSeconds : Option UInt32
  deriving DecidableEq

inductive DnsParseError where
  | bounds
  | compression
  | unsupported
  | name
  | limit
  deriving DecidableEq, Repr

/-! ## Words and names -/

/-- A big-endian word, if the message has that many bytes at the offset. -/
def readWord (width : Nat) (bytes : List UInt8) (offset : Nat) : Except DnsParseError Nat :=
  if offset + width ≤ bytes.length then .ok (beNat ((bytes.drop offset).take width)) else .error .bounds

def readU16 (bytes : List UInt8) (offset : Nat) : Except DnsParseError UInt16 :=
  (readWord 2 bytes offset).map UInt16.ofNat

def readU32 (bytes : List UInt8) (offset : Nat) : Except DnsParseError UInt32 :=
  (readWord 4 bytes offset).map UInt32.ofNat

def labelByte (byte : UInt8) : Char := Char.ofNat byte.toNat

/-- The turns left, the labels read, where the next one is, and where the name ends if a
pointer was followed. -/
def decodeNameFrom (bytes : List UInt8) : Nat → List (List Char) → Nat → Option Nat →
    Except DnsParseError (DnsName × Nat)
  | 0, _, _, _ => .error .compression
  | hops + 1, labels, cursor, next =>
    match bytes[cursor]? with
    | none => .error .bounds
    | some length =>
      if length = 0 then
        ((DnsName.new (String.ofList (List.intercalate ['.'] labels))).map
          fun name => (name, next.getD (cursor + 1))).mapError fun _ => .name
      else if length &&& 0xc0 = 0xc0 then
        match bytes[cursor + 1]? with
        | none => .error .bounds
        | some low =>
          let pointer := (length &&& 0x3f).toNat * 256 + low.toNat
          if pointer ≥ bytes.length ∨ pointer ≥ cursor then .error .compression
          else decodeNameFrom bytes hops labels pointer (some (next.getD (cursor + 2)))
      else if length > 63 ∨ length &&& 0xc0 ≠ 0 then .error .compression
      else if cursor + 1 + length.toNat > bytes.length then .error .bounds
      else
        let label := ((bytes.drop (cursor + 1)).take length.toNat).map labelByte
        if label.any fun c => !Text.isAsciiAlphanumeric c && c ≠ '-' then .error .name
        else decodeNameFrom bytes hops (labels ++ [label.map Char.toLower]) (cursor + 1 + length.toNat) next

/-- The name at an offset, and where it ends. -/
def decodeName (bytes : List UInt8) (start : Nat) : Except DnsParseError (DnsName × Nat) :=
  decodeNameFrom bytes maxPointerHops [] start none

/-! ## Records -/

structure AnswerRecord where
  name : DnsName
  recordType : UInt16
  recordClass : UInt16
  ttl : UInt32
  dataLen : Nat
  dataOffset : Nat

def AnswerRecord.dataEnd (record : AnswerRecord) : Nat := record.dataOffset + record.dataLen

def readRecord (bytes : List UInt8) (start : Nat) : Except DnsParseError AnswerRecord := do
  let (name, offset) ← decodeName bytes start
  let recordType ← readU16 bytes offset
  let recordClass ← readU16 bytes (offset + 2)
  let ttl ← readU32 bytes (offset + 4)
  let dataLen ← readU16 bytes (offset + 8)
  let record : AnswerRecord := { name, recordType, recordClass, ttl, dataLen := dataLen.toNat, dataOffset := offset + 10 }
  if record.dataEnd > bytes.length then .error .bounds else return record

/-- What the records read so far say. -/
structure Answers where
  answers : List DnsAddressAnswer := []
  cnameChain : List DnsCname := []
  effectiveTtlSeconds : Option UInt32 := none

/-- The shortest time to live so far. -/
def Answers.shorten (found : Answers) (ttl : UInt32) : Option UInt32 :=
  some (found.effectiveTtlSeconds.elim ttl fun value => min value ttl)

def Answers.addAddress (found : Answers) (name : DnsName) (address : IpAddr) (ttl : UInt32) :
    Except DnsParseError Answers := do
  let answer ← (DnsAddressAnswer.new name address ttl).mapError fun _ => .limit
  return { found with answers := found.answers ++ [answer], effectiveTtlSeconds := found.shorten ttl }

def Answers.addCname (found : Answers) («alias» canonical : DnsName) (ttl : UInt32) : Except DnsParseError Answers := do
  let cname ← (DnsCname.new «alias» canonical ttl).mapError fun _ => .limit
  return { found with cnameChain := found.cnameChain ++ [cname], effectiveTtlSeconds := found.shorten ttl }

/-- Takes a record into account; the data of an address record has to have the length of one. -/
def Answers.addRecord (bytes : List UInt8) (maxTtlSeconds : UInt32) (found : Answers) (record : AnswerRecord) :
    Except DnsParseError Answers :=
  let ttl := min record.ttl maxTtlSeconds
  if ¬ (record.recordClass = classIn ∧ ttl > 0) then .ok found
  else if record.recordType = typeA ∧ record.dataLen = 4 ∧ found.answers.length < maxDnsAnswers then
    found.addAddress record.name (.v4 (arrayAt 4 bytes record.dataOffset)) ttl
  else if record.recordType = typeAaaa ∧ record.dataLen = 16 ∧ found.answers.length < maxDnsAnswers then
    found.addAddress record.name (.v6 (arrayAt 16 bytes record.dataOffset)) ttl
  else if record.recordType = typeCname ∧ found.cnameChain.length < maxDnsCnameChain then do
    let (canonical, consumed) ← decodeName bytes record.dataOffset
    if consumed > record.dataEnd ∧ bytes.getD record.dataOffset 0 &&& 0xc0 ≠ 0xc0 then .error .bounds
    else found.addCname record.name canonical ttl
  else if record.recordType = typeA ∨ record.recordType = typeAaaa then .error .bounds
  else .ok found

/-- Reads so many records, one after the other. -/
def parseAnswers (bytes : List UInt8) (maxTtlSeconds : UInt32) : Nat → Nat → Answers → Except DnsParseError Answers
  | 0, _, found => .ok found
  | count + 1, offset, found => do
    let record ← readRecord bytes offset
    let found ← found.addRecord bytes maxTtlSeconds record
    parseAnswers bytes maxTtlSeconds count record.dataEnd found

/-! ## Messages -/

def queryType (value : UInt16) : Except DnsParseError DnsQueryType :=
  if value = typeA then .ok .a else if value = typeAaaa then .ok .aaaa else .error .unsupported

def responseCode (value : UInt16) : Except DnsParseError DnsResponseCode :=
  match value.toNat with
  | 0 => .ok .noError
  | 1 => .ok .formErr
  | 2 => .ok .servFail
  | 3 => .ok .nxDomain
  | 4 => .ok .notImp
  | 5 => .ok .refused
  | _ => .error .unsupported

/-- The header and the question, and where the answers start. -/
structure Question where
  flags : UInt16
  answerCount : Nat
  name : DnsName
  queryType : DnsQueryType
  responseCode : DnsResponseCode
  answersOffset : Nat

def parseQuestion (bytes : List UInt8) : Except DnsParseError Question := do
  let flags ← readU16 bytes 2
  let opcode := (flags >>> 11) &&& 0x0f
  let qdCount ← readU16 bytes 4
  let answerCount ← readU16 bytes 6
  if opcode ≠ 0 ∨ qdCount ≠ 1 ∨ answerCount.toNat > maxDnsAnswers + maxDnsCnameChain then throw .unsupported
  let (name, offset) ← decodeName bytes dnsHeaderLen
  let rawQueryType ← readU16 bytes offset
  let queryType ← queryType rawQueryType
  let queryClass ← readU16 bytes (offset + 2)
  if queryClass ≠ classIn then throw .unsupported
  let responseCode ← responseCode (flags &&& 0x0f)
  return { flags, answerCount := answerCount.toNat, name, queryType, responseCode, answersOffset := offset + 4 }

def parseMessage (bytes : List UInt8) (maxTtlSeconds : UInt32) : Except DnsParseError ParsedDnsMessage :=
  if bytes.length < dnsHeaderLen ∨ maxTtlSeconds = 0 then .error .bounds
  else do
    let question ← parseQuestion bytes
    let found ← parseAnswers bytes maxTtlSeconds question.answerCount question.answersOffset {}
    let transactionId ← readU16 bytes 0
    return {
      transactionId
      isResponse := question.flags &&& 0x8000 ≠ 0
      truncated := question.flags &&& 0x0200 ≠ 0
      name := question.name
      queryType := question.queryType
      responseCode := question.responseCode
      answers := found.answers
      cnameChain := found.cnameChain
      effectiveTtlSeconds := found.effectiveTtlSeconds }

/-- A question for the addresses of one label. -/
example : (parseMessage [0, 7, 1, 0, 0, 1, 0, 0, 0, 0, 0, 0, 1, 65, 0, 0, 1, 0, 1] 60).map
    (fun m => (m.transactionId, m.isResponse, m.name.value, m.queryType)) = .ok (7, false, "a", .a) := by
  decide +kernel

/-! ## Answers -/

def Answers.ttls (found : Answers) : List UInt32 :=
  found.answers.map (·.ttlSeconds) ++ found.cnameChain.map (·.ttlSeconds)

/-- What the records read so far say is within the limits. -/
structure Answers.Sound (maxTtlSeconds : UInt32) (found : Answers) : Prop where
  answers : found.answers.length ≤ maxDnsAnswers
  cnames : found.cnameChain.length ≤ maxDnsCnameChain
  ttls : ∀ ttl ∈ found.ttls, validateTtl ttl = .ok () ∧ ttl ≤ maxTtlSeconds
  unset : found.effectiveTtlSeconds = none → found.ttls = []
  least : ∀ ttl, found.effectiveTtlSeconds = some ttl → ttl ∈ found.ttls ∧ ∀ ttl' ∈ found.ttls, ttl ≤ ttl'

variable {parsed : ParsedDnsMessage} {ttl : UInt32}

section
variable {bytes : List UInt8} {maxTtlSeconds : UInt32} {found next : Answers} {record : AnswerRecord}

section
variable (h : found.Sound maxTtlSeconds)
include h

/-- One more time to live. -/
theorem Answers.Sound.extend (hvalid : validateTtl ttl = .ok ()) (hle : ttl ≤ maxTtlSeconds)
    (heffective : next.effectiveTtlSeconds = found.shorten ttl)
    (hmem : ∀ ttl', ttl' ∈ next.ttls ↔ ttl' = ttl ∨ ttl' ∈ found.ttls)
    (hanswers : next.answers.length ≤ maxDnsAnswers) (hcnames : next.cnameChain.length ≤ maxDnsCnameChain) :
    next.Sound maxTtlSeconds := by
  refine ⟨hanswers, hcnames, fun ttl' h' => ?_, fun hnone => ?_, fun least hleast => ?_⟩
  · obtain rfl | h' := (hmem ttl').mp h'
    · exact ⟨hvalid, hle⟩
    · exact h.ttls ttl' h'
  · rw [heffective] at hnone
    cases hnone
  rw [heffective, Answers.shorten] at hleast
  cases hvalue : found.effectiveTtlSeconds with
  | none =>
    have hempty := h.unset hvalue
    simp only [hvalue, Option.elim_none, Option.some.injEq] at hleast
    simp [hmem, hempty, hleast]
  | some value =>
    obtain ⟨hkept, hvalueLe⟩ := h.least value hvalue
    simp only [hvalue, Option.elim_some, Option.some.injEq] at hleast
    have hmin : min value ttl = if value ≤ ttl then value else ttl := rfl
    rw [hmin] at hleast
    simp only [hmem]
    split at hleast
    next hlt =>
      subst hleast
      exact ⟨.inr hkept, fun ttl' h' => h'.elim (fun heq => heq ▸ hlt) (hvalueLe ttl')⟩
    next hlt =>
      subst hleast
      refine ⟨.inl rfl, fun ttl' h' => h'.elim (fun heq => heq ▸ UInt32.le_refl _) fun h' => ?_⟩
      exact UInt32.le_trans (UInt32.le_of_lt (UInt32.not_le.mp hlt)) (hvalueLe ttl' h')

theorem Answers.Sound.addAddress {name : DnsName} {address : IpAddr} (hle : ttl ≤ maxTtlSeconds)
    (hroom : found.answers.length < maxDnsAnswers) (hnext : found.addAddress name address ttl = .ok next) :
    next.Sound maxTtlSeconds := by
  obtain ⟨_, hanswer, hnext⟩ := bind_eq_ok.mp hnext
  obtain ⟨hvalid, rfl⟩ := DnsAddressAnswer.new_eq_ok.mp (mapError_eq_ok.mp hanswer)
  cases hnext
  refine h.extend hvalid hle rfl (fun ttl' => ?_) (by simpa using Nat.succ_le_of_lt hroom) h.cnames
  grind [Answers.ttls]

theorem Answers.Sound.addCname {name canonical : DnsName} (hle : ttl ≤ maxTtlSeconds)
    (hroom : found.cnameChain.length < maxDnsCnameChain) (hnext : found.addCname name canonical ttl = .ok next) :
    next.Sound maxTtlSeconds := by
  obtain ⟨_, hcname, hnext⟩ := bind_eq_ok.mp hnext
  obtain ⟨hvalid, rfl⟩ := DnsCname.new_eq_ok.mp (mapError_eq_ok.mp hcname)
  cases hnext
  refine h.extend hvalid hle rfl (fun ttl' => ?_) h.answers (by simpa using Nat.succ_le_of_lt hroom)
  grind [Answers.ttls]

theorem Answers.Sound.addRecord (hnext : found.addRecord bytes maxTtlSeconds record = .ok next) :
    next.Sound maxTtlSeconds := by
  have hle : min record.ttl maxTtlSeconds ≤ maxTtlSeconds := by
    show (if record.ttl ≤ maxTtlSeconds then record.ttl else maxTtlSeconds) ≤ maxTtlSeconds
    split
    · assumption
    · exact UInt32.le_refl _
  unfold Answers.addRecord at hnext
  dsimp only at hnext
  split at hnext
  · cases hnext
    exact h
  split at hnext
  next ha => exact h.addAddress hle ha.2.2 hnext
  · split at hnext
    next haaaa => exact h.addAddress hle haaaa.2.2 hnext
    · split at hnext
      next hcname =>
        obtain ⟨⟨_, _⟩, -, hnext⟩ := bind_eq_ok.mp hnext
        exact h.addCname hle hcname.2 (ite_error_eq_ok.mp hnext).2
      · obtain ⟨-, hnext⟩ := ite_error_eq_ok.mp hnext
        cases hnext
        exact h

theorem Answers.Sound.parseAnswers {count offset : Nat}
    (hnext : parseAnswers bytes maxTtlSeconds count offset found = .ok next) : next.Sound maxTtlSeconds := by
  induction count generalizing offset found with
  | zero =>
    cases hnext
    exact h
  | succ _ ih =>
    obtain ⟨_, -, hrest⟩ := bind_eq_ok.mp hnext
    obtain ⟨_, hadd, hrest⟩ := bind_eq_ok.mp hrest
    exact ih (h.addRecord hadd) hrest

end

theorem parseMessage_sound (h : parseMessage bytes maxTtlSeconds = .ok parsed) :
    (⟨parsed.answers, parsed.cnameChain, parsed.effectiveTtlSeconds⟩ : Answers).Sound maxTtlSeconds := by
  obtain ⟨-, h⟩ := ite_error_eq_ok.mp h
  obtain ⟨_, -, h⟩ := bind_eq_ok.mp h
  obtain ⟨_, hfound, h⟩ := bind_eq_ok.mp h
  obtain ⟨_, -, h⟩ := bind_eq_ok.mp h
  cases h
  have hempty : ({} : Answers).Sound maxTtlSeconds :=
    ⟨Nat.zero_le _, Nat.zero_le _, by simp [Answers.ttls], fun _ => rfl, by simp⟩
  exact hempty.parseAnswers hfound


end

/-! ## Times to live -/

/-- Records of this length, one after the other, that live for a second. -/
def Brief (bytes : List UInt8) (length count offset : Nat) : Prop :=
  ∀ j < count, ∃ record, readRecord bytes (offset + length * j) = .ok record ∧ record.ttl = 1 ∧
    record.dataEnd = offset + length * (j + 1)

theorem parseAnswers_of_brief {bytes : List UInt8} {length count offset : Nat} (h : Brief bytes length count offset)
    {maxTtlSeconds : UInt32} (hmax : 1 ≤ maxTtlSeconds) (found : Answers) :
    parseAnswers bytes maxTtlSeconds count offset found = parseAnswers bytes 1 count offset found := by
  induction count generalizing offset found with
  | zero => rfl
  | succ count ih =>
    obtain ⟨record, hread, httl, hend⟩ := h 0 (Nat.succ_pos count)
    rw [Nat.mul_zero, Nat.add_zero] at hread
    rw [Nat.zero_add, Nat.mul_one] at hend
    have hadd : found.addRecord bytes maxTtlSeconds record = found.addRecord bytes 1 record := by
      have hmin : min record.ttl maxTtlSeconds = min record.ttl 1 := by
        rw [httl]
        exact if_pos hmax
      unfold Answers.addRecord
      rw [hmin]
    have hrest : Brief bytes length count record.dataEnd := by
      intro j hj
      obtain ⟨next, hnext, hlives, hnextEnd⟩ := h (j + 1) (Nat.succ_lt_succ hj)
      have hstart : record.dataEnd + length * j = offset + length * (j + 1) := by
        rw [hend, Nat.mul_succ]
        omega
      have hstop : record.dataEnd + length * (j + 1) = offset + length * (j + 1 + 1) := by
        rw [hend, Nat.mul_succ length (j + 1)]
        omega
      exact ⟨next, hstart ▸ hnext, hlives, hstop ▸ hnextEnd⟩
    rw [parseAnswers, parseAnswers, hread]
    show (found.addRecord bytes maxTtlSeconds record >>= _) = (found.addRecord bytes 1 record >>= _)
    rw [hadd]
    exact congrArg _ (funext fun next => ih hrest next)

/-! ## Names on the wire -/

def labelAt (bytes : List UInt8) (cursor : Nat) (length : UInt8) : List Char :=
  ((bytes.drop (cursor + 1)).take length.toNat).map labelByte

/-- Labels of letters in either case, digits and hyphens are written at an offset, with so many pointers among them,
each of which leads back. The name ends after the first pointer, or else after the empty label. -/
inductive Encodes (bytes : List UInt8) : List (List Char) → Nat → Nat → Nat → Prop
  | root {cursor : Nat} (hroot : bytes[cursor]? = some 0) : Encodes bytes [] 0 cursor (cursor + 1)
  | label {label : List Char} {labels : List (List Char)} {hops cursor stop : Nat} {length : UInt8}
      (hlength : bytes[cursor]? = some length) (hpos : length ≠ 0) (hle : length ≤ 63)
      (hfits : cursor + 1 + length.toNat ≤ bytes.length)
      (hchars : ¬ (labelAt bytes cursor length).any fun c => !Text.isAsciiAlphanumeric c && c ≠ '-')
      (hlabel : (labelAt bytes cursor length).map Char.toLower = label)
      (hrest : Encodes bytes labels hops (cursor + 1 + length.toNat) stop) :
      Encodes bytes (label :: labels) hops cursor stop
  | pointer {labels : List (List Char)} {hops cursor stop : Nat} {high low : UInt8} (hhigh : bytes[cursor]? = some high)
      (hmark : high &&& 0xc0 = 0xc0) (hlow : bytes[cursor + 1]? = some low)
      (hback : (high &&& 0x3f).toNat * 256 + low.toNat < cursor)
      (hrest : Encodes bytes labels hops ((high &&& 0x3f).toNat * 256 + low.toNat) stop) :
      Encodes bytes labels (hops + 1) cursor (cursor + 2)

theorem mask_of_le {length : UInt8} (h : length ≤ 63) : length &&& 0xc0 = 0 := by
  have hall : ∀ n < 64, UInt8.ofNat n &&& 0xc0 = 0 := by decide
  simpa using hall length.toNat (Nat.lt_succ_of_le (UInt8.le_iff_toNat_le.mp h))

variable {bytes : List UInt8} {labels rest : List (List Char)} {hops cursor start stop : Nat} {next : Option Nat}

/-- Every label and every pointer takes a turn, and the empty label one more. -/
theorem decodeNameFrom_of_encodes (h : Encodes bytes rest hops cursor stop) (turns : Nat) :
    decodeNameFrom bytes turns labels cursor next = if rest.length + hops < turns then
      ((DnsName.new (String.ofList (List.intercalate ['.'] (labels ++ rest)))).map
        fun name => (name, next.getD stop)).mapError fun _ => .name
    else .error .compression := by
  induction h generalizing turns labels next with
  | root hroot =>
    cases turns with
    | zero => rfl
    | succ => simp [decodeNameFrom, hroot]
  | label hlength hpos hle hfits hchars hlabel _ ih =>
    cases turns with
    | zero => rfl
    | succ =>
      rw [labelAt] at hchars hlabel
      simp only [decodeNameFrom, hlength, hpos, mask_of_le hle, UInt8.not_lt.mpr hle, Nat.not_lt.mpr hfits, hchars, hlabel, ih,
        if_false]
      simp [Nat.succ_add]
  | @pointer _ _ _ _ high _ hhigh hmark hlow hback _ ih =>
    cases turns with
    | zero => rfl
    | succ =>
      have hne : high ≠ 0 := by
        rintro rfl
        exact absurd hmark (by decide)
      have hin := hback.trans (List.getElem?_eq_some_iff.mp hhigh).1
      simp only [decodeNameFrom, hhigh, hne, hmark, hlow, Nat.not_le.mpr hback, Nat.not_le.mpr hin, ih, or_self, if_true, if_false]
      simp [← Nat.add_assoc]

/-- A name is read if its labels and pointers are fewer than the turns. -/
theorem decodeName_complete_iff {n : DnsName} (h : Encodes bytes (n.value.toList.splitOn '.') hops start stop) :
    decodeName bytes start = .ok (n, stop) ↔ (n.value.toList.splitOn '.').length + hops < maxPointerHops := by
  rw [decodeName, decodeNameFrom_of_encodes h, List.nil_append, List.intercalate_splitOn, String.ofList_toList, n.new_value]
  split
  next hlt => exact iff_of_true rfl hlt
  next hlt => exact iff_of_false nofun hlt

/-- A name in small letters, and another in capitals that ends with it by a pointer. -/
def sharedBytes : List UInt8 := [1, 98, 1, 99, 0, 1, 65, 0xc0, 0]

theorem shared_labels_decoded : decodeName sharedBytes 5 = .ok (⟨"a.b.c", by decide +kernel⟩, 9) := by
  have hlabels : "a.b.c".toList.splitOn '.' = [['a'], ['b'], ['c']] := by decide +kernel
  have hshared : Encodes sharedBytes [['b'], ['c']] 0 0 5 := by
    iterate 2 refine .label rfl (by decide) (by decide) (by decide) (by decide) rfl ?_
    exact .root rfl
  have hname : Encodes sharedBytes ("a.b.c".toList.splitOn '.') 1 5 9 := by
    rw [hlabels]
    refine .label rfl (by decide) (by decide) (by decide) (by decide) rfl ?_
    exact .pointer rfl (by decide) rfl (by decide) hshared
  exact (decodeName_complete_iff hname).mpr (by decide +kernel)

/-- A name of sixteen labels, without pointers. -/
def deepName : DnsName := ⟨"a.a.a.a.a.a.a.a.a.a.a.a.a.a.a.a", by decide +kernel⟩

def deepNameBytes : List UInt8 := (List.replicate 16 [1, 97]).flatten ++ [0]

theorem deep_name_refused :
    Encodes deepNameBytes (deepName.value.toList.splitOn '.') 0 0 33 ∧ decodeName deepNameBytes 0 = .error .compression := by
  have hlabels : deepName.value.toList.splitOn '.' = List.replicate 16 ['a'] := by decide +kernel
  rw [hlabels]
  refine ⟨?_, by decide +kernel⟩
  iterate 16 refine .label rfl (by decide) (by decide) (by decide) (by decide) rfl ?_
  exact .root rfl

end Okoscope.Agent.DnsMessage
