import Okoscope.Agent.DnsRuntime

/-!
# Every message is parsed

The parser again, with the operations that stop the process when they fail: sums of machine words,
indexing, and slices. They do not fail on any message, and what is parsed passes the checks of events.
-/
namespace Okoscope.Agent.DnsMessage

open Lib Lib.Outcome EventModel
open KernelRecords (arrayAt)

/-! ## The parser with its panics -/

/-- A result, an error of the parser, or a panic. -/
abbrev Guarded := Except (Option DnsParseError)

def returned {α : Type} (result : Except DnsParseError α) : Guarded α := result.mapError some

/-- A sum of `usize` values, which panics when it does not fit. -/
def add (a b : Nat) : Guarded Nat := if a + b < 2 ^ 64 then .ok (a + b) else .error none

/-- Indexing, which panics out of bounds. -/
def touch (bytes : List UInt8) (index : Nat) : Guarded Unit := if index < bytes.length then .ok () else .error none

/-- Reads a word of this width. -/
def readGuarded {α : Type} (width : Nat) (read : List UInt8 → Nat → Except DnsParseError α) (bytes : List UInt8)
    (offset : Nat) : Guarded α := do
  let _ ← add offset width
  returned (read bytes offset)

def decodeNameGuarded (bytes : List UInt8) : Nat → List (List Char) → Nat → Option Nat → Guarded (DnsName × Nat)
  | 0, _, _, _ => .error (some .compression)
  | hops + 1, labels, cursor, next =>
    match bytes[cursor]? with
    | none => .error (some .bounds)
    | some length =>
      if length = 0 then do
        let after ← add cursor 1
        returned (((DnsName.new (String.ofList (List.intercalate ['.'] labels))).map
          fun name => (name, next.getD after)).mapError fun _ => .name)
      else if length &&& 0xc0 = 0xc0 then do
        let second ← add cursor 1
        match bytes[second]? with
        | none => .error (some .bounds)
        | some low =>
          let pointer := (length &&& 0x3f).toNat * 256 + low.toNat
          if pointer ≥ bytes.length ∨ pointer ≥ cursor then .error (some .compression)
          else do
            let after ← add cursor 2
            decodeNameGuarded bytes hops labels pointer (some (next.getD after))
      else if length > 63 ∨ length &&& 0xc0 ≠ 0 then .error (some .compression)
      else do
        let labelStart ← add cursor 1
        let labelEnd ← add labelStart length.toNat
        if labelEnd > bytes.length then .error (some .bounds)
        else
          let label := ((bytes.drop labelStart).take length.toNat).map labelByte
          if label.any fun c => !Text.isAsciiAlphanumeric c && c ≠ '-' then .error (some .name)
          else decodeNameGuarded bytes hops (labels ++ [label.map Char.toLower]) labelEnd next

def readRecordGuarded (bytes : List UInt8) (start : Nat) : Guarded AnswerRecord := do
  let (name, offset) ← decodeNameGuarded bytes maxPointerHops [] start none
  let recordType ← readGuarded 2 readU16 bytes offset
  let recordClass ← add offset 2 >>= readGuarded 2 readU16 bytes
  let ttl ← add offset 4 >>= readGuarded 4 readU32 bytes
  let dataLen ← add offset 8 >>= readGuarded 2 readU16 bytes
  let record : AnswerRecord := { name, recordType, recordClass, ttl, dataLen := dataLen.toNat, dataOffset := offset + 10 }
  -- the sums of the data's offset and end are checked by the source itself
  if record.dataEnd ≥ 2 ^ 64 ∨ record.dataEnd > bytes.length then .error (some .bounds) else return record

/-- What the branch of a record takes from the message without a check of its own. -/
def touchRecord (bytes : List UInt8) (maxTtlSeconds : UInt32) (found : Answers) (record : AnswerRecord) : Guarded Unit :=
  if ¬ (record.recordClass = classIn ∧ min record.ttl maxTtlSeconds > 0) then .ok ()
  else if record.recordType = typeA ∧ record.dataLen = 4 ∧ found.answers.length < maxDnsAnswers then
    (List.range 4).forM fun i => add record.dataOffset i >>= touch bytes
  else if record.recordType = typeAaaa ∧ record.dataLen = 16 ∧ found.answers.length < maxDnsAnswers then
    if record.dataEnd ≤ bytes.length then .ok () else .error none
  else if record.recordType = typeCname ∧ found.cnameChain.length < maxDnsCnameChain then do
    let (_, consumed) ← decodeNameGuarded bytes maxPointerHops [] record.dataOffset none
    if consumed > record.dataEnd then touch bytes record.dataOffset else .ok ()
  else .ok ()

def parseAnswersGuarded (bytes : List UInt8) (maxTtlSeconds : UInt32) : Nat → Nat → Answers → Guarded Answers
  | 0, _, found => .ok found
  | count + 1, offset, found => do
    let record ← readRecordGuarded bytes offset
    touchRecord bytes maxTtlSeconds found record
    let found ← returned (found.addRecord bytes maxTtlSeconds record)
    parseAnswersGuarded bytes maxTtlSeconds count record.dataEnd found

def parseQuestionGuarded (bytes : List UInt8) : Guarded Question := do
  let flags ← readGuarded 2 readU16 bytes 2
  let opcode := (flags >>> 11) &&& 0x0f
  let qdCount ← readGuarded 2 readU16 bytes 4
  let answerCount ← readGuarded 2 readU16 bytes 6
  if opcode ≠ 0 ∨ qdCount ≠ 1 ∨ answerCount.toNat > maxDnsAnswers + maxDnsCnameChain then throw (some .unsupported)
  let (name, offset) ← decodeNameGuarded bytes maxPointerHops [] dnsHeaderLen none
  let rawQueryType ← readGuarded 2 readU16 bytes offset
  let queryType ← returned (queryType rawQueryType)
  let queryClass ← add offset 2 >>= readGuarded 2 readU16 bytes
  if queryClass ≠ classIn then throw (some .unsupported)
  let answersOffset ← add offset 4
  let responseCode ← returned (responseCode (flags &&& 0x0f))
  return { flags, answerCount := answerCount.toNat, name, queryType, responseCode, answersOffset }

def parseMessageGuarded (bytes : List UInt8) (maxTtlSeconds : UInt32) : Guarded ParsedDnsMessage :=
  if bytes.length < dnsHeaderLen ∨ maxTtlSeconds = 0 then .error (some .bounds)
  else do
    let question ← parseQuestionGuarded bytes
    let found ← parseAnswersGuarded bytes maxTtlSeconds question.answerCount question.answersOffset {}
    let transactionId ← readGuarded 2 readU16 bytes 0
    return {
      transactionId
      isResponse := question.flags &&& 0x8000 ≠ 0
      truncated := question.flags &&& 0x0200 ≠ 0
      name := question.name
      queryType := question.queryType
      responseCode := question.responseCode
      answers := found.answers
      cnameChain := found.cnameChain
      effectiveTtlSeconds := found.effectiveTtlSeconds }

/-! ## No panic -/

variable {labels : List (List Char)} {record : AnswerRecord}

section
variable {bytes : List UInt8} {maxTtlSeconds : UInt32} {α β : Type}

theorem returned_ok {a : α} : returned (.ok a) = .ok a := rfl
theorem returned_pure {a : α} : returned (pure a) = pure a := rfl
theorem returned_error {e : DnsParseError} : returned (α := α) (.error e) = .error (some e) := rfl
theorem returned_throw {e : DnsParseError} : returned (throw e : Except DnsParseError α) = throw (some e) := rfl

theorem returned_bind {x : Except DnsParseError α} {f : α → Except DnsParseError β} :
    returned (x >>= f) = returned x >>= fun a => returned (f a) := by
  cases x <;> rfl

theorem returned_ite {c : Prop} [Decidable c] {x y : Except DnsParseError α} :
    returned (if c then x else y) = if c then returned x else returned y := by
  split <;> rfl

theorem ok_bind {a : α} {f : α → Guarded β} : (.ok a >>= f) = f a := rfl

theorem error_bind {e : Option DnsParseError} {f : α → Guarded β} : (.error e >>= f) = .error e := rfl

theorem add_of_lt {a b : Nat} (h : a + b < 2 ^ 64) : add a b = .ok (a + b) := if_pos h

theorem readGuarded_eq {width : Nat} {read : List UInt8 → Nat → Except DnsParseError α} {offset : Nat}
    (h : offset + width < 2 ^ 64) : readGuarded width read bytes offset = returned (read bytes offset) := by
  rw [readGuarded, add_of_lt h]
  rfl

variable (hlen : bytes.length < 2 ^ 63)
include hlen

theorem decodeNameGuarded_eq {hops : Nat} {cursor : Nat} {next : Option Nat} :
    decodeNameGuarded bytes hops labels cursor next = returned (decodeNameFrom bytes hops labels cursor next) := by
  induction hops generalizing labels cursor next with
  | zero => rfl
  | succ _ ih =>
    rw [decodeNameGuarded, decodeNameFrom]
    cases hc : bytes[cursor]? with
    | none => rfl
    | some length =>
      have hcursor := (List.getElem?_eq_some_iff.mp hc).1
      have hlength := length.toNat_lt
      have h1 : add cursor 1 = .ok (cursor + 1) := add_of_lt (by omega)
      have h2 : add cursor 2 = .ok (cursor + 2) := add_of_lt (by omega)
      have hlabel : add (cursor + 1) length.toNat = .ok (cursor + 1 + length.toNat) := add_of_lt (by omega)
      simp only [h1, h2, hlabel, returned_ite, ok_bind, ih, returned_error]
      cases bytes[cursor + 1]? <;> simp only [returned_error, returned_ite]

omit hlen in
theorem decodeNameFrom_le {hops : Nat} {cursor : Nat} {next : Option Nat} {name : DnsName} {stop : Nat}
    (hnext : ∀ offset ∈ next, offset ≤ bytes.length)
    (h : decodeNameFrom bytes hops labels cursor next = .ok (name, stop)) : stop ≤ bytes.length := by
  induction hops generalizing labels cursor next with
  | zero => cases h
  | succ _ ih =>
    rw [decodeNameFrom] at h
    cases hc : bytes[cursor]? with
    | none => simp [hc] at h
    | some =>
      have hcursor := (List.getElem?_eq_some_iff.mp hc).1
      simp only [hc] at h
      split at h
      · obtain ⟨_, -, heq⟩ := map_eq_ok.mp (mapError_eq_ok.mp h)
        cases heq
        cases next with
        | none => exact hcursor
        | some offset => exact hnext offset rfl
      · split at h
        · cases hlow : bytes[cursor + 1]? with
          | none => simp [hlow] at h
          | some =>
            have hsecond := (List.getElem?_eq_some_iff.mp hlow).1
            simp only [hlow, ite_error_eq_ok] at h
            refine ih (fun offset hoffset => ?_) h.2
            cases hoffset
            cases next with
            | none => exact hsecond
            | some offset => exact hnext offset rfl
        · simp only [ite_error_eq_ok] at h
          exact ih hnext h.2.2.2

omit hlen in
theorem decodeName_le {start : Nat} {name : DnsName} {stop : Nat} (h : decodeName bytes start = .ok (name, stop)) :
    stop ≤ bytes.length :=
  decodeNameFrom_le (fun _ h => by cases h) h

theorem readRecordGuarded_eq (start : Nat) : readRecordGuarded bytes start = returned (readRecord bytes start) := by
  rw [readRecordGuarded, readRecord, decodeNameGuarded_eq hlen, returned_bind, ← decodeName]
  cases hname : decodeName bytes start with
  | error => rfl
  | ok decoded =>
    obtain ⟨_, _⟩ := decoded
    have hle := decodeName_le hname
    -- an end that does not fit is past the end of the message
    have hfits : ∀ stop, (stop ≥ 2 ^ 64 ∨ stop > bytes.length) = (stop > bytes.length) := fun stop => by
      rw [eq_iff_iff]
      omega
    simp (disch := omega) only [returned_ok, ok_bind, returned_bind, add_of_lt, readGuarded_eq, returned_ite,
      returned_error, returned_pure, hfits]

omit hlen in
theorem readRecord_le {start : Nat} (h : readRecord bytes start = .ok record) : record.dataEnd ≤ bytes.length := by
  simp only [readRecord, bind_eq_ok, ite_error_eq_ok, pure_eq_ok] at h
  obtain ⟨_, -, _, -, _, -, _, -, _, -, hle, rfl⟩ := h
  exact Nat.le_of_not_lt hle

theorem touchRecord_eq {found : Answers} (hend : record.dataEnd ≤ bytes.length) :
    touchRecord bytes maxTtlSeconds found record = .ok () ∨
      ∃ e, touchRecord bytes maxTtlSeconds found record = .error (some e) ∧
        found.addRecord bytes maxTtlSeconds record = .error e := by
  have hsum : record.dataOffset + record.dataLen ≤ bytes.length := hend
  unfold touchRecord Answers.addRecord
  dsimp only
  split
  · exact .inl rfl
  split
  next =>
    refine .inl (forM_eq_ok.mpr fun i hi => ?_)
    have hi := List.mem_range.mp hi
    rw [add_of_lt (by omega), ok_bind, touch, if_pos (by omega)]
  · split
    next => exact .inl rfl
    · split
      · rw [decodeNameGuarded_eq hlen, ← decodeName]
        cases hname : decodeName bytes record.dataOffset with
        | error e => exact .inr ⟨e, rfl, rfl⟩
        | ok =>
          have hstart : record.dataOffset < bytes.length := by
            by_contra hout
            rw [decodeName, maxPointerHops, decodeNameFrom, List.getElem?_eq_none (by omega)] at hname
            cases hname
          refine .inl ?_
          rw [returned_ok, ok_bind]
          split
          · exact if_pos hstart
          · rfl
      · exact .inl rfl

theorem parseAnswersGuarded_eq (count offset : Nat) (found : Answers) :
    parseAnswersGuarded bytes maxTtlSeconds count offset found =
      returned (parseAnswers bytes maxTtlSeconds count offset found) := by
  induction count generalizing offset found with
  | zero => rfl
  | succ _ ih =>
    rw [parseAnswersGuarded, parseAnswers, readRecordGuarded_eq hlen, returned_bind]
    cases hrecord : readRecord bytes offset with
    | error => rfl
    | ok record =>
      rw [returned_ok, ok_bind]
      show _ = returned (found.addRecord bytes maxTtlSeconds record >>= _)
      rw [returned_bind]
      obtain htouch | ⟨_, htouch, hadd⟩ := touchRecord_eq hlen (readRecord_le hrecord)
      · rw [htouch, ok_bind]
        exact congrArg _ (funext fun next => ih record.dataEnd next)
      · rw [htouch, hadd]
        rfl

theorem parseQuestionGuarded_eq : parseQuestionGuarded bytes = returned (parseQuestion bytes) := by
  rw [parseQuestionGuarded, parseQuestion, decodeNameGuarded_eq hlen, ← decodeName]
  simp (disch := omega) only [returned_bind, readGuarded_eq, returned_ite, returned_throw, returned_pure]
  cases hname : decodeName bytes dnsHeaderLen with
  | error => simp only [returned_error, error_bind]
  | ok decoded =>
    obtain ⟨_, _⟩ := decoded
    have hle := decodeName_le hname
    simp (disch := omega) only [returned_ok, ok_bind, add_of_lt, readGuarded_eq]

/-- No message makes the parser panic: it returns what it returns without the checks of the machine. -/
theorem parseMessageGuarded_eq (maxTtlSeconds : UInt32) :
    parseMessageGuarded bytes maxTtlSeconds = returned (parseMessage bytes maxTtlSeconds) := by
  rw [parseMessageGuarded, parseMessage, parseQuestionGuarded_eq hlen]
  simp only [parseAnswersGuarded_eq hlen, readGuarded_eq (show 0 + 2 < 2 ^ 64 by decide), returned_ite,
    returned_bind, returned_error, returned_pure]

end

/-! ## What is parsed -/

/-- A slice has less than `2 ^ 63` bytes. None makes the parser panic, and what it accepts gives a response that
passes its check, with times to live within the limit, of which the effective one is the least, and valid names. -/
theorem every_message_parsed {bytes : List UInt8} (hlen : bytes.length < 2 ^ 63) (maxTtlSeconds : UInt32)
    (context : DnsRuntime.PacketContext) : parseMessageGuarded bytes maxTtlSeconds ≠ .error none ∧
    parseMessageGuarded bytes maxTtlSeconds = returned (parseMessage bytes maxTtlSeconds) ∧
    ∀ parsed, parseMessage bytes maxTtlSeconds = .ok parsed →
      (DnsRuntime.DnsProcessor.responseOf parsed context).validate = .ok () ∧
      (⟨parsed.answers, parsed.cnameChain, parsed.effectiveTtlSeconds⟩ : Answers).Sound maxTtlSeconds ∧
      ∀ name ∈ parsed.name :: parsed.answers.map (·.name) ++ parsed.cnameChain.flatMap fun c => [c.alias, c.canonical],
        validDnsName name.value := by
  have heq := parseMessageGuarded_eq hlen maxTtlSeconds
  refine ⟨?_, heq, fun parsed h => ?_⟩
  · rw [heq, returned]
    cases parseMessage bytes maxTtlSeconds <;> simp [Except.mapError]
  have hsound := parseMessage_sound h
  refine ⟨NetworkDnsResponse.validate_eq_ok.mpr ⟨hsound.answers, hsound.cnames, ?_, ?_, ?_⟩, hsound,
    fun name _ => name.valid⟩
  · exact fun a ha => (hsound.ttls _ (List.mem_append_left _ (List.mem_map_of_mem ha))).1
  · exact fun c hc => (hsound.ttls _ (List.mem_append_right _ (List.mem_map_of_mem hc))).1
  · exact fun ttl httl => (hsound.ttls ttl (hsound.least ttl httl).1).1

/-- A question whose name is a pointer to itself is refused. -/
theorem every_message_parsed_self_pointer :
    parseMessageGuarded [0, 7, 1, 0, 0, 1, 0, 0, 0, 0, 0, 0, 0xc0, 12, 0, 1, 0, 1] 60 = .error (some .compression) := by
  rw [(every_message_parsed (by decide) 60 ⟨.egress, .udp, .v4 ⟨[10, 96, 0, 10], rfl⟩, 0, 0⟩).2.1]
  decide +kernel

end Okoscope.Agent.DnsMessage
