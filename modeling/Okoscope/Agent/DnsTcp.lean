import Okoscope.Lib.Bytes
import Okoscope.Lib.FiniteMap
import Okoscope.Lib.Run

/-!
# DNS over TCP

The segments of a stream are put together until they hold one message, which is
preceded by its length. A gap, a message that is too long and bytes past the
message give the stream up. Instants count the nanoseconds of a monotonic clock.
-/
namespace Okoscope.Agent.DnsTcp

open Lib.Bytes Lib.FiniteMap Lib.Run

structure TcpDnsStreamKey where
  cgroupId : UInt64
  socketCookie : UInt64
  direction : UInt8
  deriving DecidableEq

inductive TcpReassemblyError where
  | capacity
  | invalidSequence
  | oversize
  | invalidFraming
  deriving DecidableEq, Repr

structure Stream where
  nextSequence : UInt32
  updatedAt : Nat
  bytes : List UInt8

/-- The sequence number after this many bytes. -/
def advance (sequence : UInt32) (length : Nat) : UInt32 :=
  sequence + if length < 2 ^ 32 then UInt32.ofNat length else UInt32.ofNat (2 ^ 32 - 1)

def Stream.append (stream : Stream) (payload : List UInt8) (sequence : UInt32) (now : Nat) : Stream where
  nextSequence := advance sequence payload.length
  updatedAt := now
  bytes := stream.bytes ++ payload

structure TcpDnsReassembler where
  streams : Map TcpDnsStreamKey Stream
  maxStreams : Nat
  maxMessageBytes : Nat
  timeout : Nat

namespace TcpDnsReassembler

def new (maxStreams maxMessageBytes timeout : Nat) : TcpDnsReassembler where
  streams := ∅
  maxStreams
  maxMessageBytes
  timeout

def expire (s : TcpDnsReassembler) (now : Nat) : TcpDnsReassembler :=
  { s with streams := filterMap (fun _ stream => if now - stream.updatedAt < s.timeout then some stream else none) s.streams }

/-- What the bytes of a stream hold: a message, the beginning of one, or neither. -/
def frame (maxMessageBytes : Nat) (bytes : List UInt8) : Except TcpReassemblyError (Option (List UInt8)) :=
  if bytes.length < 2 then .ok none
  else
    let messageLen := beNat (bytes.take 2)
    if messageLen = 0 ∨ messageLen > maxMessageBytes then .error .invalidFraming
    else if bytes.length < messageLen + 2 then .ok none
    else if bytes.length ≠ messageLen + 2 then .error .invalidFraming
    else .ok (some (bytes.drop 2))

/-- Takes a segment; only a stream whose message is not complete stays. -/
def push (s : TcpDnsReassembler) (key : TcpDnsStreamKey) (sequence : UInt32) (payload : List UInt8) (now : Nat) :
    Except TcpReassemblyError (Option (List UInt8)) × TcpDnsReassembler :=
  let s := s.expire now
  let closed := { s with streams := s.streams.erase key }
  if payload = [] then (.ok none, s)
  else if (s.streams.lookup key).isNone ∧ size s.streams ≥ s.maxStreams then (.error .capacity, s)
  else
    let stream := (s.streams.lookup key).getD { nextSequence := sequence, updatedAt := now, bytes := [] }
    if sequence ≠ stream.nextSequence then (.error .invalidSequence, closed)
    else if stream.bytes.length + payload.length > s.maxMessageBytes + 2 then (.error .oversize, closed)
    else
      let stream := stream.append payload sequence now
      match frame s.maxMessageBytes stream.bytes with
      | .ok none => (.ok none, { s with streams := s.streams.insert key stream })
      | framed => (framed, closed)

/-- The framing of a message is read back as the message. -/
theorem frame_message {maxMessageBytes : Nat} {message : List UInt8} (hne : message ≠ [])
    (hmax : message.length ≤ maxMessageBytes) (h16 : message.length < 2 ^ 16) :
    frame maxMessageBytes (beBytes 2 message.length ++ message) = .ok (some message) := by
  have hpos := List.length_pos_of_ne_nil hne
  have htwo : (beBytes 2 message.length).length = 2 := rfl
  have htotal : (beBytes 2 message.length ++ message).length = message.length + 2 := by
    rw [List.length_append, htwo, Nat.add_comm]
  have hlength : beNat ((beBytes 2 message.length ++ message).take 2) = message.length := by
    rw [List.take_left' htwo, beNat_beBytes]
    exact Nat.mod_eq_of_lt h16
  have hdrop : (beBytes 2 message.length ++ message).drop 2 = message := List.drop_left' htwo
  unfold frame
  simp only [hlength, htotal, hdrop]
  rw [if_neg (by omega), if_neg (by omega), if_neg (by omega), if_neg (by omega)]

/-- The segment that a stream waits for, or the first one of a stream. -/
theorem push_eq {s : TcpDnsReassembler} {key : TcpDnsStreamKey} {sequence : UInt32} {now last : Nat}
    {done payload : List UInt8} (hpayload : payload ≠ [])
    (hroom : (s.expire now).streams.lookup key = none → size (s.expire now).streams < s.maxStreams)
    (hstream : ((s.expire now).streams.lookup key).getD ⟨sequence, now, []⟩ = ⟨sequence, last, done⟩)
    (hfits : done.length + payload.length ≤ s.maxMessageBytes + 2) :
    s.push key sequence payload now = match frame s.maxMessageBytes (done ++ payload) with
      | .ok none => (.ok none, { s with
          streams := (s.expire now).streams.insert key (Stream.append ⟨sequence, last, done⟩ payload sequence now) })
      | framed => (framed, { s with streams := (s.expire now).streams.erase key }) := by
  have hopen : ¬ (((s.expire now).streams.lookup key).isNone ∧ size (s.expire now).streams ≥ s.maxStreams) :=
    fun hfull => absurd (hroom (Option.isNone_iff_eq_none.mp hfull.1)) (Nat.not_lt.mpr hfull.2)
  have hlength : ¬ done.length + payload.length > s.maxMessageBytes + 2 := Nat.not_lt.mpr hfits
  refine (if_neg hpayload).trans ((if_neg hopen).trans ?_)
  rw [hstream]
  exact (if_neg (fun h => h rfl)).trans (if_neg hlength)

/-! ## Runs -/

/-- A segment and the time at which it is pushed. -/
structure Segment where
  key : TcpDnsStreamKey
  sequence : UInt32
  payload : List UInt8
  now : Nat

def step (s : TcpDnsReassembler) (g : Segment) : Except TcpReassemblyError (Option (List UInt8)) × TcpDnsReassembler :=
  s.push g.key g.sequence g.payload g.now

section
variable {s : TcpDnsReassembler} {key : TcpDnsStreamKey} {g : Segment} {maxStreams maxMessageBytes : Nat}
variable {bytes message : List UInt8}

theorem frame_eq_none (h : frame maxMessageBytes bytes = .ok none) : bytes.length < maxMessageBytes + 2 := by
  unfold frame at h
  grind

theorem frame_eq_some (h : frame maxMessageBytes bytes = .ok (some message)) :
    message ≠ [] ∧ message.length ≤ maxMessageBytes := by
  unfold frame at h
  grind

theorem lookup_expire {stream : Stream} {now : Nat} : (s.expire now).streams.lookup key = some stream ↔
    s.streams.lookup key = some stream ∧ now - stream.updatedAt < s.timeout := by
  simp [expire, lookup_filterMap, Option.bind_eq_some_iff]

/-- A segment ends its stream, or it leaves it short of a message; otherwise it changes nothing. -/
theorem step_cases (s : TcpDnsReassembler) (g : Segment) :
    (∀ m, (step s g).1 = .ok (some m) → m ≠ [] ∧ m.length ≤ s.maxMessageBytes) ∧
      ∃ streams, (step s g).2 = { s with streams } ∧
        (streams = (s.expire g.now).streams ∨ streams = (s.expire g.now).streams.erase g.key ∨
          ∃ stream : Stream, stream.bytes.length < s.maxMessageBytes + 2 ∧
            (((s.expire g.now).streams.lookup g.key).isNone → size (s.expire g.now).streams < s.maxStreams) ∧
            streams = (s.expire g.now).streams.insert g.key stream) := by
  unfold step push
  dsimp only
  split
  · exact ⟨nofun, _, rfl, .inl rfl⟩
  split
  · exact ⟨nofun, _, rfl, .inl rfl⟩
  next hroom =>
  split
  · exact ⟨nofun, _, rfl, .inr (.inl rfl)⟩
  split
  · exact ⟨nofun, _, rfl, .inr (.inl rfl)⟩
  split
  · next hframe =>
    refine ⟨nofun, _, rfl, .inr (.inr ⟨_, frame_eq_none hframe, fun hnone => ?_, rfl⟩)⟩
    exact Nat.lt_of_not_le fun hle => hroom ⟨hnone, hle⟩
  · exact ⟨fun _ hm => frame_eq_some hm, _, rfl, .inr (.inl rfl)⟩

/-- No more streams than there may be, each short of a message of the largest size. -/
structure Bounded (maxStreams maxMessageBytes : Nat) (s : TcpDnsReassembler) : Prop where
  limits : s.maxStreams = maxStreams ∧ s.maxMessageBytes = maxMessageBytes
  streams : size s.streams ≤ maxStreams
  bytes : ∀ key stream, s.streams.lookup key = some stream → stream.bytes.length < maxMessageBytes + 2

theorem Bounded.step (h : Bounded maxStreams maxMessageBytes s) (g : Segment) :
    Bounded maxStreams maxMessageBytes (step s g).2 := by
  have hsize : size (s.expire g.now).streams ≤ maxStreams := size_filterMap_le.trans h.streams
  have hbytes : ∀ key stream, (s.expire g.now).streams.lookup key = some stream →
      stream.bytes.length < maxMessageBytes + 2 := fun key stream hl => h.bytes key stream (lookup_expire.mp hl).1
  obtain ⟨-, streams, hs, hcase⟩ := step_cases s g
  rw [hs]
  obtain rfl | rfl | ⟨stream, hshort, hroom, rfl⟩ := hcase
  · exact ⟨h.limits, hsize, hbytes⟩
  · exact ⟨h.limits, (size_erase_le _).trans hsize, fun key stream hl => hbytes key stream (lookup_erase_some hl).2⟩
  · refine ⟨h.limits, ?_, fun key stream' hl => ?_⟩
    · show size (AList.insert _ _ _) ≤ maxStreams
      cases hl : (s.expire g.now).streams.lookup g.key with
      | none =>
        rw [size_insert_of_none hl, ← h.limits.1]
        exact hroom (by rw [hl]; rfl)
      | some _ => rwa [size_insert_of_lookup hl]
    · obtain ⟨rfl, rfl⟩ | ⟨-, hold⟩ := lookup_insert_some hl
      · exact h.limits.2 ▸ hshort
      · exact hbytes key stream' hold

/-- Whatever is pushed and whenever: there are no more streams than there may be, each holds less
than a message of the largest size, and no message that comes out is empty or too long. -/
theorem reassembly_bounded (maxStreams maxMessageBytes timeout : Nat) (segments : List Segment) :
    let run := trace step (new maxStreams maxMessageBytes timeout) segments
    size run.2.streams ≤ maxStreams ∧
      (∀ key stream, run.2.streams.lookup key = some stream → stream.bytes.length < maxMessageBytes + 2) ∧
      ∀ g m, (g, .ok (some m)) ∈ run.1 → m ≠ [] ∧ m.length ≤ maxMessageBytes := by
  have hinv := trace_invariant step (fun _ => Bounded maxStreams maxMessageBytes) (fun _ _ g h => h.step g)
    (s := new maxStreams maxMessageBytes timeout) ⟨⟨rfl, rfl⟩, Nat.zero_le _, nofun⟩
  refine ⟨(hinv segments).streams, (hinv segments).bytes, fun g m hm => ?_⟩
  obtain ⟨before, _, -, hanswer⟩ := mem_trace hm
  exact (hinv before).limits.2 ▸ (step_cases _ g).1 m hanswer.symm

/-! ### One message among the segments of other streams -/

def framing (message : List UInt8) : List UInt8 := beBytes 2 message.length ++ message

/-- The segments of the key carry these bytes, in order and none of them empty, and no segment of
any key comes later than the timeout allows. -/
def Carries (key : TcpDnsStreamKey) (timeout : Nat) : Nat → UInt32 → List UInt8 → List Segment → Prop
  | _, _, bytes, [] => bytes = []
  | last, sequence, bytes, g :: rest =>
    g.now - last < timeout ∧
      if g.key = key then
        g.sequence = sequence ∧ g.payload ≠ [] ∧
          ∃ more, bytes = g.payload ++ more ∧ Carries key timeout g.now (advance sequence g.payload.length) more rest
      else Carries key timeout last sequence bytes rest

/-- The answers to the segments of the key. -/
def answersFor (key : TcpDnsStreamKey) (s : TcpDnsReassembler) (segments : List Segment) :
    List (Except TcpReassemblyError (Option (List UInt8))) :=
  ((trace step s segments).1.filter fun entry => entry.1.key = key).map Prod.snd

/-- The last segment of the key is answered by the message, and none before it by an error. -/
def ComesOut (message : List UInt8) (key : TcpDnsStreamKey) (s : TcpDnsReassembler) (segments : List Segment) : Prop :=
  ∃ n, answersFor key s segments = List.replicate n (.ok none) ++ [.ok (some message)]

theorem answersFor_cons (s : TcpDnsReassembler) (g : Segment) (rest : List Segment) :
    answersFor key s (g :: rest) = (if g.key = key then [(step s g).1] else []) ++ answersFor key (step s g).2 rest := by
  by_cases hkey : g.key = key <;> simp [answersFor, trace, hkey]

/-- When nothing is missing, no segment of the key is left. -/
theorem Carries.answersFor_eq_nil {timeout last : Nat} {sequence : UInt32} {segments : List Segment}
    (h : Carries key timeout last sequence [] segments) : answersFor key s segments = [] := by
  induction segments generalizing s with
  | nil => rfl
  | cons g rest ih =>
    obtain ⟨-, h⟩ := h
    rw [answersFor_cons]
    split at h
    · obtain ⟨-, hpayload, more, hnil, -⟩ := h
      exact absurd (List.append_eq_nil_iff.mp hnil.symm).1 hpayload
    · next hkey =>
      rw [if_neg hkey, ih h, List.append_nil]

variable (hne : message ≠ []) (hmax : message.length ≤ s.maxMessageBytes) (h16 : message.length < 2 ^ 16)
include hne hmax h16

/-- A part of the framing that is not all of it waits for more. -/
theorem frame_part {part more : List UInt8} (hmore : more ≠ []) (h : part ++ more = framing message) :
    frame s.maxMessageBytes part = .ok none := by
  have hpos := List.length_pos_of_ne_nil hmore
  have hmessage := List.length_pos_of_ne_nil hne
  have htwo : (beBytes 2 message.length).length = 2 := rfl
  have htotal : part.length + more.length = message.length + 2 := by
    rw [← List.length_append, h, framing, List.length_append, htwo, Nat.add_comm]
  unfold frame
  split
  · rfl
  next hlong =>
  have hlength : beNat (part.take 2) = message.length := by
    rw [← List.take_append_of_le_length (Nat.le_of_not_lt hlong), h, framing, List.take_left' htwo, beNat_beBytes]
    exact Nat.mod_eq_of_lt h16
  rw [hlength, if_neg (by omega), if_pos (by omega)]

/-- A segment that goes on with the framing completes the message, or is kept for the next one. -/
theorem comesOut_own {last : Nat} {done more : List UInt8} {rest : List Segment} (hpayload : g.payload ≠ [])
    (hroom : (s.expire g.now).streams.lookup g.key = none → size (s.expire g.now).streams < s.maxStreams)
    (hstream : ((s.expire g.now).streams.lookup g.key).getD ⟨g.sequence, g.now, []⟩ = ⟨g.sequence, last, done⟩)
    (hbytes : done ++ g.payload ++ more = framing message)
    (h : Carries g.key s.timeout g.now (advance g.sequence g.payload.length) more rest)
    (hrest : ∀ streams : Map TcpDnsStreamKey Stream, more ≠ [] →
      streams.lookup g.key = some ⟨advance g.sequence g.payload.length, g.now, done ++ g.payload⟩ →
        ComesOut message g.key { s with streams } rest) : ComesOut message g.key s (g :: rest) := by
  have hlength := congrArg List.length hbytes
  simp only [framing, List.length_append, beBytes_length] at hlength
  have hstep := push_eq hpayload hroom hstream (by omega)
  rw [ComesOut, answersFor_cons, if_pos rfl, step, hstep]
  by_cases hmore : more = []
  · subst hmore
    rw [List.append_nil] at hbytes
    rw [hbytes, framing, frame_message hne hmax h16]
    exact ⟨0, congrArg _ h.answersFor_eq_nil⟩
  · rw [frame_part hne hmax h16 hmore hbytes]
    obtain ⟨n, hn⟩ := hrest _ hmore (AList.lookup_insert _)
    exact ⟨n + 1, congrArg _ hn⟩

/-- The rest of a message, after part of it was kept. -/
theorem comesOut_of_kept {last : Nat} {sequence : UInt32} {done bytes : List UInt8} {segments : List Segment}
    (hkept : s.streams.lookup key = some ⟨sequence, last, done⟩) (hmore : bytes ≠ [])
    (hbytes : done ++ bytes = framing message) (h : Carries key s.timeout last sequence bytes segments) :
    ComesOut message key s segments := by
  induction segments generalizing s last sequence done bytes with
  | nil => exact absurd h hmore
  | cons g rest ih =>
    obtain ⟨hsoon, h⟩ := h
    have hlookup := lookup_expire.mpr ⟨hkept, hsoon⟩
    split at h
    · next hkey =>
      subst hkey
      obtain ⟨rfl, hpayload, more, rfl, h⟩ := h
      rw [← List.append_assoc] at hbytes
      refine comesOut_own hne hmax h16 hpayload (fun hnone => ?_) (by rw [hlookup]; rfl) hbytes h fun streams hmore hl =>
        ih (s := { s with streams }) hmax hl hmore hbytes h
      rw [hlookup] at hnone
      cases hnone
    · next hkey =>
      -- a segment of another key leaves the stream as its arrival finds it
      obtain ⟨-, streams, hs, hcase⟩ := step_cases s g
      have hheld : streams.lookup key = some ⟨sequence, last, done⟩ := by
        obtain rfl | rfl | ⟨_, -, -, rfl⟩ := hcase
        · exact hlookup
        · exact (AList.lookup_erase_ne (Ne.symm hkey)).trans hlookup
        · exact (AList.lookup_insert_ne (Ne.symm hkey)).trans hlookup
      rw [ComesOut, answersFor_cons, if_neg hkey, hs]
      exact ih (s := { s with streams }) hmax hheld hmore hbytes h

/-- A message that is sent in any number of segments comes out with the last of them, whatever is
pushed for other keys in between. -/
theorem message_reassembled (first : Segment) {rest : List Segment}
    (hfree : (s.expire first.now).streams.lookup first.key = none)
    (hroom : size (s.expire first.now).streams < s.maxStreams)
    (h : Carries first.key s.timeout first.now first.sequence (framing message) (first :: rest)) :
    ComesOut message first.key s (first :: rest) := by
  obtain ⟨-, h⟩ := h
  rw [if_pos rfl] at h
  obtain ⟨-, hpayload, more, hbytes, h⟩ := h
  exact comesOut_own hne hmax h16 hpayload (fun _ => hroom) (by rw [hfree]; rfl) hbytes.symm h
    fun streams hmore hl => comesOut_of_kept (s := { s with streams }) hne hmax h16 hl hmore hbytes.symm h

end

/-- Three segments, across the end of the sequence numbers, with a broken one of another stream in between. -/
theorem split_message_reassembled :
    ComesOut [1, 2, 3] ⟨7, 1, 0⟩ (new 2 16 10)
      [⟨⟨7, 1, 0⟩, 4294967295, [0], 0⟩, ⟨⟨7, 2, 0⟩, 5, [9, 9], 1⟩, ⟨⟨7, 1, 0⟩, 0, [3, 1], 2⟩, ⟨⟨7, 1, 0⟩, 2, [2, 3], 3⟩] :=
  message_reassembled (by decide) (by decide) (by decide) ⟨⟨7, 1, 0⟩, 4294967295, [0], 0⟩ rfl (by decide)
    (by simp [Carries, framing, beBytes, advance, new])

end TcpDnsReassembler
end Okoscope.Agent.DnsTcp
