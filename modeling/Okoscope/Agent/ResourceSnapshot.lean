import Okoscope.EventModel.Resource
import Okoscope.Lib.FiniteMap
import Okoscope.Lib.Word

/-!
# Resource counters of a control group

What the files of a control group say, the difference between two readings, and how
differences are merged. A file that is missing or cannot be read leaves its values out.
-/
namespace Okoscope.Agent.ResourceSnapshot

open Lib Lib.FiniteMap EventModel

def sourceCpu : UInt64 := (1 : UInt64) <<< 0
def sourceMemory : UInt64 := (1 : UInt64) <<< 1
def sourceCpuPsi : UInt64 := (1 : UInt64) <<< 2
def sourceMemoryPsi : UInt64 := (1 : UInt64) <<< 3
def sourceIo : UInt64 := (1 : UInt64) <<< 4
def sourceIoPsi : UInt64 := (1 : UInt64) <<< 5
def sourcePids : UInt64 := (1 : UInt64) <<< 6

structure Snapshot where
  cpuUsage : Option UInt64 := none
  cpuPeriods : Option UInt64 := none
  cpuThrottled : Option UInt64 := none
  cpuThrottledUsec : Option UInt64 := none
  cpuQuota : Option UInt64 := none
  cpuPeriod : Option UInt64 := none
  memoryCurrent : Option UInt64 := none
  memoryAnon : Option UInt64 := none
  memoryFile : Option UInt64 := none
  memoryLimit : Option UInt64 := none
  memoryHigh : Option UInt64 := none
  memoryMax : Option UInt64 := none
  memoryOom : Option UInt64 := none
  memoryOomKill : Option UInt64 := none
  cpuPsiSome : Option UInt64 := none
  cpuPsiFull : Option UInt64 := none
  memoryPsiSome : Option UInt64 := none
  memoryPsiFull : Option UInt64 := none
  ioPsiSome : Option UInt64 := none
  ioPsiFull : Option UInt64 := none
  ioReadBytes : Option UInt64 := none
  ioWriteBytes : Option UInt64 := none
  ioReadOps : Option UInt64 := none
  ioWriteOps : Option UInt64 := none
  pidsCurrent : Option UInt64 := none
  pidsLimit : Option UInt64 := none
  pidsMax : Option UInt64 := none
  unavailable : UInt64 := 0

inductive ParseError where
  | missing (key : String)
  | unsigned
  | reset
  deriving DecidableEq, Repr

open Outcome (okOr)

/-! ## Parsers -/

def parseUnsigned (word : List Char) : Except ParseError UInt64 := okOr (Text.parseU64 word) .unsigned

/-- A key and a number on each line; a key that comes twice has its last number. -/
def parseKeyValues (text : List Char) : Except ParseError (Map String UInt64) := do
  let entries ← (Text.lines text).mapM fun line =>
    match Text.words line with
    | key :: value :: _ => (parseUnsigned value).map fun value => (String.ofList key, value)
    | _ => .error .unsigned
  return insertAll ∅ entries

def parseLimit (word : List Char) : Except ParseError (Option UInt64) :=
  if word = "max".toList then .ok none else (parseUnsigned word).map some

/-- A quota, which may be `max`, and a period, which is never zero. -/
def parseLimitPair (text : List Char) : Except ParseError (Option UInt64 × UInt64) :=
  match Text.words text with
  | quota :: rest => do
    let quota ← parseLimit quota
    match rest with
    | period :: _ =>
      let period ← parseUnsigned period
      if period = 0 then .error .unsigned else .ok (quota, period)
    | [] => .error .unsigned
  | [] => .error .unsigned

/-- What follows `total=` in the first word that starts with it. -/
def totalOf (words : List (List Char)) : Except ParseError (Option UInt64) :=
  match words.find? fun word => "total=".toList.isPrefixOf word with
  | none => .ok none
  | some word => (parseUnsigned (word.drop 6)).map some

def parsePsi (text : List Char) : Except ParseError (Option UInt64 × Option UInt64) := do
  let pressures ← (Text.lines text).foldlM (fun pressures line =>
    match Text.words line with
    | [] => .error .unsigned
    | kind :: fields => (totalOf fields).map fun total =>
      if kind = "some".toList then (total, pressures.2)
      else if kind = "full".toList then (pressures.1, total) else pressures) (none, none)
  if pressures.1.isNone && pressures.2.isNone then .error (.missing "total") else .ok pressures

structure IoTotals where
  readBytes : UInt64 := 0
  writeBytes : UInt64 := 0
  readOps : UInt64 := 0
  writeOps : UInt64 := 0

def checkedAdd (a b : UInt64) : Except ParseError UInt64 :=
  if a.toNat + b.toNat < 2 ^ 64 then .ok (a + b) else .error .unsigned

/-- Adds a field `key=value` of a device; a word that is none is skipped. -/
def addIoField (totals : IoTotals) (word : List Char) : Except ParseError IoTotals :=
  match word.splitOn '=' with
  | key :: value :: rest => do
    let value ← parseUnsigned (['='].intercalate (value :: rest))
    if key = "rbytes".toList then return { totals with readBytes := ← checkedAdd totals.readBytes value }
    else if key = "wbytes".toList then return { totals with writeBytes := ← checkedAdd totals.writeBytes value }
    else if key = "rios".toList then return { totals with readOps := ← checkedAdd totals.readOps value }
    else if key = "wios".toList then return { totals with writeOps := ← checkedAdd totals.writeOps value }
    else return totals
  | _ => .ok totals

/-- The totals over all devices; there has to be one. -/
def parseIo (text : List Char) : Except ParseError IoTotals := do
  let lines := Text.lines text
  let totals ← lines.foldlM (fun totals line =>
    match Text.words line with
    | device :: fields => if device.contains ':' then fields.foldlM addIoField totals else .error .unsigned
    | [] => .error .unsigned) {}
  if lines.isEmpty then .error (.missing "device") else .ok totals

/-! ## Files -/

/-- The contents of the files of a control group that can be read. -/
abbrev Files := String → Option String

section
variable (files : Files)

def readKeyValues (name : String) : Option (Map String UInt64) :=
  (files name).bind fun text => (parseKeyValues text.toList).toOption

def readSingle (name : String) : Option UInt64 :=
  (files name).bind fun text => Text.parseU64 (Text.trim text).toList

def readLimit (name : String) : Option UInt64 :=
  (files name).bind fun text => (parseLimit (Text.trim text).toList).toOption.join

def readLimitPair (name : String) : Option (Option UInt64 × UInt64) :=
  (files name).bind fun text => (parseLimitPair text.toList).toOption

def readPsi (name : String) : Option (Option UInt64 × Option UInt64) :=
  (files name).bind fun text => (parsePsi text.toList).toOption

def readIo (name : String) : Option IoTotals :=
  (files name).bind fun text => (parseIo text.toList).toOption

/-- The number of a key in a file. -/
def field (values : Option (Map String UInt64)) (key : String) : Option UInt64 := values.bind (AList.lookup key)

def readSnapshot : Snapshot :=
  let cpu := readKeyValues files "cpu.stat"
  let limits := readLimitPair files "cpu.max"
  let memoryCurrent := readSingle files "memory.current"
  let memory := readKeyValues files "memory.stat"
  let memoryEvents := readKeyValues files "memory.events.local"
  let memorySupported := memoryCurrent.isSome && (field memory "anon").isSome && (field memory "file").isSome &&
    memoryEvents.isSome
  let cpuPsi := readPsi files "cpu.pressure"
  let memoryPsi := readPsi files "memory.pressure"
  let ioPsi := readPsi files "io.pressure"
  let io := readIo files "io.stat"
  let pidsCurrent := readSingle files "pids.current"
  let pidsMax := field (readKeyValues files "pids.events") "max"
  { cpuUsage := field cpu "usage_usec"
    cpuPeriods := field cpu "nr_periods"
    cpuThrottled := field cpu "nr_throttled"
    cpuThrottledUsec := field cpu "throttled_usec"
    cpuQuota := limits.bind Prod.fst
    cpuPeriod := limits.map Prod.snd
    memoryCurrent
    memoryAnon := field memory "anon"
    memoryFile := field memory "file"
    memoryLimit := readLimit files "memory.max"
    memoryHigh := field memoryEvents "high"
    memoryMax := field memoryEvents "max"
    memoryOom := field memoryEvents "oom"
    memoryOomKill := field memoryEvents "oom_kill"
    cpuPsiSome := cpuPsi.bind Prod.fst
    cpuPsiFull := cpuPsi.bind Prod.snd
    memoryPsiSome := memoryPsi.bind Prod.fst
    memoryPsiFull := memoryPsi.bind Prod.snd
    ioPsiSome := ioPsi.bind Prod.fst
    ioPsiFull := ioPsi.bind Prod.snd
    ioReadBytes := io.map IoTotals.readBytes
    ioWriteBytes := io.map IoTotals.writeBytes
    ioReadOps := io.map IoTotals.readOps
    ioWriteOps := io.map IoTotals.writeOps
    pidsCurrent
    pidsLimit := readLimit files "pids.max"
    pidsMax
    unavailable :=
      (if cpu.isNone then sourceCpu else 0) ||| (if memorySupported then 0 else sourceMemory) |||
      (if cpuPsi.isNone then sourceCpuPsi else 0) ||| (if memoryPsi.isNone then sourceMemoryPsi else 0) |||
      (if ioPsi.isNone then sourceIoPsi else 0) ||| (if io.isNone then sourceIo else 0) |||
      (if pidsCurrent.isNone || pidsMax.isNone then sourcePids else 0) }

end

/-! ## Differences -/

/-- How much a counter has grown; a counter that shrank was reset. -/
def counter (current previous : Option UInt64) : Except ParseError (Option UInt64) :=
  match current, previous with
  | some current, some previous => if previous ≤ current then .ok (some (current - previous)) else .error .reset
  | _, _ => .ok none

def delta (current previous : Snapshot) : Except ParseError ResourceValues := do
  return {
    cpuUsageUsec := ← counter current.cpuUsage previous.cpuUsage
    cpuNrPeriods := ← counter current.cpuPeriods previous.cpuPeriods
    cpuNrThrottled := ← counter current.cpuThrottled previous.cpuThrottled
    cpuThrottledUsec := ← counter current.cpuThrottledUsec previous.cpuThrottledUsec
    cpuQuotaUsec := current.cpuQuota
    cpuPeriodUsec := current.cpuPeriod
    memoryCurrentSumBytes := current.memoryCurrent
    memoryCurrentMinBytes := current.memoryCurrent
    memoryCurrentMaxBytes := current.memoryCurrent
    memoryAnonSumBytes := current.memoryAnon
    memoryFileSumBytes := current.memoryFile
    memoryLimitBytes := current.memoryLimit
    memoryHighEvents := ← counter current.memoryHigh previous.memoryHigh
    memoryMaxEvents := ← counter current.memoryMax previous.memoryMax
    memoryOomEvents := ← counter current.memoryOom previous.memoryOom
    memoryOomKillEvents := ← counter current.memoryOomKill previous.memoryOomKill
    cpuPsiSomeUsec := ← counter current.cpuPsiSome previous.cpuPsiSome
    cpuPsiFullUsec := ← counter current.cpuPsiFull previous.cpuPsiFull
    memoryPsiSomeUsec := ← counter current.memoryPsiSome previous.memoryPsiSome
    memoryPsiFullUsec := ← counter current.memoryPsiFull previous.memoryPsiFull
    ioPsiSomeUsec := ← counter current.ioPsiSome previous.ioPsiSome
    ioPsiFullUsec := ← counter current.ioPsiFull previous.ioPsiFull
    ioReadBytes := ← counter current.ioReadBytes previous.ioReadBytes
    ioWriteBytes := ← counter current.ioWriteBytes previous.ioWriteBytes
    ioReadOperations := ← counter current.ioReadOps previous.ioReadOps
    ioWriteOperations := ← counter current.ioWriteOps previous.ioWriteOps
    pidsCurrentSum := current.pidsCurrent
    pidsCurrentMax := current.pidsCurrent
    pidsLimit := current.pidsLimit
    pidsMaxEvents := ← counter current.pidsMax previous.pidsMax }

/-- Both values combined, or the one that is there. -/
def mergeOption (f : UInt64 → UInt64 → UInt64) : Option UInt64 → Option UInt64 → Option UInt64
  | some a, some b => some (f a b)
  | value, none => value
  | none, value => value

def sumOption : Option UInt64 → Option UInt64 → Option UInt64 := mergeOption Word.saturatingAdd
def minOption : Option UInt64 → Option UInt64 → Option UInt64 := mergeOption min
def maxOption : Option UInt64 → Option UInt64 → Option UInt64 := mergeOption max

/-- Counters and sums are added up; of a limit the latest that is there stays, each on its own. -/
def mergeValues (target value : ResourceValues) : ResourceValues where
  cpuUsageUsec := sumOption target.cpuUsageUsec value.cpuUsageUsec
  cpuNrPeriods := sumOption target.cpuNrPeriods value.cpuNrPeriods
  cpuNrThrottled := sumOption target.cpuNrThrottled value.cpuNrThrottled
  cpuThrottledUsec := sumOption target.cpuThrottledUsec value.cpuThrottledUsec
  cpuQuotaUsec := value.cpuQuotaUsec <|> target.cpuQuotaUsec
  cpuPeriodUsec := value.cpuPeriodUsec <|> target.cpuPeriodUsec
  memoryCurrentSumBytes := sumOption target.memoryCurrentSumBytes value.memoryCurrentSumBytes
  memoryCurrentMinBytes := minOption target.memoryCurrentMinBytes value.memoryCurrentMinBytes
  memoryCurrentMaxBytes := maxOption target.memoryCurrentMaxBytes value.memoryCurrentMaxBytes
  memoryAnonSumBytes := sumOption target.memoryAnonSumBytes value.memoryAnonSumBytes
  memoryFileSumBytes := sumOption target.memoryFileSumBytes value.memoryFileSumBytes
  memoryLimitBytes := value.memoryLimitBytes <|> target.memoryLimitBytes
  memoryHighEvents := sumOption target.memoryHighEvents value.memoryHighEvents
  memoryMaxEvents := sumOption target.memoryMaxEvents value.memoryMaxEvents
  memoryOomEvents := sumOption target.memoryOomEvents value.memoryOomEvents
  memoryOomKillEvents := sumOption target.memoryOomKillEvents value.memoryOomKillEvents
  cpuPsiSomeUsec := sumOption target.cpuPsiSomeUsec value.cpuPsiSomeUsec
  cpuPsiFullUsec := sumOption target.cpuPsiFullUsec value.cpuPsiFullUsec
  memoryPsiSomeUsec := sumOption target.memoryPsiSomeUsec value.memoryPsiSomeUsec
  memoryPsiFullUsec := sumOption target.memoryPsiFullUsec value.memoryPsiFullUsec
  ioPsiSomeUsec := sumOption target.ioPsiSomeUsec value.ioPsiSomeUsec
  ioPsiFullUsec := sumOption target.ioPsiFullUsec value.ioPsiFullUsec
  ioReadBytes := sumOption target.ioReadBytes value.ioReadBytes
  ioWriteBytes := sumOption target.ioWriteBytes value.ioWriteBytes
  ioReadOperations := sumOption target.ioReadOperations value.ioReadOperations
  ioWriteOperations := sumOption target.ioWriteOperations value.ioWriteOperations
  pidsCurrentSum := sumOption target.pidsCurrentSum value.pidsCurrentSum
  pidsCurrentMax := maxOption target.pidsCurrentMax value.pidsCurrentMax
  pidsLimit := value.pidsLimit <|> target.pidsLimit
  pidsMaxEvents := sumOption target.pidsMaxEvents value.pidsMaxEvents

end Okoscope.Agent.ResourceSnapshot
