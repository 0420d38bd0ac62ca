import DstServer.Lib.Json
import DstServer.Lib.Outcome
import DstServer.Process.Output

/-!
# Queries of the journal

The model of the journal reader in `logs.rs`: a query is a command line of
`journalctl`, whose output is cut into lines, and every line is a record.
`JournalLogs.query` gives one page, and `readAll` follows the cursors of the
pages.

`Journalctl` is the program, and the reader of its JSON.
-/

namespace DstServer.Logs

open Lib Lib.Outcome
open DstServer.Process (Bytes newline)

/-- The first natural number that is no `usize`. -/
def usizeBound : Nat := Json.u64Bound

/-! ## Queries -/

inductive Direction where
  | forward
  | backward
  deriving DecidableEq, Repr

structure JournalQuery where
  limit : Nat := 100
  direction : Direction := .backward
  cursor : Option String := none
  since : Option String := none
  «until» : Option String := none
  «namespace» : Option String := none
  grep : Option String := none
  deriving DecidableEq, Repr

/-- An argument of the command line. -/
inductive Argument where
  | noPager
  | all
  | outputJson
  | unit (pattern : String)
  | follow
  | lines (oldest : Bool) (count : Nat)
  | reverse
  | option (name value : String)
  deriving DecidableEq, Repr

def Argument.text : Argument → String
  | noPager => "--no-pager"
  | all => "--all"
  | outputJson => "--output=json"
  | unit pattern => s!"--unit={pattern}"
  | follow => "--follow"
  | lines oldest count => "--lines=" ++ (if oldest then "+" else "") ++ toString count
  | reverse => "--reverse"
  | option name value => s!"--{name}={value}"

/-- The errors of a query: a text, a failed process, or a cursor that is not
available. -/
inductive LogError where
  | message (text : String)
  | process (command : List Argument) (returncode : Int) (diagnostics : Text)
      (diagnosticsTruncated : Bool)
  | cursor (cursor : String)
  deriving DecidableEq, Repr

namespace JournalQuery

/-- The values that are given, under the names of their options. -/
def options (request : JournalQuery) : List (String × String) :=
  [("cursor", request.cursor), ("since", request.since), ("until", request.until),
    ("namespace", request.namespace), ("grep", request.grep)].filterMap fun option =>
      option.2.map fun value => (option.1, value)

/-- A value of an option that is neither blank nor has a NUL or a line end. -/
def validValue (value : String) : Bool :=
  Text.trim value.toList ≠ [] && value.toList.all (· ∉ ['\x00', '\r', '\n'])

def validate (request : JournalQuery) : Outcome LogError Unit := do
  ensure (∀ option ∈ request.options, validValue option.2 = true)
    (.message "journal query values cannot be empty or contain NUL or newline")
  ensure (request.cursor = none ∨ request.since = none)
    (.message "journal cursor and since cannot be combined")

end JournalQuery

/-! ## Records -/

mutual

/-- Whether `field_text` finds a text. -/
def hasText : Json → Bool
  | .null => true
  | .string _ => true
  | .array items =>
    if items.all fun item => item.asU64?.isSome || item.asI64?.isSome then
      items.all fun item => item.asU64?.any (· < 256)
    else haveText items
  | _ => false

def haveText : List Json → Bool
  | [] => true
  | item :: rest => hasText item && haveText rest

end

/-- `9999-12-31` in microseconds. -/
def maxTimestamp : Nat := 253402300799999999

def validRecord (fields : List (String × Json)) : Outcome String Unit := do
  ensure (∀ field ∈ fields, hasText field.2 = true) "invalid journal field value"
  let cursor ← orError ((fields.lookup "__CURSOR").bind Json.asStr?) "invalid journal record metadata"
  ensure (cursor ≠ "" ∧ cursor.toList.all (· ∉ ['\x00', '\r', '\n']) = true)
    "invalid journal record metadata"
  let timestamp ← orError ((fields.lookup "__REALTIME_TIMESTAMP").bind Json.asStr?)
    "invalid journal record metadata"
  ensure (timestamp ≠ "" ∧ timestamp.toList.all Char.isDigit = true)
    "invalid journal record metadata"
  let timestamp ← orError (Text.unsigned? Json.u64Bound timestamp.toList)
    "journal timestamp is outside the supported datetime range"
  ensure (timestamp ≤ maxTimestamp) "journal timestamp is outside the supported datetime range"

structure JournalRecord where
  fields : List (String × Json)
  valid : validRecord fields = .ok ()

namespace JournalRecord

def fromFields (fields : List (String × Json)) : Outcome String JournalRecord :=
  match h : validRecord fields with
  | .ok () => .ok ⟨fields, h⟩
  | .error e => .error e

def cursor (record : JournalRecord) : String :=
  ((record.fields.lookup "__CURSOR").bind Json.asStr?).getD ""

end JournalRecord

/-! ## The command line -/

/-- The letters and signs of a unit pattern. -/
def isUnitChar (c : Char) : Bool := c.isAlphanum || c ∈ ":_.@*?[]-".toList

def isLowerHex (c : Char) : Bool := c ∈ "0123456789abcdef".toList

/-- The loop over the bytes of a pattern: a backslash begins an escape
`\xhh` that is no NUL. -/
def validUnitChars : Text → Bool
  | [] => true
  | '\\' :: 'x' :: first :: second :: rest =>
    isLowerHex first && isLowerHex second && !(first = '0' && second = '0') && validUnitChars rest
  | c :: rest => isUnitChar c && validUnitChars rest

def validUnit (unit : String) : Bool :=
  unit ≠ "" && unit.utf8ByteSize ≤ 255 && unit.toList.head?.all (· ∉ ['-', '.']) &&
    validUnitChars unit.toList

/-- What a query reads of `journalctl`: how it ends, and what it has written. -/
structure Process where
  stdout : Bytes
  returncode : Int
  /-- `Diagnostics::text` of the standard error. -/
  diagnostics : Text
  diagnosticsTruncated : Bool

/-- The program, which may fail to start, and `serde_json::from_slice`. -/
structure Journalctl where
  run : List Argument → Option Process
  fromSlice : Bytes → Option (List (String × Json))

structure JournalLogs where
  executable : String := "journalctl"
  maxRecordBytes : Nat := 4 * 1024 * 1024
  maxOutputBytes : Nat := 64 * 1024 * 1024
  maxOutput_lt : maxOutputBytes < usizeBound := by decide

namespace JournalLogs

/-- The loop over the unit patterns. -/
def unitArguments (units : List String) : Outcome LogError (List Argument) :=
  units.foldlM (fun command unit => do
    ensure (validUnit unit = true) (.message "invalid journal unit pattern")
    pure (if .unit unit ∈ command then command else command ++ [.unit unit])) []

/-- The number of lines of a page: one more than the limit, and the anchor. -/
def lineCount (request : JournalQuery) : Outcome LogError Nat := do
  let count := request.limit + (1 + if request.cursor.isSome then 1 else 0)
  ensure (count < usizeBound) (.message "journal limit is too large")
  pure count

def command (units : Option (List String)) (request : JournalQuery) (follow : Bool) :
    Outcome LogError (List Argument) := do
  request.validate
  ensure (∀ patterns ∈ units, patterns ≠ [])
    (.message "journal logs require at least one explicit unit pattern")
  ensure (follow = false ∨ request.direction = .forward)
    (.message "journal follow requires forward direction")
  let unitArguments ← unitArguments (units.getD [])
  let lineArguments ←
    if follow then pure [.follow, .lines false request.limit]
    else do
      let count ← lineCount request
      pure (match request.direction with
        | .forward => [.lines true count]
        | .backward => [.lines false count, .reverse])
  pure ([.noPager, .all, .outputJson] ++ unitArguments ++ lineArguments ++
    request.options.map fun option => .option option.1 option.2)

end JournalLogs

/-! ## The output of the program -/

/-- `read_lines`: the lines that are sent on, and how the reading ends. -/
def readLines (maxRecord : Nat) (maxOutput : Option Nat) :
    Nat → List Bytes → List Bytes × Outcome LogError Unit
  | _, [] => ([], .ok ())
  | received, line :: rest =>
    if maxRecord < line.length then
      ([], fail (.message "log record exceeds the configured byte limit"))
    else if usizeBound ≤ received + line.length then
      ([], fail (.message "log query byte count overflow"))
    else if ∃ limit ∈ maxOutput, limit < received + line.length then
      ([], fail (.message "log query exceeds the configured output byte limit"))
    else
      let (lines, outcome) := readLines maxRecord maxOutput (received + line.length) rest
      (line :: lines, outcome)

def checkStatus (command : List Argument) (process : Process) : Outcome LogError Unit :=
  ensure (process.returncode = 0)
    (.process command process.returncode process.diagnostics process.diagnosticsTruncated)

/-- The lines in the channel, and the outcome of the reader while nobody has
waited for it. -/
structure LogOutput where
  lines : List Bytes
  task : Option (Outcome LogError Unit)
  diagnostics : Text
  diagnosticsTruncated : Bool

namespace LogOutput

def spawn (logs : JournalLogs) (ctl : Journalctl) (command : List Argument) (maxOutput : Option Nat) :
    Outcome LogError LogOutput := do
  ensure (0 < logs.maxRecordBytes ∧ maxOutput ≠ some 0)
    (.message "log output byte limits must be positive integers")
  let process ← orError (ctl.run command) (.message s!"start {logs.executable}")
  let (lines, outcome) :=
    readLines logs.maxRecordBytes maxOutput 0 (splitInclusive (· = newline) process.stdout)
  pure {
    lines
    task := some (do outcome; checkStatus command process)
    diagnostics := process.diagnostics
    diagnosticsTruncated := process.diagnosticsTruncated }

def finish (output : LogOutput) : Outcome LogError Unit × LogOutput :=
  (output.task.getD (.ok ()), { output with task := none })

def nextLine (output : LogOutput) : Outcome LogError (Option Bytes) × LogOutput :=
  match output.lines with
  | line :: rest => (.ok (some line), { output with lines := rest })
  | [] => (output.finish.1.map fun _ => none, output.finish.2)

end LogOutput

/-- The stream of the records; the anchor is pending while there is a cursor. -/
structure JournalStream where
  output : LogOutput
  cursor : Option String
  grep : Bool

namespace JournalStream

/-- The end of the output of a search that has found nothing. -/
def endsSearch : Fault LogError → Bool
  | .error (.process _ returncode diagnostics _) => returncode = 1 && diagnostics = []
  | _ => false

def parseRecord (ctl : Journalctl) (line : Bytes) : Outcome LogError JournalRecord :=
  match (ctl.fromSlice line).map JournalRecord.fromFields with
  | some (.ok record) => .ok record
  | _ => fail (.message "invalid journalctl JSON record")

def readRecord (ctl : Journalctl) (stream : JournalStream) :
    Outcome LogError (Option JournalRecord × JournalStream) := do
  let (line, output) := stream.output.nextLine
  let stream := { stream with output }
  match line with
  | .ok (some line) => do
    let record ← parseRecord ctl line
    pure (some record, stream)
  | .ok none => pure (none, stream)
  | .error e => if stream.grep && endsSearch e then pure (none, stream) else .error e

/-- The anchor is read once, and is not part of the page. -/
def readAnchor (ctl : Journalctl) (stream : JournalStream) : Outcome LogError JournalStream :=
  match stream.cursor with
  | none => pure stream
  | some cursor => do
    let (anchor, stream) ← readRecord ctl stream
    ensure (anchor.any (·.cursor = cursor) = true) (.cursor cursor)
    pure { stream with cursor := none }

def nextRecord (ctl : Journalctl) (stream : JournalStream) :
    Outcome LogError (Option JournalRecord × JournalStream) := do
  let stream ← readAnchor ctl stream
  readRecord ctl stream

theorem readRecord_shorter {ctl : Journalctl} {stream stream' : JournalStream}
    {record? : Option JournalRecord} (h : readRecord ctl stream = .ok (record?, stream')) :
    stream'.output.lines.length + (if record?.isSome then 1 else 0) ≤
      stream.output.lines.length := by
  unfold readRecord LogOutput.nextLine at h
  cases hlines : stream.output.lines with
  | cons line rest =>
    simp only [hlines, bind_eq_ok] at h
    obtain ⟨record, _, h⟩ := h
    cases h
    exact le_rfl
  | nil =>
    simp only [hlines] at h
    have hfinish : stream.output.finish.2.lines = [] := hlines
    split at h
    · rename_i hline
      cases hfinished : stream.output.finish.1 with
      | ok u => rw [hfinished] at hline; cases hline
      | error e => rw [hfinished] at hline; cases hline
    · cases h
      simp [hfinish]
    · split at h
      · cases h
        simp [hfinish]
      · cases h

theorem nextRecord_shorter {ctl : Journalctl} {stream stream' : JournalStream}
    {record : JournalRecord} (h : nextRecord ctl stream = .ok (some record, stream')) :
    stream'.output.lines.length < stream.output.lines.length := by
  unfold nextRecord at h
  obtain ⟨between, hanchor, h⟩ := bind_eq_ok.1 h
  have hrecord := readRecord_shorter h
  rw [if_pos Option.isSome_some] at hrecord
  refine lt_of_lt_of_le hrecord ?_
  unfold readAnchor at hanchor
  split at hanchor
  · cases hanchor
    exact le_rfl
  · obtain ⟨⟨anchor, after⟩, hread, hanchor⟩ := bind_eq_ok.1 hanchor
    obtain ⟨_, _, hanchor⟩ := bind_eq_ok.1 hanchor
    cases hanchor
    have hshorter := readRecord_shorter hread
    show after.output.lines.length ≤ _
    omega

/-- The loop of `query_cancellable`. -/
def collect (ctl : Journalctl) (limit : Nat) (stream : JournalStream)
    (records : List JournalRecord) (count : Nat) :
    Outcome LogError (List JournalRecord × Nat × JournalStream) :=
  match h : nextRecord ctl stream with
  | .error e => .error e
  | .ok (none, stream') => .ok (records, count, stream')
  | .ok (some record, stream') =>
    collect ctl limit stream' (if records.length < limit then records ++ [record] else records)
      (count + 1)
termination_by stream.output.lines.length
decreasing_by exact nextRecord_shorter h

end JournalStream

/-! ## Pages -/

structure JournalResult where
  records : List JournalRecord
  nextCursor : Option String
  hasMore : Bool
  diagnostics : Text
  diagnosticsTruncated : Bool

namespace JournalLogs

/-- `query` without a cancellation and within its time. -/
def query (logs : JournalLogs) (ctl : Journalctl) (units : Option (List String))
    (request : JournalQuery) (completionTimeout : Nat) : Outcome LogError JournalResult := do
  ensure (completionTimeout ≠ 0) (.message "log completion timeout must be positive")
  let command ← command units request false
  let output ← LogOutput.spawn logs ctl command (some logs.maxOutputBytes)
  let stream : JournalStream := { output, cursor := request.cursor, grep := request.grep.isSome }
  let (records, count, stream) ← stream.collect ctl request.limit [] 0
  stream.output.finish.1
  pure {
    records
    nextCursor := records.getLast?.map JournalRecord.cursor
    hasMore := request.limit < count
    diagnostics := stream.output.diagnostics
    diagnosticsTruncated := stream.output.diagnosticsTruncated }

/-- The loop of a caller that reads page after page, at most this many. -/
def readAll (logs : JournalLogs) (ctl : Journalctl) (units : Option (List String))
    (completionTimeout : Nat) : Nat → JournalQuery → Outcome LogError (List JournalRecord)
  | 0, _ => fail (.message "too many pages")
  | pages + 1, request => do
    let result ← logs.query ctl units request completionTimeout
    if result.hasMore then do
      let rest ← readAll logs ctl units completionTimeout pages
        { request with cursor := result.nextCursor }
      pure (result.records ++ rest)
    else pure result.records

end JournalLogs

end DstServer.Logs
