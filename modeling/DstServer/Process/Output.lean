import DstServer.Lib.Parts

/-!
# The output of the game process

The model of `read_output`, which cuts the bytes of a pipe into lines while
they arrive in chunks.  A line is classified while it is read: a line of a
protocol pipe is mandatory, and a line of the standard output becomes so
when its beginning says that it is from the driver.

`readOutput` is the loop over what the reader returns, with its effects in
the order in which they happen.  The queues have room for every event.
-/

namespace DstServer.Process

open Lib

def maxProtocolLineBytes : Nat := 64 * 1024
def maxLogLineBytes : Nat := 1024 * 1024

/-- The length of the read buffer. -/
def chunkBytes : Nat := 8192

inductive StreamKind where
  | reply
  | lifecycle
  | stdout
  | stderr
  deriving DecidableEq, Repr

namespace StreamKind

def protocol : StreamKind → Bool
  | reply => true
  | lifecycle => true
  | stdout => false
  | stderr => false

/-- The text of `{:?}`. -/
def debug : StreamKind → String
  | reply => "Reply"
  | lifecycle => "Lifecycle"
  | stdout => "Stdout"
  | stderr => "Stderr"

end StreamKind

abbrev Bytes : Type := List UInt8

def newline : UInt8 := 10

/-! ## Classification -/

/-- `slice::strip_prefix` -/
def stripPrefix (start line : Bytes) : Option Bytes :=
  if start.isPrefixOf line then some (line.drop start.length) else none

def isAsciiDigit (byte : UInt8) : Bool := 48 ≤ byte && byte ≤ 57

/-- The loop over the parts of the clock: hours of any length, minutes and seconds. -/
def isClock (clock : Bytes) : Bool :=
  match clock.splitOn 58 with
  | [hours, minutes, seconds] =>
    hours ≠ [] && hours.all isAsciiDigit && minutes.length = 2 && minutes.all isAsciiDigit &&
      seconds.length = 2 && seconds.all isAsciiDigit
  | _ => false

/-- The message behind a native timestamp `[hours:mm:ss]: `. -/
def timestamped (line : Bytes) : Option Bytes := do
  let clock ← stripPrefix [91] line
  -- native hours fit a machine integer
  let stop ← (clock.take 32).findIdx? (· = 93)
  let message ← stripPrefix [58] (clock.drop (stop + 1))
  guard (isClock (clock.take stop) = true)
  pure ((stripPrefix [32] message).getD message)

def nativeMessage (line : Bytes) : Bytes := (timestamped line).getD line

/-- `DST_DRIVER|` and `DST_CONTROL|`. -/
def mandatoryStarts : List Bytes :=
  ["DST_DRIVER|".toUTF8.toList, "DST_CONTROL|".toUTF8.toList]

def StreamKind.mandatory (stream : StreamKind) (line : Bytes) : Bool :=
  stream.protocol ||
    (stream = .stdout && mandatoryStarts.any fun start => start.isPrefixOf (nativeMessage line))

/-! ## The loop -/

inductive EventKind where
  | line (bytes : Bytes)
  | oversized
  | readError (error : String)
  deriving DecidableEq

inductive Counter where
  | oversized
  | readErrors
  deriving DecidableEq, Repr

/-- What the loop does: it counts, it fails the protocol, and it emits an event, to the queue of the
mandatory ones or to the other one. -/
inductive Effect where
  | count (counter : Counter)
  | fail (message : String)
  | emit (kind : EventKind) (mandatory : Bool)
  deriving DecidableEq

/-- `Output::oversized` -/
def oversizedEffects (stream : StreamKind) (mandatory : Bool) : List Effect :=
  .count .oversized ::
    ((if mandatory then
      [.fail (stream.debug ++ " line exceeds " ++ toString maxProtocolLineBytes ++ " bytes")] else []) ++
      [.emit .oversized mandatory])

/-- The variables of the loop. -/
structure Reader where
  line : Bytes := []
  oversized : Bool := false
  mandatory : Bool

def limit (mandatory : Bool) : Nat := if mandatory then maxProtocolLineBytes else maxLogLineBytes

/-- The first half of the body: a part is added to the line. -/
def Reader.extend (stream : StreamKind) (reader : Reader) (part : Bytes) : Reader × List Effect :=
  if reader.oversized then (reader, [])
  else if limit reader.mandatory < reader.line.length + part.length then
    ({ reader with line := [], oversized := true }, oversizedEffects stream reader.mandatory)
  else
    let line := reader.line ++ part
    if stream.mandatory line = true ∧ maxProtocolLineBytes < line.length then
      ({ line := [], oversized := true, mandatory := true }, oversizedEffects stream true)
    else ({ reader with line, mandatory := stream.mandatory line }, [])

/-- The body of the loop over the parts of a chunk. -/
def Reader.take (stream : StreamKind) (reader : Reader) (part : Bytes) : Reader × List Effect :=
  let (reader, effects) := reader.extend stream part
  if part.getLast? = some newline then
    ({ mandatory := stream.protocol },
      effects ++ if reader.oversized then [] else [.emit (.line reader.line) reader.mandatory])
  else (reader, effects)

def Reader.takeAll (stream : StreamKind) : Reader → List Bytes → Reader × List Effect
  | reader, [] => (reader, [])
  | reader, part :: parts =>
    let first := reader.take stream part
    let last := first.1.takeAll stream parts
    (last.1, first.2 ++ last.2)

/-- What the reader returns before it ends: some bytes that fill at most the buffer, or nothing
because it was interrupted. -/
inductive Read where
  | bytes (chunk : Bytes) (nonempty : chunk ≠ []) (fits : chunk.length ≤ chunkBytes)
  | interrupted

/-- How the reader ends. -/
inductive Ending where
  | eof
  | error (message : String)

/-- What the loop does at the end. -/
def Reader.finish (stream : StreamKind) (reader : Reader) : Ending → List Effect
  | .eof =>
    if reader.oversized = false ∧ reader.line ≠ [] then
      if reader.mandatory then [.fail (stream.debug ++ " ended with an incomplete line")]
      else [.emit (.line reader.line) false]
    else []
  | .error message =>
    .count .readErrors ::
      ((if stream ≠ .stderr then [.fail (stream.debug ++ ": " ++ message)] else []) ++
        [.emit (.readError message) (stream ≠ .stderr)])

/-- The loop over what the reader returns. -/
def readLoop (stream : StreamKind) (ending : Ending) : Reader → List Read → List Effect
  | reader, [] => reader.finish stream ending
  | reader, .interrupted :: reads => readLoop stream ending reader reads
  | reader, .bytes chunk _ _ :: reads =>
    let next := reader.takeAll stream (splitInclusive (· = newline) chunk)
    next.2 ++ readLoop stream ending next.1 reads

def readOutput (stream : StreamKind) (reads : List Read) (ending : Ending) : List Effect :=
  readLoop stream ending { mandatory := stream.protocol } reads

/-! ## The reference -/

/-- The bytes of the stream. -/
def streamOf : List Read → Bytes
  | [] => []
  | .interrupted :: reads => streamOf reads
  | .bytes chunk _ _ :: reads => chunk ++ streamOf reads

/-- What the reader owes for a line beyond its limit.  Such a line is counted and reported in place of
its bytes, and where it is mandatory it is fatal to the protocol. -/
def tooLong (stream : StreamKind) : Bool → List Effect
  | true =>
    [.count .oversized,
      .fail (stream.debug ++ " line exceeds " ++ toString maxProtocolLineBytes ++ " bytes"),
      .emit .oversized true]
  | false => [.count .oversized, .emit .oversized false]

/-- The limits of a mandatory line and of a log line. -/
def WithinLimit (mandatory : Bool) (line : Bytes) : Prop :=
  (mandatory = true → line.length ≤ maxProtocolLineBytes) ∧
    (mandatory = false → line.length ≤ maxLogLineBytes)

instance (mandatory : Bool) (line : Bytes) : Decidable (WithinLimit mandatory line) :=
  inferInstanceAs (Decidable (_ ∧ _))

/-- A line that the stream ends with a newline. -/
def lineEffects (stream : StreamKind) (line : Bytes) : List Effect :=
  if WithinLimit (stream.mandatory line) line then [.emit (.line line) (stream.mandatory line)]
  else tooLong stream (stream.mandatory line)

/-- A line that the stream does not end. -/
def restEffects (stream : StreamKind) (ending : Ending) (line : Bytes) : List Effect :=
  if WithinLimit (stream.mandatory line) line then
    match ending with
    | .eof =>
      if stream.mandatory line then [.fail (stream.debug ++ " ended with an incomplete line")]
      else [.emit (.line line) false]
    | .error _ => []
  else tooLong stream (stream.mandatory line)

/-- What the stream ends with. -/
def endEffects (stream : StreamKind) : Ending → List Effect
  | .eof => []
  | .error message =>
    .count .readErrors ::
      ((if stream ≠ .stderr then [.fail (stream.debug ++ ": " ++ message)] else []) ++
        [.emit (.readError message) (stream ≠ .stderr)])

/-- The whole stream is cut at its newlines, and every line is classified. -/
def reference (stream : StreamKind) (bytes : Bytes) (ending : Ending) : List Effect :=
  (splitInclusive (· = newline) bytes).flatMap (fun line =>
    if line.getLast? = some newline then lineEffects stream line
    else restEffects stream ending line) ++ endEffects stream ending

end DstServer.Process
