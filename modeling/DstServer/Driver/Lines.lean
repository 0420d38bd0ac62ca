import DstServer.Driver.System
import DstServer.Process.Chunks

/-!
# The lines of the reply pipe

`read_output` cuts the reply pipe into lines, and the pump of the driver gives
each of them to `handle_line`: a frame of `rpc`, a control record, or one of
the two markers.

* `handleReplyLine` is that branch of `handle_line`, and `pumpReply` the pump
  for an event of the pipe.
* `readOutput_lines`: whole lines within the limit arrive one by one, however
  the pipe is read.
-/

namespace DstServer.Driver

open Lib Process

def isAsciiWhitespace (byte : UInt8) : Bool :=
  byte == 32 || byte == 9 || byte == 10 || byte == 12 || byte == 13

/-- `slice::trim_ascii_end` -/
def trimAsciiEnd (line : Bytes) : Bytes := (line.reverse.dropWhile isAsciiWhitespace).reverse

def remoteCommandDone : Bytes := "DST_RemoteCommandDone".toUTF8.toList

def luaBusy : Bytes := "DST_LuaBusy".toUTF8.toList

def rpcStart : Bytes := "DST_RPC|".toUTF8.toList

def controlStart : Bytes := "DST_CONTROL|".toUTF8.toList

namespace Shared

/-- `handle_line` for the reply pipe, where `parse` is `serde_json::from_slice`
and `fresh` the next identity. -/
def handleReplyLine (parse : Bytes → Option Json) (fresh : String) (shared : Shared)
    (line : Bytes) : Shared :=
  let line := trimAsciiEnd (nativeMessage line)
  if line = remoteCommandDone then shared.nativeBarrier .done
  else if line = luaBusy then shared.nativeBarrier .busy
  else match stripPrefix rpcStart line with
    | some payload =>
      match parse payload with
      | none => shared.fail "malformed mandatory JSON frame"
      | some value => shared.handleReply fresh value
    | none =>
      match stripPrefix controlStart line with
      | some payload => shared.handleRecord Shared.control (parse payload)
      | none => shared

/-- The pump for an event of the reply pipe. -/
def pumpReply (parse : Bytes → Option Json) (fresh : String) (shared : Shared) :
    EventKind → Shared
  | .line line => shared.handleReplyLine parse fresh line
  | .oversized => shared.fail "mandatory frame exceeded its line limit"
  | .readError error => shared.fail error

end Shared

/-- The events that the reader emits. -/
def emitted : Effect → Option EventKind
  | .emit kind _ => some kind
  | .count _ => none
  | .fail _ => none

/-! ## Whole lines -/

/-- The bytes are one line with its newline, within the limit of the protocol. -/
def WholeLine (line : Bytes) : Prop :=
  IsWhole (· = newline) line ∧ line.length ≤ maxProtocolLineBytes

theorem lineEffects_reply {line : Bytes} (h : line.length ≤ maxProtocolLineBytes) :
    lineEffects .reply line = [.emit (.line line) true] := by
  have hmandatory : StreamKind.mandatory .reply line = true := rfl
  have hwithin : WithinLimit true line := withinLimit_iff.2 h
  unfold lineEffects
  rw [hmandatory, if_pos hwithin]

/-- However the pipe is read, its lines arrive one by one. -/
theorem readOutput_lines {lines : List Bytes} (hlines : ∀ line ∈ lines, WholeLine line)
    {reads : List Read} (hreads : streamOf reads = lines.flatten) :
    (readOutput .reply reads .eof).filterMap emitted = lines.map EventKind.line := by
  have hstart : Tracks .reply [] { mandatory := StreamKind.protocol .reply } [] :=
    ⟨[], [], [], rfl, nofun, nofun, rfl, onLine_start .reply⟩
  have hloop := readLoop_eq hstart reads .eof
  have hwhole : ∀ line ∈ lines, IsWhole (· = newline) line := fun line hline =>
    (hlines line hline).1
  have hreference := @reference_eq .reply [] lines hwhole nofun .eof
  rw [List.nil_append, List.nil_append, hreads, ← List.append_nil lines.flatten] at hloop
  have heffects : lines.flatMap (lineEffects .reply) =
      lines.map fun line => Effect.emit (.line line) true := by
    rw [← List.flatMap_singleton' (lines.map _), List.flatMap_map]
    exact List.flatMap_congr fun line hline => lineEffects_reply (hlines line hline).2
  have hend : endEffects .reply .eof = [] := rfl
  rw [readOutput, hloop, hreference, if_pos rfl, List.nil_append, hend, List.append_nil, heffects,
    List.filterMap_map]
  exact congrFun List.filterMap_eq_map' lines

end DstServer.Driver
