import DstServer.Lib.Paging
import DstServer.Lib.Utf8
import DstServer.Logs.Journal

/-!
# The pages of the journal are complete

`Honours` is what the reader relies on of `journalctl`: it shows the records
that match its selecting arguments, from the anchor on and with it, in the
order and up to the number that it is asked for.

A page is then the records behind the anchor, up to the limit, and
`journal_pages_complete` says that following the cursors reads every record
once, and that an anchor which has vanished is an error.
-/

namespace DstServer.Logs

open Lib Lib.Outcome Lib.Paging
open DstServer.Process (Bytes newline)

/-! ## What the program shows -/

def isCursor : Argument → Bool
  | .option name _ => name = "cursor"
  | _ => false

/-- The anchor that a command line asks for. -/
def cursorOf (args : List Argument) : Option String :=
  args.findSome? fun arg => match arg with
    | .option name value => if name = "cursor" then some value else none
    | _ => none

/-- The number of lines, and whether the oldest ones are meant. -/
def linesOf (args : List Argument) : Option (Bool × Nat) :=
  args.findSome? fun arg => match arg with
    | .lines oldest count => some (oldest, count)
    | _ => none

def isGrep : Argument → Bool
  | .option name _ => name = "grep"
  | _ => false

/-- The arguments that say which records match. -/
def selects : Argument → Bool
  | .lines _ _ => false
  | .reverse => false
  | arg => !isCursor arg

def inDirection (direction : Direction) (records : List JournalRecord) : List JournalRecord :=
  match direction with
  | .forward => records
  | .backward => records.reverse

/-- The records that a command line shows of those that match. -/
def shown (args : List Argument) (count : Nat) (records : List JournalRecord) :
    List JournalRecord :=
  (startingAt JournalRecord.cursor (cursorOf args)
    (inDirection (if .reverse ∈ args then .backward else .forward) records)).take count

section Program

variable (ctl : Journalctl) (print : JournalRecord → Bytes)

/-- The program writes these records.  A search without a result ends with
the status 1. -/
def Writes (args : List Argument) (records : List JournalRecord) : Prop :=
  ∃ process, ctl.run args = some process ∧ process.stdout = (records.map print).flatten ∧
    (process.returncode = 0 ∨
      args.any isGrep = true ∧ records = [] ∧ process.returncode = 1 ∧ process.diagnostics = [])

/-- The documented behaviour of the program.  A record is a line of JSON, and
a cursor is not blank.  When there is no record with the cursor, the program
begins at some other matching record. -/
structure Honours (matching : List Argument → List JournalRecord) : Prop where
  line : ∀ selection, ∀ record ∈ matching selection,
    ∃ body, print record = body ++ [newline] ∧ body ≠ [] ∧ newline ∉ body
  reads : ∀ selection, ∀ record ∈ matching selection,
    ctl.fromSlice (print record) = some record.fields
  cursors : ∀ selection, ∀ record ∈ matching selection, Text.trim record.cursor.toList ≠ []
  page : ∀ args oldest count, linesOf args = some (oldest, count) →
    (.reverse ∈ args ↔ oldest = false) →
    (∀ cursor ∈ cursorOf args, ∃ record ∈ matching (args.filter selects), record.cursor = cursor) →
    Writes ctl print args (shown args count (matching (args.filter selects)))
  vanished : ∀ args cursor, cursorOf args = some cursor →
    (∀ record ∈ matching (args.filter selects), record.cursor ≠ cursor) →
    ∃ others : List JournalRecord, (∀ record ∈ others, record ∈ matching (args.filter selects)) ∧
      Writes ctl print args others

/-- The output of a process is within the byte limits. -/
def Within (logs : JournalLogs) (process : Process) : Prop :=
  process.stdout.length ≤ logs.maxOutputBytes ∧
    ∀ line ∈ splitInclusive (· = newline) process.stdout, line.length ≤ logs.maxRecordBytes

end Program

/-! ## Reading the lines -/

theorem readLines_eq {maxRecord maxOutput received : Nat} {lines : List Bytes}
    (hrecord : ∀ line ∈ lines, line.length ≤ maxRecord)
    (houtput : received + lines.flatten.length ≤ maxOutput) (hbound : maxOutput < usizeBound) :
    readLines maxRecord (some maxOutput) received lines = (lines, .ok ()) := by
  induction lines generalizing received with
  | nil => rfl
  | cons line rest ih =>
    rw [List.flatten_cons, List.length_append] at houtput
    have hline := hrecord line List.mem_cons_self
    have hrest := @ih (received + line.length)
      (fun other hother => hrecord other (List.mem_cons_of_mem line hother)) (by omega)
    rw [readLines, if_neg (by omega), if_neg (by omega), if_neg, hrest]
    intro h
    obtain ⟨limit, hlimit, hlt⟩ := h
    cases hlimit
    omega

section Stream

variable {ctl : Journalctl} {print : JournalRecord → Bytes}

/-- A record is printed as a line, which is read back. -/
structure Printed (ctl : Journalctl) (print : JournalRecord → Bytes) (record : JournalRecord) :
    Prop where
  line : ∃ body, print record = body ++ [newline] ∧ body ≠ [] ∧ newline ∉ body
  reads : ctl.fromSlice (print record) = some record.fields

theorem splitInclusive_printed {records : List JournalRecord}
    (h : ∀ record ∈ records, Printed ctl print record) :
    splitInclusive (· = newline) (records.map print).flatten = records.map print := by
  have hwhole : ∀ part ∈ records.map print, IsWhole (· = newline) part := by
    intro part hpart
    obtain ⟨record, hrecord, rfl⟩ := List.mem_map.1 hpart
    obtain ⟨body, hbody, _, hclear⟩ := (h record hrecord).line
    refine ⟨body, newline, hbody, decide_eq_true rfl, ?_⟩
    intro byte hbyte
    exact decide_eq_false fun heq => hclear (heq ▸ hbyte)
  have hsplit := splitInclusive_append hwhole []
  rw [List.append_nil] at hsplit
  rw [hsplit]
  exact List.append_nil _

/-- A printed record has a byte besides the end of its line. -/
theorem length_flatten_printed {records : List JournalRecord}
    (h : ∀ record ∈ records, Printed ctl print record) :
    2 * records.length ≤ (records.map print).flatten.length := by
  induction records with
  | nil => exact le_rfl
  | cons record rest ih =>
    obtain ⟨body, hbody, hne, _⟩ := (h record List.mem_cons_self).line
    have hrest := ih fun other hother => h other (List.mem_cons_of_mem record hother)
    have hpos := List.length_pos_of_ne_nil hne
    rw [List.map_cons, List.flatten_cons, List.length_append, hbody, List.length_append,
      List.length_cons, List.length_singleton]
    omega

theorem parseRecord_print {record : JournalRecord} (h : Printed ctl print record) :
    JournalStream.parseRecord ctl (print record) = .ok record := by
  have hfields : JournalRecord.fromFields record.fields = .ok record := by
    unfold JournalRecord.fromFields
    split
    · rfl
    · rename_i e he
      rw [record.valid] at he
      cases he
  unfold JournalStream.parseRecord
  rw [h.reads, Option.map_some, hfields]

/-- These records are still to be read, and the program ends well behind them. -/
structure Reads (print : JournalRecord → Bytes) (stream : JournalStream)
    (records : List JournalRecord) : Prop where
  lines : stream.output.lines = records.map print
  ends : ∃ outcome, stream.output.task = some outcome ∧ (outcome = .ok () ∨
    stream.grep = true ∧ ∃ e, outcome = .error e ∧ JournalStream.endsSearch e = true)

/-- The stream behind the next line. -/
def JournalStream.behind (stream : JournalStream) (lines : List Bytes) : JournalStream :=
  { stream with output := { stream.output with lines } }

theorem Reads.behind {stream : JournalStream} {record : JournalRecord} {rest : List JournalRecord}
    (h : Reads print stream (record :: rest)) :
    Reads print (stream.behind (rest.map print)) rest where
  lines := rfl
  ends := h.ends

theorem Reads.readRecord_cons {stream : JournalStream} {record : JournalRecord}
    {rest : List JournalRecord} (h : Reads print stream (record :: rest))
    (hprinted : Printed ctl print record) :
    stream.readRecord ctl = .ok (some record, stream.behind (rest.map print)) := by
  unfold JournalStream.readRecord LogOutput.nextLine
  rw [h.lines]
  show (JournalStream.parseRecord ctl (print record) >>= fun record => _) = _
  rw [parseRecord_print hprinted]
  rfl

theorem Reads.readRecord_nil {stream : JournalStream} (h : Reads print stream []) :
    ∃ stream', stream.readRecord ctl = .ok (none, stream') ∧ stream'.output.task = none := by
  obtain ⟨outcome, htask, hends⟩ := h.ends
  refine ⟨{ stream with output := stream.output.finish.2 }, ?_, rfl⟩
  unfold JournalStream.readRecord LogOutput.nextLine LogOutput.finish
  rw [h.lines, htask]
  obtain rfl | ⟨hgrep, e, rfl, hsearch⟩ := hends
  · rfl
  · show (if stream.grep && JournalStream.endsSearch e then pure _ else Except.error e) = _
    rw [if_pos (by rw [hgrep, hsearch]; rfl)]
    rfl

/-- An anchor that is the first record is read over. -/
theorem Reads.nextRecord_anchor {stream : JournalStream} {anchor : JournalRecord}
    {rest : List JournalRecord} (h : Reads print stream (anchor :: rest))
    (hcursor : stream.cursor = some anchor.cursor) (hprinted : Printed ctl print anchor) :
    stream.nextRecord ctl =
      JournalStream.nextRecord ctl { stream.behind (rest.map print) with cursor := none } := by
  unfold JournalStream.nextRecord JournalStream.readAnchor
  rw [hcursor]
  simp only
  rw [h.readRecord_cons hprinted, ok_bind, ensure_of (by simp)]
  rfl

theorem nextRecord_eq {stream : JournalStream} (hcursor : stream.cursor = none) :
    stream.nextRecord ctl = stream.readRecord ctl := by
  unfold JournalStream.nextRecord JournalStream.readAnchor
  rw [hcursor]
  rfl

/-- An anchor that is not the first record is an error. -/
theorem Reads.nextRecord_vanished {stream : JournalStream} {records : List JournalRecord}
    {cursor : String} (h : Reads print stream records) (hcursor : stream.cursor = some cursor)
    (hprinted : ∀ record ∈ records, Printed ctl print record)
    (hvanished : ∀ record ∈ records, record.cursor ≠ cursor) :
    stream.nextRecord ctl = fail (.cursor cursor) := by
  have hanchor : stream.readAnchor ctl = fail (.cursor cursor) := by
    unfold JournalStream.readAnchor
    rw [hcursor]
    simp only
    cases records with
    | nil =>
      obtain ⟨stream', hread, _⟩ := @Reads.readRecord_nil ctl _ _ h
      rw [hread, ok_bind, ensure_of_not (by simp)]
      rfl
    | cons record rest =>
      rw [h.readRecord_cons (hprinted record List.mem_cons_self), ok_bind,
        ensure_of_not (by simpa using hvanished record List.mem_cons_self)]
      rfl
  unfold JournalStream.nextRecord
  rw [hanchor]
  rfl

/-! ## The loop -/

theorem collect_none {stream stream' : JournalStream} {limit count : Nat}
    {records : List JournalRecord} (h : stream.nextRecord ctl = .ok (none, stream')) :
    stream.collect ctl limit records count = .ok (records, count, stream') := by
  rw [JournalStream.collect]
  split
  · rename_i e he
    rw [h] at he
    cases he
  · rename_i found hfound
    rw [h] at hfound
    cases hfound
    rfl
  · rename_i record found hfound
    rw [h] at hfound
    cases hfound

theorem collect_some {stream stream' : JournalStream} {limit count : Nat}
    {records : List JournalRecord} {record : JournalRecord}
    (h : stream.nextRecord ctl = .ok (some record, stream')) :
    stream.collect ctl limit records count = stream'.collect ctl limit
      (if records.length < limit then records ++ [record] else records) (count + 1) := by
  rw [JournalStream.collect]
  split
  · rename_i e he
    rw [h] at he
    cases he
  · rename_i found hfound
    rw [h] at hfound
    cases hfound
  · rename_i other found hfound
    rw [h] at hfound
    cases hfound
    rfl

theorem collect_error {stream : JournalStream} {limit count : Nat} {records : List JournalRecord}
    {e : Fault LogError} (h : stream.nextRecord ctl = .error e) :
    stream.collect ctl limit records count = .error e := by
  rw [JournalStream.collect]
  split
  · rename_i e' he
    rw [h] at he
    cases he
    rfl
  · rename_i found hfound
    rw [h] at hfound
    cases hfound
  · rename_i record found hfound
    rw [h] at hfound
    cases hfound

theorem collect_congr {stream stream' : JournalStream} {limit count : Nat}
    {records : List JournalRecord} (h : stream.nextRecord ctl = stream'.nextRecord ctl) :
    stream.collect ctl limit records count = stream'.collect ctl limit records count := by
  cases hnext : stream'.nextRecord ctl with
  | error e => rw [collect_error (h.trans hnext), collect_error hnext]
  | ok next =>
    obtain ⟨record?, after⟩ := next
    cases record? with
    | none => rw [collect_none (h.trans hnext), collect_none hnext]
    | some record => rw [collect_some (h.trans hnext), collect_some hnext]

/-- The loop keeps the records up to the limit and counts them all. -/
theorem Reads.collect {stream : JournalStream} {rest : List JournalRecord} {limit count : Nat}
    {records : List JournalRecord} (h : Reads print stream rest) (hcursor : stream.cursor = none)
    (hprinted : ∀ record ∈ rest, Printed ctl print record) (hlength : records.length ≤ limit) :
    ∃ stream', stream.collect ctl limit records count =
        .ok ((records ++ rest).take limit, count + rest.length, stream') ∧
      stream'.output.task = none := by
  induction rest generalizing stream records count with
  | nil =>
    obtain ⟨stream', hread, htask⟩ := @Reads.readRecord_nil ctl _ _ h
    refine ⟨stream', ?_, htask⟩
    rw [collect_none (by rw [nextRecord_eq hcursor, hread]), List.append_nil,
      List.take_of_length_le hlength]
    rfl
  | cons record rest ih =>
    have hread := h.readRecord_cons (hprinted record List.mem_cons_self)
    have hnext : (if records.length < limit then records ++ [record] else records).length ≤ limit := by
      split
      · rw [List.length_append, List.length_singleton]
        omega
      · exact hlength
    obtain ⟨stream', hcollect, htask⟩ := @ih _ (count + 1) _ h.behind hcursor
      (fun other hother => hprinted other (List.mem_cons_of_mem record hother)) hnext
    refine ⟨stream', ?_, htask⟩
    have hkept : ((if records.length < limit then records ++ [record] else records) ++ rest).take
        limit = (records ++ record :: rest).take limit := by
      split
      · rw [List.append_assoc, List.singleton_append]
      · rw [List.take_append_of_le_length (by omega), List.take_append_of_le_length (by omega)]
    rw [collect_some (by rw [nextRecord_eq hcursor, hread]), hcollect, hkept, List.length_cons,
      Nat.add_right_comm, Nat.add_assoc]

/-- The anchor is not among the records. -/
theorem Reads.collect_anchor {stream : JournalStream} {anchor : JournalRecord}
    {rest : List JournalRecord} {limit : Nat} (h : Reads print stream (anchor :: rest))
    (hcursor : stream.cursor = some anchor.cursor)
    (hprinted : ∀ record ∈ anchor :: rest, Printed ctl print record) :
    ∃ stream', stream.collect ctl limit [] 0 = .ok (rest.take limit, rest.length, stream') ∧
      stream'.output.task = none := by
  have hnext := h.nextRecord_anchor hcursor (hprinted anchor List.mem_cons_self)
  have hbehind : Reads print { stream.behind (rest.map print) with cursor := none } rest :=
    ⟨rfl, h.ends⟩
  obtain ⟨stream', hcollect, htask⟩ := @Reads.collect ctl _ _ _ limit 0 [] hbehind
    rfl (fun record hrecord => hprinted record (List.mem_cons_of_mem anchor hrecord)) (Nat.zero_le _)
  refine ⟨stream', ?_, htask⟩
  rw [List.nil_append, Nat.zero_add] at hcollect
  rw [← hcollect]
  exact collect_congr hnext

end Stream

/-! ## The command line of a page -/

theorem unitArguments_units {units : List String} {patterns : List Argument}
    (h : JournalLogs.unitArguments units = .ok patterns) :
    ∀ arg ∈ patterns, ∃ unit, arg = .unit unit := by
  have hfold : ∀ (units : List String) (patterns patterns' : List Argument),
      (∀ arg ∈ patterns, ∃ unit, arg = Argument.unit unit) →
      units.foldlM (fun command unit => do
        ensure (validUnit unit = true) (.message "invalid journal unit pattern")
        pure (if .unit unit ∈ command then command else command ++ [.unit unit])) patterns =
          (.ok patterns' : Outcome LogError (List Argument)) →
      ∀ arg ∈ patterns', ∃ unit, arg = Argument.unit unit := by
    intro units
    induction units with
    | nil =>
      intro patterns patterns' hunits h
      cases h
      exact hunits
    | cons unit rest ih =>
      intro patterns patterns' hunits h
      rw [List.foldlM_cons] at h
      obtain ⟨between, hstep, h⟩ := bind_eq_ok.1 h
      refine ih between patterns' ?_ h
      obtain ⟨_, _, hstep⟩ := bind_eq_ok.1 hstep
      cases hstep
      intro arg harg
      split at harg
      · exact hunits arg harg
      · rcases List.mem_append.1 harg with harg | harg
        · exact hunits arg harg
        · exact ⟨unit, List.mem_singleton.1 harg⟩
  exact hfold units [] patterns (by simp) h

/-- The arguments of the options. -/
def optionArguments (request : JournalQuery) : List Argument :=
  request.options.map fun option => .option option.1 option.2

/-- The arguments that say which records a request matches. -/
def selection (patterns : List Argument) (request : JournalQuery) : List Argument :=
  [.noPager, .all, .outputJson] ++ patterns ++
    optionArguments { request with cursor := none }

def lineArguments (direction : Direction) (count : Nat) : List Argument :=
  match direction with
  | .forward => [.lines true count]
  | .backward => [.lines false count, .reverse]

/-- The number of lines of a page. -/
def pageLines (request : JournalQuery) : Nat :=
  request.limit + (1 + if request.cursor.isSome then 1 else 0)

def pageArguments (patterns : List Argument) (request : JournalQuery) : List Argument :=
  [.noPager, .all, .outputJson] ++ patterns ++ lineArguments request.direction (pageLines request) ++
    optionArguments request

section Arguments

variable {units : Option (List String)} {request : JournalQuery} {patterns : List Argument}

theorem command_eq (hunits : ∀ patterns ∈ units, patterns ≠ [])
    (hpatterns : JournalLogs.unitArguments (units.getD []) = .ok patterns)
    (hvalid : request.validate = .ok ()) (hlines : pageLines request < usizeBound) :
    JournalLogs.command units request false = .ok (pageArguments patterns request) := by
  unfold JournalLogs.command JournalLogs.lineCount
  rw [hvalid, ok_bind, ensure_of hunits, ok_bind, ensure_of (.inl rfl), ok_bind, hpatterns, ok_bind]
  simp only [Bool.false_eq_true, if_false]
  unfold pageLines at hlines
  rw [ensure_of hlines]
  cases hdirection : request.direction with
  | forward => simp [pageArguments, lineArguments, hdirection, optionArguments, pageLines]
  | backward => simp [pageArguments, lineArguments, hdirection, optionArguments, pageLines]

theorem cursorOf_options : cursorOf (optionArguments request) = request.cursor := by
  obtain ⟨limit, direction, _ | cursor, _ | since, _ | until', _ | namespace', _ | grep⟩ := request
  all_goals rfl

theorem filter_options :
    (optionArguments request).filter selects = optionArguments { request with cursor := none } := by
  obtain ⟨limit, direction, _ | cursor, _ | since, _ | until', _ | namespace', _ | grep⟩ := request
  all_goals rfl

theorem grep_options : (optionArguments request).any isGrep = request.grep.isSome := by
  obtain ⟨limit, direction, _ | cursor, _ | since, _ | until', _ | namespace', _ | grep⟩ := request
  all_goals rfl

/-- The unit patterns say nothing else. -/
structure Plain (patterns : List Argument) : Prop where
  cursor : cursorOf patterns = none
  lines : linesOf patterns = none
  reverse : .reverse ∉ patterns
  selects : patterns.filter selects = patterns
  grep : patterns.any isGrep = false

theorem plain_of_units (h : ∀ arg ∈ patterns, ∃ unit, arg = .unit unit) : Plain patterns where
  cursor := by
    refine List.findSome?_eq_none_iff.2 ?_
    intro arg harg
    obtain ⟨unit, rfl⟩ := h arg harg
    rfl
  lines := by
    refine List.findSome?_eq_none_iff.2 ?_
    intro arg harg
    obtain ⟨unit, rfl⟩ := h arg harg
    rfl
  reverse := by
    intro hmem
    obtain ⟨unit, hunit⟩ := h _ hmem
    cases hunit
  selects := by
    refine List.filter_eq_self.2 ?_
    intro arg harg
    obtain ⟨unit, rfl⟩ := h arg harg
    rfl
  grep := by
    rw [List.any_eq_false]
    intro arg harg
    obtain ⟨unit, rfl⟩ := h arg harg
    simp [isGrep]

theorem cursorOf_page (h : Plain patterns) :
    cursorOf (pageArguments patterns request) = request.cursor := by
  have hlines : cursorOf (lineArguments request.direction (pageLines request)) = none := by
    cases request.direction <;> rfl
  have hoptions := @cursorOf_options request
  have hpatterns := h.cursor
  unfold cursorOf at *
  unfold pageArguments
  rw [List.findSome?_append, List.findSome?_append, List.findSome?_append, hpatterns, hlines,
    hoptions]
  rfl

theorem linesOf_page (h : Plain patterns) :
    linesOf (pageArguments patterns request) =
      some (decide (request.direction = .forward), pageLines request) := by
  have hlines : linesOf (lineArguments request.direction (pageLines request)) =
      some (decide (request.direction = .forward), pageLines request) := by
    cases request.direction <;> rfl
  have hpatterns := h.lines
  unfold linesOf at *
  unfold pageArguments
  rw [List.findSome?_append, List.findSome?_append, List.findSome?_append, hpatterns, hlines]
  rfl

theorem reverse_page (h : Plain patterns) :
    .reverse ∈ pageArguments patterns request ↔ request.direction = .backward := by
  have hpatterns := h.reverse
  unfold pageArguments optionArguments
  cases request.direction <;> simp [lineArguments, hpatterns]

theorem filter_page (h : Plain patterns) :
    (pageArguments patterns request).filter selects = selection patterns request := by
  have hlines : (lineArguments request.direction (pageLines request)).filter selects = [] := by
    cases request.direction <;> rfl
  unfold pageArguments selection
  rw [List.filter_append, List.filter_append, List.filter_append, h.selects, hlines, filter_options,
    List.append_nil]
  rfl

theorem grep_page (h : Plain patterns) :
    (pageArguments patterns request).any isGrep = request.grep.isSome := by
  have hlines : (lineArguments request.direction (pageLines request)).any isGrep = false := by
    cases request.direction <;> rfl
  unfold pageArguments
  rw [List.any_append, List.any_append, List.any_append, h.grep, hlines, grep_options]
  rfl

theorem shown_page (h : Plain patterns) (records : List JournalRecord) :
    shown (pageArguments patterns request) (pageLines request) records =
      (startingAt JournalRecord.cursor request.cursor
        (inDirection request.direction records)).take (pageLines request) := by
  unfold shown
  rw [cursorOf_page h]
  cases hdirection : request.direction with
  | forward => rw [if_neg (by rw [reverse_page h, hdirection]; simp)]
  | backward => rw [if_pos (by rw [reverse_page h, hdirection])]

end Arguments

/-! ## Pages -/

section Pages

variable {logs : JournalLogs} {ctl : Journalctl} {print : JournalRecord → Bytes}
  {matching : List Argument → List JournalRecord} {units : Option (List String)}
  {patterns : List Argument} {request : JournalQuery} {completionTimeout : Nat}

/-- What the caller of a page has to see to.  The output of a page is within the
limits. -/
structure Asked (logs : JournalLogs) (ctl : Journalctl) (units : Option (List String))
    (patterns : List Argument) (request : JournalQuery) (completionTimeout : Nat) : Prop where
  timeout : completionTimeout ≠ 0
  positive : 0 < logs.maxRecordBytes ∧ 0 < logs.maxOutputBytes
  named : ∀ patterns ∈ units, patterns ≠ []
  valid : JournalLogs.unitArguments (units.getD []) = .ok patterns
  within : ∀ cursor process,
    ctl.run (pageArguments patterns { request with cursor }) = some process → Within logs process

theorem spawn_eq {args : List Argument} {records : List JournalRecord}
    (hpositive : 0 < logs.maxRecordBytes ∧ 0 < logs.maxOutputBytes)
    (hprinted : ∀ record ∈ records, Printed ctl print record)
    (hwrites : Writes ctl print args records)
    (hwithin : ∀ process, ctl.run args = some process → Within logs process) :
    ∃ output, LogOutput.spawn logs ctl args (some logs.maxOutputBytes) = .ok output ∧
      ∀ cursor, Reads print ⟨output, cursor, args.any isGrep⟩ records := by
  obtain ⟨process, hrun, hstdout, hstatus⟩ := hwrites
  obtain ⟨hlength, hlines⟩ := hwithin process hrun
  rw [hstdout, splitInclusive_printed hprinted] at hlines
  rw [hstdout] at hlength
  have hread := @readLines_eq _ _ 0 _ hlines (by omega) logs.maxOutput_lt
  have hspawn : LogOutput.spawn logs ctl args (some logs.maxOutputBytes) = .ok
      ⟨records.map print, some (checkStatus args process), process.diagnostics,
        process.diagnosticsTruncated⟩ := by
    unfold LogOutput.spawn
    have houtput : some logs.maxOutputBytes ≠ some 0 := by
      intro hzero
      exact absurd (Option.some.inj hzero) (Nat.ne_of_gt hpositive.2)
    refine bind_eq_ok.2 ⟨(), ensure_of ⟨hpositive.1, houtput⟩ _, ?_⟩
    refine bind_eq_ok.2 ⟨process, orError_eq_ok.2 hrun, ?_⟩
    rw [hstdout, splitInclusive_printed hprinted, hread]
    rfl
  refine ⟨_, hspawn, fun cursor => ⟨rfl, _, rfl, ?_⟩⟩
  unfold checkStatus
  obtain hzero | ⟨hgrep, _, hone, hquiet⟩ := hstatus
  · exact .inl (ensure_of hzero _)
  · refine .inr ⟨hgrep, _, ensure_of_not (by rw [hone]; decide) _, ?_⟩
    simp [JournalStream.endsSearch, hone, hquiet]

theorem Writes.length_le {args : List Argument} {records : List JournalRecord}
    (h : Writes ctl print args records) (hprinted : ∀ record ∈ records, Printed ctl print record)
    (hwithin : ∀ process, ctl.run args = some process → Within logs process) :
    2 * records.length ≤ logs.maxOutputBytes := by
  obtain ⟨process, hrun, hstdout, _⟩ := h
  have hlength := (hwithin process hrun).1
  rw [hstdout] at hlength
  exact (length_flatten_printed hprinted).trans hlength

/-- The page that a query gives: its records, and how many were there. -/
structure IsPage (result : JournalResult) (limit : Nat) (found : List JournalRecord) : Prop where
  records : result.records = found.take limit
  cursor : result.nextCursor = (found.take limit).getLast?.map JournalRecord.cursor
  more : result.hasMore = decide (limit < found.length)

/-- A query is its stream of records. -/
theorem query_eq {records : List JournalRecord} (h : Asked logs ctl units patterns request completionTimeout)
    (hplain : Plain patterns) (hvalid : request.validate = .ok ())
    (hlines : pageLines request < usizeBound)
    (hprinted : ∀ record ∈ records, Printed ctl print record)
    (hwrites : Writes ctl print (pageArguments patterns request) records) :
    ∃ stream, Reads print stream records ∧ stream.cursor = request.cursor ∧
      (∀ e, stream.collect ctl request.limit [] 0 = .error e →
        logs.query ctl units request completionTimeout = .error e) ∧
      ∀ found stream', stream.collect ctl request.limit [] 0 =
          .ok (found.take request.limit, found.length, stream') →
        stream'.output.task = none →
        ∃ result, logs.query ctl units request completionTimeout = .ok result ∧
          IsPage result request.limit found := by
  have hcommand := command_eq h.named h.valid hvalid hlines
  obtain ⟨output, hspawn, hreads⟩ := spawn_eq h.positive hprinted hwrites (h.within request.cursor)
  rw [grep_page hplain] at hreads
  refine ⟨_, hreads request.cursor, rfl, ?_, ?_⟩
  · intro e hcollect
    unfold JournalLogs.query
    rw [ensure_of h.timeout, ok_bind, hcommand, ok_bind, hspawn, ok_bind]
    simp only
    rw [hcollect]
    rfl
  · intro found stream' hcollect htask
    let result : JournalResult := {
      records := found.take request.limit
      nextCursor := (found.take request.limit).getLast?.map JournalRecord.cursor
      hasMore := request.limit < found.length
      diagnostics := stream'.output.diagnostics
      diagnosticsTruncated := stream'.output.diagnosticsTruncated }
    refine ⟨result, ?_, rfl, rfl, rfl⟩
    unfold JournalLogs.query
    rw [ensure_of h.timeout, ok_bind, hcommand, ok_bind, hspawn, ok_bind]
    simp only
    rw [hcollect, ok_bind]
    simp only [LogOutput.finish, htask]
    rfl

theorem mem_inDirection {direction : Direction} {records : List JournalRecord}
    {record : JournalRecord} : record ∈ inDirection direction records ↔ record ∈ records := by
  cases direction with
  | forward => rfl
  | backward => exact List.mem_reverse

theorem nodup_inDirection (direction : Direction) {records : List JournalRecord}
    (h : (records.map JournalRecord.cursor).Nodup) :
    ((inDirection direction records).map JournalRecord.cursor).Nodup := by
  cases direction with
  | forward => exact h
  | backward =>
    show (records.reverse.map JournalRecord.cursor).Nodup
    rw [List.map_reverse]
    exact List.nodup_reverse.2 h

section Honest

variable (hhonours : Honours ctl print matching) (hplain : Plain patterns)
  (h : Asked logs ctl units patterns request completionTimeout) (hvalid : request.validate = .ok ())

include hhonours

theorem Honours.printed {selection : List Argument} :
    ∀ record ∈ matching selection, Printed ctl print record := by
  intro record hrecord
  exact ⟨hhonours.line selection record hrecord, hhonours.reads selection record hrecord⟩

include hplain h hvalid

/-- The page behind the records that have been read: the cursor is that of the
last one. -/
theorem query_behind {front rest : List JournalRecord}
    (hnodup : ((matching (selection patterns request)).map JournalRecord.cursor).Nodup)
    (hordered : inDirection request.direction (matching (selection patterns request)) = front ++ rest)
    (hcursor : request.cursor = front.getLast?.map JournalRecord.cursor)
    (hlines : pageLines request < usizeBound) :
    ∃ result, logs.query ctl units request completionTimeout = .ok result ∧
      IsPage result request.limit (rest.take (request.limit + 1)) ∧
      2 * (rest.take (request.limit + 1)).length ≤ logs.maxOutputBytes := by
  have hmem : ∀ record ∈ front ++ rest, record ∈ matching (selection patterns request) := by
    intro record hrecord
    rw [← hordered] at hrecord
    exact mem_inDirection.1 hrecord
  have hdistinct := nodup_inDirection request.direction hnodup
  rw [hordered] at hdistinct
  have hwrites := hhonours.page _ _ _ (@linesOf_page request _ hplain)
    (by rw [reverse_page hplain]; cases request.direction <;> simp)
  rw [filter_page hplain, cursorOf_page hplain, shown_page hplain, hordered, hcursor] at hwrites
  have hprinted : ∀ record ∈ front ++ rest, Printed ctl print record :=
    fun record hrecord => hhonours.printed record (hmem record hrecord)
  obtain rfl | ⟨before, last, rfl⟩ := front.eq_nil_or_concat'
  · rw [List.getLast?_nil, Option.map_none] at hcursor hwrites
    have hshown : pageLines request = request.limit + 1 := by
      unfold pageLines
      rw [hcursor]
      rfl
    rw [hshown, startingAt_none, List.nil_append] at hwrites
    have hwrites := hwrites (by simp)
    have hpage : ∀ record ∈ rest.take (request.limit + 1), Printed ctl print record :=
      fun record hrecord => hprinted record (List.mem_of_mem_take hrecord)
    obtain ⟨stream, hreads, hstream, _, hresult⟩ := query_eq h hplain hvalid hlines hpage hwrites
    obtain ⟨stream', hcollect, htask⟩ := @Reads.collect ctl _ _ _ request.limit 0 []
      hreads (hstream.trans hcursor) hpage (Nat.zero_le _)
    rw [List.nil_append, Nat.zero_add] at hcollect
    obtain ⟨result, hquery, hispage⟩ := hresult _ stream' hcollect htask
    exact ⟨result, hquery, hispage, hwrites.length_le hpage (h.within request.cursor)⟩
  · rw [List.getLast?_concat, Option.map_some] at hcursor hwrites
    have hshown : pageLines request = request.limit + 1 + 1 := by
      unfold pageLines
      rw [hcursor]
      rfl
    rw [List.append_assoc, List.singleton_append] at hdistinct hwrites
    rw [hshown, startingAt_append hdistinct, List.take_succ_cons] at hwrites
    have hpage : ∀ record ∈ last :: rest.take (request.limit + 1), Printed ctl print record := by
      intro record hrecord
      apply hprinted
      cases hrecord with
      | head => simp
      | tail _ hrecord => exact List.mem_append_right _ (List.mem_of_mem_take hrecord)
    have hwrites := hwrites (by
      intro cursor hanchor
      cases hanchor
      exact ⟨last, hmem last (by simp), rfl⟩)
    have hlength := hwrites.length_le hpage (h.within request.cursor)
    rw [List.length_cons] at hlength
    obtain ⟨stream, hreads, hstream, _, hresult⟩ := query_eq h hplain hvalid hlines hpage hwrites
    obtain ⟨stream', hcollect, htask⟩ :=
      @Reads.collect_anchor ctl _ _ _ _ request.limit hreads (hstream.trans hcursor) hpage
    obtain ⟨result, hquery, hispage⟩ := hresult _ stream' hcollect htask
    exact ⟨result, hquery, hispage, by omega⟩

end Honest

/-! ## All pages -/

theorem validValue_cursor {record : JournalRecord} (h : Text.trim record.cursor.toList ≠ []) :
    JournalQuery.validValue record.cursor = true := by
  have hvalid := record.valid
  unfold validRecord at hvalid
  obtain ⟨_, _, hvalid⟩ := bind_eq_ok.1 hvalid
  obtain ⟨cursor, hcursor, hvalid⟩ := bind_eq_ok.1 hvalid
  obtain ⟨_, hform, _⟩ := bind_eq_ok.1 hvalid
  have heq : record.cursor = cursor := by
    unfold JournalRecord.cursor
    rw [orError_eq_ok.1 hcursor]
    rfl
  unfold JournalQuery.validValue
  rw [decide_eq_true h, heq, (ensure_eq_ok.1 hform).2]
  rfl

/-- A valid request remains valid with a valid cursor. -/
theorem validate_cursor {cursor : String} (hvalid : request.validate = .ok ())
    (hsince : request.since = none) (hcursor : JournalQuery.validValue cursor = true) :
    ({ request with cursor := some cursor } : JournalQuery).validate = .ok () := by
  unfold JournalQuery.validate at *
  obtain ⟨_, hoptions, _⟩ := bind_eq_ok.1 hvalid
  rw [ensure_eq_ok] at hoptions
  rw [ensure_of, ok_bind, ensure_of (.inr hsince)]
  intro option hoption
  unfold JournalQuery.options at *
  rw [List.mem_filterMap] at hoption
  obtain ⟨pair, hpair, hoption⟩ := hoption
  cases hpair with
  | head =>
    cases hoption
    exact hcursor
  | tail _ hpair =>
    apply hoptions
    rw [List.mem_filterMap]
    exact ⟨pair, List.mem_cons_of_mem _ hpair, hoption⟩

theorem Asked.withCursor (h : Asked logs ctl units patterns request completionTimeout)
    (cursor : Option String) :
    Asked logs ctl units patterns { request with cursor } completionTimeout :=
  ⟨h.timeout, h.positive, h.named, h.valid, h.within⟩

/-- From a cursor on, the pages are the records behind it. -/
theorem readAll_behind (hhonours : Honours ctl print matching) (hplain : Plain patterns)
    (h : Asked logs ctl units patterns request completionTimeout)
    (hvalid : request.validate = .ok ()) (hsince : request.since = none)
    (hlimit : 1 ≤ request.limit) (hlines : pageLines request < usizeBound)
    (hnodup : ((matching (selection patterns request)).map JournalRecord.cursor).Nodup)
    {pages : Nat} {front rest : List JournalRecord} (hpages : rest.length < pages)
    (hordered : inDirection request.direction (matching (selection patterns request)) = front ++ rest)
    (hcursor : request.cursor = front.getLast?.map JournalRecord.cursor) :
    logs.readAll ctl units completionTimeout pages request = .ok rest := by
  induction pages generalizing request front rest with
  | zero => omega
  | succ pages ih =>
    obtain ⟨result, hquery, hpage, hlength⟩ :=
      query_behind hhonours hplain h hvalid hnodup hordered hcursor hlines
    have hrecords : result.records = rest.take request.limit := by
      rw [hpage.records, List.take_take, Nat.min_eq_left (Nat.le_succ _)]
    have hmore : result.hasMore = decide (request.limit < rest.length) := by
      rw [hpage.more, List.length_take]
      congr 1
      rw [eq_iff_iff]
      omega
    rw [JournalLogs.readAll, hquery, ok_bind, hmore]
    by_cases hlast : rest.length ≤ request.limit
    · rw [if_neg (by simpa using hlast), hrecords, List.take_of_length_le hlast]
      rfl
    · -- the next page begins behind the last record of this one
      rw [if_pos (by simpa using hlast)]
      obtain ⟨before, last, hsplit⟩ : ∃ before last, rest.take request.limit = before ++ [last] := by
        obtain hnil | hconcat := (rest.take request.limit).eq_nil_or_concat'
        · rw [List.take_eq_nil_iff] at hnil
          obtain hzero | rfl := hnil
          · omega
          · exact absurd (Nat.zero_le _) hlast
        · exact hconcat
      have hnext : result.nextCursor = some last.cursor := by
        rw [hpage.cursor, List.take_take, Nat.min_eq_left (Nat.le_succ _), hsplit,
          List.getLast?_concat]
        rfl
      have hlastMem : last ∈ matching (selection patterns request) := by
        rw [← @mem_inDirection request.direction, hordered]
        apply List.mem_append_right
        apply List.mem_of_mem_take (i := request.limit)
        rw [hsplit]
        exact List.mem_append_right _ List.mem_cons_self
      have hvalid' := validate_cursor hvalid hsince
        (validValue_cursor (hhonours.cursors _ last hlastMem))
      have hbound := logs.maxOutput_lt
      rw [List.length_take] at hlength
      have hlines' : pageLines { request with cursor := some last.cursor } < usizeBound := by
        show request.limit + (1 + 1) < usizeBound
        omega
      have hlength' : (rest.drop request.limit).length < pages := by
        rw [List.length_drop]
        omega
      have hordered' : inDirection request.direction (matching (selection patterns request)) =
          (front ++ rest.take request.limit) ++ rest.drop request.limit := by
        rw [List.append_assoc, List.take_append_drop]
        exact hordered
      have hrest := ih (h.withCursor (some last.cursor)) hvalid' hsince hlimit hlines' hnodup hlength'
        hordered' (by rw [hsplit, ← List.append_assoc, List.getLast?_concat]; rfl)
      rw [hnext, hrest, ok_bind, hrecords]
      show Except.ok (rest.take request.limit ++ rest.drop request.limit) = _
      rw [List.take_append_drop]

/-- A cursor that no matching record has is an error. -/
theorem query_vanished (hhonours : Honours ctl print matching) (hplain : Plain patterns)
    (h : Asked logs ctl units patterns request completionTimeout)
    (hvalid : request.validate = .ok ()) (hlines : pageLines request < usizeBound) {cursor : String}
    (hcursor : request.cursor = some cursor)
    (hvanished : ∀ record ∈ matching (selection patterns request), record.cursor ≠ cursor) :
    logs.query ctl units request completionTimeout = fail (.cursor cursor) := by
  have hpage := hhonours.vanished (pageArguments patterns request) cursor
    ((cursorOf_page hplain).trans hcursor)
  rw [filter_page hplain] at hpage
  obtain ⟨others, hothers, hwrites⟩ := hpage hvanished
  have hprinted : ∀ record ∈ others, Printed ctl print record :=
    fun record hrecord => hhonours.printed record (hothers record hrecord)
  obtain ⟨stream, hreads, hstream, herror, _⟩ := query_eq h hplain hvalid hlines hprinted hwrites
  apply herror
  apply collect_error
  exact hreads.nextRecord_vanished (hstream.trans hcursor) hprinted
    fun record hrecord => hvanished record (hothers record hrecord)

/-- A page of which the number of lines is no `usize` is refused. -/
theorem query_too_large (h : Asked logs ctl units patterns request completionTimeout)
    (hvalid : request.validate = .ok ()) (hlines : usizeBound ≤ pageLines request) :
    logs.query ctl units request completionTimeout =
      fail (.message "journal limit is too large") := by
  have hcount : JournalLogs.lineCount request = fail (.message "journal limit is too large") := by
    unfold JournalLogs.lineCount
    show (ensure (pageLines request < usizeBound) _ >>= _) = _
    rw [ensure_of_not (Nat.not_lt.2 hlines), fail_bind]
  have hcommand : JournalLogs.command units request false =
      fail (.message "journal limit is too large") := by
    unfold JournalLogs.command
    rw [hvalid, ok_bind, ensure_of h.named, ok_bind, ensure_of (.inl rfl), ok_bind, h.valid, ok_bind,
      hcount]
    rfl
  unfold JournalLogs.query
  rw [ensure_of h.timeout, ok_bind, hcommand, fail_bind]

/-- Following the cursors reads every matching record once, in the order of the
direction, a vanished anchor is an error, and so is a limit that is too large. -/
theorem journal_pages_complete (hhonours : Honours ctl print matching)
    (h : Asked logs ctl units patterns request completionTimeout)
    (hvalid : request.validate = .ok ()) (hsince : request.since = none)
    (hlimit : 1 ≤ request.limit)
    (hnodup : ((matching (selection patterns request)).map JournalRecord.cursor).Nodup) :
    (request.cursor = none → request.limit + 1 < usizeBound →
      ∀ pages, (matching (selection patterns request)).length < pages →
        logs.readAll ctl units completionTimeout pages request =
          .ok (inDirection request.direction (matching (selection patterns request)))) ∧
    (∀ cursor, request.cursor = some cursor → request.limit + 2 < usizeBound →
      (∀ record ∈ matching (selection patterns request), record.cursor ≠ cursor) →
        logs.query ctl units request completionTimeout = fail (.cursor cursor)) ∧
    (usizeBound ≤ pageLines request → logs.query ctl units request completionTimeout =
      fail (.message "journal limit is too large")) := by
  have hplain := plain_of_units (unitArguments_units h.valid)
  refine ⟨?_, ?_, query_too_large h hvalid⟩
  · intro hcursor hbound pages hpages
    apply readAll_behind hhonours hplain h hvalid hsince hlimit _ hnodup _ (List.nil_append _).symm
    · exact hcursor
    · unfold pageLines
      rw [hcursor]
      exact hbound
    · cases request.direction with
      | forward => exact hpages
      | backward =>
        show (matching (selection patterns request)).reverse.length < pages
        rw [List.length_reverse]
        exact hpages
  · intro cursor hcursor hbound hvanished
    apply query_vanished hhonours hplain h hvalid _ hcursor hvanished
    unfold pageLines
    rw [hcursor]
    exact hbound

end Pages

/-! ## A journal of two records -/

def firstRecord : JournalRecord where
  fields := [("__CURSOR", .string "a"), ("__REALTIME_TIMESTAMP", .string "1")]
  valid := by rfl

def secondRecord : JournalRecord where
  fields := [("__CURSOR", .string "b"), ("__REALTIME_TIMESTAMP", .string "2")]
  valid := by rfl

def twoRecords : List JournalRecord := [firstRecord, secondRecord]

/-- The line of a record in the output. -/
def printJson (record : JournalRecord) : Bytes :=
  utf8 (Json.object record.fields).chars ++ [newline]

def twoRecordsCtl : Journalctl where
  run args := some {
    stdout := ((shown args (((linesOf args).map Prod.snd).getD 0) twoRecords).map printJson).flatten
    returncode := 0
    diagnostics := []
    diagnosticsTruncated := false }
  fromSlice line := (twoRecords.find? fun record => printJson record = line).map JournalRecord.fields

theorem mem_shown {args : List Argument} {count : Nat} {records : List JournalRecord}
    {record : JournalRecord} (h : record ∈ shown args count records) : record ∈ records :=
  mem_inDirection.1 ((List.dropWhile_suffix _).subset (List.mem_of_mem_take h))

theorem honours_twoRecords : Honours twoRecordsCtl printJson fun _ => twoRecords where
  line := by
    intro _ record hrecord
    refine ⟨utf8 (Json.object record.fields).chars, rfl, ?_⟩
    simp only [twoRecords, List.mem_cons, List.not_mem_nil, or_false] at hrecord
    rcases hrecord with rfl | rfl
    · decide
    · decide
  reads := by
    intro _ record hrecord
    simp only [twoRecords, List.mem_cons, List.not_mem_nil, or_false] at hrecord
    rcases hrecord with rfl | rfl
    · rfl
    · rfl
  cursors := by
    intro _ record hrecord
    simp only [twoRecords, List.mem_cons, List.not_mem_nil, or_false] at hrecord
    rcases hrecord with rfl | rfl
    · decide
    · decide
  page := by
    intro args oldest count hlines _ _
    refine ⟨_, rfl, ?_, .inl rfl⟩
    rw [hlines]
    rfl
  vanished := by
    intro args _ _ _
    exact ⟨_, fun record hrecord => mem_shown hrecord, _, rfl, rfl, .inl rfl⟩

theorem length_printJson {record : JournalRecord} (h : record ∈ twoRecords) :
    (printJson record).length ≤ 64 := by
  simp only [twoRecords, List.mem_cons, List.not_mem_nil, or_false] at h
  rcases h with rfl | rfl
  · decide
  · decide

theorem within_twoRecords {args : List Argument} {process : Process}
    (h : twoRecordsCtl.run args = some process) : Within {} process := by
  cases h
  have hlines : ∀ records : List JournalRecord, (∀ record ∈ records, record ∈ twoRecords) →
      (records.map printJson).flatten.length ≤ 64 * records.length ∧
        ∀ line ∈ splitInclusive (· = newline) (records.map printJson).flatten,
          line.length ≤ 64 := by
    intro records hrecords
    constructor
    · induction records with
      | nil => exact le_rfl
      | cons record rest ih =>
        have hrest := ih fun other hother => hrecords other (List.mem_cons_of_mem record hother)
        have hline := length_printJson (hrecords record List.mem_cons_self)
        rw [List.map_cons, List.flatten_cons, List.length_append, List.length_cons]
        omega
    · rw [@splitInclusive_printed twoRecordsCtl _ _ fun record hrecord =>
        @Honours.printed _ _ _ honours_twoRecords [] record (hrecords record hrecord)]
      intro line hline
      obtain ⟨record, hrecord, rfl⟩ := List.mem_map.1 hline
      exact length_printJson (hrecords record hrecord)
  have hcount : (shown args (((linesOf args).map Prod.snd).getD 0) twoRecords).length ≤ 2 := by
    unfold shown
    rw [List.length_take]
    refine (Nat.min_le_right _ _).trans ((List.dropWhile_suffix _).length_le.trans ?_)
    split <;> exact le_rfl
  obtain ⟨hlength, hbounds⟩ := hlines _ fun record hrecord => @mem_shown args
    (((linesOf args).map Prod.snd).getD 0) _ _ hrecord
  refine ⟨?_, fun line hline => (hbounds line hline).trans (by decide)⟩
  show _ ≤ 64 * 1024 * 1024
  refine hlength.trans ?_
  omega

/-- A request for pages of this many records, oldest first. -/
def pagesOf (limit : Nat) : JournalQuery := { limit, direction := .forward }

theorem asked_twoRecords (limit : Nat) :
    Asked {} twoRecordsCtl none [] (pagesOf limit) 1 where
  timeout := by decide
  positive := by decide
  named := by simp
  valid := rfl
  within := fun _ _ hrun => within_twoRecords hrun

/-- Pages of one record, a page behind a cursor that is gone, and a page that is too long. -/
theorem journal_pages_complete_sample :
    JournalLogs.readAll {} twoRecordsCtl none 1 3 (pagesOf 1) = .ok twoRecords ∧
      JournalLogs.query {} twoRecordsCtl none { pagesOf 1 with cursor := some "c" } 1 =
        fail (.cursor "c") ∧
      JournalLogs.query {} twoRecordsCtl none { pagesOf (usizeBound - 2) with cursor := some "a" } 1 =
        fail (.message "journal limit is too large") := by
  refine ⟨?_, ?_, ?_⟩
  · exact (journal_pages_complete honours_twoRecords (asked_twoRecords 1) rfl rfl (by decide)
      (by decide)).1 rfl (by decide) 3 (by decide)
  · exact (journal_pages_complete honours_twoRecords ((asked_twoRecords 1).withCursor (some "c")) rfl
      rfl (by decide) (by decide)).2.1 "c" rfl (by decide) (by decide)
  · exact (journal_pages_complete honours_twoRecords
      ((asked_twoRecords (usizeBound - 2)).withCursor (some "a")) rfl rfl (by decide) (by decide)).2.2
      (by decide)

/-- With the greatest limit no page is read. -/
theorem journal_limit_too_large :
    Honours twoRecordsCtl printJson (fun _ => twoRecords) ∧
    Asked {} twoRecordsCtl none [] (pagesOf (usizeBound - 1)) 1 ∧
    (pagesOf (usizeBound - 1)).validate = .ok () ∧ (pagesOf (usizeBound - 1)).since = none ∧
    (pagesOf (usizeBound - 1)).cursor = none ∧ 1 ≤ (pagesOf (usizeBound - 1)).limit ∧
    (twoRecords.map JournalRecord.cursor).Nodup ∧
    ∀ pages, JournalLogs.readAll {} twoRecordsCtl none 1 pages (pagesOf (usizeBound - 1)) ≠
      .ok twoRecords := by
  refine ⟨honours_twoRecords, asked_twoRecords _, rfl, rfl, rfl, by decide, by decide, ?_⟩
  intro pages
  have hquery : JournalLogs.query {} twoRecordsCtl none (pagesOf (usizeBound - 1)) 1 =
      fail (.message "journal limit is too large") := by
    rfl
  cases pages with
  | zero => exact fail_ne_ok
  | succ pages =>
    rw [JournalLogs.readAll, hquery]
    exact fail_ne_ok

end DstServer.Logs
