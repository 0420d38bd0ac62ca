import DstServer.Process.Output

/-!
# The output does not depend on the chunks

`mandatory_append` is the reason: what the beginning of a line has decided,
or what 64 bytes have left undecided, stays so.  `Tracks` relates the loop
to the bytes it has read, and `readOutput_eq` compares it with the
reference, which cuts the whole stream.
-/

namespace DstServer.Process

open Lib

/-! ## Classification of a longer line -/

section Classification

variable {start line more message : Bytes}

theorem isPrefixOf_append (h : start.length ≤ line.length) :
    start.isPrefixOf (line ++ more) = start.isPrefixOf line := by
  rw [Bool.eq_iff_iff, List.isPrefixOf_iff_prefix, List.isPrefixOf_iff_prefix]
  constructor
  · intro hprefix
    exact List.prefix_of_prefix_length_le hprefix (List.prefix_append line more) h
  · intro hprefix
    exact hprefix.trans (List.prefix_append line more)

theorem stripPrefix_append (h : start.length ≤ line.length) :
    stripPrefix start (line ++ more) = (stripPrefix start line).map (· ++ more) := by
  rw [stripPrefix, stripPrefix, isPrefixOf_append h]
  split
  · rw [List.drop_append_of_le_length h, Option.map_some]
  · rfl

theorem length_of_stripPrefix (h : stripPrefix start line = some message) :
    line.length = start.length + message.length := by
  rw [stripPrefix] at h
  split at h
  · rename_i hprefix
    cases h
    have hle := (List.isPrefixOf_iff_prefix.1 hprefix).length_le
    rw [List.length_drop]
    omega
  · cases h

theorem strip_getD_append (h : message ≠ []) :
    (stripPrefix [32] (message ++ more)).getD (message ++ more) =
      (stripPrefix [32] message).getD message ++ more := by
  have hlength : ([32] : Bytes).length ≤ message.length := List.length_pos_iff.2 h
  rw [stripPrefix_append hlength]
  cases stripPrefix [32] message with
  | none => rfl
  | some rest => rfl

theorem length_strip_getD (message : Bytes) :
    message.length ≤ ((stripPrefix [32] message).getD message).length + 1 := by
  cases h : stripPrefix [32] message with
  | none => simp
  | some rest =>
    have hlength := length_of_stripPrefix h
    simp only [List.length_singleton] at hlength
    simp only [Option.getD_some]
    omega

theorem timestamped_eq_some : timestamped line = some message ↔
    ∃ clock stop raw, stripPrefix [91] line = some clock ∧
      (clock.take 32).findIdx? (· = 93) = some stop ∧
        stripPrefix [58] (clock.drop (stop + 1)) = some raw ∧ isClock (clock.take stop) = true ∧
          (stripPrefix [32] raw).getD raw = message := by
  simp only [timestamped, Option.bind_eq_bind, Option.bind_eq_some_iff, Option.pure_def,
    Option.some.injEq]
  constructor
  · rintro ⟨clock, hclock, stop, hstop, raw, hraw, _, hisClock, hmessage⟩
    exact ⟨clock, stop, raw, hclock, hstop, hraw, by simpa [guard, failure] using hisClock, hmessage⟩
  · rintro ⟨clock, stop, raw, hclock, hstop, hraw, hisClock, hmessage⟩
    exact ⟨clock, hclock, stop, hstop, raw, hraw, (), by simp [guard, hisClock], hmessage⟩

/-- What comes after a timestamp and a byte of the message does not change it. -/
theorem timestamped_short (h : timestamped line = some message) (hne : message ≠ []) :
    timestamped (line ++ more) = some (message ++ more) := by
  obtain ⟨clock, stop, raw, hclock, hstop, hraw, hisClock, rfl⟩ := timestamped_eq_some.1 h
  have hlineLength := length_of_stripPrefix hclock
  have hrawLength := length_of_stripPrefix hraw
  simp only [List.length_singleton, List.length_drop] at hlineLength hrawLength
  have hrawNe : raw ≠ [] := by
    rintro rfl
    exact hne rfl
  refine timestamped_eq_some.2 ⟨clock ++ more, stop, raw ++ more, ?_, ?_, ?_, ?_, strip_getD_append hrawNe⟩
  · rw [stripPrefix_append (by simp; omega), hclock, Option.map_some]
  · rw [List.take_append, List.findIdx?_append, hstop, Option.some_or]
  · rw [List.drop_append_of_le_length (by omega), stripPrefix_append (by simp; omega), hraw,
      Option.map_some]
  · rw [List.take_append_of_le_length (by omega), hisClock]

/-- Nothing in a line of 64 bytes or more changes its timestamp. -/
theorem timestamped_long (more : Bytes) (h : 64 ≤ line.length) :
    timestamped (line ++ more) = (timestamped line).map (· ++ more) ∧
      ∀ message ∈ timestamped line, 12 ≤ message.length := by
  constructor
  · rw [timestamped, stripPrefix_append (by simp; omega), timestamped]
    cases hclock : stripPrefix [91] line with
    | none => rfl
    | some clock =>
      have hlineLength := length_of_stripPrefix hclock
      simp only [List.length_singleton] at hlineLength
      simp only [Option.map_some, Option.bind_eq_bind, Option.bind_some]
      rw [List.take_append_of_le_length (by omega)]
      cases hstop : (clock.take 32).findIdx? (· = 93) with
      | none => rfl
      | some stop =>
        have hstopLt := (List.findIdx?_eq_some_iff_getElem.1 hstop).1
        simp only [List.length_take] at hstopLt
        simp only [Option.bind_some]
        rw [List.drop_append_of_le_length (by omega),
          stripPrefix_append (by simp; omega), List.take_append_of_le_length (by omega)]
        cases hraw : stripPrefix [58] (clock.drop (stop + 1)) with
        | none => rfl
        | some raw =>
          have hrawLength := length_of_stripPrefix hraw
          simp only [List.length_singleton, List.length_drop] at hrawLength
          have hrawNe : raw ≠ [] := List.ne_nil_of_length_pos (by omega)
          cases isClock (clock.take stop) with
          | false => rfl
          | true =>
            simp only [Option.map_some, Option.bind_some, guard, if_true, Option.pure_def,
              strip_getD_append hrawNe]
  · intro message hmessage
    obtain ⟨clock, stop, raw, hclock, hstop, hraw, _, rfl⟩ := timestamped_eq_some.1 hmessage
    have hlineLength := length_of_stripPrefix hclock
    have hrawLength := length_of_stripPrefix hraw
    have hstopLt := (List.findIdx?_eq_some_iff_getElem.1 hstop).1
    have hmessageLength := length_strip_getD raw
    simp only [List.length_singleton, List.length_drop, List.length_take] at hlineLength hrawLength hstopLt
    omega

theorem mandatoryStarts_length : ∀ start ∈ mandatoryStarts, 0 < start.length ∧ start.length ≤ 12 := by
  decide +kernel

theorem mandatoryStarts_open : ∀ start ∈ mandatoryStarts, start.head? ≠ some 91 := by decide +kernel

/-- A line without a timestamp and a start stays so when its timestamp begins. -/
theorem not_isPrefixOf_open (hstart : start ∈ mandatoryStarts) (line : Bytes) :
    start.isPrefixOf (91 :: line) = false := by
  rw [← Bool.not_eq_true, List.isPrefixOf_iff_prefix]
  intro hprefix
  obtain ⟨hpos, _⟩ := mandatoryStarts_length start hstart
  cases start with
  | nil => simp at hpos
  | cons first rest =>
    obtain ⟨rfl, _⟩ := List.cons_prefix_cons.1 hprefix
    exact mandatoryStarts_open _ hstart rfl

theorem starts_append (hstart : start ∈ mandatoryStarts)
    (h : 64 ≤ line.length ∨ start.isPrefixOf (nativeMessage line) = true) :
    start.isPrefixOf (nativeMessage (line ++ more)) = start.isPrefixOf (nativeMessage line) := by
  obtain ⟨hpos, hle⟩ := mandatoryStarts_length start hstart
  rcases h with hlong | hprefix
  · obtain ⟨hmore, hmessage⟩ := timestamped_long more hlong
    rw [nativeMessage, nativeMessage, hmore]
    cases hline : timestamped line with
    | none => exact isPrefixOf_append (by omega)
    | some message =>
      have hlength := hmessage message hline
      exact isPrefixOf_append (by omega)
  · rw [nativeMessage] at hprefix
    have hlength := (List.isPrefixOf_iff_prefix.1 hprefix).length_le
    rw [nativeMessage, nativeMessage]
    cases hline : timestamped line with
    | none =>
      rw [hline] at hprefix hlength
      have hmore : timestamped (line ++ more) = none := by
        refine Option.eq_none_iff_forall_not_mem.2 fun message hmessage => ?_
        obtain ⟨clock, _, _, hclock, _⟩ := timestamped_eq_some.1 hmessage
        rw [stripPrefix_append (by simp only [Option.getD_none] at hlength; simp; omega)] at hclock
        obtain ⟨rest, hrest, _⟩ := Option.map_eq_some_iff.1 hclock
        rw [stripPrefix] at hrest
        split at hrest
        · rename_i hopen
          obtain ⟨tail, rfl⟩ := List.isPrefixOf_iff_prefix.1 hopen
          rw [Option.getD_none, List.singleton_append, not_isPrefixOf_open hstart] at hprefix
          cases hprefix
        · cases hrest
      rw [hmore]
      exact isPrefixOf_append hlength
    | some message =>
      rw [hline, Option.getD_some] at hprefix hlength
      have hne : message ≠ [] := List.ne_nil_of_length_pos (by omega)
      rw [timestamped_short hline hne]
      exact isPrefixOf_append hlength

/-- What has been decided, or what 64 bytes have left undecided, stays so. -/
theorem mandatory_append {stream : StreamKind} (more : Bytes)
    (h : 64 ≤ line.length ∨ stream.mandatory line = true) :
    stream.mandatory (line ++ more) = stream.mandatory line := by
  rcases h with hlong | hmandatory
  · have hany : (mandatoryStarts.any fun start => start.isPrefixOf (nativeMessage (line ++ more))) =
        mandatoryStarts.any fun start => start.isPrefixOf (nativeMessage line) := by
      rw [Bool.eq_iff_iff, List.any_eq_true, List.any_eq_true]
      refine exists_congr fun start => and_congr_right fun hstart => ?_
      rw [starts_append hstart (Or.inl hlong)]
    rw [StreamKind.mandatory, hany, StreamKind.mandatory]
  · rw [hmandatory]
    rw [StreamKind.mandatory, Bool.or_eq_true, Bool.and_eq_true, List.any_eq_true] at hmandatory ⊢
    rcases hmandatory with hprotocol | ⟨hstdout, start, hstart, hprefix⟩
    · exact Or.inl hprotocol
    · refine Or.inr ⟨hstdout, start, hstart, ?_⟩
      rw [starts_append hstart (Or.inr hprefix)]
      exact hprefix

end Classification

/-! ## The loop -/

section Loop

variable {stream : StreamKind} {reader : Reader} {own log : List Effect} {bytes rest part : Bytes}

/-- The loop in a line of which it has read the beginning `rest`, with what it has done for it. -/
structure OnLine (stream : StreamKind) (rest : Bytes) (reader : Reader) (own : List Effect) : Prop where
  /-- The line is within its limit, and it is classified. -/
  within : reader.oversized = false → reader.line = rest ∧ reader.mandatory = stream.mandatory rest ∧
    rest.length ≤ limit (stream.mandatory rest) ∧ own = []
  /-- The line is beyond its limit, and its classification is decided. -/
  beyond : reader.oversized = true → limit (stream.mandatory rest) < rest.length ∧
    (64 ≤ rest.length ∨ stream.mandatory rest = true) ∧
      own = oversizedEffects stream (stream.mandatory rest)

theorem onLine_start (stream : StreamKind) :
    OnLine stream [] { mandatory := stream.protocol } [] := by
  refine ⟨fun _ => ⟨rfl, ?_, Nat.zero_le _, rfl⟩, by simp⟩
  cases stream <;> decide +kernel

theorem limit_false : limit false = 1048576 := rfl

theorem withinLimit_iff {mandatory : Bool} {line : Bytes} :
    WithinLimit mandatory line ↔ line.length ≤ limit mandatory := by
  cases mandatory <;> simp [WithinLimit, limit]

/-- What the reader does for a line beyond its limit is what it owes. -/
theorem oversizedEffects_eq (stream : StreamKind) (mandatory : Bool) :
    oversizedEffects stream mandatory = tooLong stream mandatory := by
  cases mandatory with
  | true => rfl
  | false => rfl

/-- The line grows by a part of a chunk. -/
theorem extend_onLine (h : OnLine stream rest reader own) (hpart : part.length ≤ chunkBytes) :
    OnLine stream (rest ++ part) (reader.extend stream part).1
      (own ++ (reader.extend stream part).2) := by
  obtain ⟨hwithin, hbeyond⟩ := h
  rw [chunkBytes] at hpart
  cases hoversized : reader.oversized with
  | true =>
    obtain ⟨hlong, hdecided, rfl⟩ := hbeyond hoversized
    have hsame := mandatory_append part hdecided
    rw [Reader.extend, if_pos hoversized, List.append_nil]
    refine ⟨fun hnot => (nomatch hnot.symm.trans hoversized), fun _ => ?_⟩
    rw [hsame, List.length_append]
    exact ⟨by omega, hdecided.imp (fun hlong => by omega) id, rfl⟩
  | false =>
    obtain ⟨hline, hmandatory, hlength, rfl⟩ := hwithin hoversized
    rw [Reader.extend, if_neg (by simp [hoversized]), hline, hmandatory, List.nil_append]
    by_cases hlong : limit (stream.mandatory rest) < rest.length + part.length
    · have hdecided : 64 ≤ rest.length ∨ stream.mandatory rest = true := by
        cases hrest : stream.mandatory rest with
        | true => exact Or.inr rfl
        | false =>
          rw [hrest, limit_false] at hlong
          exact Or.inl (by omega)
      have hsame := mandatory_append part hdecided
      rw [if_pos hlong]
      refine ⟨by simp, fun _ => ?_⟩
      rw [hsame, List.length_append]
      exact ⟨hlong, hdecided.imp (fun hlong => by omega) id, rfl⟩
    · rw [if_neg hlong]
      cases hnow : stream.mandatory (rest ++ part) with
      | true =>
        by_cases hprotocol : maxProtocolLineBytes < (rest ++ part).length
        · rw [if_pos ⟨hnow, hprotocol⟩]
          refine ⟨by simp, fun _ => ?_⟩
          rw [hnow]
          exact ⟨hprotocol, Or.inr rfl, rfl⟩
        · rw [if_neg fun hboth => hprotocol hboth.2]
          refine ⟨fun _ => ⟨rfl, rfl, ?_, rfl⟩, fun hyes => (nomatch hyes.symm.trans hoversized)⟩
          rw [hnow]
          exact Nat.le_of_not_lt hprotocol
      | false =>
        rw [if_neg fun hboth => absurd hboth.1 (by rw [hnow]; decide)]
        refine ⟨fun _ => ⟨rfl, rfl, ?_, rfl⟩, fun hyes => (nomatch hyes.symm.trans hoversized)⟩
        have hrest : stream.mandatory rest = false := by
          by_contra htrue
          have hsame := mandatory_append part (Or.inr (Bool.not_eq_false _ ▸ htrue))
          rw [hnow] at hsame
          exact htrue hsame.symm
        rw [hnow]
        rw [hrest] at hlong
        rw [List.length_append]
        exact Nat.le_of_not_lt hlong

/-- A line that ends in this part. -/
theorem take_whole (h : OnLine stream rest reader own) (hpart : part.length ≤ chunkBytes)
    (hlast : part.getLast? = some newline) :
    (reader.take stream part).1 = { mandatory := stream.protocol } ∧
      own ++ (reader.take stream part).2 = lineEffects stream (rest ++ part) := by
  obtain ⟨hwithin, hbeyond⟩ := extend_onLine h hpart
  rw [Reader.take]
  dsimp only
  rw [if_pos hlast]
  refine ⟨rfl, ?_⟩
  rw [← List.append_assoc]
  cases hoversized : (reader.extend stream part).1.oversized with
  | true =>
    obtain ⟨hlong, _, heffects⟩ := hbeyond hoversized
    have hbeyond : ¬WithinLimit (stream.mandatory (rest ++ part)) (rest ++ part) := by
      rw [withinLimit_iff]
      omega
    rw [heffects, lineEffects, if_neg hbeyond, if_pos rfl, List.append_nil, oversizedEffects_eq]
  | false =>
    obtain ⟨hline, hmandatory, hlength, heffects⟩ := hwithin hoversized
    rw [heffects, lineEffects, if_pos (withinLimit_iff.2 hlength), if_neg Bool.false_ne_true, hline,
      hmandatory, List.nil_append]

/-- A line that does not end in this part. -/
theorem take_clear (h : OnLine stream rest reader own) (hpart : part.length ≤ chunkBytes)
    (hlast : part.getLast? ≠ some newline) :
    OnLine stream (rest ++ part) (reader.take stream part).1 (own ++ (reader.take stream part).2) := by
  rw [Reader.take]
  dsimp only
  rw [if_neg hlast]
  exact extend_onLine h hpart

/-- The loop in the stream: the lines that have ended, and the beginning of the next one. -/
def Tracks (stream : StreamKind) (bytes : Bytes) (reader : Reader) (log : List Effect) : Prop :=
  ∃ (lines : List Bytes) (rest : Bytes) (own : List Effect), bytes = lines.flatten ++ rest ∧
    (∀ line ∈ lines, IsWhole (· = newline) line) ∧ (∀ byte ∈ rest, decide (byte = newline) = false) ∧
      log = lines.flatMap (lineEffects stream) ++ own ∧ OnLine stream rest reader own

theorem tracks_take (h : Tracks stream bytes reader log) (hlength : part.length ≤ chunkBytes)
    (hpart : IsWhole (· = newline) part ∨ part ≠ [] ∧ ∀ byte ∈ part, decide (byte = newline) = false) :
    Tracks stream (bytes ++ part) (reader.take stream part).1 (log ++ (reader.take stream part).2) := by
  obtain ⟨lines, rest, own, rfl, hlines, hrest, rfl, hline⟩ := h
  rcases hpart with hwhole | ⟨hne, hclear⟩
  · obtain ⟨body, last, rfl, hlast, hbody⟩ := hwhole
    have hlast : last = newline := of_decide_eq_true hlast
    obtain ⟨hreader, heffects⟩ := take_whole hline hlength (by rw [List.getLast?_concat, hlast])
    refine ⟨lines ++ [rest ++ (body ++ [last])], [], [], ?_, ?_, by simp, ?_, ?_⟩
    · simp
    · refine List.forall_mem_append.2 ⟨hlines, List.forall_mem_singleton.2 ⟨rest ++ body, last, ?_, ?_, ?_⟩⟩
      · rw [List.append_assoc]
      · exact decide_eq_true hlast
      · exact List.forall_mem_append.2 ⟨hrest, hbody⟩
    · rw [List.append_assoc, heffects, List.flatMap_append, List.flatMap_singleton, List.append_nil]
    · rw [hreader]
      exact onLine_start stream
  · have hlast : part.getLast? ≠ some newline := by
      intro hlast
      have hmem := hclear newline (List.mem_of_getLast? hlast)
      simp at hmem
    refine ⟨lines, rest ++ part, own ++ (reader.take stream part).2, ?_, hlines, ?_, ?_,
      take_clear hline hlength hlast⟩
    · rw [List.append_assoc]
    · exact List.forall_mem_append.2 ⟨hrest, hclear⟩
    · rw [List.append_assoc]

theorem tracks_takeAll (h : Tracks stream bytes reader log) {parts : List Bytes}
    (hlength : ∀ part ∈ parts, part.length ≤ chunkBytes)
    (hparts : ∀ part ∈ parts,
      IsWhole (· = newline) part ∨ part ≠ [] ∧ ∀ byte ∈ part, decide (byte = newline) = false) :
    Tracks stream (bytes ++ parts.flatten) (reader.takeAll stream parts).1
      (log ++ (reader.takeAll stream parts).2) := by
  induction parts generalizing bytes reader log with
  | nil => simpa [Reader.takeAll] using h
  | cons part parts ih =>
    have hfirst := tracks_take h (hlength part List.mem_cons_self) (hparts part List.mem_cons_self)
    have hrest := ih hfirst (fun other hother => hlength other (List.mem_cons_of_mem _ hother))
      fun other hother => hparts other (List.mem_cons_of_mem _ hother)
    rw [List.flatten_cons, ← List.append_assoc, Reader.takeAll]
    dsimp only
    rw [← List.append_assoc]
    exact hrest

theorem tracks_chunk (h : Tracks stream bytes reader log) {chunk : Bytes}
    (hlength : chunk.length ≤ chunkBytes) :
    Tracks stream (bytes ++ chunk) (reader.takeAll stream (splitInclusive (· = newline) chunk)).1
      (log ++ (reader.takeAll stream (splitInclusive (· = newline) chunk)).2) := by
  have hflatten : (splitInclusive (· = newline) chunk).flatten = chunk := flatten_splitInclusive chunk
  have hparts : ∀ part ∈ splitInclusive (· = newline) chunk, part.length ≤ chunkBytes := by
    intro part hpart
    have hsub := (List.sublist_flatten_of_mem hpart).length_le
    rw [hflatten] at hsub
    omega
  have hall := tracks_takeAll h hparts fun part => isPart_of_mem
  rw [hflatten] at hall
  exact hall

theorem getLast?_of_whole {line : Bytes} (h : IsWhole (· = newline) line) :
    line.getLast? = some newline := by
  obtain ⟨body, last, rfl, hlast, _⟩ := h
  rw [List.getLast?_concat, of_decide_eq_true hlast]

/-- The reference at lines that have ended and the beginning of the next one. -/
theorem reference_eq {lines : List Bytes} (hlines : ∀ line ∈ lines, IsWhole (· = newline) line)
    (hrest : ∀ byte ∈ rest, decide (byte = newline) = false) (ending : Ending) :
    reference stream (lines.flatten ++ rest) ending = lines.flatMap (lineEffects stream) ++
      ((if rest = [] then [] else restEffects stream ending rest) ++ endEffects stream ending) := by
  have hwhole : lines.flatMap (fun line => if line.getLast? = some newline then lineEffects stream line
      else restEffects stream ending line) = lines.flatMap (lineEffects stream) := by
    refine List.flatMap_congr fun line hline => ?_
    rw [if_pos (getLast?_of_whole (hlines line hline))]
  rw [reference, splitInclusive_append hlines, List.flatMap_append, hwhole, List.append_assoc]
  by_cases hempty : rest = []
  · rw [hempty, if_pos rfl]
    rfl
  · have hlast : rest.getLast? ≠ some newline := by
      intro hlast
      have hmem := hrest newline (List.mem_of_getLast? hlast)
      simp at hmem
    rw [splitInclusive_of_clear hrest hempty, List.flatMap_singleton, if_neg hlast, if_neg hempty]

theorem finish_eq (h : Tracks stream bytes reader log) (ending : Ending) :
    log ++ reader.finish stream ending = reference stream bytes ending := by
  obtain ⟨lines, rest, own, rfl, hlines, hrest, rfl, hwithin, hbeyond⟩ := h
  rw [reference_eq hlines hrest, List.append_assoc]
  congr 1
  cases hoversized : reader.oversized with
  | true =>
    obtain ⟨hlong, _, rfl⟩ := hbeyond hoversized
    have hne : rest ≠ [] := List.ne_nil_of_length_pos (by omega)
    rw [if_neg hne]
    have hbeyond : ¬WithinLimit (stream.mandatory rest) rest := by
      rw [withinLimit_iff]
      omega
    unfold restEffects
    rw [if_neg hbeyond, oversizedEffects_eq]
    cases ending with
    | eof => simp [Reader.finish, hoversized, endEffects]
    | error message => rfl
  | false =>
    obtain ⟨hline, hmandatory, hlength, rfl⟩ := hwithin hoversized
    unfold restEffects
    rw [if_pos (withinLimit_iff.2 hlength), List.nil_append]
    cases ending with
    | eof =>
      by_cases hempty : rest = []
      · simp [Reader.finish, hline, hempty, endEffects]
      · simp [Reader.finish, hoversized, hline, hmandatory, hempty, endEffects]
    | error message =>
      rw [ite_self]
      rfl

theorem readLoop_eq (h : Tracks stream bytes reader log) (reads : List Read) (ending : Ending) :
    log ++ readLoop stream ending reader reads = reference stream (bytes ++ streamOf reads) ending := by
  induction reads generalizing bytes reader log with
  | nil =>
    rw [streamOf, List.append_nil, readLoop]
    exact finish_eq h ending
  | cons read reads ih =>
    cases read with
    | interrupted => exact ih h
    | bytes chunk _ hfits =>
      rw [streamOf, readLoop, ← List.append_assoc, ← List.append_assoc]
      exact ih (tracks_chunk h hfits)

end Loop

/-- However the stream arrives, the loop does what the reference does with the whole of it, whose
lines are all of the stream. -/
theorem output_framing (stream : StreamKind) (reads : List Read) (ending : Ending) :
    readOutput stream reads ending = reference stream (streamOf reads) ending ∧
      (splitInclusive (· = newline) (streamOf reads)).flatten = streamOf reads := by
  have hstart : Tracks stream [] { mandatory := stream.protocol } [] :=
    ⟨[], [], [], rfl, by simp, by simp, rfl, onLine_start stream⟩
  exact ⟨readLoop_eq hstart reads ending, flatten_splitInclusive _⟩

end DstServer.Process
