import Mathlib

/-!
# Text

The string operations of Rust's `str`, over the list of characters of a
string.

* `isWhitespace`, `trim`, `lines`, `splitOnce`, `splitOnceText` and
  `replace` follow the methods of those names.  `strip` is `trim` for
  another kind of characters.
* `decimal` and `unsigned?` are the text of an unsigned integer and
  `from_str` at a type of that many values.
* `trim_eq_self` is the rule for a text that begins and ends with visible
  characters, and `lines_unlines` the one for a text that was put together
  from lines.
-/

namespace Lib

/-- A string as the list of its characters. -/
abbrev Text : Type := List Char

namespace Text

/-! ## Equality of texts -/

instance lawfulBEq : LawfulBEq (List Char) := inferInstance

instance lawfulBEqOption : LawfulBEq (Option (List Char)) := inferInstance

/-! ## Statements about the characters of a text

A statement about all characters of a text is decided by going through the
text, and not by going through all characters.
-/

instance (priority := 2000) decidableForallMem (text : Text) (p : Char → Prop) [DecidablePred p] :
    Decidable (∀ c ∈ text, p c) := List.decidableBAll p text

instance (priority := 2000) decidableForallMemOption (c? : Option Char) (p : Char → Prop)
    [DecidablePred p] : Decidable (∀ c ∈ c?, p c) := Option.decidableForallMem c?

/-! ## Whitespace and control characters -/

/-- `char::is_control`: the code points of the category `Cc`. -/
def isControl (c : Char) : Bool := c.toNat < 32 || (127 ≤ c.toNat && c.toNat < 160)

/-- `char::is_whitespace`: the Unicode property `White_Space`. -/
def isWhitespace (c : Char) : Bool :=
  let n := c.toNat
  (9 ≤ n && n ≤ 13) || n = 32 || n = 133 || n = 160 || n = 5760 || (8192 ≤ n && n ≤ 8202) ||
    n = 8232 || n = 8233 || n = 8239 || n = 8287 || n = 12288

/-- `str::trim`. -/
def trim (text : Text) : Text := (text.dropWhile isWhitespace).rdropWhile isWhitespace

/-- A text that is empty, or begins and ends with a character that is no
whitespace. -/
def Trimmed (text : Text) : Prop :=
  (∀ c ∈ text.head?, isWhitespace c = false) ∧ ∀ c ∈ text.getLast?, isWhitespace c = false

instance (text : Text) : Decidable (Trimmed text) := by
  unfold Trimmed
  infer_instance

theorem trim_eq_self {text : Text} (h : Trimmed text) : trim text = text := by
  have hstart : text.dropWhile isWhitespace = text := by
    cases text with
    | nil => rfl
    | cons c rest => rw [List.dropWhile_cons_of_neg (by simp [h.1 c rfl])]
  rw [trim, hstart, List.rdropWhile_eq_self_iff]
  intro hne
  simp [h.2 _ (List.getLast?_eq_some_getLast hne)]

@[simp] theorem trim_nil : trim [] = [] := rfl

/-- A text with a visible character at both ends is trimmed. -/
theorem Trimmed.of_ends {c d : Char} {text : Text} (hc : isWhitespace c = false)
    (hd : isWhitespace d = false) : Trimmed (c :: text ++ [d]) := by
  constructor
  · intro x hx
    rw [List.cons_append, List.head?_cons, Option.mem_some] at hx
    rw [← hx]
    exact hc
  · intro x hx
    rw [List.getLast?_concat, Option.mem_some] at hx
    rw [← hx]
    exact hd

/-- A text of visible characters is trimmed. -/
theorem Trimmed.of_forall {text : Text} (h : ∀ c ∈ text, isWhitespace c = false) :
    Trimmed text :=
  ⟨fun c hc => h c (List.mem_of_head? hc), fun c hc => h c (List.mem_of_getLast? hc)⟩

theorem trimmed_trim (text : Text) : Trimmed (trim text) := by
  constructor
  · intro c hc
    have hne : text.dropWhile isWhitespace ≠ [] := by
      intro hnil
      rw [trim, hnil] at hc
      simp [List.rdropWhile] at hc
    have hc : c ∈ (text.dropWhile isWhitespace).head? := by
      obtain ⟨tail, happend⟩ := List.rdropWhile_prefix isWhitespace (text.dropWhile isWhitespace)
      have hstart : (trim text ++ tail).head? = (trim text).head?.or tail.head? := List.head?_append
      rw [trim, happend, ← trim] at hstart
      rw [hstart, hc, Option.some_or]
      rfl
    have hhead := List.head_dropWhile_not isWhitespace hne
    rw [List.head?_eq_some_head hne, Option.mem_some] at hc
    rw [← hc]
    exact hhead
  · intro c hc
    have hne : trim text ≠ [] := by
      intro hnil
      simp [hnil] at hc
    have hlast := List.rdropWhile_last_not isWhitespace (text.dropWhile isWhitespace) hne
    rw [List.getLast?_eq_some_getLast hne, Option.mem_some] at hc
    rw [← hc]
    exact (Bool.not_eq_true _).mp hlast

theorem trim_eq_self_iff {text : Text} : trim text = text ↔ Trimmed text :=
  ⟨fun h => h ▸ trimmed_trim text, trim_eq_self⟩

/-- `str::trim_end`. -/
def trimEnd (text : Text) : Text := text.rdropWhile isWhitespace

/-- The end of a text is trimmed after its last visible character. -/
theorem trimEnd_append {c : Char} (text rest : Text) (hc : isWhitespace c = false) :
    trimEnd (text ++ c :: rest) = text ++ c :: trimEnd rest := by
  induction rest using List.reverseRecOn with
  | nil =>
    rw [trimEnd, List.rdropWhile_concat_neg _ _ _ (by simp [hc])]
    rfl
  | append_singleton rest d ih =>
    have hassoc : text ++ c :: (rest ++ [d]) = (text ++ c :: rest) ++ [d] := by simp
    rw [hassoc, trimEnd, trimEnd]
    by_cases hd : isWhitespace d = true
    · rw [List.rdropWhile_concat_pos _ _ _ hd, List.rdropWhile_concat_pos _ _ _ hd]
      exact ih
    · rw [List.rdropWhile_concat_neg _ _ _ hd, List.rdropWhile_concat_neg _ _ _ hd, hassoc]

/-- A text that begins with a visible character is trimmed at its end. -/
theorem trim_cons {c : Char} (rest : Text) (hc : isWhitespace c = false) :
    trim (c :: rest) = c :: trimEnd rest := by
  rw [trim, List.dropWhile_cons_of_neg (by simp [hc])]
  exact trimEnd_append [] rest hc

theorem trim_trimEnd (text : Text) : trim (trimEnd text) = trim text := by
  induction text with
  | nil => rfl
  | cons c rest ih =>
    by_cases hc : isWhitespace c = true
    · have hdrop : trim (c :: rest) = trim rest := by
        rw [trim, List.dropWhile_cons_of_pos hc, ← trim]
      rw [hdrop, ← ih]
      by_cases hall : ∀ x ∈ rest, isWhitespace x = true
      · have hnil : trimEnd (c :: rest) = [] := List.rdropWhile_eq_nil_iff.2 (by simpa [hc] using hall)
        have hrest : trimEnd rest = [] := List.rdropWhile_eq_nil_iff.2 hall
        rw [hnil, hrest]
      · push Not at hall
        obtain ⟨x, hx, hvisible⟩ := hall
        obtain ⟨before, after, rfl⟩ := List.append_of_mem hx
        have hx : isWhitespace x = false := by simpa using hvisible
        have hcons : trimEnd (c :: (before ++ x :: after)) = c :: trimEnd (before ++ x :: after) := by
          rw [trimEnd_append before after hx]
          exact trimEnd_append (c :: before) after hx
        rw [hcons, trim, List.dropWhile_cons_of_pos hc, ← trim]
    · have hc : isWhitespace c = false := by simpa using hc
      have hcons : trimEnd (c :: rest) = c :: trimEnd rest := trimEnd_append [] rest hc
      have htwice : trimEnd (trimEnd rest) = trimEnd rest := List.rdropWhile_idempotent _ _
      rw [hcons, trim_cons _ hc, trim_cons _ hc, htwice]

theorem trim_space_cons (text : Text) : trim (' ' :: text) = trim text := by
  rw [trim, List.dropWhile_cons_of_pos (by decide), ← trim]

/-! ## Stripping -/

/-- Take the characters of a kind off both ends. -/
def strip (kind : Char → Bool) (text : Text) : Text := (text.dropWhile kind).rdropWhile kind

variable {kind : Char → Bool}

theorem exists_strip (kind : Char → Bool) (text : Text) :
    ∃ before after, text = before ++ (strip kind text ++ after) ∧
      (∀ c ∈ before, kind c = true) ∧ ∀ c ∈ after, kind c = true := by
  refine ⟨text.takeWhile kind, (text.dropWhile kind).rtakeWhile kind, ?_, ?_, ?_⟩
  · rw [strip, List.rdropWhile_append_rtakeWhile, List.takeWhile_append_dropWhile]
  · exact fun c hc => List.mem_takeWhile_imp hc
  · intro c hc
    rw [List.rtakeWhile, List.mem_reverse] at hc
    exact List.mem_takeWhile_imp hc

theorem trim_append_left {before : Text} (h : ∀ c ∈ before, isWhitespace c = true) (text : Text) :
    trim (before ++ text) = trim text := by
  rw [trim, List.dropWhile_append_of_pos h, ← trim]

theorem trim_append_right {after : Text} (h : ∀ c ∈ after, isWhitespace c = true) (text : Text) :
    trim (text ++ after) = trim text := by
  by_cases hall : ∀ c ∈ text, isWhitespace c = true
  · have hnil : text.dropWhile isWhitespace = [] := List.dropWhile_eq_nil_iff.2 hall
    rw [trim_append_left hall, trim, trim, hnil, List.dropWhile_eq_nil_iff.2 h]
  · have hne : (text.dropWhile isWhitespace).isEmpty = false := by
      simpa [List.isEmpty_iff] using hall
    rw [trim, trim, List.dropWhile_append, hne]
    simp only [List.rdropWhile, Bool.false_eq_true, if_false, List.reverse_append]
    rw [List.dropWhile_append_of_pos fun c hc => h c (List.mem_reverse.1 hc)]

/-- Trimming does not care for what was stripped before. -/
theorem trim_strip (h : ∀ c, kind c = true → isWhitespace c = true) (text : Text) :
    trim (strip kind text) = trim text := by
  obtain ⟨before, after, htext, hbefore, hafter⟩ := exists_strip kind text
  calc trim (strip kind text)
      = trim (strip kind text ++ after) :=
        (trim_append_right (fun c hc => h c (hafter c hc)) _).symm
    _ = trim (before ++ (strip kind text ++ after)) :=
        (trim_append_left (fun c hc => h c (hbefore c hc)) _).symm
    _ = trim text := by rw [← htext]

/-- A visible character at the end of a text stays. -/
theorem getLast?_trim {c : Char} {text : Text} (h : text.getLast? = some c)
    (hc : isWhitespace c = false) : (trim text).getLast? = some c := by
  obtain ⟨init, rfl⟩ := List.getLast?_eq_some_iff.1 h
  have hend : trim (init ++ [c]) = (init.dropWhile isWhitespace ++ [c]) := by
    rw [trim, List.dropWhile_append]
    split
    · rename_i hnil
      rw [List.isEmpty_iff] at hnil
      simp [hnil, hc, List.rdropWhile]
    · exact List.rdropWhile_concat_neg _ _ _ (by simp [hc])
  rw [hend, List.getLast?_concat]

/-! ## Case -/

/-- `str::to_ascii_lowercase`. -/
def lower (text : Text) : Text := text.map Char.toLower

theorem toLower_toLower (c : Char) : c.toLower.toLower = c.toLower := by
  unfold Char.toLower
  split
  · next hupper =>
    split
    · next htwice =>
      -- a letter in lower case is above all letters in upper case
      simp only [ge_iff_le, UInt32.le_iff_toNat_le] at hupper htwice
      simp at hupper htwice
      omega
    · rfl
  · rfl

theorem lower_lower (text : Text) : lower (lower text) = lower text := by
  rw [lower, lower, List.map_map]
  exact List.map_congr_left fun c _ => toLower_toLower c

/-! ## Lines -/

/-- Take one carriage return off the end of a line. -/
def chomp (line : Text) : Text := if line.getLast? = some '\r' then line.dropLast else line

/-- The lines of a text, after the beginning of its first line. -/
def linesFrom (line : Text) : Text → List Text
  | [] => if line = [] then [] else [line]
  | c :: rest => if c = '\n' then chomp line :: linesFrom [] rest else linesFrom (line ++ [c]) rest

/-- `str::lines`. -/
def lines (text : Text) : List Text := linesFrom [] text

/-- The text of these lines, each with its line feed. -/
def unlines (ls : List Text) : Text := ls.flatMap (· ++ ['\n'])

/-- A line: it has no line feed and does not end with a carriage return. -/
def IsLine (line : Text) : Prop := '\n' ∉ line ∧ line.getLast? ≠ some '\r'

theorem IsLine.of_not_mem {line : Text} (hn : '\n' ∉ line) (hr : '\r' ∉ line) : IsLine line :=
  ⟨hn, fun h => hr (List.mem_of_getLast? h)⟩

theorem chomp_eq_self {line : Text} (h : IsLine line) : chomp line = line := if_neg h.2

theorem linesFrom_append {line next rest : Text} (h : '\n' ∉ next) :
    linesFrom line (next ++ '\n' :: rest) = chomp (line ++ next) :: lines rest := by
  induction next generalizing line with
  | nil => rw [List.nil_append, linesFrom, if_pos rfl, List.append_nil, lines]
  | cons c next ih =>
    rw [List.mem_cons, not_or] at h
    rw [List.cons_append, linesFrom, if_neg (Ne.symm h.1), ih h.2, List.append_assoc]
    rfl

theorem lines_cons {line rest : Text} (h : IsLine line) :
    lines (line ++ '\n' :: rest) = line :: lines rest := by
  rw [lines, linesFrom_append h.1, List.nil_append, chomp_eq_self h]

theorem lines_unlines {ls : List Text} (h : ∀ line ∈ ls, IsLine line) :
    lines (unlines ls) = ls := by
  induction ls with
  | nil => rfl
  | cons line ls ih =>
    have htail := ih fun l hl => h l (List.mem_cons_of_mem _ hl)
    rw [unlines, List.flatMap_cons, List.append_assoc, List.singleton_append,
      lines_cons (h line List.mem_cons_self)]
    rw [unlines] at htail
    rw [htail]

theorem intercalate_newline {ls : List Text} (h : ls ≠ []) :
    ['\n'].intercalate ls ++ ['\n'] = unlines ls := by
  induction ls with
  | nil => exact absurd rfl h
  | cons line ls ih =>
    cases ls with
    | nil => simp [unlines]
    | cons next ls =>
      have hrest := ih (List.cons_ne_nil next ls)
      rw [List.intercalate_cons_cons, List.append_assoc, hrest]
      simp [unlines]

theorem unlines_append (first second : List Text) :
    unlines (first ++ second) = unlines first ++ unlines second := List.flatMap_append

/-! ## Splitting -/

/-- `str::split_once` at the first character of a kind. -/
def splitOnce (at? : Char → Bool) : Text → Option (Text × Text)
  | [] => none
  | c :: rest =>
    if at? c then some ([], rest) else (splitOnce at? rest).map fun parts => (c :: parts.1, parts.2)

theorem splitOnce_append {at? : Char → Bool} {before after : Text} {c : Char}
    (hb : ∀ x ∈ before, at? x = false) (hc : at? c = true) :
    splitOnce at? (before ++ c :: after) = some (before, after) := by
  induction before with
  | nil => rw [List.nil_append, splitOnce, if_pos hc]
  | cons x before ih =>
    have hx := hb x List.mem_cons_self
    rw [List.cons_append, splitOnce, if_neg (by simp [hx]),
      ih fun y hy => hb y (List.mem_cons_of_mem _ hy)]
    rfl

theorem eq_of_splitOnce {mark : Char} {text before after : Text}
    (h : splitOnce (· = mark) text = some (before, after)) :
    text = before ++ mark :: after ∧ mark ∉ before := by
  induction text generalizing before after with
  | nil => cases h
  | cons c rest ih =>
    rw [splitOnce] at h
    split_ifs at h with hmark
    · cases h
      exact ⟨by rw [of_decide_eq_true hmark]; rfl, List.not_mem_nil⟩
    · obtain ⟨⟨key, value⟩, hsplit, heq⟩ := Option.map_eq_some_iff.1 h
      cases heq
      obtain ⟨hrest, hnot⟩ := ih hsplit
      refine ⟨by rw [hrest]; rfl, ?_⟩
      rw [List.mem_cons, not_or]
      exact ⟨fun heq => hmark (by simp [heq]), hnot⟩

theorem splitOnce_of_not_mem {mark : Char} {before : Text} (h : mark ∉ before) (after : Text) :
    splitOnce (· = mark) (before ++ mark :: after) = some (before, after) :=
  splitOnce_append (fun _ hx => decide_eq_false fun heq => h (heq ▸ hx)) (decide_eq_true rfl)

/-- Trimming a text trims the two parts of it at a visible mark. -/
theorem splitOnce_trim {mark : Char} (hmark : isWhitespace mark = false) {text before after : Text}
    (h : splitOnce (· = mark) text = some (before, after)) :
    ∃ before' after', splitOnce (· = mark) (trim text) = some (before', after') ∧
      trim before' = trim before ∧ trim after' = trim after := by
  obtain ⟨rfl, hnot⟩ := eq_of_splitOnce h
  have hdrop : (before ++ mark :: after).dropWhile isWhitespace =
      before.dropWhile isWhitespace ++ mark :: after := by
    rw [List.dropWhile_append]
    split
    · rename_i hnil
      rw [List.isEmpty_iff.1 hnil, List.dropWhile_cons_of_neg (by simp [hmark]), List.nil_append]
    · rfl
  refine ⟨before.dropWhile isWhitespace, trimEnd after, ?_, ?_, trim_trimEnd after⟩
  · rw [trim, hdrop, ← trimEnd, trimEnd_append _ _ hmark]
    exact splitOnce_of_not_mem (fun hmem => hnot (List.dropWhile_subset _ hmem)) _
  · rw [trim, trim, List.dropWhile_idempotent]
/-- `str::split_once` at the first occurrence of a text. -/
def splitOnceText (mark : Text) : Text → Option (Text × Text)
  | [] => if mark = [] then some ([], []) else none
  | c :: rest =>
    match mark.isPrefixOf? (c :: rest) with
    | some after => some ([], after)
    | none => (splitOnceText mark rest).map fun parts => (c :: parts.1, parts.2)

/-- The first occurrence of a text is the one after a part without its
first character. -/
theorem splitOnceText_append {m : Char} {mark before after : Text} (h : m ∉ before) :
    splitOnceText (m :: mark) (before ++ (m :: mark ++ after)) = some (before, after) := by
  induction before with
  | nil =>
    have hmark : (m :: mark).isPrefixOf? (m :: mark ++ after) = some after :=
      List.isPrefixOf?_eq_some_iff_append_eq.2 rfl
    rw [List.nil_append]
    rw [List.cons_append] at hmark ⊢
    rw [splitOnceText, hmark]
  | cons x before ih =>
    rw [List.mem_cons, not_or] at h
    have hmark : (m :: mark).isPrefixOf? (x :: (before ++ (m :: mark ++ after))) = none := by
      rw [List.isPrefixOf?, beq_eq_false_iff_ne.2 h.1]
      rfl
    rw [List.cons_append, splitOnceText, hmark, ih h.2]
    rfl

/-- A member of parts that were put together is the separator or stands in
one of them. -/
theorem mem_intercalate {α : Type} {mark x : α} {parts : List (List α)}
    (h : x ∈ [mark].intercalate parts) : x = mark ∨ ∃ part ∈ parts, x ∈ part := by
  induction parts with
  | nil => simp at h
  | cons part parts ih =>
    cases parts with
    | nil =>
      rw [List.intercalate_singleton] at h
      exact Or.inr ⟨part, List.mem_cons_self, h⟩
    | cons next parts =>
      rw [List.intercalate_cons_cons, List.mem_append, List.mem_append, List.mem_singleton] at h
      rcases h with (h | h) | h
      · exact Or.inr ⟨part, List.mem_cons_self, h⟩
      · exact Or.inl h
      · exact (ih h).imp_right fun ⟨p, hp, hx⟩ => ⟨p, List.mem_cons_of_mem _ hp, hx⟩

theorem mem_splitOn (mark : Char) {c : Char} {text : Text} (h : c ∈ text) :
    c = mark ∨ ∃ part ∈ text.splitOn mark, c ∈ part := by
  refine mem_intercalate ?_
  rwa [List.intercalate_splitOn]

/-- `strip_suffix` of a text that was put at the end. -/
theorem isSuffixOf?_append (text suffix : Text) :
    suffix.isSuffixOf? (text ++ suffix) = some text := by
  have hprefix : suffix.reverse.isPrefixOf? (text ++ suffix).reverse = some text.reverse := by
    rw [List.isPrefixOf?_eq_some_iff_append_eq, List.reverse_append]
  rw [List.isSuffixOf?, hprefix, Option.map_some, List.reverse_reverse]

/-! ## Replacing -/

/-- `str::replace` of a character by a text. -/
def replace (c : Char) (by' : Text) (text : Text) : Text :=
  text.flatMap fun x => if x = c then by' else [x]

theorem mem_replace {c x : Char} {by' text : Text} (h : x ∈ replace c by' text) :
    x ∈ text ∨ x ∈ by' := by
  rw [replace, List.mem_flatMap] at h
  obtain ⟨y, hy, hx⟩ := h
  split_ifs at hx
  · exact Or.inr hx
  · rw [List.mem_singleton] at hx
    exact Or.inl (hx ▸ hy)

theorem replace_eq_self {c : Char} {by' text : Text} (h : c ∉ text) :
    replace c by' text = text := by
  induction text with
  | nil => rfl
  | cons x rest ih =>
    rw [List.mem_cons, not_or] at h
    have hrest := ih h.2
    rw [replace] at hrest
    rw [replace, List.flatMap_cons, hrest, if_neg (Ne.symm h.1)]
    rfl

theorem replace_append (c : Char) (by' first second : Text) :
    replace c by' (first ++ second) = replace c by' first ++ replace c by' second :=
  List.flatMap_append

/-- The number of bytes of a text in UTF-8. -/
def utf8Length (text : Text) : Nat := (text.map Char.utf8Size).sum

@[simp] theorem utf8Length_nil : utf8Length [] = 0 := rfl

@[simp] theorem utf8Length_cons (c : Char) (text : Text) :
    utf8Length (c :: text) = c.utf8Size + utf8Length text := by simp [utf8Length]

@[simp] theorem utf8Length_append (first second : Text) :
    utf8Length (first ++ second) = utf8Length first + utf8Length second := by simp [utf8Length]

theorem sum_le_utf8Length_intercalate (mark : Text) (parts : List Text) :
    (parts.map utf8Length).sum ≤ utf8Length (mark.intercalate parts) := by
  induction parts with
  | nil => exact Nat.le_refl 0
  | cons part parts ih =>
    cases parts with
    | nil => simp
    | cons next parts =>
      rw [List.intercalate_cons_cons, utf8Length_append, utf8Length_append, List.map_cons,
        List.sum_cons]
      omega

/-! ## Unsigned integers -/

/-- `Display` of an unsigned integer. -/
def decimal (n : Nat) : Text := Nat.toDigits 10 n

/-- `from_str` of an unsigned integer below a bound. -/
def unsigned? (bound : Nat) (text : Text) : Option Nat :=
  let digits := match text with
    | '+' :: rest => rest
    | text => text
  if digits ≠ [] ∧ digits.all Char.isDigit = true ∧ Nat.ofDigitChars 10 digits 0 < bound then
    some (Nat.ofDigitChars 10 digits 0)
  else none

theorem isDigit_of_mem_decimal {n : Nat} {c : Char} (h : c ∈ decimal n) : c.isDigit = true :=
  Nat.isDigit_of_mem_toDigits (by decide) (by decide) h

theorem toNat_of_mem_decimal {n : Nat} {c : Char} (h : c ∈ decimal n) :
    48 ≤ c.toNat ∧ c.toNat ≤ 57 :=
  Char.isDigit_iff_toNat.1 (isDigit_of_mem_decimal h)

theorem decimal_ne_nil (n : Nat) : decimal n ≠ [] := Nat.toDigits_ne_nil

theorem unsigned?_decimal {bound n : Nat} (h : n < bound) :
    unsigned? bound (decimal n) = some n := by
  have hall : (decimal n).all Char.isDigit = true :=
    List.all_eq_true.2 fun c hc => isDigit_of_mem_decimal hc
  have hvalue : Nat.ofDigitChars 10 (decimal n) 0 = n := Nat.ofDigitChars_ten_toDigits
  unfold unsigned?
  split
  · rename_i rest heq
    have hplus : '+'.isDigit = true := isDigit_of_mem_decimal (heq ▸ List.mem_cons_self)
    exact absurd hplus (by decide)
  · simp only [hvalue]
    rw [if_pos ⟨decimal_ne_nil n, hall, h⟩]

end Text

end Lib
