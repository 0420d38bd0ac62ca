import DstServer.Lib.Text

/-!
# IP addresses

`from_str` of Rust's `Ipv4Addr` and `IpAddr`, over the list of characters
of a string.  A reader takes a part off the beginning of a text, or fails
and leaves it.

`parseIpv4_marks` and `parse_marks` say which characters the text of an
address has.
-/

namespace Lib

/-- `IpAddr`: the bytes of an IPv4 address or the groups of an IPv6 one. -/
inductive IpAddress where
  | v4 (bytes : List Nat)
  | v6 (groups : List Nat)
  deriving DecidableEq, Repr

namespace IpAddress

/-- A reader takes a value off the beginning of a text. -/
abbrev Reader (α : Type) : Type := Text → Option (α × Text)

/-- The value of a digit at base 10 or 16. -/
def digit? (radix : Nat) (c : Char) : Option Nat :=
  let value :=
    if c.isDigit then some (c.toNat - '0'.toNat)
    else if 'a' ≤ c ∧ c ≤ 'f' then some (c.toNat - 'a'.toNat + 10)
    else if 'A' ≤ c ∧ c ≤ 'F' then some (c.toNat - 'A'.toNat + 10)
    else none
  value.filter (· < radix)

/-- `read_number` of at most `width` digits. -/
def readNumber (radix width bound : Nat) (zeros : Bool) : Reader Nat := fun text =>
  let digits := text.takeWhile fun c => (digit? radix c).isSome
  let value := (digits.filterMap (digit? radix)).foldl (fun n d => radix * n + d) 0
  if digits ≠ [] ∧ digits.length ≤ width ∧ (zeros = true ∨ text.head? ≠ some '0' ∨ digits.length = 1) ∧
      value < bound then
    some (value, text.dropWhile fun c => (digit? radix c).isSome)
  else none

/-- `read_given_char` -/
def readChar (mark : Char) : Reader Unit
  | [] => none
  | c :: rest => if c = mark then some ((), rest) else none

/-- `read_separator`: a part after the mark, which the first part does without. -/
def readSeparator {α : Type} (mark : Char) (first : Bool) (read : Reader α) : Reader α := fun text =>
  if first then read text else (readChar mark text).bind fun next => read next.2

/-- The parts of an IPv4 address after those that were read. -/
def readBytes (first : Bool) : Nat → Reader (List Nat)
  | 0 => fun text => some ([], text)
  | n + 1 => fun text => do
    let (byte, text) ← readSeparator '.' first (readNumber 10 3 256 false) text
    let (bytes, text) ← readBytes false n text
    pure (byte :: bytes, text)

/-- `read_ipv4_addr` -/
def readIpv4 : Reader (List Nat) := readBytes true 4

/-- `read_groups`: groups up to a limit, of which an IPv4 address at the end
makes two, with whether there was one. -/
def readGroups (first : Bool) : Nat → Text → (List Nat × Bool) × Text
  | 0, text => (([], false), text)
  | limit + 1, text =>
    let embedded := if 0 < limit then readSeparator ':' first readIpv4 text else none
    match embedded with
    | some (bytes, rest) =>
      match bytes with
      | [a, b, c, d] => (([256 * a + b, 256 * c + d], true), rest)
      | _ => (([], false), text)
    | none =>
      match readSeparator ':' first (readNumber 16 4 65536 true) text with
      | some (group, rest) =>
        let ((groups, ipv4), rest) := readGroups false limit rest
        ((group :: groups, ipv4), rest)
      | none => (([], false), text)

/-- The two colons that stand for groups of zeros, and the groups after them. -/
def readBack (front : List Nat) : Reader (List Nat) := fun text => do
  let (_, text) ← readChar ':' text
  let (_, text) ← readChar ':' text
  let ((back, _), text) := readGroups true (8 - (front.length + 1)) text
  pure (front ++ List.replicate (8 - front.length - back.length) 0 ++ back, text)

/-- `read_ipv6_addr` -/
def readIpv6 : Reader (List Nat) := fun text =>
  let ((front, ipv4), rest) := readGroups true 8 text
  if front.length = 8 then some (front, rest)
  else if ipv4 then none
  else readBack front rest

/-- A reader that takes the whole text. -/
def whole {α : Type} (read : Reader α) (text : Text) : Option α :=
  (read text).bind fun next => if next.2 = [] then some next.1 else none

/-- `Ipv4Addr::from_str` -/
def parseIpv4 (text : Text) : Option (List Nat) :=
  if Text.utf8Length text ≤ 15 then whole readIpv4 text else none

/-- `IpAddr::from_str` -/
def parse (text : Text) : Option IpAddress :=
  whole (fun text =>
    ((readIpv4 text).map fun next => (.v4 next.1, next.2)).or
      ((readIpv6 text).map fun next => (.v6 next.1, next.2))) text

/-- `is_unspecified` -/
def isUnspecified : IpAddress → Bool
  | .v4 bytes => bytes.all (· = 0)
  | .v6 groups => groups.all (· = 0)

/-- `is_multicast` -/
def isMulticast : IpAddress → Bool
  | .v4 bytes => bytes.head?.any fun byte => 224 ≤ byte && byte ≤ 239
  | .v6 groups => groups.head?.any fun group => group / 256 = 255

/-- `Ipv4Addr::BROADCAST` -/
def isBroadcast (address : IpAddress) : Bool := address = .v4 [255, 255, 255, 255]

/-! ## The characters of an address -/

/-- A hexadecimal digit or a separator. -/
def IsMark (c : Char) : Prop := (digit? 16 c).isSome = true ∨ c = '.' ∨ c = ':'

/-- The reader takes a part with the characters of an address. -/
def TakesMarks {α : Type} (read : Reader α) : Prop :=
  ∀ text value rest, read text = some (value, rest) →
    ∃ taken, text = taken ++ rest ∧ ∀ c ∈ taken, IsMark c

theorem isMark_of_digit {radix : Nat} (hradix : radix ≤ 16) {c : Char}
    (h : (digit? radix c).isSome = true) : IsMark c := by
  obtain ⟨n, hn⟩ := Option.isSome_iff_exists.1 h
  obtain ⟨hvalue, hlt⟩ := Option.filter_eq_some_iff.1 hn
  refine Or.inl (Option.isSome_iff_exists.2 ⟨n, Option.filter_eq_some_iff.2 ⟨hvalue, ?_⟩⟩)
  have hlt : n < radix := by simpa using hlt
  simpa using Nat.lt_of_lt_of_le hlt hradix

theorem takesMarks_readNumber {radix width bound : Nat} {zeros : Bool} (hradix : radix ≤ 16) :
    TakesMarks (readNumber radix width bound zeros) := by
  intro text value rest h
  unfold readNumber at h
  dsimp only at h
  split_ifs at h
  obtain ⟨_, rfl⟩ := Prod.mk.inj (Option.some.inj h)
  refine ⟨text.takeWhile fun c => (digit? radix c).isSome, ?_, ?_⟩
  · exact List.takeWhile_append_dropWhile.symm
  · intro c hc
    exact isMark_of_digit hradix (List.mem_takeWhile_imp (p := fun c => (digit? radix c).isSome) hc)

theorem takesMarks_readChar {mark : Char} (hmark : IsMark mark) : TakesMarks (readChar mark) := by
  intro text value rest h
  cases text with
  | nil => simp [readChar] at h
  | cons c text =>
    rw [readChar] at h
    split_ifs at h with hc
    cases h
    exact ⟨[c], rfl, by simpa [hc] using hmark⟩

/-- One reader after another. -/
theorem TakesMarks.bind {α β : Type} {first : Reader α} {next : α → Reader β}
    (hfirst : TakesMarks first) (hnext : ∀ a, TakesMarks (next a)) :
    TakesMarks fun text => (first text).bind fun read => next read.1 read.2 := by
  intro text value rest h
  obtain ⟨⟨a, middle⟩, hread, hrest⟩ := Option.bind_eq_some_iff.1 h
  obtain ⟨taken, rfl, htaken⟩ := hfirst _ _ _ hread
  obtain ⟨more, rfl, hmore⟩ := hnext a _ _ _ hrest
  refine ⟨taken ++ more, by simp, ?_⟩
  intro c hc
  rcases List.mem_append.1 hc with hc | hc
  · exact htaken c hc
  · exact hmore c hc

theorem takesMarks_pure {α : Type} (a : α) : TakesMarks fun text => some (a, text) := by
  intro text value rest h
  cases h
  exact ⟨[], rfl, by simp⟩

theorem takesMarks_readSeparator {α : Type} {mark : Char} {first : Bool} {read : Reader α}
    (hmark : IsMark mark) (hread : TakesMarks read) :
    TakesMarks (readSeparator mark first read) := by
  cases first with
  | true => exact hread
  | false => exact (takesMarks_readChar hmark).bind fun _ => hread

theorem takesMarks_readBytes (first : Bool) (n : Nat) : TakesMarks (readBytes first n) := by
  induction n generalizing first with
  | zero => exact takesMarks_pure []
  | succ n ih =>
    have hbyte : TakesMarks (readSeparator '.' first (readNumber 10 3 256 false)) :=
      takesMarks_readSeparator (Or.inr (Or.inl rfl)) (takesMarks_readNumber (by decide))
    exact hbyte.bind fun byte => (ih false).bind fun bytes => takesMarks_pure (byte :: bytes)

theorem takesMarks_readGroups (first : Bool) (limit : Nat) :
    TakesMarks fun text => some (readGroups first limit text) := by
  induction limit generalizing first with
  | zero => exact takesMarks_pure _
  | succ limit ih =>
    have hipv4 : TakesMarks (readSeparator ':' first readIpv4) :=
      takesMarks_readSeparator (Or.inr (Or.inr rfl)) (takesMarks_readBytes true 4)
    have hgroup : TakesMarks (readSeparator ':' first (readNumber 16 4 65536 true)) :=
      takesMarks_readSeparator (Or.inr (Or.inr rfl)) (takesMarks_readNumber (by decide))
    intro text value rest h
    dsimp only at h
    rw [readGroups] at h
    have hstop : some (([], false), text) = some (value, rest) →
        ∃ taken, text = taken ++ rest ∧ ∀ c ∈ taken, IsMark c := takesMarks_pure _ text value rest
    split at h
    · rename_i bytes rest' hembedded
      split_ifs at hembedded
      split at h
      · cases h
        exact hipv4 _ _ _ hembedded
      · exact hstop h
    · split at h
      · rename_i group rest' hread
        obtain ⟨taken, rfl, htaken⟩ := hgroup _ _ _ hread
        obtain ⟨more, happend, hmore⟩ := ih false rest' _ _ rfl
        cases h
        refine ⟨taken ++ more, by rw [List.append_assoc, ← happend], fun c hc => ?_⟩
        rcases List.mem_append.1 hc with hc | hc
        · exact htaken c hc
        · exact hmore c hc
      · exact hstop h

theorem takesMarks_readBack (front : List Nat) : TakesMarks (readBack front) := by
  have hcolon : TakesMarks (readChar ':') := takesMarks_readChar (Or.inr (Or.inr rfl))
  exact hcolon.bind fun _ => hcolon.bind fun _ =>
    (takesMarks_readGroups true (8 - (front.length + 1))).bind fun groups =>
      takesMarks_pure (front ++ List.replicate (8 - front.length - groups.1.length) 0 ++ groups.1)

theorem takesMarks_readIpv6 : TakesMarks readIpv6 := by
  intro text value rest h
  obtain ⟨taken, happend, htaken⟩ := takesMarks_readGroups true 8 text _ _ rfl
  unfold readIpv6 at h
  dsimp only at h
  split_ifs at h
  · cases h
    exact ⟨taken, happend, htaken⟩
  · obtain ⟨more, hmore, hmarks⟩ := takesMarks_readBack _ _ _ _ h
    refine ⟨taken ++ more, by rw [List.append_assoc, ← hmore]; exact happend, fun c hc => ?_⟩
    rcases List.mem_append.1 hc with hc | hc
    · exact htaken c hc
    · exact hmarks c hc

theorem whole_marks {α : Type} {read : Reader α} (h : TakesMarks read) {text : Text} {value : α}
    (hread : whole read text = some value) : ∀ c ∈ text, IsMark c := by
  obtain ⟨⟨value', rest⟩, hread, hrest⟩ := Option.bind_eq_some_iff.1 hread
  obtain ⟨taken, rfl, htaken⟩ := h _ _ _ hread
  dsimp only at hrest
  split_ifs at hrest with hnil
  rw [hnil, List.append_nil]
  exact htaken

theorem parseIpv4_marks {text : Text} {bytes : List Nat} (h : parseIpv4 text = some bytes) :
    ∀ c ∈ text, IsMark c := by
  unfold parseIpv4 at h
  split_ifs at h
  exact whole_marks (takesMarks_readBytes true 4) h

theorem parse_marks {text : Text} {address : IpAddress} (h : parse text = some address) :
    ∀ c ∈ text, IsMark c := by
  refine whole_marks (fun text value rest h => ?_) h
  rcases Option.or_eq_some_iff.1 h with h | ⟨_, h⟩
  · obtain ⟨⟨bytes, rest'⟩, hread, heq⟩ := Option.map_eq_some_iff.1 h
    cases heq
    exact takesMarks_readBytes true 4 _ _ _ hread
  · obtain ⟨⟨groups, rest'⟩, hread, heq⟩ := Option.map_eq_some_iff.1 h
    cases heq
    exact takesMarks_readIpv6 _ _ _ hread

/-- A mark is visible. -/
theorem IsMark.visible {c : Char} (h : IsMark c) : Text.isWhitespace c = false := by
  rcases h with h | rfl | rfl
  · have hrange : c.toNat < 128 ∧ 33 ≤ c.toNat := by
      obtain ⟨n, hn⟩ := Option.isSome_iff_exists.1 h
      obtain ⟨hvalue, _⟩ := Option.filter_eq_some_iff.1 hn
      split_ifs at hvalue with hdigit hlower hupper
      · simp only [Char.isDigit, Bool.and_eq_true, decide_eq_true_eq] at hdigit
        have h₁ : 48 ≤ c.toNat := hdigit.1
        have h₂ : c.toNat ≤ 57 := hdigit.2
        omega
      · have h₁ : 97 ≤ c.toNat := hlower.1
        have h₂ : c.toNat ≤ 102 := hlower.2
        omega
      · have h₁ : 65 ≤ c.toNat := hupper.1
        have h₂ : c.toNat ≤ 70 := hupper.2
        omega
    simp only [Text.isWhitespace, Bool.or_eq_false_iff, Bool.and_eq_false_iff,
      decide_eq_false_iff_not]
    omega
  · decide
  · decide

end IpAddress

end Lib
