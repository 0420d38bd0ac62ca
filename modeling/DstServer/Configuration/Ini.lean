import DstServer.Lib.Address
import DstServer.Lib.OrderedMap
import DstServer.Lib.Outcome

/-!
# Native configuration files

The names of shard directories and of hosts, and the INI reader of a room.

`toLowercase` stands for `str::to_lowercase` wherever a name is compared
without regard to case.

A file is read line by line.  `Block` is a section of a file that was put
together from names and texts, and `parse_blocks` says what the reader
finds in such a file: every text under its name, without the white space
around it.
-/

namespace DstServer.Configuration

open Lib

/-! ## Names -/

/-- Names that the room directory uses for other files. -/
def reservedNames : List Text :=
  ["console".toList, "mods".toList, "cluster.ini".toList, "cluster_token.txt".toList,
    "adminlist.txt".toList, "whitelist.txt".toList, "blocklist.txt".toList]

def validateShardName (toLowercase : Text → Text) (name : Text) : Outcome String Unit :=
  Outcome.ensure
    (Text.trim name ≠ [] ∧ Text.utf8Length name ≤ 255 ∧ name.head? ≠ some '.' ∧
      (∀ c ∈ name, c ∉ ['\x00', '/', '\\', '\r', '\n']) ∧ toLowercase name ∉ reservedNames)
    "unsafe shard directory name"

/-- A label of a host name. -/
def isLabel (label : Text) : Bool :=
  label ≠ [] && Text.utf8Length label ≤ 63 && label.head? ≠ some '-' && label.getLast? ≠ some '-' &&
    label.all fun c => c.isAlphanum || c = '-'

def validateHost (host : Text) : Outcome String Unit :=
  match IpAddress.parse host with
  | some ip =>
    Outcome.ensure (ip.isUnspecified = false ∧ ip.isMulticast = false ∧ ip.isBroadcast = false)
      "master_ip must identify a unicast destination"
  | none =>
    let name := (['.'].isSuffixOf? host).getD host
    Outcome.ensure
      (name ≠ [] ∧ Text.utf8Length name ≤ 253 ∧
        ¬(∀ c ∈ name, c.isDigit = true ∨ c = '.') ∧ ∀ label ∈ name.splitOn '.', isLabel label = true)
      "master_ip must be an IP address or host name"

/-- `unsigned`: a `u32` in decimal digits. -/
def unsigned (value : Text) (field : String) : Outcome String Nat := do
  Outcome.ensure (value ≠ [] ∧ ∀ c ∈ value, c.isDigit = true) s!"{field} must be an unsigned integer"
  Outcome.orError (Text.unsigned? 4294967296 value) s!"{field} exceeds its integer range"

/-! ## The reader -/

/-- `MAX_INI_BYTES` -/
def maxIniBytes : Nat := 1024 * 1024

/-- The values of a file, by section and option in lower case. -/
abbrev Options : Type := OrderedMap (String ×ₗ String) Text

/-- What the reader has found. -/
structure IniState where
  values : Options := .empty
  sections : List String := []
  sectionName : String := ""

/-- The text of a name in lower case. -/
def lowerName (text : Text) : String := .ofList (Text.lower text)

def invalidLine (path : String) (index : Nat) : String :=
  s!"invalid DST INI configuration: {path} at line {index + 1}"

def isComment (line : Text) : Bool := line.head? = some ';' || line.head? = some '#'

/-- The options of a topology section; `shard` says which kind of file this is. -/
def allowedOptions : Option Bool → String → Option (List String)
  | some false, "shard" =>
    some ["shard_enabled", "bind_ip", "master_ip", "master_port", "cluster_key"]
  | some true, "shard" =>
    some ["is_master", "name", "id", "bind_ip", "master_ip", "master_port", "cluster_key"]
  | some true, "network" => some ["server_port"]
  | some true, "steam" => some ["master_server_port", "authentication_port"]
  | some true, "account" => some ["encode_user_path"]
  | _, _ => none

/-- The sections of `server.ini`. -/
def shardSections : List String := ["shard", "network", "steam", "account"]

def readHeader (path : String) (shard : Option Bool) (index : Nat) (state : IniState)
    (line : Text) : Outcome String IniState := do
  let (before, after) ← Outcome.orError (Text.splitOnce (· = ']') line) (invalidLine path index)
  let rest := Text.trim after
  Outcome.ensure (rest = [] ∨ isComment rest = true) (invalidLine path index)
  let sectionName := lowerName (Text.trim (before.drop 1))
  Outcome.ensure (sectionName ≠ "" ∧ sectionName ≠ "default" ∧ sectionName ∉ state.sections)
    (invalidLine path index)
  Outcome.ensure (shard = some true → sectionName ∈ shardSections)
    (invalidLine path index ++ " (unknown section)")
  pure { state with sections := sectionName :: state.sections, sectionName }

def readOption (path : String) (shard : Option Bool) (index : Nat) (state : IniState)
    (line : Text) : Outcome String IniState := do
  let (key, value) ← Outcome.orError (Text.splitOnce (fun c => c = '=' || c = ':') line)
    (invalidLine path index)
  let key := lowerName (Text.trim key)
  Outcome.ensure (state.sectionName ≠ "" ∧ key ≠ "") (invalidLine path index)
  Outcome.ensure (state.values.get? (toLex (state.sectionName, key)) = none)
    (invalidLine path index ++ " (duplicate option)")
  Outcome.ensure (∀ allowed ∈ allowedOptions shard state.sectionName, key ∈ allowed)
    (invalidLine path index ++ " (unknown topology option)")
  pure { state with
    values := state.values.insert (toLex (state.sectionName, key)) (Text.trim value) }

def readLine (path : String) (shard : Option Bool) (index : Nat) (state : IniState) (line : Text) :
    Outcome String IniState := do
  let line := Text.trim line
  Outcome.ensure ('\x00' ∉ line ∧ '\r' ∉ line) (invalidLine path index)
  if line = [] ∨ isComment line = true then pure state
  else if line.head? = some '[' then readHeader path shard index state line
  else readOption path shard index state line

/-- The loop over the lines from a line on. -/
def readLines (path : String) (shard : Option Bool) (index : Nat) (state : IniState) :
    List Text → Outcome String IniState
  | [] => pure state
  | line :: rest => do
    let state ← readLine path shard index state line
    readLines path shard (index + 1) state rest

/-- A file that has been read. -/
structure Ini where
  path : String
  values : Options

def Ini.parse (path : String) (source : Text) (shard : Option Bool) : Outcome String Ini := do
  Outcome.ensure (Text.utf8Length source ≤ maxIniBytes) s!"INI configuration exceeds size limit: {path}"
  let state ← readLines path shard 0 {} (Text.lines source)
  pure { path, values := state.values }

def Ini.get (ini : Ini) (sectionName key : String) : Option Text :=
  ini.values.get? (toLex (sectionName, key))

def Ini.boolean (ini : Ini) (sectionName key : String) (default : Bool) : Outcome String Bool :=
  match ini.get sectionName key with
  | none => pure default
  | some value =>
    if Text.lower value = "true".toList then pure true
    else if Text.lower value = "false".toList then pure false
    else Outcome.fail s!"{ini.path}: {sectionName}.{key} must be true or false"

def Ini.port (ini : Ini) (sectionName key : String) (default : Nat) : Outcome String Nat :=
  match ini.get sectionName key with
  | none => pure default
  | some value => do
    let port ← unsigned value key
    Outcome.ensure (1024 ≤ port ∧ port ≤ 65535)
      s!"{ini.path}: {sectionName}.{key} must be between 1024 and 65535"
    pure port

def Ini.ipv4 (ini : Ini) (key : String) (default : List Nat) : Outcome String (List Nat) :=
  match ini.get "shard" key with
  | none => pure default
  | some value => Outcome.orError (IpAddress.parseIpv4 value)
      s!"{ini.path}: SHARD.{key} must be an IPv4 address"

/-! ## Files that were put together -/

/-- A section with its options, as it is written. -/
structure Block where
  name : String
  options : List (String × Text)

def optionLine (option : String × Text) : Text := option.1.toList ++ ' ' :: '=' :: ' ' :: option.2

def Block.header (block : Block) : Text := '[' :: block.name.toList ++ [']']

def Block.lines (block : Block) : List Text := block.header :: block.options.map optionLine

/-- The lines of a file, with an empty one between two sections. -/
def fileLines (blocks : List Block) : List Text := [[]].intercalate (blocks.map Block.lines)

/-- What the reader finds in a section. -/
def Block.values (block : Block) : List ((String ×ₗ String) × Text) :=
  block.options.map fun option =>
    (toLex (lowerName block.name.toList, option.1), Text.trim option.2)

/-- A name of letters and underscores. -/
def IsName (name : String) : Prop := name.toList ≠ [] ∧ ∀ c ∈ name.toList, c.isAlpha = true ∨ c = '_'

instance (name : String) : Decidable (IsName name) := by
  unfold IsName
  infer_instance

/-- A text without the characters that no line may have. -/
def IsPlain (text : Text) : Prop := '\x00' ∉ text ∧ '\r' ∉ text ∧ '\n' ∉ text

/-- The reader takes an option of this name in this section. -/
def Readable (shard : Option Bool) (sectionName name : String) : Prop :=
  IsName name ∧ lowerName name.toList = name ∧
    ∀ allowed ∈ allowedOptions shard sectionName, name ∈ allowed

instance (shard : Option Bool) (sectionName name : String) :
    Decidable (Readable shard sectionName name) := by
  unfold Readable
  infer_instance

/-- The reader takes the section. -/
structure Block.Valid (shard : Option Bool) (block : Block) : Prop where
  name : IsName block.name
  notDefault : lowerName block.name.toList ≠ "default"
  known : shard = some true → lowerName block.name.toList ∈ shardSections
  readable : ∀ option ∈ block.options, Readable shard (lowerName block.name.toList) option.1
  plain : ∀ option ∈ block.options, IsPlain option.2
  distinct : (block.options.map Prod.fst).Nodup

/-! ### Names of visible characters -/

/-- The reader takes a name of such characters as it is written. -/
def VisibleChar (c : Char) : Prop :=
  Text.isWhitespace c = false ∧ c ∉ ['\x00', '\r', '\n', ';', '#', '[', ']', '=', ':', ' ']

theorem visible_of_isAlphanum {c : Char} (h : c.isAlphanum = true ∨ c = '_') : VisibleChar c := by
  rcases h with halpha | rfl
  · have hrange : (65 ≤ c.toNat ∧ c.toNat ≤ 90) ∨ (97 ≤ c.toNat ∧ c.toNat ≤ 122) ∨
        (48 ≤ c.toNat ∧ c.toNat ≤ 57) := by
      simp only [Char.isAlphanum, Char.isAlpha, Char.isUpper, Char.isLower, Char.isDigit,
        Bool.or_eq_true, Bool.and_eq_true, decide_eq_true_eq, or_assoc] at halpha
      exact halpha
    constructor
    · simp only [Text.isWhitespace, Bool.or_eq_false_iff, Bool.and_eq_false_iff,
        decide_eq_false_iff_not]
      omega
    · intro hmem
      have hnat : c.toNat ∈ [0, 13, 10, 59, 35, 91, 93, 61, 58, 32] :=
        List.mem_map_of_mem (f := Char.toNat) hmem
      simp only [List.mem_cons, List.not_mem_nil, or_false] at hnat
      omega
  · exact ⟨by decide, by decide⟩

/-- A name that is read as it is written. -/
def IsToken (name : String) : Prop := name.toList ≠ [] ∧ ∀ c ∈ name.toList, VisibleChar c

theorem IsName.isToken {name : String} (h : IsName name) : IsToken name := by
  refine ⟨h.1, fun c hc => visible_of_isAlphanum ((h.2 c hc).imp_left fun halpha => ?_)⟩
  rw [Char.isAlphanum, halpha, Bool.true_or]

/-- The reader takes an option of this name in this section. -/
structure Legible (shard : Option Bool) (sectionName name : String) : Prop where
  token : IsToken name
  lower : lowerName name.toList = name
  allowed : ∀ allowed ∈ allowedOptions shard sectionName, name ∈ allowed

/-- The reader takes the section. -/
structure Block.Legible (shard : Option Bool) (block : Block) : Prop where
  token : IsToken block.name
  notDefault : lowerName block.name.toList ≠ "default"
  known : shard = some true → lowerName block.name.toList ∈ shardSections
  options : ∀ option ∈ block.options,
    Configuration.Legible shard (lowerName block.name.toList) option.1
  plain : ∀ option ∈ block.options, IsPlain option.2
  distinct : (block.options.map Prod.fst).Nodup

theorem Block.Valid.legible {shard : Option Bool} {block : Block} (h : block.Valid shard) :
    block.Legible shard where
  token := h.name.isToken
  notDefault := h.notDefault
  known := h.known
  options := by
    intro option hoption
    obtain ⟨hname, hlower, hallowed⟩ := h.readable option hoption
    exact ⟨hname.isToken, hlower, hallowed⟩
  plain := h.plain
  distinct := h.distinct

theorem lowerName_ne_empty {name : String} (h : IsToken name) : lowerName name.toList ≠ "" := by
  intro heq
  have hlist := congrArg String.toList heq
  rw [lowerName, String.toList_ofList] at hlist
  exact h.1 (List.map_eq_nil_iff.1 hlist)

variable (path : String) {shard : Option Bool}

/-! ### One line -/

/-- The line as it is read, without the white space around it. -/
theorem readLine_eq {line text : Text} (htrim : Text.trim line = text)
    (hplain : '\x00' ∉ text ∧ '\r' ∉ text) (index : Nat) (state : IniState) :
    readLine path shard index state line =
      if text = [] ∨ isComment text = true then .ok state
      else if text.head? = some '[' then readHeader path shard index state text
      else readOption path shard index state text := by
  subst htrim
  rw [readLine, Outcome.ensure_of hplain, Outcome.ok_bind]
  rfl

theorem readLine_nil (index : Nat) (state : IniState) :
    readLine path shard index state [] = .ok state := by
  rw [readLine_eq path Text.trim_nil (by simp), if_pos (Or.inl rfl)]

theorem readLine_header {block : Block} (h : block.Legible shard) {state : IniState}
    (hnew : lowerName block.name.toList ∉ state.sections) (index : Nat) :
    readLine path shard index state block.header = .ok { state with
      sections := lowerName block.name.toList :: state.sections
      sectionName := lowerName block.name.toList } := by
  have hchar := h.token.2
  have htrim : Text.trim block.header = block.header :=
    Text.trim_eq_self (Text.Trimmed.of_ends (by decide) (by decide))
  have hplain : '\x00' ∉ block.header ∧ '\r' ∉ block.header := by
    have hout : ∀ c ∈ block.header, c ≠ '\x00' ∧ c ≠ '\r' := by
      intro c hc
      simp only [Block.header, List.cons_append, List.mem_cons, List.mem_append, List.not_mem_nil,
        or_false] at hc
      rcases hc with rfl | hc | rfl
      · decide
      · have hname := (hchar c hc).2
        simp only [List.mem_cons, not_or] at hname
        exact ⟨hname.1, hname.2.1⟩
      · decide
    exact ⟨fun hmem => (hout _ hmem).1 rfl, fun hmem => (hout _ hmem).2 rfl⟩
  have hsplit : Text.splitOnce (· = ']') block.header = some ('[' :: block.name.toList, []) := by
    refine Text.splitOnce_append (fun c hc => ?_) (by decide)
    rcases List.mem_cons.1 hc with rfl | hc
    · decide
    · have hne : c ≠ ']' := fun heq => (hchar c hc).2 (by simp [heq])
      simpa using hne
  have hname : Text.trim block.name.toList = block.name.toList :=
    Text.trim_eq_self (Text.Trimmed.of_forall fun c hc => (hchar c hc).1)
  have hempty := lowerName_ne_empty h.token
  have hhead : block.header.head? = some '[' := rfl
  rw [readLine_eq path htrim hplain, if_neg (by simp [Block.header, isComment]), if_pos hhead, readHeader,
    hsplit]
  simp only [Outcome.orError, Outcome.ok_bind, List.drop_one, List.tail_cons, hname, Text.trim_nil]
  rw [Outcome.ensure_of (Or.inl trivial), Outcome.ok_bind,
    Outcome.ensure_of ⟨hempty, h.notDefault, hnew⟩, Outcome.ok_bind, Outcome.ensure_of h.known,
    Outcome.ok_bind]
  rfl

theorem readLine_option {state : IniState} {option : String × Text}
    (hlegible : Legible shard state.sectionName option.1) (hplain : IsPlain option.2)
    (hsection : state.sectionName ≠ "")
    (hnew : state.values.get? (toLex (state.sectionName, option.1)) = none) (index : Nat) :
    readLine path shard index state (optionLine option) = .ok { state with
      values := state.values.insert (toLex (state.sectionName, option.1)) (Text.trim option.2) } := by
  obtain ⟨name, value⟩ := option
  obtain ⟨hname, hlower, hallowed⟩ := hlegible
  have hchar := hname.2
  obtain ⟨first, more, hcons⟩ := List.exists_cons_of_ne_nil hname.1
  have hfirst := hchar first (hcons ▸ List.mem_cons_self)
  -- the white space at the end of the line is that at the end of the value
  have htrim : Text.trim (optionLine (name, value)) =
      name.toList ++ ' ' :: '=' :: Text.trimEnd (' ' :: value) := by
    have happend := Text.trimEnd_append (more ++ [' ']) (' ' :: value) (c := '=') (by decide)
    simp only [List.append_assoc, List.singleton_append] at happend
    rw [optionLine]
    dsimp only
    rw [hcons, List.cons_append, Text.trim_cons _ hfirst.1, happend, List.cons_append]
  have hline : '\x00' ∉ name.toList ++ ' ' :: '=' :: Text.trimEnd (' ' :: value) ∧
      '\r' ∉ name.toList ++ ' ' :: '=' :: Text.trimEnd (' ' :: value) := by
    have hout : ∀ c ∈ name.toList ++ ' ' :: '=' :: Text.trimEnd (' ' :: value),
        c ≠ '\x00' ∧ c ≠ '\r' := by
      intro c hc
      have hend : c ∈ Text.trimEnd (' ' :: value) → c = ' ' ∨ c ∈ value := fun hc =>
        List.mem_cons.1 ((List.rdropWhile_prefix _ _).subset hc)
      simp only [List.mem_append, List.mem_cons] at hc
      rcases hc with hc | rfl | rfl | hc
      · have hname := (hchar c hc).2
        simp only [List.mem_cons, not_or] at hname
        exact ⟨hname.1, hname.2.1⟩
      · decide
      · decide
      · rcases hend hc with rfl | hc
        · decide
        · exact ⟨fun heq => hplain.1 (heq ▸ hc), fun heq => hplain.2.1 (heq ▸ hc)⟩
    exact ⟨fun hmem => (hout _ hmem).1 rfl, fun hmem => (hout _ hmem).2 rfl⟩
  have hsplit : Text.splitOnce (fun c => c = '=' || c = ':')
      (name.toList ++ ' ' :: '=' :: Text.trimEnd (' ' :: value)) =
        some (name.toList ++ [' '], Text.trimEnd (' ' :: value)) := by
    have happend : name.toList ++ ' ' :: '=' :: Text.trimEnd (' ' :: value) =
        (name.toList ++ [' ']) ++ '=' :: Text.trimEnd (' ' :: value) := by simp
    rw [happend]
    refine Text.splitOnce_append (fun c hc => ?_) (by decide)
    rcases List.mem_append.1 hc with hc | hc
    · have hout := (hchar c hc).2
      simp only [List.mem_cons, not_or] at hout
      simp [hout]
    · rw [List.mem_singleton.1 hc]
      decide
  have hkey : Text.trim (name.toList ++ [' ']) = name.toList := by
    have hself : Text.trim name.toList = name.toList :=
      Text.trim_eq_self (Text.Trimmed.of_forall fun c hc => (hchar c hc).1)
    rw [← Text.trim_trimEnd, Text.trimEnd, List.rdropWhile_concat_pos _ _ _ (by decide),
      ← Text.trimEnd, Text.trim_trimEnd, hself]
  have hvalue : Text.trim (Text.trimEnd (' ' :: value)) = Text.trim value := by
    rw [Text.trim_trimEnd, Text.trim_space_cons]
  have hhead : (name.toList ++ ' ' :: '=' :: Text.trimEnd (' ' :: value)).head? = some first := by
    rw [hcons]
    rfl
  have hout := hfirst.2
  simp only [List.mem_cons, not_or] at hout
  rw [readLine_eq path htrim hline, if_neg (by simp [isComment, hhead, hout]),
    if_neg (by simp [hhead, hout]), readOption, hsplit]
  have hne : name ≠ "" := fun heq => hname.1 (by rw [heq]; rfl)
  simp only [Outcome.orError, Outcome.ok_bind, hkey, hlower, hvalue]
  rw [Outcome.ensure_of ⟨hsection, hne⟩, Outcome.ok_bind, Outcome.ensure_of hnew, Outcome.ok_bind,
    Outcome.ensure_of hallowed, Outcome.ok_bind]
  rfl

/-! ### Many lines -/

theorem readLines_append (index : Nat) (state : IniState) (first second : List Text) :
    readLines path shard index state (first ++ second) =
      readLines path shard index state first >>= fun state =>
        readLines path shard (index + first.length) state second := by
  induction first generalizing index state with
  | nil => rfl
  | cons line rest ih =>
    rw [List.cons_append, readLines, readLines]
    cases hline : readLine path shard index state line with
    | error e => rfl
    | ok next =>
      rw [Outcome.ok_bind, Outcome.ok_bind, ih, List.length_cons]
      rw [Nat.add_assoc, Nat.add_comm 1]

/-- The reader has a value only in a section that it has seen. -/
def IniState.Seen (state : IniState) : Prop :=
  ∀ key value, state.values.get? key = some value → (ofLex key).1 ∈ state.sections

/-- The values with more entries. -/
def insertAll (values : Options) (entries : List ((String ×ₗ String) × Text)) : Options :=
  entries.foldl (fun values entry => values.insert entry.1 entry.2) values

theorem readLines_options {options : List (String × Text)} {state : IniState}
    (hsection : state.sectionName ≠ "")
    (hlegible : ∀ option ∈ options, Legible shard state.sectionName option.1)
    (hplain : ∀ option ∈ options, IsPlain option.2)
    (hdistinct : (options.map Prod.fst).Nodup)
    (hnew : ∀ option ∈ options, state.values.get? (toLex (state.sectionName, option.1)) = none)
    (index : Nat) :
    readLines path shard index state (options.map optionLine) = .ok { state with
      values := insertAll state.values (options.map fun option =>
        (toLex (state.sectionName, option.1), Text.trim option.2)) } := by
  induction options generalizing state index with
  | nil => rfl
  | cons option rest ih =>
    obtain ⟨hhead, htail⟩ := List.nodup_cons.1 hdistinct
    have hoption := readLine_option path (hlegible option List.mem_cons_self)
      (hplain option List.mem_cons_self) hsection (hnew option List.mem_cons_self) index
    let next : IniState := { state with
      values := state.values.insert (toLex (state.sectionName, option.1)) (Text.trim option.2) }
    have hnext : next.sectionName ≠ "" := hsection
    rw [List.map_cons, readLines, hoption, Outcome.ok_bind]
    refine ih hnext (fun o ho => hlegible o (List.mem_cons_of_mem _ ho))
      (fun o ho => hplain o (List.mem_cons_of_mem _ ho)) htail (fun o ho => ?_) (index + 1)
    have hne : toLex (state.sectionName, o.1) ≠ toLex (state.sectionName, option.1) := by
      intro heq
      obtain ⟨_, hname⟩ := Prod.mk.inj (toLex_inj.1 heq)
      exact hhead (hname ▸ List.mem_map_of_mem ho)
    rw [OrderedMap.get?_insert_of_ne hne]
    exact hnew o (List.mem_cons_of_mem _ ho)

theorem insertAll_append (values : Options) (first second : List ((String ×ₗ String) × Text)) :
    insertAll values (first ++ second) = insertAll (insertAll values first) second :=
  List.foldl_append

theorem readLines_block {block : Block} (h : block.Legible shard) {state : IniState}
    (hseen : state.Seen) (hnew : lowerName block.name.toList ∉ state.sections) (index : Nat) :
    ∃ next, readLines path shard index state block.lines = .ok next ∧
      next.values = insertAll state.values block.values ∧
      next.sections = lowerName block.name.toList :: state.sections ∧ next.Seen := by
  have hnone : ∀ name, state.values.get? (toLex (lowerName block.name.toList, name)) = none := by
    intro name
    cases hvalue : state.values.get? (toLex (lowerName block.name.toList, name)) with
    | none => rfl
    | some value => exact absurd (hseen _ _ hvalue) hnew
  let opened : IniState := { state with
    sections := lowerName block.name.toList :: state.sections
    sectionName := lowerName block.name.toList }
  have hoptions : readLines path shard (index + 1) opened (block.options.map optionLine) =
      .ok { opened with values := insertAll state.values block.values } :=
    readLines_options path (lowerName_ne_empty h.token) h.options h.plain h.distinct
      (fun option _ => hnone option.1) (index + 1)
  refine ⟨{ opened with values := insertAll state.values block.values }, ?_, rfl, rfl, ?_⟩
  · rw [Block.lines, readLines, readLine_header path h hnew, Outcome.ok_bind]
    exact hoptions
  · intro key value hvalue
    rcases OrderedMap.mem_of_get?_foldl_insert hvalue with hmem | hold
    · obtain ⟨option, _, heq⟩ := List.mem_map.1 hmem
      cases heq
      exact List.mem_cons_self
    · exact List.mem_cons_of_mem _ (hseen key value hold)

/-- Blocks that the reader takes one after another. -/
structure ValidBlocks (shard : Option Bool) (blocks : List Block) : Prop where
  valid : ∀ block ∈ blocks, block.Valid shard
  distinct : (blocks.map fun block => lowerName block.name.toList).Nodup

theorem readLines_blocks {blocks : List Block} (h : ValidBlocks shard blocks) {state : IniState}
    (hseen : state.Seen)
    (hnew : ∀ block ∈ blocks, lowerName block.name.toList ∉ state.sections) (index : Nat) :
    ∃ next, readLines path shard index state (fileLines blocks) = .ok next ∧
      next.values = insertAll state.values (blocks.flatMap Block.values) := by
  induction blocks generalizing state index with
  | nil => exact ⟨state, rfl, rfl⟩
  | cons block rest ih =>
    obtain ⟨hhead, htail⟩ := List.nodup_cons.1 h.distinct
    obtain ⟨next, hnext, hvalues, hsections, hseen⟩ := readLines_block path
      (h.valid block List.mem_cons_self).legible hseen (hnew block List.mem_cons_self) index
    have hrest : ValidBlocks shard rest :=
      ⟨fun b hb => h.valid b (List.mem_cons_of_mem _ hb), htail⟩
    have hnew' : ∀ b ∈ rest, lowerName b.name.toList ∉ next.sections := by
      intro b hb hmem
      rw [hsections, List.mem_cons] at hmem
      rcases hmem with heq | hmem
      · exact hhead (List.mem_map.2 ⟨b, hb, heq⟩)
      · exact hnew b (List.mem_cons_of_mem _ hb) hmem
    cases rest with
    | nil =>
      refine ⟨next, ?_, by simpa using hvalues⟩
      simpa [fileLines] using hnext
    | cons second rest =>
      obtain ⟨last, hlast, hlastValues⟩ := ih hrest hseen hnew' (index + block.lines.length + 1)
      refine ⟨last, ?_, ?_⟩
      · rw [fileLines, List.map_cons, List.map_cons, List.intercalate_cons_cons, List.append_assoc,
          readLines_append, hnext, Outcome.ok_bind, List.singleton_append, readLines, readLine_nil,
          Outcome.ok_bind]
        rw [fileLines, List.map_cons] at hlast
        exact hlast
      · rw [hlastValues, hvalues, ← insertAll_append]
        rfl

/-! ### The text of a file -/

/-- A section and its lines without the last line feed. -/
def Block.text (block : Block) : Text :=
  block.header ++ '\n' :: ['\n'].intercalate (block.options.map optionLine)

/-- The sections, with an empty line between two of them. -/
def fileText (blocks : List Block) : Text := ['\n', '\n'].intercalate (blocks.map Block.text)

theorem text_newline {block : Block} (h : block.options ≠ []) :
    block.text ++ ['\n'] = Text.unlines block.lines := by
  have hne : block.options.map optionLine ≠ [] := by simpa using h
  have hlines := Text.intercalate_newline hne
  rw [Block.text, List.append_assoc, List.cons_append, hlines, Block.lines, Text.unlines,
    Text.unlines, List.flatMap_cons]
  simp

theorem fileText_newline {blocks : List Block} (h : blocks ≠ [])
    (hoptions : ∀ block ∈ blocks, block.options ≠ []) :
    fileText blocks ++ ['\n'] = Text.unlines (fileLines blocks) := by
  induction blocks with
  | nil => exact absurd rfl h
  | cons block rest ih =>
    have hblock := text_newline (hoptions block List.mem_cons_self)
    cases rest with
    | nil => simpa [fileText, fileLines] using hblock
    | cons next rest =>
      have hrest := ih (List.cons_ne_nil next rest) fun b hb => hoptions b (List.mem_cons_of_mem _ hb)
      rw [fileText, List.map_cons] at hrest
      rw [fileLines, List.map_cons] at hrest
      rw [fileText, fileLines, List.map_cons, List.map_cons, List.map_cons, List.map_cons,
        List.intercalate_cons_cons, List.intercalate_cons_cons, Text.unlines_append,
        Text.unlines_append, ← hblock, List.append_assoc, hrest]
      simp [Text.unlines]

theorem Block.Legible.isLine {block : Block} (h : block.Legible shard) :
    ∀ line ∈ block.lines, Text.IsLine line := by
  have hname : ∀ {name : String}, IsToken name → ∀ c ∈ name.toList, c ≠ '\n' ∧ c ≠ '\r' := by
    intro name hname c hc
    have hout := (hname.2 c hc).2
    simp only [List.mem_cons, not_or] at hout
    exact ⟨hout.2.2.1, hout.2.1⟩
  intro line hline
  have hline : ∀ c ∈ line, c ≠ '\n' ∧ c ≠ '\r' := by
    intro c hc
    rw [Block.lines, List.mem_cons, List.mem_map] at hline
    rcases hline with rfl | ⟨option, hoption, rfl⟩
    · simp only [Block.header, List.cons_append, List.mem_cons, List.mem_append,
        List.not_mem_nil, or_false] at hc
      rcases hc with rfl | hc | rfl
      · decide
      · exact hname h.token c hc
      · decide
    · simp only [optionLine, List.mem_append, List.mem_cons] at hc
      rcases hc with hc | rfl | rfl | rfl | hc
      · exact hname (h.options option hoption).token c hc
      · decide
      · decide
      · decide
      · obtain ⟨_, hr, hn⟩ := h.plain option hoption
        exact ⟨fun heq => hn (heq ▸ hc), fun heq => hr (heq ▸ hc)⟩
  exact Text.IsLine.of_not_mem (fun hc => (hline _ hc).1 rfl) fun hc => (hline _ hc).2 rfl

theorem isLine_fileLines {blocks : List Block} (h : ∀ block ∈ blocks, block.Valid shard) :
    ∀ line ∈ fileLines blocks, Text.IsLine line := by
  intro line hline
  rw [fileLines] at hline
  rcases Text.mem_intercalate hline with rfl | ⟨part, hpart, hline⟩
  · exact Text.IsLine.of_not_mem (by simp) (by simp)
  · obtain ⟨block, hb, rfl⟩ := List.mem_map.1 hpart
    exact (h block hb).legible.isLine line hline

/-- The text of a file, with a line feed at its end unless it is empty. -/
def fileSource (blocks : List Block) : Text :=
  if fileText blocks = [] then [] else fileText blocks ++ ['\n']

/-- What the reader finds in a file that was put together. -/
theorem parse_blocks {blocks : List Block} (h : ValidBlocks shard blocks)
    (hoptions : ∀ block ∈ blocks, block.options ≠ [])
    (hsize : Text.utf8Length (fileSource blocks) ≤ maxIniBytes) :
    Ini.parse path (fileSource blocks) shard =
      .ok { path, values := .ofList (blocks.flatMap Block.values) } := by
  have hlines : Text.lines (fileSource blocks) = fileLines blocks := by
    cases blocks with
    | nil => rfl
    | cons block rest =>
      have hne : fileText (block :: rest) ≠ [] := by
        cases rest <;> simp [fileText, Block.text, Block.header]
      rw [fileSource, if_neg hne, fileText_newline (List.cons_ne_nil _ _) hoptions,
        Text.lines_unlines (isLine_fileLines h.valid)]
  have hseen : IniState.Seen {} := fun key value hvalue => by simp at hvalue
  obtain ⟨state, hstate, hvalues⟩ := readLines_blocks path h hseen (by simp) 0
  rw [Ini.parse, Outcome.ensure_of hsize, Outcome.ok_bind, hlines, hstate, Outcome.ok_bind, hvalues]
  rfl

end DstServer.Configuration
