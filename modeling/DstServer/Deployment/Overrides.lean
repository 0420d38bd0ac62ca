import DstServer.Deployment.Dropins

/-!
# What a drop-in overrides

How systemd reads a drop-in (`Systemd.read`), and what the check of an
update promises about it.

* `Systemd` is the part of systemd that the reading rests on: where lines
  end, and which variables a value of `Environment` assigns.  `Documented`
  is what its documentation says of them.
* `Override` is a drop-in that sets what the update changes.
* `mem_all_of_read` carries the proof: where both readers see the same
  headers, each assignment that systemd reads is one that `parse_sections`
  reads.
-/

namespace DstServer.Deployment

open Lib

/-! ## How systemd reads a drop-in -/

structure Systemd where
  /-- The lines of a file. -/
  lines : Text → List Text
  /-- The variables that a value of `Environment` assigns. -/
  assigned : Text → List Text

namespace Systemd

/-- The whitespace of systemd. -/
def blank (c : Char) : Bool := c = ' ' || c = '\t' || c = '\n' || c = '\r'

def isComment (line : Text) : Bool :=
  (line.dropWhile blank).head? = some '#' || (line.dropWhile blank).head? = some ';'

/-- A backslash that nothing escapes ends the line. -/
def continued (line : Text) : Bool := line.foldl (fun escaped c => !escaped && c = '\\') false

structure Assignment where
  sectionName : Text
  key : Text
  value : Text

/-- A whole line in a section: the section after it and what it assigns.
A header that is not closed ends the reading. -/
def readLine (sectionName : Option Text) (line : Text) :
    Option (Option Text × List Assignment) :=
  let text := Text.strip blank line
  if text.head? = some '[' then
    ([']'].isSuffixOf? text.tail).map fun name => (some name, [])
  else
    match sectionName, Text.splitOnce (· = '=') text with
    | some name, some (key, value) =>
      some (some name, [⟨name, Text.strip blank key, Text.strip blank value⟩])
    | _, _ => some (sectionName, [])

/-- The lines in a section, after the beginning of a continued line. -/
def readLines (sectionName : Option Text) (pending : Text) : List Text → List Assignment
  | [] => (readLine sectionName pending).elim [] Prod.snd
  | line :: rest =>
    if isComment line then readLines sectionName pending rest
    else
      let whole := pending ++ line.dropWhile blank
      if continued whole then readLines sectionName (whole.dropLast ++ [' ']) rest
      else
        match readLine sectionName whole with
        | some (sectionName, assignments) => assignments ++ readLines sectionName [] rest
        | none => []

def read (systemd : Systemd) (source : Text) : List Assignment :=
  readLines none [] (systemd.lines source)

/-- The directories of the drop-ins of a name: the one of all containers,
one for each beginning of the name that ends in a dash, and its own. -/
def directories (name : Text) : List Text :=
  "container.d".toList ::
    ((name.inits.filter (·.getLast? = some '-')).map (· ++ ".container.d".toList) ++
      [name ++ ".container.d".toList])

/-- A file that is read as a drop-in. -/
def IsDropin (file : Text) : Prop := ".conf".toList <:+ file ∧ file.head? ≠ some '.'

/-- The drop-in of this name with this content is read for a unit: no later
directory has a file of its name. -/
def Reads (directory : UnitDirectory) (name file source : Text) : Prop :=
  IsDropin file ∧ ∃ before dir after files,
    directories name = before ++ dir :: after ∧
    directory.dropinFiles dir = .ok (some files) ∧ files.get? file = some (.ok source) ∧
    ∀ later ∈ after, ∀ files, directory.dropinFiles later = .ok (some files) →
      files.get? file = none

end Systemd

/-- The lines of a text end in a line feed, with or without a carriage
return. -/
def plainEnds : Text → Bool
  | [] => true
  | c :: rest => c ≠ '\x00' && (c ≠ '\r' || rest.head? = some '\n') && plainEnds rest

/-- What systemd documents: lines end as usual, and a quoted assignment
between whitespace assigns no other variable than its own. -/
structure Systemd.Documented (systemd : Systemd) : Prop where
  lines : ∀ source, plainEnds source = true → systemd.lines source = Text.lines source
  assigned : ∀ entry before after, IsAssignment entry →
    (∀ c ∈ before, Text.isWhitespace c = true) → (∀ c ∈ after, Text.isWhitespace c = true) →
    ∀ assignedName ∈ systemd.assigned (before ++ (quote (assignment entry) ++ after)),
      validEnvironmentName assignedName = true → assignedName = entry.1

/-! ## What a drop-in may not set -/

/-- The values of a key in the text of a unit, when there is one. -/
def writtenValues (unit : Option ContainerUnit) (sectionName name : String) : List Text :=
  unit.elim [] fun unit => valuesAt sectionName name unit.sections

/-- The value of a variable of a unit, when there is one. -/
def writtenVariable (unit : Option ContainerUnit) (environmentName : Text) : Option Text :=
  unit.bind (·.environment.get? environmentName)

/-- An assignment of a drop-in that overrides what an update sets.  The key
has other values than before, and it is not the environment or it is reset;
or a variable in the environment has another value than before. -/
def Override (systemd : Systemd) (old : Option ContainerUnit) (unit : ContainerUnit)
    (set : Systemd.Assignment) : Prop :=
  ∃ sectionName name : String, set.sectionName = sectionName.toList ∧ set.key = name.toList ∧
    (writtenValues old sectionName name ≠ writtenValues (some unit) sectionName name ∧
        (fieldKey sectionName name ≠ environmentKey ∨ set.value = []) ∨
      fieldKey sectionName name = environmentKey ∧
        ∃ assignedName ∈ systemd.assigned set.value,
          writtenVariable old assignedName ≠ writtenVariable (some unit) assignedName)

/-- No drop-in overrides what the update changes. -/
def NoOverrides (lib : Libraries) (systemd : Systemd) (unit : ContainerUnit)
    (directory : UnitDirectory) : Prop :=
  ∃ old, unit.saved lib directory = .ok old ∧
    ∀ file source, Systemd.Reads directory unit.name file source →
      ∀ set ∈ systemd.read source, ¬Override systemd old unit set

/-- A line that the two readers take for the same: where `parse_sections`
sees a header, or a comment with a backslash at its end, so does systemd. -/
def SeenAlike (line : Text) : Prop :=
  ((Text.trim line).head? = some '[' ∧ (Text.trim line).getLast? = some ']' ∨
    isSkipped (Text.trim line) = true ∧ line.getLast? = some '\\') →
  (line.dropWhile Systemd.blank).head? = (Text.trim line).head?

instance (line : Text) : Decidable (SeenAlike line) := by
  unfold SeenAlike
  infer_instance

/-- A text with the usual ends of lines, whose lines are seen alike. -/
def PlainSource (source : Text) : Prop :=
  plainEnds source = true ∧ ∀ line ∈ Text.lines source, SeenAlike line

instance (source : Text) : Decidable (PlainSource source) := by
  unfold PlainSource
  infer_instance

/-! ## The directories and the files in them -/

theorem dashPrefixes_eq (seen rest : Text) :
    dashPrefixes seen rest =
      ((rest.inits.tail).map (seen ++ ·)).filter (·.getLast? = some '-') := by
  induction rest generalizing seen with
  | nil => rfl
  | cons c rest ih =>
    have hinits : (c :: rest).inits.tail = [c] :: rest.inits.tail.map (c :: ·) := by
      cases rest <;> rfl
    have hmap : (rest.inits.tail.map (c :: ·)).map (seen ++ ·) =
        rest.inits.tail.map (seen ++ [c] ++ ·) := by
      rw [List.map_map]
      exact List.map_congr_left fun t _ => by simp
    have hlast : (seen ++ [c]).getLast? = some '-' ↔ c = '-' := by
      rw [List.getLast?_concat, Option.some.injEq]
    rw [hinits, List.map_cons, hmap, List.filter_cons, ← ih, dashPrefixes]
    by_cases hc : c = '-'
    · simp [hc]
    · simp [hc]

theorem dropinDirectories_eq (name : Text) :
    dropinDirectories name = Systemd.directories name := by
  have hprefixes : dashPrefixes [] name = name.inits.filter (·.getLast? = some '-') := by
    have hmap : name.inits.tail.map ([] ++ ·) = name.inits.tail := List.map_id _
    rw [dashPrefixes_eq, hmap]
    cases name <;> rfl
  rw [dropinDirectories, Systemd.directories, hprefixes]
  rfl

theorem extension_of_isDropin {file : Text} (h : Systemd.IsDropin file) :
    extension file = some "conf".toList := by
  obtain ⟨⟨stem, rfl⟩, hhead⟩ := h
  have hsplit : Text.splitOnce (· = '.') (stem ++ ".conf".toList).reverse =
      some ("fnoc".toList, stem.reverse) := by
    rw [List.reverse_append]
    have hdot : '.' ∉ "fnoc".toList := by decide
    exact Text.splitOnce_of_not_mem hdot _
  have hstem : stem.reverse ≠ [] := by
    intro hnil
    rw [List.reverse_eq_nil_iff] at hnil
    rw [hnil] at hhead
    exact hhead rfl
  unfold extension
  rw [hsplit]
  show (if stem.reverse = [] then none else some "fnoc".toList.reverse) = _
  rw [if_neg hstem]
  rfl

theorem get?_insertDropins_of_not_mem (directory : Text) {file : Text}
    (files : OrderedMap Text Dropin) {entries : List (Text × Outcome String Text)}
    (h : file ∉ entries.map Prod.fst) :
    (insertDropins directory files entries).get? file = files.get? file := by
  induction entries generalizing files with
  | nil => rfl
  | cons entry rest ih =>
    rw [List.map_cons, List.mem_cons, not_or] at h
    rw [insertDropins]
    split
    · rw [ih _ h.2, OrderedMap.get?_insert_of_ne h.1]
    · exact ih _ h.2

theorem get?_insertDropins_of_mem (directory : Text) {file : Text}
    (hfile : extension file = some "conf".toList) (files : OrderedMap Text Dropin)
    {entries : List (Text × Outcome String Text)} (hnodup : (entries.map Prod.fst).Nodup)
    {source : Outcome String Text} (h : (file, source) ∈ entries) :
    (insertDropins directory files entries).get? file =
      some { path := joinPath directory file, source } := by
  induction entries generalizing files with
  | nil => cases h
  | cons entry rest ih =>
    rw [List.map_cons, List.nodup_cons] at hnodup
    rw [insertDropins]
    cases h with
    | head =>
      rw [if_pos hfile, get?_insertDropins_of_not_mem _ _ hnodup.1, OrderedMap.get?_insert_self]
    | tail _ h =>
      split
      · exact ih _ hnodup.2 h
      · exact ih _ hnodup.2 h

/-- The file of the last directory that has one of this name. -/
theorem get?_collectDropins {directory : UnitDirectory} {file : Text}
    {files result : OrderedMap Text Dropin}
    {names : List Text} (h : collectDropins directory files names = .ok result) {dropin : Dropin}
    (hget : files.get? file = some dropin)
    (hlater : ∀ later ∈ names, ∀ files, directory.dropinFiles later = .ok (some files) →
      files.get? file = none) : result.get? file = some dropin := by
  induction names generalizing files with
  | nil =>
    cases h
    exact hget
  | cons name rest ih =>
    rw [List.forall_mem_cons] at hlater
    rw [collectDropins, Outcome.bind_eq_ok] at h
    obtain ⟨entries, hentries, h⟩ := h
    cases entries with
    | none => exact ih h hget hlater.2
    | some entries =>
      apply ih h _ hlater.2
      have hnone := OrderedMap.get?_eq_none_iff.1 (hlater.1 entries hentries)
      rw [get?_insertDropins_of_not_mem _ _ hnone]
      exact hget

theorem get?_collectDropins_append {directory : UnitDirectory} {file dir source : Text}
    {start result : OrderedMap Text Dropin} (before : List Text) {after : List Text}
    (h : collectDropins directory start (before ++ dir :: after) = .ok result)
    {files : OrderedMap Text (Outcome String Text)}
    (hfiles : directory.dropinFiles dir = .ok (some files))
    (hfile : extension file = some "conf".toList) (hget : files.get? file = some (.ok source))
    (hlater : ∀ later ∈ after, ∀ files, directory.dropinFiles later = .ok (some files) →
      files.get? file = none) :
    result.get? file =
      some { path := joinPath (joinPath directory.path dir) file, source := .ok source } := by
  induction before generalizing start with
  | nil =>
    rw [List.nil_append, collectDropins, hfiles, Outcome.ok_bind] at h
    apply get?_collectDropins h _ hlater
    exact get?_insertDropins_of_mem _ hfile _ files.keys_nodup (OrderedMap.mem_entries_iff.2 hget)
  | cons other before ih =>
    rw [List.cons_append, collectDropins, Outcome.bind_eq_ok] at h
    obtain ⟨entries, _, h⟩ := h
    cases entries with
    | none => exact ih h
    | some entries => exact ih h

theorem mem_dropins {directory : UnitDirectory} {name file source : Text} {found : List Dropin}
    (h : dropins directory name = .ok found)
    (hreads : Systemd.Reads directory name file source) :
    ∃ dropin ∈ found, dropin.source = .ok source := by
  obtain ⟨hdropin, before, dir, after, files, hdirectories, hfiles, hget, hlater⟩ := hreads
  have hfile := extension_of_isDropin hdropin
  rw [dropins, Outcome.bind_eq_ok] at h
  obtain ⟨result, hcollect, h⟩ := h
  cases h
  rw [dropinDirectories_eq, hdirectories] at hcollect
  have hget := get?_collectDropins_append before hcollect hfiles hfile hget hlater
  exact ⟨_, OrderedMap.mem_values_iff.2 ⟨file, hget⟩, rfl⟩

/-! ## A line for either reader -/

theorem isWhitespace_of_blank {c : Char} (h : Systemd.blank c = true) :
    Text.isWhitespace c = true := by
  simp only [Systemd.blank, Bool.or_eq_true, decide_eq_true_eq] at h
  rcases h with ((rfl | rfl) | rfl) | rfl <;> rfl

theorem trim_strip_blank (line : Text) :
    Text.trim (Text.strip Systemd.blank line) = Text.trim line :=
  Text.trim_strip (fun _ => isWhitespace_of_blank) line

theorem readLine_dropWhile (sectionName : Option Text) (line : Text) :
    Systemd.readLine sectionName (line.dropWhile Systemd.blank) =
      Systemd.readLine sectionName line := by
  have hstrip : Text.strip Systemd.blank (line.dropWhile Systemd.blank) =
      Text.strip Systemd.blank line := by
    rw [Text.strip, Text.strip, List.dropWhile_idempotent]
  unfold Systemd.readLine
  rw [hstrip]

theorem getLast?_of_continued {line : Text}
    (h : Systemd.continued (line.dropWhile Systemd.blank) = true) :
    line.getLast? = some '\\' := by
  obtain hnil | ⟨init, c, hinit⟩ := (line.dropWhile Systemd.blank).eq_nil_or_concat'
  · rw [hnil] at h
    cases h
  · rw [hinit, Systemd.continued, List.foldl_concat, Bool.and_eq_true, decide_eq_true_eq] at h
    rw [← List.takeWhile_append_dropWhile (p := Systemd.blank) (l := line), hinit,
      ← List.append_assoc, List.getLast?_concat, h.2]

/-- The visible character that a line begins with. -/
theorem head?_trim_of_dropWhile {c : Char} {line : Text}
    (h : (line.dropWhile Systemd.blank).head? = some c) (hc : Text.isWhitespace c = false) :
    (Text.strip Systemd.blank line).head? = some c ∧ (Text.trim line).head? = some c := by
  obtain ⟨rest, hrest⟩ := List.head?_eq_some_iff.1 h
  have hblank : ¬Systemd.blank c = true := by
    intro hblank
    rw [isWhitespace_of_blank hblank] at hc
    cases hc
  have hstrip : ∃ rest', Text.strip Systemd.blank line = c :: rest' := by
    rw [Text.strip, hrest]
    obtain ⟨tail, htail⟩ := List.rdropWhile_prefix Systemd.blank (c :: rest)
    cases hdrop : (c :: rest).rdropWhile Systemd.blank with
    | nil => exact absurd (List.rdropWhile_eq_nil_iff.1 hdrop c List.mem_cons_self) hblank
    | cons d rest' =>
      rw [hdrop, List.cons_append, List.cons.injEq] at htail
      exact ⟨rest', by rw [htail.1]⟩
  obtain ⟨rest', hstrip⟩ := hstrip
  rw [← trim_strip_blank, hstrip, Text.trim_cons rest' hc]
  exact ⟨rfl, rfl⟩

/-- What `parse_sections` makes of a line. -/
theorem parseLine_cases {state result : Text × Fields} {line : Text}
    (h : parseLine state line = .ok result) :
    (∃ name, line = '[' :: (name ++ [']']) ∧ result = (name, state.2)) ∨
      ∃ key value, (∀ name, line ≠ '[' :: (name ++ [']'])) ∧
        Text.splitOnce (· = '=') line = some (key, value) ∧ value.getLast? ≠ some '\\' ∧
        result = (state.1, state.2.push
          (fieldKey (String.ofList state.1) (String.ofList (Text.trim key))) (Text.trim value)) := by
  rw [parseLine] at h
  cases hheader : (['['].isPrefixOf? line).bind ([']'].isSuffixOf? ·) with
  | some name =>
    rw [hheader] at h
    obtain ⟨rest, hprefix, hsuffix⟩ := Option.bind_eq_some_iff.1 hheader
    rw [List.isPrefixOf?_eq_some_iff_append_eq] at hprefix
    rw [List.isSuffixOf?_eq_some_iff_append_eq] at hsuffix
    left
    refine ⟨name, ?_, (Except.ok.inj h).symm⟩
    rw [hsuffix, ← hprefix]
    rfl
  | none =>
    rw [hheader] at h
    obtain ⟨⟨key, value⟩, hsplit, h⟩ := Outcome.bind_eq_ok.1 h
    obtain ⟨_, hcheck, h⟩ := Outcome.bind_eq_ok.1 h
    right
    refine ⟨key, value, ?_, Outcome.orError_eq_ok.1 hsplit, (Outcome.ensure_eq_ok.1 hcheck).2.2,
      (Except.ok.inj h).symm⟩
    intro name hname
    have hstart : ['['].isPrefixOf? line = some (name ++ [']']) := by
      rw [List.isPrefixOf?_eq_some_iff_append_eq, hname]
      rfl
    rw [hstart, Option.bind_some, Text.isSuffixOf?_append] at hheader
    cases hheader

/-- What systemd makes of a line: the section of a header, or assignments
whose key and value are the two parts of the line. -/
theorem readLine_cases {sectionName result : Option Text} {line : Text}
    {sets : List Systemd.Assignment}
    (h : Systemd.readLine sectionName line = some (result, sets)) :
    (∃ name, Text.strip Systemd.blank line = '[' :: (name ++ [']']) ∧ result = some name ∧
        sets = []) ∨
      (Text.strip Systemd.blank line).head? ≠ some '[' ∧ result = sectionName ∧
        ∀ set ∈ sets, sectionName = some set.sectionName ∧
          ∃ key value, Text.splitOnce (· = '=') (Text.trim line) = some (key, value) ∧
            Text.trim key = Text.trim set.key ∧ Text.trim value = Text.trim set.value := by
  unfold Systemd.readLine at h
  simp only at h
  split at h
  · rename_i hhead
    obtain ⟨rest, hrest⟩ := List.head?_eq_some_iff.1 hhead
    obtain ⟨name, hname, heq⟩ := Option.map_eq_some_iff.1 h
    cases heq
    rw [hrest, List.tail_cons, List.isSuffixOf?_eq_some_iff_append_eq] at hname
    left
    exact ⟨name, by rw [hname, hrest], rfl, rfl⟩
  · rename_i hhead
    right
    refine ⟨hhead, ?_⟩
    split at h
    · rename_i name key value hsplit
      cases h
      refine ⟨rfl, ?_⟩
      intro set hset
      rw [List.mem_singleton] at hset
      rw [hset]
      obtain ⟨key', value', htrim, hkey, hvalue⟩ := Text.splitOnce_trim rfl hsplit
      rw [trim_strip_blank] at htrim
      refine ⟨rfl, key', value', htrim, ?_, ?_⟩
      · rw [hkey, trim_strip_blank]
      · rw [hvalue, trim_strip_blank]
    · cases h
      refine ⟨rfl, ?_⟩
      intro set hset
      cases hset

/-! ## The readers agree -/

theorem mem_all_of_parseLine {state result : Text × Fields} {line value : Text}
    {sectionName name : String} (h : parseLine state line = .ok result)
    (hvalue : value ∈ state.2.all sectionName name) : value ∈ result.2.all sectionName name := by
  rcases parseLine_cases h with ⟨_, _, rfl⟩ | ⟨_, _, _, _, _, rfl⟩
  · exact hvalue
  · rw [all_push]
    split
    · exact List.mem_append_left _ hvalue
    · exact hvalue

/-- The reader keeps the values that it has read. -/
theorem mem_all_of_parseLines {state result : Text × Fields} {lines : List Text} {value : Text}
    {sectionName name : String} (h : parseLines state lines = .ok result)
    (hvalue : value ∈ state.2.all sectionName name) : value ∈ result.2.all sectionName name := by
  induction lines generalizing state with
  | nil =>
    cases h
    exact hvalue
  | cons line rest ih =>
    rw [parseLines] at h
    split at h
    · exact ih h hvalue
    · obtain ⟨next, hline, h⟩ := Outcome.bind_eq_ok.1 h
      exact ih h (mem_all_of_parseLine hline hvalue)

/-- A line that the reader skips has no visible character, or begins with
the mark of a comment. -/
theorem isSkipped_iff {line : Text} :
    isSkipped line = true ↔ line = [] ∨ line.head? = some '#' ∨ line.head? = some ';' := by
  simp [isSkipped, or_assoc]

theorem not_continued {line : Text} (halike : SeenAlike line)
    (hcomment : Systemd.isComment line = false)
    (h : isSkipped (Text.trim line) = true ∨
      ∃ state result, parseLine state (Text.trim line) = .ok result) :
    Systemd.continued (line.dropWhile Systemd.blank) = false := by
  by_contra hcontinued
  rw [Bool.not_eq_false] at hcontinued
  have hlast := getLast?_of_continued hcontinued
  have htrim := Text.getLast?_trim hlast rfl
  rcases h with hskip | ⟨_, _, hparse⟩
  · -- a comment for one reader is a comment for the other
    have hhead := halike (.inr ⟨hskip, hlast⟩)
    rcases isSkipped_iff.1 hskip with hnil | hmark
    · rw [hnil] at htrim
      cases htrim
    · rw [← hhead] at hmark
      rcases hmark with hmark | hmark
      all_goals
        rw [Systemd.isComment, hmark] at hcomment
        cases hcomment
  · rcases parseLine_cases hparse with ⟨name, hline, _⟩ | ⟨key, value, _, hsplit, hvalue, _⟩
    · rw [hline, ← List.cons_append, List.getLast?_concat] at htrim
      cases htrim
    · rw [(Text.eq_of_splitOnce hsplit).1, List.getLast?_append_cons] at htrim
      cases value with
      | nil => cases htrim
      | cons c rest =>
        rw [List.getLast?_cons_cons] at htrim
        exact hvalue htrim

/-- A key in a line that the reader skips is no name. -/
theorem not_isName_of_skipped {line key value : Text} {name : String}
    (hskip : isSkipped (Text.trim line) = true)
    (hsplit : Text.splitOnce (· = '=') (Text.trim line) = some (key, value))
    (hkey : Text.trim key = Text.trim name.toList) : ¬IsName name := by
  intro hname
  have hline := (Text.eq_of_splitOnce hsplit).1
  have hmark : ∀ mark : Char, Text.isWhitespace mark = false → mark.isAlpha = false →
      mark ≠ '=' → (Text.trim line).head? ≠ some mark := by
    intro mark hvisible halpha hne hhead
    rw [hline] at hhead
    cases key with
    | nil => exact hne (Option.some.inj hhead).symm
    | cons c rest =>
      rw [List.cons_append, List.head?_cons, Option.some.injEq] at hhead
      rw [hhead, Text.trim_cons rest hvisible, Text.trim_eq_self hname.trimmed] at hkey
      apply hname.not_mem halpha
      rw [← hkey]
      exact List.mem_cons_self
  rcases isSkipped_iff.1 hskip with hnil | hhead | hhead
  · rw [hnil] at hline
    exact absurd hline.symm (by simp)
  · exact hmark '#' rfl rfl (by decide) hhead
  · exact hmark ';' rfl rfl (by decide) hhead

theorem mem_readLines_cons {sectionName : Option Text} {line : Text} {rest : List Text}
    {set : Systemd.Assignment} (hcomment : Systemd.isComment line = false)
    (hcontinued : Systemd.continued (line.dropWhile Systemd.blank) = false)
    (h : set ∈ Systemd.readLines sectionName [] (line :: rest)) :
    ∃ next sets, Systemd.readLine sectionName line = some (next, sets) ∧
      (set ∈ sets ∨ set ∈ Systemd.readLines next [] rest) := by
  rw [Systemd.readLines, hcomment, if_neg (by decide)] at h
  simp only [List.nil_append] at h
  rw [hcontinued, if_neg (by decide), readLine_dropWhile] at h
  cases hline : Systemd.readLine sectionName line with
  | none =>
    rw [hline] at h
    cases h
  | some read =>
    rw [hline] at h
    exact ⟨read.1, read.2, rfl, List.mem_append.1 h⟩

theorem isSkipped_of_isComment {line : Text} (h : Systemd.isComment line = true) :
    isSkipped (Text.trim line) = true := by
  rw [Systemd.isComment, Bool.or_eq_true, decide_eq_true_eq, decide_eq_true_eq] at h
  rw [isSkipped_iff]
  rcases h with hmark | hmark
  · exact .inr (.inl (head?_trim_of_dropWhile hmark rfl).2)
  · exact .inr (.inr (head?_trim_of_dropWhile hmark rfl).2)

/-- A header for systemd is a header for `parse_sections`. -/
theorem trim_of_header {line name : Text}
    (h : Text.strip Systemd.blank line = '[' :: (name ++ [']'])) :
    Text.trim line = '[' :: (name ++ [']']) := by
  rw [← trim_strip_blank, h, ← List.cons_append]
  exact Text.trim_eq_self (Text.Trimmed.of_ends rfl rfl)

/-- A header for `parse_sections` begins one for systemd. -/
theorem head?_of_header {line name : Text} (halike : SeenAlike line)
    (h : Text.trim line = '[' :: (name ++ [']'])) :
    (Text.strip Systemd.blank line).head? = some '[' := by
  have hends : (Text.trim line).head? = some '[' ∧ (Text.trim line).getLast? = some ']' := by
    rw [h, ← List.cons_append, List.getLast?_concat]
    exact ⟨rfl, rfl⟩
  have hhead := halike (.inl hends)
  rw [hends.1] at hhead
  exact (head?_trim_of_dropWhile hhead rfl).1

/-- Each value that systemd reads for a key with a name is a value that
`parse_sections` reads for it.  The section of the one reader is that of the
other, once there was a header. -/
theorem mem_all_of_readLines {lines : List Text} (halike : ∀ line ∈ lines, SeenAlike line)
    {state result : Text × Fields} (h : parseLines state lines = .ok result)
    {sectionName : Option Text} (hsection : ∀ name ∈ sectionName, name = state.1)
    {set : Systemd.Assignment} (hset : set ∈ Systemd.readLines sectionName [] lines)
    {setSection name : String} (hname : IsName name) (hin : set.sectionName = setSection.toList)
    (hkey : set.key = name.toList) : Text.trim set.value ∈ result.2.all setSection name := by
  induction lines generalizing state sectionName with
  | nil =>
    have hnone : Systemd.readLine sectionName [] = some (sectionName, []) := by
      cases sectionName <;> rfl
    rw [Systemd.readLines, hnone] at hset
    cases hset
  | cons line rest ih =>
    rw [List.forall_mem_cons] at halike
    cases hcomment : Systemd.isComment line with
    | true =>
      rw [Systemd.readLines, hcomment, if_pos rfl] at hset
      rw [parseLines_skipped (isSkipped_of_isComment hcomment)] at h
      exact ih halike.2 h hsection hset
    | false =>
      by_cases hskip : isSkipped (Text.trim line) = true
      · rw [parseLines_skipped hskip] at h
        obtain ⟨next, sets, hread, hset⟩ :=
          mem_readLines_cons hcomment (not_continued halike.1 hcomment (.inl hskip)) hset
        rcases readLine_cases hread with ⟨header, hheader, _⟩ | ⟨_, hnext, hsets⟩
        · -- a header is not skipped
          rw [trim_of_header hheader] at hskip
          cases hskip
        · rw [hnext] at hset
          rcases hset with hset | hset
          · obtain ⟨_, key, value, hsplit, htrim, _⟩ := hsets set hset
            rw [hkey] at htrim
            exact absurd hname (not_isName_of_skipped hskip hsplit htrim)
          · exact ih halike.2 h hsection hset
      · rw [parseLines, if_neg hskip] at h
        obtain ⟨after, hparse, h⟩ := Outcome.bind_eq_ok.1 h
        obtain ⟨next, sets, hread, hset⟩ := mem_readLines_cons hcomment
          (not_continued halike.1 hcomment (.inr ⟨_, _, hparse⟩)) hset
        rcases parseLine_cases hparse with
          ⟨header, hline, hafter⟩ | ⟨key, value, hline, hsplit, _, hafter⟩
        · have hhead := head?_of_header halike.1 hline
          rcases readLine_cases hread with ⟨header', hheader, hnext, hsets⟩ | ⟨hnot, _⟩
          · rw [hsets, hnext] at hset
            rw [trim_of_header hheader] at hline
            have hsame : header' = header := by simpa using hline
            rcases hset with hset | hset
            · cases hset
            · apply ih halike.2 h _ hset
              intro name hname
              rw [hafter, ← hsame]
              exact (Option.some.inj hname).symm
          · exact absurd hhead hnot
        · rcases readLine_cases hread with ⟨header, hheader, _⟩ | ⟨_, hnext, hsets⟩
          · -- a header for systemd is one for the other reader
            exact absurd (trim_of_header hheader) (hline header)
          · rcases hset with hset | hset
            · obtain ⟨hcurrent, key', value', hsplit', htrim, htrim'⟩ := hsets set hset
              rw [hsplit, Option.some.injEq, Prod.mk.injEq] at hsplit'
              apply mem_all_of_parseLines h
              have hsectionName : String.ofList state.1 = setSection := by
                rw [← hsection _ hcurrent, hin, String.ofList_toList]
              have hkeyName : String.ofList (Text.trim key) = name := by
                rw [hsplit'.1, htrim, hkey, Text.trim_eq_self hname.trimmed, String.ofList_toList]
              rw [hafter, all_push, if_pos ⟨hsectionName.symm, hkeyName.symm⟩, hsplit'.2, htrim']
              exact List.mem_append_right _ (List.mem_singleton_self _)
            · apply ih halike.2 h _ hset
              rw [hafter, hnext]
              exact hsection

/-! ## Quoted assignments -/

theorem unquoteChars_eq_ok {inner text : Text} (h : unquoteChars inner = .ok text) :
    inner = text.flatMap quotedChar := by
  fun_induction unquoteChars inner generalizing text with
  | case1 =>
    cases h
    rfl
  | case2 next rest ih =>
    obtain ⟨_, hnext, h⟩ := Outcome.bind_eq_ok.1 h
    obtain ⟨result, hrest, h⟩ := Outcome.bind_eq_ok.1 h
    cases h
    rw [List.flatMap_cons, ← ih hrest]
    rcases Outcome.ensure_eq_ok.1 hnext with rfl | rfl <;> rfl
  | case3 => cases h
  | case4 c hc hmark d rest ih =>
    obtain ⟨_, hnext, h⟩ := Outcome.bind_eq_ok.1 h
    obtain ⟨result, hrest, h⟩ := Outcome.bind_eq_ok.1 h
    cases h
    rw [List.flatMap_cons, ← ih hrest, Outcome.ensure_eq_ok.1 hnext]
    rcases hmark with rfl | rfl <;> rfl
  | case5 => cases h
  | case6 => cases h
  | case7 c rest hc hmark hquote ih =>
    obtain ⟨result, hrest, h⟩ := Outcome.bind_eq_ok.1 h
    cases h
    rw [not_or] at hmark
    rw [List.flatMap_cons, ← ih hrest, quotedChar, if_neg hc, if_neg hmark.2, if_neg hmark.1,
      if_neg hquote]
    rfl

/-- The reader of quoted values takes nothing but what the writer writes. -/
theorem unquote_eq_ok {value text : Text} (h : unquote value = .ok text) :
    value = quote text ∧ ∀ c ∈ text, c ∉ ['\x00', '\r', '\n'] := by
  obtain ⟨rest, hprefix, h⟩ := Outcome.bind_eq_ok.1 h
  obtain ⟨inner, hsuffix, h⟩ := Outcome.bind_eq_ok.1 h
  obtain ⟨result, hinner, h⟩ := Outcome.bind_eq_ok.1 h
  obtain ⟨_, hliteral, h⟩ := Outcome.bind_eq_ok.1 h
  cases h
  rw [Outcome.orError_eq_ok, List.isPrefixOf?_eq_some_iff_append_eq] at hprefix
  rw [Outcome.orError_eq_ok, List.isSuffixOf?_eq_some_iff_append_eq] at hsuffix
  refine ⟨?_, literal_eq_ok.1 hliteral⟩
  rw [quote_eq, ← unquoteChars_eq_ok hinner, ← hprefix, ← hsuffix]
  rfl

theorem splitOnce_assignment {entry : Text × Text} (h : IsAssignment entry) :
    Text.splitOnce (· = '=') (assignment entry) = some entry :=
  Text.splitOnce_of_not_mem h.name entry.2

theorem exists_assignment {value text : Text} {entry : Text × Text} (h : unquote value = .ok text)
    (hsplit : Text.splitOnce (· = '=') text = some entry) :
    IsAssignment entry ∧ value = quote (assignment entry) := by
  obtain ⟨htext, hname⟩ := Text.eq_of_splitOnce hsplit
  obtain ⟨hvalue, hplain⟩ := unquote_eq_ok h
  rw [htext] at hvalue hplain
  exact ⟨⟨hname, hplain⟩, hvalue⟩

/-- A drop-in that passes sets other variables only. -/
theorem overlaps_eq_false {changed : List Text} {overlap : Bool} {values : List Text}
    (h : overlaps changed overlap values = .ok false) :
    overlap = false ∧ ∀ value ∈ values, value ≠ [] ∧
      ∃ entry, IsAssignment entry ∧ value = quote (assignment entry) ∧ entry.1 ∉ changed := by
  induction values generalizing overlap with
  | nil =>
    cases h
    exact ⟨rfl, fun value hvalue => absurd hvalue List.not_mem_nil⟩
  | cons value rest ih =>
    rw [overlaps] at h
    split at h
    · exact absurd (ih h).1 (by decide)
    · rename_i hne
      obtain ⟨text, hunquote, h⟩ := Outcome.bind_eq_ok.1 h
      obtain ⟨entry, hsplit, h⟩ := Outcome.bind_eq_ok.1 h
      obtain ⟨hoverlap, hrest⟩ := ih h
      rw [Bool.or_eq_false_iff, decide_eq_false_iff_not] at hoverlap
      obtain ⟨hassign, hvalue⟩ := exists_assignment hunquote (Outcome.orError_eq_ok.1 hsplit)
      refine ⟨hoverlap.1, ?_⟩
      rw [List.forall_mem_cons]
      exact ⟨⟨hne, entry, hassign, hvalue, hoverlap.2⟩, hrest⟩

theorem overlaps_quote {changed : List Text} {entry : Text × Text} (h : IsAssignment entry)
    (hname : entry.1 ∉ changed) :
    overlaps changed false [quote (assignment entry)] = .ok false := by
  have hne : quote (assignment entry) ≠ [] := by
    rw [quote_eq]
    exact List.cons_ne_nil _ _
  rw [overlaps, if_neg hne, unquote_quote h.plain, Outcome.ok_bind, splitOnce_assignment h]
  show overlaps changed (false || decide (entry.1 ∈ changed)) [] = .ok false
  rw [decide_eq_false hname]
  rfl

/-! ## What the update changes -/

theorem environmentValues_eq {entries : List (Text × Text)}
    (h : ∀ entry ∈ entries, IsAssignment entry) (values : OrderedMap Text Text) :
    environmentValues values (entries.map fun entry => quote (assignment entry)) =
      .ok (entries.foldl (fun m e => m.insert e.1 e.2) values) := by
  induction entries generalizing values with
  | nil => rfl
  | cons entry rest ih =>
    rw [List.forall_mem_cons] at h
    rw [List.map_cons, environmentValues, unquote_quote h.1.plain, Outcome.ok_bind,
      splitOnce_assignment h.1]
    exact ih h.2 _

section Update

variable {lib : Libraries} (hdecimal : lib.DecimalsGraphic) {old : Option ContainerUnit}
  {unit : ContainerUnit}

theorem environmentValues_fields (h : unit.Writable lib) :
    environmentValues .empty (unit.fields.all "Container" "Environment") =
      .ok unit.environment := by
  rw [(fields_lists unit).2.2.2, environmentValues_eq h.assignments]
  exact congrArg Except.ok (OrderedMap.ofList_entries unit.environment)

theorem ContainerUnit.Writable.validName (h : unit.Writable lib) {name value : Text}
    (hget : unit.environment.get? name = some value) : validEnvironmentName name = true := by
  rw [ContainerUnit.environment, OrderedMap.get?_insert] at hget
  split at hget
  · rename_i hname
    rw [hname]
    decide
  · exact (h.environmentNames _ (OrderedMap.mem_entries_iff.2 hget)).1

include hdecimal in
theorem ContainerUnit.Writable.isName (h : unit.Writable lib) {sectionName name : String}
    (hwritten : writtenValues (some unit) sectionName name ≠ []) : IsName name := by
  obtain ⟨value, hvalue⟩ := List.exists_mem_of_ne_nil _ hwritten
  obtain ⟨group, hgroup, hvalue⟩ := List.mem_flatMap.1 hvalue
  have hsection : IsSection group := by
    cases hgroup with
    | head => exact h.unitSection
    | tail _ hgroup => exact h.laterSections hdecimal group hgroup
  split at hvalue
  · obtain ⟨entry, hentry, _⟩ := List.mem_map.1 hvalue
    rw [List.mem_filter, decide_eq_true_eq] at hentry
    rw [← hentry.2]
    exact (hsection.2 entry hentry.1).1
  · cases hvalue

include hdecimal in
theorem renderedFields_eq_ok {fields : Fields}
    (h : unit.renderedFields lib = .ok fields) : unit.Writable lib ∧ fields = unit.fields := by
  rw [ContainerUnit.renderedFields, Outcome.bind_eq_ok] at h
  obtain ⟨text, hrender, h⟩ := h
  rw [ContainerUnit.render, Outcome.bind_eq_ok] at hrender
  obtain ⟨_, hvalid, hrender⟩ := hrender
  rw [← Except.ok.inj hrender] at h
  have hwritable := validate_writable hvalid
  rw [parseSections_text hwritable hdecimal] at h
  exact ⟨hwritable, (Except.ok.inj h).symm⟩

theorem get?_fields (unit : ContainerUnit) (sectionName name : String) :
    unit.fields.get? (fieldKey sectionName name) =
      if writtenValues (some unit) sectionName name = [] then none
      else some (writtenValues (some unit) sectionName name) := by
  rw [get?_eq_of_noEmpty (fields_noEmpty unit), fields_all]
  rfl

/-- Versions that write the same environment have the same variables. -/
theorem writtenVariable_congr (hold : ∀ unit ∈ old, unit.Writable lib) (hunit : unit.Writable lib)
    (h : writtenValues old "Container" "Environment" =
      writtenValues (some unit) "Container" "Environment") (name : Text) :
    writtenVariable old name = writtenVariable (some unit) name := by
  have hvalues := environmentValues_fields hunit
  have hwritten : unit.fields.all "Container" "Environment" =
      writtenValues old "Container" "Environment" := (fields_all _ _ _).trans h.symm
  rw [hwritten] at hvalues
  cases old with
  | none =>
    have hempty : unit.environment = .empty := (Except.ok.inj hvalues).symm
    show none = unit.environment.get? name
    rw [hempty]
    rfl
  | some old =>
    have hbefore := environmentValues_fields (hold old rfl)
    rw [fields_all] at hbefore
    show old.environment.get? name = unit.environment.get? name
    rw [Except.ok.inj (hbefore.symm.trans hvalues)]

/-- A key that is written with other values is one of the changed keys. -/
theorem mem_changedKeys {sectionName name : String}
    (h : writtenValues old sectionName name ≠ writtenValues (some unit) sectionName name) :
    fieldKey sectionName name ∈ changedKeys (old.map ContainerUnit.fields) unit.fields := by
  have hdiffer : (old.map ContainerUnit.fields).bind (·.get? (fieldKey sectionName name)) ≠
      unit.fields.get? (fieldKey sectionName name) := by
    intro heq
    rw [get?_fields] at heq
    apply h
    cases old with
    | none =>
      split at heq
      · rename_i hnil
        exact hnil.symm
      · cases heq
    | some old =>
      rw [Option.map_some, Option.bind_some, get?_fields] at heq
      split at heq <;> split at heq
      · simp_all
      · cases heq
      · cases heq
      · exact Option.some.inj heq
  rw [changedKeys, List.mem_filter]
  refine ⟨?_, decide_eq_true hdiffer⟩
  rw [List.mem_append]
  cases hget : unit.fields.get? (fieldKey sectionName name) with
  | some values => exact .inl (OrderedMap.mem_keys_iff.2 ⟨values, hget⟩)
  | none =>
    right
    rw [hget] at hdiffer
    obtain ⟨values, hvalues⟩ := Option.ne_none_iff_exists'.1 hdiffer
    obtain ⟨fields, hfields, hvalues⟩ := Option.bind_eq_some_iff.1 hvalues
    rw [hfields]
    exact List.mem_flatMap.2
      ⟨fields, List.mem_singleton_self _, OrderedMap.mem_keys_iff.2 ⟨values, hvalues⟩⟩

/-- A variable that is not among the changed ones keeps its value. -/
theorem writtenVariable_eq {changed : List Text} (hold : ∀ unit ∈ old, unit.Writable lib)
    (hunit : unit.Writable lib)
    (h : changedEnvironment (old.map ContainerUnit.fields) unit.fields = .ok changed)
    {name : Text} (hname : name ∉ changed) :
    writtenVariable old name = writtenVariable (some unit) name := by
  obtain ⟨before, hbefore, h⟩ := Outcome.bind_eq_ok.1 h
  obtain ⟨after, hafter, h⟩ := Outcome.bind_eq_ok.1 h
  cases h
  have hafter' : after = unit.environment := by
    have hvalues := environmentValues_fields hunit
    rw [Fields.all] at hvalues
    exact Except.ok.inj (hafter.symm.trans hvalues)
  have hbefore' : ∀ name, before.get? name = writtenVariable old name := by
    intro name
    cases old with
    | none =>
      cases hbefore
      rfl
    | some old =>
      have hvalues := environmentValues_fields (hold old rfl)
      rw [Fields.all] at hvalues
      rw [Except.ok.inj (hbefore.symm.trans hvalues)]
      rfl
  by_contra hdiffer
  apply hname
  rw [hafter', List.mem_filter, hbefore']
  refine ⟨?_, decide_eq_true hdiffer⟩
  rw [List.mem_append]
  cases hget : unit.environment.get? name with
  | some value => exact .inr (OrderedMap.mem_keys_iff.2 ⟨value, hget⟩)
  | none =>
    left
    have hnew : writtenVariable (some unit) name = none := hget
    rw [hnew, ← hbefore'] at hdiffer
    obtain ⟨value, hvalue⟩ := Option.ne_none_iff_exists'.1 hdiffer
    exact OrderedMap.mem_keys_iff.2 ⟨value, hvalue⟩

/-- The values of a changed key that pass: they are assignments in the
environment, each of a variable that keeps its value. -/
theorem checkField_changed {fields : Fields} {path : Text} {sectionName name : String}
    (hold : ∀ unit ∈ old, unit.Writable lib) (hunit : unit.Writable lib)
    (hcheck : ∀ field ∈ fields.entries,
      checkField (old.map ContainerUnit.fields) unit.fields path field = .ok ())
    (hchanged : fieldKey sectionName name ∈ changedKeys (old.map ContainerUnit.fields) unit.fields)
    {value : Text} (hvalue : value ∈ fields.all sectionName name) :
    fieldKey sectionName name = environmentKey ∧ value ≠ [] ∧
      ∃ entry, IsAssignment entry ∧ value = quote (assignment entry) ∧
        writtenVariable old entry.1 = writtenVariable (some unit) entry.1 := by
  rw [Fields.all] at hvalue
  cases hget : fields.get? (fieldKey sectionName name) with
  | none =>
    rw [hget] at hvalue
    cases hvalue
  | some values =>
    rw [hget, Option.getD_some] at hvalue
    have hfield := hcheck _ (OrderedMap.mem_entries_iff.2 hget)
    rw [checkField, if_pos hchanged] at hfield
    split at hfield
    · rename_i hkey
      obtain ⟨changed, hnames, hfield⟩ := Outcome.bind_eq_ok.1 hfield
      obtain ⟨overlap, hoverlap, hfield⟩ := Outcome.bind_eq_ok.1 hfield
      rw [Outcome.ensure_eq_ok.1 hfield] at hoverlap
      obtain ⟨hne, entry, hassign, hquote, hname⟩ := (overlaps_eq_false hoverlap).2 value hvalue
      exact ⟨hkey, hne, entry, hassign, hquote, writtenVariable_eq hold hunit hnames hname⟩
    · cases hfield

/-- A variable that no unit can set is written in neither version. -/
theorem writtenVariable_eq_none (hold : ∀ unit ∈ old, unit.Writable lib) {name : Text}
    (h : validEnvironmentName name = false) : writtenVariable old name = none := by
  rw [writtenVariable, Option.bind_eq_none_iff]
  intro unit hunit
  by_contra hsome
  obtain ⟨value, hvalue⟩ := Option.ne_none_iff_exists'.1 hsome
  rw [(hold unit hunit).validName hvalue] at h
  cases h

include hdecimal in
/-- A drop-in that passes and that both readers see alike overrides
nothing. -/
theorem not_override {systemd : Systemd} (hsystemd : systemd.Documented)
    (hold : ∀ unit ∈ old, unit.Writable lib) (hunit : unit.Writable lib) {dropin : Dropin}
    {source : Text} (hsource : dropin.source = .ok source) (hplain : PlainSource source)
    (hcheck : checkFields (old.map ContainerUnit.fields) unit.fields dropin = .ok ())
    {set : Systemd.Assignment} (hset : set ∈ systemd.read source) :
    ¬Override systemd old unit set := by
  rintro ⟨sectionName, name, hin, hkey, hsets⟩
  have hdiffer : writtenValues old sectionName name ≠ writtenValues (some unit) sectionName name := by
    rcases hsets with ⟨hdiffer, _⟩ | ⟨henvironment, assignedName, _, hvariable⟩
    · exact hdiffer
    · rw [environmentKey, fieldKey, fieldKey, EmbeddingLike.apply_eq_iff_eq, Prod.mk.injEq]
        at henvironment
      rw [henvironment.1, henvironment.2]
      intro hsame
      exact hvariable (writtenVariable_congr hold hunit hsame assignedName)
  rw [checkFields, hsource, Outcome.ok_bind, Outcome.bind_eq_ok] at hcheck
  obtain ⟨_, hread, hcheck⟩ := hcheck
  obtain ⟨_, _, hread⟩ := Outcome.bind_eq_ok.1 hread
  obtain ⟨fields, hparse, hcheck⟩ := Outcome.bind_eq_ok.1 hcheck
  rw [← Except.ok.inj hread, parseSections, Outcome.bind_eq_ok] at hparse
  obtain ⟨state, hparse, hfields⟩ := hparse
  have hname : IsName name := by
    by_cases hnil : writtenValues (some unit) sectionName name = []
    · rw [hnil] at hdiffer
      cases old with
      | none => exact absurd rfl hdiffer
      | some old => exact (hold old rfl).isName hdecimal hdiffer
    · exact hunit.isName hdecimal hnil
  rw [Systemd.read, hsystemd.lines source hplain.1] at hset
  have hvalue := mem_all_of_readLines hplain.2 hparse (fun _ h => by cases h) hset hname hin hkey
  rw [Except.ok.inj hfields] at hvalue
  obtain ⟨henvironment, hne, entry, hassign, hquote, hkeeps⟩ := checkField_changed hold hunit
    (Outcome.forM_eq_ok.1 hcheck) (mem_changedKeys hdiffer) hvalue
  rcases hsets with ⟨_, hother | hreset⟩ | ⟨_, assignedName, hassigned, hvariable⟩
  · exact hother henvironment
  · rw [hreset] at hne
    exact hne rfl
  · obtain ⟨before, after, htext, hbefore, hafter⟩ :=
      Text.exists_strip Text.isWhitespace set.value
    rw [htext] at hassigned
    have htrim : Text.strip Text.isWhitespace set.value = quote (assignment entry) := hquote
    rw [htrim] at hassigned
    cases hvalid : validEnvironmentName assignedName with
    | true =>
      rw [hsystemd.assigned entry before after hassign hbefore hafter _ hassigned hvalid]
        at hvariable
      exact hvariable hkeeps
    | false =>
      have hnew : ∀ other ∈ some unit, other.Writable lib := by
        intro other hother
        rw [← Option.some.inj hother]
        exact hunit
      exact hvariable ((writtenVariable_eq_none hold hvalid).trans
        (writtenVariable_eq_none hnew hvalid).symm)

end Update

/-! ## The check of an update -/

/-- When an update passes, no drop-in that both readers see alike overrides
what it changes. -/
theorem update_respects_dropins (lib : Libraries) (hdecimal : lib.DecimalsGraphic)
    (systemd : Systemd) (hsystemd : systemd.Documented) (unit : ContainerUnit)
    (directory : UnitDirectory)
    (hplain : ∀ file source, Systemd.Reads directory unit.name file source → PlainSource source)
    (h : unit.validateUpdate lib directory = .ok ()) :
    NoOverrides lib systemd unit directory := by
  obtain ⟨_, _, h⟩ := Outcome.bind_eq_ok.1 h
  obtain ⟨updated, hupdated, h⟩ := Outcome.bind_eq_ok.1 h
  obtain ⟨old, hsaved, h⟩ := Outcome.bind_eq_ok.1 h
  obtain ⟨before, hbefore, h⟩ := Outcome.bind_eq_ok.1 h
  obtain ⟨found, hfound, h⟩ := Outcome.bind_eq_ok.1 h
  obtain ⟨hunit, hfields⟩ := renderedFields_eq_ok hdecimal hupdated
  have hold : (∀ unit ∈ old, unit.Writable lib) ∧ before = old.map ContainerUnit.fields := by
    cases old with
    | none =>
      cases hbefore
      refine ⟨?_, rfl⟩
      intro unit hmem
      cases hmem
    | some old =>
      cases hrendered : old.renderedFields lib with
      | error e =>
        rw [Option.mapM_some, hrendered] at hbefore
        cases hbefore
      | ok fields =>
        rw [Option.mapM_some, hrendered] at hbefore
        obtain ⟨hwritable, hfields⟩ := renderedFields_eq_ok hdecimal hrendered
        rw [hfields] at hbefore
        refine ⟨?_, (Except.ok.inj hbefore).symm⟩
        intro unit hmem
        rw [← Option.some.inj hmem]
        exact hwritable
  refine ⟨old, hsaved, fun file source hreads set hset => ?_⟩
  obtain ⟨dropin, hdropin, hsource⟩ := mem_dropins hfound hreads
  have hcheck := Outcome.forM_eq_ok.1 h dropin hdropin
  rw [hfields, hold.2] at hcheck
  exact not_override hdecimal hsystemd hold.1 hunit hsource (hplain file source hreads) hcheck hset

/-! ## A directory with one drop-in -/

/-- Systemd where every value is one quoted assignment. -/
def sampleSystemd : Systemd where
  lines := Text.lines
  assigned value :=
    match unquote (Text.trim value) with
    | .ok text => ((Text.splitOnce (· = '=') text).map Prod.fst).toList
    | .error _ => []

theorem sampleSystemd_documented : sampleSystemd.Documented where
  lines := fun _ _ => rfl
  assigned := by
    intro entry before after hassign hbefore hafter assignedName hassigned _
    have hquote : Text.Trimmed (quote (assignment entry)) := by
      rw [quote_eq]
      exact Text.Trimmed.of_ends rfl rfl
    have htrim : Text.trim (before ++ (quote (assignment entry) ++ after)) =
        quote (assignment entry) := by
      rw [Text.trim_append_left hbefore, Text.trim_append_right hafter, Text.trim_eq_self hquote]
    have hread : sampleSystemd.assigned (before ++ (quote (assignment entry) ++ after)) =
        [entry.1] := by
      unfold sampleSystemd
      simp only
      rw [htrim, unquote_quote hassign.plain]
      simp only
      rw [splitOnce_assignment hassign]
      rfl
    rw [hread, List.mem_singleton] at hassigned
    exact hassigned

/-- The units of a host with a drop-in for all containers. -/
def sampleDirectory (source : Text) : UnitDirectory where
  path := "/units".toList
  real := .ok ()
  unitFile := fun _ => .ok none
  dropinFiles := fun name =>
    if name = "container.d".toList then
      .ok (some (OrderedMap.ofList [("a.conf".toList, .ok source)]))
    else .ok none

theorem sampleUnit_writable : sampleUnit.Writable sampleLibraries :=
  @validate_writable sampleLibraries sampleUnit () rfl

theorem validateUpdate_sampleDirectory {source : Text} (h : checkFields none sampleUnit.fields
      ⟨"/units/container.d/a.conf".toList, .ok source⟩ = .ok ()) :
    sampleUnit.validateUpdate sampleLibraries (sampleDirectory source) = .ok () := by
  have hrender : sampleUnit.render sampleLibraries = .ok sampleUnit.text := by
    have hvalid : sampleUnit.validate sampleLibraries = .ok () := rfl
    rw [ContainerUnit.render, hvalid]
    rfl
  have hfields : sampleUnit.renderedFields sampleLibraries = .ok sampleUnit.fields := by
    rw [ContainerUnit.renderedFields, hrender, Outcome.ok_bind]
    exact parseSections_text sampleUnit_writable fun _ h => graphic_of_isDigit h
  have hdropins : dropins (sampleDirectory source) sampleUnit.name =
      .ok [⟨"/units/container.d/a.conf".toList, .ok source⟩] := by
    have hnames : dropinDirectories sampleUnit.name =
        ["container.d".toList, "dst-.container.d".toList, "dst-001.container.d".toList] := by decide
    have hconf : extension "a.conf".toList = some "conf".toList := by decide
    have hpath : joinPath (joinPath "/units".toList "container.d".toList) "a.conf".toList =
        "/units/container.d/a.conf".toList := by decide
    have hentries : (OrderedMap.ofList [("a.conf".toList, (.ok source : Outcome String Text))]).entries =
        [("a.conf".toList, .ok source)] := rfl
    rw [dropins, hnames]
    simp only [collectDropins, sampleDirectory, if_pos, Outcome.ok_bind, hentries, insertDropins,
      hconf, hpath]
    rw [if_neg (by decide), Outcome.ok_bind, if_neg (by decide)]
    rfl
  have hsaved : sampleUnit.saved sampleLibraries (sampleDirectory source) = .ok none := rfl
  unfold ContainerUnit.validateUpdate
  rw [hfields, hsaved, hdropins]
  exact Outcome.forM_eq_ok.2 fun dropin hdropin => by rw [List.mem_singleton.1 hdropin]; exact h

theorem reads_sampleDirectory {name file source text : Text}
    (h : Systemd.Reads (sampleDirectory source) name file text) : text = source := by
  obtain ⟨_, _, dir, _, files, _, hfiles, hget, _⟩ := h
  unfold sampleDirectory at hfiles
  simp only at hfiles
  split at hfiles
  · cases hfiles
    have hmem := OrderedMap.mem_of_get?_ofList hget
    rw [List.mem_singleton, Prod.mk.injEq] at hmem
    exact Except.ok.inj hmem.2
  · cases hfiles

theorem sampleDirectory_reads (source : Text) :
    Systemd.Reads (sampleDirectory source) sampleUnit.name "a.conf".toList source := by
  refine ⟨⟨⟨['a'], rfl⟩, by decide⟩, [], "container.d".toList, _, _, rfl, rfl, rfl, ?_⟩
  intro later hlater files hfiles
  have hall : ∀ later ∈ (sampleUnit.name.inits.filter (·.getLast? = some '-')).map
      (· ++ ".container.d".toList) ++ [sampleUnit.name ++ ".container.d".toList],
      later ≠ "container.d".toList := by decide
  have hother := hall later hlater
  unfold sampleDirectory at hfiles
  simp only at hfiles
  rw [if_neg hother] at hfiles
  cases hfiles

/-- A drop-in with a variable of its own. -/
def ownVariable : Text := "[Container]\n# more\nEnvironment=\"OTHER=1\"\n".toList

theorem checkFields_ownVariable (path : Text) :
    checkFields none sampleUnit.fields ⟨path, .ok ownVariable⟩ = .ok () := by
  have hparse : parseSections ownVariable =
      .ok (OrderedMap.ofList [(environmentKey, ["\"OTHER=1\"".toList])]) := rfl
  have hvalues := environmentValues_fields sampleUnit_writable
  rw [Fields.all] at hvalues
  have hchanged : changedEnvironment none sampleUnit.fields =
      .ok (sampleUnit.environment.keys.filter fun name =>
        none ≠ sampleUnit.environment.get? name) := by
    have hbefore : environmentValues .empty ((Option.bind none fun fields : Fields =>
        fields.get? environmentKey).getD []) = .ok .empty := rfl
    unfold changedEnvironment
    rw [hbefore, Outcome.ok_bind, environmentKey, hvalues]
    rfl
  have hkeys : "OTHER".toList ∉ sampleUnit.environment.keys := by decide
  have hname : "OTHER".toList ∉ sampleUnit.environment.keys.filter fun name =>
      none ≠ sampleUnit.environment.get? name := fun h => hkeys (List.mem_filter.1 h).1
  have hoverlap : overlaps (sampleUnit.environment.keys.filter fun name =>
      none ≠ sampleUnit.environment.get? name) false ["\"OTHER=1\"".toList] = .ok false := by
    have hquoted : "\"OTHER=1\"".toList = quote (assignment ("OTHER".toList, ['1'])) := by decide
    have hassign : IsAssignment ("OTHER".toList, ['1']) := ⟨by decide, by decide⟩
    rw [hquoted]
    exact overlaps_quote hassign hname
  unfold checkFields
  have hread : readRegular ownVariable = .ok ownVariable := rfl
  rw [Outcome.ok_bind, hread, Outcome.ok_bind, hparse, Outcome.ok_bind]
  apply Outcome.forM_eq_ok.2
  intro field hfield
  rw [List.mem_singleton.1 hfield, checkField]
  split
  · rw [if_pos rfl, hchanged, Outcome.ok_bind, hoverlap]
    rfl
  · rfl

theorem update_respects_dropins_ownVariable :
    NoOverrides sampleLibraries sampleSystemd sampleUnit (sampleDirectory ownVariable) :=
  update_respects_dropins sampleLibraries (fun _ h => graphic_of_isDigit h) sampleSystemd
    sampleSystemd_documented sampleUnit (sampleDirectory ownVariable)
    (fun _ _ hreads => by rw [reads_sampleDirectory hreads]; decide)
    (validateUpdate_sampleDirectory (checkFields_ownVariable _))

/-- A drop-in with a no-break space before its second header. -/
def hiddenHeader : Text := "[Container]\n\u00a0[Service]\nImage=other\n".toList

/-- For `parse_sections` the image is a key of the second section, and for
systemd it is one of the container. -/
theorem hiddenHeader_overrides :
    sampleUnit.validateUpdate sampleLibraries (sampleDirectory hiddenHeader) = .ok () ∧
      sampleLibraries.DecimalsGraphic ∧ sampleSystemd.Documented ∧
      ¬NoOverrides sampleLibraries sampleSystemd sampleUnit (sampleDirectory hiddenHeader) := by
  refine ⟨validateUpdate_sampleDirectory ?_, fun _ h => graphic_of_isDigit h,
    sampleSystemd_documented, ?_⟩
  · have hparse : parseSections hiddenHeader =
        .ok (OrderedMap.ofList [(fieldKey "Service" "Image", ["other".toList])]) := rfl
    have hunchanged : fieldKey "Service" "Image" ∉ changedKeys none sampleUnit.fields := by
      intro hmem
      rw [changedKeys, List.mem_filter, decide_eq_true_eq, get?_fields] at hmem
      exact hmem.2 rfl
    have hread : readRegular hiddenHeader = .ok hiddenHeader := rfl
    unfold checkFields
    rw [Outcome.ok_bind, hread, Outcome.ok_bind, hparse, Outcome.ok_bind]
    apply Outcome.forM_eq_ok.2
    intro field hfield
    rw [List.mem_singleton.1 hfield, checkField, if_neg hunchanged]
    rfl
  · rintro ⟨old, hold, hnone⟩
    cases hold
    apply hnone _ _ (sampleDirectory_reads hiddenHeader)
      ⟨"Container".toList, "Image".toList, "other".toList⟩
    · have hread : sampleSystemd.read hiddenHeader =
          [⟨"Container".toList, "Image".toList, "other".toList⟩] := rfl
      rw [hread]
      exact List.mem_singleton_self _
    · refine ⟨"Container", "Image", rfl, rfl, .inl ⟨?_, .inl (by decide)⟩⟩
      have himage : writtenValues (some sampleUnit) "Container" "Image" =
          [quote sampleUnit.options.image] := (fields_all _ _ _).symm.trans (fields_image sampleUnit)
      rw [himage]
      exact (List.cons_ne_nil _ _).symm

end DstServer.Deployment
