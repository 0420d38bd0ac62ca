import DstServer.Deployment.Sections

/-!
# A unit survives its file

`load` gives back the unit that `render` wrote (`load_render`).

* `text_eq_unlines` cuts the text of a unit into its lines, and
  `ContainerUnit.sections` lists the directives that it means.
* `ContainerUnit.Writable` is what the checks of a unit say about its
  values, and the `isValue_…` lemmas say that these can stand on a line.
* `parseSections_text` is what the reader makes of the file, and
  `loadVolumes_eq` and `loadEnvironment_eq` find the values again.
-/

namespace DstServer.Deployment

open Lib

/-! ## The text of a unit -/

def ContainerUnit.description (unit : ContainerUnit) : Text :=
  "Don't Starve Together ".toList ++ escape unit.name

/-- The directives of the container. -/
def ContainerUnit.containerEntries (unit : ContainerUnit) : List (String × Text) :=
  [("Image", quote unit.options.image), ("Pull", "never".toList),
    ("RunInit", "true".toList), ("Timezone", "local".toList),
    ("Exec", "/usr/local/bin/dst-server agent --cluster /cluster".toList),
    ("StopTimeout", "360".toList)] ++
  (if unit.options.image = defaultImage ∨ unit.options.image = betaImage then
    [("AutoUpdate", "registry".toList)] else []) ++
  [("Volume",
      volumeEscape (unit.cluster ++ ":/cluster".toList ++ unit.options.suffix)),
    ("Volume",
      volumeEscape (unit.cluster ++ "/mods:/install/mods".toList ++ unit.options.suffix))] ++
  unit.options.userns.toList.map (fun userns => ("UserNS", quote userns)) ++
  unit.options.ports.map (fun mapping => ("PublishPort", mapping.render)) ++
  unit.environment.entries.map
    (fun entry => ("Environment", quote (entry.1 ++ '=' :: entry.2)))

def serviceEntries : List (String × Text) :=
  [("Restart", "on-failure".toList), ("RestartSec", "5".toList),
    ("SuccessExitStatus", restartExit), ("RestartForceExitStatus", restartExit),
    ("TimeoutStartSec", "900".toList), ("TimeoutStopSec", "420".toList)]

/-- The sections after the first, with the directives that they mean. -/
def ContainerUnit.laterSections (unit : ContainerUnit) : List (String × List (String × Text)) :=
  [("Container", unit.containerEntries), ("Service", serviceEntries)] ++
    if unit.options.startOnBoot = true then
      [("Install", [("WantedBy", "default.target".toList)])] else []

/-- The sections of a unit, with the directives that they mean. -/
def ContainerUnit.sections (unit : ContainerUnit) : List (String × List (String × Text)) :=
  ("Unit", [("Description", unit.description)]) :: unit.laterSections

def ContainerUnit.lines (unit : ContainerUnit) : List Text :=
  owner :: sectionLines ("Unit", [("Description", unit.description)]) ++
    unit.laterSections.flatMap fun group => [] :: sectionLines group

private theorem unlines_append (first second : List Text) :
    Text.unlines (first ++ second) = Text.unlines first ++ Text.unlines second :=
  List.flatMap_append

private theorem unlines_cons (line : Text) (rest : List Text) :
    Text.unlines (line :: rest) = writeLine line ++ Text.unlines rest :=
  List.flatMap_cons

private theorem directive_eq (name : String) (value : Text) :
    directive name value = writeLine (entryLine (name, value)) := rfl

private theorem unlines_nil : Text.unlines [] = [] := rfl

private theorem unlines_map {α : Type} (line : α → Text) (l : List α) :
    Text.unlines (l.map line) = l.flatMap fun a => writeLine (line a) := by
  rw [Text.unlines, List.flatMap_map]
  rfl

/-- The text of a unit is that of its lines. -/
theorem text_eq_unlines (unit : ContainerUnit) : unit.text = Text.unlines unit.lines := by
  have hunit : writeLine "[Unit]".toList = writeLine (sectionLine "Unit") := rfl
  have hcontainer : writeLine "[Container]".toList = writeLine (sectionLine "Container") :=
    rfl
  have hservice : writeLine "[Service]".toList = writeLine (sectionLine "Service") := rfl
  have hinstall : writeLine "[Install]".toList = writeLine (sectionLine "Install") := rfl
  have hupdate : ∀ p : Prop, [Decidable p] → (if p then directive "AutoUpdate" "registry".toList
      else []) = Text.unlines ((if p then [("AutoUpdate", "registry".toList)] else []).map
        entryLine) := by
    intro p _
    split_ifs
    · rfl
    · rfl
  have huserns : unit.options.userns.elim [] (fun userns => directive "UserNS" (quote userns)) =
      unit.options.userns.toList.flatMap fun userns => directive "UserNS" (quote userns) := by
    cases unit.options.userns <;> simp
  have hboot : (if unit.options.startOnBoot = true then
      writeLine [] ++ writeLine "[Install]".toList ++ directive "WantedBy" "default.target".toList
      else []) =
      Text.unlines ((if unit.options.startOnBoot = true then
        [("Install", [("WantedBy", "default.target".toList)])] else []).flatMap
          fun group => [] :: sectionLines group) := by
    split_ifs
    · rfl
    · rfl
  unfold ContainerUnit.text ContainerUnit.lines ContainerUnit.laterSections
    ContainerUnit.containerEntries
  rw [hunit, hcontainer, hservice, huserns, hboot, hupdate]
  simp only [-String.reduceToList, List.flatMap_append, List.flatMap_cons, List.flatMap_nil,
    serviceEntries, sectionLines, List.map_append, List.map_cons, List.map_nil]
  simp only [-String.reduceToList, unlines_append, unlines_cons, unlines_nil, List.map_map,
    unlines_map, directive_eq, List.append_assoc, List.append_nil, Function.comp_apply]
  rfl

/-! ## What the checks say about the values -/

/-- A character of a unit name. -/
private def nameChar (c : Char) : Prop :=
  c.isAlphanum = true ∨ c ∈ [':', '_', '.', '-', '\\']

private theorem isAlphanum_of_isHexDigit {c : Char} (h : isHexDigit c = true) :
    c.isAlphanum = true := by
  have hle : ∀ {a b : Char}, a ≤ b ↔ a.toNat ≤ b.toNat := fun {a b} => Iff.rfl
  simp only [isHexDigit, Bool.or_eq_true, Bool.and_eq_true, decide_eq_true_eq, hle] at h
  simp only [Char.isAlphanum, Char.isAlpha, Char.isUpper, Char.isLower, Bool.or_eq_true,
    Bool.and_eq_true, decide_eq_true_eq]
  rcases h with (h | h) | h
  · exact Or.inr h
  · have hz : (Char.toNat 'f') ≤ (Char.toNat 'z') := by decide
    exact Or.inl (Or.inr ⟨h.1, le_trans h.2 hz⟩)
  · have hz : (Char.toNat 'F') ≤ (Char.toNat 'Z') := by decide
    exact Or.inl (Or.inl ⟨h.1, le_trans h.2 hz⟩)

private theorem getLast?_cons_ne {c d : Char} {rest : Text} (hc : c ≠ d)
    (h : rest.getLast? ≠ some d) : (c :: rest).getLast? ≠ some d := by
  cases rest with
  | nil => simpa using hc
  | cons x rest => simpa using h

theorem validateUnitChars_eq_ok {name : Text} {u : Unit} (h : validateUnitChars name = .ok u) :
    (∀ c ∈ name, nameChar c) ∧ name.getLast? ≠ some '\\' := by
  have hslash : '\\'.isAlphanum = false := by decide
  induction name using validateUnitChars.induct with
  | case1 => simp
  | case2 high low rest ih =>
    simp only [validateUnitChars, Outcome.bind_eq_ok, Outcome.ensure_eq_ok] at h
    obtain ⟨_, ⟨hhigh, hlow, _⟩, h⟩ := h
    obtain ⟨hchars, hlast⟩ := ih h
    have hhigh := isAlphanum_of_isHexDigit hhigh
    have hlow := isAlphanum_of_isHexDigit hlow
    refine ⟨?_, ?_⟩
    · have hx : 'x'.isAlphanum = true := by decide
      intro c hc
      simp only [List.mem_cons] at hc
      rcases hc with rfl | rfl | rfl | rfl | hc
      · simp [nameChar]
      · exact Or.inl hx
      · exact Or.inl hhigh
      · exact Or.inl hlow
      · exact hchars c hc
    · have hne : low ≠ '\\' := by
        rintro rfl
        simp [hslash] at hlow
      simpa using getLast?_cons_ne hne hlast
  | case3 c rest hshape ih =>
    rw [validateUnitChars.eq_3 _ _ hshape] at h
    simp only [Outcome.bind_eq_ok, Outcome.ensure_eq_ok] at h
    obtain ⟨_, hc, _, hname, h⟩ := h
    obtain ⟨hchars, hlast⟩ := ih h
    refine ⟨?_, getLast?_cons_ne hc hlast⟩
    intro x hx
    rcases List.mem_cons.1 hx with rfl | hx
    · refine hname.imp_right fun hmem => ?_
      simp only [List.mem_cons] at hmem ⊢
      tauto
    · exact hchars x hx

/-- What the checks of a unit say about the values that are written. -/
structure ContainerUnit.Writable (lib : Libraries) (unit : ContainerUnit) : Prop where
  nameChars : ∀ c ∈ unit.name, nameChar c
  nameNonempty : unit.name ≠ []
  nameEnd : unit.name.getLast? ≠ some '\\'
  clusterRoot : unit.cluster.head? = some '/'
  clusterLiteral : ∀ c ∈ unit.cluster, c ∉ ['\x00', '\r', '\n']
  clusterColon : ':' ∉ unit.cluster
  image : ∀ c ∈ unit.options.image, c ∉ ['\x00', '\r', '\n']
  environmentNames : ∀ entry ∈ unit.options.environment.entries,
    validEnvironmentName entry.1 = true ∧ entry.1 ≠ publishedPortsEnv
  environmentValues : ∀ entry ∈ unit.options.environment.entries,
    ∀ c ∈ entry.2, c ∉ ['\x00', '\r', '\n']
  userns : ∀ value ∈ unit.options.userns, ∀ c ∈ value, c ∉ ['\x00', '\r', '\n']
  volumeIdmap : ∀ value ∈ unit.options.volumeIdmap, isIdmap lib.isDecimal value = true
  ports : ∀ mapping ∈ unit.options.ports, mapping.validate = .ok () ∧ mapping.protocol = .udp

theorem validatePorts_eq_ok {hosts containers : List (Protocol × Port)} {ports : List PortMapping}
    {u : Unit} (h : validatePorts hosts containers ports = .ok u) :
    ∀ mapping ∈ ports, mapping.validate = .ok () ∧ mapping.protocol = .udp := by
  induction ports generalizing hosts containers with
  | nil => simp
  | cons mapping rest ih =>
    simp only [validatePorts, Outcome.bind_eq_ok, Outcome.ensure_eq_ok] at h
    obtain ⟨_, hvalid, _, hprotocol, _, _, _, _, h⟩ := h
    intro other hother
    rcases List.mem_cons.1 hother with rfl | hother
    · exact ⟨hvalid, hprotocol⟩
    · exact ih h other hother

theorem validateEnvironment_eq_ok {entry : Text × Text} {u : Unit}
    (h : validateEnvironment entry = .ok u) :
    (validEnvironmentName entry.1 = true ∧ entry.1 ≠ publishedPortsEnv) ∧
      ∀ c ∈ entry.2, c ∉ ['\x00', '\r', '\n'] := by
  simp only [validateEnvironment, Outcome.bind_eq_ok, Outcome.ensure_eq_ok, literal_eq_ok] at h
  obtain ⟨_, hname, _, hvalue, hmanaged⟩ := h
  exact ⟨⟨hname, hmanaged⟩, hvalue⟩

theorem validate_writable {lib : Libraries} {unit : ContainerUnit} {u : Unit}
    (h : unit.validate lib = .ok u) : unit.Writable lib := by
  simp only [ContainerUnit.validate, validateUnitName, validateDirectoryPath, literal,
    DeploymentOptions.validate, token, Outcome.bind_eq_ok, Outcome.ensure_eq_ok,
    Outcome.forM_eq_ok] at h
  obtain ⟨_, ⟨_, hname, hchars⟩, _, ⟨_, hpath, hliteral⟩, _, hcolon, _,
    ⟨_, ⟨_, himage, _⟩, _, _, _, henvironment, _, huserns, _, hidmap, hports⟩, _⟩ := h
  have hname' := validateUnitChars_eq_ok hchars
  exact {
    nameChars := hname'.1
    nameNonempty := hname.1
    nameEnd := hname'.2
    clusterRoot := hpath.1
    clusterLiteral := hliteral
    clusterColon := hcolon
    image := himage
    environmentNames := fun entry hentry => (validateEnvironment_eq_ok (henvironment entry hentry)).1
    environmentValues := fun entry hentry => (validateEnvironment_eq_ok (henvironment entry hentry)).2
    userns := fun value hvalue => (huserns value (Option.mem_toList.2 hvalue)).choose_spec.1
    volumeIdmap := fun value hvalue => hidmap value (Option.mem_toList.2 hvalue)
    ports := validatePorts_eq_ok hports }

/-! ## The values are values -/

/-- The characters that may not stand in a value. -/
private theorem plain_of_literal {value : Text} (h : ∀ c ∈ value, c ∉ ['\x00', '\r', '\n']) :
    '\n' ∉ value ∧ '\r' ∉ value :=
  ⟨fun hmem => h _ hmem (by decide), fun hmem => h _ hmem (by decide)⟩

private theorem mem_quotedChar {c x : Char} (h : x ∈ quotedChar c) :
    x = c ∨ x ∈ ['\\', '%', '$', '"'] := by
  unfold quotedChar at h
  split_ifs at h <;> simp at h <;> simp [h]
  tauto

theorem isValue_quote {value : Text} (h : ∀ c ∈ value, c ∉ ['\x00', '\r', '\n']) :
    IsValue (quote value) := by
  have hplain : ∀ d : Char, d ∉ value → d ∉ ['\\', '%', '$', '"'] → d ∉ quote value := by
    intro d hd hspecial hmem
    rw [quote_eq] at hmem
    simp only [List.cons_append, List.mem_cons, List.mem_append, List.mem_flatMap, List.not_mem_nil,
      or_false] at hmem hspecial
    rcases hmem with rfl | ⟨c, hc, hx⟩ | rfl
    · simp at hspecial
    · rcases mem_quotedChar hx with rfl | hx
      · exact hd hc
      · exact hspecial (by simpa using hx)
    · simp at hspecial
  exact {
    noFeed := hplain _ (plain_of_literal h).1 (by decide)
    noReturn := hplain _ (plain_of_literal h).2 (by decide)
    trimmed := by
      rw [quote_eq]
      exact Text.Trimmed.of_ends (by decide) (by decide)
    noContinuation := by
      rw [quote_eq, List.getLast?_concat]
      decide }

/-- A character that a volume may end with. -/
def Graphic (c : Char) : Prop :=
  Text.isWhitespace c = false ∧ c ∉ ['\x00', '\\', '%', '$']

instance (c : Char) : Decidable (Graphic c) := by
  unfold Graphic
  infer_instance

/-- The documented extent of `\d`: decimal digits are neither whitespace
nor symbols. -/
def Libraries.DecimalsGraphic (lib : Libraries) : Prop :=
  ∀ c, lib.isDecimal c = true → Graphic c

theorem isValue_of_graphic {value : Text} (h : ∀ c ∈ value, Graphic c) : IsValue value where
  noFeed := fun hmem => absurd (h _ hmem) (by decide)
  noReturn := fun hmem => absurd (h _ hmem) (by decide)
  trimmed := Text.Trimmed.of_forall fun c hc => (h c hc).1
  noContinuation := fun hlast => absurd (h _ (List.mem_of_getLast? hlast)) (by decide)

theorem graphic_of_isDigit {c : Char} (h : c.isDigit = true) : Graphic c := by
  have hn : 48 ≤ c.toNat ∧ c.toNat ≤ 57 := by
    simpa [Char.isDigit, UInt32.le_iff_toNat_le] using h
  have hne : ∀ d : Char, d.toNat < 48 ∨ 57 < d.toNat → c ≠ d := by
    rintro d hd rfl
    omega
  refine ⟨?_, ?_⟩
  · simp only [Text.isWhitespace, Bool.or_eq_false_iff, Bool.and_eq_false_iff,
      decide_eq_false_iff_not]
    omega
  · simp [hne '\x00' (by decide), hne '\\' (by decide), hne '%' (by decide), hne '$' (by decide)]

private theorem isDigit_of_le {c : Char} (h : '1' ≤ c ∧ c ≤ '9') : c.isDigit = true := by
  have hn : 49 ≤ c.toNat ∧ c.toNat ≤ 57 := h
  simp only [Char.isDigit, Bool.and_eq_true, decide_eq_true_eq, ge_iff_le,
    UInt32.le_iff_toNat_le]
  exact ⟨le_trans (by decide) hn.1, hn.2⟩

section Idmap

variable {isDecimal : Char → Bool}

theorem graphic_of_isIdRange (hdecimal : ∀ c, isDecimal c = true → Graphic c) {text : Text}
    (h : isIdRange isDecimal text = true) : text ≠ [] ∧ ∀ c ∈ text, Graphic c := by
  unfold isIdRange at h
  split at h
  · rename_i first second count hsplit
    simp only [Bool.and_eq_true, List.all_eq_true] at h
    obtain ⟨⟨⟨⟨_, hfirst⟩, _⟩, hsecond⟩, hcount⟩ := h
    have hcount : ∀ c ∈ count, Graphic c := by
      cases count with
      | nil => simp
      | cons d rest =>
        simp only [Bool.and_eq_true, decide_eq_true_eq, List.all_eq_true] at hcount
        intro c hc
        rcases List.mem_cons.1 hc with rfl | hc
        · exact graphic_of_isDigit (isDigit_of_le hcount.1)
        · exact hdecimal c (hcount.2 c hc)
    refine ⟨?_, fun c hc => ?_⟩
    · rintro rfl
      simp at hsplit
    rcases Text.mem_splitOn '-' hc with rfl | ⟨part, hpart, hc⟩
    · decide
    · rw [hsplit] at hpart
      simp only [List.mem_cons, List.not_mem_nil, or_false] at hpart
      rcases hpart with rfl | rfl | rfl
      · exact hdecimal c (hfirst c hc)
      · exact hdecimal c (hsecond c hc)
      · exact hcount c hc
  · simp at h

theorem graphic_of_isIdRanges (hdecimal : ∀ c, isDecimal c = true → Graphic c) {key text : Text}
    (hkey : ∀ c ∈ key, Graphic c) (hne : key ≠ []) (h : isIdRanges isDecimal key text = true) :
    text ≠ [] ∧ ∀ c ∈ text, Graphic c := by
  unfold isIdRanges at h
  split at h
  · rename_i ranges hstart
    rw [List.isPrefixOf?_eq_some_iff_append_eq] at hstart
    subst hstart
    refine ⟨by simp [hne], fun c hc => ?_⟩
    rcases List.mem_append.1 hc with hc | hc
    · exact hkey c hc
    · rcases Text.mem_splitOn '#' hc with rfl | ⟨part, hpart, hc⟩
      · decide
      · exact (graphic_of_isIdRange hdecimal (List.all_eq_true.1 h part hpart)).2 c hc
  · simp at h

theorem graphic_of_isIdmap (hdecimal : ∀ c, isDecimal c = true → Graphic c) {text : Text}
    (h : isIdmap isDecimal text = true) : text ≠ [] ∧ ∀ c ∈ text, Graphic c := by
  have huids : ∀ {part : Text}, isIdRanges isDecimal "uids=".toList part = true →
      ∀ c ∈ part, Graphic c := fun h =>
    (graphic_of_isIdRanges hdecimal (by decide) (by decide) h).2
  have hgids : ∀ {part : Text}, isIdRanges isDecimal "gids=".toList part = true →
      ∀ c ∈ part, Graphic c := fun h =>
    (graphic_of_isIdRanges hdecimal (by decide) (by decide) h).2
  have hparts : ∀ part ∈ text.splitOn ';', ∀ c ∈ part, Graphic c := by
    unfold isIdmap at h
    split at h
    · rename_i only hsplit
      rw [hsplit]
      simp only [Bool.or_eq_true, List.mem_singleton, forall_eq] at h ⊢
      rcases h with h | h
      · exact huids h
      · exact hgids h
    · rename_i first second hsplit
      rw [hsplit]
      simp only [Bool.or_eq_true, Bool.and_eq_true] at h
      intro part hpart
      simp only [List.mem_cons, List.not_mem_nil, or_false] at hpart
      rcases h with ⟨h₁, h₂⟩ | ⟨h₁, h₂⟩ <;> rcases hpart with rfl | rfl
      · exact huids h₁
      · exact hgids h₂
      · exact hgids h₁
      · exact huids h₂
    · simp at h
  refine ⟨?_, fun c hc => ?_⟩
  · rintro rfl
    simp [isIdmap, isIdRanges, List.isPrefixOf?] at h
  rcases Text.mem_splitOn ';' hc with rfl | ⟨part, hpart, hc⟩
  · decide
  · exact hparts part hpart c hc

end Idmap

theorem volumeEscape_eq_self {value : Text} (h₁ : '%' ∉ value) (h₂ : '$' ∉ value) :
    volumeEscape value = value := by
  rw [volumeEscape, Text.replace_eq_self h₁, Text.replace_eq_self h₂]

theorem volumeEscape_graphic {value : Text} (h : ∀ c ∈ value, Graphic c) :
    volumeEscape value = value :=
  volumeEscape_eq_self (fun hmem => absurd (h _ hmem) (by decide))
    (fun hmem => absurd (h _ hmem) (by decide))

theorem mem_volumeEscape {value : Text} {c : Char} (h : c ∈ volumeEscape value) :
    c ∈ value ∨ c ∈ ['%', '$'] := by
  rcases Text.mem_replace h with h | h
  · rcases Text.mem_replace h with h | h
    · exact Or.inl h
    · simp at h
      simp [h]
  · simp at h
    simp [h]

/-- A volume that begins with a directory and ends with a fixed part. -/
theorem isValue_volume {path tail : Text} (hroot : path.head? = some '/')
    (hpath : ∀ c ∈ path, c ∉ ['\x00', '\r', '\n']) (htail : ∀ c ∈ tail, Graphic c)
    (hne : tail ≠ []) : IsValue (volumeEscape (path ++ tail)) := by
  have hvalue := isValue_of_graphic htail
  have happend : volumeEscape (path ++ tail) = volumeEscape path ++ tail := by
    rw [volumeEscape, Text.replace_append, Text.replace_append]
    exact congrArg (volumeEscape path ++ ·) (volumeEscape_graphic htail)
  have hplain : ∀ d : Char, d ∉ path → d ∉ ['%', '$'] → d ∉ volumeEscape path :=
    fun d hd hspecial hmem => (mem_volumeEscape hmem).elim hd hspecial
  have hhead : (volumeEscape path).head? = some '/' := by
    obtain ⟨c, rest, rfl⟩ : ∃ c rest, path = c :: rest := List.exists_cons_of_ne_nil (by
      rintro rfl
      simp at hroot)
    rw [List.head?_cons, Option.some.injEq] at hroot
    rw [hroot, volumeEscape_eq, List.flatMap_cons]
    rfl
  rw [happend]
  refine ⟨?_, ?_, ⟨?_, ?_⟩, ?_⟩
  · simpa using ⟨hplain _ (plain_of_literal hpath).1 (by decide), hvalue.noFeed⟩
  · simpa using ⟨hplain _ (plain_of_literal hpath).2 (by decide), hvalue.noReturn⟩
  · intro c hc
    rw [List.head?_append, hhead] at hc
    cases hc
    decide
  · intro c hc
    rw [List.getLast?_append_of_ne_nil _ hne] at hc
    exact hvalue.trimmed.2 c hc
  · rw [List.getLast?_append_of_ne_nil _ hne]
    exact hvalue.noContinuation

theorem isValue_render {mapping : PortMapping} : IsValue mapping.render := by
  have hlabel : ∀ c ∈ mapping.protocol.label, Graphic c := by
    cases mapping.protocol <;> decide
  refine isValue_of_graphic fun c hc => ?_
  simp only [PortMapping.render, List.mem_append, List.mem_cons] at hc
  rcases hc with (hc | rfl | hc) | rfl | hc
  · exact graphic_of_isDigit (Text.isDigit_of_mem_decimal hc)
  · decide
  · exact graphic_of_isDigit (Text.isDigit_of_mem_decimal hc)
  · decide
  · exact hlabel c hc

private theorem nameChar_visible {c : Char} (h : nameChar c) :
    Text.isWhitespace c = false ∧ c ∉ ['%', '$'] := by
  have halphanum : c.isAlphanum = true → Text.isWhitespace c = false ∧ c ∉ ['%', '$'] := by
    intro h
    rw [Char.isAlphanum, Bool.or_eq_true] at h
    rcases h with h | h
    · refine ⟨visible_of_isAlpha h, ?_⟩
      simp [ne_of_isAlpha h (d := '%') (by decide), ne_of_isAlpha h (d := '$') (by decide)]
    · have hc := graphic_of_isDigit h
      exact ⟨hc.1, fun hmem => hc.2 (by simp at hmem ⊢; tauto)⟩
  rcases h with h | h
  · exact halphanum h
  · simp only [List.mem_cons, List.not_mem_nil, or_false] at h
    rcases h with rfl | rfl | rfl | rfl | rfl <;> decide

theorem ContainerUnit.Writable.description {lib : Libraries} {unit : ContainerUnit}
    (h : unit.Writable lib) : IsValue unit.description := by
  have hescape : escape unit.name = Text.replace '\\' "\\\\".toList unit.name := by
    refine volumeEscape_eq_self (fun hmem => ?_) (fun hmem => ?_)
    · rcases Text.mem_replace hmem with hmem | hmem
      · exact (nameChar_visible (h.nameChars _ hmem)).2 (by decide)
      · exact absurd hmem (by decide)
    · rcases Text.mem_replace hmem with hmem | hmem
      · exact (nameChar_visible (h.nameChars _ hmem)).2 (by decide)
      · exact absurd hmem (by decide)
  obtain ⟨init, last, hname⟩ : ∃ init last, unit.name = init ++ [last] :=
    ⟨_, _, (List.dropLast_append_getLast h.nameNonempty).symm⟩
  have hlast : last ≠ '\\' := by
    rintro rfl
    exact h.nameEnd (by rw [hname, List.getLast?_concat])
  have hvisible : ∀ c ∈ escape unit.name, Text.isWhitespace c = false := by
    intro c hc
    rw [hescape] at hc
    rcases Text.mem_replace hc with hc | hc
    · exact (nameChar_visible (h.nameChars c hc)).1
    · simp at hc
      rw [hc]
      decide
  have hescaped : (escape unit.name).getLast? = some last := by
    have htail : Text.replace '\\' "\\\\".toList [last] = [last] :=
      Text.replace_eq_self (by simpa using Ne.symm hlast)
    rw [hescape, hname, Text.replace_append, htail, List.getLast?_concat]
  have hend : unit.description.getLast? = some last := by
    have hne : escape unit.name ≠ [] := by
      rintro hnil
      simp [hnil] at hescaped
    exact (List.getLast?_append_of_ne_nil _ hne).trans hescaped
  have hfree : ∀ d : Char, Text.isWhitespace d = true → d ∉ "Don't Starve Together ".toList →
      d ∉ unit.description := by
    intro d hd hstart hmem
    rcases List.mem_append.1 hmem with hmem | hmem
    · exact hstart hmem
    · rw [hvisible d hmem] at hd
      exact absurd hd (by decide)
  have hhead : unit.description.head? = some 'D' := rfl
  refine ⟨hfree _ (by decide) (by decide), hfree _ (by decide) (by decide), ⟨?_, ?_⟩, ?_⟩
  · intro c hc
    rw [hhead, Option.mem_some] at hc
    rw [← hc]
    decide
  · intro c hc
    rw [hend, Option.mem_some] at hc
    rw [← hc]
    exact (nameChar_visible (h.nameChars last (by rw [hname]; simp))).1
  · rw [hend]
    simpa using hlast

/-! ## The environment -/

theorem portsToString_plain (ports : OrderedMap Text Port) :
    ∀ c ∈ portsToString ports, c ∉ ['\x00', '\r', '\n'] := by
  have hle : ∀ c ∈ portsToString ports, 32 ≤ c.toNat := by
    intro c hc
    simp only [portsToString, Json.chars, List.cons_append, List.mem_cons, List.mem_append,
      List.not_mem_nil, or_false] at hc
    rcases hc with rfl | hc | rfl
    · decide
    · refine Json.le_of_mem_charsFields ?_ hc
      intro field hfield c hc
      obtain ⟨entry, _, rfl⟩ := List.mem_map.1 hfield
      have hdigit := Json.isDigit_of_mem_ofNat hc
      have hn : 48 ≤ c.toNat := by
        have h : 48 ≤ c.toNat ∧ c.toNat ≤ 57 := by
          simpa [Char.isDigit, UInt32.le_iff_toNat_le] using hdigit
        exact h.1
      omega
    · decide
  intro c hc hmem
  have hn := hle c hc
  simp only [List.mem_cons, List.not_mem_nil, or_false] at hmem
  rcases hmem with rfl | rfl | rfl <;> exact absurd hn (by decide)

theorem plain_of_validName {name : Text} (h : validEnvironmentName name = true) :
    ∀ c ∈ name, c ∉ ['\x00', '\r', '\n', '='] := by
  have hplain : ∀ c : Char, c.isAlphanum = true ∨ c = '_' → c ∉ ['\x00', '\r', '\n', '='] := by
    intro c hc hmem
    simp only [List.mem_cons, List.not_mem_nil, or_false] at hmem
    rcases hmem with rfl | rfl | rfl | rfl <;> exact absurd hc (by decide)
  cases name with
  | nil => simp
  | cons first rest =>
    simp only [validEnvironmentName, Bool.and_eq_true, Bool.or_eq_true, decide_eq_true_eq,
      List.all_eq_true] at h
    intro c hc
    rcases List.mem_cons.1 hc with rfl | hc
    · refine hplain c (h.1.imp_left fun h => ?_)
      simp [Char.isAlphanum, h]
    · exact hplain c (h.2 c hc)

/-- An assignment of an environment line. -/
def assignment (entry : Text × Text) : Text := entry.1 ++ '=' :: entry.2

/-- What a line of the environment has to be. -/
structure IsAssignment (entry : Text × Text) : Prop where
  name : '=' ∉ entry.1
  plain : ∀ c ∈ assignment entry, c ∉ ['\x00', '\r', '\n']

theorem ContainerUnit.Writable.assignments {lib : Libraries} {unit : ContainerUnit}
    (h : unit.Writable lib) : ∀ entry ∈ unit.environment.entries, IsAssignment entry := by
  have hentry : ∀ entry : Text × Text, validEnvironmentName entry.1 = true →
      (∀ c ∈ entry.2, c ∉ ['\x00', '\r', '\n']) → IsAssignment entry := by
    intro entry hname hvalue
    have hplain := plain_of_validName hname
    refine ⟨fun hmem => hplain _ hmem (by decide), fun c hc => ?_⟩
    rw [assignment, List.mem_append, List.mem_cons] at hc
    rcases hc with hc | rfl | hc
    · exact fun hmem => hplain c hc (by simp at hmem ⊢; tauto)
    · decide
    · exact hvalue c hc
  have hmanaged : validEnvironmentName publishedPortsEnv = true := by decide
  rintro ⟨name, value⟩ hmem
  rw [OrderedMap.mem_entries_iff, ContainerUnit.environment, OrderedMap.get?_insert] at hmem
  split_ifs at hmem with hname
  · cases hmem
    exact hentry _ (hname ▸ hmanaged) (portsToString_plain _)
  · rw [← OrderedMap.mem_entries_iff] at hmem
    exact hentry _ (h.environmentNames _ hmem).1 (h.environmentValues _ hmem)

theorem loadEnvironment_eq {lib : Libraries} {ports : OrderedMap Text Port}
    {entries : List (Text × Text)} (hassign : ∀ entry ∈ entries, IsAssignment entry)
    (hnodup : (entries.map Prod.fst).Nodup) {environment : OrderedMap Text Text}
    (hfresh : ∀ entry ∈ entries, environment.get? entry.1 = none)
    {published : Option (OrderedMap Text Port)}
    (hports : ∀ entry ∈ entries, entry.1 = publishedPortsEnv →
      published = none ∧ lib.portsFromStr entry.2 = some ports) :
    loadEnvironment lib (environment, published)
        (entries.map fun entry => quote (assignment entry)) =
      .ok ((entries.filter (·.1 ≠ publishedPortsEnv)).foldl (fun m e => m.insert e.1 e.2)
          environment,
        if publishedPortsEnv ∈ entries.map Prod.fst then some ports else published) := by
  induction entries generalizing environment published with
  | nil => rfl
  | cons entry rest ih =>
    have hentry := hassign entry List.mem_cons_self
    have hsplit : Text.splitOnce (· = '=') (assignment entry) = some entry := by
      refine Text.splitOnce_append (fun x hx => ?_) (by decide)
      have hne : x ≠ '=' := fun heq => hentry.name (heq ▸ hx)
      simpa using hne
    rw [List.map_cons, List.nodup_cons] at hnodup
    have hrest := fun e (he : e ∈ rest) => hassign e (List.mem_cons_of_mem _ he)
    have hname : ∀ e ∈ rest, e.1 ≠ entry.1 := fun e he heq =>
      hnodup.1 (heq ▸ List.mem_map_of_mem he)
    rw [List.map_cons, loadEnvironment, unquote_quote hentry.plain, Outcome.ok_bind, hsplit]
    simp only [Outcome.orError, Outcome.ok_bind]
    by_cases hmanaged : entry.1 = publishedPortsEnv
    · obtain ⟨hnone, hparse⟩ := hports entry List.mem_cons_self hmanaged
      rw [if_pos hmanaged, Outcome.ensure_of hnone, Outcome.ok_bind, hparse]
      simp only [Outcome.ok_bind]
      rw [ih hrest hnodup.2 (fun e he => hfresh e (List.mem_cons_of_mem _ he))
        (fun e he heq => absurd (heq.trans hmanaged.symm) (hname e he))]
      have hnot : publishedPortsEnv ∉ rest.map Prod.fst := hmanaged ▸ hnodup.1
      simp [hmanaged, hnot]
    · rw [if_neg hmanaged, Outcome.ensure_of (hfresh entry List.mem_cons_self), Outcome.ok_bind]
      rw [ih hrest hnodup.2 (fun e he => by
          rw [OrderedMap.get?_insert_of_ne (hname e he)]
          exact hfresh e (List.mem_cons_of_mem _ he))
        (fun e he => hports e (List.mem_cons_of_mem _ he))]
      have hmem : publishedPortsEnv ∈ (entry :: rest).map Prod.fst ↔
          publishedPortsEnv ∈ rest.map Prod.fst := by
        rw [List.map_cons, List.mem_cons, or_iff_right (Ne.symm hmanaged)]
      rw [List.filter_cons_of_pos (by simpa using hmanaged), List.foldl_cons,
        if_congr hmem rfl rfl]

/-- Taking the managed variable out of the environment of a unit leaves
the environment of its options. -/
theorem ContainerUnit.Writable.environment_options {lib : Libraries} {unit : ContainerUnit}
    (h : unit.Writable lib) :
    OrderedMap.ofList (unit.environment.entries.filter (·.1 ≠ publishedPortsEnv)) =
      unit.options.environment := by
  refine OrderedMap.ext_get? fun name => Option.ext fun value => ?_
  have hnodup : ((unit.environment.entries.filter (·.1 ≠ publishedPortsEnv)).map
      Prod.fst).Nodup :=
    (List.filter_sublist.map _).nodup unit.environment.keys_nodup
  rw [OrderedMap.get?_ofList_iff hnodup, List.mem_filter, OrderedMap.mem_entries_iff,
    ContainerUnit.environment]
  simp only [decide_eq_true_eq]
  constructor
  · rintro ⟨hget, hne⟩
    rwa [OrderedMap.get?_insert_of_ne hne] at hget
  · intro hget
    have hne : name ≠ publishedPortsEnv :=
      (h.environmentNames (name, value) (OrderedMap.mem_entries_iff.2 hget)).2
    exact ⟨by rwa [OrderedMap.get?_insert_of_ne hne], hne⟩

/-! ## The readers find what was written -/

/-- The fields of the file of a unit. -/
def ContainerUnit.fields (unit : ContainerUnit) : Fields := fieldsOf unit.sections .empty

theorem ContainerUnit.Writable.suffix {lib : Libraries} {unit : ContainerUnit}
    (h : unit.Writable lib) (hdecimal : lib.DecimalsGraphic) :
    ∀ c ∈ unit.options.suffix, Graphic c := by
  intro c hc
  cases hidmap : unit.options.volumeIdmap with
  | none => simp [DeploymentOptions.suffix, hidmap] at hc
  | some value =>
    simp only [DeploymentOptions.suffix, hidmap] at hc
    rcases List.mem_append.1 hc with hc | hc
    · exact (by decide : ∀ c ∈ ":idmap=".toList, Graphic c) c hc
    · exact (graphic_of_isIdmap hdecimal (h.volumeIdmap value hidmap)).2 c hc

private theorem isEntry {name : String} {value : Text} (hname : IsName name) (hvalue : IsValue value) :
    IsEntry (name, value) := ⟨hname, hvalue⟩

theorem ContainerUnit.Writable.containerEntries {lib : Libraries} {unit : ContainerUnit}
    (h : unit.Writable lib) (hdecimal : lib.DecimalsGraphic) :
    ∀ entry ∈ unit.containerEntries, IsEntry entry := by
  have hvolume : ∀ tail : Text, (∀ c ∈ tail, Graphic c) → tail ≠ [] →
      IsEntry ("Volume", volumeEscape (unit.cluster ++ tail ++ unit.options.suffix)) := by
    intro tail htail hne
    rw [List.append_assoc]
    refine isEntry (by decide) (isValue_volume h.clusterRoot h.clusterLiteral ?_ (by simp [hne]))
    intro c hc
    rcases List.mem_append.1 hc with hc | hc
    · exact htail c hc
    · exact h.suffix hdecimal c hc
  intro entry hentry
  simp only [ContainerUnit.containerEntries, List.mem_append, List.mem_map, or_assoc] at hentry
  rcases hentry with hentry | hentry | hentry | ⟨value, hvalue, rfl⟩ | ⟨mapping, _, rfl⟩ |
    ⟨variable', hvariable, rfl⟩
  · rcases List.mem_cons.1 hentry with rfl | hentry
    · exact isEntry (by decide) (isValue_quote h.image)
    · exact (by decide : ∀ entry ∈ [("Pull", "never".toList), ("RunInit", "true".toList),
        ("Timezone", "local".toList),
        ("Exec", "/usr/local/bin/dst-server agent --cluster /cluster".toList),
        ("StopTimeout", "360".toList)], IsEntry entry) entry hentry
  · split_ifs at hentry
    · exact (by decide : ∀ entry ∈ [("AutoUpdate", "registry".toList)], IsEntry entry)
        entry hentry
    · simp at hentry
  · rcases List.mem_cons.1 hentry with rfl | hentry
    · exact hvolume _ (by decide) (by decide)
    · rw [List.mem_singleton.1 hentry]
      exact hvolume _ (by decide) (by decide)
  · exact isEntry (by decide) (isValue_quote (h.userns value (Option.mem_toList.1 hvalue)))
  · exact isEntry (by decide) isValue_render
  · exact isEntry (by decide) (isValue_quote (h.assignments variable' hvariable).plain)

theorem ContainerUnit.Writable.laterSections {lib : Libraries} {unit : ContainerUnit}
    (h : unit.Writable lib) (hdecimal : lib.DecimalsGraphic) :
    ∀ group ∈ unit.laterSections, IsSection group := by
  intro group hgroup
  rcases List.mem_append.1 hgroup with hgroup | hgroup
  · rcases List.mem_cons.1 hgroup with rfl | hgroup
    · have hname : IsName "Container" := by decide
      exact ⟨hname, h.containerEntries hdecimal⟩
    · rw [List.mem_singleton.1 hgroup]
      exact ⟨by decide, by decide⟩
  · split_ifs at hgroup
    · rw [List.mem_singleton.1 hgroup]
      exact ⟨by decide, by decide⟩
    · simp at hgroup

theorem ContainerUnit.Writable.unitSection {lib : Libraries} {unit : ContainerUnit}
    (h : unit.Writable lib) : IsSection ("Unit", [("Description", unit.description)]) := by
  have hname : IsName "Unit" := by decide
  refine ⟨hname, fun entry hentry => ?_⟩
  rw [List.mem_singleton.1 hentry]
  exact isEntry (by decide) h.description

theorem lines_text {lib : Libraries} {unit : ContainerUnit} (h : unit.Writable lib)
    (hdecimal : lib.DecimalsGraphic) : Text.lines unit.text = unit.lines := by
  rw [text_eq_unlines]
  refine Text.lines_unlines fun line hline => ?_
  rcases List.mem_cons.1 hline with rfl | hline
  · exact Text.IsLine.of_not_mem (by decide) (by decide)
  rcases List.mem_append.1 hline with hline | hline
  · exact isLine_of_mem_sectionLines h.unitSection line hline
  · obtain ⟨group, hmem, hline⟩ := List.mem_flatMap.1 hline
    rcases List.mem_cons.1 hline with rfl | hline
    · exact Text.IsLine.of_not_mem (by simp) (by simp)
    · exact isLine_of_mem_sectionLines (h.laterSections hdecimal group hmem) line hline

theorem parseSections_text {lib : Libraries} {unit : ContainerUnit} (h : unit.Writable lib)
    (hdecimal : lib.DecimalsGraphic) : parseSections unit.text = .ok unit.fields := by
  have howner : isSkipped (Text.trim owner) = true := by decide
  obtain ⟨last, hlast⟩ := parseLines_groups (h.laterSections hdecimal)
    ("Unit".toList, pushAll "Unit" [("Description", unit.description)] .empty)
  rw [parseSections, lines_text h hdecimal, ContainerUnit.lines, List.cons_append,
    parseLines_skipped howner, parseLines_group h.unitSection, hlast, Outcome.ok_bind,
    Outcome.pure_eq_ok, ContainerUnit.fields, ContainerUnit.sections, fieldsOf_cons]

theorem fields_noEmpty (unit : ContainerUnit) : NoEmpty unit.fields :=
  noEmpty_fieldsOf (fun _ => by simp) _

/-- The values of a key in the file are the ones of its directive. -/
theorem fields_all (unit : ContainerUnit) (sectionName name : String) :
    unit.fields.all sectionName name = valuesAt sectionName name unit.sections :=
  fieldsOf_all _ _ _ _

theorem fields_container (unit : ContainerUnit) (name : String) :
    unit.fields.all "Container" name = valuesOf name unit.containerEntries := by
  rw [fields_all]
  cases hboot : unit.options.startOnBoot <;>
    simp [valuesAt, ContainerUnit.sections, ContainerUnit.laterSections, hboot]

theorem fields_service (unit : ContainerUnit) (name : String) :
    unit.fields.all "Service" name = valuesOf name serviceEntries := by
  rw [fields_all]
  cases hboot : unit.options.startOnBoot <;>
    simp [valuesAt, ContainerUnit.sections, ContainerUnit.laterSections, hboot]

theorem fields_install (unit : ContainerUnit) :
    unit.fields.all "Install" "WantedBy" =
      if unit.options.startOnBoot = true then ["default.target".toList] else [] := by
  rw [fields_all]
  cases hboot : unit.options.startOnBoot <;>
    simp [valuesAt, ContainerUnit.sections, ContainerUnit.laterSections, hboot]

theorem parse_render {mapping : PortMapping} (hvalid : mapping.validate = .ok ()) :
    PortMapping.parse mapping.render = .ok mapping := by
  have hport : ∀ port : Port, parsePort (Text.decimal port) = some port := by
    intro port
    rw [parsePort, Text.unsigned?_decimal port.isLt, Option.bind_some, dif_pos port.isLt]
  have hdigits : ∀ (n : Nat) (d : Char), d.isDigit = false → ∀ x ∈ Text.decimal n, x ≠ d := by
    rintro n d hd x hx rfl
    rw [Text.isDigit_of_mem_decimal hx] at hd
    exact absurd hd (by decide)
  have hslash : Text.splitOnce (· = '/') mapping.render =
      some (Text.decimal mapping.host ++ ':' :: Text.decimal mapping.container,
        mapping.protocol.label) := by
    refine Text.splitOnce_append (fun x hx => ?_) (by decide)
    have hne : x ≠ '/' := by
      rcases List.mem_append.1 hx with hx | hx
      · exact hdigits _ _ (by decide) x hx
      · rcases List.mem_cons.1 hx with rfl | hx
        · decide
        · exact hdigits _ _ (by decide) x hx
    simpa using hne
  have hcolon : Text.splitOnce (· = ':')
      (Text.decimal mapping.host ++ ':' :: Text.decimal mapping.container) =
      some (Text.decimal mapping.host, Text.decimal mapping.container) := by
    refine Text.splitOnce_append (fun x hx => ?_) (by decide)
    simpa using hdigits mapping.host ':' (by decide) x hx
  have hprotocol : Protocol.parse mapping.protocol.label = .ok mapping.protocol := by
    cases mapping.protocol
    · rfl
    · rfl
  rw [PortMapping.parse, hslash]
  simp only [Outcome.orError, Outcome.ok_bind, hcolon, hport, hprotocol, hvalid]
  rfl

theorem loadStartOnBoot_eq (unit : ContainerUnit) :
    loadStartOnBoot unit.fields = .ok unit.options.startOnBoot := by
  have hall := fields_install unit
  rw [loadStartOnBoot, get?_eq_of_noEmpty (fields_noEmpty unit)]
  cases hboot : unit.options.startOnBoot with
  | false =>
    rw [hboot, if_neg (by decide)] at hall
    rw [hall]
    rfl
  | true =>
    rw [hboot, if_pos rfl] at hall
    rw [hall, single_of_all (fields_noEmpty unit) hall]
    rfl

/-- The values of a key of the container. -/
theorem valuesOf_containerEntries (unit : ContainerUnit) (name : String) :
    valuesOf name unit.containerEntries =
      valuesOf name [("Image", quote unit.options.image), ("Pull", "never".toList),
        ("RunInit", "true".toList), ("Timezone", "local".toList),
        ("Exec", "/usr/local/bin/dst-server agent --cluster /cluster".toList),
        ("StopTimeout", "360".toList)] ++
      (if unit.options.image = defaultImage ∨ unit.options.image = betaImage then
        valuesOf name [("AutoUpdate", "registry".toList)] else []) ++
      (if "Volume" = name then
        [volumeEscape (unit.cluster ++ ":/cluster".toList ++ unit.options.suffix),
          volumeEscape (unit.cluster ++ "/mods:/install/mods".toList ++ unit.options.suffix)]
        else []) ++
      (if "UserNS" = name then unit.options.userns.toList.map quote else []) ++
      (if "PublishPort" = name then unit.options.ports.map PortMapping.render else []) ++
      (if "Environment" = name then
        unit.environment.entries.map (fun entry => quote (assignment entry)) else []) := by
  have hupdate : valuesOf name (if unit.options.image = defaultImage ∨
      unit.options.image = betaImage then [("AutoUpdate", "registry".toList)] else []) =
      if unit.options.image = defaultImage ∨ unit.options.image = betaImage then
        valuesOf name [("AutoUpdate", "registry".toList)] else [] := by
    split_ifs
    · rfl
    · rfl
  have hvolume : ∀ first second : Text, valuesOf name [("Volume", first), ("Volume", second)] =
      if "Volume" = name then [first, second] else [] :=
    fun first second => valuesOf_map name "Volume" id [first, second]
  rw [ContainerUnit.containerEntries, valuesOf_append, valuesOf_append, valuesOf_append,
    valuesOf_append, valuesOf_append, hupdate, hvolume, valuesOf_map, valuesOf_map, valuesOf_map]
  rfl

private theorem valuesOf_update {name : String} (h : "AutoUpdate" ≠ name) (unit : ContainerUnit) :
    (if unit.options.image = defaultImage ∨ unit.options.image = betaImage then
      valuesOf name [("AutoUpdate", "registry".toList)] else []) = [] := by
  rw [valuesOf_cons, if_neg h, valuesOf_nil, ite_self]

/-- The keys that hold a list of values. -/
theorem fields_lists (unit : ContainerUnit) :
    unit.fields.all "Container" "Volume" =
        [volumeEscape (unit.cluster ++ ":/cluster".toList ++ unit.options.suffix),
          volumeEscape (unit.cluster ++ "/mods:/install/mods".toList ++ unit.options.suffix)] ∧
      unit.fields.all "Container" "UserNS" = unit.options.userns.toList.map quote ∧
      unit.fields.all "Container" "PublishPort" = unit.options.ports.map PortMapping.render ∧
      unit.fields.all "Container" "Environment" =
        unit.environment.entries.map fun entry => quote (assignment entry) := by
  refine ⟨?_, ?_, ?_, ?_⟩
  all_goals
    rw [fields_container, valuesOf_containerEntries, valuesOf_update (by decide)]
    simp

theorem fields_image (unit : ContainerUnit) :
    unit.fields.all "Container" "Image" = [quote unit.options.image] := by
  rw [fields_container, valuesOf_containerEntries, valuesOf_update (by decide)]
  simp

theorem checkSupported_eq (unit : ContainerUnit) :
    supported.forM (checkSupported unit.fields) = .ok () := by
  have hcheck : ∀ field : String × String × Text, unit.fields.all field.1 field.2.1 = [field.2.2] →
      checkSupported unit.fields field = .ok () := by
    intro field hall
    rw [checkSupported, single_of_all (fields_noEmpty unit) hall, Outcome.ok_bind,
      Outcome.ensure_of rfl]
  have hservice : ∀ name value, valuesOf name serviceEntries = [value] →
      unit.fields.all "Service" name = [value] := fun name value h => by
    rw [fields_service, h]
  have hcontainer : ∀ name value, "AutoUpdate" ≠ name → "Volume" ≠ name → "UserNS" ≠ name →
      "PublishPort" ≠ name → "Environment" ≠ name →
      valuesOf name [("Image", quote unit.options.image), ("Pull", "never".toList),
        ("RunInit", "true".toList), ("Timezone", "local".toList),
        ("Exec", "/usr/local/bin/dst-server agent --cluster /cluster".toList),
        ("StopTimeout", "360".toList)] = [value] →
      unit.fields.all "Container" name = [value] := by
    intro name value h₁ h₂ h₃ h₄ h₅ h
    rw [fields_container, valuesOf_containerEntries, valuesOf_update h₁, h, if_neg h₂, if_neg h₃,
      if_neg h₄, if_neg h₅]
    rfl
  refine Outcome.forM_eq_ok.2 fun field hfield => hcheck field ?_
  simp only [supported, List.mem_cons, List.not_mem_nil, or_false] at hfield
  rcases hfield with rfl | rfl | rfl | rfl | rfl | rfl | rfl | rfl | rfl | rfl | rfl
  · exact hcontainer _ _ (by decide) (by decide) (by decide) (by decide) (by decide) (by simp)
  · exact hcontainer _ _ (by decide) (by decide) (by decide) (by decide) (by decide) (by simp)
  · exact hcontainer _ _ (by decide) (by decide) (by decide) (by decide) (by decide) (by simp)
  · exact hcontainer _ _ (by decide) (by decide) (by decide) (by decide) (by decide) (by simp)
  · exact hcontainer _ _ (by decide) (by decide) (by decide) (by decide) (by decide) (by simp)
  · exact hservice _ _ (by decide)
  · exact hservice _ _ (by decide)
  · exact hservice _ _ (by decide)
  · exact hservice _ _ (by decide)
  · exact hservice _ _ (by decide)
  · exact hservice _ _ (by decide)

theorem loadUserns_eq {lib : Libraries} {unit : ContainerUnit} (h : unit.Writable lib) :
    loadUserns unit.fields = .ok unit.options.userns := by
  have hall := (fields_lists unit).2.1
  rw [loadUserns, get?_eq_of_noEmpty (fields_noEmpty unit), hall]
  cases huserns : unit.options.userns with
  | none => rfl
  | some userns =>
    rw [huserns] at hall
    rw [single_of_all (fields_noEmpty unit) hall, Outcome.ok_bind,
      unquote_quote (h.userns userns huserns)]
    rfl

theorem loadIdmap_suffix (options : DeploymentOptions) :
    loadIdmap options.suffix = .ok options.volumeIdmap := by
  unfold DeploymentOptions.suffix
  cases hidmap : options.volumeIdmap with
  | none => rfl
  | some value =>
    have hstart : ":idmap=".toList.isPrefixOf? (":idmap=".toList ++ value) = some value :=
      List.isPrefixOf?_eq_some_iff_append_eq.2 rfl
    show loadIdmap (":idmap=".toList ++ value) = _
    rw [loadIdmap, if_neg (by simp), hstart]
    rfl

theorem loadVolumes_eq {lib : Libraries} {unit : ContainerUnit} (h : unit.Writable lib)
    (hdecimal : lib.DecimalsGraphic) :
    loadVolumes unit.fields = .ok (unit.cluster, unit.options.volumeIdmap) := by
  have hall := (fields_lists unit).1
  have hliteral : ∀ mount : Text, (∀ c ∈ mount, Graphic c) →
      ∀ c ∈ unit.cluster ++ mount ++ unit.options.suffix, c ∉ ['\x00', '\r', '\n'] := by
    intro mount hmount c hc
    have hgraphic : Graphic c → c ∉ ['\x00', '\r', '\n'] := by
      intro hc hmem
      simp only [List.mem_cons, List.not_mem_nil, or_false] at hmem
      rcases hmem with rfl | rfl | rfl <;> exact absurd hc (by decide)
    rcases List.mem_append.1 hc with hc | hc
    · rcases List.mem_append.1 hc with hc | hc
      · exact h.clusterLiteral c hc
      · exact hgraphic (hmount c hc)
    · exact hgraphic (h.suffix hdecimal c hc)
  have hfirst := volumeUnescape_volumeEscape (hliteral ":/cluster".toList (by decide))
  have hsecond := volumeUnescape_volumeEscape (hliteral "/mods:/install/mods".toList (by decide))
  have hsplit : Text.splitOnceText ":/cluster".toList
      (unit.cluster ++ ":/cluster".toList ++ unit.options.suffix) =
      some (unit.cluster, unit.options.suffix) := by
    rw [List.append_assoc]
    exact Text.splitOnceText_append (m := ':') h.clusterColon
  rw [loadVolumes, get?_eq_of_noEmpty (fields_noEmpty unit), hall]
  simp only [reduceCtorEq, if_false, Outcome.orError, Outcome.ok_bind, hfirst, hsecond, hsplit,
    loadIdmap_suffix, Outcome.ensure_of, Outcome.pure_eq_ok]

/-- What the reader of the environment finds. -/
theorem loadEnvironment_fields {lib : Libraries} {unit : ContainerUnit} (h : unit.Writable lib)
    (hjson : lib.portsFromStr (portsToString unit.publishedGamePorts) =
      some unit.publishedGamePorts) :
    loadEnvironment lib (.empty, none) (unit.fields.all "Container" "Environment") =
      .ok (unit.options.environment, some unit.publishedGamePorts) := by
  have hports : ∀ entry ∈ unit.environment.entries, entry.1 = publishedPortsEnv →
      (none : Option (OrderedMap Text Port)) = none ∧
        lib.portsFromStr entry.2 = some unit.publishedGamePorts := by
    rintro ⟨name, value⟩ hmem rfl
    rw [OrderedMap.mem_entries_iff, ContainerUnit.environment, OrderedMap.get?_insert_self,
      Option.some.injEq] at hmem
    exact ⟨rfl, hmem ▸ hjson⟩
  have hmanaged : publishedPortsEnv ∈ unit.environment.entries.map Prod.fst :=
    OrderedMap.mem_keys_iff.2 ⟨_, OrderedMap.get?_insert_self _ _ _⟩
  rw [(fields_lists unit).2.2.2, loadEnvironment_eq h.assignments unit.environment.keys_nodup
    (fun entry _ => OrderedMap.get?_empty entry.1) hports, if_pos hmanaged]
  exact congrArg (fun m => Except.ok (m, some unit.publishedGamePorts)) h.environment_options

theorem mapM'_parse {lib : Libraries} {unit : ContainerUnit} (h : unit.Writable lib) :
    (unit.fields.all "Container" "PublishPort").mapM' PortMapping.parse =
      .ok unit.options.ports := by
  rw [(fields_lists unit).2.2.1, Outcome.mapM'_eq_ok, List.forall₂_map_left_iff,
    List.forall₂_same]
  exact fun mapping hmapping => parse_render (h.ports mapping hmapping).1

/-- The file that `render` writes for a valid unit is read as the unit, and
each key in it has the values of its directive.  The hypotheses are what
the libraries document: decimal digits are graphic characters, and the
parser of JSON reads back what the writer wrote. -/
theorem load_render (lib : Libraries) (unit : ContainerUnit)
    (hdecimal : lib.DecimalsGraphic)
    (hjson : lib.portsFromStr (portsToString unit.publishedGamePorts) =
      some unit.publishedGamePorts)
    (hvalid : unit.validate lib = .ok ()) :
    ∃ text, unit.render lib = .ok text ∧
      (∃ fields, parseSections text = .ok fields ∧
        ∀ sectionName name, fields.all sectionName name =
          valuesAt sectionName name unit.sections) ∧
      (Text.utf8Length text ≤ limit →
        ContainerUnit.load lib unit.filename text = .ok unit) := by
  have h := validate_writable hvalid
  have hrender : unit.render lib = .ok unit.text := by
    rw [ContainerUnit.render, hvalid]
    rfl
  have hparse := parseSections_text h hdecimal
  refine ⟨unit.text, hrender, ⟨unit.fields, hparse, fields_all unit⟩, fun hlimit => ?_⟩
  have hname : ".container".toList.isSuffixOf? unit.filename = some unit.name :=
    Text.isSuffixOf?_append unit.name ".container".toList
  have howner : (Text.lines unit.text).head? = some owner := by
    rw [lines_text h hdecimal, ContainerUnit.lines, List.cons_append, List.head?_cons]
  have himage := single_of_all (fields_noEmpty unit) (fields_image unit)
  simp only [ContainerUnit.load, readRegular, Outcome.ensure_of hlimit, Outcome.ensure_of howner, hname,
    hparse, checkSupported_eq, himage, unquote_quote h.image, loadStartOnBoot_eq,
    loadUserns_eq h, loadVolumes_eq h hdecimal, mapM'_parse h, loadEnvironment_fields h hjson,
    Outcome.orError, Outcome.ok_bind, hvalid, hrender, Outcome.pure_eq_ok, Outcome.ensure_of]

/-- Libraries that read ASCII digits and the ports of one room. -/
def sampleLibraries : Libraries where
  toLowercase := List.map Char.toLower
  isDecimal := Char.isDigit
  portsFromStr := fun text =>
    if text = "\x7b\"Master\":42200\x7d".toList then
      some (OrderedMap.ofList [("Master".toList, 42200)]) else none

/-- A unit with every kind of character that is escaped. -/
def sampleUnit : ContainerUnit where
  name := "dst-001".toList
  cluster := "/rooms/space %n $x \\ \"".toList
  publishedGamePorts := OrderedMap.ofList [("Master".toList, 42200)]
  options := {
    environment := OrderedMap.ofList [("SPECIAL".toList, "a b %n $HOME \\ \"=".toList)]
    volumeIdmap := some "uids=0-1-1000#5-6-1;gids=0-1-1".toList
    userns := some "keep-id".toList
    ports := [⟨42200, 10999, .udp⟩, ⟨42201, 27016, .udp⟩] }

theorem load_render_sample :
    ∃ text, sampleUnit.render sampleLibraries = .ok text ∧
      (∃ fields, parseSections text = .ok fields ∧
        ∀ sectionName name, fields.all sectionName name =
          valuesAt sectionName name sampleUnit.sections) ∧
      (Text.utf8Length text ≤ limit →
        ContainerUnit.load sampleLibraries sampleUnit.filename text = .ok sampleUnit) :=
  load_render sampleLibraries sampleUnit (fun _ h => graphic_of_isDigit h) rfl rfl

end DstServer.Deployment
