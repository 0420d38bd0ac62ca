import DstServer.Lib.Json
import DstServer.Lib.OrderedMap
import DstServer.Configuration.Ini

/-!
# The Quadlet of a room

The container unit that runs a room (`ContainerUnit`), the text that is
written for it (`render`) and the reader of such a text (`load`).

A value is escaped for the unit file in one of two ways: `quote` is for a
value that Quadlet hands to systemd as a quoted word, and `volumeEscape` is
for a volume, which Quadlet quotes itself.

`Libraries` stands for what the code calls outside of this repository.
-/

namespace DstServer.Deployment

open Lib

/-- A `u16`. -/
abbrev Port : Type := Fin 65536

instance neZeroPort : NeZero 65536 := inferInstance

instance lawfulBEqPort : LawfulBEq Port := inferInstance

structure Libraries where
  /-- `str::to_lowercase` -/
  toLowercase : Text → Text
  /-- `\d` in a regular expression, a decimal digit of any script -/
  isDecimal : Char → Bool
  /-- `serde_json::from_str` at a map from names to ports -/
  portsFromStr : Text → Option (OrderedMap Text Port)

/-! ## Constants -/

def defaultImage : Text := "quay.io/wh2099/dst-server:latest".toList
def betaImage : Text := "quay.io/wh2099/dst-server:beta".toList
def publishedPortsEnv : Text := "DST_SERVER_PUBLISHED_PORTS".toList
def owner : Text := "# Managed by dst-server: room container v1".toList
def limit : Nat := 1024 * 1024

/-- `agent::RESTART_EXIT` as text. -/
def restartExit : Text := "8".toList

/-! ## The data -/

inductive Protocol where
  | udp
  | tcp
  deriving DecidableEq, Repr

def Protocol.label : Protocol → Text
  | udp => "udp".toList
  | tcp => "tcp".toList

structure PortMapping where
  host : Port
  container : Port
  protocol : Protocol := .udp
  deriving DecidableEq

structure DeploymentOptions where
  image : Text := defaultImage
  environment : OrderedMap Text Text := .empty
  volumeIdmap : Option Text := none
  userns : Option Text := none
  startOnBoot : Bool := true
  ports : List PortMapping := []
  deriving DecidableEq

structure ContainerUnit where
  name : Text
  cluster : Text
  options : DeploymentOptions
  publishedGamePorts : OrderedMap Text Port
  deriving DecidableEq

/-! ## Checks -/

/-- A value may not hold a NUL or end its line. -/
def literal (value : Text) : Outcome String Unit :=
  Outcome.ensure (∀ c ∈ value, c ∉ ['\x00', '\r', '\n']) "unit value contains NUL or a newline"

def token (value : Text) : Outcome String Unit := do
  literal value
  Outcome.ensure (value ≠ [] ∧ ∀ c ∈ value, Text.isWhitespace c = false)
    "unit token is empty or contains whitespace"

def validEnvironmentName : Text → Bool
  | [] => false
  | first :: rest =>
    (first.isAlpha || first = '_') && rest.all fun c => c.isAlphanum || c = '_'

/-- A hexadecimal digit. -/
def isHexDigit (c : Char) : Bool :=
  c.isDigit || ('a' ≤ c && c ≤ 'f') || ('A' ≤ c && c ≤ 'F')

/-- The characters of a unit name, with `\xhh` for any other byte. -/
def validateUnitChars : Text → Outcome String Unit
  | [] => pure ()
  | '\\' :: 'x' :: high :: low :: rest => do
    Outcome.ensure
      (isHexDigit high = true ∧ isHexDigit low = true ∧ (high ≠ '0' ∨ low ≠ '0'))
      "invalid unit escape"
    validateUnitChars rest
  | c :: rest => do
    Outcome.ensure (c ≠ '\\') "invalid unit escape"
    Outcome.ensure (c.isAlphanum = true ∨ c ∈ [':', '_', '.', '-']) "invalid unit name"
    validateUnitChars rest

def validateUnitName (value : Text) : Outcome String Unit := do
  Outcome.ensure (value ≠ [] ∧ Text.utf8Length value ≤ 240 ∧ value.head? ≠ some '.')
    "unsafe or too long unit name"
  validateUnitChars value

def validateDirectoryPath (path : Text) : Outcome String Unit := do
  Outcome.ensure (path.head? = some '/' ∧ "..".toList ∉ path.splitOn '/')
    "directory must be an absolute path without traversal"
  literal path

def PortMapping.validate (mapping : PortMapping) : Outcome String Unit :=
  Outcome.ensure (1024 ≤ mapping.host ∧ 1024 ≤ mapping.container)
    "ports must be between 1024 and 65535"

section Idmap

variable (isDecimal : Char → Bool)

/-- `\d+-\d+-[1-9]\d*` -/
def isIdRange (text : Text) : Bool :=
  match text.splitOn '-' with
  | [first, second, count] =>
    first ≠ [] && first.all isDecimal && second ≠ [] && second.all isDecimal &&
      match count with
      | [] => false
      | c :: rest => '1' ≤ c && c ≤ '9' && rest.all isDecimal
  | _ => false

/-- A key with one or more ranges. -/
def isIdRanges (key text : Text) : Bool :=
  match key.isPrefixOf? text with
  | some ranges => (ranges.splitOn '#').all (isIdRange isDecimal)
  | none => false

/-- The user IDs, the group IDs, or both in either order. -/
def isIdmap (text : Text) : Bool :=
  let uids := isIdRanges isDecimal "uids=".toList
  let gids := isIdRanges isDecimal "gids=".toList
  match text.splitOn ';' with
  | [only] => uids only || gids only
  | [first, second] => (uids first && gids second) || (gids first && uids second)
  | _ => false

end Idmap

/-- The loop over the mappings, with the host and container ports that
earlier ones use. -/
def validatePorts (hosts containers : List (Protocol × Port)) :
    List PortMapping → Outcome String Unit
  | [] => pure ()
  | mapping :: rest => do
    mapping.validate
    Outcome.ensure (mapping.protocol = .udp) "DST publication requires UDP"
    Outcome.ensure ((mapping.protocol, mapping.host) ∉ hosts) "duplicate host port"
    Outcome.ensure ((mapping.protocol, mapping.container) ∉ containers)
      "duplicate container port"
    validatePorts ((mapping.protocol, mapping.host) :: hosts)
      ((mapping.protocol, mapping.container) :: containers) rest

def validateEnvironment (entry : Text × Text) : Outcome String Unit := do
  Outcome.ensure (validEnvironmentName entry.1 = true) "invalid environment name"
  literal entry.2
  Outcome.ensure (entry.1 ≠ publishedPortsEnv)
    "DST_SERVER_PUBLISHED_PORTS is managed by the deployment"

def DeploymentOptions.validate (lib : Libraries) (options : DeploymentOptions) :
    Outcome String Unit := do
  token options.image
  Outcome.ensure (¬".image".toList <:+ options.image)
    "image must be an image reference, not another Quadlet"
  options.environment.entries.forM validateEnvironment
  options.userns.toList.forM token
  options.volumeIdmap.toList.forM fun value =>
    Outcome.ensure (isIdmap lib.isDecimal value = true) "invalid volume idmap"
  validatePorts [] [] options.ports

def ContainerUnit.validate (lib : Libraries) (unit : ContainerUnit) : Outcome String Unit := do
  validateUnitName unit.name
  validateDirectoryPath unit.cluster
  Outcome.ensure (':' ∉ unit.cluster) "volume path cannot contain a colon"
  unit.options.validate lib
  Outcome.ensure (unit.publishedGamePorts.entries ≠ []) "deployment requires at least one shard"
  unit.publishedGamePorts.entries.forM fun entry => do
    Configuration.validateShardName lib.toLowercase entry.1
    Outcome.ensure
      (∃ mapping ∈ unit.options.ports, mapping.host = entry.2 ∧ mapping.protocol = .udp)
      "published game port is missing from mappings"

/-! ## Escaping -/

def escape (value : Text) : Text :=
  Text.replace '$' "$$".toList (Text.replace '%' "%%".toList
    (Text.replace '\\' "\\\\".toList value))

/-- A volume keeps its backslashes: Quadlet quotes it for systemd itself. -/
def volumeEscape (value : Text) : Text :=
  Text.replace '$' "$$".toList (Text.replace '%' "%%".toList value)

def quote (value : Text) : Text :=
  '"' :: Text.replace '"' "\\\"".toList (escape value) ++ ['"']

/-- The loop of `volume_unescape`. -/
def volumeDecode : Text → Outcome String Text
  | [] => pure []
  | c :: rest =>
    if c = '$' ∨ c = '%' then
      match rest with
      | d :: rest => do
        Outcome.ensure (d = c) "dynamic volume expansion is unsupported"
        let decoded ← volumeDecode rest
        pure (c :: decoded)
      | [] => Outcome.fail "dynamic volume expansion is unsupported"
    else do
      let decoded ← volumeDecode rest
      pure (c :: decoded)

def volumeUnescape (value : Text) : Outcome String Text := do
  let decoded ← volumeDecode value
  literal decoded
  pure decoded

/-- The loop of `unquote`. -/
def unquoteChars : Text → Outcome String Text
  | [] => pure []
  | c :: rest =>
    if c = '\\' then
      match rest with
      | next :: rest => do
        Outcome.ensure (next = '\\' ∨ next = '"') "unsupported unit escape"
        let result ← unquoteChars rest
        pure (next :: result)
      | [] => Outcome.fail "unfinished unit escape"
    else if c = '$' ∨ c = '%' then
      match rest with
      | d :: rest => do
        Outcome.ensure (d = c) "dynamic unit expansion is unsupported"
        let result ← unquoteChars rest
        pure (c :: result)
      | [] => Outcome.fail "dynamic unit expansion is unsupported"
    else if c = '"' then Outcome.fail "unescaped quote in unit value"
    else do
      let result ← unquoteChars rest
      pure (c :: result)

def unquote (value : Text) : Outcome String Text := do
  let rest ← Outcome.orError (['"'].isPrefixOf? value) "expected a quoted literal"
  let inner ← Outcome.orError (['"'].isSuffixOf? rest) "expected a quoted literal"
  let result ← unquoteChars inner
  literal result
  pure result

/-! ## Port mappings as text -/

def PortMapping.render (mapping : PortMapping) : Text :=
  Text.decimal mapping.host ++ ':' :: Text.decimal mapping.container ++ '/' ::
    mapping.protocol.label

/-- `str::parse::<u16>` -/
def parsePort (text : Text) : Option Port :=
  (Text.unsigned? 65536 text).bind fun n => if h : n < 65536 then some ⟨n, h⟩ else none

def Protocol.parse (label : Text) : Outcome String Protocol :=
  if label = Protocol.udp.label then pure .udp
  else if label = Protocol.tcp.label then pure .tcp
  else Outcome.fail "unsupported port protocol"

def PortMapping.parse (value : Text) : Outcome String PortMapping := do
  let (ports, protocol) ← Outcome.orError (Text.splitOnce (· = '/') value) "missing port protocol"
  let (host, container) ← Outcome.orError (Text.splitOnce (· = ':') ports) "missing host port"
  let host ← Outcome.orError (parsePort host) "invalid digit found in string"
  let container ← Outcome.orError (parsePort container) "invalid digit found in string"
  let protocol ← Protocol.parse protocol
  let mapping : PortMapping := { host, container, protocol }
  mapping.validate
  pure mapping

/-! ## Sections -/

/-- The values of each key of each section, in the order of their lines. -/
abbrev Fields : Type := OrderedMap (String ×ₗ String) (List Text)

def fieldKey (sectionName name : String) : String ×ₗ String := toLex (sectionName, name)

/-- `entry(..).or_default().push(value)` -/
def Fields.push (fields : Fields) (key : String ×ₗ String) (value : Text) : Fields :=
  fields.insert key ((fields.get? key).getD [] ++ [value])

/-- The body of the loop over the lines, at a trimmed line that is neither
blank nor a comment. -/
def parseLine (state : Text × Fields) (line : Text) : Outcome String (Text × Fields) :=
  match (['['].isPrefixOf? line).bind ([']'].isSuffixOf? ·) with
  | some value => pure (value, state.2)
  | none => do
    let (key, value) ← Outcome.orError (Text.splitOnce (· = '=') line) "invalid Quadlet line"
    Outcome.ensure (state.1 ≠ [] ∧ Text.trim key ≠ [] ∧ value.getLast? ≠ some '\\')
      "invalid or continued Quadlet line"
    let field := fieldKey (String.ofList state.1) (String.ofList (Text.trim key))
    pure (state.1, state.2.push field (Text.trim value))

/-- A line that the reader skips. -/
def isSkipped (line : Text) : Bool :=
  line.isEmpty || line.head? = some '#' || line.head? = some ';'

def parseLines (state : Text × Fields) : List Text → Outcome String (Text × Fields)
  | [] => pure state
  | line :: rest =>
    if isSkipped (Text.trim line) then parseLines state rest
    else do
      let state ← parseLine state (Text.trim line)
      parseLines state rest

def parseSections (source : Text) : Outcome String Fields := do
  let state ← parseLines ([], .empty) (Text.lines source)
  pure state.2

/-! ## Writing a unit -/

def writeLine (line : Text) : Text := line ++ ['\n']

/-- A directive and its value on a line. -/
def directive (name : String) (value : Text) : Text := writeLine (name.toList ++ '=' :: value)

/-- `serde_json::to_string` of the game ports. -/
def portsToString (ports : OrderedMap Text Port) : Text :=
  Json.chars (.object (ports.entries.map fun e => (String.ofList e.1, Json.ofNat e.2)))

def DeploymentOptions.suffix (options : DeploymentOptions) : Text :=
  match options.volumeIdmap with
  | some value => ":idmap=".toList ++ value
  | none => []

/-- The environment with the managed variable. -/
def ContainerUnit.environment (unit : ContainerUnit) : OrderedMap Text Text :=
  unit.options.environment.insert publishedPortsEnv (portsToString unit.publishedGamePorts)

/-- The text that `render` writes for a valid unit. -/
def ContainerUnit.text (unit : ContainerUnit) : Text :=
  writeLine owner ++
    writeLine "[Unit]".toList ++
    directive "Description" ("Don't Starve Together ".toList ++ escape unit.name) ++
    writeLine [] ++
    writeLine "[Container]".toList ++
    directive "Image" (quote unit.options.image) ++
    directive "Pull" "never".toList ++
    directive "RunInit" "true".toList ++
    directive "Timezone" "local".toList ++
    directive "Exec" "/usr/local/bin/dst-server agent --cluster /cluster".toList ++
    directive "StopTimeout" "360".toList ++
    (if unit.options.image = defaultImage ∨ unit.options.image = betaImage then
      directive "AutoUpdate" "registry".toList else []) ++
    directive "Volume" (volumeEscape (unit.cluster ++ ":/cluster".toList ++ unit.options.suffix)) ++
    directive "Volume"
      (volumeEscape (unit.cluster ++ "/mods:/install/mods".toList ++ unit.options.suffix)) ++
    unit.options.userns.elim [] (fun userns => directive "UserNS" (quote userns)) ++
    unit.options.ports.flatMap (fun mapping => directive "PublishPort" mapping.render) ++
    unit.environment.entries.flatMap
      (fun entry => directive "Environment" (quote (entry.1 ++ '=' :: entry.2))) ++
    writeLine [] ++
    writeLine "[Service]".toList ++
    directive "Restart" "on-failure".toList ++
    directive "RestartSec" "5".toList ++
    directive "SuccessExitStatus" restartExit ++
    directive "RestartForceExitStatus" restartExit ++
    directive "TimeoutStartSec" "900".toList ++
    directive "TimeoutStopSec" "420".toList ++
    (if unit.options.startOnBoot = true then
      writeLine [] ++ writeLine "[Install]".toList ++
        directive "WantedBy" "default.target".toList
      else [])

def ContainerUnit.render (lib : Libraries) (unit : ContainerUnit) : Outcome String Text := do
  unit.validate lib
  pure unit.text

/-! ## Reading a unit -/

/-- The `get` of `load`: the one value of a key. -/
def Fields.single (fields : Fields) (sectionName name : String) : Outcome String Text := do
  let values ← Outcome.orError (fields.get? (fieldKey sectionName name))
    s!"missing {sectionName}.{name}"
  match values with
  | [value] => pure value
  | _ => Outcome.fail s!"duplicate {sectionName}.{name}"

/-- The values of a key that may be absent. -/
def Fields.all (fields : Fields) (sectionName name : String) : List Text :=
  (fields.get? (fieldKey sectionName name)).getD []

/-- The directives with only one supported value. -/
def supported : List (String × String × Text) :=
  [("Container", "Pull", "never".toList),
    ("Container", "RunInit", "true".toList),
    ("Container", "Timezone", "local".toList),
    ("Container", "Exec",
      "/usr/local/bin/dst-server agent --cluster /cluster".toList),
    ("Container", "StopTimeout", "360".toList),
    ("Service", "Restart", "on-failure".toList),
    ("Service", "RestartSec", "5".toList),
    ("Service", "SuccessExitStatus", restartExit),
    ("Service", "RestartForceExitStatus", restartExit),
    ("Service", "TimeoutStartSec", "900".toList),
    ("Service", "TimeoutStopSec", "420".toList)]

def checkSupported (fields : Fields) (field : String × String × Text) : Outcome String Unit := do
  let value ← fields.single field.1 field.2.1
  Outcome.ensure (value = field.2.2)
    s!"unsupported {field.1}.{field.2.1}"

def loadStartOnBoot (fields : Fields) : Outcome String Bool :=
  if (fields.get? (fieldKey "Install" "WantedBy")).isSome = true then do
    let target ← fields.single "Install" "WantedBy"
    Outcome.ensure (target = "default.target".toList) "unsupported install target"
    pure true
  else pure false

def loadUserns (fields : Fields) : Outcome String (Option Text) :=
  if (fields.get? (fieldKey "Container" "UserNS")).isSome = true then do
    let value ← fields.single "Container" "UserNS"
    let userns ← unquote value
    pure (some userns)
  else pure none

/-- The ID map after the mount point of a volume. -/
def loadIdmap (suffix : Text) : Outcome String (Option Text) :=
  if suffix = [] then pure none
  else do
    let idmap ← Outcome.orError (":idmap=".toList.isPrefixOf? suffix) "unsupported volume options"
    pure (some idmap)

/-- The cluster directory and the ID map. -/
def loadVolumes (fields : Fields) : Outcome String (Text × Option Text) := do
  let volumes ← Outcome.orError (fields.get? (fieldKey "Container" "Volume"))
    "missing cluster volume"
  match volumes with
  | [first, second] => do
    let volume ← volumeUnescape first
    let (cluster, suffix) ← Outcome.orError (Text.splitOnceText ":/cluster".toList volume)
      "invalid cluster volume"
    let idmap ← loadIdmap suffix
    let mods ← volumeUnescape second
    Outcome.ensure (mods = cluster ++ "/mods:/install/mods".toList ++ suffix)
      "invalid shared Mods volume"
    pure (cluster, idmap)
  | _ => Outcome.fail "expected cluster and shared Mods volumes"

/-- The loop over the environment, with what earlier lines set. -/
def loadEnvironment (lib : Libraries)
    (state : OrderedMap Text Text × Option (OrderedMap Text Port)) :
    List Text → Outcome String (OrderedMap Text Text × Option (OrderedMap Text Port))
  | [] => pure state
  | line :: rest => do
    let assignment ← unquote line
    let (name, value) ← Outcome.orError (Text.splitOnce (· = '=') assignment)
      "invalid environment assignment"
    if name = publishedPortsEnv then do
      Outcome.ensure (state.2 = none) "duplicate managed environment"
      let ports ← Outcome.orError (lib.portsFromStr value) "invalid published game ports"
      loadEnvironment lib (state.1, some ports) rest
    else do
      Outcome.ensure (state.1.get? name = none) "duplicate environment variable"
      loadEnvironment lib (state.1.insert name value, state.2) rest

/-- `read_regular` of a file with this content. -/
def readRegular (source : Text) : Outcome String Text := do
  Outcome.ensure (Text.utf8Length source ≤ limit) "file is not regular or exceeds limit"
  pure source

/-- `load` of a file with this name and this content. -/
def ContainerUnit.load (lib : Libraries) (fileName source : Text) :
    Outcome String ContainerUnit := do
  let source ← readRegular source
  Outcome.ensure ((Text.lines source).head? = some owner) "unrelated Quadlet file"
  let name ← Outcome.orError (".container".toList.isSuffixOf? fileName)
    "expected a .container unit"
  let fields ← parseSections source
  supported.forM (checkSupported fields)
  let image ← fields.single "Container" "Image"
  let image ← unquote image
  let startOnBoot ← loadStartOnBoot fields
  let userns ← loadUserns fields
  let (cluster, volumeIdmap) ← loadVolumes fields
  let ports ← (fields.all "Container" "PublishPort").mapM' PortMapping.parse
  let (environment, publishedGamePorts) ← loadEnvironment lib (.empty, none)
    (fields.all "Container" "Environment")
  let publishedGamePorts ← Outcome.orError publishedGamePorts "missing published game ports"
  let unit : ContainerUnit := {
    name, cluster, publishedGamePorts
    options := { image, environment, volumeIdmap, userns, startOnBoot, ports } }
  unit.validate lib
  let rendered ← unit.render lib
  let expected ← parseSections rendered
  Outcome.ensure (expected = fields) "unsupported or inconsistent managed Quadlet fields"
  pure unit

def ContainerUnit.filename (unit : ContainerUnit) : Text := unit.name ++ ".container".toList

end DstServer.Deployment
