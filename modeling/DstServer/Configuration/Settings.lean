import DstServer.Configuration.Ini
import DstServer.Lib.Json
import DstServer.Lua.Syntax
import DstServer.Rooms.Changes

/-!
# Cluster and shard settings

The two models that are kept in INI files.  A model is a table of sections
and fields, and a sparse value gives some of the fields a value; the
others have their defaults.  `validate` decodes a JSON value and checks it
against the table, and `Settings` is a value that it accepts.

`renderIni` writes the fields of a value under their sections, and
`parseIni` reads them back.
-/

namespace DstServer.Configuration

open Lib

/-! ## Fields -/

/-- The value of a field. -/
inductive Scalar where
  | null
  | bool (value : Bool)
  | number (value : Nat)
  | text (value : Text)
  deriving DecidableEq, Repr

namespace Scalar

def toJson : Scalar → Json
  | null => .null
  | bool value => .bool value
  | number value => .ofNat value
  | text value => .string (.ofList value)

/-- The text of a string, or else of the JSON value. -/
def display : Scalar → Text
  | null => "null".toList
  | bool value => (toString value).toList
  | number value => Text.decimal value
  | text value => value

def asNat : Scalar → Nat
  | number value => value
  | _ => 0

end Scalar

/-- The type of a field; `choice` is an enumeration of names. -/
inductive FieldType where
  | bool
  | u64
  | string
  | choice (names : List String)
  deriving DecidableEq, Repr

/-- A constraint that stands with a field. -/
inductive Rule where
  | range (least greatest : Nat)
  | length (least : Nat) (greatest : Option Nat)
  /-- `^[^\x00\r\n]*$` -/
  | plain
  | ipv4
  deriving DecidableEq, Repr

/-- A field; `optional` says that it may also be null. -/
structure Field where
  name : String
  type : FieldType
  default : Scalar
  optional : Bool := false
  rules : List Rule := []
  deriving DecidableEq, Repr

instance (text : Text) : Decidable (IsPlain text) := by
  unfold IsPlain
  infer_instance

def Rule.admits : Rule → Scalar → Bool
  | range least greatest, .number value => least ≤ value && value ≤ greatest
  | length least greatest, .text value =>
    least ≤ value.length && greatest.all fun greatest => value.length ≤ greatest
  | plain, .text value => IsPlain value
  | ipv4, .text value => (IpAddress.parseIpv4 value).isSome
  | _, _ => true

def FieldType.decode : FieldType → Json → Option Scalar
  | bool, .bool value => some (.bool value)
  | u64, value => value.asU64?.map .number
  | string, .string value => some (.text value.toList)
  | choice names, .string value => if value ∈ names then some (.text value.toList) else none
  | choice names, .object [(value, .null)] =>
    if value ∈ names then some (.text value.toList) else none
  | _, _ => none

/-- `IniValue::parse` -/
def FieldType.parse : FieldType → Text → Outcome String Scalar
  | bool, text => do
    Outcome.ensure (Text.lower text = "true".toList ∨ Text.lower text = "false".toList)
      "INI boolean must be true or false"
    pure (.bool (Text.lower text = "true".toList))
  | u64, text => do
    Outcome.ensure (text ≠ [] ∧ ∀ c ∈ text, c.isDigit = true) "INI integer must be unsigned decimal"
    let value ← Outcome.orError (Text.unsigned? Json.u64Bound text) "INI integer exceeds uint64"
    pure (.number value)
  | _, text => pure (.text text)

def Field.decode (field : Field) : Json → Option Scalar
  | .null => if field.optional then some .null else none
  | value => field.type.decode value

/-- The values that a field of this type takes. -/
def FieldType.Accepts : FieldType → Scalar → Prop
  | .bool, value => ∃ flag, value = .bool flag
  | .u64, value => ∃ n, value = .number n ∧ n < Json.u64Bound
  | .string, value => ∃ text, value = .text text
  | .choice names, value => ∃ name ∈ names, value = .text name.toList

def Field.Accepts (field : Field) (value : Scalar) : Prop :=
  (field.optional = true ∧ value = .null) ∨ field.type.Accepts value

/-- The constraints of a field hold of its value, if it has one. -/
def Field.admits (field : Field) (value : Option Scalar) : Bool :=
  value.all fun value => value = .null || field.rules.all fun rule => rule.admits value

/-! ## Models -/

inductive Model where
  | clusterSettings
  | shardSettings
  deriving DecidableEq, Repr

def languages : List String :=
  ["en", "fr", "es", "mex", "tr", "de", "it", "pt", "pl", "ru", "ko", "zh", "zht", "zhr"]

namespace Model

def wire : Model → String
  | clusterSettings => "ClusterSettings"
  | shardSettings => "ShardSettings"

def file : Model → String
  | clusterSettings => "cluster.ini"
  | shardSettings => "server.ini"

/-- `SECTIONS` -/
def sections : Model → List (String × List Field)
  | clusterSettings => [
      ("MISC", [
        { name := "max_snapshots", type := .u64, default := .number 6, rules := [.range 1 2147483647] },
        { name := "console_enabled", type := .bool, default := .bool true },
        { name := "use_alternate_gc", type := .bool, default := .bool false },
        { name := "mods_enabled", type := .bool, default := .bool true }]),
      ("SHARD", [
        { name := "shard_enabled", type := .bool, default := .bool false },
        { name := "bind_ip", type := .string, default := .text "127.0.0.1".toList,
          rules := [.ipv4, .plain] },
        { name := "master_ip", type := .string, default := .null, optional := true,
          rules := [.length 1 none, .plain] },
        { name := "master_port", type := .u64, default := .number 10888, rules := [.range 1024 65535] },
        { name := "cluster_key", type := .string, default := .null, optional := true,
          rules := [.plain] }]),
      ("STEAM", [
        { name := "steam_group_only", type := .bool, default := .bool false },
        { name := "steam_group_id", type := .u64, default := .number 0 },
        { name := "steam_group_admins", type := .bool, default := .bool false }]),
      ("NETWORK", [
        { name := "cluster_name", type := .string, default := .null, optional := true,
          rules := [.length 0 (some 80), .plain] },
        { name := "cluster_password", type := .string, default := .null, optional := true,
          rules := [.length 0 (some 254), .plain] },
        { name := "cluster_description", type := .string, default := .text [],
          rules := [.length 0 (some 254), .plain] },
        { name := "tick_rate", type := .u64, default := .number 15, rules := [.range 1 60] },
        { name := "offline_cluster", type := .bool, default := .bool false },
        { name := "lan_only_cluster", type := .bool, default := .bool false },
        { name := "autosaver_enabled", type := .bool, default := .bool true },
        { name := "whitelist_slots", type := .u64, default := .number 0 },
        { name := "cluster_language", type := .choice languages, default := .text "en".toList },
        { name := "connection_timeout", type := .u64, default := .number 8000,
          rules := [.range 0 2147483647] },
        { name := "internet_broadcasting_enabled", type := .bool, default := .bool true },
        { name := "idle_timeout", type := .u64, default := .number 1800,
          rules := [.range 0 2147483647] },
        { name := "override_dns", type := .string, default := .null, optional := true,
          rules := [.plain] }]),
      ("GAMEPLAY", [
        { name := "max_players", type := .u64, default := .number 16, rules := [.range 1 64] },
        { name := "pvp", type := .bool, default := .bool false },
        { name := "game_mode", type := .string, default := .text "survival".toList,
          rules := [.length 1 none, .plain] },
        { name := "pause_when_empty", type := .bool, default := .bool false },
        { name := "vote_enabled", type := .bool, default := .bool true }])]
  | shardSettings => [
      ("SHARD", [
        { name := "is_master", type := .bool, default := .bool true },
        { name := "name", type := .string, default := .null, optional := true,
          rules := [.length 1 none, .plain] },
        { name := "id", type := .u64, default := .null, optional := true,
          rules := [.range 1 4294967295] },
        { name := "bind_ip", type := .string, default := .null, optional := true,
          rules := [.ipv4, .plain] },
        { name := "master_ip", type := .string, default := .null, optional := true,
          rules := [.length 1 none, .plain] },
        { name := "master_port", type := .u64, default := .null, optional := true,
          rules := [.range 1024 65535] },
        { name := "cluster_key", type := .string, default := .null, optional := true,
          rules := [.plain] }]),
      ("STEAM", [
        { name := "master_server_port", type := .u64, default := .number 27016,
          rules := [.range 1024 65535] }]),
      ("NETWORK", [
        { name := "server_port", type := .u64, default := .number 10999,
          rules := [.range 1024 65535] }]),
      ("ACCOUNT", [
        { name := "encode_user_path", type := .bool, default := .bool false }])]

def fields (model : Model) : List Field := model.sections.flatMap Prod.snd

def field? (model : Model) (name : String) : Option Field :=
  model.fields.find? fun field => field.name = name

/-- The field that `parse_field` takes for an option. -/
def declared? (model : Model) (sectionName name : String) : Option Field :=
  model.sections.findSome? fun (title, fields) =>
    if lowerName title.toList = sectionName then fields.find? fun field => field.name = name else none

end Model

/-! ## Values -/

/-- The fields that have a value. -/
abbrev Sparse : Type := OrderedMap String Scalar

/-- `as_value` -/
def Sparse.asValue (sparse : Sparse) : Json :=
  .object (sparse.entries.map fun entry => (entry.1, entry.2.toJson))

/-- The value of a field, or its default. -/
def Model.get (model : Model) (sparse : Sparse) (name : String) : Scalar :=
  (sparse.get? name).getD ((model.field? name).elim .null Field.default)

/-- The fields are those of the model, and their values have its types. -/
def Model.Typed (model : Model) (sparse : Sparse) : Prop :=
  ∀ name value, sparse.get? name = some value →
    ∃ field, model.field? name = some field ∧ field.Accepts value

/-- `resolved`: every field with its value. -/
def Model.resolved (model : Model) (sparse : Sparse) : Sparse :=
  .ofList (model.fields.map fun field => (field.name, model.get sparse field.name))

def checkInput (value : Json) : Outcome String Unit := do
  Outcome.ensure (value.depth ≤ Lua.maxNesting ∧ value.nodes ≤ Lua.maxTokens)
    "configuration exceeds its complexity limit"
  Outcome.ensure (Text.utf8Length value.chars ≤ Rooms.maxConfigBytes) "configuration exceeds the byte limit"

namespace Model

def invalid (model : Model) (path : String) : String := s!"invalid {model.wire} at {path}"

def decodeField (model : Model) (name : String) (value : Json) : Outcome String (String × Scalar) := do
  let field ← Outcome.orError (model.field? name) (model.invalid name)
  let scalar ← Outcome.orError (field.decode value) (model.invalid name)
  pure (name, scalar)

/-- The derived `Deserialize`: an object by its keys, or an array in the
order of the fields. -/
def decode (model : Model) : Json → Outcome String Sparse
  | .object fields => do
    let entries ← fields.mapM' fun field => model.decodeField field.1 field.2
    pure (.ofList entries)
  | .array items => do
    Outcome.ensure (items.length ≤ model.fields.length) (model.invalid ".")
    let entries ← (model.fields.zip items).mapM' fun item => model.decodeField item.1.name item.2
    pure (.ofList entries)
  | _ => Outcome.fail (model.invalid ".")

/-- The constraints of the fields. -/
def checkFields (model : Model) (sparse : Sparse) : Outcome String Unit :=
  model.fields.forM fun field =>
    Outcome.ensure (field.admits (sparse.get? field.name) = true) (model.invalid field.name)

def checkMasterIp (model : Model) (sparse : Sparse) : Outcome String Unit :=
  match model.get sparse "master_ip" with
  | .text host => validateHost host
  | _ => pure ()

/-- `Check::check` -/
def check (model : Model) (sparse : Sparse) : Outcome String Unit :=
  match model with
  | clusterSettings => do
    model.checkMasterIp sparse
    Outcome.ensure
      (¬(model.get sparse "steam_group_only" = .bool true ∨
          model.get sparse "steam_group_admins" = .bool true) ∨
        (model.get sparse "steam_group_id").asNat ≠ 0)
      "Steam group restrictions require steam_group_id"
    Outcome.ensure
      ((model.get sparse "whitelist_slots").asNat ≤ (model.get sparse "max_players").asNat)
      "whitelist_slots exceeds max_players"
  | shardSettings => do
    model.checkMasterIp sparse
    match model.get sparse "id" with
    | .number id =>
      Outcome.ensure
        ((model.get sparse "is_master" = .bool true ∧ id = 1) ∨
          (model.get sparse "is_master" ≠ .bool true ∧ 2 ≤ id))
        "master shard id must be 1; secondary shard ids must be at least 2"
    | _ => pure ()

/-- `from_ref` -/
def validate (model : Model) (value : Json) : Outcome String Sparse := do
  checkInput value
  let sparse ← model.decode value
  model.checkFields sparse
  model.check sparse
  pure sparse

end Model

/-- A value that `from_value` accepts. -/
structure Settings (model : Model) where
  sparse : Sparse
  valid : ∃ value, model.validate value = .ok sparse

def Settings.fromValue (model : Model) (value : Json) : Outcome String (Settings model) :=
  match h : model.validate value with
  | .ok sparse => .ok ⟨sparse, value, h⟩
  | .error e => .error e

/-! ## INI files -/

namespace Model

/-- The fields that `render_ini` writes down in any case. -/
def assumed (model : Model) (sparse : Sparse) (multi : Bool) : Sparse :=
  match model with
  | shardSettings =>
    let sparse' := sparse.insert "encode_user_path" (model.get sparse "encode_user_path")
    if multi then sparse'.insert "is_master" (model.get sparse "is_master") else sparse'
  | clusterSettings =>
    if multi = true ∧ sparse.get? "shard_enabled" = none then
      sparse.insert "shard_enabled" (.bool true)
    else sparse

/-- The lines of a section. -/
def options (sparse : Sparse) (fields : List Field) : List (String × Text) :=
  fields.filterMap fun field =>
    ((sparse.get? field.name).filter (· ≠ .null)).map fun value => (field.name, value.display)

def blocks (model : Model) (sparse : Sparse) : List Block :=
  model.sections.filterMap fun (title, fields) =>
    if options sparse fields = [] then none else some ⟨title, options sparse fields⟩

def renderIni (model : Model) (value : Json) (multi : Bool) : Outcome String Text := do
  let sparse ← model.validate value
  let blocks := model.blocks (model.assumed sparse multi)
  Outcome.ensure (Text.utf8Length (fileText blocks) < Rooms.maxFileBytes)
    "INI configuration exceeds the byte limit"
  pure (fileSource blocks)

def parseField (model : Model) (sectionName name : String) (text : Text) : Outcome String Scalar := do
  let field ← Outcome.orError (model.declared? sectionName name) "unknown INI option"
  field.type.parse text

/-- The loop over the options of a file. -/
def parseFields (model : Model) (result : Sparse) :
    List ((String ×ₗ String) × Text) → Outcome String Sparse
  | [] => pure result
  | (key, text) :: rest => do
    let sectionName := (ofLex key).1
    let name := (ofLex key).2
    Outcome.ensure (∃ part ∈ model.sections, lowerName part.1.toList = sectionName)
      "unknown INI section"
    if model = shardSettings ∧ sectionName = "steam" ∧ name = "authentication_port" then
      parseFields model result rest
    else do
      let value ← model.parseField sectionName name text
      parseFields model (result.insert name value) rest

def parseIni (model : Model) (source : Text) : Outcome String Json := do
  let document ← Ini.parse model.file source (some (model = shardSettings))
  let result ← model.parseFields .empty document.values.entries
  let _ ← model.validate result.asValue
  pure result.asValue

end Model

namespace Settings

variable {model : Model}

def parse (model : Model) (source : Text) : Outcome String (Settings model) := do
  let value ← model.parseIni source
  fromValue model value

def render (settings : Settings model) (multi : Bool) : Outcome String Text :=
  model.renderIni settings.sparse.asValue multi

def resolved (settings : Settings model) : Sparse := model.resolved settings.sparse

end Settings

end DstServer.Configuration
