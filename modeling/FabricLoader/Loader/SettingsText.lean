import FabricLoader.Loader.Settings
import FabricLoader.Yaml.Scalar

/-! Settings written as one YAML document. A record is a mapping by field names, of which unknown ones
are passed over, or a sequence of its fields in their order. -/
namespace FabricLoader

inductive SettingsError where
  | malformed (cause : Yaml.Malformed)
  | noDocument
  | manyDocuments
  | missing (field : String)
  | duplicate (field : String)
  /-- A record with more values than fields. -/
  | surplus
  | badKey
  | badValue
  deriving DecidableEq, Repr

def SettingsError.message : SettingsError → String
  | malformed cause => cause.message
  | noDocument => "EOF while parsing a value"
  | manyDocuments => "deserializing from YAML containing more than one document is not supported"
  | missing field => s!"missing field `{field}`"
  | duplicate field => s!"duplicate field `{field}`"
  | surplus => "invalid length"
  | badKey => "invalid key"
  | badValue => "invalid type or value"

namespace SettingsText
open Yaml

/-- The values of a record: by name, or by position. -/
inductive Record where
  | named (values : List (String × Node))
  | listed (values : List Node)

def text (document : Document) (node : Node) : Except SettingsError String :=
  match document.resolve node with
  | .scalar _ _ text => .ok text
  | _ => .error .badValue

def number (limit : Nat) (document : Document) (node : Node) : Except SettingsError Nat :=
  match document.resolve node with
  | .scalar plain tag text =>
    match meaning? plain tag text.toList with
    | some (.int (.ofNat n)) => if n < limit then .ok n else .error .badValue
    | _ => .error .badValue
  | _ => .error .badValue

def word (document : Document) (node : Node) : Except SettingsError UInt32 :=
  (number UInt32.size document node).map UInt32.ofNat

def truth (document : Document) (node : Node) : Except SettingsError Bool :=
  match document.resolve node with
  | .scalar plain tag text =>
    match meaning? plain tag text.toList with
    | some (.bool value) => .ok value
    | _ => .error .badValue
  | _ => .error .badValue

def list {α : Type} (decode : Document → Node → Except SettingsError α) (document : Document)
    (node : Node) : Except SettingsError (List α) :=
  match document.resolve node with
  | .sequence items => items.mapM (decode document)
  | _ => .error .badValue

def nullable {α : Type} (decode : Document → Node → Except SettingsError α) (document : Document)
    (node : Node) : Except SettingsError (Option α) :=
  match document.resolve node with
  | .scalar plain tag text =>
    match isAbsent? plain tag text.toList with
    | some true => .ok none
    | some false => (decode document node).map some
    | none => .error .badValue
  | _ => (decode document node).map some

def namedValues (document : Document) (fields : List String) :
    List (Node × Node) → Except SettingsError (List (String × Node))
  | [] => .ok []
  | (key, value) :: pairs => do
    let name ← (text document key).mapError fun _ => .badKey
    let values ← namedValues document fields pairs
    if !fields.contains name then return values
    if (values.lookup name).isSome then throw (.duplicate name)
    return (name, value) :: values

def record (fields : List String) (document : Document) (node : Node) :
    Except SettingsError Record :=
  match document.resolve node with
  | .mapping pairs => (namedValues document fields pairs).map .named
  | .sequence items => if items.length ≤ fields.length then .ok (.listed items) else .error .surplus
  | _ => .error .badValue

namespace Record
variable {α : Type}

def value? (record : Record) (place : Nat) (field : String) : Option Node :=
  match record with
  | named values => values.lookup field
  | listed values => values[place]?

def required (record : Record) (place : Nat) (field : String)
    (decode : Node → Except SettingsError α) : Except SettingsError α :=
  match record.value? place field with
  | some node => decode node
  | none => .error (.missing field)

/-- A field that has a value of its own when it is left out. -/
def defaulted (record : Record) (place : Nat) (field : String) (standard : α)
    (decode : Node → Except SettingsError α) : Except SettingsError α :=
  match record.value? place field with
  | some node => decode node
  | none => .ok standard

/-- A field that may be left out or null; by position it may only be null. -/
def optional (record : Record) (place : Nat) (field : String)
    (decode : Node → Except SettingsError (Option α)) : Except SettingsError (Option α) :=
  match record, record.value? place field with
  | _, some node => decode node
  | named _, none => .ok none
  | listed _, none => .error (.missing field)

end Record

def image (document : Document) (node : Node) : Except SettingsError ImageRequest := do
  let fields := ["file", "control", "control_address", "retries", "verify"]
  let record ← record fields document node
  return {
    file := ← record.required 0 "file" (text document)
    control := ← record.optional 1 "control" (nullable word document)
    controlAddress := ← record.optional 2 "control_address" (nullable word document)
    retries := ← record.defaulted 3 "retries" 0 (word document)
    verify := ← record.defaulted 4 "verify" false (truth document) }

def block (document : Document) (node : Node) : Except SettingsError BlockSettings := do
  let record ← record ["base", "depth", "fail_write"] document node
  let standard := BlockSettings.standard
  return {
    base := ← record.defaulted 0 "base" standard.base (word document)
    depth := ← record.defaulted 1 "depth" standard.depth (number unsignedLimit document)
    failAt := ← record.optional 2 "fail_write" (nullable word document) }

def ofDocument (document : Document) : Except SettingsError Settings := do
  let record ← record ["prism", "widths", "images"] document document.root
  return {
    block := ← record.defaulted 0 "prism" .standard (block document)
    widths := ← record.optional 1 "widths" (nullable (list word) document)
    images := ← record.required 2 "images" (list image document) }

end SettingsText

/-- The settings in a text, which has to be a single document. -/
def Settings.ofText (text : String) : Except SettingsError Settings :=
  match Yaml.documents text.toList with
  | .error cause => .error (.malformed cause)
  | .ok [] => .error .noDocument
  | .ok [document] => SettingsText.ofDocument document
  | .ok _ => .error .manyDocuments

end FabricLoader
