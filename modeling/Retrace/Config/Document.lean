import Retrace.Config
import Retrace.Json.Fields
import Retrace.Yaml.Scalar
import Retrace.Yaml

/-!
# Settings in documents

The fields of the settings and how they stand in JSON and YAML. A missing field has its standard value,
an unknown one is passed over, and a field that is given twice is refused.
-/

namespace Retrace.Config

structure NodeReader (ν : Type) where
  word? : ν → Option UInt64
  text? : ν → Option String
  items? : ν → Option (List ν)
  entries? : ν → Option (List (String × ν))

namespace NodeReader

variable {ν : Type}

def texts? (reader : NodeReader ν) (node : ν) : Option (List String) :=
  (reader.items? node).bind fun items => items.mapM reader.text?

def route? (reader : NodeReader ν) (entry : String × ν) : Option (String × String) :=
  (reader.text? entry.2).map fun stack => (entry.1, stack)

/-- The routes of a mapping; of two routes of one name the later counts. -/
def routes? (reader : NodeReader ν) (node : ν) : Option RouteTable :=
  (reader.entries? node).bind fun entries => (entries.mapM reader.route?).map RouteTable.ofList

end NodeReader

def fieldNames : List String := ["undo_limit", "scopes", "default_stack", "event_capacity", "routes"]

def ofFields {ν : Type} (reader : NodeReader ν) (fields : List (String × ν)) : Option Config := do
  let undoLimit ← Record.optional "undo_limit" reader.word? standard.undoLimit fields
  let scopes ← Record.optional "scopes" reader.texts? standard.scopes fields
  let defaultStack ← Record.optional "default_stack" reader.text? standard.defaultStack fields
  let eventCapacity ← Record.optional "event_capacity" reader.word? standard.eventCapacity fields
  let routes ← Record.optional "routes" reader.routes? standard.routes fields
  return { undoLimit, scopes, defaultStack, eventCapacity, routes }

/-! ### JSON -/

def jsonReader : NodeReader Json where
  word? := Json.word?
  text? := Json.text?
  items? := Json.items?
  entries? := Json.members?

def jsonFields (config : Config) : List (String × Json) :=
  [("undo_limit", .ofWord config.undoLimit), ("scopes", .array (config.scopes.map .text)),
    ("default_stack", .text config.defaultStack), ("event_capacity", .ofWord config.eventCapacity),
    ("routes", .object (config.routes.entries.map fun (scope, stack) => (scope, .text stack)))]

def toJson (config : Config) : Json := .object config.jsonFields

def isUnknown (name : String) : Bool := !fieldNames.contains name

def ofJson? (value : Json) : Option Config := (value.fields? fieldNames).bind (ofFields jsonReader)

/-! ### YAML -/

def yamlText? : Yaml → Option String
  | .scalar text _ => some text
  | _ => none

/-- The number of a plain scalar. -/
def yamlWord? : Yaml → Option UInt64
  | .scalar text true => Yaml.word? text
  | _ => none

/-- The items of a sequence; where nothing is written there are none. -/
def yamlItems? : Yaml → Option (List Yaml)
  | .sequence items => some items
  | node => if node.isNothing then some [] else none

def yamlEntries? : Yaml → Option (List (String × Yaml))
  | .mapping entries => entries.mapM fun (key, value) => (yamlText? key).map fun name => (name, value)
  | node => if node.isNothing then some [] else none

/-- How YAML nodes are read. -/
def yamlReader : NodeReader Yaml where
  word? := yamlWord?
  text? := yamlText?
  items? := yamlItems?
  entries? := yamlEntries?

def yamlOfText (text : String) : Yaml := .scalar text false

def yamlOfWord (value : UInt64) : Yaml := .scalar (toString value.toNat) true

def toYaml (config : Config) : Yaml :=
  let routes := config.routes.entries.map fun (scope, stack) => (yamlOfText scope, yamlOfText stack)
  .mapping
    [(yamlOfText "undo_limit", yamlOfWord config.undoLimit),
      (yamlOfText "scopes", .sequence (config.scopes.map yamlOfText)),
      (yamlOfText "default_stack", yamlOfText config.defaultStack),
      (yamlOfText "event_capacity", yamlOfWord config.eventCapacity),
      (yamlOfText "routes", .mapping routes)]

def ofYaml? (node : Yaml) : Option Config := (yamlEntries? node).bind (ofFields yamlReader)

end Retrace.Config
