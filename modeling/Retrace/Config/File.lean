import Retrace.Config.Document
import Retrace.File
import Retrace.Json.Printer
import Retrace.Json.Reader
import Retrace.Yaml.Printer
import Retrace.Yaml.Reader

/-!
# Settings in files

The kind of a document is told by the extension of its file's name.
-/

namespace Retrace.Config

inductive Format where
  | json
  | yaml
  deriving DecidableEq, Inhabited

namespace Format

/-- The name of the file at the end of a path: its last part that names something. -/
def fileName (path : List Char) : List Char :=
  let parts := (path.splitOnP (· == '/')).filter fun part => part != [] && part != ['.']
  parts.getLast?.getD []

/-- What follows the last point of a file's name, unless the name starts with it. -/
def extension (name : List Char) : List Char :=
  let last := (name.reverse.takeWhile (· != '.')).reverse
  if name.length ≤ last.length + 1 then [] else last

def ofPath? (path : String) : Option Format :=
  match String.ofList (extension (fileName path.toList)) with
  | "yaml" | "yml" => some yaml
  | "json" => some json
  | _ => none

end Format

def unsupportedFormat : EngineError :=
  .badConfig "Unsupported file format. Use .yaml, .yml, or .json"

def readFailure (error : FileError) : EngineError :=
  .badConfig ("Failed to read config file: " ++ error.message)

def writeFailure (error : FileError) : EngineError :=
  .badConfig ("Failed to write config file: " ++ error.message)

def parse (format : Format) (text : String) : Except EngineError Config :=
  match format with
  | .json =>
    match (Json.parsePassing? isUnknown text).bind ofJson? with
    | some config => .ok config
    | none => .error (.badJson "the document does not hold settings")
  | .yaml =>
    match (Yaml.parse? text).bind ofYaml? with
    | some config => .ok config
    | none => .error (.badYaml "the document does not hold settings")

def write (format : Format) (config : Config) : String :=
  match format with
  | .json => config.toJson.indented
  | .yaml => config.toYaml.print

def loadAs (format : Format) (content : Except FileError String) : Except EngineError Config :=
  match content with
  | .error error => .error (readFailure error)
  | .ok text => parse format text

def load (path : String) (content : Except FileError String) : Except EngineError Config :=
  match Format.ofPath? path with
  | none => .error unsupportedFormat
  | some format => loadAs format content

def save (config : Config) (path : String) : Except EngineError String :=
  match Format.ofPath? path with
  | none => .error unsupportedFormat
  | some format => .ok (config.write format)

end Retrace.Config
