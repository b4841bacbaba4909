/-!
# YAML values

The data model of YAML documents without tags and anchors. What a scalar means is left to whoever reads
it: only a plain one can be a number or nothing at all.
-/

namespace Retrace

inductive Yaml where
  | scalar (text : String) (isPlain : Bool)
  | sequence (items : List Yaml)
  | mapping (entries : List (Yaml × Yaml))
  deriving Inhabited

namespace Yaml

def nothing : Yaml := scalar "" true

def isNothing : Yaml → Bool
  | scalar text isPlain => isPlain && text.isEmpty
  | _ => false

end Yaml

end Retrace
