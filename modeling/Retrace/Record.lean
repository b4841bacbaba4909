/-!
# Fields of a record

A record in a document is a list of named nodes. A field is read by its name, wherever it stands; a
name that is given twice cannot be read, and names that nobody asks for do not matter.
-/

namespace Retrace.Record

variable {ν α : Type}

def under (name : String) (fields : List (String × ν)) : List ν :=
  (fields.filter fun field => field.1 == name).map Prod.snd

def required (name : String) (read : ν → Option α) (fields : List (String × ν)) : Option α :=
  match under name fields with
  | [node] => read node
  | _ => none

def optional (name : String) (read : ν → Option α) (default : α) (fields : List (String × ν)) :
    Option α :=
  match under name fields with
  | [] => some default
  | [node] => read node
  | _ => none

end Retrace.Record
