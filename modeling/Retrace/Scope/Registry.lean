import Retrace.Scope
import Retrace.Text.Blank

/-!
# The registry of scope names

Each registered name owns one area: the first name the area at position 0, the next the one at
position 1, and so on. Names are registered in batches, and a batch is taken as a whole or not at all.
-/

namespace Retrace

/-- The registered names, in order of their areas. -/
structure Registry where
  names : List String
  deriving DecidableEq, Inhabited

namespace Registry

def empty : Registry := ⟨[]⟩

def trimName (name : String) : String := String.ofList (Text.trim name.toList)

def separates (character : Char) : Bool := character = ',' || Text.isBlank character

def namesOf (text : String) : List String :=
  (Text.wordsBy separates text.toList).map String.ofList

/-- The first reason to refuse names that come one after another when others are taken. -/
def objection? (taken : List String) : List String → Option EngineError
  | [] => none
  | name :: rest =>
    if name = "" then some (.invalid "scope name cannot be empty")
    else if name = Scope.wildcardName then some (.reservedScopeName name)
    else if name ∈ taken then some (.duplicateScope name)
    else objection? (name :: taken) rest

/-- Adds a batch of names, each without the blanks around it. -/
def register (registry : Registry) (batch : List String) : Except EngineError Registry :=
  let added := batch.map trimName
  match objection? registry.names added with
  | some error => .error error
  | none =>
    let count := registry.names.length + added.length
    if Scope.areaLimit < count then .error (.tooManyScopes count Scope.areaLimit)
    else .ok ⟨registry.names ++ added⟩

def ofNames (names : List String) : Except EngineError Registry := empty.register names

def ofText (text : String) : Except EngineError Registry := ofNames (namesOf text)

def bitAt (position : Nat) : BitVec 32 := 1#32 <<< position

def bitOf? (registry : Registry) (name : String) : Option (BitVec 32) :=
  (registry.names.idxOf? name).map bitAt

def entries (registry : Registry) : List (BitVec 32 × String) :=
  registry.names.zipIdx.map fun (name, position) => (bitAt position, name)

def nameOf? (registry : Registry) (bit : BitVec 32) : Option String := registry.entries.lookup bit

def mask (registry : Registry) : BitVec 32 :=
  registry.entries.foldl (fun bits entry => bits ||| entry.1) 0#32

def namesFor (registry : Registry) (scope : Scope) : List String :=
  match scope with
  | .all => [Scope.wildcardName]
  | .areas bits =>
    (registry.entries.filter fun entry => bits &&& entry.1 != 0#32).map fun entry => entry.2

def bitsOfNames (registry : Registry) : List String → Except EngineError (BitVec 32)
  | [] => .ok 0#32
  | name :: rest =>
    match registry.bitOf? name with
    | none => .error (.unknownScope name)
    | some bit => (registry.bitsOfNames rest).map (bit ||| ·)

/-- The scope of a list of names: everything if the wildcard is one of them. -/
def scopeOfNames (registry : Registry) (names : List String) : Except EngineError Scope :=
  let trimmed := names.map trimName
  if Scope.wildcardName ∈ trimmed then .ok .all
  else (registry.bitsOfNames trimmed).map Scope.areas

def scope (registry : Registry) (name : String) : Except EngineError Scope :=
  registry.scopeOfNames [name]

def scopeOfText (registry : Registry) (text : String) : Except EngineError Scope :=
  registry.scopeOfNames (namesOf text)

def validate (registry : Registry) (scope : Scope) : Except EngineError Unit :=
  match scope with
  | .all => .ok ()
  | .areas bits =>
    let stray := bits &&& ~~~registry.mask
    if stray = 0#32 then .ok ()
    else
      let whole := Scope.hexadecimal bits.toNat
      let rest := Scope.hexadecimal stray.toNat
      .error (.invalid s!"scope {whole} carries unregistered flags {rest}")

end Registry

end Retrace
