/-!
# Files

What reading a file gives: its text, or the reason why there is none.
-/

namespace Retrace

/-- Why a file could not be read or written. -/
inductive FileError where
  | system (details : String) (code : Nat)
  | notText
  deriving DecidableEq, Inhabited

namespace FileError

def missing : FileError := system "No such file or directory" 2

def isDirectory : FileError := system "Is a directory" 21

def notDirectory : FileError := system "Not a directory" 20

def message : FileError → String
  | system details code => s!"{details} (os error {code})"
  | notText => "stream did not contain valid UTF-8"

end FileError

/-- The text of bytes in UTF-8. -/
def textOfBytes (bytes : ByteArray) : Except FileError String :=
  match String.fromUTF8? bytes with
  | some text => .ok text
  | none => .error .notText

end Retrace
