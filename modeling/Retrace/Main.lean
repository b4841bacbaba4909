import Retrace.Shell.Program

/-!
The ledger program on the files and streams of the system.
-/

namespace Retrace.Program

def fileErrorOf : IO.Error → FileError
  | .noFileOrDirectory _ code details => .system details code.toNat
  | .permissionDenied _ code details => .system details code.toNat
  | .inappropriateType _ code details => .system details code.toNat
  | .invalidArgument _ code details => .system details code.toNat
  | .resourceExhausted _ code details => .system details code.toNat
  | .otherError code details => .system details code.toNat
  | error => .system (toString error) 0

/-- What reading bytes gives. -/
def textFrom (read : IO ByteArray) : IO (Except FileError String) := do
  try
    return textOfBytes (← read)
  catch error => return .error (fileErrorOf error)

def systemSource : Source IO where
  file path := textFrom (IO.FS.readBinFile path)
  input := do
    let stream ← IO.getStdin
    textFrom stream.readBinToEnd

end Retrace.Program

open Retrace in
def main (arguments : List String) : IO UInt32 := do
  let ending ← Program.execute Program.systemSource arguments
  (← IO.getStdout).putStr ending.output
  (← IO.getStderr).putStr ending.errors
  return ending.code.toUInt32
