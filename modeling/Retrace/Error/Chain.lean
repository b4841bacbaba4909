import Retrace.Error

/-!
# Chains of errors

An error, the error that caused it, the one that caused that, and so on, shown as one line.
-/

namespace Retrace.ErrorChain

def depthLimit : Nat := 10

def formatFrom (depth : Nat) : List String → String
  | [] => ""
  | [last] => last
  | outer :: cause :: rest =>
    if depthLimit ≤ depth then outer
    else outer ++ " Caused by: " ++ formatFrom (depth + 1) (cause :: rest)

/-- A chain, outermost error first, shown as one line. -/
def format (messages : List String) : String := formatFrom 0 messages

end Retrace.ErrorChain
