import DialogueTyping.CommandLine.Basic

set_option autoImplicit false

namespace DialogueTyping.CommandLine

/-- Why a file could not be read, as the system says it. Its codes come with either sign. -/
def ReadFault.ofError : IO.Error → ReadFault
  | .noFileOrDirectory .. => notFound
  | .inappropriateType _ code details =>
    if code = 20 || 0 - code = 20 then notDirectory
    else if code = 21 || 0 - code = 21 then isDirectory
    else other details
  | .permissionDenied .. => other "Permission denied (os error 13)"
  | fault => other (toString fault)

def readText (path : String) : IO (Except ReadFault String) := do
  try
    let bytes ← IO.FS.readBinFile path
    return match String.fromUTF8? bytes with
      | some text => .ok text
      | none => .error .invalidText
  catch fault => return .error (.ofError fault)

def execute (arguments : List String) : IO UInt32 := do
  let outcome ← match Invocation.ofArguments? arguments with
    | none => pure misused
    | some invocation =>
      let declarations ← readText invocation.declarationsPath
      let expressions ← readText invocation.expressionsPath
      pure (invocation.run declarations expressions)
  (← IO.getStdout).putStr outcome.output
  (← IO.getStderr).putStr outcome.errors
  return outcome.exitCode

end DialogueTyping.CommandLine

def main (arguments : List String) : IO UInt32 :=
  DialogueTyping.CommandLine.execute arguments
