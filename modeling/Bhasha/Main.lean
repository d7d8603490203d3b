import Bhasha.CommandLine.Run

/-! The command itself: reading, printing and the exit status. -/

namespace Bhasha.CommandLine

/-- Some calls report the code of an error with its sign turned around. -/
def isCode (reported code : UInt32) : Bool := reported = code || reported = 0 - code

def readErrorOf : IO.Error → ReadError
  | .noFileOrDirectory .. => .notFound
  | e@(.inappropriateType _ code _) =>
    if isCode code 20 then .notDirectory
    else if isCode code 21 then .isDirectory
    else .other (toString e)
  | e => .other (toString e)

def readScript (path : String) : IO (Except ReadError String) := do
  try
    match String.fromUTF8? (← IO.FS.readBinFile path) with
    | some source => return .ok source
    | none => return .error .notText
  catch e =>
    return .error (readErrorOf e)

end Bhasha.CommandLine

def main (args : List String) : IO UInt32 := do
  match ← Bhasha.CommandLine.run Bhasha.CommandLine.readScript Bhasha.ample args with
  | none => return 70
  | some outcome =>
    for e in outcome.events do
      IO.eprintln e.line
    IO.print outcome.stdout
    (← IO.getStdout).flush
    IO.eprint outcome.stderr
    return outcome.status.toUInt32
