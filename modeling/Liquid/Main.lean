import Liquid.CommandLine

/-! The program: reads the file that the arguments name, and writes what they ask for. -/

namespace Liquid
namespace CommandLine

/-- The number of an error of the file system, which may be given negated. -/
def errorNumber (code : UInt32) : UInt32 :=
  if code < 0x80000000 then code else 0 - code

/-- The failure behind an error of the file system. -/
def ReadFailure.ofIO : IO.Error → ReadFailure
  | .noFileOrDirectory .. => .missing
  | .permissionDenied .. => .denied
  | .inappropriateType _ code _ => if errorNumber code == 20 then .notDirectory else .directory
  | e@(.invalidArgument _ code _) =>
    if errorNumber code == 36 then .nameTooLong else .other (toString e)
  | e => .other (toString e)

def readFile (path : String) : IO (Except ReadFailure (List UInt8)) := do
  try
    return .ok (← IO.FS.readBinFile path).toList
  catch e => return .error (.ofIO e)

end CommandLine
end Liquid

def main (args : List String) : IO UInt32 := do
  let outcome ← (Liquid.CommandLine.Invocation.ofArgs args).run Liquid.CommandLine.readFile
  (← IO.getStdout).putStr outcome.stdout
  (← IO.getStderr).putStr outcome.stderr
  return outcome.status.toUInt32
