import MachineTuning.Command.Run
import Std.Time

namespace MachineTuning

/-!
# The program

`main` reads the files that the command line names, hands them to `Command.outcome` and writes what
comes out.  Nothing is decided here.
-/

/-! ### Reading files -/

/-- Whether an error code stands for an error number: it is the number or its negative. -/
def hasNumber (number code : UInt32) : Bool :=
  code = number || code = 0 - number

/-- The error of a failed read. -/
def SystemError.ofRead (e : IO.Error) : SystemError :=
  match e with
  | .noFileOrDirectory _ _ _ => .notFound
  | .inappropriateType _ code _ => if hasNumber 20 code then .notADirectory else .isADirectory
  | .invalidArgument _ code _ => if hasNumber 36 code then .nameTooLong else ⟨.other, toString e⟩
  | .permissionDenied _ _ _ => ⟨.permissionDenied, "Permission denied (os error 13)"⟩
  | _ => ⟨.other, toString e⟩

/-- The bytes of the file at a path, or why they cannot be read. -/
def readPath (path : String) : IO (Except SystemError (List UInt8)) := do
  if path.toList.contains '\x00' then return .error .nulInName
  try
    return .ok (← IO.FS.readBinFile path).data.toList
  catch e => return .error (.ofRead e)

/-- The file system in which only the given paths have been looked at. -/
def FileSystem.ofReads (reads : List (String × Except SystemError (List UInt8))) : FileSystem :=
  fun path => (reads.lookup path).getD (.error .notFound)

/-! ### Writing -/

/-- The time as log lines show it. -/
def timeStamp (time : Std.Time.Timestamp) : String :=
  (Std.Time.PlainDateTime.ofWallTime (time.toWallTime .zero)).format
    "uuuu-MM-dd'T'HH:mm:ss.SSSSSS" ++ "Z"

/-- The line of a log event behind the time, levels aligned on the right. -/
def logLine (time : Std.Time.Timestamp) (e : Command.LogEvent) : String :=
  let padding := if e.level.name.length < 5 then "  " else " "
  timeStamp time ++ padding ++ e.line

/-- What is said of a profile that is no document, as its reader does not say more. -/
def complaint : String := "not a well-formed document"

/-- Runs the program on the words behind its name. -/
def run (words : List String) : IO UInt32 := do
  let assetSetting ← IO.getEnv Command.assetVariable
  let logSetting ← IO.getEnv Command.logVariable
  let reads ← (Command.pathsRead assetSetting words).mapM fun path =>
    return (path, ← readPath path)
  let outcome := Command.outcome (.ofReads reads) assetSetting logSetting words
  let err ← IO.getStderr
  let time ← Std.Time.Timestamp.now
  for e in outcome.events do err.putStr (logLine time e)
  let out ← IO.getStdout
  out.putStr outcome.stdout
  out.flush
  err.putStr (outcome.stderr complaint)
  return outcome.code

end MachineTuning

/-- The program. -/
def main (words : List String) : IO UInt32 :=
  MachineTuning.run words
