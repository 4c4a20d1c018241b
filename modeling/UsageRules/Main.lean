import Std.Time.DateTime.PlainDateTime
import Std.Time.DateTime.Timestamp
import UsageRules.CommandLine.Command

/-! The program: its commands on the files and the clock of the machine, with its own arguments and
outputs. -/

namespace UsageRules

/-! ## The machine as a host -/

/-- The error that a failed operation of the machine means. -/
def FileError.ofMachine : IO.Error → FileError
  | .noFileOrDirectory .. => .notFound
  | .alreadyExists .. => .alreadyExists
  | .inappropriateType _ 20 _ => .notADirectory
  | .inappropriateType _ 21 _ => .isADirectory
  | .otherError code details => describe code details
  | .permissionDenied _ code details => describe code details
  | .invalidArgument _ 36 _ => .nameTooLong
  | .invalidArgument _ code details => describe code details
  | .resourceExhausted _ code details => describe code details
  | e => .other e.toString
where
  describe (code : UInt32) (details : String) : FileError :=
    .other (details ++ " (os error " ++ String.ofList (Numeral.natural code.toNat) ++ ")")

/-- An operation of the machine, with its failure as a value. -/
def onMachine {α : Type} (x : IO α) : IO (Except FileError α) := do
  match ← x.toBaseIO with
  | .ok a => return .ok a
  | .error e => return .error (.ofMachine e)

/-- The last decimal digits of a number, as many as there are places. -/
def fixedDigits (places : Nat) (n : Int) : String :=
  String.ofList ((Numeral.lastDigits places n.toNat).map Numeral.digitChar)

/-- A moment as date and time of day, in universal time and to the nanosecond. -/
def timeText (t : Std.Time.Timestamp) : String :=
  let moment := Std.Time.PlainDateTime.ofWallTime (.ofDuration t.toDurationSinceUnixEpoch)
  let date := moment.date
  let time := moment.time
  fixedDigits 4 date.year ++ "-" ++ fixedDigits 2 date.month.val ++ "-" ++
    fixedDigits 2 date.day.val ++ "T" ++ fixedDigits 2 time.hour.val ++ ":" ++
    fixedDigits 2 time.minute.val ++ ":" ++ fixedDigits 2 time.second.val ++ "." ++
    fixedDigits 9 time.nanosecond.val ++ "Z"

instance : FileHost IO where
  readBytes path := onMachine (IO.FS.readBinFile path)
  writeBytes path bytes := onMachine (IO.FS.writeBinFile path bytes)
  makeDirectory path := onMachine (IO.FS.createDir path)
  list path := onMachine do
    return (← ((← IO.currentDir) / path).readDir).toList.map (·.fileName)
  pathExists path := do ((← IO.currentDir) / path).pathExists
  isDirectory path := do ((← IO.currentDir) / path).isDir
  timeStamp := return timeText (← Std.Time.Timestamp.now)

/-- Colours can be forced or forbidden; else they are for terminals. -/
def wantsColours : IO Bool := do
  if ((← IO.getEnv "CLICOLOR_FORCE").getD "0") ≠ "0" then return true
  if (← IO.getEnv "NO_COLOR").isSome || (← IO.getEnv "CLICOLOR") = some "0" then return false
  (← IO.getStdout).isTty

end UsageRules

def main (args : List String) : IO UInt32 := do
  let outcome ← UsageRules.CommandLine.run (← UsageRules.wantsColours) args
  IO.print outcome.out
  IO.eprint outcome.err
  return outcome.exitCode.toUInt32
