import Mustache.Program.Run

/-! The program's command line. -/
namespace Mustache.Program

/-- The error of a number that the system gives to it, positive or negated. -/
def ReadError.ofNumber (number : UInt32) (details : String) : ReadError :=
  let n := if number.toNat < 0x80000000 then number.toNat else 0x100000000 - number.toNat
  match n with
  | 2 => .missing
  | 13 => .denied
  | 20 => .notDirectory
  | 21 => .isDirectory
  | 36 => .nameTooLong
  | _ => .failed s!"{details} (os error {n})".toList

/-- The error of the file system. -/
def ReadError.ofSystem : IO.Error → ReadError
  | .noFileOrDirectory .. => .missing
  | .permissionDenied .. => .denied
  | .inappropriateType _ number details => .ofNumber number details
  | .invalidArgument _ number details => .ofNumber number details
  | .otherError number details => .ofNumber number details
  | e => .failed (toString e).toList

/-- Read the bytes of a template from the file system. -/
def readBytes (path : Text) : IO (Except ReadError (List UInt8)) := do
  match ← (IO.FS.readBinFile (String.ofList path)).toBaseIO with
  | .ok bytes => return .ok bytes.toList
  | .error e => return .error (.ofSystem e)

/-- Run the program on the arguments and files of the system. -/
def runOnSystem (args : List String) : IO UInt32 := do
  let arguments := args.map String.toList
  let filter := (← IO.getEnv "RUST_LOG").bind fun value => LogFilter.ofText? value.toList
  let content ← match (Request.ofArguments arguments).path? with
    | some path => readBytes path
    | none => pure (.error .missing)
  let outcome := run filter (readText fun _ => content) arguments
  IO.eprint (String.ofList outcome.stderr)
  IO.print (String.ofList outcome.stdout)
  return UInt32.ofNat outcome.status

end Mustache.Program

/-- The entry point. -/
def main (args : List String) : IO UInt32 := Mustache.Program.runOnSystem args
