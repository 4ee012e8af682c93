import OptionAtlas.Program

/-!
# The program as an executable

Files are those of the system. The answer goes to standard output; the log and the
complaint go to standard error. A complaint makes the program end with code 1, and a
command line that is not used as it should be with code 2.
-/

namespace OptionAtlas

/-- The fault with a number; the text is for numbers without a fault of their own. -/
def FileFault.ofCode (code : UInt32) (reason : String) : FileFault :=
  if code = 2 then .absent
  else if code = 17 then .occupied
  else if code = 20 then .notAFolder
  else if code = 21 then .aFolder
  else if code = 28 then .full
  else if code = 36 then .nameTooLong
  else .other code.toNat reason

/-- The fault of an operation that failed. -/
def FileFault.ofError : IO.Error → FileFault
  | .alreadyExists _ code reason
  | .otherError code reason
  | .resourceBusy code reason
  | .resourceVanished code reason
  | .unsupportedOperation code reason
  | .hardwareFault code reason
  | .unsatisfiedConstraints code reason
  | .illegalOperation code reason
  | .protocolError code reason
  | .timeExpired code reason
  | .interrupted _ code reason
  | .noFileOrDirectory _ code reason
  | .invalidArgument _ code reason
  | .permissionDenied _ code reason
  | .resourceExhausted _ code reason
  | .inappropriateType _ code reason
  | .noSuchThing _ code reason => .ofCode code reason
  | .unexpectedEof => .other 0 "unexpected end of file"
  | .userError reason => .other 0 reason

/-- Runs an operation and returns its fault as a value. -/
def attempt {α : Type} (act : IO α) : IO (Except FileFault α) := do
  try return .ok (← act)
  catch e => return .error (.ofError e)

instance : Disk IO where
  read path := do
    match ← attempt (IO.FS.Handle.mk path .read) with
    | .error e => return .error e
    | .ok file =>
      match ← attempt file.readBinToEnd with
      | .ok bytes => return .ok (some bytes)
      | .error _ => return .ok none
  create path := attempt (discard (IO.FS.Handle.mk path .write))
  fill path text := attempt do
    let file ← IO.FS.Handle.mk path .write
    file.putStr text
    file.flush
  makeFolder path := attempt (IO.FS.createDir path)
  isFolder path := do
    match ← attempt (IO.FS.Handle.mk (path ++ "/.") .read) with
    | .ok _ => return true
    | .error _ => return false

/-- What is said when the command line is not used as it should be. -/
def usage : String :=
  "usage: option-atlas [--table TABLE] [-v]... catalogs|show|resolve|check|export [OPTIONS]"

end OptionAtlas

open OptionAtlas in
/-- Answers the request of the command line. -/
def main (args : List String) : IO UInt32 := do
  match Invocation.ofArguments args with
  | none =>
    IO.eprintln usage
    return 2
  | some invocation =>
    let answer ← invocation.answer (m := IO)
    for entry in answer.log do
      IO.eprintln entry.line
    IO.print answer.output
    match answer.complaint with
    | none => return 0
    | some complaint =>
      IO.eprintln ("error: " ++ complaint)
      return 1
