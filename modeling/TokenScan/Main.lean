import TokenScan.Command.Run

/-!
The command line program. It reads the arguments, the environment and the source, and prints what
a run leaves behind; all that is decided in between is decided by `Command.Options`.
-/

namespace TokenScan.Command

def usageLines : List String :=
  ["Scans a source file and prints one token per line.", "",
    "Usage: tokenscan [OPTIONS] [FILE]", "",
    "FILE is the file to scan. Standard input is read when it is omitted.", "",
    "Options:",
    "  --grammar GRAMMAR    the token grammar, full or arithmetic",
    "  --keywords POLICY    how keywords are recognized, single-character or whole-word",
    "  --locations          prefixes every token with its line:column",
    "  --no-color           disables the colors of diagnostics",
    "  --deny-warnings      fails when a warning is reported",
    "  -h, --help           prints this help"]

def usage : String :=
  String.join (usageLines.map fun line => line ++ "\n")

def Rejection.message : Rejection → String
  | helpRequested => usage
  | unknownArgument => "an argument was not expected\n\n" ++ usage
  | missingValue => "a value is required\n\n" ++ usage
  | unknownName => "a value is none of those possible\n\n" ++ usage
  | unexpectedValue => "a flag takes no value\n\n" ++ usage
  | repeated => "an option cannot be used more than once\n\n" ++ usage

/-- The error behind a failure. The runtime refuses some paths before the system sees them. -/
def systemError (failure : IO.Error) : SystemError :=
  let numbered (explanation : String) (code : Nat) : SystemError :=
    ⟨s!"{explanation} (os error {code})"⟩
  match failure with
  | .noFileOrDirectory .. => numbered "No such file or directory" 2
  | .permissionDenied .. => numbered "Permission denied" 13
  | .inappropriateType none .. => numbered "No such device" 19
  | .inappropriateType (some _) .. => numbered "Not a directory" 20
  | .invalidArgument (some _) .. => numbered "File name too long" 36
  | failure => ⟨toString failure⟩

partial def readStream (stream : IO.FS.Stream) (read : ByteArray) : IO ByteArray := do
  let chunk ← stream.read 65536
  if chunk.isEmpty then return read else readStream stream (read ++ chunk)

def readInput : IO (Except SystemError (List UInt8)) := do
  try
    let bytes ← readStream (← IO.getStdin) ByteArray.empty
    return .ok bytes.toList
  catch failure =>
    return .error (systemError failure)

def readFile (path : String) : IO (Except SystemError File) := do
  try
    let bytes ← IO.FS.readBinFile path
    return .ok (File.ofBytes bytes.toList)
  catch failure =>
    return .error (systemError failure)

/-- The system as far as a run with the options looks at it. -/
def Options.system (options : Options) : IO System := do
  let unread : SystemError := ⟨"not read"⟩
  match options.file with
  | none =>
      let standardInput ← readInput
      return { openFile := fun _ => .error unread, standardInput }
  | some path =>
      let file ← readFile path
      return { openFile := fun _ => file, standardInput := .error unread }

end TokenScan.Command

open TokenScan.Command in
/-- Runs the program. The exit status is zero on success, one if the run failed, two if the
arguments are rejected, and 101 after a panic. -/
def main (arguments : List String) : IO UInt32 := do
  match Options.parse arguments with
  | .error .helpRequested =>
      IO.print usage
      return 0
  | .error rejection =>
      IO.eprint rejection.message
      return 2
  | .ok options =>
      let plain := options.asksPlain (← IO.getEnv "NO_COLOR")
      let outcome := options.execute (!plain) (← options.system)
      IO.eprint outcome.stderr
      IO.print outcome.stdout
      if outcome.panicked then return 101
      return if outcome.success then 0 else 1
