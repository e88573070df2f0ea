import TokenScan.Command.Options
import TokenScan.Diagnostic.Report
import TokenScan.Scan.Basic
import TokenScan.Source.Loading
import TokenScan.Token.Listing

/-!
Runs of the command. A run reads one source, prints its reports as they are found, and prints the
tokens once the scan is complete. It fails when the source cannot be read, when the scan stops, and
when there is a warning that the options deny. A report that cannot be printed ends the run with a
panic, and the process with it. Until then, runs made one after another share nothing but the choice
of colours, which no run turns on again.
-/

namespace TokenScan.Command

open Printed Styled Text

/-- What a run uses of the operating system. Standard input is read to its end. -/
structure System where
  openFile : String → Except SystemError File
  standardInput : Except SystemError (List UInt8)

def Options.load (options : Options) (system : System) : Except LoadError Source :=
  match options.file with
  | none => Source.read "<stdin>" system.standardInput
  | some path =>
      match system.openFile path with
      | .error error => .error (.system error)
      | .ok file => Source.load path file

structure Printer where
  printed : Printed := {}
  errors : Nat := 0
  warnings : Nat := 0

namespace Printer

/-- Prints a report, a line apart from the next, and counts it. -/
def print (printer : Printer) (report : Report) : Printer :=
  let printed := printer.printed.andThen (report.printed.andThen (write (text "\n")))
  if printed.panicked then { printer with printed }
  else
    match report.diagnostic.severity with
    | .error => { printer with printed, errors := printer.errors + 1 }
    | .warning => { printer with printed, warnings := printer.warnings + 1 }

def handler : Handler Printer where
  receive := print

end Printer

/-- What a run leaves behind. A run that panicked has left what it had printed until then, beside
the words that the runtime adds about the panic. -/
structure Outcome where
  success : Bool
  stdout : String
  stderr : String
  panicked : Bool := false
deriving Repr, DecidableEq

def Options.execute (options : Options) (colors : Bool) (system : System) : Outcome :=
  match options.load system with
  | .error error =>
      let name := options.file.getD "<stdin>"
      let message := Severity.error.message (name ++ ": " ++ error.message)
      { success := false, stdout := "", stderr := message.render colors ++ "\n" }
  | .ok source =>
      let (result, printer) := tokenize options.configuration Printer.handler source {}
      let stderr := printer.printed.render colors
      if printer.printed.panicked then { success := false, stdout := "", stderr, panicked := true }
      else
        match result with
        | .error _ => { success := false, stdout := "", stderr }
        | .ok tokens =>
            { success :=
                printer.errors = 0 && !(options.denyWarnings && decide (0 < printer.warnings))
              stdout := Token.listing source options.locations tokens
              stderr }

/-- Whether the options or the environment ask for output without colours, given the value of the
variable `NO_COLOR` if there is one. Any value asks for it, the empty one as well. -/
def Options.asksPlain (options : Options) (noColorVariable : Option String) : Bool :=
  options.noColor || noColorVariable.isSome

structure Invocation where
  arguments : List String
  system : System
  /-- The value of the variable `NO_COLOR` in the environment, if it is set. -/
  noColorVariable : Option String := none

namespace Invocation

/-- Makes the run. The result has its outcome, unless the arguments are rejected, and whether
colours are still on. -/
def run (invocation : Invocation) (colors : Bool) : Except Rejection Outcome × Bool :=
  match Options.parse invocation.arguments with
  | .error rejection => (.error rejection, colors)
  | .ok options =>
      let colors := colors && !options.asksPlain invocation.noColorVariable
      (.ok (options.execute colors invocation.system), colors)

def ends : Except Rejection Outcome → Bool
  | .error _ => false
  | .ok outcome => outcome.panicked

/-- Makes runs in order, up to the first that ends the process. -/
def runAll (colors : Bool) : List Invocation → List (Except Rejection Outcome)
  | [] => []
  | invocation :: rest =>
      let (result, remaining) := invocation.run colors
      result :: if ends result then [] else runAll remaining rest

end Invocation

end TokenScan.Command
