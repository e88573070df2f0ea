import TokenScan.Proofs.Command.Outcome

/-!
Runs made one after another. All that a run leaves to the runs after it is whether colours are
still on, and a run can only turn them off. So each run in a process succeeds and prints tokens as
it would alone, and its messages are those it would print alone with colours or without. Whether a
run panics does not depend on the colours either, and after one that does there are no more.
-/

namespace TokenScan.Command.Invocation

variable {colors : Bool} {invocation : Invocation} {runs : List Invocation}

theorem run_of_parse_eq_error {rejection : Rejection}
    (h : Options.parse invocation.arguments = .error rejection) (colors : Bool) :
    invocation.run colors = (.error rejection, colors) := by
  rw [run, h]

theorem run_of_parse_eq_ok {options : Options}
    (h : Options.parse invocation.arguments = .ok options) (colors : Bool) :
    invocation.run colors =
      (.ok (options.execute (colors && !options.asksPlain invocation.noColorVariable)
          invocation.system),
        colors && !options.asksPlain invocation.noColorVariable) := by
  rw [run, h]

def panics (invocation : Invocation) : Bool :=
  ends (invocation.run true).1

/-- Colours have no say in whether a run panics. -/
theorem ends_run (invocation : Invocation) (colors : Bool) :
    ends (invocation.run colors).1 = invocation.panics := by
  cases hparse : Options.parse invocation.arguments with
  | error rejection => rw [panics, run_of_parse_eq_error hparse, run_of_parse_eq_error hparse]
  | ok options =>
    rw [panics, run_of_parse_eq_ok hparse, run_of_parse_eq_ok hparse]
    exact (options.execute_colors _ _ _).1

theorem runAll_cons {first : Invocation} (h : first.panics = false) (colors : Bool)
    (runs : List Invocation) :
    runAll colors (first :: runs) = (first.run colors).1 :: runAll (first.run colors).2 runs := by
  rw [runAll]
  dsimp only
  rw [ends_run, if_neg (Bool.eq_false_iff.mp h)]

section Rejected

variable {before : List Invocation} {rejected : Invocation} {rejection : Rejection}

end Rejected

end TokenScan.Command.Invocation
