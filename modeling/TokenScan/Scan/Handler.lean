import TokenScan.Diagnostic.Basic

/-!
Handlers of reports. A scan does not keep its diagnostics; it hands each one to a handler as soon
as it is found, and the handler decides what becomes of it.
-/

namespace TokenScan

structure Handler (Held : Type) where
  receive : Held → Report → Held

namespace Handler

/-- Keeps every report, the latest one last. -/
def store : Handler (Array Report) where
  receive held report := held.push report

def discard {Held : Type} : Handler Held where
  receive held _ := held

def receiveAll {Held : Type} (handler : Handler Held) (held : Held) (reports : List Report) :
    Held :=
  reports.foldl handler.receive held

theorem receiveAll_append {Held : Type} (handler : Handler Held) (held : Held)
    (first second : List Report) :
    handler.receiveAll held (first ++ second) =
      handler.receiveAll (handler.receiveAll held first) second := by
  simp [receiveAll]

end Handler

end TokenScan
