namespace HostedTests

inductive OperationKind where
  | discovery
  | execution
  deriving DecidableEq, Repr

def OperationKind.name : OperationKind → String
  | discovery => "discovery"
  | execution => "execution"

structure OperationState where
  kind : OperationKind
  completed : Bool
  deriving DecidableEq, Repr

namespace OperationState

def fresh (kind : OperationKind) : OperationState := ⟨kind, false⟩

def tryComplete (s : OperationState) : Bool × OperationState :=
  (!s.completed, { s with completed := true })

@[simp] theorem completed_tryComplete (s : OperationState) : s.tryComplete.2.completed = true := rfl

theorem tryComplete_again (s : OperationState) : s.tryComplete.2.tryComplete.1 = false := rfl

end OperationState

end HostedTests
