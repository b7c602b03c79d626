namespace HostedTests

inductive Severity where
  | informational
  | warning
  | error
  deriving DecidableEq, Repr

namespace Severity

def name : Severity → String
  | informational => "Informational"
  | warning => "Warning"
  | error => "Error"

def all : List Severity := [informational, warning, error]

end Severity

inductive Outcome where
  | none
  | passed
  | failed
  | skipped
  | notFound
  deriving DecidableEq, Repr

namespace Outcome

def name : Outcome → String
  | none => "None"
  | passed => "Passed"
  | failed => "Failed"
  | skipped => "Skipped"
  | notFound => "NotFound"

def all : List Outcome := [none, passed, failed, skipped, notFound]

end Outcome

structure Tally where
  none : Option Int64
  passed : Option Int64
  failed : Option Int64
  skipped : Option Int64
  notFound : Option Int64
  deriving DecidableEq

namespace Tally

def empty : Tally := ⟨.none, .none, .none, .none, .none⟩

def get? (t : Tally) : Outcome → Option Int64
  | .none => t.none
  | .passed => t.passed
  | .failed => t.failed
  | .skipped => t.skipped
  | .notFound => t.notFound

def set (t : Tally) (o : Outcome) (n : Int64) : Tally :=
  match o with
  | .none => { t with none := some n }
  | .passed => { t with passed := some n }
  | .failed => { t with failed := some n }
  | .skipped => { t with skipped := some n }
  | .notFound => { t with notFound := some n }

def count (t : Tally) (o : Outcome) : Int64 := (t.get? o).getD 0

def add (t : Tally) (o : Outcome) : Tally := t.set o (t.count o + 1)

def entries (t : Tally) : List (Outcome × Int64) :=
  Outcome.all.filterMap fun o => (t.get? o).map fun n => (o, n)

@[simp] theorem get?_empty (o : Outcome) : empty.get? o = .none := by cases o <;> rfl

@[simp] theorem get?_set (t : Tally) (o p : Outcome) (n : Int64) :
    (t.set o n).get? p = if p = o then some n else t.get? p := by
  cases o <;> cases p <;> rfl

theorem count_add (t : Tally) (o p : Outcome) :
    (t.add o).count p = if p = o then t.count o + 1 else t.count p := by
  by_cases h : p = o <;> simp [add, count, h]

end Tally

end HostedTests
