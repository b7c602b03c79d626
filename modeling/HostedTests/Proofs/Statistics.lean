import HostedTests.Payload.TestCase
import Mathlib.Algebra.Ring.Nat

namespace HostedTests.RunStatistics

theorem count_foldl_add (results : List TestResult) (s : RunStatistics) (o : Outcome) :
    (results.foldl add s).count o =
      s.count o + Int64.ofNat (results.countP fun r => r.outcome = o) := by
  induction results generalizing s with
  | nil => exact (Int64.add_zero _).symm
  | cons r rest ih =>
    have hcount : (s.add r).count o =
        s.count o + Int64.ofNat (if r.outcome = o then 1 else 0) := by
      change (s.tally.add r.outcome).count o = s.tally.count o + _
      rw [Tally.count_add]
      by_cases ho : r.outcome = o
      · rw [if_pos ho.symm, if_pos ho, ho]
        rfl
      · rw [if_neg (Ne.symm ho), if_neg ho]
        exact (Int64.add_zero _).symm
    rw [List.foldl_cons, ih, hcount, List.countP_cons, Nat.add_comm, Int64.ofNat_add,
      Int64.add_assoc]
    simp only [decide_eq_true_eq]

theorem executed_foldl_add (results : List TestResult) (s : RunStatistics) :
    (results.foldl add s).executed = s.executed + Int64.ofNat results.length := by
  induction results generalizing s with
  | nil => exact (Int64.add_zero _).symm
  | cons r rest ih =>
    rw [List.foldl_cons, ih, List.length_cons, Nat.add_comm, Int64.ofNat_add, ← Int64.add_assoc]
    rfl

theorem count_ofResults (results : List TestResult) (o : Outcome) :
    (ofResults results).count o = Int64.ofNat (results.countP fun r => r.outcome = o) := by
  have hempty : empty.count o = 0 := by cases o <;> rfl
  rw [ofResults, count_foldl_add, hempty, Int64.zero_add]

theorem executed_ofResults (results : List TestResult) :
    (ofResults results).executed = Int64.ofNat results.length := by
  rw [ofResults, executed_foldl_add]
  exact Int64.zero_add _

theorem sum_countP_outcome (results : List TestResult) :
    (Outcome.all.map fun o => results.countP fun r => r.outcome = o).sum = results.length := by
  induction results with
  | nil => rfl
  | cons r rest ih =>
    simp only [Outcome.all, List.map_cons, List.map_nil, List.sum_cons, List.sum_nil,
      List.countP_cons, List.length_cons, decide_eq_true_eq] at ih ⊢
    cases r.outcome <;> simp only [reduceCtorEq, if_true, if_false] <;> omega

theorem sum_ofNat (counts : List Nat) :
    (counts.map Int64.ofNat).sum = Int64.ofNat counts.sum := by
  induction counts with
  | nil => rfl
  | cons n counts ih =>
    rw [List.map_cons, List.sum_cons, ih, List.sum_cons, Int64.ofNat_add]

/-- The statistics count the results, in numbers of 64 bits. An outcome that is not counted counts
as none. -/
structure Tallies (s : RunStatistics) (results : List TestResult) : Prop where
  executed : s.executed = Int64.ofNat results.length
  counts : ∀ o, s.count o = Int64.ofNat (results.countP fun r => r.outcome = o)
  total : (Outcome.all.map s.count).sum = s.executed

theorem tallies_ofResults (results : List TestResult) : (ofResults results).Tallies results where
  executed := executed_ofResults results
  counts := count_ofResults results
  total := by
    have hcounts : Outcome.all.map (ofResults results).count =
        (Outcome.all.map fun o => results.countP fun r => r.outcome = o).map Int64.ofNat := by
      rw [List.map_map]
      exact List.map_congr_left fun o _ => count_ofResults results o
    rw [hcounts, sum_ofNat, sum_countP_outcome, executed_ofResults]

end HostedTests.RunStatistics
