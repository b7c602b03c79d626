import HostedTests.Console.Basic
import HostedTests.Proofs.Host.Serving
import HostedTests.Proofs.Session.Schedules
import HostedTests.Proofs.Session.Settling

namespace HostedTests

namespace Notice

def printed : Notice → List String
  | discovered tests => Console.testLines tests
  | discoveryComplete d =>
    Console.testLines (d.lastTests.getD []) ++
      [if d.isAborted then "discovery aborted" else toString d.total.toInt ++ " test(s) found"]
  | runChanged c => Console.changeLines c
  | runComplete r =>
    (r.lastChange.map Console.changeLines).getD [] ++
      Console.attachmentLines (r.attachments.getD []) ++
      [if r.runEnd.isAborted then "run aborted: " ++ r.runEnd.error.getD "no reason given"
        else Console.summary (r.runEnd.statistics.getD .empty) r.runEnd.elapsed]
  | _ => []

def consoleEnd? : Notice → Option ConsoleEnd
  | discoveryComplete d => some (if d.isAborted then .aborted else .completed 0)
  | runComplete r =>
    some (if r.runEnd.isAborted then .aborted
      else .completed ((r.runEnd.statistics.getD .empty).count .failed))
  | _ => none

theorem consoleEnd?_ongoing {n : Notice} (h : n.isCompletion = false) : n.consoleEnd? = none := by
  cases n
  case discoveryComplete d => cases h
  case runComplete r => cases h
  all_goals rfl

end Notice

namespace Console

theorem tell_output (c : Console) (n : Notice) : (c.tell n).output = c.output ++ n.printed := by
  cases n with
  | discoveryComplete d =>
    by_cases haborted : d.isAborted = true
    · simp only [tell, tellDiscovery, Notice.printed, if_pos haborted, print, complete,
        List.append_assoc]
    · simp only [tell, tellDiscovery, Notice.printed, if_neg haborted, print, complete,
        List.append_assoc]
  | runComplete r =>
    by_cases haborted : r.runEnd.isAborted = true
    · simp only [tell, tellRun, Notice.printed, if_pos haborted, print, complete,
        List.append_assoc]
    · simp only [tell, tellRun, Notice.printed, if_neg haborted, print, complete,
        List.append_assoc]
  | discovered tests => rfl
  | runChanged c => rfl
  | _ => exact (List.append_nil _).symm

theorem tell_ended (c : Console) (n : Notice) : (c.tell n).ended = c.ended.or n.consoleEnd? := by
  cases n with
  | discoveryComplete d =>
    by_cases haborted : d.isAborted = true
    · simp only [tell, tellDiscovery, Notice.consoleEnd?, if_pos haborted, print, complete]
    · simp only [tell, tellDiscovery, Notice.consoleEnd?, if_neg haborted, print, complete]
  | runComplete r =>
    by_cases haborted : r.runEnd.isAborted = true
    · simp only [tell, tellRun, Notice.consoleEnd?, if_pos haborted, print, complete]
    · simp only [tell, tellRun, Notice.consoleEnd?, if_neg haborted, print, complete]
  | _ => exact Option.or_none.symm

theorem after_spec (notices : List Notice) :
    (after notices).output = notices.flatMap Notice.printed ∧
      (after notices).ended = notices.findSome? Notice.consoleEnd? := by
  have hfold (c : Console) : (notices.foldl tell c).output =
        c.output ++ notices.flatMap Notice.printed ∧
      (notices.foldl tell c).ended = c.ended.or (notices.findSome? Notice.consoleEnd?) := by
    induction notices generalizing c with
    | nil => exact ⟨(List.append_nil _).symm, (Option.or_none).symm⟩
    | cons n notices ih =>
      obtain ⟨houtput, hended⟩ := ih (c.tell n)
      constructor
      · rw [List.foldl_cons, houtput, tell_output, List.flatMap_cons, List.append_assoc]
      · rw [List.foldl_cons, hended, tell_ended, Option.or_assoc, List.findSome?_cons]
        cases n.consoleEnd? <;> rfl
  exact hfold fresh

end Console

namespace Notice

theorem printed_discovering {text : String} {n : Notice}
    (h : OperationKind.discovery.Means text n) (hn : n.isCompletion = false) :
    n.printed = Console.testLines n.tests := by
  cases h with
  | discovered tests => rfl
  | discoveryComplete c => cases hn
  | remark r => rfl

theorem printed_running {text : String} {n : Notice} (h : OperationKind.execution.Means text n)
    (hn : n.isCompletion = false) : n.printed = n.results.flatMap Console.resultLines := by
  cases h with
  | runChanged c => rfl
  | runComplete c => cases hn
  | launchUnderDebugger i => rfl
  | remark r => rfl

end Notice

theorem Conclusive.split {k : OperationKind} {observer : Observer}
    {items : List (String × Notice)} (c : Conclusive k observer items) {n : Notice}
    (hn : n ∈ items.map Prod.snd) (hcompletion : n.isCompletion = true) :
    ∃ ms, items.map Prod.snd = ms ++ [n] ∧ ∀ m ∈ ms, m.isCompletion = false ∧
      ∃ text, k.Means text m := by
  have hlast := c.concludes.getLast? hn hcompletion
  obtain ⟨ms, hms⟩ := List.getLast?_eq_some_iff.mp hlast
  refine ⟨ms, hms, ?_⟩
  intro m hm
  have hdropped := c.concludes.dropLast
  rw [hms, List.dropLast_concat] at hdropped
  have hmem : m ∈ items.map Prod.snd := by
    rw [hms]
    exact List.mem_append_left _ hm
  obtain ⟨i, hi, rfl⟩ := List.mem_map.mp hmem
  exact ⟨hdropped _ hm, i.1, c.means i hi⟩

theorem findSome?_consoleEnd? {ms : List Notice} {n : Notice}
    (hms : ∀ m ∈ ms, m.isCompletion = false) :
    (ms ++ [n]).findSome? Notice.consoleEnd? = n.consoleEnd? := by
  have hnone : ms.findSome? Notice.consoleEnd? = none := by
    rw [List.findSome?_eq_none_iff]
    intro m hm
    exact Notice.consoleEnd?_ongoing (hms m hm)
  rw [List.findSome?_append, hnone, List.findSome?_singleton]
  rfl

namespace Console

theorem after_echoed (items : List (String × Notice)) :
    after (echoed items) = after (items.map Prod.snd) := by
  have hfold (c : Console) : (echoed items).foldl tell c =
      (items.map Prod.snd).foldl tell c := by
    induction items generalizing c with
    | nil => rfl
    | cons i items ih => exact ih (c.tell i.2)
  exact hfold fresh

theorem after_unseen {ns : List Notice} {n : Notice}
    (h : ∀ m ∈ ns, m.printed = [] ∧ m.isCompletion = false) :
    (after (ns ++ [n])).output = n.printed ∧ (after (ns ++ [n])).ended = n.consoleEnd? := by
  obtain ⟨houtput, hended⟩ := after_spec (ns ++ [n])
  have hnothing : ns.flatMap Notice.printed = [] :=
    List.flatMap_eq_nil_iff.mpr fun m hm => (h m hm).1
  rw [houtput, hended, findSome?_consoleEnd? fun m hm => (h m hm).2, List.flatMap_append, hnothing,
    List.nil_append, List.flatMap_singleton]
  exact ⟨rfl, rfl⟩

theorem after_lost (k : OperationKind) {items : List (String × Notice)} (stderr : String)
    (hlogs : ∀ i ∈ items, i.2.kind = .log) :
    let abort := k.abortNotice (k.abortReason (OperationKind.exitCause stderr))
    (after (echoed items ++ k.lossBlock stderr)).output = abort.printed ∧
      (after (echoed items ++ k.lossBlock stderr)).ended = some .aborted := by
  intro abort
  have hechoed : ∀ m ∈ echoed items, m.printed = [] ∧ m.isCompletion = false := by
    intro m hm
    obtain ⟨i, hi, hm⟩ := List.mem_flatMap.mp hm
    rcases List.mem_cons.mp hm with rfl | hm
    · exact ⟨rfl, rfl⟩
    · have hlog := hlogs i hi
      rw [List.mem_singleton.mp hm]
      generalize i.2 = n at hlog
      cases n <;> cases hlog
      exact ⟨rfl, rfl⟩
  have habort : abort.consoleEnd? = some .aborted := by
    cases k <;> rfl
  obtain ⟨before, hblock, hbefore⟩ : ∃ before, k.lossBlock stderr = before ++ [abort] ∧
      ∀ m ∈ before, m.printed = [] ∧ m.isCompletion = false := by
    unfold abort OperationKind.lossBlock OperationKind.exitCause
    by_cases hblank : Text.allBlank stderr = true
    · rw [if_pos hblank, if_pos hblank]
      refine ⟨[_, _, _], rfl, ?_⟩
      simp only [List.forall_mem_cons]
      exact ⟨⟨rfl, rfl⟩, ⟨rfl, rfl⟩, ⟨rfl, rfl⟩, fun _ h => absurd h List.not_mem_nil⟩
    · rw [if_neg hblank, if_neg hblank]
      refine ⟨[_, _], rfl, ?_⟩
      simp only [List.forall_mem_cons]
      exact ⟨⟨rfl, rfl⟩, ⟨rfl, rfl⟩, fun _ h => absurd h List.not_mem_nil⟩
  rw [hblock, ← List.append_assoc, ← habort]
  exact after_unseen (List.forall_mem_append.mpr ⟨hechoed, hbefore⟩)

theorem after_discovery {observer : Observer} {items : List (String × Notice)}
    (c : Conclusive .discovery observer items) {d : DiscoveryCompletion}
    (hd : .discoveryComplete d ∈ items.map Prod.snd) (haborted : d.isAborted = false) :
    (after (echoed items)).output =
        testLines ((items.map Prod.snd).flatMap Notice.tests) ++
          [toString d.total.toInt ++ " test(s) found"] ∧
      (after (echoed items)).ended = some (.completed 0) := by
  obtain ⟨ms, hns, hms⟩ := c.split hd rfl
  obtain ⟨houtput, hended⟩ := after_spec (items.map Prod.snd)
  have hbefore : ms.flatMap Notice.printed = testLines (ms.flatMap Notice.tests) := by
    rw [testLines, List.map_flatMap]
    apply List.flatMap_congr
    intro m hm
    obtain ⟨hongoing, text, hmeans⟩ := hms m hm
    exact Notice.printed_discovering hmeans hongoing
  rw [after_echoed, houtput, hended, hns, findSome?_consoleEnd? fun m hm => (hms m hm).1]
  simp only [List.flatMap_append, hbefore, List.flatMap_singleton, Notice.printed,
    Notice.consoleEnd?, haborted, Bool.false_eq_true, if_false, Notice.tests, testLines,
    List.map_append, List.append_assoc, and_self]

theorem flatMap_resultLines_truncated (results : List TestResult) :
    (results.map TestResult.truncated).flatMap resultLines = results.flatMap resultLines :=
  List.flatMap_map TestResult.truncated resultLines results

theorem after_run {observer : Observer} {items : List (String × Notice)}
    (c : Conclusive .execution observer items) {results last : List TestResult}
    {elapsed : Clock.TimeSpan}
    (hresults : (items.map Prod.snd).flatMap Notice.results = results.map TestResult.truncated)
    (hlast : .runComplete (ReferenceHost.finalReport elapsed results last) ∈
      items.map Prod.snd) :
    let statistics := RunStatistics.ofResults results
    (after (echoed items)).output =
        results.flatMap resultLines ++ [summary statistics elapsed.truncated] ∧
      (after (echoed items)).ended = some (.completed (statistics.count .failed)) := by
  intro statistics
  let report := ReferenceHost.finalReport elapsed results last
  obtain ⟨ms, hns, hms⟩ := c.split hlast rfl
  obtain ⟨houtput, hended⟩ := after_spec (items.map Prod.snd)
  have hbefore : ms.flatMap Notice.printed =
      (ms.flatMap Notice.results).flatMap resultLines := by
    rw [List.flatMap_assoc]
    apply List.flatMap_congr
    intro m hm
    obtain ⟨hongoing, text, hmeans⟩ := hms m hm
    exact Notice.printed_running hmeans hongoing
  have hprinted : (Notice.runComplete report).printed =
      (Notice.runComplete report).results.flatMap resultLines ++
        [summary statistics elapsed.truncated] :=
    congrArg (· ++ [summary statistics elapsed.truncated]) (List.append_nil _)
  rw [hns, List.flatMap_append, List.flatMap_singleton] at hresults
  rw [after_echoed, houtput, hended, hns, findSome?_consoleEnd? fun m hm => (hms m hm).1]
  constructor
  · rw [List.flatMap_append, hbefore, List.flatMap_singleton, hprinted, ← List.append_assoc,
      ← List.flatMap_append, hresults, flatMap_resultLines_truncated]
  · rfl

theorem text_ofNat {n : Nat} (h : n < 2 ^ 63) : toString (Int64.ofNat n) = toString n :=
  congrArg toString (Int64.toInt_ofNat_of_lt h)

def tally (outcomes : List Outcome) (elapsed : Clock.TimeSpan) : String :=
  s!"{outcomes.length} executed, {outcomes.count .passed} passed, " ++
    s!"{outcomes.count .failed} failed, {outcomes.count .skipped} skipped in " ++
    secondsText elapsed ++ "s"

theorem count_outcomes (results : List TestResult) (o : Outcome) :
    (RunStatistics.ofResults results).count o =
      Int64.ofNat ((results.map TestResult.outcome).count o) := by
  rw [RunStatistics.count_ofResults, List.count, List.countP_map]
  congr 2

theorem summary_ofResults {results : List TestResult} (h : results.length < 2 ^ 63)
    (elapsed : Clock.TimeSpan) :
    summary (.ofResults results) elapsed = tally (results.map TestResult.outcome) elapsed := by
  have hcount (o : Outcome) :
      toString ((RunStatistics.ofResults results).count o) =
        toString ((results.map TestResult.outcome).count o) := by
    rw [count_outcomes]
    apply text_ofNat
    have hle := List.count_le_length (a := o) (l := results.map TestResult.outcome)
    rw [List.length_map] at hle
    omega
  simp only [summary, tally, hcount, RunStatistics.executed_ofResults, text_ofNat h,
    List.length_map, String.append_assoc]

theorem exitCode_ofResults {results : List TestResult} (h : results.length < 2 ^ 63) :
    (ConsoleEnd.completed ((RunStatistics.ofResults results).count .failed)).exitCode =
      if .failed ∈ results.map TestResult.outcome then 3 else 0 := by
  let outcomes := results.map TestResult.outcome
  have hle : outcomes.count .failed < 2 ^ 63 := by
    have hlength := List.count_le_length (a := Outcome.failed) (l := outcomes)
    rw [List.length_map] at hlength
    omega
  have hzero : Int64.ofNat (outcomes.count .failed) = 0 ↔ .failed ∉ outcomes := by
    rw [← List.count_eq_zero, ← Int64.toInt_inj, Int64.toInt_ofNat_of_lt hle]
    exact Int.natCast_eq_zero
  rw [count_outcomes, ConsoleEnd.exitCode]
  by_cases hfailed : .failed ∈ outcomes
  · rw [if_neg (mt hzero.mp (not_not_intro hfailed)), if_pos hfailed]
  · rw [if_pos (hzero.mpr hfailed), if_neg hfailed]

end Console

end HostedTests
