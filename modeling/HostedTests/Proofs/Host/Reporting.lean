import HostedTests.Proofs.Chunks
import HostedTests.Proofs.Host.Loading
import HostedTests.Proofs.Session.Progress

namespace HostedTests

namespace Notice

def tests : Notice → List TestCase
  | discovered tests => tests
  | discoveryComplete c => c.lastTests.getD []
  | _ => []

def results : Notice → List TestResult
  | runChanged c => c.newResults.getD []
  | runComplete r => (r.lastChange.bind (·.newResults)).getD []
  | _ => []

end Notice

structure Reports (k : OperationKind) (b : Bool) (ms : List Message)
    (items : List (String × Notice)) : Prop where
  texts : ms.map Message.text = items.map Prod.fst
  means : ∀ i ∈ items, k.Means i.1 i.2
  concludes : Concludes b (items.map Prod.snd)
  launchless : ∀ i ∈ items, i.2.kind ≠ .launchUnderDebugger

namespace Reports

theorem nil (k : OperationKind) : Reports k false [] [] where
  texts := rfl
  means := fun _ h => absurd h List.not_mem_nil
  concludes := .nil
  launchless := fun _ h => absurd h List.not_mem_nil

theorem single {k : OperationKind} {m : Message} {n : Notice} {b : Bool} (hm : k.Means m.text n)
    (hn : n.isCompletion = b) (hlaunch : n.kind ≠ .launchUnderDebugger) :
    Reports k b [m] [(m.text, n)] where
  texts := rfl
  means := List.forall_mem_singleton.mpr hm
  concludes := by
    cases b with
    | false => exact concludes_single n hn
    | true => exact .concluded [] n (fun _ h => absurd h List.not_mem_nil) hn
  launchless := List.forall_mem_singleton.mpr hlaunch

theorem append {k : OperationKind} {b : Bool} {ms ms' : List Message}
    {items items' : List (String × Notice)} (h : Reports k false ms items)
    (h' : Reports k b ms' items') : Reports k b (ms ++ ms') (items ++ items') where
  texts := by rw [List.map_append, List.map_append, h.texts, h'.texts]
  means := List.forall_mem_append.mpr ⟨h.means, h'.means⟩
  concludes := by
    rw [List.map_append]
    exact h.concludes.append h'.concludes
  launchless := List.forall_mem_append.mpr ⟨h.launchless, h'.launchless⟩

theorem cons {k : OperationKind} {b : Bool} {m : Message} {ms : List Message} {n : Notice}
    {items : List (String × Notice)} (hm : k.Means m.text n) (hn : n.isCompletion = false)
    (hlaunch : n.kind ≠ .launchUnderDebugger) (h : Reports k b ms items) :
    Reports k b (m :: ms) ((m.text, n) :: items) :=
  (single hm hn hlaunch).append h

end Reports

namespace ReferenceHost

variable (w : Surroundings)

theorem means_remark (k : OperationKind) (severity : Severity) (text : String) :
    k.Means (remark severity text).text (.log severity text) :=
  .remark k _ ⟨severity, text⟩ (Message.carries_exact rfl (by decide) .remark _)

theorem reports_warnings (k : OperationKind) {ms : List Message}
    (h : ∀ m ∈ ms, ∃ source, w.warning? source = some m) :
    ∃ items, Reports k false ms items ∧ ∀ i ∈ items, i.2.kind = .log := by
  induction ms with
  | nil => exact ⟨[], .nil k, fun _ h => absurd h List.not_mem_nil⟩
  | cons m ms ih =>
    obtain ⟨⟨source, hsource⟩, hrest⟩ := List.forall_mem_cons.mp h
    obtain ⟨items, hreports, hlogs⟩ := ih hrest
    unfold Surroundings.warning? at hsource
    split at hsource
    · cases hsource
    · cases hsource
      exact ⟨_, hreports.cons (means_remark k _ _) rfl Notice.Kind.noConfusion,
        List.forall_mem_cons.mpr ⟨rfl, hlogs⟩⟩

theorem reports_discovery (tests : List TestCase) (frequency : Int64) :
    ∃ items c, Reports .discovery true (reportDiscovery tests frequency) items ∧
      (items.map Prod.snd).flatMap Notice.tests = tests ∧
      .discoveryComplete c ∈ items.map Prod.snd ∧ c.total = Int64.ofNat tests.length ∧
      c.isAborted = false := by
  let parts := chunks (chunkSize frequency) tests
  let c : DiscoveryCompletion := ⟨Int64.ofNat tests.length, parts.getLast?, false⟩
  have hlast : OperationKind.discovery.Means (Message.carrying .discoveryComplete c).text
      (.discoveryComplete c) :=
    .discoveryComplete _ c (Message.carries_exact rfl (by decide) .discoveryComplete c)
  have hparts (parts : List (List TestCase)) :
      ∃ items, Reports .discovery true
        (parts.map (Message.carrying .testCasesFound) ++ [.carrying .discoveryComplete c]) items ∧
        items.map Prod.snd = parts.map Notice.discovered ++ [.discoveryComplete c] := by
    induction parts with
    | nil => exact ⟨_, .single hlast rfl Notice.Kind.noConfusion, rfl⟩
    | cons part parts ih =>
      obtain ⟨items, hreports, hnotices⟩ := ih
      have hpart := Message.carries_exact (α := List TestCase) rfl (by decide) .testCasesFound part
      have hfound := OperationKind.Means.discovered _ part hpart
      refine ⟨_, hreports.cons hfound rfl Notice.Kind.noConfusion, ?_⟩
      rw [List.map_cons, hnotices]
      rfl
  obtain ⟨items, hreports, hnotices⟩ := hparts parts.dropLast
  have hflat : (parts.dropLast.map Notice.discovered).flatMap Notice.tests =
      parts.dropLast.flatten := by
    rw [List.flatMap_map, List.flatMap_def]
    exact congrArg List.flatten (List.map_id parts.dropLast)
  refine ⟨items, c, hreports, ?_, ?_, rfl, rfl⟩
  · rw [hnotices, List.flatMap_append, hflat]
    exact (congrArg (_ ++ ·) (List.append_nil _)).trans
      (flatten_dropLast_chunks (chunkSize frequency) tests)
  · rw [hnotices]
    exact List.mem_append_right _ List.mem_cons_self

theorem length_results (reading : Nat) (tests : List ScriptedTest) :
    (results w reading tests).length = tests.length := by
  induction tests generalizing reading with
  | nil => rfl
  | cons t tests ih => rw [results, List.length_cons, ih, List.length_cons]

theorem map_results {α : Type} (f : TestResult → α) (g : ScriptedTest → α)
    (h : ∀ reading t, f (result w reading t) = g t) (reading : Nat) (tests : List ScriptedTest) :
    (results w reading tests).map f = tests.map g := by
  induction tests generalizing reading with
  | nil => rfl
  | cons t tests ih => rw [results, List.map_cons, h, ih, List.map_cons]

theorem getElem?_results (reading : Nat) (tests : List ScriptedTest) (i : Nat) :
    (results w reading tests)[i]? = tests[i]?.map (result w (reading + 3 * i)) := by
  induction tests generalizing reading i with
  | nil => rfl
  | cons t tests ih =>
    cases i with
    | zero => rfl
    | succ i =>
      rw [results, List.getElem?_cons_succ, ih, List.getElem?_cons_succ, Nat.mul_succ,
        Nat.add_assoc, Nat.add_comm 3]

theorem means_change (all new : List TestResult) :
    OperationKind.execution.Means (Message.carrying .runStatsChange (change all new)).text
      (.runChanged (change all new).truncated) :=
  .runChanged _ _ (Message.carries_settled Message.settles_runChange (by decide) .runStatsChange
    (change all new))

def finalReport (elapsed : Clock.TimeSpan) (all new : List TestResult) : RunReport :=
  ⟨⟨some (.ofResults all), false, false, none, none, elapsed.truncated⟩,
    some (change all new).truncated, none, some [executorUri]⟩

theorem means_completion (elapsed : Clock.TimeSpan) (all new : List TestResult) :
    OperationKind.execution.Means (completion elapsed all new).text
      (.runComplete (finalReport elapsed all new)) := by
  let c : RunCompletion := ⟨some ⟨some (.ofResults all), false, false, none, none, elapsed⟩,
    some (change all new), none, some [executorUri]⟩
  have hcarries := Message.carries_settled Message.settles_runCompletion (by decide)
    .executionComplete c
  exact .runComplete _ c.truncated _ hcarries rfl

theorem reports_results (size : Nat) (elapsed : Clock.TimeSpan)
    (results sent waiting : List TestResult) :
    ∃ items new,
      Reports .execution true (reportResults size elapsed sent waiting results) items ∧
      (items.map Prod.snd).flatMap Notice.results =
        (waiting ++ results).map TestResult.truncated ∧
      .runComplete (finalReport elapsed (sent ++ waiting ++ results) new) ∈
        items.map Prod.snd := by
  induction results generalizing sent waiting with
  | nil =>
    rw [reportResults, List.append_nil, List.append_nil]
    refine ⟨_, waiting, .single (means_completion elapsed _ waiting) rfl Notice.Kind.noConfusion,
      ?_, List.mem_cons_self⟩
    exact List.append_nil _
  | cons r rest ih =>
    have hall : sent ++ waiting ++ r :: rest = sent ++ (waiting ++ [r]) ++ rest := by
      simp only [List.append_assoc, List.singleton_append]
    rw [reportResults, hall, List.append_cons waiting r rest]
    split
    · obtain ⟨items, new, hreports, hresults, hlast⟩ := ih (sent ++ (waiting ++ [r])) []
      rw [List.append_nil] at hlast
      have hchange := means_change (sent ++ (waiting ++ [r])) (waiting ++ [r])
      refine ⟨_, new, hreports.cons hchange rfl Notice.Kind.noConfusion, ?_,
        List.mem_cons_of_mem _ hlast⟩
      rw [List.map_cons, List.flatMap_cons, hresults, List.nil_append, List.map_append]
      rfl
    · obtain ⟨items, new, hreports, hresults, hlast⟩ := ih sent (waiting ++ [r])
      exact ⟨items, new, hreports, hresults, hlast⟩

theorem reports_run (h : ReferenceHost) (tests : List ScriptedTest) (context : ExecutionContext) :
    let results := results w h.firstReading tests
    ∃ items new, Reports .execution true (h.reportRun w tests context).1 items ∧
      (items.map Prod.snd).flatMap Notice.results = results.map TestResult.truncated ∧
      .runComplete (finalReport (h.elapsed w tests) results new) ∈ items.map Prod.snd :=
  reports_results (chunkSize context.frequency) (h.elapsed w tests) _ [] []

end ReferenceHost

end HostedTests
