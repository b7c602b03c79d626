import HostedTests.Proofs.Host.Serving
import HostedTests.Proofs.Statistics

namespace HostedTests

def RunChange.results (c : RunChange) : List TestResult := c.newResults.getD []

namespace ReferenceHost

variable (w : Surroundings)

theorem discovery_told_in_portions (h : ReferenceHost) (c : DiscoveryCriteria)
    (hfree : w.CrashFree c.sources) :
    let tests := w.scripted c.sources
    let size := max 1 c.frequency.toInt.toNat
    ∃ (parts : List (List TestCase)) (last : Option (List TestCase)),
      (h.discover w c).1 = c.sources.filterMap w.warning? ++
        parts.map (.carrying .testCasesFound) ++
        [.carrying .discoveryComplete
          (⟨Int64.ofNat tests.length, last, false⟩ : DiscoveryCompletion)] ∧
      parts.length = (tests.length + size - 1) / size - 1 ∧
      (∀ part ∈ parts, part.length = size) ∧
      (last = none ↔ tests.length = 0) ∧
      (∀ part ∈ last, 1 ≤ part.length ∧ part.length ≤ size) ∧
      (parts.flatten ++ last.getD []).map (fun t => (t.source, t.fullyQualifiedName)) =
        tests.map fun t => (t.1, t.2.1) := by
  intro tests size
  have hsize : max 1 (chunkSize c.frequency) = size := by
    rw [chunkSize, ← Nat.max_assoc, Nat.max_self]
  let found := (w.testsOf h.nextId c.sources).map ScriptedTest.testCase
  have hnamed : found.map (fun t => (t.source, t.fullyQualifiedName)) =
      tests.map fun t => (t.1, t.2.1) := by
    have hprescribed := w.prescriptions_testsOf h.nextId c.sources
    rw [show tests = _ from hprescribed.symm, List.map_map, List.map_map]
    rfl
  have hcount : found.length = tests.length := by
    rw [← List.length_map fun t : TestCase => (t.source, t.fullyQualifiedName), hnamed,
      List.length_map]
  let parts := chunks (chunkSize c.frequency) found
  refine ⟨parts.dropLast, parts.getLast?, ?_, ?_, ?_, ?_, ?_, ?_⟩
  · obtain ⟨n, hanswer⟩ := answer_discovery (h := h) hfree
    rw [answer] at hanswer
    rw [hanswer, ← hcount, List.append_assoc]
    rfl
  · rw [← hcount, ← hsize]
    exact length_dropLast_chunks _ found
  · intro part hpart
    rw [← hsize]
    exact full_of_mem_dropLast_chunks hpart
  · rw [← hcount, List.length_eq_zero_iff]
    exact getLast?_chunks_eq_none_iff _ found
  · intro part hpart
    rw [← hsize]
    exact length_of_mem_chunks (List.mem_of_getLast? hpart)
  · rw [← hnamed, flatten_dropLast_chunks]

theorem discovery_told_in_portions_even :
    let w : Surroundings := ⟨fun s => if s = "gone" then .error "no such file" else .ok "a\n!b",
      Uuid.numbered, fun _ => .epoch, "testhost"⟩
    let c : DiscoveryCriteria := ⟨["s", "gone", "t"], 2, "", none⟩
    ∃ part last : List TestCase,
      (fresh.discover w c).1 =
        [remark .warning "could not read source gone: no such file",
          .carrying .testCasesFound part,
          .carrying .discoveryComplete (⟨4, some last, false⟩ : DiscoveryCompletion)] ∧
      part.length = 2 ∧
      (part ++ last).map (fun t => (t.source, t.fullyQualifiedName)) =
        [("s", "a"), ("s", "b"), ("t", "a"), ("t", "b")] := by
  intro w c
  have hlines (source : String) : w.lines source =
      if source = "gone" then [] else [.test "a" .passed, .test "b" .failed] := by
    have hparse : SourceLine.parse "a\n!b" = [.test "a" .passed, .test "b" .failed] := by
      decide +kernel
    simp only [Surroundings.lines, w]
    split_ifs <;> simp_all
  have hfree : w.CrashFree c.sources := by
    intro source _ text hmem
    rw [hlines] at hmem
    split at hmem <;> simp at hmem
  have hscripted : w.scripted c.sources = [("s", "a", .passed), ("s", "b", .failed),
      ("t", "a", .passed), ("t", "b", .failed)] := by
    simp only [Surroundings.scripted, c, hlines]
    rfl
  obtain ⟨parts, last, hsent, hcount, hfull, hlast, -, hall⟩ :=
    discovery_told_in_portions w fresh c hfree
  rw [hscripted] at hsent hcount hlast hall
  obtain ⟨part, rfl⟩ := List.length_eq_one_iff.mp (hcount.trans (by decide))
  obtain ⟨last, rfl⟩ := Option.ne_none_iff_exists'.mp (mt hlast.mp (Nat.succ_ne_zero 3))
  refine ⟨part, last, hsent, hfull part List.mem_cons_self, ?_⟩
  rw [List.flatten_singleton] at hall
  exact hall

def progress (sent : List TestResult) : List (List TestResult) → List RunChange
  | [] => []
  | part :: parts => change (sent ++ part) part :: progress (sent ++ part) parts

theorem length_progress (sent : List TestResult) (parts : List (List TestResult)) :
    (progress sent parts).length = parts.length := by
  induction parts generalizing sent with
  | nil => rfl
  | cons part parts ih => rw [progress, List.length_cons, ih, List.length_cons]

theorem results_progress (sent : List TestResult) (parts : List (List TestResult)) :
    (progress sent parts).map RunChange.results = parts := by
  induction parts generalizing sent with
  | nil => rfl
  | cons part parts ih =>
    rw [progress, List.map_cons, ih]
    rfl

theorem tallies_progress (sent : List TestResult) (parts : List (List TestResult)) (i : Nat)
    (c : RunChange) (h : (progress sent parts)[i]? = some c) :
    ∃ s, c.statistics = some s ∧
      s.Tallies (sent ++ ((progress sent parts).take (i + 1)).flatMap RunChange.results) := by
  induction parts generalizing sent i with
  | nil => simp [progress] at h
  | cons part parts ih =>
    rw [progress] at h ⊢
    cases i with
    | zero =>
      obtain rfl : change (sent ++ part) part = c := Option.some.inj h
      refine ⟨_, rfl, ?_⟩
      rw [List.take_succ_cons, List.take_zero, List.flatMap_singleton]
      exact RunStatistics.tallies_ofResults (sent ++ part)
    | succ i =>
      obtain ⟨s, hs, htallies⟩ := ih (sent ++ part) i h
      refine ⟨s, hs, ?_⟩
      rw [List.take_succ_cons, List.flatMap_cons, ← List.append_assoc]
      exact htallies

theorem reportResults_eq {size : Nat} (elapsed : Clock.TimeSpan)
    (results sent waiting : List TestResult) (hwaiting : waiting.length < size) :
    ∃ parts rest,
      reportResults size elapsed sent waiting results =
        (progress sent parts).map (.carrying .runStatsChange) ++
          [completion elapsed (sent ++ (waiting ++ results)) rest] ∧
      parts.flatten ++ rest = waiting ++ results ∧
      (∀ part ∈ parts, part.length = size) ∧ rest.length < size := by
  induction results generalizing sent waiting with
  | nil =>
    refine ⟨[], waiting, ?_, (List.append_nil waiting).symm, ?_, hwaiting⟩
    · rw [List.append_nil]
      rfl
    · simp
  | cons r results ih =>
    have hmore : (waiting ++ [r]).length = waiting.length + 1 := List.length_append
    have hall : waiting ++ r :: results = waiting ++ [r] ++ results := by simp
    rw [reportResults, hall]
    split
    · rename_i hfull
      obtain ⟨parts, rest, hsent, hparts, hsizes, hrest⟩ :=
        ih (sent ++ (waiting ++ [r])) [] (Nat.lt_of_le_of_lt (Nat.zero_le _) hwaiting)
      refine ⟨(waiting ++ [r]) :: parts, rest, ?_, ?_, ?_, hrest⟩
      · rw [hsent, List.nil_append, progress, List.map_cons, List.cons_append, List.append_assoc]
      · rw [List.flatten_cons, List.append_assoc, hparts, List.nil_append]
      · exact List.forall_mem_cons.mpr ⟨hfull, hsizes⟩
    · rename_i hshort
      exact ih sent (waiting ++ [r]) (by omega)

theorem run_told_in_portions (h : ReferenceHost) (tests : List ScriptedTest)
    (context : ExecutionContext) :
    let size := max 1 context.frequency.toInt.toNat
    let elapsed := (w.clock (h.nextReading + 3 * tests.length + 1)).steady.since
      (w.clock h.nextReading).steady
    ∃ (ms : List Message) (changes : List RunChange) (s : RunStatistics) (last : List TestResult),
      (h.run w tests context).1 =
        (if context.isDebug then [.carrying .launchUnderDebugger w.debuggee] else ms) ∧
      (context.isDebug = true → ∀ process : Int32,
        ((h.run w tests context).2.receive w
          (.text (Message.carrying .launchedUnderDebugger process).text)).1 =
          remark .informational s!"debugger attached to process {process}" :: ms) ∧
      ms = changes.map (.carrying .runStatsChange) ++
        [.carrying .executionComplete
          (⟨some ⟨some s, false, false, none, none, elapsed⟩, some ⟨some s, some last, none⟩, none,
            some [executorUri]⟩ : RunCompletion)] ∧
      changes.length = tests.length / size ∧ last.length = tests.length % size ∧
      (∀ c ∈ changes, c.results.length = size) ∧
      (changes.flatMap RunChange.results ++ last).map (fun r => (r.testCase, r.outcome)) =
        tests.map (fun t => (t.testCase, t.outcome)) ∧
      (∀ (i : Nat) (r : TestResult), (changes.flatMap RunChange.results ++ last)[i]? = some r →
        let started := (w.clock (h.nextReading + 3 * i + 1)).wall
        let ended := (w.clock (h.nextReading + 3 * i + 3)).wall
        r.startTime = started ∧ r.endTime = ended ∧ r.duration = ended.since started) ∧
      (∀ (i : Nat) (c : RunChange), changes[i]? = some c → ∃ s, c.statistics = some s ∧
        s.Tallies ((changes.take (i + 1)).flatMap RunChange.results)) ∧
      s.Tallies (changes.flatMap RunChange.results ++ last) := by
  intro size elapsed
  have hsize : 0 < size := Nat.le_max_left 1 _
  have helapsed : h.elapsed w tests = elapsed := by
    rw [ReferenceHost.elapsed, lastReading, firstReading, Nat.add_right_comm]
  let results := results w h.firstReading tests
  obtain ⟨parts, last, hsent, hparts, hsizes, hlast⟩ :=
    reportResults_eq elapsed results [] [] hsize
  rw [List.nil_append, List.nil_append] at hsent
  rw [List.nil_append] at hparts
  let changes := progress [] parts
  have hchanges : changes.map RunChange.results = parts := results_progress [] parts
  have htold : changes.flatMap RunChange.results ++ last = results := by
    rw [List.flatMap_def, hchanges, hparts]
  have htotal : size * parts.length + last.length = tests.length := by
    have hlength := congrArg List.length hparts
    rwa [List.length_append, length_flatten_of_full hsizes, length_results] at hlength
  refine ⟨(h.reportRun w tests context).1, changes, .ofResults results, last, ?_, ?_, ?_, ?_, ?_,
    ?_, ?_, ?_, tallies_progress [] parts, ?_⟩
  · unfold run
    split <;> rfl
  · intro hdebug process
    rw [run, if_pos hdebug]
    exact congrArg Prod.fst (receive_launched (w := w) rfl process)
  · rw [reportRun, helapsed]
    exact hsent
  · rw [length_progress, ← htotal, Nat.mul_add_div hsize, Nat.div_eq_of_lt hlast, Nat.add_zero]
  · rw [← htotal, Nat.mul_add_mod, Nat.mod_eq_of_lt hlast]
  · intro c hc
    apply hsizes
    rw [← hchanges]
    exact List.mem_map_of_mem hc
  · rw [htold]
    exact map_results w _ _ (fun _ _ => rfl) h.firstReading tests
  · rw [htold]
    intro i r hr started ended
    rw [getElem?_results] at hr
    obtain ⟨t, -, rfl⟩ := Option.map_eq_some_iff.mp hr
    have hreading : h.firstReading + 3 * i = h.nextReading + 3 * i + 1 := by
      rw [firstReading, Nat.add_right_comm]
    rw [hreading]
    exact ⟨rfl, rfl, rfl⟩
  · rw [htold]
    exact RunStatistics.tallies_ofResults results

end ReferenceHost

end HostedTests
