import HostedTests.Proofs.Files.Place
import HostedTests.Proofs.Host.Serving

namespace HostedTests

def OperationKind.heardIn (k : OperationKind) (ms : List Message) : List Notice :=
  ms.filterMap fun m => (k.hear m.text).toOption

namespace OperationKind

theorem heardIn_append (k : OperationKind) (ms ms' : List Message) :
    k.heardIn (ms ++ ms') = k.heardIn ms ++ k.heardIn ms' :=
  List.filterMap_append

theorem heardIn_single {k : OperationKind} {m : Message} {n : Notice} (h : k.Means m.text n) :
    k.heardIn [m] = [n] := by
  simp [heardIn, k.hear_of_means _ n h, Except.toOption]

end OperationKind

theorem Reports.heardIn_eq {k : OperationKind} {b : Bool} {ms : List Message}
    {items : List (String × Notice)} (h : Reports k b ms items) :
    k.heardIn ms = items.map Prod.snd := by
  have hitem (i : String × Notice) (hi : i ∈ items) :
      (k.hear i.1).toOption = some i.2 := by
    rw [k.hear_of_means i.1 i.2 (h.means i hi)]
    rfl
  calc k.heardIn ms = (ms.map Message.text).filterMap fun t => (k.hear t).toOption := by
        rw [List.filterMap_map]
        rfl
    _ = items.filterMap fun i => (k.hear i.1).toOption := by
        rw [h.texts, List.filterMap_map]
        rfl
    _ = items.map Prod.snd := List.filterMap_eq_map_iff_forall_eq_some.mpr hitem

def TestResult.verdict (r : TestResult) : String × String × Outcome :=
  (r.testCase.source, r.testCase.fullyQualifiedName, r.outcome)

def ScriptedTest.verdict (t : ScriptedTest) : String × String × Outcome :=
  (t.testCase.source, t.testCase.fullyQualifiedName, t.outcome)

namespace ReferenceHost

variable (w : Surroundings)

def replies (h : ReferenceHost) (r : StartRequest) (process : Int32) : List Message :=
  let launched := (Message.carrying .launchedUnderDebugger process).text
  (h.receiveAll w (.text r.message.text :: if r.isDebug then [.text launched] else [])).1.flatten

def found (h : ReferenceHost) (c : DiscoveryCriteria) (process : Int32) : List TestCase :=
  (OperationKind.discovery.heardIn (h.replies w (.discovery c) process)).flatMap Notice.tests

def verdicts (h : ReferenceHost) (c : RunCriteria) (process : Int32) :
    List (String × String × Outcome) :=
  ((OperationKind.execution.heardIn (h.replies w (.execution c) process)).flatMap
    Notice.results).map TestResult.verdict

variable {w} {h : ReferenceHost}

theorem replies_plain (hserving : h.phase = .serving) {r : StartRequest}
    (hplain : r.isDebug = false) (process : Int32) :
    h.replies w r process = (h.answer w r).1 := by
  simp [replies, hplain, receiveAll, receive_start (w := w) hserving r]

theorem replies_debug (hserving : h.phase = .serving) {c : RunCriteria}
    (hfree : w.CrashFree c.touched) (hdebug : c.context.isDebug = true) (process : Int32) :
    h.replies w (.execution c) process =
      c.loaded.filterMap w.warning? ++ [.carrying .launchUnderDebugger w.debuggee] ++
        remark .informational s!"debugger attached to process {process}" ::
          (h.reportRun w (w.testsFor h.nextId c) c.context).1 := by
  obtain ⟨n, hanswer⟩ := answer_launches (h := h) hfree hdebug
  have hisDebug : (StartRequest.execution c).isDebug = true := hdebug
  let attaching : ReferenceHost :=
    { h with nextId := n, phase := .attaching (w.testsFor h.nextId c) c.context }
  have hlaunched := receive_launched (w := w) (h := attaching) rfl process
  have hstart := (receive_start (w := w) hserving (.execution c)).trans hanswer
  simp only [replies, hisDebug, if_true, receiveAll, hstart]
  rw [hlaunched]
  simp [reportRun, elapsed, lastReading, firstReading, attaching]

theorem reported_replies (hserving : h.phase = .serving) {r : StartRequest}
    (hfree : w.CrashFree r.sources) (process : Int32) :
    w.Reported h r (r.kind.heardIn (h.replies w r process)) := by
  by_cases hdebug : r.isDebug = true
  · cases r with
    | discovery c => cases hdebug
    | execution c =>
      obtain ⟨warnings, hwarned, hnothing⟩ := warned (w := w) .execution c.loaded
      obtain ⟨items, last, hreports, hresults, hlast⟩ :=
        reports_run w h (w.testsFor h.nextId c) c.context
      have hlaunch : OperationKind.execution.Means
          (Message.carrying .launchUnderDebugger w.debuggee).text
          (.launchUnderDebugger w.debuggee) :=
        .launchUnderDebugger _ w.debuggee (Message.carries_startInfo .launchUnderDebugger rfl)
      have hattached := hreports.cons
        (means_remark .execution .informational s!"debugger attached to process {process}") rfl
        Notice.Kind.noConfusion
      rw [replies_debug hserving hfree hdebug]
      change w.Reported _ _ (OperationKind.execution.heardIn _)
      rw [OperationKind.heardIn_append, OperationKind.heardIn_append, hwarned.heardIn_eq,
        OperationKind.heardIn_single hlaunch, hattached.heardIn_eq, List.append_assoc]
      apply w.reported_after hnothing
      have hreported : w.Reported h (.execution c) (items.map Prod.snd) :=
        ⟨hresults, last, hlast⟩
      have hquiet (n : Notice) (hn : n.tests = [] ∧ n.results = []) :
          ∀ m ∈ [n], m.tests = [] ∧ m.results = [] := List.forall_mem_singleton.mpr hn
      exact w.reported_after (hquiet _ ⟨rfl, rfl⟩) (w.reported_after (hquiet _ ⟨rfl, rfl⟩) hreported)
  · have hplain : r.isDebug = false := by simpa using hdebug
    obtain ⟨ms, items, n, m, hanswer, hreports, hreported⟩ :=
      answer_reports (h := h) hfree hplain
    rw [replies_plain hserving hplain, hanswer, hreports.heardIn_eq]
    exact hreported

theorem found_eq (hserving : h.phase = .serving) {c : DiscoveryCriteria}
    (hfree : w.CrashFree c.sources) (process : Int32) :
    h.found w c process = (w.testsOf h.nextId c.sources).map ScriptedTest.testCase :=
  (reported_replies hserving (r := .discovery c) hfree process).1

theorem verdicts_eq (hserving : h.phase = .serving) {c : RunCriteria}
    (hfree : w.CrashFree c.touched) (process : Int32) :
    h.verdicts w c process = (w.testsFor h.nextId c).map ScriptedTest.verdict := by
  have hresults := (reported_replies hserving (r := .execution c) hfree process).1
  rw [verdicts]
  change ((OperationKind.execution.heardIn _).flatMap Notice.results) = _ at hresults
  rw [hresults, List.map_map]
  exact map_results w _ _ (fun _ _ => rfl) h.firstReading (w.testsFor h.nextId c)

end ReferenceHost

namespace Surroundings

variable (w : Surroundings)

theorem mem_scripted (sources : List String) (source name : String) (o : Outcome) :
    (source, name, o) ∈ w.scripted sources ↔
      source ∈ sources ∧ SourceLine.test name o ∈ w.lines source := by
  simp only [scripted, List.mem_flatMap, List.mem_filterMap, Option.map_eq_some_iff]
  constructor
  · rintro ⟨s, hs, line, hline, t, ht, heq⟩
    cases line with
    | crash text => cases ht
    | test n o' =>
      cases ht
      cases heq
      exact ⟨hs, hline⟩
  · rintro ⟨hs, hline⟩
    exact ⟨source, hs, _, hline, (name, o), rfl, rfl⟩

theorem mem_tests (source name : String) (o : Outcome) :
    (name, o) ∈ (w.lines source).filterMap SourceLine.test? ↔
      SourceLine.test name o ∈ w.lines source := by
  rw [List.mem_filterMap]
  constructor
  · rintro ⟨line, hline, ht⟩
    cases line with
    | crash text => cases ht
    | test n o' =>
      cases ht
      exact hline
  · intro hline
    exact ⟨_, hline, rfl⟩

/-- In each of the sources, lines with one name have one outcome. -/
def OneOutcome (sources : List String) : Prop :=
  ∀ source ∈ sources, ∀ name o o', SourceLine.test name o ∈ w.lines source →
    SourceLine.test name o' ∈ w.lines source → o = o'

theorem oneOutcome_iff (sources : List String) :
    w.OneOutcome sources ↔
      ∀ t ∈ w.scripted sources, w.prescribed? t.1 t.2.1 = some t.2.2 := by
  constructor
  · rintro h ⟨source, name, o⟩ ht
    obtain ⟨hsource, hline⟩ := (w.mem_scripted sources source name o).mp ht
    apply Files.lookup_eq_of_agree ((w.mem_tests source name o).mpr hline)
    intro o' hmem
    exact h source hsource name o' o ((w.mem_tests source name o').mp hmem) hline
  · intro h source hsource name o o' hline hline'
    have hfirst := h _ ((w.mem_scripted sources source name o).mpr ⟨hsource, hline⟩)
    have hsecond := h _ ((w.mem_scripted sources source name o').mpr ⟨hsource, hline'⟩)
    exact Option.some.inj (hfirst.symm.trans hsecond)

theorem verdicts_testsOf (first : Nat) (sources : List String) :
    (w.testsOf first sources).map ScriptedTest.verdict = w.scripted sources :=
  w.prescriptions_testsOf first sources

theorem verdicts_selected (first : Nat) (sources : List String) :
    ((w.testsOf first sources).map fun t : ScriptedTest =>
      (⟨t.testCase, w.outcome t.testCase⟩ : ScriptedTest).verdict) =
      (w.scripted sources).map fun t =>
        (t.1, t.2.1, (w.prescribed? t.1 t.2.1).getD .notFound) := by
  rw [← w.verdicts_testsOf first, List.map_map]
  rfl

theorem selected_eq_iff (sources : List String) :
    ((w.scripted sources).map fun t =>
      (t.1, t.2.1, (w.prescribed? t.1 t.2.1).getD .notFound)) = w.scripted sources ↔
      w.OneOutcome sources := by
  rw [oneOutcome_iff]
  conv_lhs => rhs; rw [← List.map_id (w.scripted sources)]
  rw [List.map_inj_left]
  apply forall₂_congr
  rintro ⟨source, name, o⟩ ht
  obtain ⟨-, hline⟩ := (w.mem_scripted sources source name o).mp ht
  have hsome : (w.prescribed? source name).isSome := by
    rw [Option.isSome_iff_ne_none, prescribed?, Ne, List.lookup_eq_none_iff]
    intro hnone
    simpa using hnone _ ((w.mem_tests source name o).mpr hline)
  obtain ⟨o', ho'⟩ := Option.isSome_iff_exists.mp hsome
  simp [ho']

end Surroundings

theorem eraseDups_of_nodup {α : Type} [BEq α] [LawfulBEq α] {items : List α} (h : items.Nodup) :
    items.eraseDups = items := by
  induction items using eraseDups_induction with
  | nil => rfl
  | cons a rest ih =>
    obtain ⟨ha, hrest⟩ := List.nodup_cons.mp h
    have hfilter : rest.filter (!· == a) = rest := by
      rw [List.filter_eq_self]
      intro b hb
      have hne : b ≠ a := by
        rintro rfl
        exact ha hb
      simpa using hne
    rw [hfilter] at ih
    rw [List.eraseDups_cons, hfilter, ih hrest]

theorem RunCriteria.firstSeen_of_nodup {items : List String} (h : items.Nodup) :
    firstSeen items = items := by
  have hseen := firstSeen_map id items fun _ _ _ _ heq => heq
  rwa [List.map_id, List.map_id, eraseDups_of_nodup h] at hseen

namespace ReferenceHost

variable {w : Surroundings}

section

variable {d : DiscoveryCriteria} {h : ReferenceHost}

theorem verdicts_sources (hserving : h.phase = .serving) {c : SourcesCriteria}
    (hone : c.adapterSources.values = [d.sources]) (hdistinct : d.sources.Nodup)
    (hfree : w.CrashFree d.sources) (process : Int32) :
    h.verdicts w (.sources c) process = w.scripted d.sources := by
  have hloaded : RunCriteria.firstSeen c.adapterSources.values.flatten = d.sources := by
    rw [hone, List.flatten_singleton, RunCriteria.firstSeen_of_nodup hdistinct]
  have htouched : (RunCriteria.sources c).touched = d.sources := hloaded
  rw [verdicts_eq hserving (htouched.symm ▸ hfree), Surroundings.testsFor, hloaded,
    w.verdicts_testsOf]

theorem verdicts_found (hserving : h.phase = .serving) {finder : ReferenceHost}
    (hfinder : finder.phase = .serving) (hfree : w.CrashFree d.sources) (e : TestsCriteria)
    (process : Int32) :
    h.verdicts w (.tests { e with tests := finder.found w d process }) process =
      (w.scripted d.sources).map fun t =>
        (t.1, t.2.1, (w.prescribed? t.1 t.2.1).getD .notFound) := by
  have hfound := found_eq hfinder hfree process
  have htouched : w.CrashFree
      (RunCriteria.tests { e with tests := finder.found w d process }).touched := by
    intro source hmem text
    rw [RunCriteria.touched, RunCriteria.mem_firstSeen, RunCriteria.mentioned, hfound,
      List.map_map, List.mem_map] at hmem
    obtain ⟨t, ht, rfl⟩ := hmem
    have hverdict : t.verdict ∈ w.scripted d.sources := by
      rw [← w.verdicts_testsOf finder.nextId]
      exact List.mem_map_of_mem ht
    exact hfree _ ((w.mem_scripted d.sources _ _ _).mp hverdict).1 text
  rw [verdicts_eq hserving htouched, Surroundings.testsFor, hfound, List.map_map, List.map_map]
  exact w.verdicts_selected finder.nextId d.sources

end

theorem selected_tests_judged_by_name (finder runner selector : ReferenceHost)
    (hfinder : finder.phase = .serving) (hrunner : runner.phase = .serving)
    (hselector : selector.phase = .serving) (d : DiscoveryCriteria) (c : SourcesCriteria)
    (e : TestsCriteria) (hone : c.adapterSources.values = [d.sources])
    (hdistinct : d.sources.Nodup) (hfree : w.CrashFree d.sources) (process : Int32) :
    let bySources := runner.verdicts w (.sources c) process
    let byTests := selector.verdicts w
      (.tests { e with tests := finder.found w d process }) process
    bySources = w.scripted d.sources ∧
      byTests = (w.scripted d.sources).map (fun t =>
        (t.1, t.2.1, (w.prescribed? t.1 t.2.1).getD .notFound)) ∧
      (byTests = bySources ↔ w.OneOutcome d.sources) := by
  intro bySources byTests
  have hsources : bySources = w.scripted d.sources :=
    verdicts_sources hrunner hone hdistinct hfree process
  have htests := verdicts_found hselector hfinder hfree e process
  refine ⟨hsources, htests, ?_⟩
  rw [hsources, show byTests = _ from htests]
  apply Surroundings.selected_eq_iff

theorem selected_tests_judged_by_name_alike :
    let w : Surroundings := ⟨fun _ => .ok "a\n!b\na", Uuid.numbered, fun _ => .epoch, "testhost"⟩
    let d : DiscoveryCriteria := .ofSources ["s", "t"]
    let c : SourcesCriteria := ⟨Dictionary.empty.insert "_none_" ["s", "t"], "", .default⟩
    let e : TestsCriteria := ⟨fresh.found w d 7, "", .default⟩
    fresh.verdicts w (.sources c) 7 = [("s", "a", .passed), ("s", "b", .failed),
        ("s", "a", .passed), ("t", "a", .passed), ("t", "b", .failed), ("t", "a", .passed)] ∧
      fresh.verdicts w (.tests e) 7 = fresh.verdicts w (.sources c) 7 := by
  intro w d c e
  have hparse : SourceLine.parse "a\n!b\na" =
      [.test "a" .passed, .test "b" .failed, .test "a" .passed] := by decide +kernel
  have hlines (source : String) : w.lines source =
      [.test "a" .passed, .test "b" .failed, .test "a" .passed] := hparse
  have hfree : w.CrashFree d.sources := by
    intro source _ text
    simp [hlines]
  obtain ⟨hsources, -, halike⟩ := selected_tests_judged_by_name fresh fresh fresh rfl rfl rfl d c
    e rfl (by decide) hfree 7
  have hscripted : w.scripted d.sources = [("s", "a", .passed), ("s", "b", .failed),
      ("s", "a", .passed), ("t", "a", .passed), ("t", "b", .failed), ("t", "a", .passed)] := by
    simp only [Surroundings.scripted, hlines]
    rfl
  refine ⟨hsources.trans hscripted, halike.mpr ?_⟩
  let tests : List (String × Outcome) := [("a", .passed), ("b", .failed), ("a", .passed)]
  have hagree : ∀ t ∈ tests, ∀ t' ∈ tests, t.1 = t'.1 → t.2 = t'.2 := by decide
  intro source _ name o o' hline hline'
  rw [← w.mem_tests, hlines] at hline hline'
  exact hagree _ hline _ hline' rfl

/-- A test that is marked as failed, and whose name a line before it has unmarked, passes when it is
selected. -/
theorem marked_test_passes_selected :
    let w : Surroundings := ⟨fun _ => .ok "a\n!a", Uuid.numbered, fun _ => .epoch, "testhost"⟩
    let d : DiscoveryCriteria := .ofSources ["s"]
    let c : SourcesCriteria := ⟨Dictionary.empty.insert "_none_" ["s"], "", .default⟩
    let e : TestsCriteria := ⟨fresh.found w d 7, "", .default⟩
    fresh.verdicts w (.sources c) 7 = [("s", "a", .passed), ("s", "a", .failed)] ∧
      fresh.verdicts w (.tests e) 7 = [("s", "a", .passed), ("s", "a", .passed)] := by
  intro w d c e
  have hparse : SourceLine.parse "a\n!a" = [.test "a" .passed, .test "a" .failed] := by
    decide +kernel
  have hlines (source : String) : w.lines source = [.test "a" .passed, .test "a" .failed] := hparse
  have hfree : w.CrashFree d.sources := by
    intro source _ text
    simp [hlines]
  have hscripted : w.scripted d.sources = [("s", "a", .passed), ("s", "a", .failed)] := by
    simp only [Surroundings.scripted, hlines]
    rfl
  have hfirst : w.prescribed? "s" "a" = some .passed := by
    rw [Surroundings.prescribed?, hlines]
    rfl
  constructor
  · exact (verdicts_sources rfl rfl (by decide) hfree 7).trans hscripted
  · apply (verdicts_found rfl rfl hfree ⟨[], "", .default⟩ 7).trans
    rw [hscripted, List.map_cons, List.map_singleton, hfirst]
    rfl

end ReferenceHost

end HostedTests
