import HostedTests.Proofs.Console.Program
import HostedTests.Proofs.Text.Utf8
import Mathlib.Data.List.Flatten

namespace HostedTests

open Files

theorem Message.utf8ByteSize_text (m : Message) :
    m.text.utf8ByteSize = (Text.Utf8.encode m.toValue.text).length := by
  rw [← Text.Utf8.length_encode, text, Json.Value.print, String.toList_ofList]

namespace Workplace

variable {w : Workplace} {path program : String} {s : Settings}

def script (w : Workplace) (place : Place) : List SourceLine :=
  match w.machine.tree.node? place with
  | some (.file octets) =>
    match Text.Utf8.decode octets with
    | .ok cs => SourceLine.parse (String.ofList cs)
    | .error _ => []
  | _ => []

theorem lines_pathOf (hsound : w.machine.tree.Sound) {place : Place} (h : w.IsFile place) :
    (w.surroundings program).lines (Machine.pathOf place) = w.script place := by
  obtain ⟨octets, hfile⟩ := h
  have hread := Tree.readText_pathOf hsound w.machine.base hfile
  simp only [Surroundings.lines, surroundings, hread, script, hfile]
  cases Text.Utf8.decode octets <;> rfl

theorem flatMap_lines (program : String) (hsound : w.machine.tree.Sound) {places : List Place}
    (hfiles : ∀ place ∈ places, w.IsFile place) :
    (places.map Machine.pathOf).flatMap (w.surroundings program).lines =
      places.flatMap w.script := by
  rw [List.flatMap_map]
  apply List.flatMap_congr
  intro place hplace
  exact lines_pathOf hsound (hfiles place hplace)

theorem pathOf_inj (hsound : w.machine.tree.Sound) {p q : Place} (hp : w.IsFile p)
    (hq : w.IsFile q) (h : Machine.pathOf p = Machine.pathOf q) : p = q := by
  obtain ⟨_, hp⟩ := hp
  obtain ⟨_, hq⟩ := hq
  exact Path.pathOf_inj (hsound.names hp) (hsound.names hq) h

theorem touched_ofPlaces (hsound : w.machine.tree.Sound) {places : List Place}
    (hfiles : ∀ place ∈ places, w.IsFile place) :
    (RunCriteria.ofSources (places.map Machine.pathOf)).touched =
      places.eraseDups.map Machine.pathOf := by
  have hmentioned : (RunCriteria.ofSources (places.map Machine.pathOf)).mentioned =
      places.map Machine.pathOf := List.append_nil _
  rw [RunCriteria.touched, hmentioned]
  apply RunCriteria.firstSeen_map
  intro p hp q hq
  exact pathOf_inj hsound (hfiles p hp) (hfiles q hq)

end Workplace

def TaskResult.Shows (r : TaskResult) (code : Nat) (lines : List String) : Prop :=
  r.code = code ∧ r.output = Workplace.linesText lines

namespace Workplace

variable {w : Workplace} {path program : String} {s : Settings}

theorem report_shows {ended : StepResult × Session} {process : Nat} {e : ConsoleEnd}
    {lines : List String} (hprocess : ended.1 = .process process)
    (houtput : (Console.after (noticesTo 0 ended.2)).output = lines)
    (hended : (Console.after (noticesTo 0 ended.2)).ended = some e) :
    (w.report ended).Shows e.exitCode lines := by
  rw [report, hprocess]
  dsimp only
  rw [hended]
  exact ⟨rfl, congrArg linesText houtput⟩

theorem withSources_found (h : w.Hosted path s program) {sources : List String}
    {places : List Place} (hfound : List.Forall₂ w.Finds sources places)
    (go : Settings → List String → TaskResult) :
    w.withSources path sources go = go s (places.map Machine.pathOf) := by
  simp only [withSources, h.loads, mapM_resolve hfound]

theorem isFile_of_finds {sources : List String} {places : List Place}
    (h : List.Forall₂ w.Finds sources places) : ∀ place ∈ places, w.IsFile place := by
  induction h with
  | nil => exact fun place hplace => absurd hplace List.not_mem_nil
  | cons hfinds _ ih => exact List.forall_mem_cons.mpr ⟨hfinds.2, ih⟩

theorem fault?_discovery {places : List Place} (hne : places ≠ []) :
    (StartRequest.discovery (.ofSources (places.map Machine.pathOf))).fault? = none := by
  cases places with
  | nil => exact absurd rfl hne
  | cons place places => rfl

theorem fault?_execution {places : List Place} (hne : places ≠ []) :
    (StartRequest.execution (.ofSources (places.map Machine.pathOf))).fault? = none := by
  cases places with
  | nil => exact absurd rfl hne
  | cons place places => rfl

def testsIn (w : Workplace) (places : List Place) : List (String × Outcome) :=
  (places.flatMap w.script).filterMap SourceLine.test?

theorem map_testsOf (program : String) (hsound : w.machine.tree.Sound) {places : List Place}
    (hfiles : ∀ place ∈ places, w.IsFile place) {α : Type} (first : Nat) (f : ScriptedTest → α)
    (g : String × Outcome → α) (h : ∀ t, f ((w.surroundings program).number t) = g t.1.2) :
    ((w.surroundings program).testsOf first (places.map Machine.pathOf)).map f =
      (w.testsIn places).map g := by
  rw [(w.surroundings program).map_testsOf first _ f g h, flatMap_lines program hsound hfiles]
  rfl

def crashIn? (w : Workplace) (places : List Place) : Option String :=
  (places.flatMap w.script).findSome? SourceLine.crash?

theorem crashIn?_eraseDups (places : List Place) :
    w.crashIn? places.eraseDups = w.crashIn? places := by
  simp only [crashIn?, findSome?_flatMap]
  exact findSome?_eraseDups _ places

theorem length_testsIn_eraseDups (places : List Place) :
    (w.testsIn places.eraseDups).length ≤ (w.testsIn places).length :=
  (((eraseDups_sublist places).flatMap w.script).filterMap _).length_le

theorem outcome_of_mem_testsIn {places : List Place} {t : String × Outcome}
    (h : t ∈ w.testsIn places) : t.2 ∈ [.passed, .failed, .skipped] := by
  obtain ⟨line, hline, ht⟩ := List.mem_filterMap.mp h
  obtain ⟨place, -, hline⟩ := List.mem_flatMap.mp hline
  cases line with
  | crash text => cases ht
  | test name outcome =>
    cases ht
    unfold script at hline
    split at hline
    · split at hline
      · exact SourceLine.outcome_of_mem_parse hline
      · exact absurd hline List.not_mem_nil
    · exact absurd hline List.not_mem_nil

def verdict : String × Outcome → List String
  | (name, .failed) => ["   FAILED  " ++ name, "           scripted failure"]
  | (name, .skipped) => ["  skipped  " ++ name]
  | (name, _) => ["   passed  " ++ name]

def spelled (t : String × Outcome) : List String :=
  (Console.label t.2 ++ "  " ++ t.1) ::
    if t.2 = .failed then ["           scripted failure"] else []

theorem resultLines_result (v : Surroundings) (reading : Nat) (t : ScriptedTest) :
    Console.resultLines (ReferenceHost.result v reading t) =
      spelled (t.testCase.fullyQualifiedName, t.outcome) := by
  unfold Console.resultLines ReferenceHost.result spelled
  by_cases hfailed : t.outcome = .failed
  · simp only [if_pos hfailed]
    rfl
  · simp only [if_neg hfailed]
    rfl

theorem verdict_eq {t : String × Outcome} (h : t.2 ∈ [.passed, .failed, .skipped]) :
    verdict t = spelled t := by
  obtain ⟨name, outcome⟩ := t
  simp only [List.mem_cons, List.not_mem_nil, or_false] at h
  rcases h with rfl | rfl | rfl <;> rfl

theorem isFile_eraseDups {places : List Place} (h : ∀ place ∈ places, w.IsFile place) :
    ∀ place ∈ places.eraseDups, w.IsFile place := by
  intro place hplace
  exact h place (List.mem_eraseDups.mp hplace)

theorem eraseDups_ne_nil {places : List Place} (hne : places ≠ []) : places.eraseDups ≠ [] := by
  obtain ⟨place, hplace⟩ := List.exists_mem_of_ne_nil places hne
  exact List.ne_nil_of_mem (List.mem_eraseDups.mpr hplace)

section

variable {sources : List String} {places : List Place}

theorem names_of_places (hsound : w.machine.tree.Sound)
    (hfiles : ∀ place ∈ places, w.IsFile place) :
    Console.testLines (((w.surroundings program).testsOf 0 (places.map Machine.pathOf)).map
      ScriptedTest.testCase) = (w.testsIn places).map Prod.fst := by
  rw [Console.testLines, List.map_map]
  exact map_testsOf program hsound hfiles 0 _ Prod.fst fun _ => rfl

theorem outcomes_of_places (hsound : w.machine.tree.Sound)
    (hfiles : ∀ place ∈ places, w.IsFile place) (reading : Nat) :
    (ReferenceHost.results (w.surroundings program) reading
      ((w.surroundings program).testsOf 0 (places.map Machine.pathOf))).map TestResult.outcome =
        (w.testsIn places).map Prod.snd := by
  rw [ReferenceHost.map_results _ TestResult.outcome ScriptedTest.outcome fun _ _ => rfl]
  exact map_testsOf program hsound hfiles 0 _ Prod.snd fun _ => rfl

theorem verdicts_of_places (hsound : w.machine.tree.Sound)
    (hfiles : ∀ place ∈ places, w.IsFile place) (reading : Nat) :
    (ReferenceHost.results (w.surroundings program) reading
      ((w.surroundings program).testsOf 0 (places.map Machine.pathOf))).flatMap
        Console.resultLines = (w.testsIn places).flatMap verdict := by
  have hlines := map_testsOf program hsound hfiles 0
    (fun t => spelled (t.testCase.fullyQualifiedName, t.outcome)) spelled fun _ => rfl
  rw [List.flatMap_def, List.flatMap_def, ReferenceHost.map_results _ _ _ (resultLines_result _),
    hlines]
  refine congrArg List.flatten ?_
  exact List.map_congr_left fun t ht => (verdict_eq (outcome_of_mem_testsIn ht)).symm

/-- How long a host takes that runs so many tests as its first run, in whole ticks. -/
def runTime (w : Workplace) (tests : Nat) : Clock.TimeSpan :=
  ((w.clock (3 * tests + 1)).steady.since (w.clock 0).steady).truncated

theorem discover_lists (h : w.Hosted path s program) (hne : places ≠ [])
    (hfound : List.Forall₂ w.Finds sources places)
    (hfits : w.Fits s program (.discovery (.ofSources (places.map Machine.pathOf))))
    (hfree : w.crashIn? places = none) (hmost : (w.testsIn places).length < 2 ^ 63) :
    (w.discover path sources).Shows 0
      ((w.testsIn places).map Prod.fst ++ [s!"{(w.testsIn places).length} test(s) found"]) := by
  have hfiles := isFile_of_finds hfound
  let c : DiscoveryCriteria := .ofSources (places.map Machine.pathOf)
  let found := ((w.surroundings program).testsOf 0 (places.map Machine.pathOf)).map
    ScriptedTest.testCase
  have hcrashFree : (w.surroundings program).CrashFree c.sources := by
    rw [Surroundings.crashFree_iff]
    exact (congrArg (List.findSome? SourceLine.crash?)
      (flatMap_lines program h.sound hfiles)).trans hfree
  obtain ⟨hprocess, items, hnotices, hconclusive, htests, d, hd, htotal, haborted⟩ :=
    operate_reports (r := .discovery c) h (fault?_discovery hne) rfl hne hfiles hfits rfl hcrashFree
  have hnamed : Console.testLines found = (w.testsIn places).map Prod.fst :=
    names_of_places h.sound hfiles
  have hlength : found.length = (w.testsIn places).length := by
    have hlines : (Console.testLines found).length = found.length := List.length_map _
    rw [← hlines, hnamed, List.length_map]
  have hcounted : toString d.total.toInt = toString (w.testsIn places).length := by
    have htotal : d.total = Int64.ofNat found.length := htotal
    rw [htotal, hlength]
    exact Console.text_ofNat hmost
  have htests : (items.map Prod.snd).flatMap Notice.tests = found := htests
  obtain ⟨houtput, hended⟩ := Console.after_discovery hconclusive hd haborted
  rw [htests, hnamed, hcounted, ← hnotices] at houtput
  rw [← hnotices] at hended
  rw [discover, withSources_found h hfound]
  exact report_shows hprocess houtput hended

theorem run_verdicts (h : w.Hosted path s program) (hne : places ≠ [])
    (hfound : List.Forall₂ w.Finds sources places)
    (hfits : w.Fits s program (.execution (.ofSources (places.map Machine.pathOf))))
    (hfree : w.crashIn? places = none) (hmost : (w.testsIn places).length < 2 ^ 63) :
    let ran := w.testsIn places.eraseDups
    (w.run path sources).Shows (if .failed ∈ ran.map Prod.snd then 3 else 0)
      (ran.flatMap verdict ++ [Console.tally (ran.map Prod.snd) (w.runTime ran.length)]) := by
  intro ran
  have hfiles := isFile_of_finds hfound
  have honce := isFile_eraseDups hfiles
  let c : RunCriteria := .ofSources (places.map Machine.pathOf)
  let tests := (w.surroundings program).testsOf 0 (places.eraseDups.map Machine.pathOf)
  let reading := ReferenceHost.fresh.firstReading
  let results := ReferenceHost.results (w.surroundings program) reading tests
  have htouched : c.touched = places.eraseDups.map Machine.pathOf :=
    touched_ofPlaces h.sound hfiles
  have hcrashFree : (w.surroundings program).CrashFree c.touched := by
    rw [Surroundings.crashFree_iff, htouched, flatMap_lines program h.sound honce]
    exact (crashIn?_eraseDups places).trans hfree
  obtain ⟨hprocess, items, hnotices, hconclusive, hresults, last, hlast⟩ :=
    operate_reports (r := .execution c) h (fault?_execution hne) htouched
      (eraseDups_ne_nil hne) honce hfits rfl hcrashFree
  have htests : (w.surroundings program).testsFor ReferenceHost.fresh.nextId c = tests :=
    congrArg ((w.surroundings program).testsOf 0) htouched
  rw [htests] at hresults hlast
  have hresults : (items.map Prod.snd).flatMap Notice.results =
      results.map TestResult.truncated := hresults
  have houtcomes : results.map TestResult.outcome = ran.map Prod.snd :=
    outcomes_of_places h.sound honce reading
  have hverdicts : results.flatMap Console.resultLines = ran.flatMap verdict :=
    verdicts_of_places h.sound honce reading
  have hlength : results.length = ran.length := by
    rw [← List.length_map TestResult.outcome, houtcomes, List.length_map]
  have hfew : results.length < 2 ^ 63 := by
    have hle : ran.length ≤ (w.testsIn places).length := length_testsIn_eraseDups places
    omega
  have helapsed : (ReferenceHost.fresh.elapsed (w.surroundings program) tests).truncated =
      w.runTime ran.length := by
    rw [ReferenceHost.length_results] at hlength
    rw [ReferenceHost.elapsed, ReferenceHost.lastReading, hlength, Nat.add_comm]
    rfl
  obtain ⟨houtput, hended⟩ := Console.after_run hconclusive hresults hlast
  rw [hverdicts, Console.summary_ofResults hfew, houtcomes, helapsed, ← hnotices] at houtput
  rw [← hnotices] at hended
  rw [run, withSources_found h hfound, ← houtcomes, ← Console.exitCode_ofResults hfew, houtcomes]
  exact report_shows hprocess houtput hended

theorem report_crashes {r : StartRequest} (h : w.Hosted path s program) (hfault : r.fault? = none)
    (hsources : r.sources = places.map Machine.pathOf)
    (hloaded : r.loaded = places.map Machine.pathOf) (hne : places ≠ [])
    (hfiles : ∀ place ∈ places, w.IsFile place) (hfits : w.Fits s program r) {text : String}
    (hcrash : w.crashIn? places = some text) :
    (w.report (w.operate s r.kind.manager (r.managed observer))).Shows 2
      (r.kind.abortNotice
        (r.kind.abortReason (OperationKind.exitCause (lastWords s text)))).printed := by
  have hcrashes : (r.loaded.flatMap (w.surroundings program).lines).findSome? SourceLine.crash? =
      some text := by
    rw [hloaded, flatMap_lines program h.sound hfiles]
    exact hcrash
  obtain ⟨hprocess, items, hnotices, hlogs⟩ :=
    operate_crashes h hfault hsources hne hfiles hfits hcrashes
  obtain ⟨houtput, hended⟩ := Console.after_lost r.kind (lastWords s text) hlogs
  rw [← hnotices] at houtput hended
  exact report_shows hprocess houtput hended

theorem discover_crashes (h : w.Hosted path s program) (hne : places ≠ [])
    (hfound : List.Forall₂ w.Finds sources places)
    (hfits : w.Fits s program (.discovery (.ofSources (places.map Machine.pathOf))))
    {text : String} (hcrash : w.crashIn? places = some text) :
    (w.discover path sources).Shows 2 ["discovery aborted"] := by
  rw [discover, withSources_found h hfound]
  exact report_crashes h (fault?_discovery hne) rfl rfl hne (isFile_of_finds hfound) hfits hcrash

theorem run_crashes (h : w.Hosted path s program) (hne : places ≠ [])
    (hfound : List.Forall₂ w.Finds sources places)
    (hfits : w.Fits s program (.execution (.ofSources (places.map Machine.pathOf))))
    {text : String} (hcrash : w.crashIn? places = some text) :
    (w.run path sources).Shows 2
      ["run aborted: " ++
        OperationKind.execution.abortReason (OperationKind.exitCause (lastWords s text))] := by
  have hfiles := isFile_of_finds hfound
  have htouched := touched_ofPlaces h.sound hfiles
  rw [run, withSources_found h hfound]
  exact report_crashes h (fault?_execution hne) htouched htouched (eraseDups_ne_nil hne)
    (isFile_eraseDups hfiles) hfits ((crashIn?_eraseDups places).trans hcrash)

/-- Given files and the reference host, the program lists the tests that the files prescribe and
runs those of each file once, or says that it was aborted if some line makes the host crash. Tests
are counted in 64 bits, so there are fewer than `2 ^ 63` of them. -/
theorem tasks_follow_sources (h : w.Hosted path s program) (hne : sources ≠ [])
    (hfound : List.Forall₂ w.Finds sources places)
    (hlisting : w.Fits s program (.discovery (.ofSources (places.map Machine.pathOf))))
    (hrunning : w.Fits s program (.execution (.ofSources (places.map Machine.pathOf)))) :
    let discovered := w.perform ⟨path, .discover sources⟩
    let ran := w.perform ⟨path, .run sources⟩
    match w.crashIn? places with
    | some text =>
      discovered.Shows 2 ["discovery aborted"] ∧
      ran.Shows 2
        ["run aborted: " ++
          OperationKind.execution.abortReason (OperationKind.exitCause (lastWords s text))]
    | none =>
      let listed := w.testsIn places
      let tests := w.testsIn places.eraseDups
      listed.length < 2 ^ 63 →
      discovered.Shows 0 (listed.map Prod.fst ++ [s!"{listed.length} test(s) found"]) ∧
      ran.Shows (if .failed ∈ tests.map Prod.snd then 3 else 0)
        (tests.flatMap verdict ++
          [Console.tally (tests.map Prod.snd) (w.runTime tests.length)]) := by
  intro discovered ran
  have hplaces : places ≠ [] := by
    rintro rfl
    cases hfound
    exact hne rfl
  cases hcrash : w.crashIn? places with
  | some text =>
    exact ⟨discover_crashes h hplaces hfound hlisting hcrash,
      run_crashes h hplaces hfound hrunning hcrash⟩
  | none =>
    intro hmost
    exact ⟨discover_lists h hplaces hfound hlisting hcrash hmost,
      run_verdicts h hplaces hfound hrunning hcrash hmost⟩

end

def sample (text : String) : Workplace where
  machine := ⟨⟨[(["s"], .directory), (["s", "a"], .file (Text.Utf8.encode text.toList))]⟩, ["s"],
    fun _ => .error .notFound⟩
  network := ⟨true⟩
  isReference := ReferenceHost.isProgram
  process := 1
  hostProcess := 2
  clock := fun n =>
    { Clock.Reading.epoch with
      steady := (Clock.TimeSpan.ofNanos? (Int.ofNat (308641974 * n))).getD .zero }

section

variable (text : String)

theorem file_sample : (sample text).machine.tree.node? ["s", "a"] =
    some (.file (Text.Utf8.encode text.toList)) := rfl

theorem sound_sample : (sample text).machine.tree.Sound := by
  intro e he
  rcases List.mem_cons.mp he with rfl | he
  · refine ⟨by decide +kernel, ?_⟩
    intro n hn
    obtain rfl : n = 0 := Nat.lt_one_iff.mp hn
    rfl
  · have hnames : ∀ name ∈ ["s", "a"], IsName name := by decide +kernel
    rw [List.mem_singleton.mp he]
    refine ⟨hnames, ?_⟩
    intro n hn
    obtain rfl | rfl : n = 0 ∨ n = 1 := by
      change n < 2 at hn
      omega
    · rfl
    · rfl

theorem hosted_sample : (sample text).Hosted "hostlink.toml" .default "testhost" where
  sound := sound_sample text
  loads := by
    -- There is no such file, so the defaults hold. A walk does not evaluate by itself.
    have hsteps : Tree.steps "hostlink.toml" = [.named "hostlink.toml"] := by decide +kernel
    have hlocate : (sample text).machine.tree.locate true (sample text).machine.base
        "hostlink.toml" = .ok ["s", "hostlink.toml"] := by
      rw [Tree.locate, if_neg (by decide +kernel), if_neg (by decide +kernel), hsteps, Tree.walk]
      rfl
    have hcontains : (sample text).machine.tree.contains (sample text).machine.base
        "hostlink.toml" = false := by
      rw [Tree.contains, hlocate]
      rfl
    rw [Settings.load, hcontains]
    rfl
  command := rfl
  reference := by
    change ReferenceHost.isProgram "testhost" = true
    decide +kernel
  reaches := rfl

theorem finds_sample : (sample text).Finds "/s/a" ["s", "a"] :=
  ⟨Tree.locate_pathOf (sound_sample text) (sample text).machine.base (.inr ⟨_, file_sample text⟩),
    _, file_sample text⟩

theorem read_sample : ((sample text).surroundings "testhost").read "/s/a" = .ok text := by
  have hread := Tree.readText_pathOf (sound_sample text) (sample text).machine.base
    (file_sample text)
  rw [Text.Utf8.decode_encode] at hread
  refine (congrArg (Except.mapError SystemFault.message) hread).trans ?_
  exact congrArg Except.ok String.ofList_toList

end

theorem fits_sample : ∀ text ∈ ["!b", "b\ncrash: "],
    (sample text).Fits .default "testhost" (.discovery (.ofSources ["/s/a", "/s/a"])) ∧
      (sample text).Fits .default "testhost" (.execution (.ofSources ["/s/a", "/s/a"])) := by
  have hmost : 2000 ≤ Settings.default.mostFrameOctets.toNat := by decide +kernel
  have honce : RunCriteria.firstSeen
      (Dictionary.empty.insert RunCriteria.noAdapter ["/s/a", "/s/a"]).values.flatten =
        ["/s/a"] := by
    decide +kernel
  intro text htext
  constructor
  · intro m hm
    rw [Message.utf8ByteSize_text]
    refine Nat.le_trans ?_ hmost
    revert text m
    simp only [ReferenceHost.answer, ReferenceHost.discover, DiscoveryCriteria.ofSources,
      ReferenceHost.load, List.foldl_cons, List.foldl_nil, ReferenceHost.loadSource, read_sample]
    decide +kernel
  · intro m hm
    rw [Message.utf8ByteSize_text]
    refine Nat.le_trans ?_ hmost
    revert text m
    simp only [ReferenceHost.answer, ReferenceHost.runSources, ReferenceHost.newTo_empty,
      RunCriteria.ofSources, honce, ReferenceHost.load, List.foldl_cons, List.foldl_nil,
      ReferenceHost.loadSource, read_sample]
    decide +kernel

theorem tasks_follow_sources_repeated :
    let discovers : CommandLine := ⟨"hostlink.toml", .discover ["/s/a", "/s/a"]⟩
    let runs : CommandLine := ⟨"hostlink.toml", .run ["/s/a", "/s/a"]⟩
    ((sample "!b").perform discovers).Shows 0 ["b", "b", "2 test(s) found"] ∧
    ((sample "!b").perform runs).Shows 3 ["   FAILED  b", "           scripted failure",
      "1 executed, 0 passed, 1 failed, 0 skipped in 1.23s"] ∧
    ((sample "b\ncrash: ").perform discovers).Shows 2 ["discovery aborted"] ∧
    ((sample "b\ncrash: ").perform runs).Shows 2
      ["run aborted: The active test run was aborted. Reason: " ++
        "Unable to communicate with test host process."] := by
  intro discovers runs
  have hfinds (text : String) :
      List.Forall₂ (sample text).Finds ["/s/a", "/s/a"] [["s", "a"], ["s", "a"]] :=
    .cons (finds_sample text) (.cons (finds_sample text) .nil)
  obtain ⟨hlisting, hrunning⟩ := fits_sample "!b" (by decide)
  have hreported := tasks_follow_sources (hosted_sample _) (List.cons_ne_nil _ _) (hfinds "!b")
    hlisting hrunning
  have hfree : (sample "!b").crashIn? [["s", "a"], ["s", "a"]] = none := by decide +kernel
  have hlisted : (sample "!b").testsIn [["s", "a"], ["s", "a"]] =
      [("b", .failed), ("b", .failed)] := by
    decide +kernel
  have hran : (sample "!b").testsIn [["s", "a"]] = [("b", .failed)] := by decide +kernel
  have honce : [["s", "a"], ["s", "a"]].eraseDups = [["s", "a"]] := by decide +kernel
  have htally : Console.tally [.failed] ((sample "!b").runTime 1) =
      "1 executed, 0 passed, 1 failed, 0 skipped in 1.23s" := by
    decide +kernel
  rw [hfree] at hreported
  simp only [honce, hlisted, hran] at hreported
  obtain ⟨hlists, hfails⟩ := hreported (by decide)
  obtain ⟨hlisting, hrunning⟩ := fits_sample "b\ncrash: " (by decide)
  have haborted := tasks_follow_sources (hosted_sample _) (List.cons_ne_nil _ _)
    (hfinds "b\ncrash: ") hlisting hrunning
  have hcrash : (sample "b\ncrash: ").crashIn? [["s", "a"], ["s", "a"]] = some "" := by
    decide +kernel
  have hcause : OperationKind.exitCause (lastWords .default "") =
      "Unable to communicate with test host process." := by
    decide +kernel
  rw [hcrash] at haborted
  simp only [hcause] at haborted
  obtain ⟨hloses, hcrashes⟩ := haborted
  exact ⟨hlists, htally ▸ hfails, hloses, hcrashes⟩

end Workplace

end HostedTests
