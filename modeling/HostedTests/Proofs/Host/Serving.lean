import HostedTests.Proofs.Host.Prescribing
import HostedTests.Proofs.Host.Reporting
import HostedTests.Proofs.Session.Listening

namespace HostedTests

def RunCriteria.loaded : RunCriteria → List String
  | .sources c => firstSeen c.adapterSources.values.flatten
  | .tests c => ReferenceHost.sourcesOf c.tests

theorem RunCriteria.mem_loaded (c : RunCriteria) (source : String) :
    source ∈ c.loaded ↔ source ∈ c.touched := by
  cases c with
  | sources c => exact Iff.rfl
  | tests c =>
    have hseen := mem_firstSeen (c.tests.map TestCase.source) source
    exact (ReferenceHost.mem_sourcesOf c.tests source).trans hseen.symm

def StartRequest.loaded : StartRequest → List String
  | discovery c => c.sources
  | execution c => c.loaded

def StartRequest.isDebug : StartRequest → Bool
  | discovery _ => false
  | execution c => c.context.isDebug

namespace Surroundings

variable (w : Surroundings)

def Reported (h : ReferenceHost) : StartRequest → List Notice → Prop
  | .discovery c, ns =>
    let tests := (w.testsOf h.nextId c.sources).map ScriptedTest.testCase
    ns.flatMap Notice.tests = tests ∧
      ∃ d, .discoveryComplete d ∈ ns ∧ d.total = Int64.ofNat tests.length ∧ d.isAborted = false
  | .execution c, ns =>
    let tests := w.testsFor h.nextId c
    let results := ReferenceHost.results w h.firstReading tests
    ns.flatMap Notice.results = results.map TestResult.truncated ∧
      ∃ last, .runComplete (ReferenceHost.finalReport (h.elapsed w tests) results last) ∈ ns

theorem reported_after {h : ReferenceHost} {r : StartRequest} {ns ms : List Notice}
    (hns : ∀ n ∈ ns, n.tests = [] ∧ n.results = []) (hms : w.Reported h r ms) :
    w.Reported h r (ns ++ ms) := by
  cases r with
  | discovery c =>
    obtain ⟨htests, d, hd, hcounts⟩ := hms
    have hnone : ns.flatMap Notice.tests = [] :=
      List.flatMap_eq_nil_iff.mpr fun n hn => (hns n hn).1
    refine ⟨?_, d, List.mem_append_right _ hd, hcounts⟩
    rw [List.flatMap_append, hnone, htests, List.nil_append]
  | execution c =>
    obtain ⟨hresults, last, hlast⟩ := hms
    have hnone : ns.flatMap Notice.results = [] :=
      List.flatMap_eq_nil_iff.mpr fun n hn => (hns n hn).2
    refine ⟨?_, last, List.mem_append_right _ hlast⟩
    rw [List.flatMap_append, hnone, hresults, List.nil_append]

end Surroundings

namespace ReferenceHost

variable (w : Surroundings)

def answer (h : ReferenceHost) : StartRequest → List Message × ReferenceHost
  | .discovery c => h.discover w c
  | .execution (.sources c) => h.runSources w c
  | .execution (.tests c) => h.runTests w c

variable {w} {h : ReferenceHost}

theorem receive_message (hserving : h.phase = .serving) {text : String} {m : Message}
    (hm : Message.parse text = .ok m) : h.receive w (.text text) = h.serve w m := by
  simp only [receive, hserving, hm]

theorem expect_carried {α : Type} [Payload α] {m : Message} {a : α}
    (hrequire : (m.require : Except Message.Fault α) = .ok a)
    (go : α → List Message × ReferenceHost) : h.expect m.require go = go a := by
  rw [hrequire, expect]

theorem receive_extensions (hserving : h.phase = .serving) (k : OperationKind)
    (paths : List String) :
    h.receive w (.text (k.extensionsMessage paths).text) =
      ([], { h with extensions := paths }) := by
  cases k with
  | discovery =>
    obtain ⟨m, hm, hkind, hbind⟩ := Message.bind_optional_texts .discoveryInitialize paths
    refine (receive_message hserving hm).trans ?_
    rw [serve, hkind]
    dsimp only
    rw [hbind]
    rfl
  | execution =>
    obtain ⟨m, hm, hkind, hbind⟩ := Message.bind_optional_texts .executionInitialize paths
    refine (receive_message hserving hm).trans ?_
    rw [serve, hkind]
    dsimp only
    rw [hbind]
    rfl

theorem receive_start (hserving : h.phase = .serving) (r : StartRequest) :
    h.receive w (.text r.message.text) = h.answer w r := by
  cases r with
  | discovery c =>
    obtain ⟨m, hm, hkind, hrequire⟩ := Message.carries_exact (α := DiscoveryCriteria) rfl
      (by decide) .startDiscovery c
    refine (receive_message hserving hm).trans ?_
    rw [serve, hkind]
    exact expect_carried hrequire _
  | execution c =>
    cases c with
    | sources c =>
      obtain ⟨m, hm, hkind, hrequire⟩ := Message.carries_exact (α := SourcesCriteria) rfl
        (by decide) .startRunWithSources c
      refine (receive_message hserving hm).trans ?_
      rw [serve, hkind]
      exact expect_carried hrequire _
    | tests c =>
      obtain ⟨m, hm, hkind, hrequire⟩ := Message.carries_exact (α := TestsCriteria) rfl
        (by decide) .startRunWithTests c
      refine (receive_message hserving hm).trans ?_
      rw [serve, hkind]
      exact expect_carried hrequire _

theorem receive_launched {tests : List ScriptedTest} {context : ExecutionContext}
    (hattaching : h.phase = .attaching tests context) (process : Int32) :
    h.receive w (.text (Message.carrying .launchedUnderDebugger process).text) =
      let ran := { h with phase := .serving }.reportRun w tests context
      (remark .informational s!"debugger attached to process {process}" :: ran.1, ran.2) := by
  obtain ⟨m, hm, hkind, hrequire⟩ := Message.carries_exact (α := Int32) rfl (by decide)
    .launchedUnderDebugger process
  simp only [receive, hattaching, hm]
  rw [attach, if_pos hkind]
  exact expect_carried hrequire _

theorem answer_discovery {c : DiscoveryCriteria} (hfree : w.CrashFree c.sources) :
    ∃ n, h.answer w (.discovery c) =
      (c.sources.filterMap w.warning? ++
        reportDiscovery ((w.testsOf h.nextId c.sources).map ScriptedTest.testCase) c.frequency,
        { h with nextId := n }) := by
  refine ⟨h.nextId + (w.scripted c.sources).length, ?_⟩
  rw [answer, discover, load_crashFree w h.nextId hfree]
  rfl

theorem answer_execution {c : RunCriteria} (hfree : w.CrashFree c.touched) :
    ∃ n, h.answer w (.execution c) =
      let ran := { h with nextId := n }.run w (w.testsFor h.nextId c) c.context
      (c.loaded.filterMap w.warning? ++ ran.1, ran.2) := by
  have hloaded : w.CrashFree c.loaded := by
    intro source hmem
    exact hfree source ((c.mem_loaded source).mp hmem)
  refine ⟨h.nextId + (w.scripted c.loaded).length, ?_⟩
  cases c with
  | sources c =>
    have hload : load w h.nextId (RunCriteria.sources c).touched = _ :=
      load_crashFree w h.nextId hloaded
    rw [answer, runSources_eq, hload]
    rfl
  | tests c =>
    have hload := load_crashFree w h.nextId hloaded
    rw [RunCriteria.loaded] at hload
    have houtcomes : (c.tests.map fun t : TestCase =>
        (⟨t, outcomeOf (w.testsOf h.nextId (sourcesOf c.tests)) t⟩ : ScriptedTest)) =
          c.tests.map fun t => ⟨t, w.outcome t⟩ := by
      apply List.map_congr_left
      intro t ht
      rw [w.outcomeOf_testsOf]
      exact (mem_sourcesOf c.tests t.source).mpr (List.mem_map_of_mem ht)
    rw [answer, runTests, hload]
    dsimp only [afterLoad]
    rw [houtcomes]
    rfl

theorem answer_afterLoad (r : StartRequest) :
    ∃ go, h.answer w r = h.afterLoad (load w h.nextId r.loaded) go := by
  let l := load w h.nextId r.loaded
  cases r with
  | discovery c =>
    exact ⟨fun h => (reportDiscovery (l.tests.map (·.testCase)) c.frequency, h), rfl⟩
  | execution c =>
    cases c with
    | sources c => exact ⟨fun h => h.run w l.tests c.context, runSources_eq w h c⟩
    | tests c =>
      exact ⟨fun h => h.run w (c.tests.map fun t => ⟨t, outcomeOf l.tests t⟩) c.context, rfl⟩

theorem answer_crashes (r : StartRequest) {text : String}
    (hcrash : (r.loaded.flatMap w.lines).findSome? SourceLine.crash? = some text) :
    ∃ ms host, h.answer w r = (ms, host) ∧ host.phase = .ended (.crashed text) ∧
      ∀ m ∈ ms, ∃ source, w.warning? source = some m := by
  obtain ⟨hload, hsent⟩ := load_crash w h.nextId r.loaded
  rw [hcrash] at hload
  let crashed : ReferenceHost := { h with nextId := (load w h.nextId r.loaded).nextId }
  refine ⟨_, crashed.finish (.crashed text), ?_, rfl, hsent⟩
  obtain ⟨go, hgo⟩ := answer_afterLoad (w := w) (h := h) r
  rw [hgo, afterLoad, hload]

theorem answer_extended (paths : List String) (r : StartRequest) :
    (({ h with extensions := paths } : ReferenceHost).answer w r).1 = (h.answer w r).1 := by
  have hafter (l : Loaded) (go go' : ReferenceHost → List Message × ReferenceHost)
      (hgo : ∀ n, (go { h with extensions := paths, nextId := n }).1 =
        (go' { h with nextId := n }).1) :
      (({ h with extensions := paths } : ReferenceHost).afterLoad l go).1 =
        (h.afterLoad l go').1 := by
    unfold afterLoad
    cases l.crash with
    | some text => rfl
    | none => exact congrArg (l.sent ++ ·) (hgo l.nextId)
  have hrun (tests : List ScriptedTest) (context : ExecutionContext) (n : Nat) :
      (({ h with extensions := paths, nextId := n } : ReferenceHost).run w tests context).1 =
        (({ h with nextId := n } : ReferenceHost).run w tests context).1 := by
    unfold run
    split <;> rfl
  cases r with
  | discovery c => exact hafter _ _ _ fun _ => rfl
  | execution c =>
    cases c with
    | sources c => exact hafter _ _ _ (hrun _ _)
    | tests c => exact hafter _ _ _ (hrun _ _)

theorem receiveAll_request (hserving : h.phase = .serving) (paths : List String)
    (r : StartRequest) :
    let answered := ({ h with extensions := paths } : ReferenceHost).answer w r
    h.receiveAll w [.text (r.kind.extensionsMessage paths).text, .text r.message.text] =
      ([[], answered.1], answered.2) := by
  have hextensions := receive_extensions (w := w) hserving r.kind paths
  have hstart := receive_start (w := w) (h := { h with extensions := paths }) hserving r
  simp only [receiveAll, hextensions, hstart]

theorem undelivering_logs {items : List (String × Notice)} (h : ∀ i ∈ items, i.2.kind = .log) :
    ∀ n ∈ items.map Prod.snd, n.tests = [] ∧ n.results = [] := by
  intro n hn
  obtain ⟨i, hi, rfl⟩ := List.mem_map.mp hn
  have hlog := h i hi
  generalize i.2 = m at hlog
  cases m <;> cases hlog
  exact ⟨rfl, rfl⟩

theorem warned (k : OperationKind) (sources : List String) :
    ∃ items, Reports k false (sources.filterMap w.warning?) items ∧
      ∀ n ∈ items.map Prod.snd, n.tests = [] ∧ n.results = [] := by
  have hwarnings : ∀ m ∈ sources.filterMap w.warning?, ∃ source, w.warning? source = some m := by
    intro m hm
    obtain ⟨source, -, hsource⟩ := List.mem_filterMap.mp hm
    exact ⟨source, hsource⟩
  obtain ⟨items, hreports, hlogs⟩ := reports_warnings w k hwarnings
  exact ⟨items, hreports, undelivering_logs hlogs⟩

theorem answer_reports {r : StartRequest} (hfree : w.CrashFree r.sources)
    (hplain : r.isDebug = false) :
    ∃ ms items n m, h.answer w r = (ms, { h with nextId := n, nextReading := m }) ∧
      Reports r.kind true ms items ∧ w.Reported h r (items.map Prod.snd) := by
  obtain ⟨warnings, hwarned, hnothing⟩ := warned (w := w) r.kind r.loaded
  cases r with
  | discovery c =>
    obtain ⟨n, hanswer⟩ := answer_discovery (h := h) hfree
    obtain ⟨items, d, hreports, htests, hd, htotal, haborted⟩ :=
      reports_discovery ((w.testsOf h.nextId c.sources).map ScriptedTest.testCase) c.frequency
    refine ⟨_, _, n, h.nextReading, hanswer, hwarned.append hreports, ?_⟩
    rw [List.map_append]
    exact w.reported_after hnothing ⟨htests, d, hd, htotal, haborted⟩
  | execution c =>
    obtain ⟨n, hanswer⟩ := answer_execution (h := h) hfree
    obtain ⟨items, last, hreports, hresults, hlast⟩ :=
      reports_run w h (w.testsFor h.nextId c) c.context
    have hgoes : ¬c.context.isDebug = true := ne_true_of_eq_false hplain
    refine ⟨_, _, n, h.lastReading (w.testsFor h.nextId c) + 1, hanswer.trans ?_,
      hwarned.append hreports, ?_⟩
    · dsimp only
      rw [run, if_neg hgoes]
      rfl
    · rw [List.map_append]
      exact w.reported_after hnothing ⟨hresults, last, hlast⟩

theorem answer_launches {c : RunCriteria} (hfree : w.CrashFree c.touched)
    (hdebug : c.context.isDebug = true) :
    ∃ n, h.answer w (.execution c) =
      (c.loaded.filterMap w.warning? ++ [.carrying .launchUnderDebugger w.debuggee],
        { h with nextId := n, phase := .attaching (w.testsFor h.nextId c) c.context }) := by
  obtain ⟨n, hanswer⟩ := answer_execution (h := h) hfree
  refine ⟨n, hanswer.trans ?_⟩
  dsimp only
  rw [run, if_pos hdebug]

end ReferenceHost

theorem Surroundings.debugger_asked (w : Surroundings) (sources : List String)
    {observer : Observer} {process : Int32}
    (hdebugger : observer.debugger w.debuggee = .ok process) :
    ∃ items : List (String × Notice),
      (sources.filterMap w.warning? ++
        [Message.carrying .launchUnderDebugger w.debuggee]).map Message.text =
          items.map Prod.fst ∧
      (∀ i ∈ items, OperationKind.execution.Means i.1 i.2 ∧ observer.Copes i.2) ∧
      Concludes false (items.map Prod.snd) ∧
      (∀ n ∈ items.map Prod.snd, n.tests = [] ∧ n.results = []) ∧
      observer.repliesTo items = [(Message.carrying .launchedUnderDebugger process).text] := by
  obtain ⟨warnings, hwarned, hnothing⟩ := ReferenceHost.warned (w := w) .execution sources
  let launch : String × Notice :=
    ((Message.carrying .launchUnderDebugger w.debuggee).text, .launchUnderDebugger w.debuggee)
  have hlaunch : OperationKind.execution.Means launch.1 launch.2 :=
    .launchUnderDebugger _ w.debuggee (Message.carries_startInfo .launchUnderDebugger rfl)
  have hcopes : observer.Copes launch.2 := by
    intro info' h
    cases h
    exact ⟨process, hdebugger⟩
  refine ⟨warnings ++ [launch], ?_, ?_, ?_, ?_, ?_⟩
  · rw [List.map_append, List.map_append, hwarned.texts]
    rfl
  · intro i hi
    rcases List.mem_append.mp hi with hi | hi
    · exact ⟨hwarned.means i hi, (observer.replies_of_launchless (hwarned.launchless i hi)).2⟩
    · rw [List.mem_singleton.mp hi]
      exact ⟨hlaunch, hcopes⟩
  · rw [List.map_append]
    exact hwarned.concludes.append (concludes_single launch.2 rfl)
  · rw [List.map_append]
    exact List.forall_mem_append.mpr ⟨hnothing, List.forall_mem_singleton.mpr ⟨rfl, rfl⟩⟩
  · have hnone := observer.repliesTo_launchless hwarned.launchless
    have hreply : observer.replies launch.2 =
        [(Message.carrying .launchedUnderDebugger process).text] := by
      simp only [launch, Observer.replies, hdebugger]
    rw [Observer.repliesTo] at hnone ⊢
    rw [List.flatMap_append, hnone, List.flatMap_singleton, hreply]
    rfl

/-- With these texts to hear, and the replies to all that it says, the host says this much and is
then as given. -/
inductive Dialogue (w : Surroundings) (observer : Observer) :
    ReferenceHost → List String → List (String × Notice) → ReferenceHost → Prop where
  | silence (h : ReferenceHost) : Dialogue w observer h [] [] h
  | hears {h h' h'' : ReferenceHost} {text : String} {texts : List String} {ms : List Message}
    {items more : List (String × Notice)} :
    h.receive w (.text text) = (ms, h') → ms.map Message.text = items.map Prod.fst →
    Dialogue w observer h' (texts ++ observer.repliesTo items) more h'' →
    Dialogue w observer h (text :: texts) (items ++ more) h''

structure Conclusive (k : OperationKind) (observer : Observer) (items : List (String × Notice)) :
    Prop where
  means : ∀ i ∈ items, k.Means i.1 i.2
  copes : ∀ i ∈ items, observer.Copes i.2
  concludes : Concludes true (items.map Prod.snd)

theorem Reports.conclusive {k : OperationKind} {ms : List Message}
    {items : List (String × Notice)} (h : Reports k true ms items) (observer : Observer) :
    Conclusive k observer items where
  means := h.means
  copes := fun i hi => (observer.replies_of_launchless (h.launchless i hi)).2
  concludes := h.concludes

namespace Dialogue

variable {w : Surroundings} {observer : Observer} {h h' : ReferenceHost}

theorem last {text : String} {ms : List Message} {k : OperationKind} {b : Bool}
    {items : List (String × Notice)} (hreceive : h.receive w (.text text) = (ms, h'))
    (hreports : Reports k b ms items) : Dialogue w observer h [text] items h' := by
  have hsilence : Dialogue w observer h' ([] ++ observer.repliesTo items) [] h' := by
    rw [observer.repliesTo_launchless hreports.launchless]
    exact .silence h'
  have hlast := hears hreceive hreports.texts hsilence
  rwa [List.append_nil] at hlast

theorem start (hserving : h.phase = .serving) {r : StartRequest} (hfree : w.CrashFree r.sources)
    {process : Int32} (hdebugger : observer.debugger w.debuggee = .ok process) :
    ∃ items h', Dialogue w observer h [r.message.text] items h' ∧ h'.phase = .serving ∧
      Conclusive r.kind observer items ∧ w.Reported h r (items.map Prod.snd) := by
  have hreceive := ReferenceHost.receive_start (w := w) hserving r
  cases hdebug : r.isDebug with
  | false =>
    obtain ⟨ms, items, n, m, hanswer, hreports, hreported⟩ :=
      ReferenceHost.answer_reports (h := h) hfree hdebug
    exact ⟨items, _, last (hreceive.trans hanswer) hreports, hserving,
      hreports.conclusive observer, hreported⟩
  | true =>
    cases r with
    | discovery c => cases hdebug
    | execution c =>
      obtain ⟨n, hanswer⟩ := ReferenceHost.answer_launches (h := h) hfree hdebug
      obtain ⟨asked, htexts, hasked, hongoing, hnothing, hreplies⟩ :=
        w.debugger_asked c.loaded hdebugger
      obtain ⟨items, last, hreports, hresults, hlast⟩ :=
        ReferenceHost.reports_run w h (w.testsFor h.nextId c) c.context
      let attaching : ReferenceHost :=
        { h with nextId := n, phase := .attaching (w.testsFor h.nextId c) c.context }
      let attached := s!"debugger attached to process {process}"
      have hlaunched := ReferenceHost.receive_launched (w := w) (h := attaching) rfl process
      have hattached := ReferenceHost.means_remark .execution .informational attached
      have hrest := hreports.cons hattached rfl Notice.Kind.noConfusion
      have hafter : Dialogue w observer attaching _ _ _ := .last hlaunched hrest
      rw [← hreplies, ← List.nil_append (observer.repliesTo asked)] at hafter
      refine ⟨_, _, .hears (hreceive.trans hanswer) htexts hafter, rfl, ⟨?_, ?_, ?_⟩, ?_⟩
      · exact List.forall_mem_append.mpr ⟨fun i hi => (hasked i hi).1, hrest.means⟩
      · exact List.forall_mem_append.mpr
          ⟨fun i hi => (hasked i hi).2, (hrest.conclusive observer).copes⟩
      · rw [List.map_append]
        exact hongoing.append hrest.concludes
      · rw [List.map_append, List.map_cons]
        have hremark : ∀ n ∈ [Notice.log .informational attached], n.tests = [] ∧ n.results = [] :=
          List.forall_mem_singleton.mpr ⟨rfl, rfl⟩
        exact w.reported_after hnothing (w.reported_after hremark ⟨hresults, last, hlast⟩)

end Dialogue

end HostedTests
