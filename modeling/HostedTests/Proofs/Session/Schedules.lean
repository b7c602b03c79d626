import HostedTests.Proofs.Session.Completion
import HostedTests.Proofs.Session.Exchange
import HostedTests.Proofs.Statistics

namespace HostedTests

theorem Server.tells_of_start {server : Server} (h : server.start.1 = .ok ()) :
    server.start.2.tells = true := by
  unfold start at h ⊢
  dsimp only at h ⊢
  cases hrefusal : server.refusal with
  | some f =>
    rw [hrefusal] at h
    cases h
  | none =>
    rw [hrefusal] at h
    dsimp only at h
    split at h
    · cases h
    · rename_i hfree
      dsimp only
      rw [if_neg hfree]

theorem flatMap_echoed {α : Type} (f : Notice → List α) (hraw : ∀ text, f (.raw text) = [])
    (items : List (String × Notice)) :
    (echoed items).flatMap f = (items.map Prod.snd).flatMap f := by
  rw [echoed, List.flatMap_assoc, List.flatMap_map]
  refine List.flatMap_congr fun i _ => ?_
  rw [List.flatMap_cons, hraw, List.nil_append, List.flatMap_singleton]

theorem getLast?_echoed (items : List (String × Notice)) :
    (echoed items).getLast? = (items.map Prod.snd).getLast? := by
  rcases List.eq_nil_or_concat items with rfl | ⟨before, i, rfl⟩
  · rfl
  · rw [List.concat_eq_append, List.map_append, echoed, List.flatMap_append, List.flatMap_singleton]
    simp

theorem mem_echoed {n : Notice} {items : List (String × Notice)} (h : n ∈ echoed items) :
    (∃ text, n = .raw text) ∨ n ∈ items.map Prod.snd := by
  obtain ⟨i, hi, hn⟩ := List.mem_flatMap.mp h
  rcases List.mem_cons.mp hn with rfl | hn
  · exact Or.inl ⟨i.1, rfl⟩
  · rw [List.mem_singleton.mp hn]
    exact Or.inr (List.mem_map_of_mem hi)

namespace Surroundings

variable (w : Surroundings)

/-- An observer was told all the tests or all the results that the sources prescribe for a request to
a host, each once and in order, and the completion last, which counts them. -/
def Delivered (h : ReferenceHost) : StartRequest → List Notice → Prop
  | .discovery c, ns =>
    let tests := (w.testsOf h.nextId c.sources).map ScriptedTest.testCase
    ns.flatMap Notice.tests = tests ∧
      ∃ d, ns.getLast? = some (.discoveryComplete d) ∧
        d.total = Int64.ofNat tests.length ∧ d.isAborted = false
  | .execution c, ns =>
    let tests := w.testsFor h.nextId c
    let results := ReferenceHost.results w h.firstReading tests
    ns.flatMap Notice.results = results.map TestResult.truncated ∧
      ∃ report statistics, ns.getLast? = some (.runComplete report) ∧
        report.runEnd.elapsed = (h.elapsed w tests).truncated ∧
        report.runEnd.statistics = some statistics ∧
        statistics.executed = Int64.ofNat results.length ∧
        (∀ o, statistics.count o = Int64.ofNat (results.countP fun r => r.outcome = o)) ∧
        report.runEnd.isCanceled = false ∧ report.runEnd.isAborted = false

theorem delivered_of_reported {h : ReferenceHost} {r : StartRequest}
    {items : List (String × Notice)} (hreported : w.Reported h r (items.map Prod.snd))
    (hc : Concludes true (items.map Prod.snd)) : w.Delivered h r (echoed items) := by
  cases r with
  | discovery c =>
    obtain ⟨htests, d, hd, htotal, haborted⟩ := hreported
    refine ⟨(flatMap_echoed _ (fun _ => rfl) items).trans htests, d, ?_, htotal, haborted⟩
    exact (getLast?_echoed items).trans (hc.getLast? hd rfl)
  | execution c =>
    obtain ⟨hresults, last, hlast⟩ := hreported
    refine ⟨(flatMap_echoed _ (fun _ => rfl) items).trans hresults, _, _,
      (getLast?_echoed items).trans (hc.getLast? hlast rfl), rfl, rfl, ?_, ?_, rfl, rfl⟩
    · exact RunStatistics.executed_ofResults _
    · exact RunStatistics.count_ofResults _

theorem unaborted_of_reported {h : ReferenceHost} {r : StartRequest}
    {items : List (String × Notice)} (hreported : w.Reported h r (items.map Prod.snd))
    (hc : Concludes true (items.map Prod.snd)) (reason : String) :
    r.kind.abortNotice reason ∉ items.map Prod.snd := by
  intro hmem
  have habort := hc.getLast? hmem (r.kind.isCompletion_abortNotice reason)
  cases r with
  | discovery c =>
    obtain ⟨-, d, hd, -, haborted⟩ := hreported
    rw [hc.getLast? hd rfl] at habort
    cases habort
    cases haborted
  | execution c =>
    obtain ⟨-, last, hlast⟩ := hreported
    rw [hc.getLast? hlast rfl] at habort
    cases habort

end Surroundings

namespace Session

section

variable (server : Server) (collector : Collector) (host : HostBehaviour) (exitWait : Nat)

def joined : Session :=
  { fresh server.start.2 collector none host exitWait with channel := some 0, connected := true }

theorem after_listen_connect (hserver : server.start.1 = .ok ()) :
    (fresh server collector none host exitWait).after [.listen, .connect] =
      joined server collector host exitWait := by
  have htells := Server.tells_of_start hserver
  let up := fresh server.start.2 collector none host exitWait
  have hlisten : (fresh server collector none host exitWait).listen.2 =
      if server.start.2.greets then up.connect 0 else up := by
    have hstart : (fresh server collector none host exitWait).server.start =
        (.ok (), server.start.2) := Prod.ext hserver rfl
    simp only [listen, hstart]
    cases port? server.start.2.connection <;> rfl
  change (((fresh server collector none host exitWait).step .quiet [] .listen).2.step .quiet []
    .connect).2 = _
  rw [step_listen, hlisten]
  cases server.start.2.greets <;> exact if_pos htells

theorem listens_requested (r : StartRequest) (observer : Observer) (paths : List String)
    (hserver : server.start.1 = .ok ()) (hfault : r.fault? = none) :
    let s := (fresh server collector none host exitWait).after
      [.listen, .connect, .sendExtensions r.kind paths, r.step observer]
    s.Listens observer 0 0 r.kind [] ∧
      Conversation.sentAfter 0 s = [(r.kind.extensionsMessage paths).text, r.message.text] := by
  intro s
  let ready := (joined server collector host exitWait).note
    (.sent 0 (r.kind.extensionsMessage paths).text)
  have hready : s = (ready.step .quiet [] (r.step observer)).2 := by
    have hsplit := after_append (fresh server collector none host exitWait) [.listen, .connect]
      [.sendExtensions r.kind paths, r.step observer]
    exact hsplit.trans (congrArg
      (fun t : Session => t.after [.sendExtensions r.kind paths, r.step observer])
      (after_listen_connect server collector host exitWait hserver))
  have hfree : ready.startFault? r = none := by
    rw [startFault?_eq_none_iff]
    exact ⟨rfl, hfault, ⟨0, rfl⟩, rfl⟩
  have hstep := step_start_accepted ready r observer 0 hfree rfl
  have hlistens : ((ready.welcome observer [] false).register 0 ⟨.fresh r.kind, 0⟩ |>.note
      (.sent 0 r.message.text)).Listens observer 0 0 r.kind [] :=
    listens_register r.kind r.message.text rfl rfl rfl Nat.zero_lt_one rfl rfl rfl
  rw [hready, hstep]
  exact ⟨hlistens, rfl⟩

end

end Session

/-- However a session and the reference host take their turns, the operation can go on until it is
completed and is not aborted, and the host does not fail. Once it is completed, its observer was
told what the sources prescribe. -/
theorem Exchange.reports_in_every_order (server : Server) (collector : Collector)
    (host : HostBehaviour) (exitWait : Nat) (r : StartRequest) (observer : Observer)
    (paths : List String) (w : Surroundings) (turns : List Turn)
    (hserver : server.start.1 = .ok ()) (hfault : r.fault? = none)
    (hfree : w.CrashFree r.sources)
    (hdebugger : ∃ process, observer.debugger w.debuggee = .ok process) :
    let s := (Session.fresh server collector none host exitWait).after
      [.listen, .connect, .sendExtensions r.kind paths, r.step observer]
    let e := (Exchange.ofSession s).after w turns
    ∃ op heard, e.session.operations[0]? = some op ∧ op.party = 0 ∧ op.state.kind = r.kind ∧
      e.session.told 0 = echoed heard ∧ (∀ i ∈ heard, r.kind.Means i.1 i.2) ∧
      (∀ reason, r.kind.abortNotice reason ∉ e.session.told 0) ∧
      (∀ failure, e.host.phase ≠ .ended failure) ∧
      (op.state.completed = false → ∃ turn, e.next? w turn ≠ none) ∧
      (∃ more op', (e.after w more).session.operations[0]? = some op' ∧
        op'.state.completed = true) ∧
      (op.state.completed = true → w.Delivered .fresh r (e.session.told 0)) := by
  intro s e
  obtain ⟨process, hprocess⟩ := hdebugger
  obtain ⟨hlistens, hsent⟩ := Session.listens_requested server collector host exitWait r observer
    paths hserver hfault
  let extended : ReferenceHost := { ReferenceHost.fresh with extensions := paths }
  obtain ⟨items, last, hdialogue, hserving, c, hreported⟩ :=
    Dialogue.start (h := extended) rfl hfree hprocess
  have hstart : Underway w observer r.kind items last (Exchange.ofSession s) [] [] [] items := by
    refine ⟨hlistens, rfl, rfl, rfl, ?_⟩
    change Dialogue w observer .fresh (Conversation.sentAfter 0 s ++ []) items last
    rw [List.append_nil, hsent]
    have hextensions := ReferenceHost.receive_extensions (w := w) (h := .fresh) rfl r.kind paths
    exact .hears hextensions (List.map_nil.trans List.map_nil.symm) hdialogue
  obtain ⟨heard, sent, waiting, more, u⟩ := hstart.after c turns
  refine ⟨_, heard, u.listens.registered, rfl, rfl, u.listens.told, ?_, ?_, ?_, ?_, ?_, ?_⟩
  · intro i hi
    exact c.means i (u.heard_subset hi)
  · intro reason hmem
    rw [u.listens.told] at hmem
    rcases mem_echoed hmem with ⟨text, htext⟩ | hmem
    · have hcompletion := r.kind.isCompletion_abortNotice reason
      rw [htext] at hcompletion
      cases hcompletion
    · obtain ⟨i, hi, hn⟩ := List.mem_map.mp hmem
      exact w.unaborted_of_reported hreported c.concludes reason
        (List.mem_map.mpr ⟨i, u.heard_subset hi, hn⟩)
  · exact u.dialogue.not_ended hserving
  · intro hopen
    by_contra hstuck
    have hnone : ∀ turn, e.next? w turn = none := by
      intro turn
      by_contra hturn
      exact hstuck ⟨turn, hturn⟩
    rw [u.heard_of_stuck hnone] at hopen
    exact Bool.noConfusion (hopen.symm.trans c.concludes.any)
  · obtain ⟨rest, hfinished⟩ := u.finishes c
    exact ⟨rest, _, hfinished.registered, c.concludes.any⟩
  · intro hcompleted
    rw [u.listens.told, u.heard_of_completed c hcompleted]
    exact w.delivered_of_reported hreported c.concludes

theorem Exchange.reports_in_every_order_debugged :
    let later : Clock.Instant := ⟨Clock.Instant.epoch.date, ⟨0, 0, 1, 50, by decide⟩⟩
    let w : Surroundings := ⟨fun _ => .ok "a\n!b\n~c", Uuid.numbered,
      fun n => if n < 3 then .epoch else ⟨later, .zero, by decide⟩, "testhost"⟩
    let observer : Observer := ⟨"debugging", fun _ => .ok 7⟩
    let test : TestCase := .named (.numbered 2) "b" ReferenceHost.executorUri "s"
    let r : StartRequest := .execution (.tests ⟨[test], "", ⟨10, true, false, true, none⟩⟩)
    let s := (Session.fresh (.fresh "4000" none false true) .idle none .elsewhere 0).after
      [.listen, .connect, .sendExtensions r.kind [], r.step observer]
    let e := (Exchange.ofSession s).after w [.host, .host, .host, .runner]
    ∃ op, e.session.operations[0]? = some op ∧
      (op.state.completed = false → ∃ turn, e.next? w turn ≠ none) ∧
      (op.state.completed = true →
        ((e.session.told 0).flatMap Notice.results).map
            (fun r => (r.outcome, r.startTime, r.endTime, r.duration)) =
          [(.failed, .epoch, later, { seconds := 1, nanos := 0 })]) := by
  intro later w observer test r
  have hfree : w.CrashFree r.sources := by
    intro source _ text hmem
    have hlines : SourceLine.parse "a\n!b\n~c" =
        [.test "a" .passed, .test "b" .failed, .test "c" .skipped] := by decide +kernel
    change SourceLine.crash text ∈ SourceLine.parse "a\n!b\n~c" at hmem
    rw [hlines] at hmem
    simp at hmem
  have h :=
    reports_in_every_order (.fresh "4000" none false true) .idle .elsewhere 0 r observer [] w
      [.host, .host, .host, .runner] rfl rfl hfree ⟨7, rfl⟩
  obtain ⟨op, heard, hop, -, -, -, -, -, -, hgoes, -, hdelivered⟩ := h
  refine ⟨op, hop, hgoes, ?_⟩
  intro hcompleted
  rw [(hdelivered hcompleted).1]
  decide +kernel

end HostedTests
