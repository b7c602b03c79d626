import HostedTests.Proofs.Console.Program
import HostedTests.Proofs.Session.Managed

namespace HostedTests

namespace Conversation

def Leads (c d : Conversation) : Prop := c.session.Reaches (fun _ => True) d.session

theorem leads_of_eq {c d : Conversation} (h : d.session = c.session) : c.Leads d := .of_eq h

theorem Leads.trans {c d e : Conversation} (h : c.Leads d) (h' : d.Leads e) : c.Leads e :=
  Session.Reaches.trans h h'

theorem leads_act (c : Conversation) (step : Step) : c.Leads (c.act step) :=
  .step c.session trivial

theorem leads_accept (most : Nat) (c : Conversation) (text : String) :
    c.Leads (c.accept most text) := by
  unfold accept
  dsimp only
  split
  · exact (leads_act c _).trans (leads_act _ _)
  · exact leads_act c _

theorem leads_runnerTurn (most : Nat) (c : Conversation) : c.Leads (c.runnerTurn most) := by
  have hfold (texts : List String) (d : Conversation) : d.Leads (texts.foldl (accept most) d) := by
    induction texts generalizing d with
    | nil => exact leads_of_eq rfl
    | cons text texts ih => exact (leads_accept most d text).trans (ih _)
  exact (leads_of_eq (d := { c with toRunner := [] }) rfl).trans (hfold c.toRunner _)

theorem leads_settle (surroundings : Surroundings) (most rounds : Nat) (c : Conversation) :
    c.Leads (c.settle surroundings most rounds) := by
  induction rounds generalizing c with
  | zero => exact leads_of_eq rfl
  | succ rounds ih =>
    unfold settle
    split
    · exact leads_of_eq rfl
    · have hturn : c.Leads (c.hostTurn surroundings) := leads_of_eq rfl
      exact (hturn.trans (leads_runnerTurn most _)).trans (ih _)

theorem leads_lose (limit : Nat) (c : Conversation) : c.Leads (c.lose limit) := by
  unfold lose
  split
  · exact ((leads_act c _).trans (leads_act _ _)).trans (leads_act _ _)
  · exact leads_of_eq rfl

end Conversation

namespace Workplace

variable (w : Workplace) (s : Settings) (host : HostBehaviour) (r : StartRequest)
  (happenings : List Step)

theorem attend_failed {kind : Manager.Kind} {start : Step} {e : Trouble} {t : Session}
    (h : ({ w.session s kind with host } : Session).step .quiet [] start = (.failed e, t)) :
    w.attend s host kind start happenings = (.failed e, t) := by
  rw [attend, h]

theorem attend_started {kind : Manager.Kind} {start : Step} {process : Nat} {t : Session}
    (h : ({ w.session s kind with host } : Session).step .quiet [] start = (.process process, t)) :
    w.attend s host kind start happenings =
      (.process process, ((t.after happenings).step .quiet [] .closeManager).2) := by
  rw [attend, h]

theorem operate_eq_attend (kind : Manager.Kind) (start : Step) :
    ∃ happenings,
      w.operate s kind start = w.attend s (w.hostBehaviour s) kind start happenings := by
  cases hstep : (w.session s kind).step .quiet [] start with
  | mk result t =>
    have hown : ({ w.session s kind with host := w.hostBehaviour s } : Session).step .quiet [] start =
        (result, t) := hstep
    cases result
    case process number =>
      let surroundings := w.surroundings (s.host.command.headD "")
      let asked := Conversation.ofSession t
      let most := s.mostFrameOctets.toNat
      obtain ⟨happenings, -, hsession⟩ :=
        (Conversation.leads_settle surroundings most (asked.toHost.length + 1) asked).trans
          (Conversation.leads_lose s.stderrLimit.toNat _)
      refine ⟨happenings, ?_⟩
      have hends : (((asked.settle surroundings most (asked.toHost.length + 1)).lose
          s.stderrLimit.toNat).session) = t.after happenings := hsession
      rw [operate, attend, hstep, hown]
      exact congrArg (fun u => (_, (Session.step .quiet u [] .closeManager).2)) hends
    all_goals exact ⟨[], by rw [operate, attend, hstep, hown]⟩

theorem told_attend :
    let ended := w.attend s host r.kind.manager (r.managed observer) happenings
    (∃ e, ended.1 = .failed e ∧ noticesTo 0 ended.2 = r.failure e) ∨
      ∃ process : Nat, ended.1 = .process process ∧ ∃ b, Concludes b (noticesTo 0 ended.2) := by
  let s₀ : Session := { w.session s r.kind.manager with host }
  have h : s₀.Managed r.kind := Session.managed_fresh _ _ r.kind host _ _ _
  rcases Session.told_start h rfl observer happenings with
    ⟨e, hresult, htold⟩ | ⟨process, hresult, b, hconcludes⟩
  · rw [w.attend_failed s host happenings (Prod.ext hresult rfl)]
    refine Or.inl ⟨e, rfl, ?_⟩
    rw [Session.noticesTo_eq_told]
    exact htold
  · rw [w.attend_started s host happenings (Prod.ext hresult rfl)]
    refine Or.inr ⟨process, rfl, b, ?_⟩
    rw [Session.noticesTo_eq_told, Session.told_closed]
    exact hconcludes

theorem code_attend {criteria : RunCriteria} {report : RunReport} :
    let ended := w.attend s host .execution (.startRun criteria observer) happenings
    .runComplete report ∈ noticesTo 0 ended.2 → report.runEnd.isAborted = false →
      (w.report ended).code =
        (ConsoleEnd.completed ((report.runEnd.statistics.getD .empty).count .failed)).exitCode := by
  intro ended hmem hcompleted
  rcases w.told_attend s host (.execution criteria) happenings with
    ⟨e, -, htold⟩ | ⟨process, hresult, b, hconcludes⟩
  · rw [show noticesTo 0 ended.2 = StartRequest.failure (.execution criteria) e from htold] at hmem
    rcases List.mem_cons.mp hmem with hmem | hmem
    · cases hmem
    · cases List.mem_singleton.mp hmem
      cases hcompleted
  · have hended : ended.1 = .process process := hresult
    have hheard : Concludes b (noticesTo 0 ended.2) := hconcludes
    obtain rfl : b = true := by
      rw [← hheard.any, List.any_eq_true]
      exact ⟨_, hmem, rfl⟩
    obtain ⟨before, heard⟩ := List.getLast?_eq_some_iff.mp (hheard.getLast? hmem rfl)
    have hbefore := hheard.dropLast
    rw [heard, List.dropLast_concat] at hbefore
    have hend : (Console.after (noticesTo 0 ended.2)).ended =
        some (.completed ((report.runEnd.statistics.getD .empty).count .failed)) := by
      rw [(Console.after_spec _).2, heard, findSome?_consoleEnd? hbefore, Notice.consoleEnd?,
        hcompleted]
      rfl
    simp only [Workplace.report, hended, hend, Option.getD_some]

/-- The exit code of a run that was not aborted follows the count of failed tests that came with the
completion, which is none where no statistics came. It tells of a failed result just when that count
does, and always where the statistics are those of the results. -/
theorem verdict_follows_count (criteria : RunCriteria) (report : RunReport) :
    let ended := w.attend s host .execution (.startRun criteria observer) happenings
    let code := (w.report ended).code
    let results := (noticesTo 0 ended.2).flatMap Notice.results
    let counted := (report.runEnd.statistics.getD .empty).count .failed
    .runComplete report ∈ noticesTo 0 ended.2 → report.runEnd.isAborted = false →
      code = (if counted = 0 then 0 else 3) ∧
        ((.failed ∈ results.map TestResult.outcome → code = 3) ↔
          (.failed ∈ results.map TestResult.outcome → counted ≠ 0)) ∧
        (report.runEnd.statistics = some (.ofResults results) → results.length < 2 ^ 63 →
          code = if .failed ∈ results.map TestResult.outcome then 3 else 0) := by
  intro ended code results counted hmem hcompleted
  have hcode : code = (ConsoleEnd.completed counted).exitCode :=
    w.code_attend s host happenings hmem hcompleted
  have hthree : code = 3 ↔ counted ≠ 0 := by
    rw [hcode, ConsoleEnd.exitCode]
    split
    · rename_i hzero
      exact ⟨fun h => absurd h (by decide), fun h => absurd hzero h⟩
    · rename_i hsome
      exact ⟨fun _ => hsome, fun _ => rfl⟩
  refine ⟨hcode, by rw [hthree], ?_⟩
  intro hstatistics hlength
  rw [hcode]
  unfold counted
  rw [hstatistics]
  exact Console.exitCode_ofResults hlength

theorem told_nearby {r : StartRequest} (items : List (String × Notice)) {b : Bool}
    (hfault : r.fault? = none) (hconcludes : Concludes b (items.map Prod.snd))
    (hmeans : ∀ i ∈ items, r.kind.Means i.1 i.2) (hcopes : ∀ i ∈ items, observer.Copes i.2) :
    noticesTo 0 (w.attend s .nearby r.kind.manager (r.managed observer)
      (items.map fun i => .receive i.1)).2 = echoed items := by
  let s₀ : Session := { w.session s r.kind.manager with host := .nearby }
  have hport : port? "1" = some 1 := by decide +kernel
  have hopens : (s₀.welcome observer [] false).listen = (.ok 1, _) :=
    Session.listen_opens rfl rfl rfl hport
  have hready := Session.step_managed_ready (s := s₀) (r := r) rfl rfl rfl rfl rfl hopens rfl rfl
    rfl rfl rfl rfl rfl hfault rfl
  have hresult : (s₀.step .quiet [] (r.managed observer)).1 = .process (7 : Nat) :=
    congrArg Prod.fst hready
  have hlistens : (s₀.step .quiet [] (r.managed observer)).2.Listens observer 0 0 r.kind [] := by
    rw [congrArg Prod.snd hready]
    exact Session.listens_register r.kind r.message.text rfl rfl rfl Nat.zero_lt_one rfl rfl rfl
  rw [w.attend_started s .nearby _ (Prod.ext hresult rfl), Session.noticesTo_eq_told,
    Session.told_closed]
  exact (Session.listens_after hlistens hconcludes hmeans hcopes).told

end Workplace

def RunReport.completion (r : RunReport) : RunCompletion :=
  ⟨some r.runEnd, r.lastChange, r.attachments, r.executorUris⟩

theorem OperationKind.means_report {r : RunReport} (h : r.completion.truncated = r.completion) :
    execution.Means (Message.carrying .executionComplete r.completion).text (.runComplete r) := by
  have hcarries := Message.carries_settled Message.settles_runCompletion (by decide)
    .executionComplete r.completion
  rw [h] at hcarries
  exact .runComplete _ r.completion r.runEnd hcarries rfl

namespace Workplace

def oneFailed (statistics : Option RunStatistics) : RunReport where
  runEnd := ⟨statistics, false, false, none, none, .zero⟩
  lastChange := some ⟨none,
    some [.atOnce (.named (.numbered 1) "a" "" "a.tests") .failed .epoch], none⟩
  attachments := none
  executorUris := none

theorem told_oneFailed (w : Workplace) (s : Settings) (statistics : Option RunStatistics) :
    let text := (Message.carrying .executionComplete (oneFailed statistics).completion).text
    noticesTo 0 (w.attend s .nearby .execution (.startRun (.ofSources ["a.tests"]) observer)
      [.receive text]).2 = [.raw text, .runComplete (oneFailed statistics)] := by
  intro text
  have hzero : Clock.TimeSpan.zero.truncated = .zero := by decide
  have htruncated : (oneFailed statistics).completion.truncated =
      (oneFailed statistics).completion := by
    simp only [oneFailed, RunReport.completion, RunCompletion.truncated, RunEnd.truncated,
      RunChange.truncated, TestResult.truncated, TestResult.atOnce, Option.map_some, List.map_cons,
      List.map_nil, hzero]
  have hmeans : OperationKind.execution.Means text (.runComplete (oneFailed statistics)) :=
    OperationKind.means_report htruncated
  have hconcludes : Concludes true [.runComplete (oneFailed statistics)] :=
    .concluded [] _ (fun _ h => absurd h List.not_mem_nil) rfl
  exact w.told_nearby s (r := .execution (.ofSources ["a.tests"]))
    [(text, .runComplete (oneFailed statistics))] (by decide) hconcludes
    (List.forall_mem_singleton.mpr hmeans)
    (List.forall_mem_singleton.mpr (observer.replies_of_launchless Notice.Kind.noConfusion).2)

def desk : Workplace where
  machine := ⟨⟨[]⟩, [], fun _ => .error .notFound⟩
  network := ⟨true⟩
  isReference := ReferenceHost.isProgram
  process := 1
  hostProcess := 7
  clock := fun _ => .epoch

theorem verdict_follows_count_counted :
    let report := oneFailed (some ⟨1, Tally.empty.add .failed⟩)
    let text := (Message.carrying .executionComplete report.completion).text
    let ended := desk.attend .default .nearby .execution
      (.startRun (.ofSources ["a.tests"]) observer) [.receive text]
    .runComplete report ∈ noticesTo 0 ended.2 ∧ (desk.report ended).code = 3 := by
  intro report text ended
  have hmem : .runComplete report ∈ noticesTo 0 ended.2 := by
    rw [told_oneFailed]
    exact List.mem_cons_of_mem _ (List.mem_singleton.mpr rfl)
  obtain ⟨hcode, -⟩ := verdict_follows_count desk .default .nearby [.receive text]
    (.ofSources ["a.tests"]) report hmem rfl
  refine ⟨hmem, hcode.trans ?_⟩
  decide

/-- The console prints a failed test, no statistics come, and the exit code says that none failed. -/
theorem failed_run_ends_well :
    let report := oneFailed none
    let text := (Message.carrying .executionComplete report.completion).text
    let ended := desk.attend .default .nearby .execution
      (.startRun (.ofSources ["a.tests"]) observer) [.receive text]
    .runComplete report ∈ noticesTo 0 ended.2 ∧ report.runEnd.isAborted = false ∧
      .failed ∈ ((noticesTo 0 ended.2).flatMap Notice.results).map TestResult.outcome ∧
      (desk.report ended).code = 0 := by
  intro report text ended
  have htold : noticesTo 0 ended.2 = [.raw text, .runComplete report] :=
    told_oneFailed desk .default none
  have hmem : .runComplete report ∈ noticesTo 0 ended.2 := by
    rw [htold]
    exact List.mem_cons_of_mem _ (List.mem_singleton.mpr rfl)
  refine ⟨hmem, rfl, ?_, ?_⟩
  · rw [htold]
    decide
  · exact desk.code_attend .default .nearby [.receive text] hmem rfl

end Workplace

end HostedTests
