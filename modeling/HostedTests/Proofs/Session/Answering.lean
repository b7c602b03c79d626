import HostedTests.Proofs.Session.Speaking

namespace HostedTests

namespace Session

def Met (s : Session) : Prop := s.operations ≠ [] → s.channel ≠ none

theorem met_step {s : Session} (k : s.WellKept) (h : s.Met) (step : Step) :
    (s.step .quiet [] step).2.Met := by
  intro hregistered hnone
  rcases (linked_step k step).channel with hsame | ⟨hfront, -⟩
  · have hchannel : s.channel = none := hsame.symm.trans hnone
    rcases length_step k step with hlen | ⟨-, r, observer, -, hfault⟩
    · refine h (fun hnil => hregistered ?_) hchannel
      rw [hnil] at hlen
      exact List.eq_nil_of_length_eq_zero hlen
    · obtain ⟨-, -, ⟨line, hline⟩, -⟩ := (startFault?_eq_none_iff s r).mp hfault
      rw [hchannel] at hline
      cases hline
  · rw [hfront] at hnone
    cases hnone

theorem Asks.unique {s : Session} {step : Step} {o o' : Nat} {op op' : Operation}
    {info info' : StartInfo} (h : s.Asks step o op info) (h' : s.Asks step o' op' info') :
    o = o' ∧ op = op' ∧ info = info' := by
  obtain ⟨text, harrives, hcarries⟩ := h.arrives
  obtain ⟨text', harrives', hcarries'⟩ := h'.arrives
  obtain rfl : text = text' := by
    cases harrives.receives.symm.trans harrives'.receives
    rfl
  obtain rfl : o = o' := Option.some.inj (harrives.subscribed.symm.trans harrives'.subscribed)
  have hop := Option.some.inj (h.registered.symm.trans h'.registered)
  exact ⟨rfl, hop, Message.carries_unique hcarries hcarries'⟩

inductive Answered (s : Session) (text : String) (o : Nat) (op : Operation) (info : StartInfo)
    (process : Int32) (t : Session) : Prop where
  | reported (line : Nat) (answer : String) :
    s.channel = some line → s.refusal? line = none →
    Message.Carries answer .launchedUnderDebugger process → t.operations = s.operations →
    t.record = s.record ++ [.told op.party (.raw text),
      .told op.party (.launchUnderDebugger info), .sent line answer] →
    Answered s text o op info process t
  | aborted (line : Nat) (f : ChannelFault) (ns : List Notice) :
    s.channel = some line → s.refusal? line = some f →
    AbortSequence .execution f.trouble.text ns →
    t.operations[o]? = some ⟨⟨.execution, true⟩, op.party⟩ →
    t.record = s.record ++
      (.raw text :: .launchUnderDebugger info :: ns).map (.told op.party) →
    Answered s text o op info process t

theorem answered_step {s : Session} (k : s.WellKept) (hmet : s.Met) {step : Step} {o : Nat}
    {op : Operation} {info : StartInfo} {process : Int32} (h : s.Asks step o op info)
    (hlaunches : s.Launches op.party info process) :
    ∃ text, step = .receive text ∧
      s.Answered text o op info process (s.step .quiet [] step).2 := by
  obtain ⟨text, ⟨rfl, hheld, hsubscribed⟩, hcarries⟩ := h.arrives
  refine ⟨text, rfl, ?_⟩
  obtain ⟨line, hchannel⟩ : ∃ line, s.channel = some line := by
    refine Option.ne_none_iff_exists'.mp (hmet fun hnil => ?_)
    have hregistered := h.registered
    rw [hnil] at hregistered
    cases hregistered
  have hhears : s.Hears o op := by
    refine ⟨h.registered, ?_, k.bare o op h.registered⟩
    rw [h.running]
  have hhear : op.state.kind.hear text = .ok (.launchUnderDebugger info) := by
    rw [h.running]
    exact (OperationKind.hear_eq_ok_iff _ _ _).mpr (.launchUnderDebugger text info hcarries)
  have hstep : (s.step .quiet [] (.receive text)).2 = s.accept .quiet o text := by
    simp only [Session.step, receive, hsubscribed, hheld, Bool.false_eq_true, if_false]
  have hreply := reply_of_launches hlaunches hchannel
  rw [hstep, accept_open s o op text hhears]
  cases hrefusal : s.refusal? line with
  | none =>
    rw [hrefusal] at hreply
    have hblock : s.hearingBlock op text = [.raw text, .launchUnderDebugger info] := by
      simp only [hearingBlock, hhear, hreply]
    have hanswer : s.hearingReply op text =
        [.sent line (Message.carrying .launchedUnderDebugger process).text] := by
      simp only [hearingReply, hhear, hreply]
    have hcarried : Message.Carries (Message.carrying .launchedUnderDebugger process).text
        .launchedUnderDebugger process := Message.carries_exact rfl (by decide) _ process
    have hoperations : (s.inform o op [.raw text, .launchUnderDebugger info]).operations =
        s.operations := by
      rw [inform_of_no_completion s o op _ h.registered rfl]
      rfl
    rw [hblock, hanswer]
    refine .reported line _ hchannel hrefusal hcarried hoperations ?_
    rw [List.append_assoc]
    rfl
  | some f =>
    rw [hrefusal] at hreply
    have hblock : s.hearingBlock op text = .raw text :: .launchUnderDebugger info ::
        OperationKind.execution.abortBlock f.trouble.text := by
      simp only [hearingBlock, hhear, hreply]
      rw [h.running]
    have hanswer : s.hearingReply op text = [] := by
      simp only [hearingReply, hhear, hreply]
    rw [hblock, hanswer]
    refine .aborted line f _ hchannel hrefusal (abortSequence_abortBlock _ _) ?_ ?_
    · obtain ⟨hlt, -⟩ := List.getElem?_eq_some_iff.mp h.registered
      rw [inform, List.getElem?_set_self hlt, Operation.after, h.running, List.any_cons,
        List.any_cons, OperationKind.any_abortBlock, Bool.or_true, Bool.or_true, Bool.or_true]
    · rw [List.append_nil]

theorem not_launch_of_abortBlock (kind : OperationKind) (cause : String) (info : StartInfo) :
    .launchUnderDebugger info ∉ kind.abortBlock cause := by
  cases kind <;> simp [OperationKind.abortBlock, OperationKind.abortNotice]

theorem not_launch_of_exitBlock (kind : OperationKind) (stderr : String) (info : StartInfo) :
    .launchUnderDebugger info ∉ kind.exitBlock stderr := by
  cases kind <;> simp [OperationKind.exitBlock, OperationKind.abortNotice]

theorem not_launch_of_opening (s : Session) (r : StartRequest) (info : StartInfo) :
    .launchUnderDebugger info ∉ s.opening r := by
  unfold opening
  split
  · exact List.not_mem_nil
  · exact not_launch_of_abortBlock _ _ _

theorem hear_of_launch {s : Session} {op : Operation} {text : String} {info : StartInfo}
    (h : .launchUnderDebugger info ∈ s.hearingBlock op text) :
    op.state.kind.hear text = .ok (.launchUnderDebugger info) := by
  unfold hearingBlock at h
  rcases List.mem_cons.mp h with h | h
  · cases h
  · split at h
    · exact absurd h (not_launch_of_abortBlock _ _ _)
    · rename_i info' hhear
      rcases List.mem_cons.mp h with h | h
      · cases h
        exact hhear
      · split at h
        · exact absurd h (not_launch_of_abortBlock _ _ _)
        · cases h
    · rename_i n hnot _
      cases List.mem_singleton.mp h
      exact absurd rfl (hnot info)

theorem asks_of_block {s : Session} {step : Step} {o : Nat} {op : Operation} {info : StartInfo}
    (h : s.Hears o op) (htarget : s.target step = some o)
    (hblock : .launchUnderDebugger info ∈ s.block op step) : s.Asks step o op info := by
  cases step
  case receive text =>
    simp only [target] at htarget
    split at htarget
    · cases htarget
    · rename_i hheld
      exact asks_of_hears h ⟨rfl, eq_false_of_ne_true hheld, htarget⟩ (hear_of_launch hblock)
  case disconnect fault => exact absurd hblock (not_launch_of_abortBlock _ _ _)
  case beginDisconnect fault => exact absurd hblock (not_launch_of_abortBlock _ _ _)
  case endDisconnect wait => exact absurd hblock (not_launch_of_abortBlock _ _ _)
  case hostExited stderr =>
    cases stderr with
    | none => cases hblock
    | some text => exact absurd hblock (not_launch_of_exitBlock _ _ _)
  all_goals cases hblock

theorem asks_of_told {s : Session} (k : s.WellKept) {step : Step} {o : Nat} {op : Operation}
    {info : StartInfo} (hop : (s.step .quiet [] step).2.operations[o]? = some op)
    (htold : .launchUnderDebugger info ∈
      ((s.step .quiet [] step).2.told op.party).drop (s.told op.party).length) :
    ∃ op₀, s.Asks step o op₀ info ∧ op₀.party = op.party := by
  rcases Nat.lt_or_ge o s.operations.length with hlt | hge
  · have hop₀ := List.getElem?_eq_getElem hlt
    obtain ⟨hafter, hshare⟩ := step_share k step o _ hop₀
    cases hop.symm.trans hafter
    refine ⟨s.operations[o], ?_, rfl⟩
    rw [Operation.after_party, hshare, List.drop_left, share] at htold
    split at htold
    · rename_i hconcerned
      obtain ⟨hopen, htarget⟩ := hconcerned
      exact asks_of_block ⟨hop₀, hopen, k.bare o _ hop₀⟩ htarget htold
    · cases htold
  · obtain ⟨-, r, observer, line, -, -, -, rfl, hopening⟩ := step_registers k step o op hge hop
    rw [hopening] at htold
    exact absurd (List.mem_of_mem_drop htold) (not_launch_of_opening s r info)

theorem currentIsCompleted_eq_false_iff {s : Session} (h : s.InFlight) :
    s.currentIsCompleted = false ↔ s.Unfinished := by
  refine ⟨unfinished_of_not_completed, fun hunfinished => ?_⟩
  rw [currentIsCompleted]
  cases hcurrent : s.current with
  | none => rfl
  | some o =>
    have hlt : o < s.operations.length := by
      rw [← h.current o hcurrent]
      exact Nat.lt_succ_self o
    have hop := List.getElem?_eq_getElem hlt
    rw [Option.map_some, Option.getD_some, isCompleted, hop]
    exact hunfinished o _ hcurrent hop

inductive Ended (s : Session) (line : Nat) : StepResult × Session → Prop where
  | sent (text : String) :
    s.refusal? line = none → Message.HasKind text .sessionEnd →
    Ended s line (.done, s.note (.sent line text))
  | unsent (f : ChannelFault) :
    s.refusal? line = some f → Ended s line (.refused (.channel f), s)

theorem ended_step {s : Session} (h : s.InFlight) {line : Nat} (hclosed : s.closed = false)
    (hchannel : s.channel = some line) (hunfinished : s.Unfinished) :
    s.Ended line (s.step .quiet [] .endSession) := by
  have hcompleted := (currentIsCompleted_eq_false_iff h).mpr hunfinished
  have hrequest : s.endSession = s.send (.signal .sessionEnd) := by
    rw [endSession, if_neg]
    simp [hcompleted, hchannel]
  simp only [Session.step, hrequest, send_of_line (line?_of_channel hclosed hchannel)]
  cases hrefusal : s.refusal? line with
  | none => exact .sent _ hrefusal (Message.hasKind_signal _)
  | some f => exact .unsent f hrefusal

theorem suppressed_step {s : Session} (h : s.InFlight)
    (hends : s.channel = none ∨ ¬s.Unfinished) :
    s.step .quiet [] .endSession = (.done, s) := by
  have hrequest : s.endSession = (.ok (), s) := by
    rw [endSession, if_pos]
    rcases hends with hchannel | hfinished
    · exact Or.inr (by rw [hchannel, Option.isNone_none])
    · refine Or.inl (eq_true_of_ne_false fun hcompleted => hfinished ?_)
      exact (currentIsCompleted_eq_false_iff h).mp hcompleted
  simp only [Session.step, hrequest]
  rfl

/-- What a step sends, held against what the session is told and asked in it. -/
structure Corresponds (s : Session) (step : Step) (texts : List (Nat × String)) : Prop where
  transmitted : (s.step .quiet [] step).2.transmitted = s.transmitted ++ texts
  single : texts.length ≤ 1
  connected : ∀ u ∈ texts, s.channel = some u.1
  -- Launches that observers of operations are asked for, and processes that they report.
  asked : ∀ o op info, (s.step .quiet [] step).2.operations[o]? = some op →
    .launchUnderDebugger info ∈
      ((s.step .quiet [] step).2.told op.party).drop (s.told op.party).length →
    ∃ op₀, s.Asks step o op₀ info ∧ op₀.party = op.party
  answered : ∀ o op info process, s.Asks step o op info → s.Launches op.party info process →
    ∃ text, step = .receive text ∧
      s.Answered text o op info process (s.step .quiet [] step).2
  answers : ∀ u ∈ texts, Message.HasKind u.2 .launchedUnderDebugger →
    ∃ o op info process, s.Asks step o op info ∧ s.Launches op.party info process ∧
      Message.Carries u.2 .launchedUnderDebugger process
  failed : ∀ o op info, s.Asks step o op info →
    (∀ process, ¬s.Launches op.party info process) → texts = []
  late : ∀ o op text, s.Arrives step o text → s.operations[o]? = some op →
    op.state.completed = true → texts = []
  -- Requests to end the session.
  endings : ∀ u ∈ texts, Message.HasKind u.2 .sessionEnd →
    step = .endSession ∧ s.closed = false ∧ s.Unfinished
  ended : ∀ line, step = .endSession → s.closed = false → s.channel = some line →
    s.Unfinished → s.Ended line (s.step .quiet [] step)
  suppressed : step = .endSession → s.channel = none ∨ ¬s.Unfinished →
    s.step .quiet [] step = (.done, s)
  signals : step = .cancelRun ∨ step = .abortRun →
    (s.step .quiet [] step).2.operations = s.operations

theorem uttered_step {s : Session} (k : s.WellKept) (step : Step) :
    ∃ texts, (s.step .quiet [] step).2.transmitted = s.transmitted ++ texts ∧
      texts.length ≤ 1 ∧ ∀ u ∈ texts, s.channel = some u.1 ∧ s.Utters step u.2 := by
  cases sends_step k step with
  | nothing hsame => exact ⟨[], by rw [hsame, List.append_nil], Nat.zero_le 1, nofun⟩
  | along line text hchannel _ hutters hsent =>
    refine ⟨[(line, text)], hsent, Nat.le_refl 1, fun u hu => ?_⟩
    rw [List.mem_singleton.mp hu]
    exact ⟨hchannel, hutters⟩

theorem corresponds_step {s : Session} (k : s.WellKept) (h : s.InFlight) (hmet : s.Met)
    (step : Step) : ∃ texts, s.Corresponds step texts := by
  obtain ⟨texts, htransmitted, hsingle, hutters⟩ := uttered_step k step
  -- All that is sent when a message arrives is the answer to it.
  have hanswers {o : Nat} {text : String} (harrives : s.Arrives step o text) :
      ∀ u ∈ texts, ∃ o op info process, s.Asks step o op info ∧
        s.Launches op.party info process := by
    intro u hu
    have hutter := (hutters u hu).2
    rw [harrives.receives] at hutter ⊢
    exact hutter.answer_of_receive
  refine ⟨texts, htransmitted, hsingle, fun u hu => (hutters u hu).1,
    fun _ _ _ hop htold => asks_of_told k hop htold,
    fun _ _ _ _ hasks hlaunches => answered_step k hmet hasks hlaunches, ?_, ?_, ?_, ?_, ?_, ?_, ?_⟩
  · intro u hu hkind
    obtain ⟨kind, hhas, -, hanswer⟩ := (hutters u hu).2.reason
    exact hanswer (Message.hasKind_unique hhas hkind)
  · intro o op info hasks hfails
    obtain ⟨text, harrives, -⟩ := hasks.arrives
    refine List.eq_nil_iff_forall_not_mem.mpr fun u hu => ?_
    obtain ⟨o', op', info', process, hasks', hlaunches⟩ := hanswers harrives u hu
    obtain ⟨-, rfl, rfl⟩ := hasks.unique hasks'
    exact hfails process hlaunches
  · intro o op text harrives hop hcompleted
    refine List.eq_nil_iff_forall_not_mem.mpr fun u hu => ?_
    obtain ⟨o', op', info', process, hasks, -⟩ := hanswers harrives u hu
    obtain ⟨text', harrives', -⟩ := hasks.arrives
    obtain rfl : o = o' := Option.some.inj (harrives.subscribed.symm.trans harrives'.subscribed)
    obtain rfl : op = op' := Option.some.inj (hop.symm.trans hasks.registered)
    rw [hasks.running] at hcompleted
    cases hcompleted
  · intro u hu hkind
    obtain ⟨kind, hhas, hending, -⟩ := (hutters u hu).2.reason
    exact hending (Message.hasKind_unique hhas hkind)
  · rintro line rfl hclosed hchannel hunfinished
    exact ended_step h hclosed hchannel hunfinished
  · rintro rfl hends
    exact suppressed_step h hends
  · rintro (rfl | rfl)
    · exact (mute_send s (.signal .cancelRun)).operations
    · exact (mute_send s (.signal .abortRun)).operations

theorem corresponds_after {s : Session} (k : s.WellKept) (h : s.InFlight) (hmet : s.Met)
    (steps : List Step) :
    ∃ spoken : List (List (Nat × String)), spoken.length = steps.length ∧
      (s.after steps).transmitted = s.transmitted ++ spoken.flatten ∧
      ∀ i step texts, steps[i]? = some step → spoken[i]? = some texts →
        (s.after (steps.take i)).Corresponds step texts := by
  induction steps generalizing s with
  | nil =>
    refine ⟨[], rfl, (List.append_nil s.transmitted).symm, ?_⟩
    intro i step texts hget
    cases hget
  | cons step steps ih =>
    obtain ⟨texts, hstep⟩ := corresponds_step k h hmet step
    obtain ⟨spoken, hlength, htransmitted, hrest⟩ := ih (wellKept_outcome k (step_outcome k step))
      (inFlight_step k h step) (met_step k hmet step)
    refine ⟨texts :: spoken, congrArg (· + 1) hlength, ?_, ?_⟩
    · rw [List.flatten_cons, ← List.append_assoc, ← hstep.transmitted]
      exact htransmitted
    · intro i step' texts' hget hsaid
      cases i with
      | zero =>
        cases hget
        cases hsaid
        exact hstep
      | succ i => exact hrest i step' texts' hget hsaid

/-- All that a session sends along a run, step by step: a process that was launched under a debugger
is reported in the step that asked for it, or the run is aborted in that step, and no process is
reported otherwise. The end of the session is sent when the user asks for it and the current
operation is not completed, and any other such request of a live session is done without. Requests
to cancel or abort a run complete nothing. -/
theorem texts_have_their_causes (server : Server) (collector : Collector) (host : HostBehaviour)
    (exitWait : Nat) (steps : List Step) :
    let s := fresh server collector none host exitWait
    ∃ spoken : List (List (Nat × String)), spoken.length = steps.length ∧
      (s.after steps).transmitted = spoken.flatten ∧
      ∀ i step texts, steps[i]? = some step → spoken[i]? = some texts →
        (s.after (steps.take i)).Corresponds step texts := by
  intro s
  have hmet : s.Met := fun hregistered => absurd rfl hregistered
  exact corresponds_after (wellKept_fresh server collector host exitWait)
    (inFlight_fresh server collector host exitWait) hmet steps

theorem texts_have_their_causes_launched :
    let observer : Observer := ⟨"debugging", fun _ => .ok 7⟩
    let info : StartInfo := ⟨"host", "", none, none⟩
    let s := fresh (.fresh "4000" none false true) .idle none .elsewhere 0
    let steps : List Step := [.listen, .connect, .run (.ofSources ["a.tests"]) observer,
      .receive (Message.carrying .launchUnderDebugger info).text]
    ∃ answer, (s.after steps).transmitted.getLast? = some (0, answer) ∧
      Message.Carries answer .launchedUnderDebugger (7 : Int32) := by
  intro observer info s steps
  let u := s.after (steps.take 3)
  let op : Operation := ⟨.fresh .execution, 0⟩
  have hcarries : Message.Carries (Message.carrying .launchUnderDebugger info).text
      .launchUnderDebugger info := Message.carries_startInfo _ rfl
  have hasks : u.Asks (.receive (Message.carrying .launchUnderDebugger info).text) 0 op info :=
    ⟨⟨_, ⟨rfl, by decide +kernel, by decide +kernel⟩, hcarries⟩, by decide +kernel, rfl⟩
  have hlaunches : u.Launches op.party info 7 := launches_of_answer (by decide +kernel)
  obtain ⟨spoken, hlength, -, hcorresponds⟩ :=
    texts_have_their_causes (.fresh "4000" none false true) .idle .elsewhere 0 steps
  have hlt : 3 < spoken.length := Nat.lt_of_lt_of_eq (by decide) hlength.symm
  have hstep : u.Corresponds _ spoken[3] :=
    hcorresponds 3 _ _ rfl (List.getElem?_eq_getElem hlt)
  obtain ⟨text, -, hanswered⟩ := hstep.answered 0 op info 7 hasks hlaunches
  have hchannel : u.channel = some 0 := by decide +kernel
  cases hanswered with
  | reported line answer hline _ hanswer _ hrecord =>
    obtain rfl : 0 = line := Option.some.inj (hchannel.symm.trans hline)
    refine ⟨answer, ?_, hanswer⟩
    have hafter : s.after steps = (u.step .quiet [] _).2 := after_concat s (steps.take 3) _
    rw [hafter, transmitted_append hrecord]
    exact List.getLast?_concat
  | aborted line f _ hline hrefusal =>
    obtain rfl : 0 = line := Option.some.inj (hchannel.symm.trans hline)
    have hnone : u.refusal? 0 = none := by decide +kernel
    rw [hnone] at hrefusal
    cases hrefusal

end Session

end HostedTests
