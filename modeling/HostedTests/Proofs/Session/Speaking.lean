import HostedTests.Proofs.Session.Calls
import HostedTests.Proofs.Session.Closing

namespace HostedTests

namespace Message

def HasKind (text : String) (kind : Kind) : Prop := ∃ m, parse text = .ok m ∧ m.kind = kind

theorem hasKind_of_carries {α : Type} [Payload α] {text : String} {kind : Kind} {a : α}
    (h : Carries text kind a) : HasKind text kind := by
  obtain ⟨m, hm, hk, -⟩ := h
  exact ⟨m, hm, hk⟩

theorem hasKind_unique {text : String} {kind kind' : Kind} (h : HasKind text kind)
    (h' : HasKind text kind') : kind = kind' := by
  obtain ⟨m, hm, rfl⟩ := h
  obtain ⟨m', hm', rfl⟩ := h'
  rw [Except.ok.inj (hm.symm.trans hm')]

theorem hasKind_signal (kind : Kind) : HasKind (signal kind).text kind :=
  ⟨_, parse_text (signal kind) trivial, rfl⟩

end Message

theorem OperationKind.hasKind_extensionsMessage (k : OperationKind) (paths : List String) :
    Message.HasKind (k.extensionsMessage paths).text (k.extensionsMessage paths).kind := by
  cases k <;> exact Message.hasKind_of_carries (Message.carries_exact rfl (by decide) _ paths)

theorem StartRequest.hasKind_message (r : StartRequest) :
    Message.HasKind r.message.text r.message.kind := by
  have hread := r.readFrom_message
  rcases r with c | c | c <;> exact Message.hasKind_of_carries hread

namespace Step

def speaks : Step → Bool
  | sendExtensions _ _ | discover _ _ | run _ _ | cancelRun | abortRun | endSession
  | receive _ => true
  | _ => false

end Step

namespace Session

structure Asks (s : Session) (step : Step) (o : Nat) (op : Operation) (info : StartInfo) :
    Prop where
  arrives : ∃ text, s.Arrives step o text ∧ Message.Carries text .launchUnderDebugger info
  registered : s.operations[o]? = some op
  running : op.state = ⟨.execution, false⟩

def Launches (s : Session) (p : Nat) (info : StartInfo) (process : Int32) : Prop :=
  ∃ q, s.parties[p]? = some q ∧ q.observer.debugger info = .ok process

def Unfinished (s : Session) : Prop :=
  ∀ o op, s.current = some o → s.operations[o]? = some op → op.state.completed = false

inductive Utters (s : Session) (step : Step) : String → Prop where
  | extensions (k : OperationKind) (paths : List String) :
    step = .sendExtensions k paths → Utters s step (k.extensionsMessage paths).text
  | request (r : StartRequest) (observer : Observer) :
    step = r.step observer → Utters s step r.message.text
  | cancel : step = .cancelRun → Utters s step (Message.signal .cancelRun).text
  | abort : step = .abortRun → Utters s step (Message.signal .abortRun).text
  | ending :
    step = .endSession → s.closed = false → s.Unfinished →
    Utters s step (Message.signal .sessionEnd).text
  | answer (o : Nat) (op : Operation) (info : StartInfo) (process : Int32) :
    s.Asks step o op info → s.Launches op.party info process →
    Utters s step (Message.carrying .launchedUnderDebugger process).text

theorem Utters.reason {s : Session} {step : Step} {text : String} (h : s.Utters step text) :
    ∃ kind, Message.HasKind text kind ∧
      (kind = .sessionEnd → step = .endSession ∧ s.closed = false ∧ s.Unfinished) ∧
      (kind = .launchedUnderDebugger → ∃ o op info process, s.Asks step o op info ∧
        s.Launches op.party info process ∧
        Message.Carries text .launchedUnderDebugger process) := by
  cases h with
  | extensions k paths =>
    have hkind := k.hasKind_extensionsMessage paths
    cases k <;> exact ⟨_, hkind, nofun, nofun⟩
  | request r =>
    have hkind := r.hasKind_message
    rcases r with c | c | c <;> exact ⟨_, hkind, nofun, nofun⟩
  | cancel => exact ⟨_, Message.hasKind_signal _, nofun, nofun⟩
  | abort => exact ⟨_, Message.hasKind_signal _, nofun, nofun⟩
  | ending hstep hclosed hunfinished =>
    exact ⟨_, Message.hasKind_signal _, fun _ => ⟨hstep, hclosed, hunfinished⟩, nofun⟩
  | answer o op info process hasks hlaunches =>
    have hcarries := Message.carries_exact rfl (by decide) .launchedUnderDebugger process
    exact ⟨_, Message.hasKind_of_carries hcarries, nofun,
      fun _ => ⟨o, op, info, process, hasks, hlaunches, hcarries⟩⟩

theorem Utters.answer_of_receive {s : Session} {text answer : String}
    (h : s.Utters (.receive text) answer) :
    ∃ o op info process, s.Asks (.receive text) o op info ∧
      s.Launches op.party info process := by
  cases h with
  | answer o op info process hasks hlaunches => exact ⟨o, op, info, process, hasks, hlaunches⟩
  | request r observer hstep => cases r <;> cases hstep
  | extensions _ _ hstep => cases hstep
  | cancel hstep => cases hstep
  | abort hstep => cases hstep
  | ending hstep => cases hstep

inductive Sends (s : Session) (step : Step) (t : Session) : Prop where
  | nothing : t.transmitted = s.transmitted → Sends s step t
  | along (line : Nat) (text : String) :
    s.channel = some line → s.refusal? line = none → s.Utters step text →
    t.transmitted = s.transmitted ++ [(line, text)] → Sends s step t

theorem transmitted_note_sent (s : Session) (line : Nat) (text : String) :
    (s.note (.sent line text)).transmitted = s.transmitted ++ [(line, text)] := by
  rw [transmitted_append (s := s) rfl]
  rfl

theorem line?_eq_ok {s : Session} {line : Nat} (h : s.line? = .ok line) :
    s.closed = false ∧ s.channel = some line := by
  unfold line? at h
  split at h
  · cases h
  · rename_i hclosed
    split at h <;> cases h
    rename_i hchannel
    exact ⟨eq_false_of_ne_true hclosed, hchannel⟩

theorem line?_of_channel {s : Session} {line : Nat} (hclosed : s.closed = false)
    (hchannel : s.channel = some line) : s.line? = .ok line := by
  rw [line?, hclosed, if_neg Bool.false_ne_true, hchannel]

theorem send_of_line {s : Session} {line : Nat} (h : s.line? = .ok line) (m : Message) :
    s.send m =
      match s.refusal? line with
      | some f => (.error (.channel f), s)
      | none => (.ok (), s.note (.sent line m.text)) := by
  unfold send transmit refusal?
  rw [h]
  dsimp only
  cases s.lines[line]?.bind (·.refusal) <;> rfl

theorem sends_send {s : Session} {step : Step} (m : Message)
    (h : s.closed = false → s.Utters step m.text) : s.Sends step (s.send m).2 := by
  cases hline : s.line? with
  | error f =>
    rw [send, hline]
    exact .nothing rfl
  | ok line =>
    obtain ⟨hclosed, hchannel⟩ := line?_eq_ok hline
    rw [send_of_line hline m]
    cases hrefusal : s.refusal? line with
    | some f => exact .nothing rfl
    | none =>
      exact .along line m.text hchannel hrefusal (h hclosed) (transmitted_note_sent s line m.text)

theorem unfinished_of_not_completed {s : Session} (h : s.currentIsCompleted = false) :
    s.Unfinished := by
  intro o op ho hop
  rwa [currentIsCompleted, ho, Option.map_some, Option.getD_some, isCompleted, hop,
    Option.map_some, Option.getD_some] at h

theorem sends_endSession (s : Session) : s.Sends .endSession s.endSession.2 := by
  unfold endSession
  split
  · exact .nothing rfl
  · rename_i hnot
    refine sends_send _ fun hclosed => .ending rfl hclosed (unfinished_of_not_completed ?_)
    exact eq_false_of_ne_true fun hcompleted => hnot (Or.inl hcompleted)

theorem sends_start (s : Session) (r : StartRequest) (observer : Observer) :
    s.Sends (r.step observer) (s.step .quiet [] (r.step observer)).2 := by
  cases hfault : s.startFault? r with
  | some f =>
    rw [step_start_refused s r observer f hfault]
    exact .nothing rfl
  | none =>
    obtain ⟨-, -, ⟨line, hline⟩, -⟩ := (startFault?_eq_none_iff s r).mp hfault
    rw [step_start_accepted s r observer line hfault hline]
    cases hrefusal : s.lines[line]?.bind (·.refusal) with
    | none =>
      exact .along line r.message.text hline hrefusal (.request r observer rfl)
        (transmitted_note_sent (s.started r observer line) line r.message.text)
    | some f => exact .nothing (transmitted_inform (s.started r observer line) _ _ _)

theorem launches_of_answer {s : Session} {p : Nat} {info : StartInfo} {process : Int32}
    (h : (s.parties[p]?.map fun q => q.observer.debugger info).getD
      (.error (.of "debugger is not available")) = .ok process) : s.Launches p info process := by
  cases hparty : s.parties[p]? with
  | none =>
    rw [hparty] at h
    cases h
  | some q =>
    rw [hparty] at h
    exact ⟨q, hparty, h⟩

theorem reply_of_launches {s : Session} {p : Nat} {info : StartInfo} {process : Int32}
    (h : s.Launches p info process) {line : Nat} (hchannel : s.channel = some line) :
    s.reply p info =
      match s.refusal? line with
      | some f => .error f.trouble
      | none => .ok (line, (Message.carrying .launchedUnderDebugger process).text) := by
  obtain ⟨q, hparty, hprocess⟩ := h
  rw [refusal?]
  cases hrefusal : s.lines[line]?.bind (·.refusal) <;>
    simp only [reply, hparty, Option.map_some, Option.getD_some, hprocess, hchannel, hrefusal]

theorem reply_cases (s : Session) (p : Nat) (info : StartInfo) :
    (∃ e, s.reply p info = .error e) ∨
      ∃ line process, s.channel = some line ∧ s.refusal? line = none ∧
        s.Launches p info process ∧ s.reply p info =
          .ok (line, (Message.carrying .launchedUnderDebugger process).text) := by
  cases hanswer : (s.parties[p]?.map fun q => q.observer.debugger info).getD
      (.error (.of "debugger is not available")) with
  | error t =>
    rw [reply, hanswer]
    exact Or.inl ⟨_, rfl⟩
  | ok process =>
    have hlaunches := launches_of_answer hanswer
    cases hchannel : s.channel with
    | none =>
      rw [reply, hanswer, hchannel]
      exact Or.inl ⟨_, rfl⟩
    | some line =>
      rw [reply_of_launches hlaunches hchannel]
      cases hrefusal : s.refusal? line with
      | some f => exact Or.inl ⟨_, rfl⟩
      | none => exact Or.inr ⟨line, process, rfl, hrefusal, hlaunches, rfl⟩

theorem asks_of_hears {s : Session} {o : Nat} {op : Operation} {text : String} {info : StartInfo}
    (h : s.Hears o op) (harrives : s.Arrives (.receive text) o text)
    (hhear : op.state.kind.hear text = .ok (.launchUnderDebugger info)) :
    s.Asks (.receive text) o op info := by
  have hmeans := (OperationKind.hear_eq_ok_iff _ _ _).mp hhear
  obtain ⟨⟨kind, completed⟩, party⟩ := op
  obtain rfl : completed = false := h.incomplete
  cases hmeans with
  | launchUnderDebugger _ _ hcarries =>
    exact ⟨⟨text, harrives, hcarries⟩, h.registered, rfl⟩

theorem sends_receive {s : Session} (k : s.WellKept) (text : String) :
    s.Sends (.receive text) (s.receive .quiet s.front text).2 := by
  unfold receive
  split
  · exact .nothing rfl
  · rename_i o hsubscribed
    dsimp only
    split
    · exact .nothing rfl
    rename_i hheld
    rcases hears_or_completed k.bare o with ⟨op, h⟩ | h
    · rw [accept_open s o op text h]
      let t := s.inform o op (s.hearingBlock op text)
      have hsent (more : List Incident) : { t with record := t.record ++ more }.transmitted =
          s.transmitted ++ more.filterMap Incident.sent? := by
        rw [transmitted_append (s := t) rfl, transmitted_inform]
      change s.Sends _ { t with record := t.record ++ s.hearingReply op text }
      unfold hearingReply
      split
      · rename_i info hhear
        have hasks := asks_of_hears h ⟨rfl, eq_false_of_ne_true hheld, hsubscribed⟩ hhear
        rcases reply_cases s op.party info with
          ⟨e, hreply⟩ | ⟨line, process, hchannel, hrefusal, hlaunches, hreply⟩
        · rw [hreply]
          exact .nothing ((hsent []).trans (List.append_nil _))
        · rw [hreply]
          exact .along line _ hchannel hrefusal (.answer o op info process hasks hlaunches)
            (hsent [.sent line _])
      · exact .nothing ((hsent []).trans (List.append_nil _))
    · rw [accept_completed s o text h]
      exact .nothing rfl

theorem transmitted_abort {s : Session} (k : s.WellKept) (o : Nat) (cause : String) :
    (s.abort .quiet o cause).transmitted = s.transmitted := by
  rcases hears_or_completed k.bare o with ⟨op, h⟩ | h
  · rw [abort_open s o op cause h]
    exact transmitted_inform s o op _
  · rw [abort_completed s o cause h]

theorem record_connect (s : Session) (line : Nat) : (s.connect line).record = s.record := by
  unfold connect
  split <;> rfl

theorem record_listen (s : Session) : s.listen.2.record = s.record := by
  unfold listen
  split
  · rfl
  · split
    · rfl
    · rename_i server _
      let t := { s with server }
      have hgreeted : (if server.greets then t.connect t.front else t).record = s.record := by
        split
        · exact record_connect t t.front
        · rfl
      dsimp only
      split <;> exact hgreeted

theorem silent_step {s : Session} (k : s.WellKept) (step : Step) (h : step.speaks = false) :
    (s.step .quiet [] step).2.transmitted = s.transmitted := by
  by_cases hmanaged : step.isManaged
  · rw [step_of_managed s [] step k.manager k.running hmanaged]
  by_cases hcloses : step.closes
  · rw [transmitted, (keeps_closing k hcloses).1, transmitted]
  cases step
  case listen =>
    rw [step_listen, transmitted, record_listen, transmitted]
  case hostExited stderr =>
    change (s.hostExited .quiet stderr).transmitted = _
    rcases hostExited_cases k stderr with hcase | ⟨o, op, ns, hcase⟩
    · rw [hcase]
      rfl
    · rw [hcase]
      exact transmitted_inform s o op ns
  case connect =>
    simp only [Session.step]
    split
    · rw [transmitted, record_connect, transmitted]
    · rfl
  case returnToLine line =>
    simp only [Session.step]
    split <;> rfl
  case disconnect fault =>
    simp only [Session.step, Session.disconnect]
    split
    · split
      · rfl
      · split
        · rfl
        · exact transmitted_abort k _ _
    · rfl
  case beginDisconnect fault =>
    simp only [Session.step, Session.beginDisconnect]
    split
    · split
      · rfl
      · split
        · rfl
        · split
          · rfl
          · split
            · exact transmitted_abort k _ _
            · rfl
    · rfl
  case endDisconnect wait => exact (keeps_endDisconnect k wait).1
  case relay n =>
    rcases relay_cases s n with heq | ⟨p, -, heq⟩
    · rw [heq]
    · rw [heq]
      exact (confined_deliver s p n).transmitted
  all_goals first
    | exact absurd rfl hmanaged
    | exact absurd rfl hcloses
    | (cases h; done)
    | rfl

theorem sends_step {s : Session} (k : s.WellKept) (step : Step) :
    s.Sends step (s.step .quiet [] step).2 := by
  cases hspeaks : step.speaks with
  | false => exact .nothing (silent_step k step hspeaks)
  | true =>
    cases step
    case sendExtensions kind paths => exact sends_send _ fun _ => .extensions kind paths rfl
    case cancelRun => exact sends_send _ fun _ => .cancel rfl
    case abortRun => exact sends_send _ fun _ => .abort rfl
    case endSession => exact sends_endSession s
    case discover criteria observer => exact sends_start s (.discovery criteria) observer
    case run criteria observer => exact sends_start s (.execution criteria) observer
    case receive text => exact sends_receive k text
    all_goals cases hspeaks

end Session

end HostedTests
