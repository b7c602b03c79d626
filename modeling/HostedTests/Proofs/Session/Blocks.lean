import HostedTests.Proofs.Session.Hearing

namespace HostedTests

namespace OperationKind

def abortBlock (k : OperationKind) (cause : String) : List Notice :=
  let reason := k.abortReason cause
  [.log .error reason, .raw (Remark.message ⟨.error, reason⟩).text,
    .raw (k.abortMessage reason).text, k.abortNotice reason]

def exitBlock (k : OperationKind) (stderr : String) : List Notice :=
  [.log .error stderr, .raw (Remark.message ⟨.error, stderr⟩).text,
    k.abortNotice (k.abortReason stderr)]

theorem isCompletion_abortNotice (k : OperationKind) (reason : String) :
    (k.abortNotice reason).isCompletion = true := by
  cases k <;> rfl

theorem any_abortBlock (k : OperationKind) (cause : String) :
    (k.abortBlock cause).any Notice.isCompletion = true := by
  simp only [abortBlock, List.any_cons, isCompletion_abortNotice, Bool.true_or, Bool.or_true]

theorem any_exitBlock (k : OperationKind) (stderr : String) :
    (k.exitBlock stderr).any Notice.isCompletion = true := by
  simp only [exitBlock, List.any_cons, isCompletion_abortNotice, Bool.true_or, Bool.or_true]

end OperationKind

namespace Session

structure Hears (s : Session) (o : Nat) (op : Operation) : Prop where
  registered : s.operations[o]? = some op
  incomplete : op.state.completed = false
  bare : s.collection? op.party = none

def reply (s : Session) (party : Nat) (info : StartInfo) : Except Trouble (Nat × String) :=
  match (s.parties[party]?.map fun q => q.observer.debugger info).getD
    (.error (.of "debugger is not available")) with
  | .error t => .error (t.within "launch process with debugger attached")
  | .ok pid =>
    match s.channel with
    | none => .error (.of "no channel to reply on")
    | some line =>
      match s.lines[line]?.bind (·.refusal) with
      | some f => .error f.trouble
      | none => .ok (line, (Message.carrying .launchedUnderDebugger pid).text)

def hearingBlock (s : Session) (op : Operation) (text : String) : List Notice :=
  .raw text ::
    match op.state.kind.hear text with
    | .error t => op.state.kind.abortBlock t.text
    | .ok (.launchUnderDebugger info) =>
      .launchUnderDebugger info ::
        match s.reply op.party info with
        | .error t => op.state.kind.abortBlock t.text
        | .ok _ => []
    | .ok n => [n]

def hearingReply (s : Session) (op : Operation) (text : String) : List Incident :=
  match op.state.kind.hear text with
  | .ok (.launchUnderDebugger info) =>
    match s.reply op.party info with
    | .error _ => []
    | .ok (line, reply) => [.sent line reply]
  | _ => []

theorem Hears.tellAll {s : Session} {o : Nat} {op : Operation} (h : s.Hears o op) (p : Nat)
    (ns : List Notice) : (s.tellAll p ns).Hears o op :=
  ⟨h.registered, h.incomplete, h.bare⟩

theorem tryComplete_open {s : Session} {o : Nat} {op : Operation} (h : s.Hears o op) :
    s.tryComplete o = (true, { s with
      operations := s.operations.set o { op with state.completed := true } }) := by
  simp only [tryComplete, h.registered, OperationState.tryComplete, h.incomplete, Bool.not_false]

theorem tryComplete_completed {s : Session} {o : Nat} {op : Operation}
    (h : s.operations[o]? = some op) (hc : op.state.completed = true) :
    s.tryComplete o = (false, s) := by
  simp only [tryComplete, h, OperationState.tryComplete, hc, Bool.not_true]

theorem inform_of_completion (s : Session) (o : Nat) (op : Operation) (ns : List Notice)
    (h : ns.any Notice.isCompletion = true) :
    s.inform o op ns =
      { s with operations := s.operations.set o { op with state.completed := true } }.tellAll
        op.party ns := by
  rw [inform, Operation.after, h, Bool.or_true]
  rfl

theorem inform_tellAll (s : Session) (o : Nat) (op : Operation) (ns ms : List Notice)
    (h : ns.any Notice.isCompletion = false) :
    (s.tellAll op.party ns).inform o op ms = s.inform o op (ns ++ ms) := by
  simp only [inform, tellAll, Operation.after, List.any_append, h, Bool.false_or, List.map_append,
    List.append_assoc]

theorem tellError_bare (s : Session) (p : Nat) (text : String) (h : s.collection? p = none) :
    s.tellError .quiet p text =
      s.tellAll p [.log .error text, .raw (Remark.message ⟨.error, text⟩).text] := by
  rw [tellError, deliver_bare s _ _ h, deliver_bare_tellAll s _ _ _ h]
  rfl

theorem abort_open (s : Session) (o : Nat) (op : Operation) (cause : String) (h : s.Hears o op) :
    s.abort .quiet o cause = s.inform o op (op.state.kind.abortBlock cause) := by
  rw [inform_of_completion _ _ _ _ (op.state.kind.any_abortBlock cause)]
  unfold abort
  simp only [h.registered, tryComplete_open h]
  rw [tellError_bare, deliver_bare_tellAll, deliver_bare_tellAll]
  · rfl
  all_goals exact h.bare

theorem abort_completed (s : Session) (o : Nat) (cause : String)
    (h : ∀ op, s.operations[o]? = some op → op.state.completed = true) :
    s.abort .quiet o cause = s := by
  unfold abort
  cases hop : s.operations[o]? with
  | none => rfl
  | some op => simp only [tryComplete_completed hop (h op hop)]

theorem complete_open (s : Session) (o : Nat) (op : Operation) (n : Notice) (h : s.Hears o op)
    (hn : n.isCompletion = true) : s.complete .quiet o op.party n = s.inform o op [n] := by
  have hany : [n].any Notice.isCompletion = true := by
    rw [List.any_cons, hn, Bool.true_or]
  rw [inform_of_completion _ _ _ _ hany]
  simp only [complete, tryComplete_open h]
  exact deliver_bare _ _ _ h.bare

theorem deliver_open (s : Session) (o : Nat) (op : Operation) (n : Notice) (h : s.Hears o op)
    (hn : n.isCompletion = false) : s.deliver .quiet op.party n = s.inform o op [n] := by
  have hany : [n].any Notice.isCompletion = false := by
    rw [List.any_cons, hn, List.any_nil, Bool.false_or]
  rw [inform_of_no_completion _ _ _ _ h.registered hany]
  exact deliver_bare _ _ _ h.bare

theorem replyToLaunch_bare (s : Session) (p : Nat) (info : StartInfo)
    (h : s.collection? p = none) :
    s.replyToLaunch .quiet p info =
      match s.reply p info with
      | .error t => (.error t, s.tellAll p [.launchUnderDebugger info])
      | .ok (line, text) =>
        (.ok (), (s.tellAll p [.launchUnderDebugger info]).note (.sent line text)) := by
  let t := s.tellAll p [.launchUnderDebugger info]
  have hlaunch : s.launchUnderDebugger .quiet p info =
      ((s.parties[p]?.map fun q => q.observer.debugger info).getD
        (.error (.of "debugger is not available")), t) := by
    rw [launchUnderDebugger, deliver_bare _ _ _ h]
  simp only [replyToLaunch, hlaunch, reply]
  cases (s.parties[p]?.map fun q => q.observer.debugger info).getD
    (.error (.of "debugger is not available")) with
  | error _ => rfl
  | ok pid =>
    have hchannel : t.channel = s.channel := rfl
    cases hs : s.channel with
    | none => simp only [hchannel, hs, t]
    | some line =>
      have hlines : t.lines = s.lines := rfl
      simp only [hchannel, hs, transmit, hlines]
      cases s.lines[line]?.bind (·.refusal) <;> rfl

def heed (s : Session) (o : Nat) (op : Operation) :
    Except Trouble Notice → Except Trouble Unit × Session
  | .error t => (.error t, s)
  | .ok (.launchUnderDebugger info) => s.replyToLaunch .quiet op.party info
  | .ok n => (.ok (), s.inform o op [n])

theorem dispatchToDiscovery_open (s : Session) (o : Nat) (op : Operation) (m : Message)
    (h : s.Hears o op) :
    s.dispatchToDiscovery .quiet o op.party m =
      s.heed o op (OperationKind.discovery.hearMessage m) := by
  obtain ⟨kind, payload⟩ := m
  cases kind
  case testCasesFound =>
    simp only [dispatchToDiscovery, OperationKind.hearMessage, Message.notice]
    cases ((Message.mk .testCasesFound payload).require :
      Except Message.Fault (List TestCase)) with
    | error f => rfl
    | ok tests => exact congrArg (Prod.mk _) (deliver_open s o op _ h rfl)
  case discoveryComplete =>
    simp only [dispatchToDiscovery, OperationKind.hearMessage, Message.notice]
    cases ((Message.mk .discoveryComplete payload).require :
      Except Message.Fault DiscoveryCompletion) with
    | error f => rfl
    | ok c => exact congrArg (Prod.mk _) (complete_open s o op _ h rfl)
  case remark =>
    simp only [dispatchToDiscovery, OperationKind.hearMessage, Message.notice]
    cases ((Message.mk .remark payload).require : Except Message.Fault Remark) with
    | error f => rfl
    | ok r => exact congrArg (Prod.mk _) (deliver_open s o op _ h rfl)
  all_goals rfl

theorem dispatchToRun_open (s : Session) (o : Nat) (op : Operation) (m : Message)
    (h : s.Hears o op) :
    s.dispatchToRun .quiet o op.party m = s.heed o op (OperationKind.execution.hearMessage m) := by
  obtain ⟨kind, payload⟩ := m
  cases kind
  case runStatsChange =>
    simp only [dispatchToRun, OperationKind.hearMessage, Message.notice]
    cases ((Message.mk .runStatsChange payload).require : Except Message.Fault RunChange) with
    | error f => rfl
    | ok c => exact congrArg (Prod.mk _) (deliver_open s o op _ h rfl)
  case executionComplete =>
    simp only [dispatchToRun, OperationKind.hearMessage, Message.notice]
    cases ((Message.mk .executionComplete payload).require :
      Except Message.Fault RunCompletion) with
    | error f => rfl
    | ok c =>
      cases hreport : c.report? with
      | none =>
        simp only [hreport]
        rfl
      | some report =>
        simp only [hreport]
        exact congrArg (Prod.mk _) (complete_open s o op _ h rfl)
  case remark =>
    simp only [dispatchToRun, OperationKind.hearMessage, Message.notice]
    cases ((Message.mk .remark payload).require : Except Message.Fault Remark) with
    | error f => rfl
    | ok r => exact congrArg (Prod.mk _) (deliver_open s o op _ h rfl)
  case launchUnderDebugger =>
    simp only [dispatchToRun, OperationKind.hearMessage, Message.notice]
    cases ((Message.mk .launchUnderDebugger payload).require : Except Message.Fault StartInfo) with
    | error f => rfl
    | ok i => rfl
  all_goals rfl

theorem dispatch_open (s : Session) (o : Nat) (op : Operation) (text : String)
    (h : s.Hears o op) :
    s.dispatch .quiet o op text = s.heed o op (op.state.kind.hear text) := by
  unfold dispatch OperationKind.hear
  cases Message.parse text with
  | error f => rfl
  | ok m =>
    cases op.state.kind with
    | discovery => exact dispatchToDiscovery_open s o op m h
    | execution => exact dispatchToRun_open s o op m h

theorem accept_heeded {s u : Session} {o : Nat} {op : Operation} {text : String} (h : s.Hears o op)
    (hheed : (s.tellAll op.party [.raw text]).heed o op (op.state.kind.hear text) = (.ok (), u)) :
    s.accept .quiet o text = u := by
  rw [← dispatch_open _ o op text (h.tellAll op.party _), ← deliver_bare s _ _ h.bare] at hheed
  simp only [accept, h.registered, h.incomplete, Bool.false_eq_true, if_false, hheed]

theorem accept_unheeded {s u : Session} {o : Nat} {op : Operation} {text : String} {e : Trouble}
    (h : s.Hears o op)
    (hheed : (s.tellAll op.party [.raw text]).heed o op (op.state.kind.hear text) =
      (.error e, u)) :
    s.accept .quiet o text = u.abort .quiet o e.text := by
  rw [← dispatch_open _ o op text (h.tellAll op.party _), ← deliver_bare s _ _ h.bare] at hheed
  simp only [accept, h.registered, h.incomplete, Bool.false_eq_true, if_false, hheed]

theorem accept_open (s : Session) (o : Nat) (op : Operation) (text : String) (h : s.Hears o op) :
    s.accept .quiet o text =
      { s.inform o op (s.hearingBlock op text) with
        record := s.record ++ (s.hearingBlock op text).map (.told op.party) ++
          s.hearingReply op text } := by
  let t := s.tellAll op.party [.raw text]
  have ht : t.Hears o op := h.tellAll op.party _
  have hraw : [Notice.raw text].any Notice.isCompletion = false := rfl
  cases hhear : op.state.kind.hear text with
  | error e =>
    have hheed : t.heed o op (op.state.kind.hear text) = (.error e, t) :=
      congrArg (t.heed o op) hhear
    rw [accept_unheeded h hheed, abort_open t o op _ ht, inform_tellAll s o op _ _ hraw]
    simp only [hearingBlock, hearingReply, hhear, List.append_nil]
    rfl
  | ok n =>
    cases n
    case launchUnderDebugger info =>
      let u := s.tellAll op.party [.raw text, .launchUnderDebugger info]
      have hu : u.Hears o op := h.tellAll op.party _
      have hlaunch : [.raw text, .launchUnderDebugger info].any Notice.isCompletion = false := rfl
      have hheed : t.heed o op (op.state.kind.hear text) =
          t.replyToLaunch .quiet op.party info := congrArg (t.heed o op) hhear
      have hreply : t.reply op.party info = s.reply op.party info := rfl
      have htell : t.tellAll op.party [.launchUnderDebugger info] = u := tellAll_tellAll s _ _ _
      rw [replyToLaunch_bare t op.party info ht.bare, hreply, htell] at hheed
      cases hs : s.reply op.party info with
      | error e =>
        rw [hs] at hheed
        rw [accept_unheeded h hheed, abort_open u o op _ hu, inform_tellAll s o op _ _ hlaunch]
        simp only [hearingBlock, hearingReply, hhear, hs, List.append_nil]
        rfl
      | ok sent =>
        rw [hs] at hheed
        rw [accept_heeded h hheed]
        simp only [hearingBlock, hearingReply, hhear, hs]
        rw [inform_of_no_completion s o op _ h.registered hlaunch]
        rfl
    all_goals
      have hheed := congrArg (t.heed o op) hhear
      rw [accept_heeded h hheed, inform_tellAll s o op _ _ hraw]
      simp only [hearingBlock, hearingReply, hhear, List.append_nil]
      rfl

theorem accept_completed (s : Session) (o : Nat) (text : String)
    (h : ∀ op, s.operations[o]? = some op → op.state.completed = true) :
    s.accept .quiet o text = s := by
  unfold accept
  cases hop : s.operations[o]? with
  | none => rfl
  | some op => simp only [h op hop, if_true]

theorem filter_allBlank (text : String) :
    (some text).filter (fun t => !Text.allBlank t) =
      if Text.allBlank text then none else some text := by
  cases h : Text.allBlank text <;> simp only [Option.filter, h] <;> rfl

theorem hostExited_open (s : Session) (o : Nat) (op : Operation) (text : String)
    (h : s.Hears o op) (hcurrent : s.current = some o) (htext : Text.allBlank text = false) :
    s.hostExited .quiet (some text) =
      { s.inform o op (op.state.kind.exitBlock text) with hostHasExited := true } := by
  have hfilter : (some text).filter (fun t => !Text.allBlank t) = some text := by
    rw [filter_allBlank, htext, if_neg Bool.false_ne_true]
  have hpair : (s.current.bind fun o => s.operations[o]?.map fun op => (o, op)) =
      some (o, op) := by
    rw [hcurrent, Option.bind_some, h.registered, Option.map_some]
  rw [inform_of_completion _ _ _ _ (op.state.kind.any_exitBlock text)]
  unfold hostExited
  rw [hfilter, hpair]
  simp only [tryComplete_open h]
  rw [tellError_bare, deliver_bare_tellAll]
  · rfl
  · exact h.bare
  · exact h.bare

theorem hostExited_blank {react : Reaction} (s : Session) (stderr : Option String)
    (h : ∀ text, stderr = some text → Text.allBlank text = true) :
    s.hostExited react stderr = { s with hostHasExited := true } := by
  have hnone : stderr.filter (fun t => !Text.allBlank t) = none := by
    cases stderr with
    | none => rfl
    | some text => rw [filter_allBlank, h text rfl, if_pos rfl]
  unfold hostExited
  rw [hnone]

theorem hostExited_completed (s : Session) (stderr : Option String)
    (h : ∀ o op, s.current = some o → s.operations[o]? = some op → op.state.completed = true) :
    s.hostExited .quiet stderr = { s with hostHasExited := true } := by
  unfold hostExited
  cases stderr.filter (fun t => !Text.allBlank t) with
  | none => rfl
  | some text =>
    cases hcurrent : s.current with
    | none => rfl
    | some o =>
      rw [Option.bind_some]
      cases hop : s.operations[o]? with
      | none => rfl
      | some op =>
        rw [Option.map_some]
        simp only [tryComplete_completed hop (h o op hcurrent hop), hcurrent]

end Session

end HostedTests
