import HostedTests.Session.Delivery

/-!
What a session makes of what its host sends, and of a host that fails. An operation is completed
once, by whatever comes first: the host's own completion, a fault, the loss of the connection or the
exit of the host. In all but the first case the observer is told that the operation was aborted.
-/

namespace HostedTests

namespace OperationKind

def activity : OperationKind → String
  | discovery => "test discovery"
  | execution => "test run"

def abortReason (k : OperationKind) (cause : String) : String :=
  "The active " ++ k.activity ++ " was aborted. Reason: " ++ cause

def abortNotice (k : OperationKind) (reason : String) : Notice :=
  match k with
  | discovery => .discoveryComplete .aborted
  | execution => .runComplete (.only (.aborted (some reason)))

def abortMessage (k : OperationKind) (reason : String) : Message :=
  match k with
  | discovery => .carrying .discoveryComplete DiscoveryCompletion.aborted
  | execution => .carrying .executionComplete (RunCompletion.only (.aborted (some reason)))

end OperationKind

def Remark.message (r : Remark) : Message := .carrying .remark r

def lossCause : Option ChannelFault → String
  | none | some .peerClosed => "Unable to communicate with test host process."
  | some f => f.message

namespace Session

variable (react : Reaction)

def tellError (s : Session) (p : Nat) (text : String) : Session :=
  (s.deliver react p (.log .error text)).deliver react p
    (.raw (Remark.message ⟨.error, text⟩).text)

def abort (s : Session) (o : Nat) (cause : String) : Session :=
  match s.operations[o]? with
  | none => s
  | some op =>
    match s.tryComplete o with
    | (false, s) => s
    | (true, s) =>
      let reason := op.state.kind.abortReason cause
      let s := s.tellError react op.party reason
      let s := s.deliver react op.party (.raw (op.state.kind.abortMessage reason).text)
      s.deliver react op.party (op.state.kind.abortNotice reason)

def complete (s : Session) (o : Nat) (party : Nat) (n : Notice) : Session :=
  match s.tryComplete o with
  | (false, s) => s
  | (true, s) => s.deliver react party n

def replyToLaunch (s : Session) (party : Nat) (info : StartInfo) : Except Trouble Unit × Session :=
  match s.launchUnderDebugger react party info with
  | (.error t, s) => (.error (t.within "launch process with debugger attached"), s)
  | (.ok pid, s) =>
    match s.channel with
    | none => (.error (.of "no channel to reply on"), s)
    | some line =>
      match s.transmit line (Message.carrying .launchedUnderDebugger pid).text with
      | (.error f, s) => (.error f.trouble, s)
      | (.ok (), s) => (.ok (), s)

def dispatchToDiscovery (s : Session) (o party : Nat) (m : Message) :
    Except Trouble Unit × Session :=
  match m.kind with
  | .testCasesFound =>
    match (m.require : Except Message.Fault (List TestCase)) with
    | .error f => (.error f.trouble, s)
    | .ok tests => (.ok (), s.deliver react party (.discovered tests))
  | .discoveryComplete =>
    match (m.require : Except Message.Fault DiscoveryCompletion) with
    | .error f => (.error f.trouble, s)
    | .ok completion => (.ok (), s.complete react o party (.discoveryComplete completion))
  | .remark =>
    match (m.require : Except Message.Fault Remark) with
    | .error f => (.error f.trouble, s)
    | .ok r => (.ok (), s.deliver react party (.log r.severity r.text))
  | other => (.error (.of s!"unexpected message {other.wire} during test discovery"), s)

def dispatchToRun (s : Session) (o party : Nat) (m : Message) : Except Trouble Unit × Session :=
  match m.kind with
  | .runStatsChange =>
    match (m.require : Except Message.Fault RunChange) with
    | .error f => (.error f.trouble, s)
    | .ok change => (.ok (), s.deliver react party (.runChanged change))
  | .executionComplete =>
    match (m.require : Except Message.Fault RunCompletion) with
    | .error f => (.error f.trouble, s)
    | .ok completion =>
      match completion.report? with
      | none =>
        (.error (.of "execution complete message carries no completion arguments"), s)
      | some report => (.ok (), s.complete react o party (.runComplete report))
  | .remark =>
    match (m.require : Except Message.Fault Remark) with
    | .error f => (.error f.trouble, s)
    | .ok r => (.ok (), s.deliver react party (.log r.severity r.text))
  | .launchUnderDebugger =>
    match (m.require : Except Message.Fault StartInfo) with
    | .error f => (.error f.trouble, s)
    | .ok info => s.replyToLaunch react party info
  | other => (.error (.of s!"unexpected message {other.wire} during test run"), s)

def dispatch (s : Session) (o : Nat) (op : Operation) (text : String) :
    Except Trouble Unit × Session :=
  match Message.parse text with
  | .error f => (.error (f.trouble.within "decode message envelope"), s)
  | .ok m =>
    match op.state.kind with
    | .discovery => s.dispatchToDiscovery react o op.party m
    | .execution => s.dispatchToRun react o op.party m

def accept (s : Session) (o : Nat) (text : String) : Session :=
  match s.operations[o]? with
  | none => s
  | some op =>
    if op.state.completed then s
    else
      match (s.deliver react op.party (.raw text)).dispatch react o op text with
      | (.ok (), s) => s
      | (.error t, s) => s.abort react o t.text

def receive (s : Session) (line : Nat) (text : String) : Bool × Session :=
  match s.lines[line]?.bind (·.subscriber) with
  | none => (false, s)
  | some o => (true, if s.abandoned then s else s.accept react o text)

def connect (s : Session) (line : Nat) : Session :=
  if s.abandoned then s else { s with channel := some line, connected := true }

/-- The connection is lost. With a time to wait for the host's exit, the wait begins. -/
def beginDisconnect (s : Session) (fault : Option ChannelFault) : Session :=
  if s.abandoned then s
  else
    match s.current with
    | none => s
    | some o =>
      if s.isCompleted o then s
      else if s.exitWait = 0 then s.abort react o (lossCause fault)
      else { s with waits := s.waits ++ [⟨o, fault⟩] }

def endDisconnect (s : Session) (wait : Nat) : Session :=
  match s.waits[wait]? with
  | none => s
  | some w => { s with waits := s.waits.eraseIdx wait }.abort react w.operation (lossCause w.fault)

def disconnect (s : Session) (fault : Option ChannelFault) : Session :=
  if s.abandoned then s
  else
    match s.current with
    | none => s
    | some o => s.abort react o (lossCause fault)

/-- The host exited. What it wrote about errors, unless blank, ends the current operation. -/
def hostExited (s : Session) (stderr : Option String) : Session :=
  let stderr := stderr.filter fun t => !Text.allBlank t
  match stderr, s.current.bind fun o => s.operations[o]?.map fun op => (o, op) with
  | some text, some (o, op) =>
    match s.tryComplete o with
    | (false, s) => { s with hostHasExited := true }
    | (true, s) =>
      let s := { s with hostHasExited := true }.tellError react op.party text
      s.deliver react op.party (op.state.kind.abortNotice (op.state.kind.abortReason text))
  | _, _ => { s with hostHasExited := true }

end Session

end HostedTests
