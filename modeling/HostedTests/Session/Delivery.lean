import HostedTests.Message.Reader
import HostedTests.Session.State

/-!
Delivery of notices. Where data is collected for an observer, the collection ends before the
observer hears of the run's completion, and the completion is told with the attachments that were
collected.
-/

namespace HostedTests

namespace Collection

def merge (before : Option (List AttachmentSet)) (collected : List AttachmentSet) :
    Option (List AttachmentSet) :=
  if collected.isEmpty then before else some (before.getD [] ++ collected)

def completion? (text : String) : Option RunCompletion :=
  match Message.parse text with
  | .error _ => none
  | .ok m =>
    if m.kind ≠ .executionComplete then none
    else (m.require : Except Message.Fault RunCompletion).toOption

end Collection

def RunCompletion.isCanceled (c : RunCompletion) : Bool := (c.runEnd.map (·.isCanceled)).getD false

def RunCompletion.attach (c : RunCompletion) (collected : List AttachmentSet) : RunCompletion :=
  { c with attachments := Collection.merge c.attachments collected }

def RunReport.attach (r : RunReport) (collected : List AttachmentSet) : RunReport :=
  { r with attachments := Collection.merge r.attachments collected }

namespace Session

variable (react : Reaction)

def tell (s : Session) (p : Nat) (n : Notice) : Session := react p n (s.note (.told p n))

def callCollector (s : Session) (canceled : Bool) : Collecting × Session :=
  (s.collector.ending,
    { s.note (.collectorEnded canceled) with
      collector := { s.collector with ended := s.collector.ended + 1 } })

/-- Ends the collection of data for a party, if it has not ended. What the data collector says
meanwhile is passed on as it is. Answers with what was collected, if that is known. -/
def endCollection (s : Session) (p : Nat) (canceled : Bool) :
    Option (List AttachmentSet) × Session :=
  match s.collection? p with
  | none => (none, s)
  | some c =>
    if c.ended then (c.attachments, s)
    else
      let (answer, s) := (s.setCollection p ⟨true, none⟩).callCollector canceled
      let s := answer.utterances.foldl (fun s u => s.tell react p u.notice) s
      match answer.outcome with
      | .ok sets => (some sets, s.setCollection p ⟨true, some sets⟩)
      | .error t => (none, s.tell react p (.log .error t.text))

/-- Tells a party something, by way of the collection of data for it if there is one. -/
def deliver (s : Session) (p : Nat) (n : Notice) : Session :=
  if (s.collection? p).isNone then s.tell react p n
  else
    match n with
    | .raw text =>
      match Collection.completion? text with
      | none => s.tell react p n
      | some c =>
        match s.endCollection react p c.isCanceled with
        | (none, s) => s.tell react p n
        | (some sets, s) =>
          s.tell react p (.raw (Message.carrying .executionComplete (c.attach sets)).text)
    | .runComplete r =>
      match s.endCollection react p r.runEnd.isCanceled with
      | (none, s) => s.tell react p n
      | (some sets, s) => s.tell react p (.runComplete (r.attach sets))
    | n => s.tell react p n

def launchUnderDebugger (s : Session) (p : Nat) (info : StartInfo) :
    Except Trouble Int32 × Session :=
  let answer := (s.parties[p]?.map fun q => q.observer.debugger info).getD
    (.error (.of "debugger is not available"))
  (answer, s.deliver react p (.launchUnderDebugger info))

end Session

end HostedTests
