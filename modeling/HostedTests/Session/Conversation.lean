import HostedTests.Host.Process
import HostedTests.Host.Reference
import HostedTests.Session.Run

namespace HostedTests

structure Conversation where
  session : Session
  host : ReferenceHost
  toHost : List String
  toRunner : List String

namespace Conversation

def sentAfter (n : Nat) (s : Session) : List String :=
  (s.record.drop n).filterMap fun i => match i with
    | .sent _ text => some text
    | _ => none

def act (c : Conversation) (step : Step) : Conversation :=
  let s := (c.session.step .quiet [] step).2
  { c with session := s, toHost := c.toHost ++ sentAfter c.session.record.length s }

def ofSession (s : Session) : Conversation := ⟨s, .fresh, sentAfter 0 s, []⟩

variable (w : Surroundings)

def hostTurn (c : Conversation) : Conversation :=
  let (sent, host) := c.host.receiveAll w (c.toHost.map .text)
  { c with host, toHost := [], toRunner := c.toRunner ++ sent.flatten.map Message.text }

/-- The session takes a text from its host. Over one of more than `most` octets it gives up the
connection. -/
def accept (most : Nat) (c : Conversation) (text : String) : Conversation :=
  let size := text.utf8ByteSize
  if most < size then (c.act .endLine).act (.disconnect (some (.frameTooLarge size most)))
  else c.act (.receive text)

def runnerTurn (most : Nat) (c : Conversation) : Conversation :=
  c.toRunner.foldl (accept most) { c with toRunner := [] }

def settle (most : Nat) : Nat → Conversation → Conversation
  | 0, c => c
  | rounds + 1, c =>
    if c.toHost.isEmpty then c else settle most rounds ((c.hostTurn w).runnerTurn most)

/-- A host that has ended is gone: its exit is reported while the session waits for it, with so many
octets of its error stream at most. -/
def lose (limit : Nat) (c : Conversation) : Conversation :=
  match c.host.phase with
  | .ended e =>
    let report := (⟨.code e.code, Text.Utf8.encode e.stderr.toList⟩ : Exit).report limit
    ((c.act (.beginDisconnect (some .peerClosed))).act (.hostExited (some report.stderr))).act
      (.endDisconnect 0)
  | _ => c

end Conversation

/-- A conversation in which either side takes its next step whenever it likes. What the host has to
say it sends text by text. -/
structure Exchange extends Conversation where
  outbox : List String

namespace Exchange

inductive Turn where
  | host
  | runner
  deriving DecidableEq, Repr

def ofSession (s : Session) : Exchange := ⟨.ofSession s, []⟩

variable (w : Surroundings)

def next? (e : Exchange) : Turn → Option Exchange
  | .host =>
    match e.outbox, e.toHost with
    | text :: rest, _ => some { e with toRunner := e.toRunner ++ [text], outbox := rest }
    | [], text :: rest =>
      let (sent, host) := e.host.receive w (.text text)
      some { e with host, toHost := rest, outbox := sent.map Message.text }
    | [], [] => none
  | .runner =>
    match e.toRunner with
    | [] => none
    | text :: rest =>
      some ⟨{ e.toConversation with toRunner := rest }.act (.receive text), e.outbox⟩

def after (e : Exchange) (turns : List Turn) : Exchange :=
  turns.foldl (fun e turn => (e.next? w turn).getD e) e

end Exchange

end HostedTests
