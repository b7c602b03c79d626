import HostedTests.Session.Dispatch

/-!
Requests of the user of a session. A request that is refused leaves the session as it was. A start
request is accepted once its operation is the current one; if it cannot be sent, the operation is
aborted at once.
-/

namespace HostedTests

def port? (text : String) : Option Nat := Text.unsigned? 65536 text.toList

namespace RunCriteria

def fault? : RunCriteria → Option CriteriaFault
  | .sources c => if c.adapterSources.values.all List.isEmpty then some .noRunSource else none
  | .tests c => if c.tests.isEmpty then some .noRunTest else none

def request : RunCriteria → Message
  | .sources c => .carrying .startRunWithSources c
  | .tests c => .carrying .startRunWithTests c

end RunCriteria

namespace DiscoveryCriteria

def fault? (c : DiscoveryCriteria) : Option CriteriaFault :=
  if c.sources.isEmpty then some .noDiscoverySource else none

def request (c : DiscoveryCriteria) : Message := .carrying .startDiscovery c

end DiscoveryCriteria

def OperationKind.extensionsMessage (k : OperationKind) (paths : List String) : Message :=
  match k with
  | discovery => .carrying .discoveryInitialize paths
  | execution => .carrying .executionInitialize paths

namespace Session

variable (react : Reaction)

def line? (s : Session) : Except RequestFault Nat :=
  if s.closed then .error .disposed
  else
    match s.channel with
    | none => .error .notConnected
    | some line => .ok line

def listen (s : Session) : Except RequestFault Nat × Session :=
  if s.closed then (.error .disposed, s)
  else
    match s.server.start with
    | (.error f, server) => (.error (.channel f), { s with server })
    | (.ok (), server) =>
      let s := { s with server }
      let s := if server.greets then s.connect s.front else s
      match port? server.connection with
      | none => (.error (.invalidConnectionString server.connection), s)
      | some port => (.ok port, s)

def send (s : Session) (m : Message) : Except RequestFault Unit × Session :=
  match s.line? with
  | .error f => (.error f, s)
  | .ok line =>
    match s.transmit line m.text with
    | (.error f, s) => (.error (.channel f), s)
    | (.ok (), s) => (.ok (), s)

def startOperation (s : Session) (kind : OperationKind) (party : Nat) (request : Message) :
    Except RequestFault Unit × Session :=
  match s.line? with
  | .error f => (.error f, s)
  | .ok line =>
    match s.active? with
    | some op => (.error (.operationInProgress op.state.kind), s)
    | none =>
      let o := s.operations.length
      let s := { s with
        operations := s.operations ++ [Operation.mk (.fresh kind) party]
        current := some o }
      match (s.subscribe line (some o)).transmit line request.text with
      | (.ok (), s) => (.ok (), s)
      | (.error f, s) => (.ok (), s.abort react o f.message)

def discover (s : Session) (criteria : DiscoveryCriteria) (party : Nat) :
    Except RequestFault Unit × Session :=
  if s.closed then (.error .disposed, s)
  else
    match criteria.fault? with
    | some f => (.error (.invalidCriteria f), s)
    | none => s.startOperation react .discovery party criteria.request

def run (s : Session) (criteria : RunCriteria) (party : Nat) : Except RequestFault Unit × Session :=
  if s.closed then (.error .disposed, s)
  else
    match criteria.fault? with
    | some f => (.error (.invalidCriteria f), s)
    | none => s.startOperation react .execution party criteria.request

def endSession (s : Session) : Except RequestFault Unit × Session :=
  if s.currentIsCompleted ∨ s.channel.isNone then (.ok (), s)
  else s.send (.signal .sessionEnd)

/-- Detaches the operation and the line, and stops the server. The second time nothing happens. -/
def close (s : Session) : Session :=
  if s.closed then s
  else
    let s := { s with closed := true, current := none }
    let s := match s.channel with
      | none => s
      | some line => s.subscribe line none
    { s with server := s.server.stop }

def leave (s : Session) : Session :=
  if s.manager.isSome then s else { s.close with abandoned := true }

end Session

end HostedTests
