import HostedTests.Session.Step

namespace HostedTests

structure Line where
  subscriber : Option Nat
  refusal : Option ChannelFault
  deriving DecidableEq, Repr

namespace Line

def fresh : Line := ⟨none, none⟩

end Line

structure Server where
  connection : String
  refusal : Option ChannelFault
  -- A host connects as soon as the server is started.
  greets : Bool
  -- It is not started while it is open.
  exclusive : Bool
  isOpen : Bool
  -- It was started, so the session is told of connections.
  tells : Bool
  starts : Nat
  stops : Nat
  deriving DecidableEq, Repr

namespace Server

def fresh (connection : String) (refusal : Option ChannelFault) (greets exclusive : Bool) :
    Server :=
  ⟨connection, refusal, greets, exclusive, false, false, 0, 0⟩

def start (v : Server) : Except ChannelFault Unit × Server :=
  let v := { v with starts := v.starts + 1 }
  match v.refusal with
  | some f => (.error f, v)
  | none =>
    if v.exclusive ∧ v.isOpen then (.error .alreadyListening, v)
    else (.ok (), { v with isOpen := true, tells := true })

def stop (v : Server) : Server := { v with isOpen := false, stops := v.stops + 1 }

end Server

structure Operation where
  state : OperationState
  party : Nat
  deriving DecidableEq, Repr

structure Collection where
  ended : Bool
  attachments : Option (List AttachmentSet)
  deriving DecidableEq

namespace Collection

def fresh : Collection := ⟨false, none⟩

end Collection

structure Party where
  observer : Observer
  hooks : List Hook
  collection : Option Collection

structure ExitWait where
  operation : Nat
  fault : Option ChannelFault
  deriving DecidableEq, Repr

inductive Manager.Kind where
  | operation
  | discovery
  | execution
  | collecting
  deriving DecidableEq, Repr

structure Manager where
  kind : Manager.Kind
  process : Option Nat
  connectionTimeout : Nat
  exitWait : Nat
  parameters : Option CollectionParameters
  recorded : List String

namespace Manager

def fresh (kind : Kind) (connectionTimeout exitWait : Nat) : Manager :=
  ⟨kind, none, connectionTimeout, exitWait, none, []⟩

end Manager

inductive Incident where
  | told (party : Nat) (notice : Notice)
  | sent (line : Nat) (text : String)
  | hostLaunched (info : StartInfo)
  | extensionsSought (sources : List String)
  | hostCleanedUp
  | collectorInitialized
  | collectorPrepared (reset startsNow : Bool)
  | collectorEnded (canceled : Bool)
  | acted (name : String) (result : StepResult)

structure Session where
  server : Server
  lines : List Line
  -- The line at hand: hosts connect over it.
  front : Nat
  channel : Option Nat
  connected : Bool
  operations : List Operation
  current : Option Nat
  hostHasExited : Bool
  exitWait : Nat
  waits : List ExitWait
  closed : Bool
  -- Nobody holds the session any more.
  abandoned : Bool
  parties : List Party
  collected : Option Nat
  collector : Collector
  manager : Option Manager
  host : HostBehaviour
  running : Nat
  record : List Incident

namespace Session

def fresh (server : Server) (collector : Collector) (manager : Option Manager)
    (host : HostBehaviour) (exitWait : Nat) : Session :=
  { server, collector, manager, host, exitWait
    lines := [.fresh], front := 0, channel := none, connected := false
    operations := [], current := none, hostHasExited := false, waits := []
    closed := false, abandoned := false, parties := [], collected := none
    running := 0, record := [] }

def note (s : Session) (i : Incident) : Session := { s with record := s.record ++ [i] }

def enroll (s : Session) (p : Party) : Session := { s with parties := s.parties ++ [p] }

def isCompleted (s : Session) (o : Nat) : Bool :=
  (s.operations[o]?.map (·.state.completed)).getD true

def active? (s : Session) : Option Operation :=
  (s.current.bind fun o => s.operations[o]?).filter fun p => !p.state.completed

def tryComplete (s : Session) (o : Nat) : Bool × Session :=
  match s.operations[o]? with
  | none => (false, s)
  | some p =>
    match p.state.tryComplete with
    | (false, _) => (false, s)
    | (true, state) => (true, { s with operations := s.operations.set o { p with state } })

def currentIsCompleted (s : Session) : Bool := (s.current.map s.isCompleted).getD false

def subscribe (s : Session) (line : Nat) (operation : Option Nat) : Session :=
  { s with lines := s.lines.modify line fun l => { l with subscriber := operation } }

def refuse (s : Session) (line : Nat) (f : Option ChannelFault) : Session :=
  { s with lines := s.lines.modify line fun l => { l with refusal := f } }

def transmit (s : Session) (line : Nat) (text : String) : Except ChannelFault Unit × Session :=
  match s.lines[line]?.bind (·.refusal) with
  | some f => (.error f, s)
  | none => (.ok (), s.note (.sent line text))

def collection? (s : Session) (p : Nat) : Option Collection := s.parties[p]?.bind (·.collection)

def setCollection (s : Session) (p : Nat) (c : Collection) : Session :=
  { s with parties := s.parties.modify p fun q => { q with collection := some c } }

end Session

abbrev Reaction := Nat → Notice → Session → Session

namespace Reaction

def quiet : Reaction := fun _ _ s => s

end Reaction

end HostedTests
