import HostedTests.Session.Request

/-!
Managers: they start a host for a session, have it told of the adapters and start an operation. An
operation whose host cannot be made ready is told to its observer as aborted. A data collector
prepares for the run before the host is started, and a fault on its side is only reported.
-/

namespace HostedTests.Session

variable (react : Reaction)

def modifyManager (s : Session) (f : Manager → Manager) : Session :=
  { s with manager := s.manager.map f }

def closeManager (s : Session) : Session := s.endSession.2.close.note .hostCleanedUp

def abandonHost (s : Session) : Session := s.close.note .hostCleanedUp

def launchHost (s : Session) (info : StartInfo) : Except Trouble Nat × Session :=
  let s := s.note (.hostLaunched info)
  match s.host.launch info with
  | .error t => (.error t, s)
  | .ok launch =>
    let s := { s with running := s.running + 1 }
    (.ok launch.process, if launch.connects ∧ s.server.tells then s.connect s.front else s)

def readyHost (s : Session) (sources : List String) (kind : OperationKind) :
    Except Trouble Unit × Session :=
  let s := s.note (.extensionsSought sources)
  match s.host.extensions sources with
  | .error t => (.error (t.within "find adapter extensions"), s)
  | .ok paths =>
    match s.send (kind.extensionsMessage paths) with
    | (.error f, s) => (.error (f.trouble.within "initialize test host"), s)
    | (.ok (), s) => (.ok (), s)

def setUp (s : Session) (m : Manager) (sources : List String) (kind : OperationKind) :
    Except Trouble Nat × Session :=
  match m.process with
  | some process => (.ok process, s)
  | none =>
    match s.listen with
    | (.error f, s) => (.error (f.trouble.within "initialize communication"), s)
    | (.ok port, s) =>
      match s.host.startInfo port sources with
      | .error t => (.error (t.within "build test host start info"), s)
      | .ok info =>
        let info := (m.parameters.map info.collecting).getD info
        match { s with exitWait := m.exitWait }.launchHost info with
        | (.error t, s) => (.error (t.within "launch test host"), s)
        | (.ok process, s) =>
          if !s.connected then
            (.error (.of
              s!"test host (pid {process}) did not connect within {m.connectionTimeout / 1000}s"),
              s.abandonHost)
          else
            match s.readyHost sources kind with
            | (.error t, s) => (.error t, s.abandonHost)
            | (.ok (), s) =>
              (.ok process, s.modifyManager fun m => { m with process := some process })

def failureNotice (kind : OperationKind) (t : Trouble) : Notice := kind.abortNotice t.text

def startManaged (s : Session) (m : Manager) (kind : OperationKind) (sources : List String)
    (context : String) (party : Nat)
    (start : Session → Except RequestFault Unit × Session) : Except Trouble Nat × Session :=
  let started : Except Trouble Nat × Session :=
    match s.setUp m sources kind with
    | (.error t, s) => (.error t, s)
    | (.ok process, s) =>
      match start s with
      | (.error f, s) => (.error (f.trouble.within context), s)
      | (.ok (), s) => (.ok process, s)
  match started with
  | (.ok process, s) => (.ok process, s)
  | (.error t, s) =>
    (.error t, (s.deliver react party (.log .error t.text)).deliver react party
      (failureNotice kind t))

def startDiscovery (s : Session) (m : Manager) (criteria : DiscoveryCriteria) (party : Nat) :
    Except Trouble Nat × Session :=
  s.startManaged react m .discovery criteria.sources "start discovery" party
    fun s => s.discover react criteria party

def startRun (s : Session) (m : Manager) (criteria : RunCriteria) (party : Nat) :
    Except Trouble Nat × Session :=
  let s := s.modifyManager fun m => { m with recorded := [] }
  let s := m.recorded.foldl (fun s text => s.deliver react party (.log .error text)) s
  s.startManaged react (s.manager.getD m) .execution criteria.touched "start test run" party
    fun s => s.run react criteria party

def keep (s : Session) (said : List Utterance) : Session :=
  s.modifyManager fun m => { m with recorded := m.recorded ++ said.filterMap Utterance.logged? }

def endPreparation (s : Session) : Except Trouble (List AttachmentSet) × Session :=
  let (answer, s) := s.callCollector true
  (answer.outcome, s.keep answer.utterances)

def prepareCollection (s : Session) : Except Trouble Unit × Session :=
  let s := s.note .collectorInitialized
  match s.collector.initializing with
  | .error t => (.error (t.within "initialize data collection"), s)
  | .ok () =>
    let s := s.note (.collectorPrepared true true)
    let s := s.keep s.collector.preparation.utterances
    match s.collector.preparation.outcome with
    | .ok none => (.ok (), s)
    | .ok (some p) => (.ok (), s.modifyManager fun m => { m with parameters := some p })
    | .error t => (.ok (), (s.keep [.log .error t.text]).endPreparation.2)

def signalManaged (s : Session) (kind : Message.Kind) (context : String) :
    Except Trouble Unit × Session :=
  match s.send (.signal kind) with
  | (.error f, s) => (.error (f.trouble.within context), s)
  | (.ok (), s) => (.ok (), s)

def abortManagedRun (s : Session) : Except Trouble Unit × Session :=
  s.signalManaged .abortRun "abort test run"

def cancelManagedRun (s : Session) (m : Manager) : Except Trouble Unit × Session :=
  if m.kind = .collecting then
    let (ended, s) := s.endPreparation
    match s.signalManaged .cancelRun "cancel test run" with
    | (.error t, s) => (.error t, s)
    | (.ok (), s) =>
      match ended with
      | .error t => (.error (t.within "end data collection"), s)
      | .ok _ => (.ok (), s)
  else s.signalManaged .cancelRun "cancel test run"

end HostedTests.Session
