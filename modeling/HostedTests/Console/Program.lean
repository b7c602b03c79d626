import HostedTests.Console.Basic
import HostedTests.Host.Network
import HostedTests.Host.Process
import HostedTests.Session.Conversation
import HostedTests.Settings.Store

/-!
The program: one task of the user on a machine, with all that is printed and the exit code. A host
that does not connect in time is given up.
-/

namespace HostedTests

open Files

inductive Task where
  | setUp (force : Bool)
  | discover (sources : List String)
  | run (sources : List String)
  deriving DecidableEq, Repr

structure CommandLine where
  settings : String
  task : Task
  deriving DecidableEq, Repr

def CommandLine.defaultSettings : String := "hostlink.toml"

structure Workplace where
  machine : Machine
  network : Network
  isReference : String → Bool
  process : Nat
  hostProcess : Nat
  clock : Nat → Clock.Reading

structure TaskResult where
  code : Nat
  output : String
  errors : String
  tree : Tree

namespace Workplace

def linesText (lines : List String) : String := String.join (lines.map (· ++ "\n"))

def surroundings (w : Workplace) (program : String) : Surroundings where
  read := fun source =>
    (w.machine.tree.readText w.machine.base source).mapError SystemFault.message
  id := fun n => .numbered (n + 1)
  clock := w.clock
  program := program

def hostBehaviour (w : Workplace) (s : Settings) : HostBehaviour where
  startInfo := fun port sources => s.hostCommand.startInfo sources none ⟨port, w.process⟩
  launch := fun info =>
    if w.isReference info.fileName then .ok ⟨w.hostProcess, w.network.reaches⟩
    else (s.hostCommand.launch w.machine info).map fun _ => ⟨w.hostProcess, false⟩
  extensions := s.hostCommand.extensions w.machine.tree w.machine.base

def observer : Observer :=
  ⟨"console", fun info =>
    .error (.of s!"cannot attach a debugger to {info.fileName} from the command line")⟩

def session (w : Workplace) (s : Settings) (kind : Manager.Kind) : Session :=
  .fresh (.fresh "1" none false true) .idle
    (some (.fresh kind (s.connectionTimeout.toNat * 1000) (Settings.exitWait * 1000)))
    (w.hostBehaviour s) 0

def noticesTo (party : Nat) (s : Session) : List Notice :=
  s.record.filterMap fun i => match i with
    | .told p n => if p = party then some n else none
    | _ => none

def operate (w : Workplace) (s : Settings) (kind : Manager.Kind) (start : Step) :
    StepResult × Session :=
  let (r, session) := (w.session s kind).step .quiet [] start
  match r with
  | .process _ =>
    let c := Conversation.ofSession session
    let c := c.settle (w.surroundings (s.host.command.headD "")) s.mostFrameOctets.toNat
      (c.toHost.length + 1)
    (r, ((c.lose s.stderrLimit.toNat).session.step .quiet [] .closeManager).2)
  | r => (r, session)

/-- The same with a host of any kind: once it has the request, anything may happen. -/
def attend (w : Workplace) (s : Settings) (host : HostBehaviour) (kind : Manager.Kind)
    (start : Step) (happenings : List Step) : StepResult × Session :=
  let started := { w.session s kind with host }.step .quiet [] start
  match started.1 with
  | .process _ => (started.1, ((started.2.after happenings).step .quiet [] .closeManager).2)
  | _ => started

def report (w : Workplace) (ended : StepResult × Session) : TaskResult :=
  let console := Console.after (noticesTo 0 ended.2)
  let (code, more) := match ended.1 with
    | .failed t => (1, [t.text])
    | _ => ((console.ended.getD .aborted).exitCode, [])
  ⟨code, linesText console.output, linesText (console.errors ++ more), w.machine.tree⟩

def failure (w : Workplace) (t : Trouble) : TaskResult :=
  ⟨1, "", linesText [t.text], w.machine.tree⟩

def resolve (w : Workplace) (source : String) : Except Trouble String :=
  let found := do
    let place ← w.machine.tree.locate true w.machine.base source
    if (w.machine.tree.node? place).isSome then .ok (Machine.pathOf place) else .error .notFound
  found.mapError fun (f : SystemFault) =>
    (Trouble.of f.message).within ("resolve source " ++ source)

def withSources (w : Workplace) (path : String) (sources : List String)
    (go : Settings → List String → TaskResult) : TaskResult :=
  match Settings.load w.machine.tree w.machine.base path with
  | .error f => w.failure f.trouble
  | .ok s =>
    match sources.mapM w.resolve with
    | .error t => w.failure t
    | .ok sources => go s sources

def discover (w : Workplace) (path : String) (sources : List String) : TaskResult :=
  w.withSources path sources fun s sources =>
    w.report (w.operate s .discovery (.startDiscovery (.ofSources sources) observer))

def run (w : Workplace) (path : String) (sources : List String) : TaskResult :=
  w.withSources path sources fun s sources =>
    w.report (w.operate s .execution (.startRun (.ofSources sources) observer))

def setUp (w : Workplace) (path : String) (force : Bool) : TaskResult :=
  let t := w.machine.tree
  if t.contains w.machine.base path ∧ !force then ⟨0, linesText [path ++ " already exists"], "", t⟩
  else
    match Settings.save t w.machine.base path .default none with
    | (.error f, t) => ⟨1, "", linesText [f.trouble.text], t⟩
    | (.ok (), t) => ⟨0, linesText ["wrote " ++ path], "", t⟩

def perform (w : Workplace) (c : CommandLine) : TaskResult :=
  match c.task with
  | .setUp force => w.setUp c.settings force
  | .discover sources => w.discover c.settings sources
  | .run sources => w.run c.settings sources

end Workplace

end HostedTests
