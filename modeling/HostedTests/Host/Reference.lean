import HostedTests.Chunks
import HostedTests.Fault
import HostedTests.Files.Path
import HostedTests.Host.Source
import HostedTests.Message.Reader
import HostedTests.Payload.Completion
import HostedTests.Payload.Criteria

/-!
The reference host: it finds the tests in its sources and reports the results that the sources
prescribe, in chunks of the size that is asked for. Asked to run under a debugger, it first waits
until the runner has started one.
-/

namespace HostedTests

open SourceLine (parse)

/-- What a host finds around it. The clock shows something each time it is read. -/
structure Surroundings where
  read : String → Except String String
  id : Nat → Uuid
  clock : Nat → Clock.Reading
  program : String

def Surroundings.debuggee (w : Surroundings) : StartInfo := ⟨w.program, "--debuggee", none, none⟩

structure ScriptedTest where
  testCase : TestCase
  outcome : Outcome
  deriving DecidableEq

structure Loaded where
  tests : List ScriptedTest
  sent : List Message
  crash : Option String
  nextId : Nat

inductive HostEnd where
  | closed
  | crashed (text : String)
  | failed (t : Trouble)
  deriving DecidableEq, Repr

namespace HostEnd

def code : HostEnd → Nat
  | closed => 0
  | _ => 1

def stderr : HostEnd → String
  | closed => ""
  | crashed text => text ++ "\n"
  | failed t => t.text ++ "\n"

end HostEnd

inductive HostPhase where
  | serving
  | attaching (tests : List ScriptedTest) (context : ExecutionContext)
  | ended (e : HostEnd)

structure ReferenceHost where
  extensions : List String
  nextId : Nat
  nextReading : Nat
  phase : HostPhase

inductive Arrival where
  | text (s : String)
  | hangUp
  | fault (f : ChannelFault)

namespace ReferenceHost

def executorUri : String := "executor://hostlink/reference"

def names : List String := ["hostlink-testhost", "testhost"]

def isProgram (path : String) : Bool :=
  match (Files.Path.components path).getLast? with
  | some (.named name) => name ∈ names
  | _ => false

def fresh : ReferenceHost := ⟨[], 0, 0, .serving⟩

def remark (severity : Severity) (text : String) : Message :=
  .carrying .remark (⟨severity, text⟩ : Remark)

variable (w : Surroundings)

def loadLine (source : String) (l : Loaded) (line : SourceLine) : Loaded :=
  if l.crash.isSome then l
  else
    match line with
    | .crash text => { l with crash := some text }
    | .test name outcome =>
      let test : ScriptedTest := ⟨.named (w.id l.nextId) name executorUri source, outcome⟩
      { l with tests := l.tests ++ [test], nextId := l.nextId + 1 }

def loadSource (l : Loaded) (source : String) : Loaded :=
  if l.crash.isSome then l
  else
    match w.read source with
    | .error why =>
      { l with sent := l.sent ++ [remark .warning s!"could not read source {source}: {why}"] }
    | .ok text => (parse text).foldl (loadLine w source) l

def load (nextId : Nat) (sources : List String) : Loaded :=
  sources.foldl (loadSource w) ⟨[], [], none, nextId⟩

def reportDiscovery (tests : List TestCase) (frequency : Int64) : List Message :=
  let parts := chunks (chunkSize frequency) tests
  parts.dropLast.map (Message.carrying .testCasesFound) ++
    [.carrying .discoveryComplete
      (⟨Int64.ofNat tests.length, parts.getLast?, false⟩ : DiscoveryCompletion)]

/-- The clock is read before the test and after it, and also as the result is made. -/
def result (reading : Nat) (t : ScriptedTest) : TestResult :=
  let started := (w.clock reading).wall
  let made := TestResult.atOnce t.testCase t.outcome (w.clock (reading + 1)).wall
  let ended := (w.clock (reading + 2)).wall
  { made with
    errorMessage := if t.outcome = .failed then some "scripted failure" else made.errorMessage
    startTime := started
    endTime := ended
    duration := ended.since started }

def results (reading : Nat) : List ScriptedTest → List TestResult
  | [] => []
  | t :: rest => result w reading t :: results (reading + 3) rest

def change (all new : List TestResult) : RunChange := ⟨some (.ofResults all), some new, none⟩

def completion (elapsed : Clock.TimeSpan) (all new : List TestResult) : Message :=
  .carrying .executionComplete
    (⟨some ⟨some (.ofResults all), false, false, none, none, elapsed⟩, some (change all new), none,
      some [executorUri]⟩ : RunCompletion)

/-- The messages that report results. Some are sent already, and others wait until they make a chunk
of the given size. -/
def reportResults (size : Nat) (elapsed : Clock.TimeSpan) (sent waiting : List TestResult) :
    List TestResult → List Message
  | [] => [completion elapsed (sent ++ waiting) waiting]
  | r :: rest =>
    let waiting := waiting ++ [r]
    if waiting.length = size then
      .carrying .runStatsChange (change (sent ++ waiting) waiting) ::
        reportResults size elapsed (sent ++ waiting) [] rest
    else reportResults size elapsed sent waiting rest

/-- The clock is read before the first of these tests and after the last, too. -/
def firstReading (h : ReferenceHost) : Nat := h.nextReading + 1

def lastReading (h : ReferenceHost) (tests : List ScriptedTest) : Nat :=
  h.firstReading + 3 * tests.length

def elapsed (h : ReferenceHost) (tests : List ScriptedTest) : Clock.TimeSpan :=
  (w.clock (h.lastReading tests)).steady.since (w.clock h.nextReading).steady

def reportRun (h : ReferenceHost) (tests : List ScriptedTest) (context : ExecutionContext) :
    List Message × ReferenceHost :=
  (reportResults (chunkSize context.frequency) (h.elapsed w tests) [] []
      (results w h.firstReading tests),
    { h with nextReading := h.lastReading tests + 1 })

def finish (h : ReferenceHost) (e : HostEnd) : ReferenceHost := { h with phase := .ended e }

def run (h : ReferenceHost) (tests : List ScriptedTest) (context : ExecutionContext) :
    List Message × ReferenceHost :=
  if context.isDebug then
    ([.carrying .launchUnderDebugger w.debuggee], { h with phase := .attaching tests context })
  else h.reportRun w tests context

def afterLoad (h : ReferenceHost) (l : Loaded)
    (go : ReferenceHost → List Message × ReferenceHost) : List Message × ReferenceHost :=
  let h := { h with nextId := l.nextId }
  match l.crash with
  | some text => (l.sent, h.finish (.crashed text))
  | none =>
    let (messages, h) := go h
    (l.sent ++ messages, h)

def discover (h : ReferenceHost) (c : DiscoveryCriteria) : List Message × ReferenceHost :=
  let l := load w h.nextId c.sources
  h.afterLoad l fun h => (reportDiscovery (l.tests.map (·.testCase)) c.frequency, h)

def newTo (seen : Dictionary Unit) : List String → List String
  | [] => []
  | s :: rest => if (seen.get? s).isSome then newTo seen rest else s :: newTo (seen.insert s ()) rest

def runSources (h : ReferenceHost) (c : SourcesCriteria) : List Message × ReferenceHost :=
  let l := load w h.nextId (newTo .empty c.adapterSources.values.flatten)
  h.afterLoad l fun h => h.run w l.tests c.context

def outcomeOf (known : List ScriptedTest) (c : TestCase) : Outcome :=
  ((known.find? fun t => t.testCase.source = c.source ∧
    t.testCase.fullyQualifiedName = c.fullyQualifiedName).map (·.outcome)).getD .notFound

def sourcesOf (tests : List TestCase) : List String :=
  (Dictionary.ofList (tests.map fun c => (c.source, ()))).entries.map (·.1)

def runTests (h : ReferenceHost) (c : TestsCriteria) : List Message × ReferenceHost :=
  let l := load w h.nextId (sourcesOf c.tests)
  h.afterLoad l fun h => h.run w (c.tests.map fun t => ⟨t, outcomeOf l.tests t⟩) c.context

def fail (h : ReferenceHost) (t : Trouble) : List Message × ReferenceHost :=
  ([], h.finish (.failed t))

def expect {α : Type} (h : ReferenceHost) (payload : Except Message.Fault α)
    (go : α → List Message × ReferenceHost) : List Message × ReferenceHost :=
  match payload with
  | .error f => h.fail f.trouble
  | .ok a => go a

def serve (h : ReferenceHost) (m : Message) : List Message × ReferenceHost :=
  match m.kind with
  | .discoveryInitialize | .executionInitialize =>
    h.expect (m.bind : Except Message.Fault (Option (List String))) fun paths =>
      ([], { h with extensions := paths.getD [] })
  | .startDiscovery => h.expect m.require (h.discover w)
  | .startRunWithSources => h.expect m.require (h.runSources w)
  | .startRunWithTests => h.expect m.require (h.runTests w)
  | .cancelRun | .abortRun => ([], h)
  | .sessionEnd => ([], h.finish .closed)
  | other => h.fail (.of s!"unexpected message {other.wire}")

def attach (h : ReferenceHost) (tests : List ScriptedTest) (context : ExecutionContext)
    (m : Message) : List Message × ReferenceHost :=
  if m.kind = .launchedUnderDebugger then
    h.expect (m.require : Except Message.Fault Int32) fun process =>
      let (messages, h) := { h with phase := .serving }.reportRun w tests context
      (remark .informational s!"debugger attached to process {process}" :: messages, h)
  else ([], h)

def receive (h : ReferenceHost) (a : Arrival) : List Message × ReferenceHost :=
  match h.phase with
  | .ended _ => ([], h)
  | .serving =>
    match a with
    | .hangUp => ([], h.finish .closed)
    | .fault f => h.fail (f.trouble.within "receive from runner")
    | .text s =>
      match Message.parse s with
      | .error f => h.fail (f.trouble.within "decode message from runner")
      | .ok m => h.serve w m
  | .attaching tests context =>
    match a with
    | .hangUp => h.fail (.of "runner hung up while launching debugger")
    | .fault f => h.fail (f.trouble.within "receive from runner")
    | .text s =>
      match Message.parse s with
      | .error f => h.fail (f.trouble.within "decode message from runner")
      | .ok m => h.attach w tests context m

def receiveAll (h : ReferenceHost) : List Arrival → List (List Message) × ReferenceHost
  | [] => ([], h)
  | a :: rest =>
    let (sent, h) := h.receive w a
    let (more, h) := h.receiveAll rest
    (sent :: more, h)

end ReferenceHost

end HostedTests
