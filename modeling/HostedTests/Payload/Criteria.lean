import HostedTests.Payload.TestCase

namespace HostedTests

open Payload (Shape Fields)

structure DiscoveryCriteria where
  sources : List String
  frequency : Int64
  runSettings : String
  testCaseFilter : Option String
  deriving DecidableEq

namespace DiscoveryCriteria

def ofSources (sources : List String) : DiscoveryCriteria := ⟨sources, 10, "", none⟩

abbrev shape : Shape :=
  .record "DiscoveryCriteria" <|
    .required "Sources" (.list .text) <|
    .required "FrequencyOfDiscoveredTestsEvent" .int64 <|
    .defaulted "RunSettings" .text <|
    .defaulted "TestCaseFilter" (.optional .text) .nil

instance : Payload DiscoveryCriteria where
  shape := shape
  pack c := (c.sources, c.frequency, c.runSettings, c.testCaseFilter, ())
  unpack := fun (sources, frequency, settings, filter, _) => ⟨sources, frequency, settings, filter⟩

end DiscoveryCriteria

structure ExecutionContext where
  frequency : Int64
  inIsolation : Bool
  keepAlive : Bool
  isDebug : Bool
  testCaseFilter : Option String
  deriving DecidableEq

namespace ExecutionContext

def default : ExecutionContext := ⟨10, true, false, false, none⟩

abbrev shape : Shape :=
  .record "TestExecutionContext" <|
    .required "FrequencyOfRunStatsChangeEvent" .int64 <|
    .required "InIsolation" .flag <|
    .required "KeepAlive" .flag <|
    .required "IsDebug" .flag <|
    .defaulted "TestCaseFilter" (.optional .text) .nil

instance : Payload ExecutionContext where
  shape := shape
  pack c := (c.frequency, c.inIsolation, c.keepAlive, c.isDebug, c.testCaseFilter, ())
  unpack := fun (frequency, isolation, alive, debug, filter, _) =>
    ⟨frequency, isolation, alive, debug, filter⟩

end ExecutionContext

structure SourcesCriteria where
  adapterSources : Dictionary (List String)
  runSettings : String
  context : ExecutionContext
  deriving DecidableEq

namespace SourcesCriteria

abbrev shape : Shape :=
  .record "TestRunCriteriaWithSources" <|
    .required "AdapterSourceMap" (.dictionary (.list .text)) <|
    .defaulted "RunSettings" .text <|
    .required "TestExecutionContext" ExecutionContext.shape .nil

instance : Payload SourcesCriteria where
  shape := shape
  pack c := (c.adapterSources, c.runSettings, Payload.pack c.context, ())
  unpack := fun (sources, settings, context, _) => ⟨sources, settings, Payload.unpack context⟩

end SourcesCriteria

structure TestsCriteria where
  tests : List TestCase
  runSettings : String
  context : ExecutionContext
  deriving DecidableEq

namespace TestsCriteria

abbrev shape : Shape :=
  .record "TestRunCriteriaWithTests" <|
    .required "Tests" (.list TestCase.shape) <|
    .defaulted "RunSettings" .text <|
    .required "TestExecutionContext" ExecutionContext.shape .nil

instance : Payload TestsCriteria where
  shape := shape
  pack c := (Payload.pack c.tests, c.runSettings, Payload.pack c.context, ())
  unpack := fun (tests, settings, context, _) =>
    ⟨Payload.unpack tests, settings, Payload.unpack context⟩

end TestsCriteria

inductive RunCriteria where
  | sources (c : SourcesCriteria)
  | tests (c : TestsCriteria)
  deriving DecidableEq

namespace RunCriteria

def noAdapter : String := "_none_"

def ofSources (sources : List String) : RunCriteria :=
  .sources ⟨Dictionary.empty.insert noAdapter sources, "", .default⟩

def mentioned : RunCriteria → List String
  | .sources c => c.adapterSources.values.flatten
  | .tests c => c.tests.map (·.source)

def firstSeen (items : List String) : List String :=
  items.foldl (fun seen s => if s ∈ seen then seen else seen ++ [s]) []

def touched (c : RunCriteria) : List String := firstSeen c.mentioned

def context : RunCriteria → ExecutionContext
  | .sources c => c.context
  | .tests c => c.context

end RunCriteria

structure StartInfo where
  fileName : String
  arguments : String
  workingDirectory : Option String
  environment : Option (Dictionary String)
  deriving DecidableEq

namespace StartInfo

abbrev shape : Shape :=
  .record "TestProcessStartInfo" <|
    .required "FileName" .text <|
    .defaulted "Arguments" .text <|
    .defaulted "WorkingDirectory" (.optional .text) <|
    .defaulted "EnvironmentVariables" (.optional (.dictionary .text)) .nil

instance : Payload StartInfo where
  shape := shape
  pack i := (i.fileName, i.arguments, i.workingDirectory, i.environment, ())
  unpack := fun (file, arguments, directory, environment, _) =>
    ⟨file, arguments, directory, environment⟩

end StartInfo

end HostedTests
