import HostedTests.Payload.Basic

namespace HostedTests

open Payload (Shape Fields)

structure TestCase where
  id : Uuid
  fullyQualifiedName : String
  executorUri : String
  source : String
  displayName : String
  codeFilePath : Option String
  lineNumber : Int32
  deriving DecidableEq

namespace TestCase

def named (id : Uuid) (name executorUri source : String) : TestCase :=
  ⟨id, name, executorUri, source, name, none, -1⟩

abbrev shape : Shape :=
  .record "TestCase" <|
    .required "Id" .uuid <|
    .required "FullyQualifiedName" .text <|
    .required "ExecutorUri" .text <|
    .required "Source" .text <|
    .required "DisplayName" .text <|
    .defaulted "CodeFilePath" (.optional .text) <|
    .defaulted "LineNumber" .int32 .nil

instance : Payload TestCase where
  shape := shape
  pack c := (c.id, c.fullyQualifiedName, c.executorUri, c.source, c.displayName, c.codeFilePath,
    c.lineNumber, ())
  unpack := fun (id, name, executor, source, display, file, line, _) =>
    ⟨id, name, executor, source, display, file, line⟩

end TestCase

structure TestResult where
  testCase : TestCase
  outcome : Outcome
  errorMessage : Option String
  errorStackTrace : Option String
  displayName : Option String
  computerName : Option String
  duration : Clock.TimeSpan
  startTime : Clock.Instant
  endTime : Clock.Instant
  deriving DecidableEq

namespace TestResult

def atOnce (testCase : TestCase) (outcome : Outcome) (now : Clock.Instant) : TestResult :=
  ⟨testCase, outcome, none, none, none, none, .zero, now, now⟩

abbrev shape : Shape :=
  .record "TestResult" <|
    .required "TestCase" TestCase.shape <|
    .required "Outcome" .outcome <|
    .defaulted "ErrorMessage" (.optional .text) <|
    .defaulted "ErrorStackTrace" (.optional .text) <|
    .defaulted "DisplayName" (.optional .text) <|
    .defaulted "ComputerName" (.optional .text) <|
    .required "Duration" .timeSpan <|
    .required "StartTime" .instant <|
    .required "EndTime" .instant .nil

instance : Payload TestResult where
  shape := shape
  pack r := (Payload.pack r.testCase, r.outcome, r.errorMessage, r.errorStackTrace, r.displayName,
    r.computerName, r.duration, r.startTime, r.endTime, ())
  unpack := fun (c, outcome, message, trace, display, computer, duration, start, stop, _) =>
    ⟨Payload.unpack c, outcome, message, trace, display, computer, duration, start, stop⟩

end TestResult

structure RunStatistics where
  executed : Int64
  tally : Tally
  deriving DecidableEq

namespace RunStatistics

def empty : RunStatistics := ⟨0, .empty⟩

def add (s : RunStatistics) (r : TestResult) : RunStatistics :=
  ⟨s.executed + 1, s.tally.add r.outcome⟩

def ofResults (results : List TestResult) : RunStatistics := results.foldl add empty

def count (s : RunStatistics) (o : Outcome) : Int64 := s.tally.count o

abbrev shape : Shape :=
  .record "TestRunStatistics" <|
    .required "ExecutedTests" .int64 <|
    .defaulted "Stats" .tally .nil

instance : Payload RunStatistics where
  shape := shape
  pack s := (s.executed, s.tally, ())
  unpack := fun (executed, tally, _) => ⟨executed, tally⟩

end RunStatistics

structure RunChange where
  statistics : Option RunStatistics
  newResults : Option (List TestResult)
  activeTests : Option (List TestCase)
  deriving DecidableEq

namespace RunChange

abbrev shape : Shape :=
  .record "TestRunChangedEventArgs" <|
    .defaulted "TestRunStatistics" (.optional RunStatistics.shape) <|
    .defaulted "NewTestResults" (.optional (.list TestResult.shape)) <|
    .defaulted "ActiveTests" (.optional (.list TestCase.shape)) .nil

instance : Payload RunChange where
  shape := shape
  pack c := (Payload.pack c.statistics, Payload.pack c.newResults, Payload.pack c.activeTests, ())
  unpack := fun (statistics, results, active, _) =>
    ⟨Payload.unpack statistics, Payload.unpack results, Payload.unpack active⟩

end RunChange

end HostedTests
