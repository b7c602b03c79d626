import HostedTests.Payload.TestCase

namespace HostedTests

open Payload (Shape Fields)

structure Remark where
  severity : Severity
  text : String
  deriving DecidableEq

namespace Remark

abbrev shape : Shape :=
  .record "TestMessagePayload" <|
    .required "MessageLevel" .severity <|
    .required "Message" .text .nil

instance : Payload Remark where
  shape := shape
  pack r := (r.severity, r.text, ())
  unpack := fun (severity, text, _) => ⟨severity, text⟩

end Remark

structure Attachment where
  uri : String
  description : Option String
  deriving DecidableEq

namespace Attachment

abbrev shape : Shape :=
  .record "UriDataAttachment" <|
    .required "Uri" .text <|
    .defaulted "Description" (.optional .text) .nil

instance : Payload Attachment where
  shape := shape
  pack a := (a.uri, a.description, ())
  unpack := fun (uri, description, _) => ⟨uri, description⟩

end Attachment

structure AttachmentSet where
  uri : String
  displayName : String
  attachments : List Attachment
  deriving DecidableEq

namespace AttachmentSet

abbrev shape : Shape :=
  .record "AttachmentSet" <|
    .required "Uri" .text <|
    .required "DisplayName" .text <|
    .defaulted "Attachments" (.list Attachment.shape) .nil

instance : Payload AttachmentSet where
  shape := shape
  pack s := (s.uri, s.displayName, Payload.pack s.attachments, ())
  unpack := fun (uri, display, attachments, _) => ⟨uri, display, Payload.unpack attachments⟩

end AttachmentSet

structure RunEnd where
  statistics : Option RunStatistics
  isCanceled : Bool
  isAborted : Bool
  error : Option String
  attachmentSets : Option (List AttachmentSet)
  elapsed : Clock.TimeSpan
  deriving DecidableEq

namespace RunEnd

def aborted (error : Option String) : RunEnd := ⟨none, false, true, error, none, .zero⟩

abbrev shape : Shape :=
  .record "TestRunCompleteEventArgs" <|
    .defaulted "TestRunStatistics" (.optional RunStatistics.shape) <|
    .required "IsCanceled" .flag <|
    .required "IsAborted" .flag <|
    .defaulted "Error" (.optional .text) <|
    .defaulted "AttachmentSets" (.optional (.list AttachmentSet.shape)) <|
    .required "ElapsedTimeInRunningTests" .timeSpan .nil

instance : Payload RunEnd where
  shape := shape
  pack e := (Payload.pack e.statistics, e.isCanceled, e.isAborted, e.error,
    Payload.pack e.attachmentSets, e.elapsed, ())
  unpack := fun (statistics, canceled, aborted, error, sets, elapsed, _) =>
    ⟨Payload.unpack statistics, canceled, aborted, error, Payload.unpack sets, elapsed⟩

end RunEnd

structure RunCompletion where
  runEnd : Option RunEnd
  lastChange : Option RunChange
  attachments : Option (List AttachmentSet)
  executorUris : Option (List String)
  deriving DecidableEq

namespace RunCompletion

def only (runEnd : RunEnd) : RunCompletion := ⟨some runEnd, none, none, none⟩

abbrev shape : Shape :=
  .record "TestRunCompletePayload" <|
    .defaulted "TestRunCompleteArgs" (.optional RunEnd.shape) <|
    .defaulted "LastRunTests" (.optional RunChange.shape) <|
    .defaulted "RunAttachments" (.optional (.list AttachmentSet.shape)) <|
    .defaulted "ExecutorUris" (.optional (.list .text)) .nil

instance : Payload RunCompletion where
  shape := shape
  pack c := (Payload.pack c.runEnd, Payload.pack c.lastChange, Payload.pack c.attachments,
    c.executorUris, ())
  unpack := fun (runEnd, change, attachments, uris, _) =>
    ⟨Payload.unpack runEnd, Payload.unpack change, Payload.unpack attachments, uris⟩

end RunCompletion

/-- The completion of a discovery. An aborted one has the total -1. -/
structure DiscoveryCompletion where
  total : Int64
  lastTests : Option (List TestCase)
  isAborted : Bool
  deriving DecidableEq

namespace DiscoveryCompletion

def aborted : DiscoveryCompletion := ⟨-1, none, true⟩

abbrev shape : Shape :=
  .record "DiscoveryCompletePayload" <|
    .required "TotalTests" .int64 <|
    .defaulted "LastDiscoveredTests" (.optional (.list TestCase.shape)) <|
    .required "IsAborted" .flag .nil

instance : Payload DiscoveryCompletion where
  shape := shape
  pack c := (c.total, Payload.pack c.lastTests, c.isAborted, ())
  unpack := fun (total, last, aborted, _) => ⟨total, Payload.unpack last, aborted⟩

end DiscoveryCompletion

end HostedTests
