import HostedTests.Payload.Completion
import HostedTests.Payload.Criteria
import HostedTests.Proofs.Message.Carrying

namespace HostedTests

def TestResult.truncated (r : TestResult) : TestResult :=
  { r with duration := r.duration.truncated }

def RunChange.truncated (c : RunChange) : RunChange :=
  { c with newResults := c.newResults.map fun results => results.map TestResult.truncated }

def RunEnd.truncated (e : RunEnd) : RunEnd := { e with elapsed := e.elapsed.truncated }

def RunCompletion.truncated (c : RunCompletion) : RunCompletion :=
  { c with
    runEnd := c.runEnd.map RunEnd.truncated
    lastChange := c.lastChange.map RunChange.truncated }

theorem RunCompletion.truncated_aborted (error : Option String) :
    (only (.aborted error)).truncated = only (.aborted error) := by
  have hzero : Clock.TimeSpan.zero.truncated = .zero := by decide
  simp only [truncated, only, RunEnd.aborted, Option.map_some, Option.map_none, RunEnd.truncated,
    hzero]

namespace Message

open Payload (Shape)

instance : LawfulPayload String := ⟨fun _ => rfl⟩

instance : LawfulPayload Int32 := ⟨fun _ => rfl⟩

instance : LawfulPayload RunStatistics := ⟨fun _ => rfl⟩

instance : LawfulPayload Attachment := ⟨fun _ => rfl⟩

instance : LawfulPayload AttachmentSet := by
  constructor
  intro s
  obtain ⟨uri, display, attachments⟩ := s
  exact congrArg (AttachmentSet.mk uri display) (LawfulPayload.unpack_pack attachments)

instance : LawfulPayload Remark := ⟨fun _ => rfl⟩

instance : LawfulPayload TestCase := ⟨fun _ => rfl⟩

instance : LawfulPayload DiscoveryCriteria := ⟨fun _ => rfl⟩

instance : LawfulPayload SourcesCriteria := ⟨fun _ => rfl⟩

instance : LawfulPayload TestsCriteria := by
  constructor
  intro c
  obtain ⟨tests, settings, context⟩ := c
  exact congrArg (TestsCriteria.mk · settings context) (LawfulPayload.unpack_pack tests)

instance : LawfulPayload DiscoveryCompletion := by
  constructor
  intro c
  obtain ⟨total, last, aborted⟩ := c
  exact congrArg (DiscoveryCompletion.mk total · aborted) (LawfulPayload.unpack_pack last)

instance : LawfulPayload StartInfo := ⟨fun _ => rfl⟩

instance : ExhaustivePayload TestCase := ⟨fun _ => rfl⟩

instance : ExhaustivePayload TestResult := ⟨fun _ => rfl⟩

instance : ExhaustivePayload RunStatistics := ⟨fun _ => rfl⟩

instance : ExhaustivePayload Attachment := ⟨fun _ => rfl⟩

instance : ExhaustivePayload AttachmentSet := by
  constructor
  rintro ⟨uri, display, attachments, _⟩
  have hattachments := ExhaustivePayload.pack_unpack (α := List Attachment) attachments
  exact congrArg (fun attachments => (uri, display, attachments, ())) hattachments

instance : ExhaustivePayload RunChange := by
  constructor
  rintro ⟨statistics, results, active, _⟩
  have hstatistics := ExhaustivePayload.pack_unpack (α := Option RunStatistics) statistics
  have hresults := ExhaustivePayload.pack_unpack (α := Option (List TestResult)) results
  have hactive := ExhaustivePayload.pack_unpack (α := Option (List TestCase)) active
  exact Prod.ext hstatistics (Prod.ext hresults (Prod.ext hactive rfl))

instance : ExhaustivePayload RunEnd := by
  constructor
  rintro ⟨statistics, canceled, aborted, error, sets, elapsed, _⟩
  have hstatistics := ExhaustivePayload.pack_unpack (α := Option RunStatistics) statistics
  have hsets := ExhaustivePayload.pack_unpack (α := Option (List AttachmentSet)) sets
  exact Prod.ext hstatistics
    (congrArg (fun sets => (canceled, aborted, error, sets, elapsed, ())) hsets)

instance : ExhaustivePayload RunCompletion := by
  constructor
  rintro ⟨runEnd, change, sets, uris, _⟩
  have hend := ExhaustivePayload.pack_unpack (α := Option RunEnd) runEnd
  have hchange := ExhaustivePayload.pack_unpack (α := Option RunChange) change
  have hsets := ExhaustivePayload.pack_unpack (α := Option (List AttachmentSet)) sets
  exact Prod.ext hend (Prod.ext hchange (Prod.ext hsets rfl))

theorem settles_testResult : Settles TestResult TestResult.truncated := by
  intro r
  have htest : Payload.unpack (TestCase.shape.canon (Payload.pack r.testCase)) = r.testCase :=
    settles_exact (α := TestCase) rfl r.testCase
  have htext (t : Option String) : (Shape.optional .text).canon t = t :=
    Payload.canon_eq (.optional .text) rfl t
  change TestResult.mk (Payload.unpack (TestCase.shape.canon (Payload.pack r.testCase))) r.outcome
    ((Shape.optional .text).canon r.errorMessage) ((Shape.optional .text).canon r.errorStackTrace)
    ((Shape.optional .text).canon r.displayName) ((Shape.optional .text).canon r.computerName)
    r.duration.truncated r.startTime r.endTime = r.truncated
  rw [htest, htext, htext, htext, htext]
  rfl

theorem settles_runChange : Settles RunChange RunChange.truncated := by
  intro c
  have hstatistics := settles_exact (α := Option RunStatistics) rfl c.statistics
  have hresults := settles_option (settles_list settles_testResult) c.newResults
  have htests := settles_exact (α := Option (List TestCase)) rfl c.activeTests
  change RunChange.mk (Payload.unpack ((Payload.shape (Option RunStatistics)).canon
      (Payload.pack c.statistics)))
    (Payload.unpack ((Payload.shape (Option (List TestResult))).canon (Payload.pack c.newResults)))
    (Payload.unpack ((Payload.shape (Option (List TestCase))).canon
      (Payload.pack c.activeTests))) = _
  rw [hstatistics, hresults, htests]
  rfl

theorem settles_runEnd : Settles RunEnd RunEnd.truncated := by
  intro e
  have hstatistics := settles_exact (α := Option RunStatistics) rfl e.statistics
  have herror : (Shape.optional .text).canon e.error = e.error :=
    Payload.canon_eq (.optional .text) rfl e.error
  have hsets := settles_exact (α := Option (List AttachmentSet)) rfl e.attachmentSets
  change RunEnd.mk (Payload.unpack ((Payload.shape (Option RunStatistics)).canon
      (Payload.pack e.statistics))) e.isCanceled e.isAborted ((Shape.optional .text).canon e.error)
    (Payload.unpack ((Payload.shape (Option (List AttachmentSet))).canon
      (Payload.pack e.attachmentSets))) e.elapsed.truncated = _
  rw [hstatistics, herror, hsets]
  rfl

theorem settles_runCompletion : Settles RunCompletion RunCompletion.truncated := by
  intro c
  have hend := settles_option settles_runEnd c.runEnd
  have hchange := settles_option settles_runChange c.lastChange
  have hsets := settles_exact (α := Option (List AttachmentSet)) rfl c.attachments
  have huris : (Shape.optional (.list .text)).canon c.executorUris = c.executorUris :=
    Payload.canon_eq (.optional (.list .text)) rfl c.executorUris
  change RunCompletion.mk
    (Payload.unpack ((Payload.shape (Option RunEnd)).canon (Payload.pack c.runEnd)))
    (Payload.unpack ((Payload.shape (Option RunChange)).canon (Payload.pack c.lastChange)))
    (Payload.unpack ((Payload.shape (Option (List AttachmentSet))).canon
      (Payload.pack c.attachments)))
    ((Shape.optional (.list .text)).canon c.executorUris) = _
  rw [hend, hchange, hsets, huris]
  rfl

theorem carries_startInfo_of_bound (kind : Kind) {p q : StartInfo}
    (h : boundPayload ⟨kind, (Payload.toValue p).sorted⟩ = (Payload.toValue q).sorted) :
    Carries (carrying kind p).text kind q := by
  have hcarries := carries_of_bound kind rfl (by decide) (by decide) h
  rwa [settles_exact rfl q] at hcarries

theorem carries_startInfo (kind : Kind) {p : StartInfo} (h : p.environment = none) :
    Carries (carrying kind p).text kind p := by
  obtain ⟨file, arguments, directory, environment⟩ := p
  cases h
  apply carries_startInfo_of_bound
  apply boundPayload_normal
  cases directory <;> rfl

theorem bind_optional_texts (kind : Kind) (texts : List String) :
    ∃ m, parse (carrying kind texts).text = .ok m ∧ m.kind = kind ∧
      (m.bind : Except Fault (Option (List String))) = .ok (some texts) := by
  have hcanon : (Payload.shape (List String)).canon (Payload.pack texts) = Payload.pack texts :=
    Payload.canon_eq (.list .text) rfl _
  have hnormal := normalize_print (.list .text) rfl (Payload.pack texts)
  obtain ⟨hread, hbind⟩ := parse_carrying (α := Option (List String)) kind (by decide) (by decide)
    (some texts) hnormal
  refine ⟨_, hread, rfl, hbind.trans ?_⟩
  change Except.ok (some (Payload.unpack ((Payload.shape (List String)).canon
    (Payload.pack texts)))) = _
  rw [hcanon, LawfulPayload.unpack_pack]

theorem payloads_read_back (kind : Kind) :
    (∀ texts : List String, Carries (carrying kind texts).text kind texts) ∧
    (∀ tests : List TestCase, Carries (carrying kind tests).text kind tests) ∧
    (∀ n : Int32, Carries (carrying kind n).text kind n) ∧
    (∀ r : Remark, Carries (carrying kind r).text kind r) ∧
    (∀ c : DiscoveryCriteria, Carries (carrying kind c).text kind c) ∧
    (∀ c : DiscoveryCompletion, Carries (carrying kind c).text kind c) ∧
    (∀ c : SourcesCriteria, Carries (carrying kind c).text kind c) ∧
    (∀ c : TestsCriteria, Carries (carrying kind c).text kind c) ∧
    (∀ c : RunChange, Carries (carrying kind c).text kind c.truncated) ∧
    ∀ c : RunCompletion, Carries (carrying kind c).text kind c.truncated := by
  refine ⟨?_, ?_, ?_, ?_, ?_, ?_, ?_, ?_, ?_, ?_⟩
  · exact carries_exact rfl (by decide) kind
  · exact carries_exact rfl (by decide) kind
  · exact carries_exact rfl (by decide) kind
  · exact carries_exact rfl (by decide) kind
  · exact carries_exact rfl (by decide) kind
  · exact carries_exact rfl (by decide) kind
  · exact carries_exact rfl (by decide) kind
  · exact carries_exact rfl (by decide) kind
  · exact carries_settled settles_runChange (by decide) kind
  · exact carries_settled settles_runCompletion (by decide) kind

end Message

end HostedTests
