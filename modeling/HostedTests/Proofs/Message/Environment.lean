import HostedTests.Proofs.Clock.Leniency
import HostedTests.Proofs.Message.Exchanged

namespace HostedTests

open Json (Value)
open Message (timestampNames)

def variableInUtc (e : String × String) : String × String :=
  (e.1, if e.1 ∈ timestampNames then Clock.Timestamp.toUtc e.2 else e.2)

namespace StartInfo

def environmentInUtc (d : Dictionary String) : Dictionary String where
  entries := d.entries.map variableInUtc
  ascending := List.pairwise_map.mpr d.ascending

def inUtc (p : StartInfo) : StartInfo :=
  { p with environment := p.environment.map environmentInUtc }

theorem variableInUtc_eq_iff {e : String × String} :
    variableInUtc e = e ↔ (e.1 ∈ timestampNames → Clock.Timestamp.toUtc e.2 = e.2) := by
  obtain ⟨name, text⟩ := e
  by_cases hname : name ∈ timestampNames
  · simp [variableInUtc, hname]
  · simp [variableInUtc, hname]

theorem environmentInUtc_eq_iff {d : Dictionary String} :
    environmentInUtc d = d ↔ ∀ e ∈ d.entries, variableInUtc e = e := by
  obtain ⟨entries, hascending⟩ := d
  constructor
  · intro h e he
    have hentries : entries.map variableInUtc = entries.map id :=
      (congrArg Dictionary.entries h).trans (List.map_id entries).symm
    exact List.map_inj_left.mp hentries e he
  · intro h
    have hentries : entries.map variableInUtc = entries :=
      (List.map_congr_left h).trans (List.map_id entries)
    simp only [environmentInUtc, hentries]

theorem inUtc_eq_iff {p : StartInfo} :
    p.inUtc = p ↔ ∀ d ∈ p.environment, ∀ e ∈ d.entries, e.1 ∈ timestampNames →
      ∀ i, Clock.Timestamp.strict e.2.toList = .ok i → i.format = e.2 := by
  have hvariable (d : Dictionary String) : environmentInUtc d = d ↔ ∀ e ∈ d.entries,
      e.1 ∈ timestampNames → ∀ i, Clock.Timestamp.strict e.2.toList = .ok i → i.format = e.2 := by
    simp only [environmentInUtc_eq_iff, variableInUtc_eq_iff, Clock.Timestamp.toUtc_eq_self_iff]
  obtain ⟨file, arguments, directory, environment⟩ := p
  cases environment with
  | none => simp [inUtc]
  | some d => simp [inUtc, hvariable]

theorem normalize_environment (d : Dictionary String) :
    Message.normalize ((Payload.Shape.dictionary .text).print d) =
      (Payload.Shape.dictionary .text).print (environmentInUtc d) := by
  change Message.normalize (.object (d.entries.map fun e => (e.1, .string e.2))) =
    .object ((d.entries.map variableInUtc).map fun e => (e.1, .string e.2))
  rw [Message.normalize, Message.normalizeMembers_eq, List.map_map, List.map_map]
  exact congrArg Value.object (List.map_congr_left fun e _ => rfl)

theorem toValue_eq (p : StartInfo) :
    Payload.toValue p = .object [("FileName", .string p.fileName),
      ("Arguments", .string p.arguments),
      ("WorkingDirectory", (Payload.Shape.optional .text).print p.workingDirectory),
      ("EnvironmentVariables", (Payload.Shape.optional (.dictionary .text)).print p.environment)] :=
  rfl

theorem normalize_toValue (p : StartInfo) :
    Message.normalize (Payload.toValue p) = Payload.toValue p.inUtc := by
  have htext (name text : String) (h : name ∉ timestampNames) :
      Message.normalizeMember (name, .string text) = (name, .string text) := by
    rw [Message.normalizeMember, if_neg h]
  have hdirectory := Message.normalize_print (.optional .text) rfl p.workingDirectory
  have henvironment :
      Message.normalize ((Payload.Shape.optional (.dictionary .text)).print p.environment) =
        (Payload.Shape.optional (.dictionary .text)).print p.inUtc.environment := by
    rw [inUtc]
    cases p.environment with
    | none => rfl
    | some d => exact normalize_environment d
  rw [toValue_eq, toValue_eq, Message.normalize, Message.normalizeMembers_eq]
  simp only [List.map_cons, List.map_nil]
  rw [htext _ _ (by decide), htext _ _ (by decide),
    Message.normalizeMember_of_not_timestamp _ (by decide),
    Message.normalizeMember_of_not_timestamp _ (by decide), hdirectory, henvironment]
  rfl

end StartInfo

namespace Message

theorem carries_inUtc {kind : Kind} (h : kind ≠ .remark) (p : StartInfo) :
    Carries (carrying kind p).text kind p.inUtc := by
  apply carries_startInfo_of_bound
  rw [boundPayload_contract h, StartInfo.normalize_toValue]

theorem carries_itself_iff {kind : Kind} (h : kind ≠ .remark) (p : StartInfo) :
    Carries (carrying kind p).text kind p ↔ p.inUtc = p := by
  constructor
  · intro hcarries
    exact carries_unique (carries_inUtc h p) hcarries
  · intro hp
    have hcarries := carries_inUtc h p
    rwa [hp] at hcarries

theorem startInfo_read_in_utc (p : StartInfo) :
    Carries (carrying .launchUnderDebugger p).text .launchUnderDebugger p.inUtc ∧
    (Carries (carrying .launchUnderDebugger p).text .launchUnderDebugger p ↔
      ∀ d ∈ p.environment, ∀ e ∈ d.entries, e.1 ∈ timestampNames →
        ∀ i, Clock.Timestamp.strict e.2.toList = .ok i → i.format = e.2) := by
  refine ⟨carries_inUtc (by decide) p, ?_⟩
  rw [carries_itself_iff (by decide), StartInfo.inUtc_eq_iff]

def zonedStart : StartInfo :=
  ⟨"f", "", none, some (Dictionary.empty.insert "StartTime" "2024-01-01T10:00:00+02:00")⟩

theorem zonedStart_not_read_back :
    ¬ Carries (carrying .launchUnderDebugger zonedStart).text .launchUnderDebugger zonedStart := by
  rw [carries_itself_iff (by decide)]
  decide

end Message

end HostedTests
