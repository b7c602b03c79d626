import HostedTests.Host.Process
import HostedTests.Proofs.Dictionary
import HostedTests.Proofs.Text.Words
import HostedTests.Session.Behaviour

/-!
Hosts as they are launched. The arguments of a command are joined to one text, are followed by the
place of the meeting and by what the collector adds, and are cut into words again when the process
starts: a host is given the words of its command's arguments, which are those arguments just when
each of them is one word.
-/

namespace HostedTests

open Files

namespace CollectionParameters

def arguments (p : CollectionParameters) : List String :=
  ["--datacollectionport", toString p.port]

end CollectionParameters

namespace Rendezvous

theorem isWord_arguments (r : Rendezvous) : ∀ s ∈ r.arguments, Text.IsWord s := by
  simp only [arguments, List.forall_mem_cons]
  exact ⟨by decide, Text.isWord_number r.port, by decide, Text.isWord_number r.parent, by simp⟩

end Rendezvous

namespace StartInfo

theorem words_eq (i : StartInfo) : i.words = Text.wordsOf i.arguments := rfl

def amended (i : StartInfo) (collector : Option CollectionParameters) : StartInfo :=
  (collector.map i.collecting).getD i

theorem words_amended (i : StartInfo) (collector : Option CollectionParameters) :
    (i.amended collector).words =
      i.words ++ collector.elim [] CollectionParameters.arguments := by
  cases collector with
  | none => exact (List.append_nil _).symm
  | some p =>
    have hflag : (" --datacollectionport " : String) = " " ++ "--datacollectionport" ++ " " := rfl
    have hwords : Text.wordsOf "--datacollectionport" = ["--datacollectionport"] :=
      Text.wordsOf_of_isWord (by decide)
    simp only [amended, Option.map_some, Option.getD_some, Option.elim, words_eq, collecting,
      Text.wordsOf_trimStart, hflag, ← String.append_assoc]
    rw [Text.wordsOf_append_space, Text.wordsOf_append_space, hwords,
      Text.wordsOf_of_isWord (Text.isWord_number p.port), List.append_assoc]
    rfl

theorem environment_amended (i : StartInfo) (collector : Option CollectionParameters)
    (name : String) :
    (i.amended collector).invocation.environment.get? name =
      (collector.bind (·.environment.get? name)).or (i.environment.bind (·.get? name)) := by
  have hgiven : (i.environment.getD .empty).get? name = i.environment.bind (·.get? name) := by
    cases i.environment <;> rfl
  cases collector with
  | none => exact hgiven
  | some p => exact (Dictionary.get?_extend _ p.environment name).trans (by rw [hgiven]; rfl)

end StartInfo

namespace HostCommand

variable (program : String) (arguments : List String) (pattern : String) (limit : Nat)
variable (source : String) (others : List String) (given : Option (Dictionary String))
variable (r : Rendezvous) (collector : Option CollectionParameters)

theorem words_startInfo :
    (StartInfo.mk program (" ".intercalate (arguments ++ r.arguments))
      (Path.directory? source) given).words = arguments.flatMap Text.wordsOf ++ r.arguments := by
  rw [StartInfo.words_eq, Text.wordsOf_intercalate, List.flatMap_append,
    (Text.flatMap_wordsOf_eq_iff r.arguments).2 r.isWord_arguments]

theorem launched_with_words :
    let h : HostCommand := ⟨program :: arguments, pattern, limit⟩
    let added := r.arguments ++ collector.elim [] CollectionParameters.arguments
    ∃ info, h.startInfo (source :: others) given r = .ok info ∧
      let i := (info.amended collector).invocation
      i.program = program ∧ i.directory = Path.directory? source ∧
      i.arguments = arguments.flatMap Text.wordsOf ++ added ∧
      (i.arguments = arguments ++ added ↔ ∀ s ∈ arguments, Text.IsWord s) ∧
      (∀ name, i.environment.get? name =
        (collector.bind (·.environment.get? name)).or (given.bind (·.get? name))) ∧
      ∀ m : Machine, h.launch m (info.amended collector) =
        match m.spawn i with
        | .ok e => .ok (e.report limit)
        | .error f => .error (((Trouble.of f.message).within "spawn command").within
            ("launch test host " ++ program)) := by
  intro h added
  let info : StartInfo := ⟨program, " ".intercalate (arguments ++ r.arguments),
    Path.directory? source, given⟩
  have hprogram : (info.amended collector).fileName = program := by cases collector <;> rfl
  have hdirectory : (info.amended collector).workingDirectory = Path.directory? source := by
    cases collector <;> rfl
  have harguments : (info.amended collector).words = arguments.flatMap Text.wordsOf ++ added := by
    rw [StartInfo.words_amended, words_startInfo, List.append_assoc]
  refine ⟨info, rfl, hprogram, hdirectory, harguments,
    ?_, info.environment_amended collector, fun m => ?_⟩
  · rw [← Text.flatMap_wordsOf_eq_iff]
    simp only [StartInfo.invocation, harguments, List.append_cancel_right_eq]
  · simp only [launch, hprogram]
    cases m.spawn (info.amended collector).invocation <;> rfl

theorem argument_torn :
    let r : Rendezvous := ⟨4242, 17⟩
    let given (argument : String) : Except Trouble (List String) :=
      let h : HostCommand := ⟨["sh", "s.sh", argument], ".TestAdapter.", 4096⟩
      (h.startInfo ["a.tests"] none r).map fun info => info.invocation.arguments
    given "a  b" = .ok (["s.sh", "a", "b"] ++ r.arguments) ∧
      given "" = .ok (["s.sh"] ++ r.arguments) ∧
      ∀ argument ∈ ["a  b", ""], given argument ≠ .ok (["s.sh", argument] ++ r.arguments) := by
  decide

end HostCommand

end HostedTests
