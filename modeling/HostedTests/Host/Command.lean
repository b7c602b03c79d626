import HostedTests.Fault
import HostedTests.Files.Tree
import HostedTests.Payload.Criteria
import HostedTests.Text.Blank

/-!
Hosts that are started by a command. The command's own arguments come first, then the port to
connect to and the process that started the host; the host runs in the directory of the first
source. Adapters are the files beside the sources whose names contain a pattern.
-/

namespace HostedTests

open Files

structure HostCommand where
  words : List String
  adapterPattern : String
  stderrLimit : Nat
  deriving DecidableEq, Repr

structure Rendezvous where
  port : Nat
  parent : Nat
  deriving DecidableEq, Repr

namespace Rendezvous

def arguments (r : Rendezvous) : List String :=
  ["--port", toString r.port, "--parentprocessid", toString r.parent]

end Rendezvous

def StartInfo.words (i : StartInfo) : List String :=
  (Text.words i.arguments.toList).map String.ofList

namespace HostCommand

def startInfo (h : HostCommand) (sources : List String)
    (environment : Option (Dictionary String)) (r : Rendezvous) : Except Trouble StartInfo :=
  match sources, h.words with
  | [], _ => .error (.of "at least one source is required to start a test host")
  | _, [] => .error (.of "test host command is empty")
  | source :: _, program :: arguments =>
    .ok ⟨program, " ".intercalate (arguments ++ r.arguments), Path.directory? source, environment⟩

def directories (sources : List String) : List String :=
  Path.distinct (sources.map fun s => (Path.directory? s).getD ".")

def containsText (part : List Char) : List Char → Bool
  | [] => part.isEmpty
  | c :: rest => part.isPrefixOf (c :: rest) || containsText part rest

def adaptersIn (h : HostCommand) (t : Tree) (base : Place) (directory : String) :
    Except Trouble (List String) :=
  match t.list base directory with
  | .error .notFound => .ok []
  | .error f => .error ((Trouble.of f.message).within ("list " ++ directory))
  | .ok entries =>
    .ok (entries.filterMap fun (name, node) =>
      match node with
      | .file _ =>
        if containsText h.adapterPattern.toList name.toList then some (Path.join directory name)
        else none
      | _ => none)

def insertSorted (s : String) : List String → List String
  | [] => [s]
  | t :: rest => if s < t then s :: t :: rest else t :: insertSorted s rest

def sorted (items : List String) : List String := items.foldr insertSorted []

def extensions (h : HostCommand) (t : Tree) (base : Place) (sources : List String) :
    Except Trouble (List String) := do
  let found ← (directories sources).mapM (h.adaptersIn t base)
  return sorted found.flatten

end HostCommand

end HostedTests
