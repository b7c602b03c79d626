import HostedTests.Proofs.Files.Spelling
import Mathlib.Data.List.TakeWhile

namespace HostedTests.Files.Path

def root (p : String) : List Component := if isRooted p then [.root] else []

def along (parts : List (List Char)) : List Component :=
  (parts.filter fun part => !part.isEmpty).map Component.ofPiece

end HostedTests.Files.Path
