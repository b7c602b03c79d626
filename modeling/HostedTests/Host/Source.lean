import HostedTests.Payload.Outcome
import HostedTests.Text.Blank

/-!
Sources of the reference host: texts with a test a line. A mark before the name says how the test
ends; lines may also make the host crash. Blank lines and lines that begin with `#` do not count.
-/

namespace HostedTests

inductive SourceLine where
  | test (name : String) (outcome : Outcome)
  | crash (text : String)
  deriving DecidableEq, Repr

namespace SourceLine

def failedMark : Char := '!'

def skippedMark : Char := '~'

def commentMark : Char := '#'

def crashMark : List Char := "crash:".toList

def trimmed (cs : List Char) : String := String.ofList (Text.trim cs)

def ofTrimmed? (cs : List Char) : Option SourceLine :=
  match cs with
  | [] => none
  | c :: rest =>
    if c = commentMark then none
    else
      match crashMark.isPrefixOf? cs with
      | some text => some (.crash (trimmed text))
      | none =>
        if c = failedMark then some (.test (trimmed rest) .failed)
        else if c = skippedMark then some (.test (trimmed rest) .skipped)
        else some (.test (String.ofList cs) .passed)

def lines (line : List Char) : List Char → List (List Char)
  | [] => [line.reverse]
  | c :: rest => if c = '\n' then line.reverse :: lines [] rest else lines (c :: line) rest

def parse (text : String) : List SourceLine :=
  (lines [] text.toList).filterMap fun cs => ofTrimmed? (Text.trim cs)

def mark : SourceLine → List Char
  | test _ .failed => [failedMark]
  | test _ .skipped => [skippedMark]
  | test _ _ => []
  | crash _ => crashMark

def content : SourceLine → String
  | test name _ => name
  | crash text => text

end SourceLine

end HostedTests
