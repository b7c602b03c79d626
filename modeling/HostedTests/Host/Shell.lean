import HostedTests.Host.Process
import HostedTests.Text.Decimal

/-!
One way to start programs, for trying hosts that are scripts: a small shell with simple commands in
a row, words with quotes and parameters, and redirection to the error stream. Only that stream is
kept; the input is empty and the output goes nowhere. Nothing else depends on it.
-/

namespace HostedTests

namespace Shell

inductive Piece where
  | text (cs : List Char)
  | parameter (quoted : Bool) (name : String)
  deriving DecidableEq, Repr

abbrev Word := List Piece

inductive Mode where
  | plain
  | single
  | double
  | escape (quoted : Bool)
  | dollar (quoted : Bool)
  | name (quoted : Bool) (cs : List Char)
  | braced (quoted : Bool) (cs : List Char)
  | comment
  deriving DecidableEq, Repr

structure Scan where
  mode : Mode
  word : Option Word
  words : List Word
  commands : List (List Word)

namespace Scan

def start : Scan := ⟨.plain, none, [], []⟩

def add (s : Scan) (p : Piece) : Scan := { s with word := some (p :: s.word.getD []) }

def back (s : Scan) (quoted : Bool) : Scan := { s with mode := if quoted then .double else .plain }

def endWord (s : Scan) : Scan :=
  match s.word with
  | none => s
  | some w => { s with word := none, words := w.reverse :: s.words }

def endCommand (s : Scan) : Scan :=
  let s := s.endWord
  if s.words.isEmpty then s else { s with words := [], commands := s.words.reverse :: s.commands }

def plain (s : Scan) (c : Char) : Scan :=
  if c = ' ' ∨ c = '\t' then s.endWord
  else if c = '\n' ∨ c = ';' then s.endCommand
  else if c = '\'' then { s with mode := .single, word := some (s.word.getD []) }
  else if c = '"' then { s with mode := .double, word := some (s.word.getD []) }
  else if c = '\\' then { s with mode := .escape false }
  else if c = '$' then { s with mode := .dollar false }
  else if c = '#' ∧ s.word.isNone then { s with mode := .comment }
  else s.add (.text [c])

def double (s : Scan) (c : Char) : Scan :=
  if c = '"' then { s with mode := .plain }
  else if c = '\\' then { s with mode := .escape true }
  else if c = '$' then { s with mode := .dollar true }
  else s.add (.text [c])

def outside (s : Scan) (quoted : Bool) (c : Char) : Scan :=
  let s := s.back quoted
  if quoted then s.double c else s.plain c

def isNameStart (c : Char) : Bool := c.isAlpha || c = '_'

def step (s : Scan) (c : Char) : Scan :=
  match s.mode with
  | .plain => s.plain c
  | .single => if c = '\'' then { s with mode := .plain } else s.add (.text [c])
  | .double => s.double c
  | .escape quoted =>
    let s := s.back quoted
    if c = '\n' then s
    else if quoted ∧ c ∉ ['"', '\\', '$', '\x60'] then s.add (.text ['\\', c])
    else s.add (.text [c])
  | .dollar quoted =>
    if c = '\x7b' then { s with mode := .braced quoted [] }
    else if isNameStart c then { s with mode := .name quoted [c] }
    else if Text.isDigit c ∨ c ∈ ['#', '?', '$', '@', '*'] then
      (s.back quoted).add (.parameter quoted (String.singleton c))
    else (s.add (.text ['$'])).outside quoted c
  | .name quoted cs =>
    if isNameStart c ∨ Text.isDigit c then { s with mode := .name quoted (c :: cs) }
    else (s.add (.parameter quoted (String.ofList cs.reverse))).outside quoted c
  | .braced quoted cs =>
    if c = '\x7d' then (s.back quoted).add (.parameter quoted (String.ofList cs.reverse))
    else { s with mode := .braced quoted (c :: cs) }
  | .comment => if c = '\n' then { s with mode := .plain }.endCommand else s

end Scan

def commands (script : List Char) : List (List Word) :=
  ((script ++ ['\n']).foldl Scan.step .start).commands.reverse

structure Scene where
  arguments : List String
  environment : Dictionary String
  directory : String
  status : Nat

namespace Scene

def parameter (v : Scene) (name : String) : List Char :=
  match name.toList with
  | ['#'] => Text.decimal v.arguments.length
  | ['?'] => Text.decimal v.status
  | ['@'] => (" ".intercalate v.arguments).toList
  | ['*'] => (" ".intercalate v.arguments).toList
  | ['$'] => ['$', '$']
  | [c] =>
    if c ≠ '0' ∧ Text.isDigit c then (v.arguments.getD (Text.digitValue c - 1) "").toList
    else ((v.environment.get? name).getD "").toList
  | _ =>
    if name = "PWD" then v.directory.toList else ((v.environment.get? name).getD "").toList

def glue (front : List (List Char)) (rest : List (List Char)) : List (List Char) :=
  match front.getLast?, rest with
  | some w, v :: rest => front.dropLast ++ (w ++ v) :: rest
  | none, rest => rest
  | some _, [] => front

def expand (v : Scene) (w : Word) : List (List Char) :=
  let fields := w.foldl (fun fields p =>
    match p with
    | .text cs => glue fields [cs]
    | .parameter true name => glue fields [v.parameter name]
    | .parameter false name => glue fields (Text.words (v.parameter name))) []
  if fields.isEmpty ∧ w.isEmpty then [[]] else fields

end Scene

def unescape : List Char → List UInt8
  | '\\' :: 'n' :: rest => 10 :: unescape rest
  | '\\' :: 't' :: rest => 9 :: unescape rest
  | '\\' :: 'r' :: rest => 13 :: unescape rest
  | '\\' :: '\\' :: rest => 92 :: unescape rest
  | '\\' :: a :: b :: c :: rest =>
    if [a, b, c].all fun d => '0' ≤ d && d ≤ '7' then
      (64 * Text.digitValue a + 8 * Text.digitValue b + Text.digitValue c).toUInt8 :: unescape rest
    else 92 :: unescape (a :: b :: c :: rest)
  | c :: rest => Text.Utf8.encode [c] ++ unescape rest
  | [] => []

def format (arguments : List (List Char)) : List Char → List Char
  | '%' :: 's' :: rest => arguments.headD [] ++ format arguments.tail rest
  | '%' :: 'd' :: rest => arguments.headD [] ++ format arguments.tail rest
  | '%' :: '%' :: rest => '%' :: format arguments rest
  | c :: rest => c :: format arguments rest
  | [] => []

inductive Effect where
  | wrote (octets : List UInt8) (status : Nat)
  | ended (t : Termination)
  | unknown (name : List Char)

def number (cs : List Char) : Nat := Text.ofDigits (cs.filter Text.isDigit)

def effect (t : Files.Tree) (base : Files.Place) (v : Scene) (name : List Char)
    (arguments : List (List Char)) : Effect :=
  match String.ofList name with
  | "echo" => .wrote (Text.Utf8.encode ([' '].intercalate arguments ++ ['\n'])) 0
  | "printf" =>
    match arguments with
    | [] => .wrote [] 2
    | f :: rest => .wrote (unescape (format rest f)) 0
  | "cat" =>
    .wrote (arguments.flatMap fun p => ((t.read base (String.ofList p)).toOption).getD []) 0
  | "true" => .wrote [] 0
  | ":" => .wrote [] 0
  | "false" => .wrote [] 1
  | "exit" => .ended (.code ((arguments.head?.map number).getD v.status % 256))
  | "kill" =>
    match arguments with
    | [signal, ['$', '$']] => .ended (.signal (number signal))
    | _ => .wrote [] 1
  | _ => .unknown name

def toErrors (w : List Char) : Bool := w = ">&2".toList ∨ w = "1>&2".toList

def isRedirection (w : List Char) : Bool := '>' ∈ w.take 2

def perform (t : Files.Tree) (base : Files.Place) (script : String) (v : Scene) :
    List (List Word) → List UInt8 × Termination
  | [] => ([], .code v.status)
  | c :: rest =>
    let words := c.flatMap v.expand
    match words.filter (fun w => !isRedirection w) with
    | [] => perform t base script v rest
    | name :: arguments =>
      match effect t base v name arguments with
      | .ended e => ([], e)
      | .wrote octets status =>
        let (more, e) := perform t base script { v with status } rest
        (if words.any toErrors then octets ++ more else more, e)
      | .unknown name =>
        let complaint := script ++ ": 1: " ++ String.ofList name ++ ": not found\n"
        let (more, e) := perform t base script { v with status := 127 } rest
        (Text.Utf8.encode complaint.toList ++ more, e)

def run (t : Files.Tree) (base : Files.Place) (script : String) (v : Scene) (text : List Char) :
    List UInt8 × Termination :=
  perform t base script v (commands text)

def directory (t : Files.Tree) (base : Files.Place) (i : Invocation) :
    Except Files.SystemFault Files.Place :=
  match i.directory with
  | none => .ok base
  | some d => t.locate true base d >>= t.asDirectory

def runProgram (t : Files.Tree) (place : Files.Place) (i : Invocation) : Exit :=
  let scene (arguments : List String) : Scene :=
    ⟨arguments, i.environment, Machine.pathOf place, 0⟩
  match i.arguments with
  | [] => ⟨.code 0, []⟩
  | "-c" :: text :: rest =>
    let (stderr, e) := run t place i.program (scene rest.tail) text.toList
    ⟨e, stderr⟩
  | script :: rest =>
    match t.readText place script with
    | .ok text =>
      let (stderr, e) := run t place script (scene rest) text.toList
      ⟨e, stderr⟩
    | .error _ =>
      let complaint := i.program ++ ": 0: cannot open " ++ script ++ ": No such file\n"
      ⟨.code 2, Text.Utf8.encode complaint.toList⟩

def spawn (t : Files.Tree) (base : Files.Place) (i : Invocation) :
    Except Files.SystemFault Exit := do
  if (i.program :: i.arguments).any (fun s => '\x00' ∈ s.toList) then .error .nulInArgument
  let place ← directory t base i
  if '/' ∈ i.program.toList then
    match t.node? (← t.locate true place i.program) with
    | none => .error .notFound
    | some _ => .error .permissionDenied
  else if i.program ∈ ["sh", "dash", "bash"] then .ok (runProgram t place i)
  else if i.program ∈ ["true", "cat", "echo", "pwd", "ls", "printf"] then .ok ⟨.code 0, []⟩
  else if i.program = "false" then .ok ⟨.code 1, []⟩
  else .error .notFound

end Shell

namespace Machine

def withShell (t : Files.Tree) (base : Files.Place) : Machine := ⟨t, base, Shell.spawn t base⟩

end Machine

end HostedTests
