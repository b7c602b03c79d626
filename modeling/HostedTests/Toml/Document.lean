import HostedTests.Toml.Scalar
import HostedTests.Toml.Token

/-!
Documents from their tokens, one token after the other. What is open is kept as a stack: the line at
hand at the bottom, lists and tables in braces above it.
-/

namespace HostedTests.Toml

inductive KeyRole where
  | header (ofList : Bool)
  | line
  | braces
  deriving DecidableEq, Repr

inductive Frame where
  | line (key : List String)
  | list (items : List Value)
  | braces (members : Members) (key : List String)

/-- What the next token belongs to. Parts of keys are kept last first. -/
inductive Position where
  | lineStart
  | bracket
  | key (role : KeyRole) (parts : List String)
  | keyEnd (role : KeyRole) (parts : List String)
  | bracketEnd
  | value
  | scalar (cs : List Char)
  | scalarBlank (cs : List Char)
  | valueEnd
  | lineEnd
  deriving DecidableEq, Repr

structure Reading where
  root : Members
  path : List String
  frames : List Frame
  position : Position

namespace Reading

def start : Reading := ⟨[], [], [], .lineStart⟩

def mostOpen : Nat := 80

def go (r : Reading) (p : Position) : Reading := { r with position := p }

def openHeader (r : Reading) (ofList : Bool) (key : List String) : Option Reading := do
  let name ← key.getLast?
  let opening := if ofList then Members.openItem name else Members.openTable name
  let root ← Members.within opening key.dropLast r.root
  return { r with root, path := key, position := .lineEnd }

def give (r : Reading) (v : Value) : Option Reading :=
  match r.frames with
  | [] => none
  | .line key :: _ =>
    (Members.within (Members.put v true key) r.path r.root).map fun root =>
      { r with root, frames := [], position := .lineEnd }
  | .list items :: rest =>
    some { r with frames := .list (v :: items) :: rest, position := .valueEnd }
  | .braces ms key :: rest =>
    (Members.put v true key ms).map fun ms =>
      { r with frames := .braces ms [] :: rest, position := .valueEnd }

def close (r : Reading) (c : Char) : Option Reading :=
  match r.frames with
  | .list items :: rest =>
    if c = ']' then { r with frames := rest }.give (.list false items.reverse) else none
  | .braces ms _ :: rest =>
    if c = '\x7d' then { r with frames := rest }.give (.table .braces ms) else none
  | _ => none

def push (r : Reading) (f : Frame) (p : Position) : Option Reading :=
  if mostOpen < r.frames.length then none
  else some { r with frames := f :: r.frames, position := p }

def inList (r : Reading) : Bool :=
  match r.frames with
  | .list _ :: _ => true
  | _ => false

def isBareKey (cs : List Char) : Bool :=
  cs.all fun c => (c.toNat < 128 && c.isAlphanum) || c = '_' || c = '-'

def atKeyEnd (r : Reading) (role : KeyRole) (parts : List String) : Token → Option Reading
  | .blank _ => some r
  | .mark c =>
    match role, c with
    | _, '.' => some (r.go (.key role parts))
    | .header false, ']' => r.openHeader false parts.reverse
    | .header true, ']' => some { r with path := parts.reverse, position := .bracketEnd }
    | .line, '=' => some { r with frames := [.line parts.reverse], position := .value }
    | .braces, '=' =>
      match r.frames with
      | .braces ms _ :: rest =>
        some { r with frames := .braces ms parts.reverse :: rest, position := .value }
      | _ => none
    | _, _ => none
  | _ => none

def atKey (r : Reading) (role : KeyRole) (parts : List String) : Token → Option Reading
  | .blank _ => some r
  | .atom cs =>
    if isBareKey cs then some (r.go (.keyEnd role (String.ofList cs :: parts))) else none
  | .text s false => some (r.go (.keyEnd role (s :: parts)))
  | .mark c => if role = .braces ∧ parts.isEmpty then r.close c else none
  | .newline => if role = .braces ∧ parts.isEmpty then some r else none
  | .comment => if role = .braces ∧ parts.isEmpty then some r else none
  | _ => none

def atLineStart (r : Reading) : Token → Option Reading
  | .blank _ => some r
  | .newline => some r
  | .comment => some (r.go .lineEnd)
  | .mark '[' => some (r.go .bracket)
  | t => ({ r with position := .key .line [] }).atKey .line [] t

def atLineEnd (r : Reading) : Token → Option Reading
  | .blank _ => some r
  | .comment => some r
  | .newline => some (r.go .lineStart)
  | _ => none

def atValue (r : Reading) : Token → Option Reading
  | .blank _ => some r
  | .newline => if r.inList then some r else none
  | .comment => if r.inList then some r else none
  | .text s _ => r.give (.text s)
  | .atom cs => some (r.go (.scalar cs))
  | .mark '[' => r.push (.list []) .value
  | .mark '\x7b' => r.push (.braces [] []) (.key .braces [])
  | .mark c => if r.inList then r.close c else none

def atValueEnd (r : Reading) : Token → Option Reading
  | .blank _ => some r
  | .newline => some r
  | .comment => some r
  | .mark ',' => some (r.go (if r.inList then .value else .key .braces []))
  | .mark c => r.close c
  | _ => none

def afterValue (r : Reading) (t : Token) : Option Reading :=
  if r.position = .lineEnd then r.atLineEnd t else r.atValueEnd t

def endScalar (r : Reading) (cs : List Char) (t : Token) : Option Reading := do
  let v ← Scalar.parse cs
  (← r.give v).afterValue t

def step (r : Reading) (t : Token) : Option Reading :=
  match r.position with
  | .lineStart => r.atLineStart t
  | .bracket =>
    if t = .mark '[' then some (r.go (.key (.header true) []))
    else ({ r with position := .key (.header false) [] }).atKey (.header false) [] t
  | .key role parts => r.atKey role parts t
  | .keyEnd role parts => r.atKeyEnd role parts t
  | .bracketEnd => if t = .mark ']' then r.openHeader true r.path else none
  | .value => r.atValue t
  | .scalar cs =>
    match t with
    | .atom more => some (r.go (.scalar (cs ++ more)))
    | .mark '.' => some (r.go (.scalar (cs ++ ['.'])))
    | .blank true => if Scalar.isDate cs then some (r.go (.scalarBlank cs)) else r.endScalar cs t
    | t => r.endScalar cs t
  | .scalarBlank cs =>
    match t with
    | .atom more => some (r.go (.scalar (cs ++ ' ' :: more)))
    | t => r.endScalar cs t
  | .valueEnd => r.atValueEnd t
  | .lineEnd => r.atLineEnd t

def finish (r : Reading) : Option Members :=
  match r.position with
  | .lineStart => some r.root
  | .lineEnd => some r.root
  | .scalar cs => (r.endScalar cs .newline).bind fun r =>
      if r.position = .lineStart then some r.root else none
  | .scalarBlank cs => (r.endScalar cs .newline).bind fun r =>
      if r.position = .lineStart then some r.root else none
  | _ => none

end Reading

def parse (text : String) : Option Members :=
  let cs := match text.toList with
    | '\ufeff' :: rest => rest
    | cs => cs
  (Token.scan cs).bind fun tokens => (tokens.foldlM Reading.step .start).bind Reading.finish

end HostedTests.Toml
