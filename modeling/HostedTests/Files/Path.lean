/-!
Paths: texts whose parts are separated by slashes. Slashes that repeat or end a path do not count,
nor does a dot, unless the path begins with it.
-/

namespace HostedTests.Files

inductive Component where
  | root
  | here
  | up
  | named (name : String)
  deriving DecidableEq, Repr

namespace Component

def rank : Component → Nat
  | root => 0
  | here => 1
  | up => 2
  | named _ => 3

def ofPiece (piece : List Char) : Component :=
  if piece = ['.'] then .here
  else if piece = ['.', '.'] then .up
  else .named (String.ofList piece)

def before : Component → Component → Bool
  | named a, named b => a < b
  | a, b => a.rank < b.rank

end Component

namespace Path

def pieces (place : Nat) (piece : List Char) : List Char → List (Nat × List Char)
  | [] => [(place, piece.reverse)]
  | c :: rest =>
    if c = '/' then (place, piece.reverse) :: pieces (place + 1) [] rest
    else pieces (place + 1) (c :: piece) rest

def isRooted (p : String) : Bool := p.toList.head? = some '/'

def places (p : String) : List (Nat × Component) :=
  match pieces 0 [] p.toList with
  | [] => []
  | (i, first) :: rest =>
    (if first.isEmpty then [] else [(i, Component.ofPiece first)]) ++
      rest.filterMap fun (i, piece) =>
        if piece.isEmpty ∨ piece = ['.'] then none else some (i, Component.ofPiece piece)

def components (p : String) : List Component :=
  (if isRooted p then [Component.root] else []) ++ (places p).map (·.2)

def parent? (p : String) : Option String :=
  match (places p).reverse with
  | [] => none
  | [_] => some (if isRooted p then "/" else "")
  | _ :: (i, _) :: _ => some (String.ofList (p.toList.take i))

def directory? (p : String) : Option String := (parent? p).filter fun d => !d.isEmpty

def join (directory name : String) : String :=
  if isRooted name ∨ directory.isEmpty then name
  else if directory.toList.getLast? = some '/' then directory ++ name
  else directory ++ "/" ++ name

def stem (name : List Char) : List Char :=
  match name.reverse.dropWhile (· ≠ '.') with
  | [] => name
  | [_] => name
  | _ :: front => front.reverse

/-- The path with another ending after the last dot of its name. A path that does not end in a name
stays as it is. -/
def withEnding (p ending : String) : String :=
  match (places p).getLast? with
  | some (i, .named name) =>
    String.ofList (p.toList.take (i - name.length) ++ stem name.toList) ++ "." ++ ending
  | _ => p

def before : List Component → List Component → Bool
  | _, [] => false
  | [], _ :: _ => true
  | a :: as, b :: bs => if a = b then before as bs else a.before b

def insert (p : String) : List String → List String
  | [] => [p]
  | q :: rest =>
    if components p = components q then p :: rest
    else if before (components p) (components q) then p :: q :: rest
    else q :: insert p rest

def distinct (paths : List String) : List String := paths.foldl (fun ps p => insert p ps) []

end Path

end HostedTests.Files
