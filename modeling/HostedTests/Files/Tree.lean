import HostedTests.Files.Path
import HostedTests.Text.Utf8

/-!
Trees of files: files, directories and links at places below the root. A place is named by the names
on the way to it. Operations take paths, follow links, and fail as the system says.
-/

namespace HostedTests.Files

inductive SystemFault where
  | notFound
  | permissionDenied
  | alreadyExists
  | notDirectory
  | isDirectory
  | tooManyLinks
  | nulInPath
  | nulInArgument
  | notUtf8
  | notReady
  deriving DecidableEq, Repr

namespace SystemFault

def message : SystemFault → String
  | notFound => "No such file or directory (os error 2)"
  | notReady => "Resource temporarily unavailable (os error 11)"
  | permissionDenied => "Permission denied (os error 13)"
  | alreadyExists => "File exists (os error 17)"
  | notDirectory => "Not a directory (os error 20)"
  | isDirectory => "Is a directory (os error 21)"
  | tooManyLinks => "Too many levels of symbolic links (os error 40)"
  | nulInPath => "file name contained an unexpected NUL byte"
  | nulInArgument => "nul byte found in provided data"
  | notUtf8 => "stream did not contain valid UTF-8"

end SystemFault

abbrev Place := List String

inductive Node where
  | file (octets : List UInt8)
  | directory
  | link (target : String)
  deriving DecidableEq, Repr

/-- What stands at each place but the root. Every place lies in a directory. -/
structure Tree where
  nodes : List (Place × Node)

namespace Tree

def empty : Tree := ⟨[]⟩

def node? (t : Tree) (place : Place) : Option Node :=
  if place.isEmpty then some .directory else t.nodes.lookup place

def remove (t : Tree) (place : Place) : Tree := ⟨t.nodes.filter fun e => e.1 ≠ place⟩

def put (t : Tree) (place : Place) (n : Node) : Tree := ⟨(t.remove place).nodes ++ [(place, n)]⟩

def putDirectories (t : Tree) (base : Place) : List String → Tree
  | [] => t
  | name :: rest =>
    let place := base ++ [name]
    let t := if (t.node? place).isSome then t else t.put place .directory
    t.putDirectories place rest

def plant (t : Tree) (place : Place) (n : Node) : Tree :=
  (t.putDirectories [] place.dropLast).put place n

/-- The parts of a path as the system walks them: a slash at the end asks for a directory. -/
def steps (p : String) : List Component :=
  let names := (Path.pieces 0 [] p.toList).map (·.2)
  (if Path.isRooted p then [Component.root] else []) ++
    (names.filter fun n => !n.isEmpty).map Component.ofPiece ++
    (if names.getLast? = some [] ∧ names.any (fun n => !n.isEmpty) then [Component.here] else [])

def mostLinks : Nat := 40

/-- Walks from a directory. The last name need not be there, and is followed if it is a link and
`follow` holds. -/
def walk (t : Tree) (follow : Bool) (links : Nat) (place : Place) :
    List Component → Except SystemFault Place
  | [] => .ok place
  | .root :: rest => t.walk follow links [] rest
  | .here :: rest => t.walk follow links place rest
  | .up :: rest => t.walk follow links place.dropLast rest
  | .named name :: rest =>
    let next := place ++ [name]
    match t.node? next with
    | none => if rest.isEmpty then .ok next else .error .notFound
    | some (.file _) => if rest.isEmpty then .ok next else .error .notDirectory
    | some .directory => t.walk follow links next rest
    | some (.link target) =>
      if rest.isEmpty ∧ !follow then .ok next
      else
        match links with
        | 0 => .error .tooManyLinks
        | links + 1 => t.walk follow links place (steps target ++ rest)
  termination_by cs => (links, cs.length)

def asDirectory (t : Tree) (place : Place) : Except SystemFault Place :=
  match t.node? place with
  | some .directory => .ok place
  | some _ => .error .notDirectory
  | none => .error .notFound

def locate (t : Tree) (follow : Bool) (base : Place) (p : String) : Except SystemFault Place :=
  if p.isEmpty then .error .notFound
  else if '\x00' ∈ p.toList then .error .nulInPath
  else t.walk follow mostLinks base (steps p)

def contains (t : Tree) (base : Place) (p : String) : Bool :=
  match t.locate true base p with
  | .ok place => (t.node? place).isSome
  | .error _ => false

def read (t : Tree) (base : Place) (p : String) : Except SystemFault (List UInt8) := do
  match t.node? (← t.locate true base p) with
  | some (.file octets) => .ok octets
  | some .directory => .error .isDirectory
  | _ => .error .notFound

def readText (t : Tree) (base : Place) (p : String) : Except SystemFault String := do
  match Text.Utf8.decode (← t.read base p) with
  | .ok cs => .ok (String.ofList cs)
  | .error _ => .error .notUtf8

def list (t : Tree) (base : Place) (p : String) : Except SystemFault (List (String × Node)) := do
  let place ← t.locate true base p
  match t.node? place with
  | some .directory =>
    .ok (t.nodes.filterMap fun e =>
      if e.1.dropLast = place then e.1.getLast?.map fun name => (name, e.2) else none)
  | some _ => .error .notDirectory
  | none => .error .notFound

def write (t : Tree) (base : Place) (p : String) (octets : List UInt8) :
    Except SystemFault Tree := do
  let place ← t.locate true base p
  match t.node? place with
  | some .directory => .error .isDirectory
  | _ => .ok (t.put place (.file octets))

def rename (t : Tree) (base : Place) (p q : String) : Except SystemFault Tree := do
  let source ← t.locate false base p
  let target ← t.locate false base q
  match t.node? source, t.node? target with
  | none, _ => .error .notFound
  | some .directory, some .directory => .ok t
  | some .directory, some _ => .error .notDirectory
  | some _, some .directory => .error .isDirectory
  | some n, _ => .ok (if source = target then t else (t.remove source).put target n)

def attempt (t : Tree) : Except SystemFault Tree → Except SystemFault Unit × Tree
  | .ok changed => (.ok (), changed)
  | .error f => (.error f, t)

/-- Why there is no way on from what stands at a name: it is to be made a directory itself, or it is
in the way of others. What leads nowhere is never gone through to make it. -/
def barred (rest : List Component) (f : SystemFault) : SystemFault :=
  if rest.isEmpty ∨ f = .notFound then .alreadyExists else f

/-- Walks and makes the directories that are missing. Those that are made stay, whatever comes. -/
def walkMaking (t : Tree) (links : Nat) (place : Place) :
    List Component → Except SystemFault Unit × Tree
  | [] => (.ok (), t)
  | .root :: rest => t.walkMaking links [] rest
  | .here :: rest => t.walkMaking links place rest
  | .up :: rest => t.walkMaking links place.dropLast rest
  | .named name :: rest =>
    let next := place ++ [name]
    match t.node? next with
    | none => (t.put next .directory).walkMaking links next rest
    | some (.file _) => (.error (barred rest .notDirectory), t)
    | some .directory => t.walkMaking links next rest
    | some (.link target) =>
      match links with
      | 0 => (.error (barred rest .tooManyLinks), t)
      | links + 1 =>
        match t.walk true links place (steps target) >>= t.asDirectory with
        | .ok _ => t.walkMaking links place (steps target ++ rest)
        | .error f => (.error (barred rest f), t)
  termination_by cs => (links, cs.length)

def makeDirectories (t : Tree) (base : Place) (p : String) : Except SystemFault Unit × Tree :=
  if p.isEmpty then (.ok (), t)
  else if '\x00' ∈ p.toList then (.error .nulInPath, t)
  else t.walkMaking mostLinks base (steps p)

def makeSomeDirectories (t : Tree) (count : Nat) (base : Place) (p : String) : Tree :=
  (t.walkMaking mostLinks base ((steps p).take count)).2

end Tree

end HostedTests.Files
