import HostedTests.Console.Program

/-!
The program on a real machine: it reads the files that the command line names, performs the task on
them, writes the files that the task made and prints the result. The reference host is part of the
program; what else the machine starts is given, as is what its clocks show.
-/

namespace HostedTests

open Files

def look (path : String) : IO (Option (String × Node)) := do
  try
    let found ← IO.FS.realPath path
    if ← found.isDir then return some (found.toString, .directory)
    let octets ← IO.FS.readBinFile found
    return some (found.toString, .file octets.toList)
  catch _ => return none

def placeOf (path : String) : Place :=
  (Path.components path).filterMap fun c => match c with
    | .named name => some name
    | _ => none

def see (base : Place) (t : Tree) (path : String) : IO Tree := do
  let some (full, node) ← look path | return t
  let t := t.plant (placeOf full) node
  match t.makeDirectories base ((Path.parent? path).getD "") with
  | (.error _, _) => return t
  | (.ok (), t) =>
    match t.locate false base path with
    | .error _ => return t
    | .ok place => return if (t.node? place).isSome then t else t.put place (.link full)

def CommandLine.paths (c : CommandLine) : List String :=
  c.settings :: match c.task with
    | .discover sources => sources
    | .run sources => sources
    | _ => []

def keepFiles (before after : Tree) : IO Unit :=
  after.nodes.forM fun (place, node) =>
    match node with
    | .file octets => do
      unless before.node? place = some node do
        IO.FS.createDirAll (Machine.pathOf place.dropLast)
        IO.FS.writeBinFile (Machine.pathOf place) ⟨octets.toArray⟩
    | _ => pure ()

def CommandLine.perform (c : CommandLine) (clock : Nat → Clock.Reading)
    (spawn : Invocation → Except SystemFault Exit) : IO UInt32 := do
  let base := placeOf (← IO.currentDir).toString
  let tree ← c.paths.foldlM (see base) (Tree.empty.plant base .directory)
  let w : Workplace :=
    { machine := ⟨tree, base, spawn⟩
      network := ⟨true⟩
      isReference := ReferenceHost.isProgram
      process := 1
      hostProcess := 2
      clock }
  let result := w.perform c
  keepFiles tree result.tree
  (← IO.getStdout).putStr result.output
  (← IO.getStderr).putStr result.errors
  return result.code.toUInt32

end HostedTests
