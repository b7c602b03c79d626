import HostedTests.Settings.Document
import HostedTests.Settings.Printer

/-!
Settings in a file. Saving writes a file beside the one that is meant and then puts it in its place,
so the old settings stand until the new ones are complete.
-/

namespace HostedTests

open Files

inductive LoadFault where
  | unreadable (path : String) (f : SystemFault)
  | malformed (path : String)
  | invalid (f : SettingsFault)
  deriving DecidableEq, Repr

def LoadFault.trouble : LoadFault → Trouble
  | unreadable path f => (Trouble.of f.message).within ("read " ++ path)
  | malformed path => .of ("parse " ++ path)
  | invalid f => .of f.message

inductive SaveStep where
  | makeDirectory
  | writeBeside
  | replace
  deriving DecidableEq, Repr

/-- A step that the system refuses, whatever the files are like, and how far it came: some of the
directories on the way may be made by then, and a part of the file be written, if it was opened. -/
structure Interruption where
  step : SaveStep
  fault : SystemFault
  made : Nat
  written? : Option (List UInt8)
  deriving DecidableEq, Repr

inductive SaveFault where
  | invalid (f : SettingsFault)
  | noDirectory (path : String)
  | refused (step : SaveStep) (path : String) (f : SystemFault)
  deriving DecidableEq, Repr

namespace SaveStep

def activity : SaveStep → String
  | makeDirectory => "create directory "
  | writeBeside => "write temp config "
  | replace => "replace config "

end SaveStep

def SaveFault.trouble : SaveFault → Trouble
  | invalid f => .of f.message
  | noDirectory path => .of ("config path missing parent " ++ path)
  | refused step path f => (Trouble.of f.message).within (step.activity ++ path)

namespace Settings

def load (t : Tree) (base : Place) (path : String) : Except LoadFault Settings :=
  if !t.contains base path then .ok .default
  else
    match t.readText base path with
    | .error f => .error (.unreadable path f)
    | .ok text =>
      match parse? text with
      | none => .error (.malformed path)
      | some s =>
        match s.fault? with
        | some f => .error (.invalid f)
        | none => .ok s

def besidePath (path : String) : String := Path.withEnding path "toml.tmp"

def saveStep (interruption : Option Interruption) (step : SaveStep) (path : String)
    (partly : Interruption → Tree) (whole : Except SystemFault Unit × Tree) :
    Except SaveFault Unit × Tree :=
  match interruption with
  | some i => if i.step = step then (.error (.refused step path i.fault), partly i) else finish
  | none => finish
where
  finish : Except SaveFault Unit × Tree :=
    match whole with
    | (.ok (), t) => (.ok (), t)
    | (.error f, t) => (.error (.refused step path f), t)

/-- Saves settings. A step may be refused; the files are then as the steps so far left them. -/
def save (t : Tree) (base : Place) (path : String) (s : Settings)
    (interruption : Option Interruption) : Except SaveFault Unit × Tree :=
  match s.fault? with
  | some f => (.error (.invalid f), t)
  | none =>
    match Path.parent? path with
    | none => (.error (.noDirectory path), t)
    | some directory =>
      match saveStep interruption .makeDirectory directory
          (fun i => t.makeSomeDirectories i.made base directory)
          (t.makeDirectories base directory) with
      | (.error f, t) => (.error f, t)
      | (.ok (), t) =>
        let beside := besidePath path
        match saveStep interruption .writeBeside beside
            (fun i => i.written?.elim t fun octets => (t.attempt (t.write base beside octets)).2)
            (t.attempt (t.write base beside (Text.Utf8.encode s.text.toList))) with
        | (.error f, t) => (.error f, t)
        | (.ok (), t) =>
          saveStep interruption .replace path (fun _ => t) (t.attempt (t.rename base beside path))

end Settings

end HostedTests
