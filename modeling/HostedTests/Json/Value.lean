import HostedTests.Number.Binary64
import HostedTests.Dictionary

/-!
JSON values. An object's members stand in the order in which they are written; what is read has
them in ascending order of their names.
-/

namespace HostedTests.Json

inductive Number where
  | int (i : Int)
  | float (negative : Bool) (magnitude : Number.Binary64)
  deriving DecidableEq, Repr

inductive Value where
  | null
  | bool (b : Bool)
  | number (n : Number)
  | string (s : String)
  | list (items : List Value)
  | object (members : List (String × Value))
  deriving Repr

instance : Inhabited Value := ⟨.null⟩

namespace Value

mutual

def sorted : Value → Value
  | null => null
  | bool b => bool b
  | number n => number n
  | string s => string s
  | list items => list (sortedItems items)
  | object members => object (sortedMembers members [])

def sortedItems : List Value → List Value
  | [] => []
  | v :: rest => sorted v :: sortedItems rest

def sortedMembers : List (String × Value) → List (String × Value) → List (String × Value)
  | [], done => done
  | m :: rest, done => sortedMembers rest (insertEntry m.1 (sortedMember m) done)

def sortedMember : String × Value → Value
  | (_, v) => sorted v

end

def member? (v : Value) (name : String) : Option Value :=
  match v with
  | object members => members.lookup name
  | _ => none

end Value

end HostedTests.Json
