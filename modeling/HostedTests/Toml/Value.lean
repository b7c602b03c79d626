namespace HostedTests.Toml

inductive Origin where
  | header
  | implied
  | dotted
  | braces
  deriving DecidableEq, Repr

inductive Value where
  | text (s : String)
  | integer (i : Int)
  | float
  | boolean (b : Bool)
  | moment
  | list (ofTables : Bool) (items : List Value)
  | table (origin : Origin) (members : List (String × Value))

abbrev Members := List (String × Value)

namespace Members

def get? (ms : Members) (key : String) : Option Value := ms.lookup key

def replace (key : String) (v : Value) (ms : Members) : Members :=
  ms.map fun m => if m.1 = key then (key, v) else m

/-- Puts a value under a key with dots. Tables on the way are those of such keys; others may only be
passed through, and `mayEnd` says whether the table at hand takes a value of its own. -/
def put (v : Value) : Bool → List String → Members → Option Members
  | _, [], _ => none
  | mayEnd, [key], ms =>
    if mayEnd ∧ (ms.get? key).isNone then some (ms ++ [(key, v)]) else none
  | _, key :: rest, ms =>
    match ms.get? key with
    | none => (put v true rest []).map fun sub => ms ++ [(key, .table .dotted sub)]
    | some (.table .dotted sub) =>
      (put v true rest sub).map fun sub => ms.replace key (.table .dotted sub)
    | some (.table .implied sub) =>
      (put v false rest sub).map fun sub => ms.replace key (.table .implied sub)
    | some (.list true items) =>
      match items.getLast? with
      | some (.table origin sub) =>
        (put v (origin = .dotted) rest sub).map fun sub =>
          ms.replace key (.list true (items.dropLast ++ [.table origin sub]))
      | _ => none
    | _ => none

/-- Changes the table at the end of a path. A list of tables stands for its last one. -/
def within (f : Members → Option Members) : List String → Members → Option Members
  | [], ms => f ms
  | key :: rest, ms =>
    match ms.get? key with
    | none => (within f rest []).map fun sub => ms ++ [(key, .table .implied sub)]
    | some (.table .braces _) => none
    | some (.table origin sub) =>
      (within f rest sub).map fun sub => ms.replace key (.table origin sub)
    | some (.list true items) =>
      match items.getLast? with
      | some (.table origin sub) =>
        (within f rest sub).map fun sub =>
          ms.replace key (.list true (items.dropLast ++ [.table origin sub]))
      | _ => none
    | _ => none

def openTable (key : String) (ms : Members) : Option Members :=
  match ms.get? key with
  | none => some (ms ++ [(key, .table .header [])])
  | some (.table .implied sub) => some (ms.replace key (.table .header sub))
  | _ => none

def openItem (key : String) (ms : Members) : Option Members :=
  match ms.get? key with
  | none => some (ms ++ [(key, .list true [.table .header []])])
  | some (.list true items) => some (ms.replace key (.list true (items ++ [.table .header []])))
  | _ => none

end Members

end HostedTests.Toml
