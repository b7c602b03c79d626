import HostedTests.Proofs.Payload.Extent

namespace HostedTests.Payload

open Json (Value)

def Leaf.isExact : Leaf → Bool
  | text | flag | int32 | int64 | uuid | instant | severity | outcome | tally => true
  | timeSpan | value => false

mutual

def Shape.isExact : Shape → Bool
  | .leaf l => l.isExact
  | .list s => s.isExact
  | .optional s => s.isExact
  | .dictionary s => s.isExact
  | .record _ fields => fields.areExact

def Fields.areExact : Fields → Bool
  | .nil => true
  | .cons _ _ s rest => s.isExact && rest.areExact

end

theorem canon_leaf {l : Leaf} (h : l.isExact) (x : l.Carrier) : l.canon x = x := by
  cases l with
  | timeSpan => exact absurd h (by decide)
  | _ => rfl

mutual

theorem canon_eq (s : Shape) (h : s.isExact) (x : s.Carrier) : s.canon x = x := by
  match s, h, x with
  | .leaf l, h, x => exact canon_leaf h x
  | .list s, h, xs => exact canon_list fun y _ => canon_eq s h y
  | .optional s, h, x =>
    cases x with
    | none => rfl
    | some y => exact congrArg some (canon_eq s h y)
  | .dictionary s, h, d => exact canon_dictionary fun e _ => canon_eq s h e.2
  | .record name fields, h, xs => exact canon_fields fields h xs

theorem canon_fields (fields : Fields) (h : fields.areExact) (xs : fields.Carrier) :
    fields.canon xs = xs := by
  match fields, h, xs with
  | .nil, _, _ => rfl
  | .cons name _ s rest, h, (x, xs) =>
    have hs := Bool.and_eq_true_iff.1 h
    rw [Fields.canon, canon_eq s hs.1 x, canon_fields rest hs.2 xs]

end

end HostedTests.Payload
