import HostedTests.Proofs.Json.Values
import HostedTests.Proofs.Payload.Reading

namespace HostedTests.Payload

open Json (Value)

mutual

def Shape.levels : Shape → ℕ
  | .leaf .tally => 1
  | .leaf _ => 0
  | .list s => s.levels + 1
  | .optional s => s.levels
  | .dictionary s => s.levels + 1
  | .record _ fields => fields.levels + 1

def Fields.levels : Fields → ℕ
  | .nil => 0
  | .cons _ _ s rest => max s.levels rest.levels

end

theorem inRange_int64 (n : Int64) : Json.InRange n.toInt := by
  have hlow := n.le_toInt
  have hhigh := n.toInt_lt
  constructor <;> omega

theorem inRange_int32 (n : Int32) : Json.InRange n.toInt := by
  have hlow := n.le_toInt
  have hhigh := n.toInt_lt
  constructor <;> omega

theorem leaf_fits {l : Leaf} (h : l ≠ .value) (x : l.Carrier) {room : ℕ}
    (hr : (Shape.leaf l).levels < room) : (l.print x).Fits room := by
  cases l with
  | value => exact absurd rfl h
  | int32 => exact inRange_int32 x
  | int64 => exact inRange_int64 x
  | tally =>
    refine ⟨hr, Json.membersFit_of_forall ?_⟩
    intro m hm
    obtain ⟨e, -, rfl⟩ := List.mem_map.1 hm
    exact inRange_int64 e.2
  | _ => exact trivial

mutual

theorem print_fits (s : Shape) (h : s.isUnambiguous) (x : s.Carrier) {room : ℕ}
    (hr : s.levels < room) : (s.print x).Fits room := by
  match s, h, x, hr with
  | .leaf l, h, x, hr => exact leaf_fits (of_decide_eq_true h) x hr
  | .list s, h, xs, hr =>
    rw [Shape.levels] at hr
    refine ⟨by omega, Json.itemsFit_of_forall ?_⟩
    intro v hv
    obtain ⟨y, -, rfl⟩ := List.mem_map.1 hv
    exact print_fits s h y (by omega)
  | .optional s, h, x, hr =>
    cases x with
    | none => exact trivial
    | some y => exact print_fits s (Bool.and_eq_true_iff.1 h).2 y hr
  | .dictionary s, h, d, hr =>
    rw [Shape.levels] at hr
    refine ⟨by omega, Json.membersFit_of_forall ?_⟩
    intro m hm
    obtain ⟨e, -, rfl⟩ := List.mem_map.1 hm
    exact print_fits s h e.2 (by omega)
  | .record name fields, h, xs, hr =>
    rw [Shape.levels] at hr
    exact ⟨by omega, Json.membersFit_of_forall (members_fit fields h xs (by omega))⟩

theorem members_fit (fields : Fields) (h : fields.areUnambiguous) (xs : fields.Carrier) {room : ℕ}
    (hr : fields.levels < room) : ∀ m ∈ fields.members xs, m.2.Fits room := by
  match fields, h, xs, hr with
  | .nil, _, _, _ => exact fun m hm => absurd hm List.not_mem_nil
  | .cons name _ s rest, h, (x, xs), hr =>
    simp only [Fields.areUnambiguous, Bool.and_eq_true] at h
    rw [Fields.levels] at hr
    intro m hm
    rw [Fields.members, List.mem_cons] at hm
    rcases hm with rfl | hm
    · exact print_fits s h.1.2 x (by omega)
    · exact members_fit rest h.2 xs (by omega) m hm

end

end HostedTests.Payload
