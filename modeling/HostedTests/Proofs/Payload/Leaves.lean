import HostedTests.Payload.Print
import HostedTests.Proofs.Clock.TimeSpan
import HostedTests.Proofs.Clock.Timestamp
import HostedTests.Proofs.Json.Sorted
import HostedTests.Proofs.Uuid

namespace HostedTests

theorem Outcome.name_injective : Function.Injective Outcome.name := by
  intro o p h
  cases o <;> cases p <;> first | rfl | exact absurd h (by decide)

theorem Tally.ext_get? {t u : Tally} (h : ∀ o, t.get? o = u.get? o) : t = u := by
  obtain ⟨n, p, f, s, m⟩ := t
  obtain ⟨n', p', f', s', m'⟩ := u
  obtain rfl : n = n' := h .none
  obtain rfl : p = p' := h .passed
  obtain rfl : f = f' := h .failed
  obtain rfl : s = s' := h .skipped
  obtain rfl : m = m' := h .notFound
  rfl

theorem Tally.mem_entries {t : Tally} {o : Outcome} {n : Int64} :
    (o, n) ∈ t.entries ↔ t.get? o = some n := by
  have hall : o ∈ Outcome.all := by cases o <;> decide
  simp only [entries, List.mem_filterMap, Option.map_eq_some_iff, Prod.mk.injEq]
  constructor
  · rintro ⟨p, -, m, hm, rfl, rfl⟩
    exact hm
  · intro h
    exact ⟨o, hall, n, h, rfl, rfl⟩

namespace Payload

open Json (Value)

def Leaf.canon : (l : Leaf) → l.Carrier → l.Carrier
  | timeSpan, t => Clock.TimeSpan.truncated t
  | text, x | flag, x | int32, x | int64, x | uuid, x | instant, x | severity, x | outcome, x
  | tally, x | value, x => x

theorem bind_int32 (n : Int32) : bindInt32 (integer n.toInt) = .ok n := by
  have hrange : Int32.minValue.toInt ≤ n.toInt ∧ n.toInt ≤ Int32.maxValue.toInt := by
    have hlow := n.le_toInt
    have hhigh := n.toInt_lt
    rw [Int32.toInt_minValue, Int32.toInt_maxValue]
    omega
  simp only [bindInt32, bindInteger, integer, if_pos hrange, Except.map, Int32.ofInt_toInt]

theorem bind_int64 (n : Int64) : bindInt64 (integer n.toInt) = .ok n := by
  have hrange : Int64.minValue.toInt ≤ n.toInt ∧ n.toInt ≤ Int64.maxValue.toInt := by
    have hlow := n.le_toInt
    have hhigh := n.toInt_lt
    rw [Int64.toInt_minValue, Int64.toInt_maxValue]
    omega
  simp only [bindInt64, bindInteger, integer, if_pos hrange, Except.map, Int64.ofInt_toInt]

theorem bind_uuid (u : Uuid) : bindUuid (.string u.format) = .ok u := by
  simp only [bindUuid, bindString, bind, Except.bind, Uuid.parse_format, Except.mapError]

theorem bind_instant (i : Clock.Instant) : bindInstant (.string i.format) = .ok i := by
  simp only [bindInstant, bindString, bind, Except.bind, Clock.Instant.format,
    String.toList_ofList, Clock.Timestamp.lenient_render, Except.mapError]

theorem bind_timeSpan (t : Clock.TimeSpan) : bindTimeSpan (.string t.format) = .ok t.truncated := by
  simp only [bindTimeSpan, bindString, bind, Except.bind, Clock.TimeSpan.parse_format,
    Except.mapError]

def Counts (t : Tally) (m : String × Value) : Prop :=
  ∃ o n, t.get? o = some n ∧ m = (o.name, integer n.toInt)

def tallyMember (t : Tally) (m : String × Value) : Except Fault Tally := do
  let o ← choose Outcome.all Outcome.name m.1
  let n ← bindInt64 m.2
  return t.set o n

theorem tallyMember_eq (t : Tally) (o : Outcome) (n : Int64) :
    tallyMember t (o.name, integer n.toInt) = .ok (t.set o n) := by
  have hchoose : choose Outcome.all Outcome.name o.name = .ok o := by cases o <;> rfl
  simp only [tallyMember, hchoose, bind_int64, bind, Except.bind]
  rfl

theorem foldlM_tally {t : Tally} {members : List (String × Value)}
    (h : ∀ m ∈ members, Counts t m) (done : Tally) :
    ∃ counted, members.foldlM tallyMember done = .ok counted ∧ ∀ o,
      counted.get? o = if o.name ∈ members.map Prod.fst then t.get? o else done.get? o := by
  induction members generalizing done with
  | nil => exact ⟨done, rfl, fun o => (if_neg List.not_mem_nil).symm⟩
  | cons m rest ih =>
    obtain ⟨o, n, hn, rfl⟩ := h m List.mem_cons_self
    obtain ⟨counted, hfold, hcounted⟩ :=
      ih (fun m hm => h m (List.mem_cons_of_mem _ hm)) (done.set o n)
    refine ⟨counted, ?_, ?_⟩
    · rw [List.foldlM_cons, tallyMember_eq]
      exact hfold
    · intro p
      rw [hcounted p, Tally.get?_set]
      simp only [List.map_cons, List.mem_cons]
      by_cases hp : p = o
      · subst hp
        simp [hn]
      · have hlater : (p.name = o.name ∨ p.name ∈ rest.map Prod.fst) ↔ p.name ∈ rest.map Prod.fst :=
          or_iff_right fun he => hp (Outcome.name_injective he)
        simp only [if_neg hp, hlater]

theorem bind_tally (t : Tally) : bindTally (Leaf.tally.print t).sorted = .ok t := by
  let members := (Tally.entries t).map fun e => (e.1.name, integer e.2.toInt)
  have hcounts : ∀ m ∈ Value.sortedMembers members [], Counts t m := by
    apply Value.forall_sortedMembers
    intro m hm
    obtain ⟨⟨o, n⟩, he, rfl⟩ := List.mem_map.mp hm
    refine ⟨o, n, Tally.mem_entries.mp he, ?_⟩
    rw [integer, Value.sorted]
  obtain ⟨counted, hfold, hcounted⟩ := foldlM_tally hcounts .empty
  have hsame : counted = t := by
    apply Tally.ext_get?
    intro o
    rw [hcounted o, Tally.get?_empty]
    split
    · rfl
    · rename_i hnone
      cases hn : t.get? o with
      | none => rfl
      | some n =>
        have hmem : (o.name, integer n.toInt) ∈ members :=
          List.mem_map.mpr ⟨(o, n), Tally.mem_entries.mpr hn, rfl⟩
        exact absurd (Value.keys_sortedMembers (.inl (List.mem_map_of_mem hmem))) hnone
  have hsorted : (Leaf.tally.print t).sorted = .object (Value.sortedMembers members []) := by
    change Value.sorted (.object members) = _
    rw [Value.sorted]
  rw [hsorted]
  change (Value.sortedMembers members []).foldlM tallyMember .empty = .ok t
  rw [hfold, hsame]

theorem bind_print_leaf {l : Leaf} (h : l ≠ .value) (x : l.Carrier) :
    l.bind (l.print x).sorted = .ok (l.canon x) := by
  cases l with
  | value => exact absurd rfl h
  | tally => exact bind_tally x
  | text | flag => rfl
  | severity | outcome => cases x <;> rfl
  | int32 =>
    change bindInt32 (integer (Int32.toInt x)).sorted = .ok x
    rw [integer, Value.sorted]
    exact bind_int32 x
  | int64 =>
    change bindInt64 (integer (Int64.toInt x)).sorted = .ok x
    rw [integer, Value.sorted]
    exact bind_int64 x
  | uuid =>
    change bindUuid (Value.string (Uuid.format x)).sorted = .ok x
    rw [Value.sorted]
    exact bind_uuid x
  | instant =>
    change bindInstant (Value.string (Clock.Instant.format x)).sorted = .ok x
    rw [Value.sorted]
    exact bind_instant x
  | timeSpan =>
    change bindTimeSpan (Value.string (Clock.TimeSpan.format x)).sorted = .ok _
    rw [Value.sorted]
    exact bind_timeSpan x

end Payload

end HostedTests
