import HostedTests.Proofs.Session.Collecting
import HostedTests.Proofs.Session.Starting

/-!
A session in which data is collected for an observer, next to the same session without. Whatever the
steps, the two differ in the record, the collection itself and the calls of the data collector only,
and the record of the one is a function of that of the other.
-/

namespace HostedTests

namespace Incident

def ends (p : Nat) : Incident → Bool
  | told q n => decide (q = p) && n.ending?.isSome
  | _ => false

def ending? : Incident → Option Bool
  | collectorEnded canceled => some canceled
  | _ => none

def isApart (p : Nat) : Incident → Bool
  | told q _ => decide (q ≠ p)
  | collectorEnded _ => false
  | _ => true

@[simp] theorem noticeFor?_self (p : Nat) (n : Notice) :
    noticeFor? p (told p n) = some n := if_pos rfl

theorem noticeFor?_other {p q : Nat} (h : q ≠ p) (n : Notice) :
    noticeFor? p (told q n) = none := if_neg h

theorem ends_self (p : Nat) (n : Notice) : ends p (told p n) = n.ending?.isSome := by
  simp [ends]

theorem ends_other {p q : Nat} (h : q ≠ p) (n : Notice) : ends p (told q n) = false := by
  simp [ends, h]

end Incident

namespace Collecting

def asking (a : Collecting) (p : Nat) (canceled : Bool) : List Incident :=
  .collectorEnded canceled :: a.said.map (.told p)

def incidents (a : Collecting) (p : Nat) (ended : Bool) : Incident → List Incident
  | .told q n =>
    if q = p then
      (if ended then [] else (n.ending?.map (a.asking p)).getD []) ++ [.told p (a.passed n)]
    else [.told q n]
  | i => [i]

def record (a : Collecting) (p : Nat) : Bool → List Incident → List Incident
  | _, [] => []
  | ended, i :: rest => a.incidents p ended i ++ a.record p (ended || i.ends p) rest

theorem passed_of_no_ending (a : Collecting) {n : Notice} (h : n.ending? = none) :
    a.passed n = n := by
  rw [passed]
  cases a.sets? with
  | none => rfl
  | some sets =>
    cases n with
    | raw text =>
      have hnone := Option.map_eq_none_iff.mp h
      simp only [Notice.attach, hnone]
    | runComplete r => cases h
    | _ => rfl

theorem incidents_other (a : Collecting) {p q : Nat} (ended : Bool) (h : q ≠ p) (n : Notice) :
    a.incidents p ended (.told q n) = [.told q n] := if_neg h

theorem incidents_ended (a : Collecting) (p : Nat) (n : Notice) :
    a.incidents p true (.told p n) = [.told p (a.passed n)] := if_pos rfl

theorem incidents_first (a : Collecting) (p : Nat) {n : Notice} {canceled : Bool}
    (h : n.ending? = some canceled) :
    a.incidents p false (.told p n) = a.asking p canceled ++ [.told p (a.passed n)] := by
  simp [incidents, h]

theorem incidents_plain (a : Collecting) (p : Nat) (ended : Bool) {n : Notice}
    (h : n.ending? = none) : a.incidents p ended (.told p n) = [.told p n] := by
  simp [incidents, h, a.passed_of_no_ending h]

theorem record_append (a : Collecting) (p : Nat) (ended : Bool) (xs ys : List Incident) :
    a.record p ended (xs ++ ys) =
      a.record p ended xs ++ a.record p (ended || xs.any (Incident.ends p)) ys := by
  induction xs generalizing ended with
  | nil => rw [List.nil_append, List.any_nil, Bool.or_false, record, List.nil_append]
  | cons i xs ih =>
    rw [List.cons_append, record, record, ih, List.append_assoc, List.any_cons, Bool.or_assoc]

theorem record_single (a : Collecting) (p : Nat) (ended : Bool) (i : Incident) :
    a.record p ended [i] = a.incidents p ended i := List.append_nil _

theorem record_unheard (a : Collecting) (p : Nat) (ended : Bool) {is : List Incident}
    (h : is.filterMap (Incident.noticeFor? p) = []) :
    a.record p ended is = is ∧ is.any (Incident.ends p) = false := by
  induction is generalizing ended with
  | nil => exact ⟨rfl, rfl⟩
  | cons i is ih =>
    rw [List.filterMap_eq_nil_iff, List.forall_mem_cons, ← List.filterMap_eq_nil_iff] at h
    obtain ⟨hhead, hrest⟩ := h
    have hi : a.incidents p ended i = [i] ∧ i.ends p = false := by
      cases i
      case told q n =>
        have hq : q ≠ p := by
          rintro rfl
          rw [Incident.noticeFor?_self] at hhead
          cases hhead
        exact ⟨a.incidents_other ended hq n, Incident.ends_other hq n⟩
      all_goals exact ⟨rfl, rfl⟩
    obtain ⟨hrecord, hany⟩ := ih (ended || i.ends p) hrest
    rw [record, hi.1, hrecord, List.any_cons, hi.2, hany]
    exact ⟨rfl, rfl⟩

theorem apart_incidents (a : Collecting) (p : Nat) (ended : Bool) (i : Incident) :
    (a.incidents p ended i).filter (Incident.isApart p) = [i].filter (Incident.isApart p) := by
  cases i
  case told q n =>
    by_cases hq : q = p
    · subst hq
      have htold (ns : List Notice) :
          (ns.map (Incident.told q)).filter (Incident.isApart q) = [] := by
        simp [Incident.isApart]
      have hasking : (if ended then [] else (n.ending?.map (a.asking q)).getD []).filter
          (Incident.isApart q) = [] := by
        cases ended with
        | true => rfl
        | false =>
          cases n.ending? with
          | none => rfl
          | some canceled => exact htold a.said
      rw [incidents, if_pos rfl, List.filter_append, hasking]
      exact (htold [a.passed n]).trans (htold [n]).symm
    · rw [a.incidents_other ended hq]
  all_goals rfl

theorem apart_record (a : Collecting) (p : Nat) (ended : Bool) (is : List Incident) :
    (a.record p ended is).filter (Incident.isApart p) = is.filter (Incident.isApart p) := by
  induction is generalizing ended with
  | nil => rfl
  | cons i is ih =>
    rw [record, List.filter_append, ih, ← List.singleton_append, List.filter_append,
      apart_incidents]

end Collecting

namespace Session

def collecting (s : Session) (a : Collecting) : Option Nat → Session
  | none => s
  | some p =>
    let ended := s.record.any (Incident.ends p)
    { s.setCollection p (a.collection ended) with
      record := a.record p false s.record
      collector := { s.collector with ended := s.collector.ended + ended.toNat } }

def endings (s : Session) : List Bool := s.record.filterMap Incident.ending?

theorem endings_append {s t : Session} {more : List Incident} (h : t.record = s.record ++ more) :
    t.endings = s.endings ++ more.filterMap Incident.ending? := by
  rw [endings, endings, h, List.filterMap_append]

structure Plain (a : Collecting) (p : Option Nat) (s : Session) : Prop where
  manager : s.manager = none
  running : s.running = 0
  uncollected : s.collected = none
  bare : ∀ q ∈ s.parties, q.collection = none
  answer : s.collector.ending = a
  unasked : s.endings = []
  enrolled : ∀ q ∈ p, q < s.parties.length

structure Twin (a : Collecting) (p : Option Nat) (s t : Session) : Prop where
  plain : Plain a p s
  same : t = s.collecting a p

structure Alike {α : Type} (a : Collecting) (p : Option Nat) (x y : α × Session) : Prop where
  result : y.1 = x.1
  twin : Twin a p x.2 y.2

variable {a : Collecting} {p : Option Nat} {s t : Session}

theorem Plain.collection? (h : Plain a p s) (q : Nat) : s.collection? q = none := by
  rw [Session.collection?]
  cases hq : s.parties[q]? with
  | none => rfl
  | some party => exact h.bare party (List.mem_of_getElem? hq)

theorem collection?_collecting {q : Nat} (hq : q < s.parties.length) :
    (s.collecting a (some q)).collection? q =
      some (a.collection (s.record.any (Incident.ends q))) := by
  change (s.setCollection q _).collection? q = _
  rw [collection?_setCollection, if_pos rfl, List.getElem?_eq_getElem hq, Option.map_some]

theorem collection?_collecting_other {q r : Nat} (h : q ≠ r) :
    (s.collecting a (some q)).collection? r = s.collection? r := by
  change (s.setCollection q _).collection? r = _
  rw [collection?_setCollection, if_neg h]

theorem collecting_note {q : Nat} {i : Incident} {ended : Bool}
    (hended : s.record.any (Incident.ends q) = ended) (h : i.ends q = false ∨ ended = true) :
    (s.note i).collecting a (some q) =
      { s.collecting a (some q) with
        record := (s.collecting a (some q)).record ++ a.incidents q ended i } := by
  have hends : (s.record ++ [i]).any (Incident.ends q) = ended := by
    rcases h with h | h <;> simp [hended, h]
  simp only [collecting, note, setCollection, hended, hends, Collecting.record_append,
    Collecting.record_single, Bool.false_or]

theorem collecting_note_same {q : Nat} {i : Incident} (hends : i.ends q = false)
    (h : ∀ ended, a.incidents q ended i = [i]) :
    (s.note i).collecting a (some q) = (s.collecting a (some q)).note i := by
  rw [collecting_note rfl (.inl hends), h]
  rfl

theorem ending_collecting {q : Nat} (h : s.record.any (Incident.ends q) = false) :
    (s.collecting a (some q)).collector.ending = s.collector.ending := by
  simp only [collecting, h]
  rfl

theorem collecting_asked {q : Nat} {n : Notice} {canceled : Bool} (hn : n.ending? = some canceled)
    (ha : s.collector.ending = a) (h : s.record.any (Incident.ends q) = false) :
    ((s.collecting a (some q)).asked q canceled).tellAll q [a.passed n] =
      (s.tellAll q [n]).collecting a (some q) := by
  have hends : (s.record ++ [Incident.told q n]).any (Incident.ends q) = true := by
    simp [Incident.ends_self, hn]
  have hrecord : a.record q false (s.record ++ [Incident.told q n]) =
      a.record q false s.record ++ (a.asking q canceled ++ [.told q (a.passed n)]) := by
    rw [Collecting.record_append, Collecting.record_single, h, Bool.false_or,
      a.incidents_first q hn]
  simp only [asked, (ending_collecting h).trans ha]
  simp only [collecting, tellAll, setCollection, List.map_cons, List.map_nil, hends, hrecord, h,
    List.modify_modify_eq, Collecting.asking, List.cons_append, List.append_assoc]
  rfl

theorem collecting_deliver (h : Plain a p s) (q : Nat) (n : Notice) :
    (s.collecting a p).deliver .quiet q n = (s.tellAll q [n]).collecting a p := by
  cases p with
  | none => exact deliver_bare s q n (h.collection? q)
  | some r =>
    by_cases hq : q = r
    · subst hq
      have hcollection := collection?_collecting (a := a) (h.enrolled q rfl)
      cases hn : n.ending? with
      | none =>
        rw [deliver_no_ending _ q hn]
        have hends : Incident.ends q (.told q n) = false := by
          rw [Incident.ends_self, hn, Option.isSome_none]
        exact (collecting_note_same hends fun ended => a.incidents_plain q ended hn).symm
      | some canceled =>
        have hcollects : (s.collecting a (some q)).collection? q ≠ none := by
          rw [hcollection]
          exact Option.some_ne_none _
        cases hended : s.record.any (Incident.ends q) with
        | true =>
          rw [hended] at hcollection
          rw [deliver_of_endCollection hcollects hn (endCollection_ended hcollection canceled)]
          have hnote := collecting_note (a := a) (i := .told q n) hended (.inr rfl)
          rw [a.incidents_ended q n] at hnote
          exact hnote.symm
        | false =>
          rw [hended] at hcollection
          have hend := endCollection_open hcollection canceled
          rw [(ending_collecting hended).trans h.answer] at hend
          rw [deliver_of_endCollection hcollects hn hend]
          exact collecting_asked hn h.answer hended
    · have hnone : (s.collecting a (some r)).collection? q = none := by
        rw [collection?_collecting_other (Ne.symm hq)]
        exact h.collection? q
      rw [deliver_bare _ q n hnone]
      exact (collecting_note_same (Incident.ends_other hq n) fun ended =>
        a.incidents_other ended hq n).symm

end Session

end HostedTests
