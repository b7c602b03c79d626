import HostedTests.Session.Run

namespace HostedTests

def Incident.noticeFor? (party : Nat) : Incident → Option Notice
  | told p n => if p = party then some n else none
  | _ => none

def Incident.sent? : Incident → Option (Nat × String)
  | sent line text => some (line, text)
  | _ => none

def Operation.after (op : Operation) (ns : List Notice) : Operation :=
  { op with state.completed := op.state.completed || ns.any Notice.isCompletion }

namespace Operation

@[simp] theorem after_party (op : Operation) (ns : List Notice) :
    (op.after ns).party = op.party := rfl

@[simp] theorem after_completed (op : Operation) (ns : List Notice) :
    (op.after ns).state.completed = (op.state.completed || ns.any Notice.isCompletion) := rfl

theorem after_eq_self (op : Operation) (ns : List Notice)
    (h : ns.any Notice.isCompletion = false) : op.after ns = op := by
  rw [after, h, Bool.or_false]

theorem after_nil (op : Operation) : op.after [] = op := op.after_eq_self [] rfl

theorem after_after (op : Operation) (ns ms : List Notice) :
    (op.after ns).after ms = op.after (ns ++ ms) := by
  simp only [after, List.any_append, Bool.or_assoc]

end Operation

namespace Session

def told (s : Session) (p : Nat) : List Notice := s.record.filterMap (Incident.noticeFor? p)

def transmitted (s : Session) : List (Nat × String) := s.record.filterMap Incident.sent?

def tellAll (s : Session) (p : Nat) (ns : List Notice) : Session :=
  { s with record := s.record ++ ns.map (.told p) }

def inform (s : Session) (o : Nat) (op : Operation) (ns : List Notice) : Session :=
  { s with
    operations := s.operations.set o (op.after ns)
    record := s.record ++ ns.map (.told op.party) }

theorem told_append {s t : Session} {more : List Incident} (h : t.record = s.record ++ more)
    (p : Nat) : t.told p = s.told p ++ more.filterMap (Incident.noticeFor? p) := by
  rw [told, told, h, List.filterMap_append]

theorem transmitted_append {s t : Session} {more : List Incident}
    (h : t.record = s.record ++ more) :
    t.transmitted = s.transmitted ++ more.filterMap Incident.sent? := by
  rw [transmitted, transmitted, h, List.filterMap_append]

@[simp] theorem told_note_sent (s : Session) (line : Nat) (text : String) (p : Nat) :
    (s.note (.sent line text)).told p = s.told p := by
  rw [told_append rfl p]
  exact List.append_nil _

theorem filterMap_told_self (p : Nat) (ns : List Notice) :
    (ns.map (Incident.told p)).filterMap (Incident.noticeFor? p) = ns := by
  induction ns with
  | nil => rfl
  | cons n ns ih =>
    rw [List.map_cons, List.filterMap_cons, ih]
    simp only [Incident.noticeFor?, if_true]

theorem filterMap_told_other {p q : Nat} (h : p ≠ q) (ns : List Notice) :
    (ns.map (Incident.told p)).filterMap (Incident.noticeFor? q) = [] := by
  induction ns with
  | nil => rfl
  | cons n ns ih =>
    rw [List.map_cons, List.filterMap_cons, ih]
    simp only [Incident.noticeFor?, if_neg h]

theorem filterMap_told_sent (p : Nat) (ns : List Notice) :
    (ns.map (Incident.told p)).filterMap Incident.sent? = [] := by
  rw [List.filterMap_eq_nil_iff]
  intro i hi
  obtain ⟨n, -, rfl⟩ := List.mem_map.mp hi
  rfl

theorem transmitted_inform (s : Session) (o : Nat) (op : Operation) (ns : List Notice) :
    (s.inform o op ns).transmitted = s.transmitted := by
  rw [transmitted_append (s := s) rfl, filterMap_told_sent, List.append_nil]

theorem told_inform_self (s : Session) (o : Nat) (op : Operation) (ns : List Notice) :
    (s.inform o op ns).told op.party = s.told op.party ++ ns := by
  rw [told_append (s := s) rfl, filterMap_told_self]

theorem told_inform_other (s : Session) (o : Nat) (op : Operation) (ns : List Notice) {p : Nat}
    (h : op.party ≠ p) : (s.inform o op ns).told p = s.told p := by
  rw [told_append (s := s) rfl, filterMap_told_other h, List.append_nil]

@[simp] theorem tellAll_tellAll (s : Session) (p : Nat) (ns ms : List Notice) :
    (s.tellAll p ns).tellAll p ms = s.tellAll p (ns ++ ms) := by
  simp only [tellAll, List.map_append, List.append_assoc]

theorem inform_of_no_completion (s : Session) (o : Nat) (op : Operation) (ns : List Notice)
    (h : s.operations[o]? = some op) (hns : ns.any Notice.isCompletion = false) :
    s.inform o op ns = s.tellAll op.party ns := by
  obtain ⟨hlt, hget⟩ := List.getElem?_eq_some_iff.mp h
  rw [inform, tellAll, op.after_eq_self ns hns, ← hget, List.set_getElem_self]

theorem tell_quiet (s : Session) (p : Nat) (n : Notice) :
    s.tell .quiet p n = s.tellAll p [n] := rfl

theorem deliver_bare_tell (react : Reaction) (s : Session) (p : Nat) (n : Notice)
    (h : s.collection? p = none) : s.deliver react p n = s.tell react p n := by
  have hnone : (s.collection? p).isNone = true := by rw [h, Option.isNone_none]
  unfold deliver
  exact if_pos hnone

theorem deliver_bare (s : Session) (p : Nat) (n : Notice) (h : s.collection? p = none) :
    s.deliver .quiet p n = s.tellAll p [n] := by
  rw [deliver_bare_tell .quiet s p n h, tell_quiet]

theorem deliver_bare_tellAll (s : Session) (p : Nat) (ns : List Notice) (n : Notice)
    (h : s.collection? p = none) :
    (s.tellAll p ns).deliver .quiet p n = s.tellAll p (ns ++ [n]) := by
  rw [deliver_bare (s.tellAll p ns) p n h, tellAll_tellAll]

end Session

end HostedTests
