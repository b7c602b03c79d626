import HostedTests.Message.Normal
import HostedTests.Proofs.Payload.Reading

namespace HostedTests.Message

open Json (Value)
open Payload (Shape Fields Leaf)

theorem normalizeMember_fst (m : String × Value) : (normalizeMember m).1 = m.1 := by
  obtain ⟨name, v⟩ := m
  cases v <;> rw [normalizeMember]
  all_goals simp

theorem normalizeItems_eq (items : List Value) : normalizeItems items = items.map normalize := by
  induction items with
  | nil => rfl
  | cons v rest ih => rw [normalizeItems, ih, List.map_cons]

theorem normalizeMembers_eq (members : List (String × Value)) :
    normalizeMembers members = members.map normalizeMember := by
  induction members with
  | nil => rfl
  | cons m rest ih => rw [normalizeMembers, ih, List.map_cons]

theorem normalizeMembers_insertEntry (name : String) (v : Value) (members : List (String × Value)) :
    normalizeMembers (insertEntry name v members) =
      insertEntry name (normalizeMember (name, v)).2 (normalizeMembers members) := by
  have hpair : normalizeMember (name, v) = (name, (normalizeMember (name, v)).2) :=
    Prod.ext (normalizeMember_fst (name, v)) rfl
  induction members with
  | nil => simp only [insertEntry, normalizeMembers_eq, List.map_cons, List.map_nil, ← hpair]
  | cons m rest ih =>
    have hm := normalizeMember_fst m
    rw [normalizeMembers, insertEntry, insertEntry, hm]
    split
    · rw [normalizeMembers, normalizeMembers, hpair]
    · split
      · rw [normalizeMembers, hpair]
      · rw [normalizeMembers, ih]

mutual

theorem normalize_sorted (v : Value) : normalize v.sorted = (normalize v).sorted := by
  match v with
  | .null | .bool _ | .number _ | .string _ => simp [Value.sorted, normalize]
  | .list items =>
    rw [Value.sorted, normalize, normalize, Value.sorted, normalizeItems_sorted items]
  | .object members =>
    rw [Value.sorted, normalize, normalize, Value.sorted, normalizeMembers_sorted members [],
      normalizeMembers]

theorem normalizeItems_sorted (items : List Value) :
    normalizeItems (Value.sortedItems items) = Value.sortedItems (normalizeItems items) := by
  match items with
  | [] => rfl
  | v :: rest =>
    rw [Value.sortedItems, normalizeItems, normalizeItems, Value.sortedItems, normalize_sorted v,
      normalizeItems_sorted rest]

theorem normalizeMembers_sorted (members done : List (String × Value)) :
    normalizeMembers (Value.sortedMembers members done) =
      Value.sortedMembers (normalizeMembers members) (normalizeMembers done) := by
  match members with
  | [] => rfl
  | m :: rest =>
    rw [Value.sortedMembers, normalizeMembers_sorted rest, normalizeMembers_insertEntry,
      normalizeMember_sorted m]
    conv_rhs => rw [normalizeMembers, Value.sortedMembers, normalizeMember_fst]

theorem normalizeMember_sorted (m : String × Value) :
    (normalizeMember (m.1, Value.sortedMember m)).2 = Value.sortedMember (normalizeMember m) := by
  obtain ⟨name, v⟩ := m
  have hv := normalize_sorted v
  cases v <;>
    simp only [Value.sortedMember, Value.sorted, normalizeMember, normalize] at hv ⊢ <;>
    exact hv

end

def leafIsText : Leaf → Bool
  | .flag | .int32 | .int64 | .tally => false
  | _ => true

def isText : Shape → Bool
  | .leaf l => leafIsText l
  | .optional s => isText s
  | _ => false

def isInstant : Shape → Bool
  | .leaf .instant => true
  | _ => false

mutual

def isTimed : Shape → Bool
  | .leaf l => l ≠ .value
  | .list s => isTimed s
  | .optional s => isTimed s
  | .dictionary s => isTimed s && !isText s
  | .record _ fields => areTimed fields

def areTimed : Fields → Bool
  | .nil => true
  | .cons name _ s rest =>
    isTimed s && (!isText s || isInstant s || !timestampNames.contains name) && areTimed rest

end

theorem normalizeMember_of_not_string {name : String} {v : Value} (h : ∀ s, v ≠ .string s) :
    normalizeMember (name, v) = (name, normalize v) := by
  cases v with
  | string s => exact absurd rfl (h s)
  | _ => simp [normalizeMember]

theorem normalizeMember_of_not_timestamp {name : String} (v : Value) (h : name ∉ timestampNames) :
    normalizeMember (name, v) = (name, normalize v) := by
  cases v with
  | string s => simp [normalizeMember, normalize, h]
  | _ => simp [normalizeMember]

theorem print_ne_string {s : Shape} (h : isText s = false) (x : s.Carrier) (t : String) :
    s.print x ≠ .string t := by
  match s, h, x with
  | .leaf l, h, x => cases l <;> first | exact absurd h (by decide) | (intro he; cases he)
  | .optional s, h, x =>
    cases x with
    | none =>
      intro he
      cases he
    | some y => exact print_ne_string (s := s) h y t
  | .list _, _, _ | .dictionary _, _, _ | .record _ _, _, _ =>
    intro he
    cases he

theorem normalizeMember_instant {s : Shape} (h : isInstant s) (name : String) (x : s.Carrier) :
    normalizeMember (name, s.print x) = (name, s.print x) := by
  match s, h, x with
  | .leaf .instant, _, x =>
    have hutc := Clock.Timestamp.toUtc_format x
    change normalizeMember (name, .string (Clock.Instant.format x)) = (name, .string _)
    rw [normalizeMember]
    split
    · rw [hutc]
    · rfl

theorem normalizeMembers_fixed {members : List (String × Value)}
    (h : ∀ m ∈ members, normalizeMember m = m) : normalizeMembers members = members := by
  rw [normalizeMembers_eq]
  exact (List.map_congr_left h).trans (List.map_id members)

theorem normalizeItems_fixed {items : List Value} (h : ∀ v ∈ items, normalize v = v) :
    normalizeItems items = items := by
  rw [normalizeItems_eq]
  exact (List.map_congr_left h).trans (List.map_id items)

theorem normalize_leaf (l : Leaf) (h : l ≠ .value) (x : l.Carrier) :
    normalize (l.print x) = l.print x := by
  cases l with
  | value => exact absurd rfl h
  | tally =>
    rw [Leaf.print, normalize, normalizeMembers_fixed]
    intro m hm
    obtain ⟨e, -, rfl⟩ := List.mem_map.1 hm
    simp [Payload.integer, normalizeMember, normalize]
  | _ => simp [Leaf.print, Payload.integer, normalize]

mutual

theorem normalize_print (s : Shape) (h : isTimed s) (x : s.Carrier) :
    normalize (s.print x) = s.print x := by
  match s, h, x with
  | .leaf l, h, x => exact normalize_leaf l (of_decide_eq_true h) x
  | .list s, h, xs =>
    change normalize (.list (List.map (fun y => s.print y) xs)) = _
    rw [normalize, normalizeItems_fixed]
    · rfl
    · intro v hv
      obtain ⟨y, -, rfl⟩ := List.mem_map.1 hv
      exact normalize_print s h y
  | .optional s, h, x =>
    cases x with
    | none => rfl
    | some y => exact normalize_print s h y
  | .dictionary s, h, d =>
    obtain ⟨hs, ht⟩ := Bool.and_eq_true_iff.1 h
    change normalize (.object ((Dictionary.entries d).map fun e => (e.1, s.print e.2))) = _
    rw [normalize, normalizeMembers_fixed]
    · rfl
    · intro m hm
      obtain ⟨e, -, rfl⟩ := List.mem_map.1 hm
      rw [normalizeMember_of_not_string (print_ne_string (by simpa using ht) e.2),
        normalize_print s hs e.2]
  | .record name fields, h, xs =>
    change normalize (.object (fields.members xs)) = _
    rw [normalize, normalizeMembers_members fields h xs]
    rfl

theorem normalizeMembers_members (fields : Fields) (h : areTimed fields) (xs : fields.Carrier) :
    normalizeMembers (fields.members xs) = fields.members xs := by
  match fields, h, xs with
  | .nil, _, _ => rfl
  | .cons name _ s rest, h, (x, xs) =>
    simp only [areTimed, Bool.and_eq_true, Bool.or_eq_true, Bool.not_eq_true',
      List.contains_eq_mem, decide_eq_false_iff_not] at h
    obtain ⟨⟨hs, ht⟩, hrest⟩ := h
    have hmember : normalizeMember (name, s.print x) = (name, s.print x) := by
      rcases ht with (ht | ht) | ht
      · rw [normalizeMember_of_not_string (print_ne_string ht x), normalize_print s hs x]
      · exact normalizeMember_instant ht name x
      · rw [normalizeMember_of_not_timestamp _ ht, normalize_print s hs x]
    rw [Fields.members, normalizeMembers, hmember, normalizeMembers_members rest hrest xs]

end

theorem require_of_ne_null {α : Type} [Payload α] {m : Message} (h : m.payload ≠ .null) :
    (m.require : Except Fault α) = m.bind := by
  unfold require
  split
  · rename_i hnull
    exact absurd hnull h
  · rfl

end HostedTests.Message
