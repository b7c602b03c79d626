import HostedTests.Proofs.Payload.Reading
import Mathlib.Data.List.Forall2

namespace HostedTests.Payload

open Json (Value)

def IsPlain : Value → Prop
  | .list _ | .object _ => False
  | _ => True

namespace Fields

def shape? : Fields → String → Option Shape
  | .nil, _ => none
  | .cons name _ s rest, found => if found = name then some s else rest.shape? found

def shapes : Fields → List Shape
  | .nil => []
  | .cons _ _ s rest => s :: rest.shapes

end Fields

/-- The second value is the first with a stray member put into one of its records, be it the whole
value or one deep inside. A stray member that was there under the name gives way. -/
inductive AddsStray : Shape → Value → Value → Prop where
  | here {record name : String} {fields : Fields} {members : List (String × Value)} (stray : Value)
      (h : name ∉ fields.names) :
      AddsStray (.record record fields) (.object members) (.object (insertEntry name stray members))
  | field {record name : String} {fields : Fields} {s : Shape} {v w : Value}
      (front back : List (String × Value)) (hs : fields.shape? name = some s)
      (h : AddsStray s v w) :
      AddsStray (.record record fields) (.object (front ++ (name, v) :: back))
        (.object (front ++ (name, w) :: back))
  | row {record : String} {fields : Fields} {s : Shape} {v w : Value} (front back : List Value)
      (hs : fields.shapes[front.length]? = some s) (h : AddsStray s v w) :
      AddsStray (.record record fields) (.list (front ++ v :: back)) (.list (front ++ w :: back))
  | item {s : Shape} {v w : Value} (front back : List Value) (h : AddsStray s v w) :
      AddsStray (.list s) (.list (front ++ v :: back)) (.list (front ++ w :: back))
  | present {s : Shape} {v w : Value} (h : AddsStray s v w) : AddsStray (.optional s) v w
  | entry {s : Shape} {key : String} {v w : Value} (front back : List (String × Value))
      (h : AddsStray s v w) :
      AddsStray (.dictionary s) (.object (front ++ (key, v) :: back))
        (.object (front ++ (key, w) :: back))

theorem AddsStray.not_plain {s : Shape} {v w : Value} (h : AddsStray s v w) :
    ¬ IsPlain v ∧ ¬ IsPlain w := by
  induction h with
  | present _ ih => exact ih
  | _ => exact ⟨id, id⟩

theorem ne_null_of_not_plain {v : Value} (h : ¬ IsPlain v) : v ≠ .null := by
  rintro rfl
  exact h trivial

section Folds

variable {ε α β : Type}

theorem mapM_replaced {f : α → Except ε β} {a b : α} (h : f a = f b) (front back : List α) :
    (front ++ a :: back).mapM f = (front ++ b :: back).mapM f := by
  rw [List.mapM_append, List.mapM_append, List.mapM_cons, List.mapM_cons, h]

theorem foldlM_replaced {f : β → α → Except ε β} {a b : α} (h : ∀ x, f x a = f x b) (x : β)
    (front back : List α) :
    (front ++ a :: back).foldlM f x = (front ++ b :: back).foldlM f x := by
  rw [List.foldlM_append, List.foldlM_append]
  congr 1
  funext y
  rw [List.foldlM_cons, List.foldlM_cons, h]

theorem foldlM_insertEntry {f : β → String × α → Except ε β} {name : String}
    (h : ∀ x a, f x (name, a) = .ok x) (a : α) (x : β) (entries : List (String × α)) :
    (insertEntry name a entries).foldlM f x = entries.foldlM f x := by
  induction entries generalizing x with
  | nil =>
    rw [insertEntry, List.foldlM_cons, h]
    rfl
  | cons e rest ih =>
    obtain ⟨key, b⟩ := e
    rw [insertEntry]
    split
    · rw [List.foldlM_cons, h]
      rfl
    · split
      · rename_i hname
        obtain rfl : name = key := hname
        rw [List.foldlM_cons, List.foldlM_cons, h, h]
      · rw [List.foldlM_cons, List.foldlM_cons]
        congr 1
        funext y
        exact ih y

end Folds

namespace Fields

theorem give_stray (fields : Fields) {name : String} (h : name ∉ fields.names)
    (given : fields.Given) (v : Value) : fields.give given name v = .ok given := by
  match fields, given with
  | .nil, _ => rfl
  | .cons field _ s rest, (given, more) =>
    rw [names, List.mem_cons, not_or] at h
    rw [give, if_neg h.1, give_stray rest h.2 more v]
    rfl

theorem give_congr (fields : Fields) {name : String} {s : Shape}
    (hs : fields.shape? name = some s) {v w : Value} (h : s.bind v = s.bind w)
    (given : fields.Given) : fields.give given name v = fields.give given name w := by
  match fields, given with
  | .nil, _ => rfl
  | .cons field _ t rest, (given, more) =>
    rw [shape?] at hs
    rw [give, give]
    split
    · rename_i hname
      rw [if_pos hname] at hs
      obtain rfl : t = s := Option.some.inj hs
      rw [h]
    · rename_i hname
      rw [if_neg hname] at hs
      rw [give_congr rest hs h more]

theorem bindItems_congr (fields : Fields) {s : Shape} {v w : Value} (h : s.bind v = s.bind w)
    (record : String) (total index : ℕ) (front back : List Value)
    (hs : fields.shapes[front.length]? = some s) :
    fields.bindItems record total index (front ++ v :: back) =
      fields.bindItems record total index (front ++ w :: back) := by
  match fields, front with
  | .nil, _ => exact absurd hs (by simp [shapes])
  | .cons _ _ t rest, [] =>
    obtain rfl : t = s := by simpa [shapes] using hs
    rw [List.nil_append, List.nil_append, bindItems, bindItems, h]
  | .cons _ _ t rest, item :: front =>
    have hrest : rest.shapes[front.length]? = some s := by simpa [shapes] using hs
    rw [List.cons_append, List.cons_append, bindItems, bindItems,
      bindItems_congr rest h record total (index + 1) front back hrest]

end Fields

theorem bind_row (record : String) (fields : Fields) (items : List Value) :
    (Shape.record record fields).bind (.list items) =
      fields.bindItems record fields.length 0 items >>= fun r =>
        if r.2.isEmpty then .ok r.1 else .error (.tooLong items.length) := rfl

theorem AddsStray.bind_eq {s : Shape} {v w : Value} (h : AddsStray s v w) :
    s.bind w = s.bind v := by
  -- On the way down to the record: what stands before and behind it is bound as it was.
  induction h with
  | @here record name fields members stray h =>
    rw [bind_object, bind_object, foldlM_insertEntry fun given v => fields.give_stray h given v]
  | @field record name fields s v w front back hs h ih =>
    have hgive (given : fields.Given) : fields.give given name w = fields.give given name v :=
      fields.give_congr hs ih given
    have hfold := foldlM_replaced (f := fun given m => fields.give given m.1 m.2)
      (a := (name, w)) (b := (name, v)) hgive fields.noneGiven front back
    rw [bind_object, bind_object, hfold]
  | @row record fields s v w front back hs h ih =>
    have hitems := fields.bindItems_congr ih record fields.length 0 front back hs
    rw [bind_row, bind_row, hitems, List.length_append, List.length_append, List.length_cons,
      List.length_cons]
  | @item s v w front back h ih => exact mapM_replaced ih front back
  | @present s v w h ih =>
    obtain ⟨hv, hw⟩ := h.not_plain
    rw [bind_optional s (ne_null_of_not_plain hv), bind_optional s (ne_null_of_not_plain hw), ih]
  | @entry s key v w front back h ih =>
    refine foldlM_replaced (fun d => ?_) Dictionary.empty front back
    rw [ih]

def Leaf.Covers : (l : Leaf) → l.Carrier → Value → Prop
  | tally, t, v => ∃ members, v = .object members ∧
      ∀ m ∈ members, (∃ o n, Tally.get? t o = some n ∧ m.1 = o.name) ∧ IsPlain m.2
  | _, _, v => IsPlain v

mutual

/-- Every member of the value, at any depth, has the name of a field of the record that it is in, or
is under a key that the dictionary has there. -/
def Shape.Covers : (s : Shape) → s.Carrier → Value → Prop
  | .leaf l, x, v => l.Covers x v
  | .list s, xs, v => ∃ items, v = .list items ∧
      List.Forall₂ (fun x item => s.Covers x item) xs items
  | .optional s, x, v =>
    match x with
    | none => IsPlain v
    | some x => s.Covers x v
  | .dictionary s, d, v => ∃ members, v = .object members ∧
      ∀ m ∈ members, ∃ e ∈ d.entries, m.1 = e.1 ∧ s.Covers e.2 m.2
  | .record _ fields, xs, v => ∃ members, v = .object members ∧
      ∀ m ∈ members, fields.Covers xs m.1 m.2

def Fields.Covers : (fields : Fields) → fields.Carrier → String → Value → Prop
  | .nil, _, _, _ => False
  | .cons name _ s rest, (x, xs), found, v =>
    (found = name ∧ s.Covers x v) ∨ rest.Covers xs found v

end

theorem isPlain_sorted {v : Value} (h : IsPlain v) : IsPlain v.sorted := by
  cases v with
  | list | object => exact h.elim
  | _ => exact trivial

theorem covers_print_leaf {l : Leaf} (h : l ≠ .value) (x : l.Carrier) : l.Covers x (l.print x) := by
  cases l with
  | value => exact absurd rfl h
  | tally =>
    refine ⟨_, rfl, ?_⟩
    intro m hm
    obtain ⟨⟨o, n⟩, he, rfl⟩ := List.mem_map.1 hm
    exact ⟨⟨o, n, Tally.mem_entries.1 he, rfl⟩, trivial⟩
  | _ => exact trivial

theorem covers_sorted_leaf {l : Leaf} {x : l.Carrier} {v : Value} (h : l.Covers x v) :
    l.Covers x v.sorted := by
  cases l with
  | tally =>
    obtain ⟨members, rfl, hmembers⟩ := h
    refine ⟨Value.sortedMembers members [], by rw [Value.sorted], ?_⟩
    apply Value.forall_sortedMembers
    intro m hm
    exact ⟨(hmembers m hm).1, isPlain_sorted (hmembers m hm).2⟩
  | _ => exact isPlain_sorted h

mutual

theorem covers_print (s : Shape) (h : s.isUnambiguous) (x : s.Carrier) :
    s.Covers x (s.print x) := by
  match s, h, x with
  | .leaf l, h, x => exact covers_print_leaf (of_decide_eq_true h) x
  | .list s, h, xs =>
    refine ⟨_, rfl, ?_⟩
    exact List.forall₂_map_right_iff.2 (List.forall₂_same.2 fun y _ => covers_print s h y)
  | .optional s, h, x =>
    cases x with
    | none => exact trivial
    | some y => exact covers_print s (Bool.and_eq_true_iff.1 h).2 y
  | .dictionary s, h, d =>
    refine ⟨_, rfl, ?_⟩
    intro m hm
    obtain ⟨e, he, rfl⟩ := List.mem_map.1 hm
    exact ⟨e, he, rfl, covers_print s h e.2⟩
  | .record _ fields, h, xs => exact ⟨_, rfl, covers_members fields h xs⟩

theorem covers_members (fields : Fields) (h : fields.areUnambiguous) (xs : fields.Carrier) :
    ∀ m ∈ fields.members xs, fields.Covers xs m.1 m.2 := by
  match fields, h, xs with
  | .nil, _, _ => exact fun m hm => absurd hm List.not_mem_nil
  | .cons name _ s rest, h, (x, xs) =>
    simp only [Fields.areUnambiguous, Bool.and_eq_true] at h
    intro m hm
    rw [Fields.members, List.mem_cons] at hm
    rcases hm with rfl | hm
    · exact .inl ⟨rfl, covers_print s h.1.2 x⟩
    · exact .inr (covers_members rest h.2 xs m hm)

end

mutual

theorem covers_sorted (s : Shape) {x : s.Carrier} {v : Value} (h : s.Covers x v) :
    s.Covers x v.sorted := by
  match s, x, h with
  | .leaf l, x, h => exact covers_sorted_leaf h
  | .list s, xs, h =>
    obtain ⟨items, rfl, hitems⟩ := h
    refine ⟨items.map Value.sorted, by rw [Value.sorted, Value.sortedItems_eq], ?_⟩
    exact List.forall₂_map_right_iff.2 (hitems.imp fun _ _ hitem => covers_sorted s hitem)
  | .optional s, x, h =>
    cases x with
    | none => exact isPlain_sorted h
    | some y => exact covers_sorted s (x := y) h
  | .dictionary s, d, h =>
    obtain ⟨members, rfl, hmembers⟩ := h
    refine ⟨Value.sortedMembers members [], by rw [Value.sorted], ?_⟩
    apply Value.forall_sortedMembers
    intro m hm
    obtain ⟨e, he, hname, hvalue⟩ := hmembers m hm
    exact ⟨e, he, hname, covers_sorted s hvalue⟩
  | .record _ fields, xs, h =>
    obtain ⟨members, rfl, hmembers⟩ := h
    refine ⟨Value.sortedMembers members [], by rw [Value.sorted], ?_⟩
    apply Value.forall_sortedMembers
    exact fun m hm => covers_sorted_field fields (hmembers m hm)

theorem covers_sorted_field (fields : Fields) {xs : fields.Carrier} {name : String} {v : Value}
    (h : fields.Covers xs name v) : fields.Covers xs name v.sorted := by
  match fields, xs, h with
  | .cons _ _ s _, (_, _), .inl ⟨hname, h⟩ => exact .inl ⟨hname, covers_sorted s h⟩
  | .cons _ _ _ rest, (_, _), .inr h => exact .inr (covers_sorted_field rest h)

end

end HostedTests.Payload
