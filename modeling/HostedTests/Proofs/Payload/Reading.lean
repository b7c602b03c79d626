import HostedTests.Proofs.Payload.Leaves

namespace HostedTests.Payload

open Json (Value)

mutual

def Shape.canon : (s : Shape) → s.Carrier → s.Carrier
  | .leaf l, x => l.canon x
  | .list s, xs => List.map (fun x => s.canon x) xs
  | .optional s, x => Option.map (fun x => s.canon x) x
  | .dictionary s, d => Dictionary.map (fun x => s.canon x) d
  | .record _ fields, xs => fields.canon xs

def Fields.canon : (fields : Fields) → fields.Carrier → fields.Carrier
  | .nil, _ => ()
  | .cons _ _ s rest, (x, xs) => (s.canon x, rest.canon xs)

end

theorem canon_list {s : Shape} {xs : List s.Carrier} (h : ∀ x ∈ xs, s.canon x = x) :
    (Shape.list s).canon xs = xs :=
  (List.map_congr_left h).trans (List.map_id xs)

theorem canon_dictionary {s : Shape} {d : Dictionary s.Carrier}
    (h : ∀ e ∈ d.entries, s.canon e.2 = e.2) : (Shape.dictionary s).canon d = d := by
  obtain ⟨entries, ha⟩ := d
  have hmap : entries.map (fun e => (e.1, s.canon e.2)) = entries.map id :=
    List.map_congr_left fun e he => Prod.ext rfl (h e he)
  change Dictionary.mk (entries.map fun e => (e.1, s.canon e.2)) _ = Dictionary.mk entries ha
  congr 1
  exact hmap.trans (List.map_id entries)

def Shape.isSolid : Shape → Bool
  | .leaf .value | .optional _ => false
  | _ => true

mutual

/-- Fields have names of their own, null stands for what is not there only, and nothing is left
open. -/
def Shape.isUnambiguous : Shape → Bool
  | .leaf l => l ≠ .value
  | .list s => s.isUnambiguous
  | .optional s => s.isSolid && s.isUnambiguous
  | .dictionary s => s.isUnambiguous
  | .record _ fields => fields.areUnambiguous

def Fields.areUnambiguous : Fields → Bool
  | .nil => true
  | .cons name _ s rest => !rest.names.contains name && s.isUnambiguous && rest.areUnambiguous

end

theorem print_ne_null {s : Shape} (h : s.isSolid) (x : s.Carrier) : (s.print x).sorted ≠ .null := by
  match s with
  | .leaf l =>
    cases l with
    | value => exact absurd h (by decide)
    | _ => simp [Shape.print, Leaf.print, integer, Value.sorted]
  | .optional _ => exact absurd h (by simp [Shape.isSolid])
  | .list _ => simp [Shape.print, Value.sorted]
  | .dictionary _ => simp [Shape.print, Value.sorted]
  | .record _ _ => simp [Shape.print, Value.sorted]

namespace Fields

def Binds : (fields : Fields) → fields.Carrier → String → Value → Prop
  | .nil, _, _, _ => False
  | .cons name _ s rest, (x, xs), found, v =>
    (found = name ∧ s.bind v = .ok x) ∨ (found ≠ name ∧ rest.Binds xs found v)

def known (isKnown : String → Bool) : (fields : Fields) → fields.Carrier → fields.Given
  | .nil, _ => ()
  | .cons name _ _ rest, (x, xs) => (if isKnown name then some x else none, rest.known isKnown xs)

theorem known_congr {k l : String → Bool} (fields : Fields) (xs : fields.Carrier)
    (h : ∀ name ∈ fields.names, k name = l name) : fields.known k xs = fields.known l xs := by
  match fields, xs with
  | .nil, _ => rfl
  | .cons name _ s rest, (x, xs) =>
    have hrest := known_congr rest xs fun n hn => h n (List.mem_cons_of_mem name hn)
    rw [known, known, h name List.mem_cons_self, hrest]

theorem known_none (fields : Fields) (xs : fields.Carrier) :
    fields.known (fun _ => false) xs = fields.noneGiven := by
  match fields, xs with
  | .nil, _ => rfl
  | .cons name _ s rest, (x, xs) =>
    rw [known, noneGiven, known_none rest xs]
    rfl

theorem finish_known {k : String → Bool} (fields : Fields) (xs : fields.Carrier)
    (h : ∀ name ∈ fields.names, k name = true) : fields.finish (fields.known k xs) = .ok xs := by
  match fields, xs with
  | .nil, _ => rfl
  | .cons name required s rest, (x, xs) =>
    have hrest := finish_known rest xs fun n hn => h n (List.mem_cons_of_mem name hn)
    simp only [known, h name List.mem_cons_self, if_true, finish, Option.some_or, hrest]
    rfl

theorem give_known {k : String → Bool} (fields : Fields) (hf : fields.areUnambiguous)
    (xs : fields.Carrier) {found : String} {v : Value} (h : fields.Binds xs found v) :
    fields.give (fields.known k xs) found v =
      .ok (fields.known (fun name => k name || name == found) xs) := by
  match fields, xs with
  | .nil, _ => exact h.elim
  | .cons name _ s rest, (x, xs) =>
    simp only [areUnambiguous, Bool.and_eq_true, Bool.not_eq_true', List.contains_eq_mem,
      decide_eq_false_iff_not] at hf
    obtain ⟨⟨hname, -⟩, hrest⟩ := hf
    rcases h with ⟨rfl, hb⟩ | ⟨hne, hb⟩
    · have hsame : rest.known (fun name => k name || name == found) xs = rest.known k xs := by
        apply known_congr
        intro n hn
        have hn : n ≠ found := fun h => hname (h ▸ hn)
        simp [hn]
      simp only [known, give, if_true, hb, hsame, beq_self_eq_true, Bool.or_true]
      rfl
    · have hgive := give_known rest hrest xs (k := k) hb
      have hne' : (name == found) = false := by simp [Ne.symm hne]
      simp only [known, give, if_neg hne, hgive, hne', Bool.or_false]
      rfl

theorem foldlM_give (fields : Fields) (hf : fields.areUnambiguous) (xs : fields.Carrier)
    {k : String → Bool} (members : List (String × Value))
    (h : ∀ m ∈ members, fields.Binds xs m.1 m.2) :
    members.foldlM (fun given m => fields.give given m.1 m.2) (fields.known k xs) =
      .ok (fields.known (fun name => k name || (members.map Prod.fst).contains name) xs) := by
  -- The fields that are known grow with each member, so the induction is for any of them.
  induction members generalizing k with
  | nil =>
    rw [List.foldlM_nil]
    congr 2
    funext name
    simp
  | cons m rest ih =>
    have hm := give_known fields hf xs (k := k) (h m List.mem_cons_self)
    have hrest := ih (k := fun name => k name || name == m.1)
      fun a ha => h a (List.mem_cons_of_mem m ha)
    rw [List.foldlM_cons, hm]
    apply hrest.trans
    congr 2
    funext name
    simp [Bool.or_assoc]

theorem keys_members (fields : Fields) (xs : fields.Carrier) :
    (fields.members xs).map Prod.fst = fields.names := by
  match fields, xs with
  | .nil, _ => rfl
  | .cons name _ s rest, (x, xs) => rw [members, List.map_cons, names, keys_members rest xs]

end Fields

theorem mapM_bind {α β : Type} {f : α → Except Fault β} {g : β → α} {c : β → β} (xs : List β)
    (h : ∀ x ∈ xs, f (g x) = .ok (c x)) : (xs.map g).mapM f = .ok (xs.map c) := by
  induction xs with
  | nil => rfl
  | cons x xs ih =>
    have hx := h x List.mem_cons_self
    have hxs := ih fun y hy => h y (List.mem_cons_of_mem x hy)
    rw [List.map_cons, List.mapM_cons, hx, hxs]
    rfl

theorem foldlM_insert {β : Type} {f : Value → Except Fault β} {g : β → Value} {c : β → β}
    (entries : List (String × β)) (done : Dictionary β)
    (h : ∀ e ∈ entries, f (g e.2) = .ok (c e.2))
    (ha : Ascending (done.entries ++ entries.map fun e => (e.1, c e.2))) :
    (entries.map fun e => (e.1, g e.2)).foldlM
        (fun d m => (f m.2).map fun x => Dictionary.insert d m.1 x) done =
      .ok ⟨done.entries ++ entries.map fun e => (e.1, c e.2), ha⟩ := by
  induction entries generalizing done with
  | nil =>
    obtain ⟨entries, hd⟩ := done
    simp only [List.map_nil, List.foldlM_nil, List.append_nil]
    rfl
  | cons e rest ih =>
    have he := h e List.mem_cons_self
    have hlast : ∀ a ∈ done.entries, a.1 < e.1 := fun a hm =>
      (List.pairwise_append.1 ha).2.2 a hm (e.1, c e.2) List.mem_cons_self
    have hinsert : (done.insert e.1 (c e.2)).entries = done.entries ++ [(e.1, c e.2)] :=
      insertEntry_last (c e.2) hlast
    have hnext := ih (done.insert e.1 (c e.2)) (fun a hm => h a (List.mem_cons_of_mem e hm))
      (by rw [hinsert, List.append_assoc]; exact ha)
    rw [List.map_cons, List.foldlM_cons, he]
    apply hnext.trans
    congr 2
    rw [hinsert, List.append_assoc]
    rfl

theorem bind_print_list (s : Shape) (xs : List s.Carrier)
    (h : ∀ x ∈ xs, s.bind (s.print x).sorted = .ok (s.canon x)) :
    (Shape.list s).bind ((Shape.list s).print xs).sorted = .ok ((Shape.list s).canon xs) := by
  have hprint : ((Shape.list s).print xs).sorted =
      .list (xs.map fun x => (s.print x).sorted) := by
    change Value.sorted (.list (xs.map fun x => s.print x)) = _
    rw [Value.sorted, Value.sortedItems_eq, List.map_map]
    rfl
  rw [hprint]
  exact mapM_bind (f := fun v => s.bind v) xs h

theorem bind_optional (s : Shape) {v : Value} (h : v ≠ .null) :
    (Shape.optional s).bind v = (s.bind v).map some := by
  cases v with
  | null => exact absurd rfl h
  | _ => rfl

theorem bind_print_optional (s : Shape) (hs : s.isSolid) (x : Option s.Carrier)
    (h : ∀ y ∈ x, s.bind (s.print y).sorted = .ok (s.canon y)) :
    (Shape.optional s).bind ((Shape.optional s).print x).sorted =
      .ok ((Shape.optional s).canon x) := by
  cases x with
  | none => rfl
  | some y =>
    change (Shape.optional s).bind (s.print y).sorted = .ok (some (s.canon y))
    rw [bind_optional s (print_ne_null hs y), h y rfl]
    rfl

theorem bind_print_dictionary (s : Shape) (d : Dictionary s.Carrier)
    (h : ∀ e ∈ d.entries, s.bind (s.print e.2).sorted = .ok (s.canon e.2)) :
    (Shape.dictionary s).bind ((Shape.dictionary s).print d).sorted =
      .ok ((Shape.dictionary s).canon d) := by
  have hasc : Ascending (d.entries.map fun e => (e.1, s.print e.2)) :=
    (d.map fun x => s.print x).ascending
  have hprint : ((Shape.dictionary s).print d).sorted =
      .object (d.entries.map fun e => (e.1, (s.print e.2).sorted)) := by
    change Value.sorted (.object (d.entries.map fun e => (e.1, s.print e.2))) = _
    rw [Value.sorted, Value.sortedMembers_ascending hasc, List.map_map]
    rfl
  rw [hprint]
  exact foldlM_insert (f := fun v => s.bind v) (g := fun x => (s.print x).sorted) d.entries .empty h
    (d.map fun x => s.canon x).ascending

theorem bind_object (record : String) (fields : Fields) (members : List (String × Value)) :
    (Shape.record record fields).bind (.object members) =
      members.foldlM (fun given m => fields.give given m.1 m.2) fields.noneGiven >>=
        fun given => fields.finish given := rfl

theorem bind_print_record (name : String) (fields : Fields) (hf : fields.areUnambiguous)
    (xs : fields.Carrier)
    (h : ∀ m ∈ fields.members xs, fields.Binds (fields.canon xs) m.1 m.2.sorted) :
    (Shape.record name fields).bind ((Shape.record name fields).print xs).sorted =
      .ok ((Shape.record name fields).canon xs) := by
  let sorted := Value.sortedMembers (fields.members xs) []
  have hbinds : ∀ m ∈ sorted, fields.Binds (fields.canon xs) m.1 m.2 :=
    Value.forall_sortedMembers h
  have hkeys : ∀ n ∈ fields.names, (sorted.map Prod.fst).contains n = true := by
    intro n hn
    rw [← Fields.keys_members fields xs] at hn
    exact List.contains_iff_mem.2 (Value.keys_sortedMembers (.inl hn))
  have hgive := Fields.foldlM_give fields hf (fields.canon xs) (k := fun _ => false) sorted hbinds
  rw [Fields.known_none] at hgive
  have hprint : ((Shape.record name fields).print xs).sorted = .object sorted := by
    change Value.sorted (.object (fields.members xs)) = _
    rw [Value.sorted]
  rw [hprint, bind_object, hgive]
  exact Fields.finish_known fields (fields.canon xs) (by simpa using hkeys)

mutual

theorem bind_print (s : Shape) (h : s.isUnambiguous) (x : s.Carrier) :
    s.bind (s.print x).sorted = .ok (s.canon x) :=
  match s, h, x with
  | .leaf _, h, x => bind_print_leaf (of_decide_eq_true h) x
  | .list s, h, xs => bind_print_list s xs fun y _ => bind_print s h y
  | .optional s, h, x =>
    have hs := Bool.and_eq_true_iff.1 h
    bind_print_optional s hs.1 x fun y _ => bind_print s hs.2 y
  | .dictionary s, h, d => bind_print_dictionary s d fun e _ => bind_print s h e.2
  | .record name fields, h, xs => bind_print_record name fields h xs (binds_members fields h xs)

theorem binds_members (fields : Fields) (h : fields.areUnambiguous) (xs : fields.Carrier) :
    ∀ m ∈ fields.members xs, fields.Binds (fields.canon xs) m.1 m.2.sorted := by
  match fields, h, xs with
  | .nil, _, _ => exact fun m hm => absurd hm List.not_mem_nil
  | .cons name _ s rest, h, (x, xs) =>
    simp only [Fields.areUnambiguous, Bool.and_eq_true, Bool.not_eq_true', List.contains_eq_mem,
      decide_eq_false_iff_not] at h
    obtain ⟨⟨hname, hs⟩, hrest⟩ := h
    intro m hm
    rw [Fields.members, List.mem_cons] at hm
    rcases hm with rfl | hm
    · exact .inl ⟨rfl, bind_print s hs x⟩
    · refine .inr ⟨fun he => hname ?_, binds_members rest hrest xs m hm⟩
      rw [← Fields.keys_members rest xs, ← he]
      exact List.mem_map_of_mem hm

end

end HostedTests.Payload
