import HostedTests.Proofs.Payload.Reading

namespace HostedTests.Payload

open Json (Value)

theorem of_bind_ok {ε α β : Type} {x : Except ε α} {f : α → Except ε β} {b : β}
    (h : (x >>= f) = .ok b) : ∃ a, x = .ok a ∧ f a = .ok b := by
  cases x with
  | error e => cases h
  | ok a => exact ⟨a, rfl, h⟩

theorem of_map_ok {ε α β : Type} {x : Except ε α} {f : α → β} {b : β} (h : x.map f = .ok b) :
    ∃ a, x = .ok a ∧ f a = b := by
  cases x with
  | error e => cases h
  | ok a => exact ⟨a, rfl, Except.ok.inj h⟩

theorem of_mapError_ok {ε δ α : Type} {x : Except ε α} {f : ε → δ} {a : α}
    (h : x.mapError f = .ok a) : x = .ok a := by
  cases x with
  | error e => cases h
  | ok b => exact congrArg Except.ok (Except.ok.inj h)

theorem canon_bound_leaf {l : Leaf} {v : Value} {x : l.Carrier} (h : l.bind v = .ok x) :
    l.canon x = x := by
  cases l with
  | timeSpan =>
    obtain ⟨text, -, hparse⟩ := of_bind_ok h
    exact Clock.TimeSpan.truncated_of_parse (of_mapError_ok hparse)
  | _ => rfl

theorem canon_empty (s : Shape) {x : s.Carrier} (h : s.empty? = some x) : s.canon x = x := by
  match s, x, h with
  | .leaf l, x, h =>
    cases l with
    | timeSpan => cases h
    | _ => rfl
  | .list s, x, h =>
    cases h
    rfl
  | .optional s, x, h =>
    cases h
    rfl
  | .dictionary s, x, h =>
    cases h
    rfl
  | .record _ _, _, h => cases h

theorem canon_missing {required : Bool} {s : Shape} {x : s.Carrier}
    (h : missing required s = some x) : s.canon x = x := by
  rw [missing] at h
  split at h
  · cases h
  · exact canon_empty s h

theorem forall_of_mapM {α β : Type} {f : α → Except Fault β} {P : β → Prop} {as : List α}
    {bs : List β} (h : as.mapM f = .ok bs) (hf : ∀ a ∈ as, ∀ b, f a = .ok b → P b) :
    ∀ b ∈ bs, P b := by
  induction as generalizing bs with
  | nil =>
    cases h
    exact nofun
  | cons a as ih =>
    rw [List.mapM_cons] at h
    obtain ⟨b, hb, h⟩ := of_bind_ok h
    obtain ⟨rest, hrest, h⟩ := of_bind_ok h
    cases h
    intro c hc
    rcases List.mem_cons.mp hc with rfl | hc
    · exact hf a List.mem_cons_self _ hb
    · exact ih hrest (fun a' ha' => hf a' (List.mem_cons_of_mem a ha')) c hc

theorem invariant_of_foldlM {α β : Type} {f : β → α → Except Fault β} {P : β → Prop}
    {as : List α} {b c : β} (h : as.foldlM f b = .ok c) (hb : P b)
    (hf : ∀ b, P b → ∀ a ∈ as, ∀ c, f b a = .ok c → P c) : P c := by
  induction as generalizing b with
  | nil =>
    cases h
    exact hb
  | cons a as ih =>
    rw [List.foldlM_cons] at h
    obtain ⟨d, hd, h⟩ := of_bind_ok h
    exact ih h (hf b hb a List.mem_cons_self d hd)
      fun b hb a' ha' => hf b hb a' (List.mem_cons_of_mem a ha')

def Fields.Settled : (fields : Fields) → fields.Given → Prop
  | .nil, _ => True
  | .cons _ _ s rest, (given, more) => (∀ x ∈ given, s.canon x = x) ∧ rest.Settled more

theorem Fields.settled_noneGiven (fields : Fields) : fields.Settled fields.noneGiven := by
  match fields with
  | .nil => exact trivial
  | .cons _ _ s rest => exact ⟨nofun, rest.settled_noneGiven⟩

theorem Fields.canon_finish (fields : Fields) {given : fields.Given} {xs : fields.Carrier}
    (hg : fields.Settled given) (h : fields.finish given = .ok xs) : fields.canon xs = xs := by
  match fields, given, xs, hg, h with
  | .nil, _, _, _, _ => rfl
  | .cons name required s rest, (given, more), (x, xs), ⟨hgiven, hmore⟩, h =>
    rw [finish] at h
    split at h
    · rename_i y hy
      obtain ⟨ys, hrest, he⟩ := of_map_ok h
      cases he
      have hx : s.canon x = x := by
        cases given with
        | none => exact canon_missing hy
        | some z =>
          cases hy
          exact hgiven x rfl
      rw [canon, hx, rest.canon_finish hmore hrest]
    · cases h

mutual

theorem canon_bound (s : Shape) {v : Value} {x : s.Carrier} (h : s.bind v = .ok x) :
    s.canon x = x := by
  match s, x, h with
  | .leaf l, x, h => exact canon_bound_leaf h
  | .list s, xs, h =>
    cases v with
    | list items =>
      exact canon_list (forall_of_mapM (P := fun x => s.canon x = x) h
        fun v _ x hx => canon_bound s hx)
    | _ => cases h
  | .optional s, x, h =>
    by_cases hnull : v = .null
    · subst hnull
      cases h
      rfl
    · rw [bind_optional s hnull] at h
      obtain ⟨y, hy, rfl⟩ := of_map_ok h
      exact congrArg some (canon_bound s hy)
  | .dictionary s, d, h =>
    cases v with
    | object members =>
      let settled (d : Dictionary s.Carrier) : Prop := ∀ e ∈ d.entries, s.canon e.2 = e.2
      apply canon_dictionary
      apply invariant_of_foldlM (P := settled) h
      · exact nofun
      · intro d hd m _ d' h
        obtain ⟨x, hx, rfl⟩ := of_map_ok h
        intro e he
        rcases mem_insertEntry he with rfl | he
        · exact canon_bound s hx
        · exact hd e he
    | _ => cases h
  | .record name fields, xs, h =>
    cases v with
    | object members =>
      obtain ⟨given, hgiven, hfinish⟩ := of_bind_ok h
      apply fields.canon_finish _ hfinish
      apply invariant_of_foldlM hgiven fields.settled_noneGiven
      intro given hg m _ given' h
      exact settled_give fields hg h
    | list items =>
      obtain ⟨⟨record, rest⟩, hrecord, h⟩ := of_bind_ok h
      cases hrest : rest.isEmpty with
      | true =>
        simp only [hrest] at h
        cases h
        exact canon_boundItems fields hrecord
      | false =>
        simp only [hrest, Bool.false_eq_true] at h
        cases h
    | _ => cases h

theorem settled_give (fields : Fields) {given given' : fields.Given} {found : String} {v : Value}
    (hg : fields.Settled given) (h : fields.give given found v = .ok given') :
    fields.Settled given' := by
  match fields, given, given', hg, h with
  | .nil, _, _, _, _ => exact trivial
  | .cons name _ s rest, (given, more), _, ⟨hgiven, hmore⟩, h =>
    rw [Fields.give] at h
    split at h
    · obtain ⟨x, hx, rfl⟩ := of_map_ok h
      refine ⟨?_, hmore⟩
      intro y hy
      cases hy
      exact canon_bound s hx
    · obtain ⟨more', hmore', rfl⟩ := of_map_ok h
      exact ⟨hgiven, settled_give rest hmore hmore'⟩

theorem canon_boundItems (fields : Fields) {record : String} {total index : ℕ} {items : List Value}
    {r : fields.Carrier × List Value} (h : fields.bindItems record total index items = .ok r) :
    fields.canon r.1 = r.1 := by
  match fields, items, r, h with
  | .nil, _, _, _ => rfl
  | .cons name required s rest, item :: items, r, h =>
    obtain ⟨x, hx, h⟩ := of_bind_ok h
    obtain ⟨⟨xs, items⟩, hxs, h⟩ := of_bind_ok h
    cases h
    have hrest := canon_boundItems rest hxs
    rw [Fields.canon, canon_bound s hx, hrest]
  | .cons name required s rest, [], r, h =>
    rw [Fields.bindItems] at h
    split at h
    · rename_i x hx
      obtain ⟨⟨xs, items⟩, hxs, rfl⟩ := of_map_ok h
      have hrest := canon_boundItems rest hxs
      rw [Fields.canon, canon_missing hx, hrest]
    · cases h

end

end HostedTests.Payload
