import HostedTests.Proofs.Json.Numerals
import HostedTests.Proofs.Json.Strings

namespace HostedTests.Json

mutual

def Value.Fits (room : ℕ) : Value → Prop
  | .number n => n.Fits
  | .list items => 1 < room ∧ itemsFit (room - 1) items
  | .object members => 1 < room ∧ membersFit (room - 1) members
  | _ => True

def itemsFit (room : ℕ) : List Value → Prop
  | [] => True
  | v :: rest => Value.Fits room v ∧ itemsFit room rest

def membersFit (room : ℕ) : List (String × Value) → Prop
  | [] => True
  | m :: rest => memberFits room m ∧ membersFit room rest

def memberFits (room : ℕ) : String × Value → Prop
  | (_, v) => Value.Fits room v

end

theorem itemsFit_of_forall {room : ℕ} {items : List Value} (h : ∀ v ∈ items, v.Fits room) :
    itemsFit room items := by
  induction items with
  | nil => exact trivial
  | cons v rest ih =>
    exact ⟨h v List.mem_cons_self, ih fun w hw => h w (List.mem_cons_of_mem v hw)⟩

theorem membersFit_of_forall {room : ℕ} {members : List (String × Value)}
    (h : ∀ m ∈ members, m.2.Fits room) : membersFit room members := by
  induction members with
  | nil => exact trivial
  | cons m rest ih =>
    obtain ⟨name, v⟩ := m
    exact ⟨h (name, v) List.mem_cons_self, ih fun w hw => h w (List.mem_cons_of_mem _ hw)⟩

namespace Reader

def next? (r : Reader) (c : Char) : Option Reader :=
  match r.step c with
  | .more r => some r
  | _ => none

def feed? (r : Reader) (cs : List Char) : Option Reader := cs.foldlM next? r

def Ends (r : Reader) (cs : List Char) (o : ReaderStep) : Prop :=
  ∃ front c r', cs = front ++ [c] ∧ r.feed? front = some r' ∧ r'.step c = o

theorem feed?_append (r : Reader) (cs ds : List Char) :
    r.feed? (cs ++ ds) = (r.feed? cs).bind fun q => q.feed? ds := List.foldlM_append

theorem feed?_cons {r r' : Reader} {c : Char} (h : r.step c = .more r') (cs : List Char) :
    r.feed? (c :: cs) = r'.feed? cs := by
  have hn : r.next? c = some r' := by rw [next?, h]
  rw [feed?, List.foldlM_cons, hn]
  rfl

theorem Ends.single {r : Reader} {c : Char} {o : ReaderStep} (h : r.step c = o) : r.Ends [c] o :=
  ⟨[], c, r, rfl, rfl, h⟩

theorem Ends.append {r r' : Reader} {cs ds : List Char} {o : ReaderStep}
    (h : r.feed? cs = some r') (he : r'.Ends ds o) : r.Ends (cs ++ ds) o := by
  obtain ⟨front, c, q, rfl, hf, hs⟩ := he
  refine ⟨cs ++ front, c, q, by rw [List.append_assoc], ?_, hs⟩
  rw [feed?_append, h, Option.bind_some, hf]

theorem Ends.cons {r r' : Reader} {c : Char} {cs : List Char} {o : ReaderStep}
    (h : r.step c = .more r') (he : r'.Ends cs o) : r.Ends (c :: cs) o := by
  have hc : r.feed? [c] = some r' := by
    rw [feed?_cons h]
    rfl
  exact Ends.append hc he

theorem Ends.feed? {r r' : Reader} {cs : List Char} (h : r.Ends cs (.more r')) :
    r.feed? cs = some r' := by
  obtain ⟨front, c, q, rfl, hf, hs⟩ := h
  rw [feed?_append, hf, Option.bind_some, feed?_cons hs]
  rfl

theorem next?_eq_some {r q : Reader} {c : Char} : r.next? c = some q ↔ r.step c = .more q := by
  unfold next?
  split <;> simp_all

theorem feed?_string (stack : List Frame) (room : ℕ) {p q : PartialString} {cs : List Char}
    (h : p.feed? cs = some q) :
    feed? ⟨stack, room, .string p⟩ cs = some ⟨stack, room, .string q⟩ := by
  refine foldlM_inside (fun p => Reader.mk stack room (.string p)) ?_ h
  intro p c q hq
  rw [next?_eq_some]
  simp only [step, PartialString.next?_eq_some.1 hq]

theorem feed?_name (stack : List Frame) (room : ℕ) (members : List (String × Value))
    {p q : PartialString} {cs : List Char} (h : p.feed? cs = some q) :
    feed? ⟨stack, room, .name members p⟩ cs = some ⟨stack, room, .name members q⟩ := by
  refine foldlM_inside (fun p => Reader.mk stack room (.name members p)) ?_ h
  intro p c q hq
  rw [next?_eq_some]
  simp only [step, PartialString.next?_eq_some.1 hq]

theorem feed?_numeral (stack : List Frame) (room : ℕ) {n m : PartialNumeral} {cs : List Char}
    (h : n.feed? cs = some m) :
    feed? ⟨stack, room, .numeral n⟩ cs = some ⟨stack, room, .numeral m⟩ := by
  refine foldlM_inside (fun n => Reader.mk stack room (.numeral n)) ?_ h
  intro n c m hm
  rw [next?_eq_some]
  simp only [step, PartialNumeral.next?_eq_some.1 hm]

def Starts (r : Reader) (stack : List Frame) (room : ℕ) : Prop :=
  ∀ c, c ≠ ']' → isSpace c = false → r.step c = begin stack room c

theorem starts_value (stack : List Frame) (room : ℕ) : Starts ⟨stack, room, .value⟩ stack room := by
  intro c _ hs
  simp [step, hs]

theorem starts_first (stack : List Frame) (room : ℕ) (items : List Value) :
    Starts ⟨stack, room, .first (.list items)⟩ (.list items :: stack) room := by
  intro c hc hs
  simp [step, firstStep, hc, hs]

theorem starts_comma (stack : List Frame) (room : ℕ) (items : List Value) :
    Starts ⟨stack, room, .comma (.list items)⟩ (.list items :: stack) room := by
  intro c hc hs
  simp [step, commaStep, hc, hs]

def Follows (r : Reader) (stack : List Frame) (room : ℕ) (container : Container) : Prop :=
  ∀ c, IsDelimiter c → r.step c = nextStep stack room container c

theorem follows_next (stack : List Frame) (room : ℕ) (container : Container) :
    Follows ⟨stack, room, .next container⟩ stack room container := fun _ _ => rfl

variable {r : Reader} {stack : List Frame} {room : ℕ}

theorem ends_null (h : r.Starts stack room) :
    r.Ends Value.null.text (complete stack room .null) := by
  have hn := h 'n' (by decide) (by decide)
  exact Ends.cons hn (Ends.cons rfl (Ends.cons rfl (Ends.single rfl)))

theorem ends_bool (h : r.Starts stack room) (b : Bool) :
    r.Ends (Value.bool b).text (complete stack room (.bool b)) := by
  cases b with
  | false =>
    have hf := h 'f' (by decide) (by decide)
    exact Ends.cons hf (Ends.cons rfl (Ends.cons rfl (Ends.cons rfl (Ends.single rfl))))
  | true =>
    have ht := h 't' (by decide) (by decide)
    exact Ends.cons ht (Ends.cons rfl (Ends.cons rfl (Ends.single rfl)))

theorem ends_string (h : r.Starts stack room) (s : String) :
    r.Ends (Value.string s).text (complete stack room (.string s)) := by
  have hq := h '"' (by decide) (by decide)
  rw [Value.text, stringText]
  refine Ends.cons hq (Ends.append (feed?_string _ _ (PartialString.feed?_escapes s.toList [])) ?_)
  apply Ends.single
  simp only [step, PartialString.step_quote, String.ofList_toList]

theorem begin_digit {c : Char} (h : Text.isDigit c) :
    begin stack room c = .more ⟨stack, room, .numeral (.begun false (Text.digitValue c))⟩ := by
  have hn : c ≠ 'n' ∧ c ≠ 't' ∧ c ≠ 'f' ∧ c ≠ '-' := by
    refine ⟨?_, ?_, ?_, ?_⟩ <;> (rintro rfl; revert h; decide)
  rw [begin, if_neg hn.1, if_neg hn.2.1, if_neg hn.2.2.1, if_neg hn.2.2.2, if_pos h]
  rfl

theorem feed?_whole (h : r.Starts stack room) {i : ℤ} (hi : InRange i) :
    ∃ n, r.feed? (Text.signed i) = some ⟨stack, room, .numeral n⟩ ∧
      n.numeral.value = .ok (.int i) ∧ ∀ c, IsDelimiter c → n.step c = .stop := by
  obtain ⟨hlow, hhigh⟩ := hi
  cases i with
  | ofNat n =>
    obtain ⟨c, cs, place, he, hc, hf, hp⟩ := PartialNumeral.feed?_decimal false n
    have hs : c ≠ ']' ∧ isSpace c = false := by
      constructor
      · rintro rfl
        revert hc
        decide
      · by_contra hs
        simp only [isSpace, Bool.not_eq_false, Bool.or_eq_true, beq_iff_eq] at hs
        rcases hs with ((rfl | rfl) | rfl) | rfl <;> revert hc <;> decide
    refine ⟨⟨.ofDecimal false n, place⟩, ?_, ?_, ?_⟩
    · rw [Text.signed, he, feed?_cons ((h c hs.1 hs.2).trans (begin_digit hc))]
      exact feed?_numeral stack room hf
    · have hn : (n : ℤ) < 0x10000000000000000 := hhigh
      exact Numeral.value_ofDecimal (by simp only [Numeral.significandBound]; omega)
    · intro d hd
      exact PartialNumeral.step_delimiter false n hp hd
  | negSucc n =>
    obtain ⟨c, cs, place, he, hc, hf, hp⟩ := PartialNumeral.feed?_decimal true (n + 1)
    have hm : r.step '-' = .more ⟨stack, room, .numeral .minus⟩ := h '-' (by decide) (by decide)
    have hd : step ⟨stack, room, .numeral .minus⟩ c =
        .more ⟨stack, room, .numeral (.begun true (Text.digitValue c))⟩ := by
      simp only [step, PartialNumeral.step_first c hc]
    refine ⟨⟨.ofDecimal true (n + 1), place⟩, ?_, ?_, ?_⟩
    · rw [Text.signed, he, feed?_cons hm, feed?_cons hd]
      exact feed?_numeral stack room hf
    · rw [Numeral.value_ofDecimal_negative (by omega) (by omega)]
      rfl
    · intro d hd
      exact PartialNumeral.step_delimiter true (n + 1) hp hd

theorem feed?_negativeZero (h : r.Starts stack room) :
    r.feed? (Json.Number.text (.float true Number.Binary64.zero)) =
      some ⟨stack, room, .numeral ⟨.negativeZero, .fraction⟩⟩ := by
  have hminus : r.step '-' = .more ⟨stack, room, .numeral .minus⟩ := h '-' (by decide) (by decide)
  exact feed?_cons hminus ['0', '.', '0']

theorem feed?_number (h : r.Starts stack room) {x : Json.Number} (hx : x.Fits) :
    ∃ n, r.feed? x.text = some ⟨stack, room, .numeral n⟩ ∧ n.numeral.value = .ok x ∧
      ∀ c, IsDelimiter c → n.step c = .stop := by
  cases x with
  | int i => exact feed?_whole h hx
  | float negative magnitude =>
    obtain ⟨rfl, rfl⟩ := hx
    refine ⟨_, feed?_negativeZero h, Numeral.value_negativeZero, ?_⟩
    rintro c (rfl | rfl | rfl) <;> rfl

theorem follows_of_ends {cs : List Char} {v : Value} {container : Container} {rest : List Frame}
    (h : r.Ends cs (complete stack room v)) (hv : resume stack v = some (container, rest)) :
    ∃ r', r.feed? cs = some r' ∧ r'.Follows rest room container := by
  have hc : complete stack room v = .more ⟨rest, room, .next container⟩ := by
    rw [complete, hv]
  exact ⟨_, (hc ▸ h).feed?, follows_next rest room container⟩

theorem step_open (h : r.Starts stack room) (hr : 1 < room) :
    r.step '[' = .more ⟨stack, room - 1, .first (.list [])⟩ ∧
      r.step '\x7b' = .more ⟨stack, room - 1, .first (.object [])⟩ := by
  have hroom : ¬ room ≤ 1 := by omega
  constructor
  · rw [h '[' (by decide) (by decide)]
    simp [begin, openContainer, hroom, Text.isDigit]
  · rw [h '\x7b' (by decide) (by decide)]
    simp [begin, openContainer, hroom, Text.isDigit]

mutual

theorem feed?_text {r : Reader} {stack : List Frame} {room : ℕ} {container : Container}
    {rest : List Frame} (h : r.Starts stack room) (v : Value) (hv : v.Fits room)
    (hr : resume stack v.sorted = some (container, rest)) :
    ∃ r', r.feed? v.text = some r' ∧ r'.Follows rest room container :=
  match v with
  | .null => follows_of_ends (ends_null h) hr
  | .bool b => follows_of_ends (ends_bool h b) hr
  | .string s => follows_of_ends (ends_string h s) hr
  | .number x => by
    obtain ⟨n, hf, hn, hs⟩ := feed?_number h hv
    refine ⟨_, hf, ?_⟩
    intro c hc
    rw [Value.sorted] at hr
    simp only [step, hs c hc, behindNumeral, hn, hr]
  | .list items => follows_of_ends (ends_list h items hv) hr
  | .object members => follows_of_ends (ends_object h members hv) hr

theorem ends_list {r : Reader} {stack : List Frame} {room : ℕ} (h : r.Starts stack room)
    (items : List Value) (hv : Value.Fits room (.list items)) :
    r.Ends (Value.list items).text (complete stack room (Value.list items).sorted) := by
  obtain ⟨hroom, hi⟩ := hv
  have hback : room - 1 + 1 = room := by omega
  apply Ends.cons (step_open h hroom).1
  match items, hi with
  | [], _ =>
    have hs := congrArg (complete stack · (Value.list [])) hback
    exact Ends.single hs
  | v :: rest, ⟨hfirst, hmore⟩ =>
    obtain ⟨r', hf, hn⟩ := feed?_text (starts_first stack (room - 1) []) v hfirst rfl
    have he := ends_moreItems hn rest hmore
    rw [hback] at he
    exact Ends.append hf he

theorem ends_moreItems {r : Reader} {stack : List Frame} {room : ℕ} {done : List Value}
    (h : r.Follows stack room (.list done)) (items : List Value) (hv : itemsFit room items) :
    r.Ends (moreItemsText items)
      (complete stack (room + 1) (.list (done.reverse ++ Value.sortedItems items))) := by
  match items, hv with
  | [], _ =>
    have hs := h ']' (.inr (.inl rfl))
    rw [moreItemsText, Value.sortedItems, List.append_nil]
    exact Ends.single hs
  | v :: rest, ⟨hfirst, hmore⟩ =>
    have hs := h ',' (.inl rfl)
    obtain ⟨r', hf, hn⟩ := feed?_text (starts_comma stack room done) v hfirst rfl
    have he := ends_moreItems hn rest hmore
    rw [List.reverse_cons, List.append_assoc] at he
    exact Ends.cons hs (Ends.append hf he)

theorem ends_object {r : Reader} {stack : List Frame} {room : ℕ} (h : r.Starts stack room)
    (members : List (String × Value)) (hv : Value.Fits room (.object members)) :
    r.Ends (Value.object members).text (complete stack room (Value.object members).sorted) := by
  obtain ⟨hroom, hi⟩ := hv
  have hback : room - 1 + 1 = room := by omega
  apply Ends.cons (step_open h hroom).2
  match members, hi with
  | [], _ =>
    have hs := congrArg (complete stack · (Value.object [])) hback
    exact Ends.single hs
  | m :: rest, ⟨hfirst, hmore⟩ =>
    obtain ⟨r', hf, hn⟩ := feed?_member (r := ⟨stack, room - 1, .first (.object [])⟩) rfl m hfirst
    have he := ends_moreMembers hn rest hmore
    rw [hback] at he
    exact Ends.append hf he

theorem ends_moreMembers {r : Reader} {stack : List Frame} {room : ℕ}
    {done : List (String × Value)} (h : r.Follows stack room (.object done))
    (members : List (String × Value)) (hv : membersFit room members) :
    r.Ends (moreMembersText members)
      (complete stack (room + 1) (.object (Value.sortedMembers members done))) := by
  match members, hv with
  | [], _ =>
    have hs := h '\x7d' (.inr (.inr rfl))
    exact Ends.single hs
  | m :: rest, ⟨hfirst, hmore⟩ =>
    have hs := h ',' (.inl rfl)
    obtain ⟨r', hf, hn⟩ := feed?_member (r := ⟨stack, room, .comma (.object done)⟩) rfl m hfirst
    exact Ends.cons hs (Ends.append hf (ends_moreMembers hn rest hmore))

theorem feed?_member {r : Reader} {stack : List Frame} {room : ℕ} {done : List (String × Value)}
    (h : r.step '"' = .more ⟨stack, room, .name done .empty⟩) (m : String × Value)
    (hv : memberFits room m) :
    ∃ r', r.feed? (memberText m) = some r' ∧
      r'.Follows stack room (.object (insertEntry m.1 (Value.sortedMember m) done)) := by
  obtain ⟨name, v⟩ := m
  have hname := feed?_name stack room done (PartialString.feed?_escapes name.toList [])
  have hquote : step ⟨stack, room, .name done ⟨name.toList.reverse ++ [], .none⟩⟩ '"' =
      .more ⟨stack, room, .colon done name⟩ := by
    simp only [step, PartialString.step_quote, String.ofList_toList]
  have hcolon : step ⟨stack, room, .colon done name⟩ ':' =
      .more ⟨.object done name :: stack, room, .value⟩ := rfl
  obtain ⟨r', hf, hn⟩ := feed?_text (starts_value (.object done name :: stack) room) v hv rfl
  refine ⟨r', ?_, hn⟩
  rw [memberText, stringText, List.cons_append, List.cons_append, List.append_assoc, feed?_cons h,
    feed?_append]
  rw [show PartialString.empty = ⟨[], .none⟩ from rfl, hname, Option.bind_some]
  rw [List.singleton_append, feed?_cons hquote, feed?_cons hcolon, hf]

end

theorem run_of_feed? {r r' : Reader} {cs : List Char} (h : r.feed? cs = some r')
    (rest : List Char) : r.run (cs ++ rest) = r'.run rest := by
  induction cs generalizing r with
  | nil =>
    cases h
    rfl
  | cons c cs ih =>
    obtain ⟨q, hq, hrest⟩ := Option.bind_eq_some_iff.1 h
    rw [List.cons_append, run, next?_eq_some.1 hq]
    exact ih hrest

theorem run_of_ends {r : Reader} {cs : List Char} {v : Value} (h : r.Ends cs (.done v)) :
    r.run cs = .ok v := by
  obtain ⟨front, c, q, rfl, hf, hs⟩ := h
  rw [run_of_feed? hf, run, hs]
  rfl

end Reader

theorem parse_object {members : List (String × Value)}
    (h : Value.Fits depthLimit (.object members)) :
    Value.parse (Value.object members).print = .ok (Value.object members).sorted := by
  have hstart := Reader.starts_value [] depthLimit
  rw [Value.parse, Value.print, String.toList_ofList]
  exact Reader.run_of_ends (Reader.ends_object hstart members h)

end HostedTests.Json
