import HostedTests.Payload.Completion
import HostedTests.Payload.Criteria
import HostedTests.Proofs.Clock.Leniency
import HostedTests.Proofs.Message.Normal
import HostedTests.Proofs.Payload.Bound

namespace HostedTests.Message

open Json (Value)
open Payload (Shape Fields Leaf)

mutual

theorem normalize_normalize (v : Value) : normalize (normalize v) = normalize v := by
  match v with
  | .null | .bool _ | .number _ | .string _ => simp only [normalize]
  | .list items => rw [normalize, normalize, normalizeItems_normalizeItems items]
  | .object members => rw [normalize, normalize, normalizeMembers_normalizeMembers members]

theorem normalizeItems_normalizeItems (items : List Value) :
    normalizeItems (normalizeItems items) = normalizeItems items := by
  match items with
  | [] => rfl
  | v :: rest =>
    rw [normalizeItems, normalizeItems, normalize_normalize v, normalizeItems_normalizeItems rest]

theorem normalizeMembers_normalizeMembers (members : List (String × Value)) :
    normalizeMembers (normalizeMembers members) = normalizeMembers members := by
  match members with
  | [] => rfl
  | m :: rest =>
    rw [normalizeMembers, normalizeMembers, normalizeMember_normalizeMember m,
      normalizeMembers_normalizeMembers rest]

theorem normalizeMember_normalizeMember (m : String × Value) :
    normalizeMember (normalizeMember m) = normalizeMember m := by
  match m with
  | (name, .string s) =>
    rw [normalizeMember]
    split
    · rename_i hname
      rw [normalizeMember, if_pos hname, Clock.Timestamp.toUtc_toUtc]
    · rename_i hname
      rw [normalizeMember, if_neg hname]
  | (name, .list items) =>
    have hitems := normalizeItems_normalizeItems items
    simp only [normalizeMember, normalize, hitems]
  | (name, .object members) =>
    have hmembers := normalizeMembers_normalizeMembers members
    simp only [normalizeMember, normalize, hmembers]
  | (name, .null) | (name, .bool _) | (name, .number _) => simp only [normalizeMember, normalize]

end

def IsText (v : Value) : Prop := ∃ text, v = .string text

mutual

/-- The second value is the first with the texts right under the names of timestamps put into
universal time, and with nothing else changed. -/
inductive Retimed : Value → Value → Prop where
  | null : Retimed .null .null
  | bool (b : Bool) : Retimed (.bool b) (.bool b)
  | number (x : Json.Number) : Retimed (.number x) (.number x)
  | string (text : String) : Retimed (.string text) (.string text)
  | list {items items' : List Value} (h : RetimedItems items items') :
      Retimed (.list items) (.list items')
  | object {members members' : List (String × Value)} (h : RetimedMembers members members') :
      Retimed (.object members) (.object members')

inductive RetimedItems : List Value → List Value → Prop where
  | nil : RetimedItems [] []
  | cons {v v' : Value} {rest rest' : List Value} (h : Retimed v v')
      (more : RetimedItems rest rest') : RetimedItems (v :: rest) (v' :: rest')

inductive RetimedMembers : List (String × Value) → List (String × Value) → Prop where
  | nil : RetimedMembers [] []
  | moved {name : String} (text : String) {rest rest' : List (String × Value)}
      (h : name ∈ timestampNames) (more : RetimedMembers rest rest') :
      RetimedMembers ((name, .string text) :: rest)
        ((name, .string (Clock.Timestamp.toUtc text)) :: rest')
  | kept {name : String} {v v' : Value} {rest rest' : List (String × Value)}
      (hkept : ¬ (name ∈ timestampNames ∧ IsText v)) (h : Retimed v v')
      (more : RetimedMembers rest rest') :
      RetimedMembers ((name, v) :: rest) ((name, v') :: rest')

end

theorem normalizeMember_kept {name : String} {v : Value}
    (h : ¬ (name ∈ timestampNames ∧ IsText v)) :
    normalizeMember (name, v) = (name, normalize v) := by
  by_cases hname : name ∈ timestampNames
  · exact normalizeMember_of_not_string fun text ht => h ⟨hname, text, ht⟩
  · exact normalizeMember_of_not_timestamp v hname

theorem normalizeMember_moved {name : String} (h : name ∈ timestampNames) (text : String) :
    normalizeMember (name, .string text) = (name, .string (Clock.Timestamp.toUtc text)) := by
  rw [normalizeMember, if_pos h]

mutual

theorem retimed_normalize (v : Value) : Retimed v (normalize v) := by
  match v with
  | .null => exact .null
  | .bool b => exact .bool b
  | .number x => exact .number x
  | .string text => exact .string text
  | .list items =>
    rw [normalize]
    exact .list (retimed_normalizeItems items)
  | .object members =>
    rw [normalize]
    exact .object (retimed_normalizeMembers members)

theorem retimed_normalizeItems (items : List Value) :
    RetimedItems items (normalizeItems items) := by
  match items with
  | [] => exact .nil
  | v :: rest => exact .cons (retimed_normalize v) (retimed_normalizeItems rest)

theorem retimed_normalizeMembers (members : List (String × Value)) :
    RetimedMembers members (normalizeMembers members) := by
  match members with
  | [] => exact .nil
  | (name, v) :: rest =>
    have hrest := retimed_normalizeMembers rest
    have hv := retimed_normalize v
    rw [normalizeMembers]
    by_cases hmoved : name ∈ timestampNames ∧ IsText v
    · obtain ⟨hname, text, rfl⟩ := hmoved
      rw [normalizeMember_moved hname]
      exact .moved text hname hrest
    · rw [normalizeMember_kept hmoved]
      exact .kept hmoved hv hrest

end

mutual

theorem eq_normalize_of_retimed {v w : Value} (h : Retimed v w) : w = normalize v := by
  match v, h with
  | .null, .null | .bool _, .bool _ | .number _, .number _ | .string _, .string _ =>
    simp only [normalize]
  | .list items, .list h => rw [normalize, eq_normalizeItems_of_retimed h]
  | .object members, .object h => rw [normalize, eq_normalizeMembers_of_retimed h]

theorem eq_normalizeItems_of_retimed {items items' : List Value} (h : RetimedItems items items') :
    items' = normalizeItems items := by
  match items, h with
  | [], .nil => rfl
  | v :: rest, .cons hv more =>
    rw [normalizeItems, eq_normalize_of_retimed hv, eq_normalizeItems_of_retimed more]

theorem eq_normalizeMembers_of_retimed {members members' : List (String × Value)}
    (h : RetimedMembers members members') : members' = normalizeMembers members := by
  match members, h with
  | [], .nil => rfl
  | (name, .string text) :: rest, .moved _ hname more =>
    rw [normalizeMembers, normalizeMember_moved hname, eq_normalizeMembers_of_retimed more]
  | (name, v) :: rest, .kept hkept hv more =>
    rw [normalizeMembers, normalizeMember_kept hkept, eq_normalize_of_retimed hv,
      eq_normalizeMembers_of_retimed more]

end

theorem retimed_iff {v w : Value} : Retimed v w ↔ w = normalize v := by
  constructor
  · exact eq_normalize_of_retimed
  · rintro rfl
    exact retimed_normalize v

def MayStand (name : String) (s : Shape) : Prop :=
  isText s = false ∨ isInstant s ∨ name ∉ timestampNames

theorem mayStand_of {name : String} {s : Shape}
    (h : (!isText s || isInstant s || !timestampNames.contains name) = true) : MayStand name s := by
  simp only [Bool.or_eq_true, Bool.not_eq_true', List.contains_eq_mem,
    decide_eq_false_iff_not] at h
  exact or_assoc.mp h

theorem bind_text_ne_ok {s : Shape} (h : isText s = false) (text : String) (x : s.Carrier) :
    s.bind (.string text) ≠ .ok x := by
  match s, h, x with
  | .leaf l, h, x =>
    cases l <;> first | exact absurd h (by decide) | nofun
  | .optional s, h, x =>
    intro hx
    obtain ⟨y, hy, -⟩ := Payload.of_map_ok hx
    exact bind_text_ne_ok (s := s) h text y hy
  | .list _, _, _ | .dictionary _, _, _ | .record _ _, _, _ => nofun

theorem bind_toUtc {s : Shape} (h : isInstant s) (text : String) :
    s.bind (.string (Clock.Timestamp.toUtc text)) = s.bind (.string text) := by
  match s, h with
  | .leaf .instant, _ =>
    change (Clock.Timestamp.lenient _).mapError Payload.Fault.timestamp =
      (Clock.Timestamp.lenient _).mapError Payload.Fault.timestamp
    rw [Clock.Timestamp.lenient_toUtc]

theorem agree_bind_member {s : Shape} {name : String} (hstand : MayStand name s)
    (hs : ∀ v, Agree (s.bind (normalize v)) (s.bind v)) (v : Value) :
    Agree (s.bind (normalizeMember (name, v)).2) (s.bind v) := by
  by_cases htext : IsText v
  · obtain ⟨text, rfl⟩ := htext
    rcases hstand with hstand | hstand | hstand
    · rw [normalizeMember]
      exact .of_not_ok (bind_text_ne_ok hstand _) (bind_text_ne_ok hstand _)
    · rw [normalizeMember]
      split
      · rw [bind_toUtc hstand]
        exact .refl _
      · exact .refl _
    · rw [normalizeMember_of_not_timestamp _ hstand]
      exact hs _
  · rw [normalizeMember_of_not_string fun text ht => htext ⟨text, ht⟩]
    exact hs v

theorem agree_of_parts {α : Type} (f : Value → Except Payload.Fault α)
    (hlist : ∀ items : List Value, Agree (f (.list (items.map normalize))) (f (.list items)))
    (hobject : ∀ members : List (String × Value),
      Agree (f (.object (members.map normalizeMember))) (f (.object members))) (v : Value) :
    Agree (f (normalize v)) (f v) := by
  match v with
  | .list items =>
    rw [normalize, normalizeItems_eq]
    exact hlist items
  | .object members =>
    rw [normalize, normalizeMembers_eq]
    exact hobject members
  | .null | .bool _ | .number _ | .string _ => exact .refl _

theorem agree_bind_plain {α : Type} (f : Value → Except Payload.Fault α) {expected : String}
    (hlist : ∀ items, f (.list items) = Payload.mismatch (.list items) expected)
    (hobject : ∀ members, f (.object members) = Payload.mismatch (.object members) expected)
    (v : Value) : Agree (f (normalize v)) (f v) := by
  apply agree_of_parts
  · intro items
    rw [hlist, hlist]
    exact .of_not_ok nofun nofun
  · intro members
    rw [hobject, hobject]
    exact .of_not_ok nofun nofun

theorem agree_bindName {α : Type} (names : List α) (name : α → String) (v : Value) :
    Agree (Payload.bindName names name (normalize v)) (Payload.bindName names name v) := by
  apply agree_of_parts
  · exact fun _ => .of_not_ok nofun nofun
  · intro members
    match members with
    | [(found, content)] =>
      rw [List.map_cons, List.map_nil]
      cases content with
      | null =>
        simp only [normalizeMember, normalize]
        exact .refl _
      | _ =>
        simp only [normalizeMember, normalize]
        exact Agree.bind (.refl (Payload.choose names name found)) fun a => .of_not_ok nofun nofun
    | [] => exact .of_not_ok nofun nofun
    | _ :: _ :: _ => exact .of_not_ok nofun nofun

theorem agree_bindInt64 (v : Value) :
    Agree (Payload.bindInt64 (normalize v)) (Payload.bindInt64 v) :=
  agree_bind_plain _ (fun _ => rfl) (fun _ => rfl) v

theorem agree_tallyMember (t : Tally) (m : String × Value) :
    Agree (Payload.tallyMember t (normalizeMember m)) (Payload.tallyMember t m) := by
  have hcount : Agree (Payload.bindInt64 (normalizeMember m).2) (Payload.bindInt64 m.2) :=
    agree_bind_member (s := .int64) (.inl rfl) agree_bindInt64 m.2
  rw [Payload.tallyMember, Payload.tallyMember, normalizeMember_fst]
  exact .bind (.refl _) fun o => hcount.bind fun n => .refl _

theorem agree_bindTally (v : Value) :
    Agree (Payload.bindTally (normalize v)) (Payload.bindTally v) := by
  apply agree_of_parts
  · exact fun _ => .of_not_ok nofun nofun
  · exact Agree.foldlM_map agree_tallyMember .empty

theorem agree_bind_leaf {l : Leaf} (h : l ≠ .value) (v : Value) :
    Agree (l.bind (normalize v)) (l.bind v) := by
  cases l with
  | value => exact absurd rfl h
  | severity => exact agree_bindName _ _ v
  | outcome => exact agree_bindName _ _ v
  | tally => exact agree_bindTally v
  | int32 => exact agree_bind_plain Payload.bindInt32 (fun _ => rfl) (fun _ => rfl) v
  | int64 => exact agree_bindInt64 v
  | uuid => exact agree_bind_plain Payload.bindUuid (fun _ => rfl) (fun _ => rfl) v
  | instant => exact agree_bind_plain Payload.bindInstant (fun _ => rfl) (fun _ => rfl) v
  | timeSpan => exact agree_bind_plain Payload.bindTimeSpan (fun _ => rfl) (fun _ => rfl) v
  | text => exact agree_bind_plain (Payload.bindString "a string") (fun _ => rfl) (fun _ => rfl) v
  | flag => exact agree_bind_plain Payload.bindFlag (fun _ => rfl) (fun _ => rfl) v

mutual

theorem agree_bind (s : Shape) (h : isTimed s) (v : Value) :
    Agree (s.bind (normalize v)) (s.bind v) := by
  match s, h with
  | .leaf l, h => exact agree_bind_leaf (of_decide_eq_true h) v
  | .list s, h =>
    apply agree_of_parts _ _ (fun _ => .of_not_ok nofun nofun) v
    exact Agree.mapM_map (agree_bind s h)
  | .optional s, h =>
    apply agree_of_parts
    · intro items
      have hs := (agree_bind s h (.list items)).map some
      rwa [normalize, normalizeItems_eq] at hs
    · intro members
      have hs := (agree_bind s h (.object members)).map some
      rwa [normalize, normalizeMembers_eq] at hs
  | .dictionary s, h =>
    obtain ⟨hs, ht⟩ := Bool.and_eq_true_iff.mp h
    have hstand (name : String) : MayStand name s := .inl (by simpa using ht)
    apply agree_of_parts _ (fun _ => .of_not_ok nofun nofun)
    refine Agree.foldlM_map ?_ Dictionary.empty
    intro d m
    rw [normalizeMember_fst]
    exact (agree_bind_member (hstand m.1) (agree_bind s hs) m.2).map _
  | .record name fields, h =>
    apply agree_of_parts
    · intro items
      refine agree_bindItems fields h name fields.length 0 items fun xs left => ?_
      simp only [List.isEmpty_map]
      cases left.isEmpty with
      | true => exact .refl _
      | false => exact .of_not_ok nofun nofun
    · intro members
      refine Agree.bind (Agree.foldlM_map ?_ fields.noneGiven members) fun given => .refl _
      intro given m
      rw [normalizeMember_fst]
      exact agree_give fields h given m.1 m.2

theorem agree_give (fields : Fields) (h : areTimed fields) (given : fields.Given)
    (found : String) (v : Value) :
    Agree (fields.give given found (normalizeMember (found, v)).2)
      (fields.give given found v) := by
  match fields, h, given with
  | .nil, _, _ => exact .refl _
  | .cons name _ s rest, h, (given, more) =>
    simp only [areTimed, Bool.and_eq_true] at h
    obtain ⟨⟨hs, ht⟩, hrest⟩ := h
    rw [Fields.give, Fields.give]
    split
    · rename_i hname
      subst hname
      exact (agree_bind_member (mayStand_of ht) (agree_bind s hs) v).map _
    · exact (agree_give rest hrest more found v).map _

theorem agree_bindItems (fields : Fields) (h : areTimed fields) (record : String)
    (total index : ℕ) (items : List Value) {α : Type}
    {k k' : fields.Carrier × List Value → Except Payload.Fault α}
    (hk : ∀ xs left, Agree (k (xs, left.map normalize)) (k' (xs, left))) :
    Agree (fields.bindItems record total index (items.map normalize) >>= k)
      (fields.bindItems record total index items >>= k') := by
  match fields, h, items with
  | .nil, _, items => exact hk () items
  | .cons name required s rest, h, item :: items =>
    simp only [areTimed, Bool.and_eq_true] at h
    rw [Fields.bindItems, List.map_cons, Fields.bindItems, bind_assoc, bind_assoc]
    refine Agree.bind (agree_bind s h.1.1 item) fun x => ?_
    rw [bind_assoc, bind_assoc]
    exact agree_bindItems rest h.2 record total (index + 1) items fun xs left => hk (x, xs) left
  | .cons name required s rest, h, [] =>
    simp only [areTimed, Bool.and_eq_true] at h
    rw [List.map_nil, Fields.bindItems]
    split
    · rename_i x hx
      rw [bind_of_map, bind_of_map]
      exact agree_bindItems rest h.2 record total (index + 1) [] fun xs left => hk (x, xs) left
    · exact .of_not_ok nofun nofun

end

def BindsAlike (α : Type) [Payload α] : Prop :=
  ∀ (v : Value) (a : α), Payload.ofValue (normalize v) = .ok a ↔ Payload.ofValue v = .ok a

theorem bindsAlike_of_timed {α : Type} [Payload α] (h : isTimed (Payload.shape α)) :
    BindsAlike α :=
  fun v => ((agree_bind _ h v).map Payload.unpack).ok_iff

/-- To make a value normal puts the texts under the names of timestamps into universal time and
changes nothing else, and a second time it changes nothing. Such a text is read as the instant that
it was, so what is bound does not tell whether the value was normal, for any type of payload without
a dictionary of texts. -/
theorem normalize_unseen :
    (∀ v, normalize (normalize v) = normalize v) ∧ (∀ v w, Retimed v w ↔ w = normalize v) ∧
    (∀ text i, Clock.Timestamp.strict text.toList = .ok i →
      Clock.Timestamp.lenient text.toList = .ok i ∧ Clock.Timestamp.toUtc text = i.format) ∧
    (∀ text, Clock.Timestamp.lenient (Clock.Timestamp.toUtc text).toList =
      Clock.Timestamp.lenient text.toList) ∧
    (∀ s v, isTimed s → ∀ x, s.bind (normalize v) = .ok x ↔ s.bind v = .ok x) ∧
    BindsAlike Remark ∧ BindsAlike TestCase ∧ BindsAlike TestResult ∧ BindsAlike RunStatistics ∧
    BindsAlike RunChange ∧ BindsAlike Attachment ∧ BindsAlike AttachmentSet ∧ BindsAlike RunEnd ∧
    BindsAlike DiscoveryCriteria ∧ BindsAlike ExecutionContext ∧ BindsAlike SourcesCriteria ∧
    BindsAlike TestsCriteria ∧ BindsAlike DiscoveryCompletion ∧ BindsAlike RunCompletion := by
  refine ⟨normalize_normalize, fun v w => retimed_iff, ?_, Clock.Timestamp.lenient_toUtc, ?_, ?_⟩
  · intro text i h
    exact ⟨Clock.Timestamp.lenient_of_strict h, Clock.Timestamp.toUtc_strict h⟩
  · exact fun s v h => (agree_bind s h v).ok_iff
  · refine ⟨?_, ?_, ?_, ?_, ?_, ?_, ?_, ?_, ?_, ?_, ?_, ?_, ?_, ?_⟩
    all_goals exact bindsAlike_of_timed (by decide)

end HostedTests.Message
