import HostedTests.Proofs.Json.Reading
import HostedTests.Proofs.Message.Reading

namespace HostedTests.Message

open Json (Value)

def Place.IsSound : Place → Prop
  | .payload r => r.IsSound Reader.payloadRoom
  | _ => True

namespace Reader

structure IsSound (s : Reader) : Prop where
  payload : ∀ v ∈ s.payload, v.IsRead payloadRoom
  place : s.place.IsSound

def StepsSoundly (x : Except Fault Reader) : Prop := ∀ t, x = .ok t → t.IsSound

theorem stepsSoundly_error (f : Fault) : StepsSoundly (.error f) := by
  rintro t ⟨⟩

variable {s : Reader}

theorem IsSound.goTo (h : s.IsSound) {p : Place} (hp : p.IsSound) : StepsSoundly (s.goTo p) := by
  rintro t ⟨⟩
  exact ⟨h.payload, hp⟩

theorem IsSound.stay (h : s.IsSound) : StepsSoundly (.ok s) := by
  rintro t ⟨⟩
  exact h

theorem IsSound.misplace (h : s.IsSound) (expected : String) (c : Char) :
    StepsSoundly (s.misplace expected c) := by
  unfold Reader.misplace
  repeat' split
  · exact stepsSoundly_error _
  · exact stepsSoundly_error _
  · exact h.goTo trivial
  · exact stepsSoundly_error _
  · exact stepsSoundly_error _
  · exact stepsSoundly_error _

theorem IsSound.withKind (h : s.IsSound) (k : Kind) : StepsSoundly (s.withKind k) := by
  unfold Reader.withKind
  split
  all_goals
    rintro t ⟨⟩
    exact ⟨h.payload, trivial⟩

theorem withPayload_isSound {v : Value} (hv : v.IsRead payloadRoom) :
    (s.withPayload v).IsSound := by
  have hpayload : ∀ w ∈ some v, w.IsRead payloadRoom := by
    rintro w ⟨⟩
    exact hv
  unfold Reader.withPayload
  split
  · exact ⟨hpayload, trivial⟩
  · exact ⟨hpayload, trivial⟩

theorem IsSound.close (h : s.IsSound) : StepsSoundly s.close := by
  unfold Reader.close
  split
  · exact stepsSoundly_error _
  · exact h.goTo trivial

theorem IsSound.named (h : s.IsSound) (name : String) : StepsSoundly (s.named name) := by
  unfold Reader.named
  repeat' split
  · exact stepsSoundly_error _
  · exact h.goTo trivial
  · exact stepsSoundly_error _
  · exact h.goTo trivial
  · exact h.goTo trivial

theorem IsSound.afterColon (h : s.IsSound) (f : Field) : StepsSoundly (s.afterColon f) := by
  cases f with
  | kind => exact h.goTo trivial
  | payload => exact h.goTo (Json.Reader.start_isSound (by decide))
  | other => exact h.goTo trivial

theorem IsSound.nextStep (h : s.IsSound) (c : Char) : StepsSoundly (s.nextStep c) := by
  unfold Reader.nextStep
  repeat' split
  · exact h.goTo trivial
  · exact h.goTo trivial
  · exact h.close
  · exact stepsSoundly_error _

theorem IsSound.listEndStep (h : s.IsSound) (c : Char) : StepsSoundly (s.listEndStep c) := by
  unfold Reader.listEndStep
  repeat' split
  · exact h.goTo trivial
  · exact h.goTo trivial
  · exact h.goTo trivial
  · exact stepsSoundly_error _

theorem IsSound.behindValue (h : s.IsSound) (c : Char) : StepsSoundly (s.behindValue c) := by
  unfold Reader.behindValue
  split
  · exact h.nextStep c
  · exact h.listEndStep c

theorem IsSound.kindStep (h : s.IsSound) (c : Char) : StepsSoundly (s.kindStep c) := by
  unfold Reader.kindStep
  repeat' split
  · exact h.goTo trivial
  · exact h.goTo trivial
  · exact h.goTo trivial
  · exact stepsSoundly_error _

theorem IsSound.payloadStep (h : s.IsSound) {r : Json.Reader} (hr : r.IsSound payloadRoom)
    (c : Char) : StepsSoundly (s.payloadStep r c) := by
  have hstep := Json.Reader.step_isSound hr c
  unfold Reader.payloadStep
  split
  all_goals
    rename_i hc
    rw [hc] at hstep
  · exact h.goTo hstep
  · exact (withPayload_isSound hstep).stay
  · exact (withPayload_isSound hstep).behindValue c
  · exact stepsSoundly_error _

theorem IsSound.kindName (h : s.IsSound) (name : String) (boxed : Bool) :
    StepsSoundly (do
      let k ← kindOf name
      if boxed then s.goTo (.kindColon k) else s.withKind k) := by
  cases kindOf name with
  | error f => exact stepsSoundly_error _
  | ok k =>
    cases boxed with
    | true => exact h.goTo trivial
    | false => exact h.withKind k

theorem IsSound.step (h : s.IsSound) (c : Char) : StepsSoundly (s.step c) := by
  have hblank {p : Prop} [Decidable p] {x : Except Fault Reader} (hx : StepsSoundly x) :
      StepsSoundly (if p then .ok s else x) := by
    split
    · exact h.stay
    · exact hx
  have hplace := h.place
  unfold Reader.step
  cases hp : s.place with
  | start =>
    apply hblank
    repeat' split
    · rintro t ⟨⟩
      exact ⟨h.payload, trivial⟩
    · rintro t ⟨⟩
      exact ⟨h.payload, trivial⟩
    · exact h.misplace _ c
  | misplaced r expected =>
    dsimp only
    split
    · exact h.goTo trivial
    · exact stepsSoundly_error _
    · exact stepsSoundly_error _
    · exact stepsSoundly_error _
  | first =>
    apply hblank
    repeat' split
    · exact h.goTo trivial
    · exact h.close
    · exact stepsSoundly_error _
  | next => exact h.nextStep c
  | comma =>
    apply hblank
    repeat' split
    · exact h.goTo trivial
    · exact stepsSoundly_error _
    · exact stepsSoundly_error _
  | name p =>
    dsimp only
    split
    · exact h.goTo trivial
    · exact h.named _
    · exact stepsSoundly_error _
  | colon field =>
    apply hblank
    split
    · exact h.afterColon field
    · exact stepsSoundly_error _
  | kind => exact h.kindStep c
  | kindName p boxed =>
    dsimp only
    split
    · exact h.goTo trivial
    · exact h.kindName _ boxed
    · exact stepsSoundly_error _
  | kindBox =>
    apply hblank
    split
    · exact h.goTo trivial
    · exact h.misplace _ c
  | kindColon k =>
    apply hblank
    split
    · exact h.goTo trivial
    · exact stepsSoundly_error _
  | kindUnit k =>
    apply hblank
    split
    · exact h.goTo trivial
    · exact h.misplace _ c
  | kindContent k r =>
    dsimp only
    split
    · exact h.goTo trivial
    · exact h.goTo trivial
    · exact h.goTo trivial
    · exact stepsSoundly_error _
  | kindClose k =>
    apply hblank
    split
    · exact h.withKind k
    · exact stepsSoundly_error _
  | payload r =>
    rw [hp] at hplace
    exact h.payloadStep hplace c
  | skipped k =>
    dsimp only
    split
    · exact h.goTo trivial
    · exact h.goTo trivial
    · exact h.nextStep c
    · exact stepsSoundly_error _
  | listFirst =>
    apply hblank
    split
    · exact stepsSoundly_error _
    · exact h.kindStep c
  | listNext =>
    apply hblank
    repeat' split
    · exact h.goTo trivial
    · exact h.goTo trivial
    · exact stepsSoundly_error _
  | listComma =>
    apply hblank
    split
    · exact stepsSoundly_error _
    · exact h.payloadStep (Json.Reader.start_isSound (by decide)) c
  | listEnd => exact h.listEndStep c
  | listEndComma =>
    apply hblank
    split
    · exact stepsSoundly_error _
    · exact stepsSoundly_error _
  | behind => exact hblank (stepsSoundly_error _)

theorem of_atEnd_ok {m : Message} (h : s.atEnd = .ok m) : m.payload = s.payload.getD .null := by
  unfold atEnd at h
  repeat' split at h
  all_goals cases h
  rfl

theorem isRead_of_run {cs : List Char} {m : Message} (hs : s.IsSound) (h : s.run cs = .ok m) :
    m.payload.IsRead payloadRoom := by
  induction cs generalizing s with
  | nil =>
    rw [of_atEnd_ok h]
    cases hp : s.payload with
    | none => exact .null
    | some v => exact hs.payload v hp
  | cons c cs ih =>
    rw [run] at h
    split at h
    · rename_i t ht
      exact ih (hs.step c t ht) h
    · cases h

theorem start_isSound : start.IsSound := ⟨nofun, trivial⟩

end Reader

theorem payload_isRead {text : String} {m : Message} (h : parse text = .ok m) :
    m.payload.IsRead Reader.payloadRoom :=
  Reader.isRead_of_run Reader.start_isSound h

def IsWhole (m : Message) : Prop := ∀ x ∈ m.payload.numbers, x.IsWhole

theorem parse_text_of_parse {text : String} {m : Message} (h : parse text = .ok m)
    (hw : m.IsWhole) : parse m.text = .ok m := by
  have hread := payload_isRead h
  have hfits := hread.fits fun x hx => (hw x hx).fits
  rw [parse_text m hfits, hread.sorted]

theorem reencoded_same {text : String} {m : Message} (h : parse text = .ok m) (hw : m.IsWhole) :
    (∃ m', parse m.text = .ok m' ∧ m' = m ∧ m'.text = m.text) ∧
    ∀ text' m', parse text' = .ok m' → m'.IsWhole → (m'.text = m.text ↔ m' = m) := by
  have hm := parse_text_of_parse h hw
  refine ⟨⟨m, hm, rfl, rfl⟩, ?_⟩
  intro text' m' h' hw'
  constructor
  · intro htext
    have hm' := parse_text_of_parse h' hw'
    rw [htext, hm] at hm'
    exact (Except.ok.inj hm').symm
  · rintro rfl
    rfl

def loose : Message :=
  ⟨.sessionEnd,
    .object [("a", .list [.number (.int (-7)), .string "A"]), ("b", .number (.int 1))]⟩

/-- A list in place of an object, blanks, an escape, names out of order and a name given twice. -/
theorem reencoded_same_loose :
    parse "[ \"TestSession.Terminate\", \x7b\"b\": 0, \"a\":[-7,\"\\u0041\"],\"b\":1\x7d ]" =
        .ok loose ∧ loose.IsWhole ∧
      (∃ m', parse loose.text = .ok m' ∧ m' = loose ∧ m'.text = loose.text) ∧
      ∀ text' m', parse text' = .ok m' → m'.IsWhole → (m'.text = loose.text ↔ m' = loose) := by
  have hread : parse
      "[ \"TestSession.Terminate\", \x7b\"b\": 0, \"a\":[-7,\"\\u0041\"],\"b\":1\x7d ]" =
        .ok loose := by rfl
  have hwhole : loose.IsWhole := by
    intro x hx
    have hnumbers : loose.payload.numbers = [.int (-7), .int 1] := rfl
    rw [hnumbers, List.mem_cons, List.mem_singleton] at hx
    rcases hx with rfl | rfl
    · exact ⟨⟨true, [7], none, none⟩, rfl, rfl, ⟨by decide, by decide⟩, rfl⟩
    · exact ⟨⟨false, [1], none, none⟩, rfl, rfl, ⟨by decide, by decide⟩, rfl⟩
  exact ⟨hread, hwhole, reencoded_same hread hwhole⟩

end HostedTests.Message
