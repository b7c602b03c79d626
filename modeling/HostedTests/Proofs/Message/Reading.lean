import HostedTests.Message.Reader
import HostedTests.Proofs.Json.Values

namespace HostedTests.Message

open Json (Value PartialString)

namespace Reader

def next? (s : Reader) (c : Char) : Option Reader := (s.step c).toOption

def feed? (s : Reader) (cs : List Char) : Option Reader := cs.foldlM next? s

theorem next?_eq_some {s t : Reader} {c : Char} : s.next? c = some t ↔ s.step c = .ok t := by
  unfold next?
  cases s.step c <;> simp [Except.toOption]

theorem feed?_cons {s t : Reader} {c : Char} (h : s.step c = .ok t) (cs : List Char) :
    s.feed? (c :: cs) = t.feed? cs := by
  rw [feed?, List.foldlM_cons, next?_eq_some.2 h]
  rfl

theorem feed?_append {s t : Reader} {cs : List Char} (h : s.feed? cs = some t) (ds : List Char) :
    s.feed? (cs ++ ds) = t.feed? ds := by
  rw [feed?] at h
  rw [feed?, List.foldlM_append, h]
  rfl

theorem run_of_feed? {s t : Reader} {cs : List Char} (h : s.feed? cs = some t) :
    s.run cs = t.atEnd := by
  induction cs generalizing s with
  | nil =>
    cases h
    rfl
  | cons c cs ih =>
    obtain ⟨m, hm, ht⟩ := Option.bind_eq_some_iff.1 h
    rw [run, next?_eq_some.1 hm]
    exact ih ht

variable (form : Form) (kind : Option Kind) (payload : Option Value)

theorem feed?_name {p q : PartialString} {cs : List Char} (h : p.feed? cs = some q) :
    feed? ⟨form, kind, payload, .name p⟩ cs = some ⟨form, kind, payload, .name q⟩ := by
  refine Json.foldlM_inside (fun p => Reader.mk form kind payload (.name p)) ?_ h
  intro p c q hq
  rw [next?_eq_some]
  simp only [step, PartialString.next?_eq_some.1 hq, goTo]

theorem feed?_kindName (boxed : Bool) {p q : PartialString} {cs : List Char}
    (h : p.feed? cs = some q) :
    feed? ⟨form, kind, payload, .kindName p boxed⟩ cs =
      some ⟨form, kind, payload, .kindName q boxed⟩ := by
  refine Json.foldlM_inside (fun p => Reader.mk form kind payload (.kindName p boxed)) ?_ h
  intro p c q hq
  rw [next?_eq_some]
  simp only [step, PartialString.next?_eq_some.1 hq, goTo]

theorem feed?_payload {r r' : Json.Reader} {cs : List Char} (h : r.feed? cs = some r') :
    feed? ⟨form, kind, payload, .payload r⟩ cs = some ⟨form, kind, payload, .payload r'⟩ := by
  refine Json.foldlM_inside (fun r => Reader.mk form kind payload (.payload r)) ?_ h
  intro r c r' hr
  rw [next?_eq_some]
  simp only [step, payloadStep, Json.Reader.next?_eq_some.1 hr, goTo]

theorem step_doneName (cs : List Char) :
    step ⟨form, kind, payload, .name ⟨cs.reverse ++ [], .none⟩⟩ '"' =
      named ⟨form, kind, payload, .name ⟨cs.reverse ++ [], .none⟩⟩ (String.ofList cs) := by
  simp only [step, PartialString.step_quote]

theorem feed?_payloadText (k : Kind) {room : ℕ} (v : Value) (hv : v.Fits room) :
    feed? ⟨.object, some k, none, .payload (.start room)⟩ (v.text ++ ['\x7d']) =
      some ⟨.object, some k, some v.sorted, .behind⟩ := by
  have hs : (Json.Reader.start room).Starts [] room := Json.Reader.starts_value [] room
  have hends (h : (Json.Reader.start room).Ends v.text (.done v.sorted)) :
      feed? ⟨.object, some k, none, .payload (.start room)⟩ (v.text ++ ['\x7d']) =
        some ⟨.object, some k, some v.sorted, .behind⟩ := by
    obtain ⟨front, c, r, he, hf, hc⟩ := h
    have hdone : step ⟨.object, some k, none, .payload r⟩ c =
        .ok ⟨.object, some k, some v.sorted, .next⟩ := by
      simp only [step, payloadStep, hc, withPayload]
    rw [he, List.append_assoc, feed?_append (feed?_payload _ _ _ hf), List.singleton_append,
      feed?_cons hdone]
    rfl
  match v, hv with
  | .null, _ => exact hends (Json.Reader.ends_null hs)
  | .bool b, _ => exact hends (Json.Reader.ends_bool hs b)
  | .string s, _ => exact hends (Json.Reader.ends_string hs s)
  | .list items, hv => exact hends (Json.Reader.ends_list hs items hv)
  | .object members, hv => exact hends (Json.Reader.ends_object hs members hv)
  | .number x, hv =>
    obtain ⟨n, hf, hn, hstop⟩ := Json.Reader.feed?_number hs hv
    have hend := hstop '\x7d' (.inr (.inr rfl))
    have hlast : step ⟨.object, some k, none, .payload ⟨[], room, .numeral n⟩⟩ '\x7d' =
        .ok ⟨.object, some k, some (.number x), .behind⟩ := by
      simp only [step, payloadStep, Json.Reader.step, hend, Json.Reader.behindNumeral, hn,
        Json.Reader.resume]
      rfl
    rw [Value.text, feed?_append (feed?_payload _ _ _ hf), feed?_cons hlast]
    rfl

theorem kindOf_wire (k : Kind) : kindOf k.wire = .ok k := by
  cases k <;> rfl

theorem feed?_kindMember (k : Kind) :
    feed? ⟨.object, none, none, .first⟩ (Json.memberText (kindName, .string k.wire)) =
      some ⟨.object, some k, none, .next⟩ := by
  have hname := feed?_name .object none none (PartialString.feed?_escapes kindName.toList [])
  have hkind := feed?_kindName .object none none false
    (PartialString.feed?_escapes k.wire.toList [])
  have hq : step ⟨.object, none, none, .first⟩ '"' =
      .ok ⟨.object, none, none, .name ⟨[], .none⟩⟩ := rfl
  have hn := step_doneName .object none none kindName.toList
  have hc : step ⟨.object, none, none, .colon .kind⟩ ':' = .ok ⟨.object, none, none, .kind⟩ := rfl
  have hk : step ⟨.object, none, none, .kind⟩ '"' =
      .ok ⟨.object, none, none, .kindName ⟨[], .none⟩ false⟩ := rfl
  have hw : step ⟨.object, none, none, .kindName ⟨k.wire.toList.reverse ++ [], .none⟩ false⟩ '"' =
      .ok ⟨.object, some k, none, .next⟩ := by
    simp only [step, PartialString.step_quote, String.ofList_toList, kindOf_wire]
    rfl
  have hcolon : step ⟨.object, none, none, .name ⟨kindName.toList.reverse ++ [], .none⟩⟩ '"' =
      .ok ⟨.object, none, none, .colon .kind⟩ := hn.trans (by rw [String.ofList_toList]; rfl)
  rw [Json.memberText, Json.stringText, List.cons_append, List.cons_append, List.append_assoc,
    feed?_cons hq, feed?_append hname, List.singleton_append, feed?_cons hcolon, feed?_cons hc,
    Value.text, Json.stringText, List.cons_append, feed?_cons hk, feed?_append hkind, feed?_cons hw]
  rfl

theorem feed?_payloadName (k : Kind) :
    feed? ⟨.object, some k, none, .next⟩ (',' :: Json.stringText payloadName.toList ++ [':']) =
      some ⟨.object, some k, none, .payload (.start payloadRoom)⟩ := by
  have hname := feed?_name .object (some k) none
    (PartialString.feed?_escapes payloadName.toList [])
  have hcomma : step ⟨.object, some k, none, .next⟩ ',' = .ok ⟨.object, some k, none, .comma⟩ := rfl
  have hq : step ⟨.object, some k, none, .comma⟩ '"' =
      .ok ⟨.object, some k, none, .name ⟨[], .none⟩⟩ := rfl
  have hn := step_doneName .object (some k) none payloadName.toList
  have hcolon :
      step ⟨.object, some k, none, .name ⟨payloadName.toList.reverse ++ [], .none⟩⟩ '"' =
        .ok ⟨.object, some k, none, .colon .payload⟩ := hn.trans (by rw [String.ofList_toList]; rfl)
  have hc : step ⟨.object, some k, none, .colon .payload⟩ ':' =
      .ok ⟨.object, some k, none, .payload (.start payloadRoom)⟩ := rfl
  rw [Json.stringText, List.cons_append, List.cons_append, List.cons_append, List.append_assoc,
    feed?_cons hcomma, feed?_cons hq, feed?_append hname, List.singleton_append,
    feed?_cons hcolon, feed?_cons hc]
  rfl

end Reader

theorem toValue_text (m : Message) :
    m.toValue.text = '\x7b' :: (Json.memberText (kindName, .string m.kind.wire) ++
      ((',' :: Json.stringText payloadName.toList ++ [':']) ++ (m.payload.text ++ ['\x7d']))) := by
  simp [toValue, Value.text, Json.membersText, Json.moreMembersText, Json.memberText]

theorem parse_text (m : Message) (h : m.payload.Fits Reader.payloadRoom) :
    parse m.text = .ok ⟨m.kind, m.payload.sorted⟩ := by
  have hstart : Reader.step .start '\x7b' = .ok ⟨.object, none, none, .first⟩ := rfl
  have hfeed : Reader.start.feed? m.toValue.text =
      some ⟨.object, some m.kind, some m.payload.sorted, .behind⟩ := by
    rw [toValue_text, Reader.feed?_cons hstart,
      Reader.feed?_append (Reader.feed?_kindMember m.kind),
      Reader.feed?_append (Reader.feed?_payloadName m.kind)]
    exact Reader.feed?_payloadText m.kind m.payload h
  rw [parse, text, Value.print, String.toList_ofList, Reader.run_of_feed? hfeed]
  rfl

end HostedTests.Message
