import HostedTests.Json.Printer
import HostedTests.Json.StringReader
import Mathlib.Data.List.Basic

namespace HostedTests.Json

theorem foldlM_inside {σ τ α : Type} {f : σ → α → Option σ} {g : τ → α → Option τ} (into : σ → τ)
    (h : ∀ s a s', f s a = some s' → g (into s) a = some (into s')) {xs : List α} {s s' : σ}
    (hs : xs.foldlM f s = some s') : xs.foldlM g (into s) = some (into s') := by
  induction xs generalizing s with
  | nil =>
    cases hs
    rfl
  | cons a xs ih =>
    obtain ⟨m, hm, hr⟩ := Option.bind_eq_some_iff.1 hs
    rw [List.foldlM_cons, h s a m hm]
    exact ih hr

namespace PartialString

def next? (p : PartialString) (c : Char) : Option PartialString :=
  match p.step c with
  | .more p => some p
  | _ => none

def feed? (p : PartialString) (cs : List Char) : Option PartialString := cs.foldlM next? p

theorem next?_eq_some {p q : PartialString} {c : Char} :
    p.next? c = some q ↔ p.step c = .more q := by
  unfold next?
  split <;> simp_all

theorem feed?_append (p : PartialString) (cs ds : List Char) :
    p.feed? (cs ++ ds) = (p.feed? cs).bind fun q => q.feed? ds := List.foldlM_append

theorem feed?_cons (p : PartialString) (c : Char) (cs : List Char) :
    p.feed? (c :: cs) = (p.next? c).bind fun q => q.feed? cs := rfl

theorem hexValue?_hexDigit : ∀ d < 16, hexValue? (hexDigit d) = some d := by decide

theorem utf8Size_hexDigit : ∀ d < 16, (hexDigit d).utf8Size = 1 := by decide

theorem next?_plain (done : List Char) {c : Char} (hq : c ≠ '"') (hb : c ≠ '\\')
    (hc : 0x20 ≤ c.toNat) : next? ⟨done, .none⟩ c = some ⟨c :: done, .none⟩ := by
  have hlt : ¬ c.toNat < 0x20 := by omega
  simp only [next?, step, stepWith, push, if_neg hq, if_neg hb, if_neg hlt]

theorem feed?_control (done : List Char) {c : Char} (hc : c.toNat < 0x20) :
    feed? ⟨done, .none⟩
        ['\\', 'u', '0', '0', hexDigit (c.toNat / 16), hexDigit (c.toNat % 16)] =
      some ⟨c :: done, .none⟩ := by
  have hh := hexValue?_hexDigit (c.toNat / 16) (by omega)
  have hl := hexValue?_hexDigit (c.toNat % 16) (by omega)
  have sh := utf8Size_hexDigit (c.toNat / 16) (by omega)
  have sl := utf8Size_hexDigit (c.toNat % 16) (by omega)
  have hz : hexValue? '0' = some 0 := by decide
  have sz : '0'.utf8Size = 1 := by decide
  have hw : hexWord? [hexDigit (c.toNat % 16), hexDigit (c.toNat / 16), '0', '0'] =
      some c.toNat := by
    simp only [hexWord?, hh, hl, hz, Option.bind_eq_bind, Option.bind_some, Option.pure_def,
      Option.some.injEq]
    omega
  have hs : isLowSurrogate c.toNat = false ∧ isHighSurrogate c.toNat = false := by
    simp only [isLowSurrogate, isHighSurrogate, Bool.and_eq_false_iff, decide_eq_false_iff_not]
    omega
  simp [feed?, next?, step, stepWith, hexStep, word, push, sz, sh, sl, hw, hs.1, hs.2,
    Char.ofNat_toNat]

theorem feed?_escaped (done : List Char) (c : Char) :
    feed? ⟨done, .none⟩ (escaped c) = some ⟨c :: done, .none⟩ := by
  unfold escaped
  split
  case h_8 _ hq hb _ _ _ _ _ =>
    by_cases hc : c.toNat < 0x20
    · rw [if_pos hc]
      exact feed?_control done hc
    · rw [if_neg hc, feed?_cons, next?_plain done hq hb (by omega)]
      rfl
  all_goals rfl

theorem feed?_escapes (cs done : List Char) :
    feed? ⟨done, .none⟩ (cs.flatMap escaped) = some ⟨cs.reverse ++ done, .none⟩ := by
  induction cs generalizing done with
  | nil => rfl
  | cons c cs ih =>
    rw [List.flatMap_cons, feed?_append, feed?_escaped, Option.bind_some, ih]
    simp

theorem step_quote (cs : List Char) :
    step ⟨cs.reverse ++ [], .none⟩ '"' = .done (String.ofList cs) := by
  simp [step, stepWith]

end PartialString

end HostedTests.Json
