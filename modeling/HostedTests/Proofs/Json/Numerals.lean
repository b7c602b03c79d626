import HostedTests.Json.Reader
import HostedTests.Json.Printer
import HostedTests.Proofs.Text.Digits
import Mathlib.Data.Int.Basic

namespace HostedTests.Json

def IsDelimiter (c : Char) : Prop := c = ',' ∨ c = ']' ∨ c = '\x7d'

def InRange (i : ℤ) : Prop := -0x8000000000000000 ≤ i ∧ i < 0x10000000000000000

def Number.Fits : Number → Prop
  | .int i => InRange i
  | .float negative magnitude => negative = true ∧ magnitude = Number.Binary64.zero

namespace Numeral

theorem foldl_digits_mono (ds : List ℕ) {m n : ℕ} (h : m ≤ n) :
    m ≤ ds.foldl (fun n d => n * 10 + d) n := by
  induction ds generalizing n with
  | nil => exact h
  | cons d ds ih => exact ih (show m ≤ n * 10 + d by omega)

theorem appendDigits_eq (ds : List ℕ) (n : ℕ)
    (h : ds.foldl (fun n d => n * 10 + d) n < significandBound) :
    appendDigits n ds = (ds.foldl (fun n d => n * 10 + d) n, ds.length) := by
  induction ds generalizing n with
  | nil => rfl
  | cons d ds ih =>
    rw [List.foldl_cons] at h
    have hd : n * 10 + d < significandBound := lt_of_le_of_lt (foldl_digits_mono ds le_rfl) h
    simp only [appendDigits, if_pos hd, ih (n * 10 + d) h, List.foldl_cons, List.length_cons]

theorem valueOf_decimal (n : ℕ) : valueOf ((Text.decimal n).map Text.digitValue) = n := by
  have h := Text.ofDigits_decimal n
  rw [Text.ofDigits] at h
  rw [valueOf, List.foldl_map]
  simpa only [Nat.mul_comm] using h

theorem binary64_ofDecimal_zero {e : ℤ} (h : e = 0 ∨ e = -1) :
    Number.Binary64.ofDecimal 0 e = some Number.Binary64.zero := by
  rcases h with rfl | rfl <;> decide +kernel

def integer (n : Numeral) : ℤ :=
  if n.negative then -(valueOf n.whole.reverse : ℤ) else valueOf n.whole.reverse

theorem appendDigits_valueOf {digits : List ℕ} (h : valueOf digits < significandBound) :
    appendDigits 0 digits = (valueOf digits, digits.length) := appendDigits_eq digits 0 h

theorem value_integer {n : Numeral} (hf : n.fraction = none) (he : n.exponent = none)
    (h : InRange n.integer) :
    n.value = if n.negative ∧ n.integer = 0 then .ok (.float true Number.Binary64.zero)
      else .ok (.int n.integer) := by
  obtain ⟨negative, whole, fraction, exponent⟩ := n
  subst hf he
  obtain ⟨hlow, hhigh⟩ := h
  cases negative with
  | false =>
    have hbound : valueOf whole.reverse < significandBound := by
      simp only [integer, Bool.false_eq_true, if_false] at hhigh
      rw [significandBound]
      omega
    simp [value, integer, appendDigits_valueOf hbound]
  | true =>
    simp only [integer, if_true] at hlow
    have hleast : valueOf whole.reverse ≤ 0x8000000000000000 := by omega
    have hbound : valueOf whole.reverse < significandBound := lt_of_le_of_lt hleast (by decide)
    by_cases hzero : valueOf whole.reverse = 0
    · simp [value, integer, appendDigits_valueOf hbound, hzero, floatOf,
        binary64_ofDecimal_zero (.inl rfl)]
    · have hrange : ¬ 0x8000000000000000 < valueOf whole.reverse := by omega
      simp [value, integer, appendDigits_valueOf hbound, hzero, hrange]

def ofDecimal (negative : Bool) (n : ℕ) : Numeral :=
  ⟨negative, ((Text.decimal n).map Text.digitValue).reverse, none, none⟩

theorem integer_ofDecimal (negative : Bool) (n : ℕ) :
    (ofDecimal negative n).integer = if negative then -(n : ℤ) else n := by
  simp only [integer, ofDecimal, List.reverse_reverse, valueOf_decimal]

theorem value_ofDecimal {n : ℕ} (h : n < significandBound) :
    (ofDecimal false n).value = .ok (.int n) := by
  have hinteger : (ofDecimal false n).integer = n := integer_ofDecimal false n
  have hrange : InRange (ofDecimal false n).integer := by
    rw [hinteger, InRange]
    rw [significandBound] at h
    omega
  rw [value_integer rfl rfl hrange, if_neg fun hneg => Bool.false_ne_true hneg.1, hinteger]

theorem value_ofDecimal_negative {n : ℕ} (hz : n ≠ 0) (h : n ≤ 0x8000000000000000) :
    (ofDecimal true n).value = .ok (.int (-n)) := by
  have hinteger : (ofDecimal true n).integer = -(n : ℤ) := integer_ofDecimal true n
  have hrange : InRange (ofDecimal true n).integer := by
    rw [hinteger, InRange]
    omega
  rw [value_integer rfl rfl hrange, hinteger, if_neg fun hneg => hz (by omega)]

def negativeZero : Numeral := ⟨true, [0], some [0], none⟩

theorem value_negativeZero : negativeZero.value = .ok (.float true Number.Binary64.zero) := by
  change floatOf true 0 (-1) = _
  rw [floatOf, binary64_ofDecimal_zero (.inr rfl)]

end Numeral

/-- What an integer literal in the range of 64 bits is read as. -/
def Number.IsWhole (x : Number) : Prop :=
  ∃ n : Numeral, n.fraction = none ∧ n.exponent = none ∧ InRange n.integer ∧ n.value = .ok x

theorem Number.IsWhole.fits {x : Number} (h : x.IsWhole) : x.Fits := by
  obtain ⟨n, hf, he, hrange, hvalue⟩ := h
  rw [Numeral.value_integer hf he hrange] at hvalue
  split at hvalue
  · cases hvalue
    exact ⟨rfl, rfl⟩
  · cases hvalue
    exact hrange

namespace PartialNumeral

def next? (n : PartialNumeral) (c : Char) : Option PartialNumeral :=
  match n.step c with
  | .more n => some n
  | _ => none

def feed? (n : PartialNumeral) (cs : List Char) : Option PartialNumeral := cs.foldlM next? n

theorem next?_eq_some {n m : PartialNumeral} {c : Char} :
    n.next? c = some m ↔ n.step c = .more m := by
  unfold next?
  split <;> simp_all

theorem feed?_cons (n : PartialNumeral) (c : Char) (cs : List Char) :
    n.feed? (c :: cs) = (n.next? c).bind fun m => m.feed? cs := rfl

theorem feed?_digits (negative : Bool) (ds : List ℕ) {cs : List Char}
    (h : ∀ c ∈ cs, Text.isDigit c) :
    feed? ⟨⟨negative, ds, none, none⟩, .whole⟩ cs =
      some ⟨⟨negative, (cs.map Text.digitValue).reverse ++ ds, none, none⟩, .whole⟩ := by
  induction cs generalizing ds with
  | nil => rfl
  | cons c cs ih =>
    have hc := h c List.mem_cons_self
    have hn : next? ⟨⟨negative, ds, none, none⟩, .whole⟩ c =
        some ⟨⟨negative, Text.digitValue c :: ds, none, none⟩, .whole⟩ := by
      simp [next?, step, hc, addWhole]
    rw [feed?_cons, hn, Option.bind_some, ih _ fun d hd => h d (List.mem_cons_of_mem _ hd)]
    simp

theorem not_isDigit_of_isDelimiter {c : Char} (h : IsDelimiter c) : Text.isDigit c = false := by
  rcases h with rfl | rfl | rfl <;> decide

theorem step_delimiter (negative : Bool) (n : ℕ) {place : NumeralPlace}
    (hp : place = .zero ∨ place = .whole) {c : Char} (h : IsDelimiter c) :
    step ⟨Numeral.ofDecimal negative n, place⟩ c = .stop := by
  have hd := not_isDigit_of_isDelimiter h
  have he : c ≠ '.' ∧ c ≠ 'e' ∧ c ≠ 'E' := by
    rcases h with rfl | rfl | rfl <;> decide
  rcases hp with rfl | rfl <;> simp [step, hd, he]

def begun (negative : Bool) (d : ℕ) : PartialNumeral :=
  ⟨⟨negative, [d], none, none⟩, if d = 0 then .zero else .whole⟩

theorem step_first (c : Char) (h : Text.isDigit c) :
    minus.step c = .more (begun true (Text.digitValue c)) := by
  by_cases hz : Text.digitValue c = 0
  · simp [minus, step, begun, addWhole, h, hz]
  · simp [minus, step, begun, addWhole, h, hz]

theorem feed?_decimal (negative : Bool) (n : ℕ) :
    ∃ c cs place, Text.decimal n = c :: cs ∧ Text.isDigit c ∧
      feed? (begun negative (Text.digitValue c)) cs = some ⟨Numeral.ofDecimal negative n, place⟩ ∧
      (place = .zero ∨ place = .whole) := by
  obtain ⟨c, cs, he, hc, hz⟩ := Text.decimal_head n
  by_cases hv : Text.digitValue c = 0
  · obtain ⟨-, rfl⟩ := hz hv
    refine ⟨c, [], .zero, he, hc, ?_, .inl rfl⟩
    simp [begun, hv, Numeral.ofDecimal, he, feed?]
  · have hd : ∀ d ∈ cs, Text.isDigit d := fun d hd =>
      Text.isDigit_of_mem_decimal d (he ▸ List.mem_cons_of_mem _ hd)
    refine ⟨c, cs, .whole, he, hc, ?_, .inr rfl⟩
    rw [begun, if_neg hv, feed?_digits negative _ hd]
    simp [Numeral.ofDecimal, he]

end PartialNumeral

end HostedTests.Json
