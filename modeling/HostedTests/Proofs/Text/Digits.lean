import HostedTests.Json.StringReader
import HostedTests.Text.Blank
import HostedTests.Text.Decimal
import HostedTests.Text.Quoted
import Mathlib.Algebra.Ring.Nat
import Mathlib.Data.List.Basic
import Mathlib.Data.List.Induction

namespace HostedTests.Text

theorem digit_digitChar :
    ∀ d < 10, isDigit (Nat.digitChar d) ∧ digitValue (Nat.digitChar d) = d := by
  decide

theorem hexValue?_digitChar : ∀ d < 16, Json.hexValue? (Nat.digitChar d) = some d := by decide

theorem isDigit_of_mem_decimal {n : ℕ} : ∀ c ∈ decimal n, isDigit c := by
  induction n using Nat.strongRecOn with
  | ind n ih =>
    intro c hc
    by_cases hn : n < 10
    · rw [decimal, Nat.toDigits_of_lt_base hn, List.mem_singleton] at hc
      exact hc ▸ (digit_digitChar n hn).1
    · rw [decimal, Nat.toDigits_of_base_le (by decide) (by omega), List.mem_append,
        List.mem_singleton] at hc
      rcases hc with hc | hc
      · exact ih (n / 10) (by omega) c hc
      · exact hc ▸ (digit_digitChar (n % 10) (by omega)).1

theorem ofDigits_decimal (n : ℕ) : ofDigits (decimal n) = n := by
  induction n using Nat.strongRecOn with
  | ind n ih =>
    by_cases hn : n < 10
    · rw [decimal, Nat.toDigits_of_lt_base hn]
      simp [ofDigits, (digit_digitChar n hn).2]
    · have hq := ih (n / 10) (by omega)
      rw [decimal, ofDigits] at hq
      rw [decimal, Nat.toDigits_of_base_le (by decide) (by omega), ofDigits, List.foldl_append, hq]
      simp only [List.foldl_cons, List.foldl_nil, (digit_digitChar (n % 10) (by omega)).2]
      omega

theorem decimal_head (n : ℕ) :
    ∃ c cs, decimal n = c :: cs ∧ isDigit c ∧ (digitValue c = 0 → n = 0 ∧ cs = []) := by
  induction n using Nat.strongRecOn with
  | ind n ih =>
    by_cases hn : n < 10
    · obtain ⟨hd, hv⟩ := digit_digitChar n hn
      exact ⟨_, [], Nat.toDigits_of_lt_base hn, hd, fun h => ⟨hv ▸ h, rfl⟩⟩
    · obtain ⟨c, cs, he, hd, hz⟩ := ih (n / 10) (by omega)
      refine ⟨c, cs ++ [Nat.digitChar (n % 10)], ?_, hd, ?_⟩
      · rw [decimal, Nat.toDigits_of_base_le (by decide) (by omega)]
        rw [decimal] at he
        rw [he, List.cons_append]
      · intro h
        have := (hz h).1
        omega

theorem hexadecimal_hex {n : ℕ} : ∀ c ∈ hexadecimal n, (Json.hexValue? c).isSome := by
  induction n using Nat.strongRecOn with
  | ind n ih =>
    intro c hc
    by_cases hn : n < 16
    · rw [hexadecimal, Nat.toDigits_of_lt_base hn, List.mem_singleton] at hc
      rw [hc, hexValue?_digitChar n hn, Option.isSome_some]
    · rw [hexadecimal, Nat.toDigits_of_base_le (by decide) (by omega), List.mem_append,
        List.mem_singleton] at hc
      rcases hc with hc | hc
      · exact ih (n / 16) (by omega) c hc
      · rw [hc, hexValue?_digitChar (n % 16) (by omega), Option.isSome_some]

structure Spells (n : ℕ) (cs : List Char) : Prop where
  digits : ∀ c ∈ cs, isDigit c
  value : ofDigits cs = n

theorem ofDigits_zeros (k : ℕ) (cs : List Char) :
    ofDigits (List.replicate k '0' ++ cs) = ofDigits cs := by
  induction k with
  | zero => rfl
  | succ k ih =>
    rw [← ih]
    rfl

theorem spells_padded (width n : ℕ) : Spells n (padded width n) where
  digits := by
    intro c hc
    rw [padded, List.mem_append] at hc
    rcases hc with hc | hc
    · rw [List.eq_of_mem_replicate hc]
      decide
    · exact isDigit_of_mem_decimal c hc
  value := by rw [padded, ofDigits_zeros, ofDigits_decimal]

theorem length_padded {width n : ℕ} (hw : 0 < width) (h : n < 10 ^ width) :
    (padded width n).length = width := by
  have hle : (decimal n).length ≤ width := (Nat.length_toDigits_le_iff (by decide) hw).mpr h
  rw [padded, List.length_append, List.length_replicate]
  omega

theorem le_length_padded (width n : ℕ) : width ≤ (padded width n).length := by
  rw [padded, List.length_append, List.length_replicate]
  omega

theorem padded_ne_nil {width : ℕ} (hw : 0 < width) (n : ℕ) : padded width n ≠ [] := by
  have hlength := le_length_padded width n
  intro he
  rw [he, List.length_nil] at hlength
  omega

theorem toNat_of_isDigit {c : Char} (h : isDigit c) : 48 ≤ c.toNat ∧ c.toNat ≤ 57 := by
  simpa [isDigit, Char.le_def, UInt32.le_iff_toNat_le] using h

theorem digitValue_lt {c : Char} (h : isDigit c) : digitValue c < 10 := by
  have hc := toNat_of_isDigit h
  have hzero : '0'.toNat = 48 := rfl
  rw [digitValue, hzero]
  omega

theorem ofDigits_lt {cs : List Char} (h : ∀ c ∈ cs, isDigit c) : ofDigits cs < 10 ^ cs.length := by
  induction cs using List.reverseRecOn with
  | nil => decide
  | append_singleton cs c ih =>
    have hcs := ih fun d hd => h d (List.mem_append_left _ hd)
    have hc := digitValue_lt (h c (List.mem_append_right _ List.mem_cons_self))
    rw [ofDigits] at hcs
    rw [ofDigits, List.foldl_append, List.foldl_cons, List.foldl_nil, List.length_append,
      List.length_singleton, Nat.pow_succ]
    omega

def IsRun (cs : List Char) : Prop := cs ≠ [] ∧ ∀ c ∈ cs, isDigit c

instance : DecidablePred IsRun := fun cs =>
  decidable_of_iff (cs ≠ [] ∧ cs.all isDigit) (and_congr_right fun _ => List.all_eq_true)

theorem isRun_decimal (n : ℕ) : IsRun (decimal n) := by
  obtain ⟨c, cs, hdecimal, -⟩ := decimal_head n
  exact ⟨hdecimal ▸ List.cons_ne_nil c cs, isDigit_of_mem_decimal⟩

theorem isRun_padded {width : ℕ} (hw : 0 < width) (n : ℕ) : IsRun (padded width n) :=
  ⟨padded_ne_nil hw n, (spells_padded width n).digits⟩

theorem IsRun.not_mem {cs : List Char} (h : IsRun cs) {c : Char} (hc : isDigit c = false) :
    c ∉ cs := by
  intro hm
  rw [h.2 c hm] at hc
  cases hc

theorem unmarked_of_not_mem {cs : List Char} (h : '+' ∉ cs) : unmarked cs = cs := by
  rw [unmarked.eq_def]
  split
  · exact absurd List.mem_cons_self h
  · rfl

theorem IsRun.unmarked {cs : List Char} (h : IsRun cs) : unmarked cs = cs :=
  unmarked_of_not_mem (h.not_mem (by decide))

theorem isRun_unmarked {cs : List Char} (h : IsRun cs) : IsRun (Text.unmarked cs) := by
  rw [h.unmarked]
  exact h

theorem mem_unmarked {c : Char} (hc : c ≠ '+') {cs : List Char} :
    c ∈ Text.unmarked cs ↔ c ∈ cs := by
  rw [Text.unmarked.eq_def]
  split
  · rw [List.mem_cons, or_iff_right hc]
  · rfl

theorem length_unmarked_le (cs : List Char) : (Text.unmarked cs).length ≤ cs.length := by
  rw [Text.unmarked.eq_def]
  split
  · exact Nat.le_succ _
  · exact Nat.le_refl _

theorem unsigned?_eq_some_iff {bound n : ℕ} {cs : List Char} :
    unsigned? bound cs = some n ↔
      IsRun (unmarked cs) ∧ ofDigits (unmarked cs) = n ∧ n < bound := by
  have hrun : ¬ (unmarked cs = [] ∨ ¬ (unmarked cs).all isDigit) ↔ IsRun (unmarked cs) := by
    rw [not_or, not_not, List.all_eq_true, IsRun]
  rw [unsigned?]
  constructor
  · intro h
    split at h
    · cases h
    · rename_i hdigits
      split at h
      · rename_i hbound
        cases h
        exact ⟨hrun.mp hdigits, rfl, hbound⟩
      · cases h
  · rintro ⟨hdigits, rfl, hbound⟩
    rw [if_neg (hrun.mpr hdigits), if_pos hbound]

def StopsDigits (cs : List Char) : Prop := cs.head?.all fun c => !isDigit c

theorem takeWhile_stopped {cs : List Char} (h : StopsDigits cs) (k : ℕ) :
    (cs.take k).takeWhile isDigit = [] := by
  cases cs with
  | nil => rw [List.take_nil, List.takeWhile_nil]
  | cons c cs =>
    have hc : isDigit c = false := (Bool.not_eq_true' _).mp h
    cases k with
    | zero => rfl
    | succ k => rw [List.take_succ_cons, List.takeWhile_cons, hc, if_neg Bool.false_ne_true]

theorem takeWhile_digits {n most : ℕ} {cs rest : List Char} (h : Spells n cs)
    (hmost : cs.length ≤ most) (hstop : cs.length = most ∨ StopsDigits rest) :
    ((cs ++ rest).take most).takeWhile isDigit = cs := by
  rw [List.take_append, List.take_of_length_le hmost, List.takeWhile_append_of_pos h.digits]
  rcases hstop with heq | hstop
  · rw [heq, Nat.sub_self, List.take_zero, List.takeWhile_nil, List.append_nil]
  · rw [takeWhile_stopped hstop, List.append_nil]

theorem not_isBlank_of_isDigit {c : Char} (h : isDigit c) : isBlank c = false := by
  have hc := toNat_of_isDigit h
  have hall : ∀ n < 58, 48 ≤ n → isBlank (Char.ofNat n) = false := by decide
  have hn := hall c.toNat (by omega) hc.1
  rwa [Char.ofNat_toNat] at hn

theorem trimStart_cons {c : Char} (h : isBlank c = false) (cs : List Char) :
    trimStart (c :: cs) = c :: cs := by
  rw [trimStart, List.dropWhile_cons, h, if_neg Bool.false_ne_true]

theorem trimStart_spells {n : ℕ} {cs : List Char} (h : Spells n cs) (hne : cs ≠ [])
    (rest : List Char) : trimStart (cs ++ rest) = cs ++ rest := by
  obtain ⟨c, cs, rfl⟩ := List.exists_cons_of_ne_nil hne
  exact trimStart_cons (not_isBlank_of_isDigit (h.digits c List.mem_cons_self)) (cs ++ rest)

end HostedTests.Text
