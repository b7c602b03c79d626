import HostedTests.Clock.Timestamp
import HostedTests.Proofs.Text.Digits
import Mathlib.Algebra.Ring.Nat

namespace HostedTests.Clock

open Text (Spells StopsDigits padded)

theorem Date.of?_eq (d : Date) : Date.of? d.year d.month d.day = some d := dif_pos d.valid

theorem Date.month_lt (d : Date) : 1 ≤ d.month ∧ d.month ≤ 12 := d.valid.2.1

theorem Date.day_lt (d : Date) : 1 ≤ d.day ∧ d.day ≤ 31 := by
  have hday := d.valid.2.2
  have hmost : daysInMonth d.year d.month ≤ 31 := by
    unfold daysInMonth
    split
    · split <;> omega
    all_goals omega
  omega

theorem Time.of?_eq (t : Time) : Time.of? t.hour t.minute t.second t.nanos = some t :=
  dif_pos t.valid

theorem Time.atMinute_eq (t : Time) {n : ℕ} (hn : n = t.minuteOfDay) (h : n < 1440) :
    t.atMinute n h = t := by
  obtain ⟨hour, minute, second, nanos, hvalid⟩ := t
  subst hn
  have hh : (hour * 60 + minute) / 60 = hour := by omega
  have hm : (hour * 60 + minute) % 60 = minute := by omega
  simp only [Time.atMinute, Time.minuteOfDay, hh, hm]

theorem Instant.ofLocal?_utc (date : Date) (time : Time)
    (h : -1440 < (0 : Int) ∧ (0 : Int) < 1440) :
    Instant.ofLocal? date time ⟨0, h⟩ = some ⟨date, time⟩ := by
  have hlt := time.minuteOfDay_lt
  have hlow : ¬ (time.minuteOfDay : Int) - 0 < 0 := by omega
  have hhigh : ¬ 1440 ≤ (time.minuteOfDay : Int) - 0 := by omega
  rw [Instant.ofLocal?]
  simp only [dif_neg hlow, dif_neg hhigh]
  rw [Time.atMinute_eq time (by omega)]

namespace Timestamp

theorem instant_parts (i : Instant) :
    Parts.instant ⟨i.date.year, i.date.month, i.date.day, i.time.hour, i.time.minute,
      i.time.second, i.time.nanos, 0⟩ = .ok i := by
  have hoffset : -1440 < (0 : Int) ∧ (0 : Int) < 1440 := by decide
  simp only [Parts.instant, Date.of?_eq, Time.of?_eq, dif_pos hoffset, Instant.ofLocal?_utc]

theorem length_le_size (cs : List Char) : cs.length ≤ Text.Utf8.size cs := by
  have hfold (n : ℕ) : n + cs.length ≤ cs.foldl (fun n c => n + c.utf8Size) n := by
    induction cs generalizing n with
    | nil => exact Nat.le_refl n
    | cons c cs ih =>
      have hc := c.utf8Size_pos
      have hcs := ih (n + c.utf8Size)
      rw [List.foldl_cons, List.length_cons]
      omega
  have hzero := hfold 0
  rwa [Nat.zero_add] at hzero

theorem number_spells {least most n : ℕ} {cs rest : List Char} (h : Spells n cs)
    (hleast : least ≤ cs.length) (hmost : cs.length ≤ most)
    (hstop : cs.length = most ∨ StopsDigits rest) :
    number least most (cs ++ rest) = .ok (n, rest) := by
  have hdigits := Text.takeWhile_digits h hmost hstop
  have hsize : ¬ Text.Utf8.size (cs ++ rest) < least := by
    have hlength := length_le_size (cs ++ rest)
    rw [List.length_append] at hlength
    omega
  rw [number]
  simp only [hdigits, if_neg hsize, if_neg (Nat.not_lt.mpr hleast), h.value, List.drop_left]

theorem number_stopped {least most : ℕ} (hleast : 0 < least) {cs : List Char}
    (h : StopsDigits cs) : ∃ f, number least most cs = .error f := by
  rw [number]
  simp only [Text.takeWhile_stopped h most, List.length_nil, if_pos hleast]
  split
  · exact ⟨_, rfl⟩
  · exact ⟨_, rfl⟩

theorem numberWithin_padded {least n low high : ℕ} (hleast : least ≤ 2) (hn : n < 100)
    (hlow : low ≤ n) (hhigh : n ≤ high) (rest : List Char) :
    numberWithin least 2 low high (padded 2 n ++ rest) = .ok (n, rest) := by
  have hlength : (padded 2 n).length = 2 := Text.length_padded (by decide) hn
  have hnumber : number least 2 (padded 2 n ++ rest) = .ok (n, rest) :=
    number_spells (Text.spells_padded 2 n) (by omega) (by omega) (.inl hlength)
  rw [numberWithin, hnumber]
  change (if low ≤ n ∧ n ≤ high then _ else _) = _
  rw [if_pos ⟨hlow, hhigh⟩]
  rfl

theorem part_padded {n low high : ℕ} (hn : n < 100) (hlow : low ≤ n) (hhigh : n ≤ high)
    (rest : List Char) : part low high (padded 2 n ++ rest) = .ok (n, rest) := by
  rw [part, Text.trimStart_spells (Text.spells_padded 2 n) (Text.padded_ne_nil (by decide) n)]
  exact numberWithin_padded (by decide) hn hlow hhigh rest

theorem char_cons (c : Char) (rest : List Char) : char c (c :: rest) = .ok rest := by
  rw [char, if_pos rfl]

theorem mark_cons {c : Char} (h : Text.isBlank c = false) (rest : List Char) :
    mark c (c :: rest) = .ok rest := by
  rw [mark, Text.trimStart_cons h, char_cons]

theorem fraction_padded (width : ℕ) {n : ℕ} (hw : 0 < width) (hmost : width ≤ 9)
    (hn : n < 10 ^ width) :
    fraction ('.' :: padded width n ++ ['Z']) = .ok (n * 10 ^ (9 - width), ['Z']) := by
  have hlength : (padded width n).length = width := Text.length_padded hw hn
  have hnumber : number 1 9 (padded width n ++ ['Z']) = .ok (n, ['Z']) :=
    number_spells (Text.spells_padded width n) (by omega) (by omega) (.inr rfl)
  have hplaces : (padded width n ++ ['Z']).length - ['Z'].length = width := by
    rw [List.length_append, hlength]
    exact Nat.add_sub_cancel width 1
  rw [List.cons_append, fraction]
  simp only [hnumber, bind, Except.bind, hplaces]
  rfl

theorem fraction_text {nanos : ℕ} (h : nanos < 1000000000) :
    fraction (Instant.fractionText nanos ++ ['Z']) = .ok (nanos, ['Z']) := by
  rw [Instant.fractionText]
  split
  · rename_i hzero
    rw [hzero]
    rfl
  · split
    · have hread := fraction_padded 3 (n := nanos / 1000000) (by decide) (by decide) (by omega)
      have hn : nanos / 1000000 * 10 ^ (9 - 3) = nanos := by omega
      rwa [hn] at hread
    · split
      · have hread := fraction_padded 6 (n := nanos / 1000) (by decide) (by decide) (by omega)
        have hn : nanos / 1000 * 10 ^ (9 - 6) = nanos := by omega
        rwa [hn] at hread
      · have hread := fraction_padded 9 (n := nanos) (by decide) (by decide) (by omega)
        rwa [Nat.sub_self, Nat.pow_zero, Nat.mul_one] at hread

theorem dateEnd_mark (rest : List Char) : dateEnd ('T' :: rest) = .ok rest := rfl

theorem yearText_plain {y : Int} (h : 0 ≤ y ∧ y ≤ 9999) :
    Instant.yearText y = padded 4 y.toNat ∧ (padded 4 y.toNat).length = 4 :=
  ⟨if_pos h, Text.length_padded (by decide) (by omega)⟩

theorem yearText_signed {y : Int} (h : ¬ (0 ≤ y ∧ y ≤ 9999)) :
    Instant.yearText y = (if y < 0 then '-' else '+') :: padded 4 y.natAbs := if_neg h

theorem trimStart_yearText (y : Int) (rest : List Char) :
    Text.trimStart (Instant.yearText y ++ rest) = Instant.yearText y ++ rest := by
  by_cases h : 0 ≤ y ∧ y ≤ 9999
  · rw [(yearText_plain h).1]
    exact Text.trimStart_spells (Text.spells_padded 4 _) (Text.padded_ne_nil (by decide) _) rest
  · rw [yearText_signed h, List.cons_append]
    apply Text.trimStart_cons
    split <;> decide

theorem year_plain {n : ℕ} {cs : List Char} (h : Spells n cs) (hlength : cs.length = 4)
    (rest : List Char) :
    year (cs ++ rest) = .ok ((n : Int), rest) := by
  have hnumber : number 1 4 (cs ++ rest) = .ok (n, rest) :=
    number_spells h (by omega) (by omega) (.inl hlength)
  obtain ⟨c, cs, rfl⟩ := List.exists_cons_of_length_eq_add_one hlength
  have hdigit : Text.isDigit c := h.digits c List.mem_cons_self
  have hsign : c ≠ '-' ∧ c ≠ '+' := by
    constructor
    all_goals
      rintro rfl
      exact absurd hdigit (by decide)
  rw [List.cons_append] at hnumber ⊢
  unfold year
  split
  · rename_i he
    exact absurd (List.cons.inj he).1 hsign.1
  · rename_i he
    exact absurd (List.cons.inj he).1 hsign.2
  · rw [hnumber]
    rfl

theorem year_signed {n : ℕ} {cs rest : List Char} (h : Spells n cs) (hne : cs ≠ [])
    (hrest : StopsDigits rest) :
    (n ≤ yearBound → year ('-' :: cs ++ rest) = .ok (-(n : Int), rest)) ∧
      (n < yearBound → year ('+' :: cs ++ rest) = .ok ((n : Int), rest)) := by
  have hnumber : number 1 (cs ++ rest).length (cs ++ rest) = .ok (n, rest) := by
    have hlength := List.length_pos_iff.mpr hne
    apply number_spells h hlength _ (.inr hrest)
    rw [List.length_append]
    omega
  constructor
  · intro hn
    rw [List.cons_append, year, hnumber]
    simp only [bind, Except.bind, if_pos hn]
    rfl
  · intro hn
    rw [List.cons_append, year, hnumber]
    simp only [bind, Except.bind, if_pos hn]
    rfl

theorem year_text {y : Int} (hlow : firstYear ≤ y) (hhigh : y ≤ lastYear) {rest : List Char}
    (hrest : StopsDigits rest) : year (Instant.yearText y ++ rest) = .ok (y, rest) := by
  rw [firstYear] at hlow
  rw [lastYear] at hhigh
  by_cases h : 0 ≤ y ∧ y ≤ 9999
  · obtain ⟨htext, hlength⟩ := yearText_plain h
    have hread := year_plain (Text.spells_padded 4 y.toNat) hlength rest
    rw [Int.toNat_of_nonneg h.1] at hread
    rw [htext]
    exact hread
  · obtain ⟨hminus, hplus⟩ := year_signed (Text.spells_padded 4 y.natAbs)
      (Text.padded_ne_nil (by decide) y.natAbs) hrest
    have hbound : y.natAbs < yearBound := by
      rw [yearBound]
      omega
    rw [yearText_signed h]
    split
    · have habs : -(y.natAbs : Int) = y := by omega
      rw [hminus (Nat.le_of_lt hbound), habs]
    · have habs : (y.natAbs : Int) = y := by omega
      rw [hplus hbound, habs]

theorem render_eq (i : Instant) :
    i.render = Instant.yearText i.date.year ++ ('-' :: (padded 2 i.date.month ++
      ('-' :: (padded 2 i.date.day ++ ('T' :: (padded 2 i.time.hour ++
      (':' :: (padded 2 i.time.minute ++ (':' :: (padded 2 i.time.second ++
      (Instant.fractionText i.time.nanos ++ ['Z']))))))))))) := by
  simp only [Instant.render, List.append_assoc, List.cons_append]

theorem strict_render {i : Instant} (h : 0 ≤ i.date.year ∧ i.date.year ≤ 9999) :
    strict i.render = .ok i := by
  obtain ⟨htext, hlength⟩ := yearText_plain h
  obtain ⟨hhour, hminute, hsecond, hnanos⟩ := i.time.valid
  obtain ⟨hmonth, hmonths⟩ := i.date.month_lt
  obtain ⟨hday, hdays⟩ := i.date.day_lt
  have hyear (rest : List Char) :
      number 4 4 (padded 4 i.date.year.toNat ++ rest) = .ok (i.date.year.toNat, rest) :=
    number_spells (Text.spells_padded 4 _) (by omega) (by omega) (.inl hlength)
  have htwo {n low high : ℕ} (hlow : low ≤ n) (hhigh : n ≤ high) (hn : high < 100)
      (rest : List Char) : numberWithin 2 2 low high (padded 2 n ++ rest) = .ok (n, rest) :=
    numberWithin_padded (Nat.le_refl 2) (by omega) hlow hhigh rest
  have hparts := instant_parts i
  rw [← Int.toNat_of_nonneg h.1] at hparts
  rw [render_eq, htext, strict]
  simp only [hyear, bind, Except.bind, char_cons, dateEnd_mark, htwo hmonth hmonths (by decide),
    htwo hday hdays (by decide), htwo (Nat.zero_le _) (Nat.le_of_lt_succ hhour) (by decide),
    htwo (Nat.zero_le _) (Nat.le_of_lt_succ hminute) (by decide),
    htwo (Nat.zero_le _) hsecond (by decide), fraction_text hnanos]
  exact hparts

theorem lenient_render (i : Instant) : lenient i.render = .ok i := by
  obtain ⟨hhour, hminute, hsecond, hnanos⟩ := i.time.valid
  obtain ⟨hmonth, hmonths⟩ := i.date.month_lt
  obtain ⟨hday, hdays⟩ := i.date.day_lt
  have htwo {n low high : ℕ} (hlow : low ≤ n) (hhigh : n ≤ high) (hn : high < 100)
      (rest : List Char) : part low high (padded 2 n ++ rest) = .ok (n, rest) :=
    part_padded (by omega) hlow hhigh rest
  have hyear (rest : List Char) :
      year (Instant.yearText i.date.year ++ '-' :: rest) = .ok (i.date.year, '-' :: rest) :=
    year_text i.date.valid.1.1 i.date.valid.1.2 rfl
  rw [render_eq, lenient, trimStart_yearText]
  simp only [hyear, bind, Except.bind, mark_cons (c := '-') (by decide),
    mark_cons (c := ':') (by decide), dateEnd_mark, htwo hmonth hmonths (by decide),
    htwo hday hdays (by decide), htwo (Nat.zero_le _) (Nat.le_of_lt_succ hhour) (by decide),
    htwo (Nat.zero_le _) (Nat.le_of_lt_succ hminute) (by decide),
    htwo (Nat.zero_le _) hsecond (by decide), fraction_text hnanos]
  exact instant_parts i

theorem strict_signed {i : Instant} (h : ¬ (0 ≤ i.date.year ∧ i.date.year ≤ 9999)) :
    ∃ f, strict i.render = .error f := by
  obtain ⟨f, hf⟩ : ∃ f, number 4 4 i.render = .error f := by
    rw [render_eq, yearText_signed h, List.cons_append]
    apply number_stopped (by decide)
    rw [StopsDigits, List.head?_cons]
    split <;> decide
  exact ⟨f, by rw [strict, hf]; rfl⟩

theorem toUtc_format (i : Instant) : toUtc i.format = i.format := by
  rw [toUtc, Instant.format, String.toList_ofList]
  by_cases h : 0 ≤ i.date.year ∧ i.date.year ≤ 9999
  · rw [strict_render h]
    rfl
  · obtain ⟨f, hf⟩ := strict_signed h
    rw [hf]

end Timestamp

end HostedTests.Clock
