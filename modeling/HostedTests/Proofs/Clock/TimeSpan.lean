import HostedTests.Proofs.Clock.Numerals
import Mathlib.Data.Set.Function

namespace HostedTests.Clock.TimeSpan

open Text (IsRun padded decimal ofDigits)

def whenPositive (n : ℕ) (digits : List Char) : Option (List Char) :=
  if 0 < n then some digits else none

theorem elim_whenPositive {β : Type} (n : ℕ) (digits : List Char) (b : β) (f : List Char → β) :
    (whenPositive n digits).elim b f = if 0 < n then f digits else b := by
  rw [whenPositive]
  split <;> rfl

theorem eq_of_mem_whenPositive {n : ℕ} {digits cs : List Char} (h : cs ∈ whenPositive n digits) :
    cs = digits := by
  rw [whenPositive] at h
  split at h <;> cases h
  rfl

def numerals (t : TimeSpan) : Numerals where
  days := whenPositive (t.seconds / 86400) (decimal (t.seconds / 86400))
  hours := padded 2 (t.seconds % 86400 / 3600)
  minutes := padded 2 (t.seconds % 3600 / 60)
  seconds := padded 2 (t.seconds % 60)
  fraction := whenPositive t.ticks (padded 7 t.ticks)

theorem render_eq (t : TimeSpan) : t.render = t.numerals.text := by
  rw [Numerals.text, Numerals.pointed, Numerals.clock]
  simp only [render, numerals, elim_whenPositive, List.append_assoc, List.cons_append]

theorem ticks_lt_ticksPerSecond (t : TimeSpan) : t.ticks < ticksPerSecond := by
  have hnanos := t.nanos_lt
  rw [ticks, ticksPerSecond, nanosPerTick]
  omega

theorem digits_numerals (t : TimeSpan) : t.numerals.Each IsRun where
  days _ hd := eq_of_mem_whenPositive hd ▸ Text.isRun_decimal _
  hours := Text.isRun_padded (by decide) _
  minutes := Text.isRun_padded (by decide) _
  seconds := Text.isRun_padded (by decide) _
  fraction _ hf := eq_of_mem_whenPositive hf ▸ Text.isRun_padded (by decide) _

theorem length_fraction (t : TimeSpan) : ∀ f ∈ t.numerals.fraction, f.length ≤ 7 := by
  have hticks := t.ticks_lt_ticksPerSecond
  rw [ticksPerSecond] at hticks
  intro f hf
  rw [eq_of_mem_whenPositive hf, Text.length_padded (by decide) (by omega)]

theorem total_numerals (t : TimeSpan) : t.numerals.total ofDigits = t.seconds := by
  simp only [Numerals.total, numerals, elim_whenPositive, Text.ofDigits_decimal,
    (Text.spells_padded 2 _).value]
  split <;> omega

theorem ticks_numerals (t : TimeSpan) : t.numerals.ticks ofDigits = t.ticks := by
  have hticks := t.ticks_lt_ticksPerSecond
  rw [ticksPerSecond] at hticks
  simp only [Numerals.ticks, numerals, elim_whenPositive, (Text.spells_padded 7 _).value,
    Text.length_padded (by decide : 0 < 7) (by omega : t.ticks < 10 ^ 7)]
  split <;> omega

theorem fits_numerals (t : TimeSpan) : t.numerals.Fits where
  days d hd := by
    have hlt := t.seconds_lt
    rw [eq_of_mem_whenPositive hd, Text.ofDigits_decimal, bound]
    omega
  hours := by
    rw [numerals, (Text.spells_padded 2 _).value, bound]
    omega
  minutes := by
    rw [numerals, (Text.spells_padded 2 _).value]
    omega
  seconds := by
    rw [numerals, (Text.spells_padded 2 _).value]
    omega
  total := t.total_numerals ▸ t.seconds_lt

theorem parse_format (t : TimeSpan) : parse t.format = .ok t.truncated := by
  rw [parse_eq_ok_iff, format, String.toList_ofList, render_eq]
  apply read?_text_of_denotes
  rw [denotes_iff_fits t.digits_numerals t.length_fraction, total_numerals, ticks_numerals]
  exact ⟨t.fits_numerals, rfl, rfl⟩

theorem truncated_eq_self_iff {t : TimeSpan} : t.truncated = t ↔ nanosPerTick ∣ t.nanos := by
  constructor
  · intro h
    rw [← h]
    exact Nat.dvd_mul_left _ _
  · intro h
    exact ext rfl (Nat.div_mul_cancel h)

theorem truncated_of_parse {text : String} {t : TimeSpan} (h : parse text = .ok t) :
    t.truncated = t := by
  obtain ⟨n, -, hn⟩ := parse_eq_ok_iff_denotes.mp h
  rw [truncated_eq_self_iff, hn.ticks]
  exact Nat.dvd_mul_left _ _

theorem format_truncated (t : TimeSpan) : t.truncated.format = t.format := by
  have hpos : 0 < nanosPerTick := by decide
  have hticks : t.truncated.ticks = t.ticks := Nat.mul_div_cancel _ hpos
  rw [format, format, render, render, hticks]
  rfl

theorem format_read_back :
    (∀ t : TimeSpan, parse t.format = .ok t.truncated) ∧
    (∀ t u : TimeSpan, t.format = u.format ↔ t.truncated = u.truncated) ∧
    Set.InjOn format {t | nanosPerTick ∣ t.nanos} ∧
    ∀ t : TimeSpan, (parse t.format).map format = .ok t.format := by
  have hsame (t u : TimeSpan) : t.format = u.format ↔ t.truncated = u.truncated := by
    constructor
    · intro h
      have htext := congrArg parse h
      rw [parse_format, parse_format] at htext
      exact Except.ok.inj htext
    · intro h
      rw [← format_truncated t, ← format_truncated u, h]
  refine ⟨parse_format, hsame, ?_, fun t => ?_⟩
  · intro t ht u hu h
    have htruncated := (hsame t u).mp h
    rwa [truncated_eq_self_iff.mpr ht, truncated_eq_self_iff.mpr hu] at htruncated
  · rw [parse_format, Except.map, format_truncated]

end HostedTests.Clock.TimeSpan
