import HostedTests.Clock.TimeSpan
import HostedTests.Proofs.Text.Digits

namespace HostedTests.Clock.TimeSpan

open Text (IsRun unmarked ofDigits isDigit)

theorem toNat_ofNat {n : ℕ} (h : n < bound) : (UInt64.ofNat n).toNat = n :=
  UInt64.toNat_ofNat_of_lt' h

theorem toNat_lt_bound (w : UInt64) : w.toNat < bound := w.toNat_lt

theorem word?_eq_some_iff {cs : List Char} {w : UInt64} :
    word? cs = some w ↔ IsRun (unmarked cs) ∧ ofDigits (unmarked cs) = w.toNat := by
  rw [word?, Option.map_eq_some_iff]
  constructor
  · rintro ⟨n, hn, rfl⟩
    obtain ⟨hrun, hvalue, hlt⟩ := Text.unsigned?_eq_some_iff.mp hn
    exact ⟨hrun, hvalue.trans (toNat_ofNat hlt).symm⟩
  · rintro ⟨hrun, hvalue⟩
    exact ⟨w.toNat, Text.unsigned?_eq_some_iff.mpr ⟨hrun, hvalue, toNat_lt_bound w⟩,
      UInt64.ofNat_toNat⟩

theorem checked_eq_some_iff {n : ℕ} {w c : UInt64} (hw : n < bound → w.toNat = n) :
    (if n < bound then some w else none) = some c ↔ c.toNat = n := by
  split
  · rename_i h
    rw [Option.some_inj, ← UInt64.toNat_inj, hw h]
    exact eq_comm
  · rename_i h
    have hc := toNat_lt_bound c
    simp only [reduceCtorEq, false_iff]
    omega

theorem product?_eq_some_iff {a b c : UInt64} :
    product? a b = some c ↔ c.toNat = a.toNat * b.toNat :=
  checked_eq_some_iff fun h => (UInt64.toNat_mul a b).trans (Nat.mod_eq_of_lt h)

theorem sum?_eq_some_iff {a b c : UInt64} : sum? a b = some c ↔ c.toNat = a.toNat + b.toNat :=
  checked_eq_some_iff fun h => (UInt64.toNat_add a b).trans (Nat.mod_eq_of_lt h)

theorem seconds?_eq_some_iff {days hours rest total : UInt64} :
    seconds? days hours rest = some total ↔
      total.toNat = days.toNat * 86400 + hours.toNat * 3600 + rest.toNat := by
  have hday : (86400 : UInt64).toNat = 86400 := rfl
  have hhour : (3600 : UInt64).toNat = 3600 := rfl
  simp only [seconds?, Option.bind_eq_bind, Option.bind_eq_some_iff, product?_eq_some_iff,
    sum?_eq_some_iff, hday, hhour]
  constructor
  · rintro ⟨d, hd, h, hh, sum, hsum, htotal⟩
    omega
  · intro htotal
    have hlt := toNat_lt_bound total
    exact ⟨.ofNat (days.toNat * 86400), toNat_ofNat (by omega),
      .ofNat (hours.toNat * 3600), toNat_ofNat (by omega),
      .ofNat (days.toNat * 86400 + hours.toNat * 3600),
      by rw [toNat_ofNat (by omega), toNat_ofNat (by omega), toNat_ofNat (by omega)],
      by rw [toNat_ofNat (by omega), htotal]⟩

theorem minutesSeconds_eq_some_iff {hours hours' m s left : UInt64} :
    (if m < 60 ∧ s < 60 then some (hours', m * 60 + s) else none) = some (hours, left) ↔
      (m.toNat < 60 ∧ s.toNat < 60) ∧ hours' = hours ∧ left.toNat = m.toNat * 60 + s.toNat := by
  have hsixty : (60 : UInt64).toNat = 60 := rfl
  split
  all_goals
    rename_i hlt
    rw [UInt64.lt_iff_toNat_lt, UInt64.lt_iff_toNat_lt, hsixty] at hlt
  · have hsum : (m * 60 + s).toNat = m.toNat * 60 + s.toNat := by
      rw [UInt64.toNat_add, UInt64.toNat_mul, hsixty]
      omega
    rw [Option.some_inj, Prod.mk.injEq, ← UInt64.toNat_inj (a := m * 60 + s), hsum,
      and_iff_right hlt, eq_comm (a := left.toNat)]
  · simp only [reduceCtorEq, hlt, false_and]

def number (cs : List Char) : ℕ := ofDigits (unmarked cs)

theorem number_of_isRun {cs : List Char} (h : IsRun cs) : number cs = ofDigits cs := by
  rw [number, h.unmarked]

theorem word?_of_lt {cs : List Char} (hrun : IsRun (unmarked cs)) (hlt : number cs < bound) :
    word? cs = some (.ofNat (number cs)) :=
  word?_eq_some_iff.mpr ⟨hrun, (toNat_ofNat hlt).symm⟩

theorem number_of_word? {cs : List Char} {w : UInt64} (h : word? cs = some w) :
    number cs = w.toNat :=
  (word?_eq_some_iff.mp h).2

theorem fraction_lt {f : List Char} (hrun : IsRun (unmarked f)) (hlength : f.length ≤ 7) :
    number f * 10 ^ (7 - f.length) < ticksPerSecond := by
  have hnumber : number f < 10 ^ f.length :=
    Nat.lt_of_lt_of_le (Text.ofDigits_lt hrun.2)
      (Nat.pow_le_pow_right (by decide) (Text.length_unmarked_le f))
  calc number f * 10 ^ (7 - f.length)
      < 10 ^ f.length * 10 ^ (7 - f.length) :=
        Nat.mul_lt_mul_of_pos_right hnumber (Nat.pow_pos (by decide))
    _ = 10 ^ 7 := by rw [← Nat.pow_add, Nat.add_sub_cancel' hlength]
    _ = ticksPerSecond := rfl

theorem ticks_lt_second {fraction : Option (List Char)}
    (h : ∀ f ∈ fraction, IsRun (unmarked f) ∧ f.length ≤ 7) :
    (fraction.elim 0 fun f => number f * 10 ^ (7 - f.length)) < ticksPerSecond := by
  cases fraction with
  | none => decide
  | some f => exact fraction_lt (h f rfl).1 (h f rfl).2

theorem scaled_eq_iff {f : List Char} {w ticks : UInt64} (hrun : IsRun (unmarked f))
    (hlength : f.length ≤ 7) (hw : number f = w.toNat) :
    w * UInt64.ofNat (Nat.pow 10 (7 - f.length)) = ticks ↔
      ticks.toNat = number f * 10 ^ (7 - f.length) := by
  have hlt := fraction_lt hrun hlength
  have hscale : Nat.pow 10 (7 - f.length) < bound :=
    Nat.lt_of_le_of_lt (Nat.pow_le_pow_right (by decide : 0 < 10) (Nat.sub_le 7 f.length))
      (by decide)
  have hproduct : (w * UInt64.ofNat (Nat.pow 10 (7 - f.length))).toNat =
      number f * 10 ^ (7 - f.length) := by
    rw [UInt64.toNat_mul, toNat_ofNat hscale, ← hw]
    exact Nat.mod_eq_of_lt (Nat.lt_trans hlt (by decide))
  rw [← UInt64.toNat_inj, hproduct]
  exact eq_comm

theorem fractionTicks?_eq_some_iff {fraction : Option (List Char)} {ticks : UInt64} :
    fractionTicks? fraction = some ticks ↔
      (∀ f ∈ fraction, IsRun (unmarked f) ∧ f.length ≤ 7) ∧
        ticks.toNat = fraction.elim 0 fun f => number f * 10 ^ (7 - f.length) := by
  cases fraction with
  | none =>
    rw [fractionTicks?, Option.some_inj, ← UInt64.toNat_inj, Option.elim_none]
    simp [eq_comm]
  | some f =>
    rw [fractionTicks?, Option.elim_some]
    simp only [Option.mem_some_iff, forall_eq']
    split
    · rename_i hrefused
      have hno : ¬ (IsRun (unmarked f) ∧ f.length ≤ 7) := by
        rintro ⟨hrun, hlength⟩
        rcases hrefused with rfl | hlong
        · exact hrun.1 rfl
        · omega
      simp only [reduceCtorEq, hno, false_and]
    · rename_i htaken
      have hlength : f.length ≤ 7 := Nat.not_lt.mp (not_or.mp htaken).2
      rw [Option.map_eq_some_iff]
      constructor
      · rintro ⟨w, hw, hticks⟩
        have hrun := (word?_eq_some_iff.mp hw).1
        exact ⟨⟨hrun, hlength⟩, (scaled_eq_iff hrun hlength (number_of_word? hw)).mp hticks⟩
      · rintro ⟨⟨hrun, -⟩, hticks⟩
        have hlt := fraction_lt hrun hlength
        have hpos : 0 < 10 ^ (7 - f.length) := Nat.pow_pos (by decide)
        have hnumber : number f < bound := Nat.lt_of_le_of_lt (Nat.le_mul_of_pos_right _ hpos)
          (Nat.lt_trans hlt (by decide))
        have hvalue := (toNat_ofNat hnumber).symm
        exact ⟨_, word?_of_lt hrun hnumber, (scaled_eq_iff hrun hlength hvalue).mpr hticks⟩

structure Numerals where
  days : Option (List Char)
  hours : List Char
  minutes : List Char
  seconds : List Char
  fraction : Option (List Char)

namespace Numerals

structure Each (P : List Char → Prop) (n : Numerals) : Prop where
  days : ∀ d ∈ n.days, P d
  hours : P n.hours
  minutes : P n.minutes
  seconds : P n.seconds
  fraction : ∀ f ∈ n.fraction, P f

def clock (n : Numerals) : List Char := n.hours ++ ':' :: (n.minutes ++ ':' :: n.seconds)

def pointed (n : Numerals) : List Char :=
  n.clock ++ n.fraction.elim [] fun f => '.' :: f

def text (n : Numerals) : List Char := (n.days.elim [] fun d => d ++ ['.']) ++ n.pointed

def total (value : List Char → ℕ) (n : Numerals) : ℕ :=
  n.days.elim 0 value * 86400 + value n.hours * 3600 + value n.minutes * 60 + value n.seconds

def ticks (value : List Char → ℕ) (n : Numerals) : ℕ :=
  n.fraction.elim 0 fun f => value f * 10 ^ (7 - f.length)

variable {P Q : List Char → Prop} {n : Numerals}

theorem Each.mono (h : n.Each P) (hpq : ∀ cs, P cs → Q cs) : n.Each Q where
  days d hd := hpq d (h.days d hd)
  hours := hpq _ h.hours
  minutes := hpq _ h.minutes
  seconds := hpq _ h.seconds
  fraction f hf := hpq f (h.fraction f hf)

theorem Each.and (hp : n.Each P) (hq : n.Each Q) : n.Each fun cs => P cs ∧ Q cs where
  days d hd := ⟨hp.days d hd, hq.days d hd⟩
  hours := ⟨hp.hours, hq.hours⟩
  minutes := ⟨hp.minutes, hq.minutes⟩
  seconds := ⟨hp.seconds, hq.seconds⟩
  fraction f hf := ⟨hp.fraction f hf, hq.fraction f hf⟩

theorem total_congr {value value' : List Char → ℕ} (h : n.Each fun cs => value cs = value' cs) :
    n.total value = n.total value' := by
  have hdays : n.days.elim 0 value = n.days.elim 0 value' := by
    cases hd : n.days with
    | none => rfl
    | some d => exact h.days d hd
  rw [total, total, hdays, h.hours, h.minutes, h.seconds]

theorem ticks_congr {value value' : List Char → ℕ} (h : n.Each fun cs => value cs = value' cs) :
    n.ticks value = n.ticks value' := by
  rw [ticks, ticks]
  cases hf : n.fraction with
  | none => rfl
  | some f => exact congrArg (· * 10 ^ (7 - f.length)) (h.fraction f hf)

end Numerals

def Unbroken (cs : List Char) : Prop := '.' ∉ cs ∧ ':' ∉ cs

theorem unbroken_of_isRun {cs : List Char} (h : IsRun (unmarked cs)) : Unbroken cs :=
  ⟨fun hm => h.not_mem (by decide) ((Text.mem_unmarked (by decide)).mpr hm),
    fun hm => h.not_mem (by decide) ((Text.mem_unmarked (by decide)).mpr hm)⟩

theorem unbroken_of_word? {cs : List Char} {w : UInt64} (h : word? cs = some w) : Unbroken cs :=
  unbroken_of_isRun (word?_eq_some_iff.mp h).1

section

variable {n : Numerals} (h : n.Each Unbroken)
include h

theorem point_not_mem_clock : '.' ∉ n.clock := by
  simp [Numerals.clock, h.hours.1, h.minutes.1, h.seconds.1]

theorem atPoint_pointed : atPoint n.pointed = (n.clock, n.fraction) := by
  rw [atPoint, Numerals.pointed]
  cases n.fraction with
  | none =>
    rw [Option.elim_none, List.append_nil, Text.cut_eq_none (point_not_mem_clock h)]
  | some f => rw [Option.elim_some, Text.cut_append (point_not_mem_clock h)]

theorem days?_text :
    days? n.text = (n.days.elim (some 0) word?).map fun d => (d, n.pointed) := by
  obtain ⟨rest, hrest⟩ : ∃ rest, n.pointed = n.hours ++ ':' :: rest :=
    ⟨_, by rw [Numerals.pointed, Numerals.clock, List.append_assoc, List.cons_append]⟩
  rw [days?, Numerals.text]
  cases hdays : n.days with
  | none =>
    -- A point behind the first colon is that of the fraction.
    have hcut : Text.cut ':' n.pointed = some (n.hours, rest) := by
      rw [hrest]
      exact Text.cut_append h.hours.2 rest
    rw [Option.elim_none, List.nil_append, hcut]
    exact if_neg h.hours.1
  | some d =>
    have hd := h.days d hdays
    have hcolon : ':' ∉ d ++ '.' :: n.hours := by simp [hd.2, h.hours.2]
    have hmem : '.' ∈ d ++ '.' :: n.hours := List.mem_append_right _ List.mem_cons_self
    have hcut : Text.cut ':' (d ++ '.' :: n.pointed) = some (d ++ '.' :: n.hours, rest) := by
      rw [hrest, ← List.cons_append, ← List.append_assoc]
      exact Text.cut_append hcolon rest
    rw [Option.elim_some, List.append_assoc, List.singleton_append, hcut]
    simp only [if_pos hmem, Text.cut_append hd.1, Option.elim_some]

theorem clock?_clock {hours left : UInt64} :
    clock? n.clock = some (hours, left) ↔
      word? n.hours = some hours ∧ ∃ m s, word? n.minutes = some m ∧ word? n.seconds = some s ∧
        (m.toNat < 60 ∧ s.toNat < 60) ∧ left.toNat = m.toNat * 60 + s.toNat := by
  simp only [clock?, Numerals.clock, Text.cut_append h.hours.2, Text.cut_append h.minutes.2,
    Option.bind_eq_bind, Option.bind_some, Option.bind_eq_some_iff]
  constructor
  · rintro ⟨hours', hhours, m, hm, s, hs, hleft⟩
    obtain ⟨hlt, rfl, hsum⟩ := minutesSeconds_eq_some_iff.mp hleft
    exact ⟨hhours, m, s, hm, hs, hlt, hsum⟩
  · rintro ⟨hhours, m, s, hm, hs, hlt, hsum⟩
    exact ⟨hours, hhours, m, hm, s, hs, minutesSeconds_eq_some_iff.mpr ⟨hlt, rfl, hsum⟩⟩

end

theorem ext {t u : TimeSpan} (hseconds : t.seconds = u.seconds) (hnanos : t.nanos = u.nanos) :
    t = u := by
  cases t
  cases u
  subst hseconds hnanos
  rfl

theorem ofTicks_eq_iff {seconds ticks : UInt64} {t : TimeSpan} :
    ofTicks seconds ticks = t ↔
      t.seconds = seconds.toNat ∧ t.nanos = ticks.toNat % ticksPerSecond * nanosPerTick := by
  rw [← toNat_nanosOf]
  constructor
  · rintro rfl
    exact ⟨rfl, rfl⟩
  · rintro ⟨hseconds, hnanos⟩
    exact ext hseconds.symm hnanos.symm

theorem read?_eq_some_iff {text : List Char} {t : TimeSpan} :
    read? text = some t ↔
      ∃ days rest, days? text = some (days, rest) ∧
      ∃ hours left, clock? (atPoint rest).1 = some (hours, left) ∧
      ∃ ticks, fractionTicks? (atPoint rest).2 = some ticks ∧
      ∃ seconds, seconds? days hours left = some seconds ∧ ofTicks seconds ticks = t := by
  simp only [read?, Option.bind_eq_bind, Option.bind_eq_some_iff, Option.pure_def, Option.some_inj,
    Prod.exists]

/-- What a span's numerals come to. -/
structure Numerals.Denotes (n : Numerals) (t : TimeSpan) : Prop where
  runs : n.Each fun cs => IsRun (unmarked cs)
  minutes : number n.minutes < 60
  seconds : number n.seconds < 60
  fraction : ∀ f ∈ n.fraction, f.length ≤ 7
  total : t.seconds = n.total number
  ticks : t.nanos = n.ticks number * nanosPerTick

theorem Numerals.Denotes.unbroken {n : Numerals} {t : TimeSpan} (h : n.Denotes t) :
    n.Each Unbroken :=
  h.runs.mono fun _ hrun => unbroken_of_isRun hrun

theorem dayWord_eq_some_iff {days : Option (List Char)} {w : UInt64} :
    days.elim (some 0) word? = some w ↔
      (∀ d ∈ days, IsRun (unmarked d)) ∧ days.elim 0 number = w.toNat := by
  cases days with
  | none =>
    rw [Option.elim_none, Option.elim_none, Option.some_inj, ← UInt64.toNat_inj]
    simp
  | some d =>
    simp only [Option.elim_some, Option.mem_some_iff, forall_eq']
    exact word?_eq_some_iff

theorem denotes_of_read?_text {n : Numerals} (h : n.Each Unbroken) {t : TimeSpan}
    (ht : read? n.text = some t) : n.Denotes t := by
  obtain ⟨d, rest, hd, hours, left, hclock, ticks, hticks, seconds, hseconds, ht⟩ :=
    read?_eq_some_iff.mp ht
  obtain ⟨_, hday, hrest⟩ := Option.map_eq_some_iff.mp (days?_text h ▸ hd)
  obtain ⟨rfl, rfl⟩ := Prod.mk.inj hrest
  rw [atPoint_pointed h] at hclock hticks
  obtain ⟨hhours, m, s, hm, hs, ⟨hmlt, hslt⟩, hleft⟩ := (clock?_clock h).mp hclock
  obtain ⟨hdays, hdaysValue⟩ := dayWord_eq_some_iff.mp hday
  obtain ⟨hfraction, hticksValue⟩ := fractionTicks?_eq_some_iff.mp hticks
  obtain ⟨htotal, hnanos⟩ := ofTicks_eq_iff.mp ht
  have hsum := seconds?_eq_some_iff.mp hseconds
  have hminutes := number_of_word? hm
  have hsecond := number_of_word? hs
  refine ⟨⟨hdays, (word?_eq_some_iff.mp hhours).1, (word?_eq_some_iff.mp hm).1,
    (word?_eq_some_iff.mp hs).1, fun f hf => (hfraction f hf).1⟩, by omega, by omega,
    fun f hf => (hfraction f hf).2, ?_, ?_⟩
  · rw [Numerals.total, hdaysValue, number_of_word? hhours, hminutes, hsecond]
    omega
  · have hlt := ticks_lt_second hfraction
    rw [hnanos, hticksValue, Nat.mod_eq_of_lt hlt, Numerals.ticks]

theorem Numerals.Denotes.lt_bound {n : Numerals} {t : TimeSpan} (h : n.Denotes t) :
    n.days.elim 0 number < bound ∧ number n.hours < bound ∧ number n.minutes < bound ∧
      number n.seconds < bound := by
  have htotal := h.total
  have hlt := t.seconds_lt
  rw [Numerals.total] at htotal
  rw [bound]
  omega

theorem clock?_of_denotes {n : Numerals} {t : TimeSpan} (h : n.Denotes t) :
    clock? n.clock = some (.ofNat (number n.hours),
      .ofNat (number n.minutes * 60 + number n.seconds)) := by
  obtain ⟨-, hhours, hminutes, hseconds⟩ := h.lt_bound
  have hm := h.minutes
  have hs := h.seconds
  rw [clock?_clock h.unbroken]
  refine ⟨word?_of_lt h.runs.hours hhours, _, _, word?_of_lt h.runs.minutes hminutes,
    word?_of_lt h.runs.seconds hseconds, ?_, ?_⟩
  · rw [toNat_ofNat hminutes, toNat_ofNat hseconds]
    exact ⟨hm, hs⟩
  · rw [toNat_ofNat hminutes, toNat_ofNat hseconds, toNat_ofNat (by rw [bound]; omega)]

theorem seconds?_of_denotes {n : Numerals} {t : TimeSpan} (h : n.Denotes t) :
    seconds? (.ofNat (n.days.elim 0 number)) (.ofNat (number n.hours))
      (.ofNat (number n.minutes * 60 + number n.seconds)) = some (.ofNat t.seconds) := by
  obtain ⟨hdays, hhours, -, -⟩ := h.lt_bound
  have hm := h.minutes
  have hs := h.seconds
  have hleft : number n.minutes * 60 + number n.seconds < bound := by
    rw [bound]
    omega
  rw [seconds?_eq_some_iff, toNat_ofNat t.seconds_lt, toNat_ofNat hdays, toNat_ofNat hhours,
    toNat_ofNat hleft, h.total, Numerals.total]
  omega

theorem read?_text_of_denotes {n : Numerals} {t : TimeSpan} (h : n.Denotes t) :
    read? n.text = some t := by
  have hfraction : ∀ f ∈ n.fraction, IsRun (unmarked f) ∧ f.length ≤ 7 := fun f hf =>
    ⟨h.runs.fraction f hf, h.fraction f hf⟩
  have hlt : n.ticks number < ticksPerSecond := ticks_lt_second hfraction
  have hticks := toNat_ofNat (Nat.lt_trans hlt (by decide))
  have hday := dayWord_eq_some_iff.mpr ⟨h.runs.days, (toNat_ofNat h.lt_bound.1).symm⟩
  rw [read?_eq_some_iff]
  refine ⟨_, n.pointed, ?_, _, _, ?_, .ofNat (n.ticks number), ?_, _, seconds?_of_denotes h, ?_⟩
  · rw [days?_text h.unbroken, hday, Option.map_some]
  · rw [atPoint_pointed h.unbroken]
    exact clock?_of_denotes h
  · rw [atPoint_pointed h.unbroken]
    exact fractionTicks?_eq_some_iff.mpr ⟨hfraction, hticks⟩
  · rw [ofTicks_eq_iff, toNat_ofNat t.seconds_lt, hticks, Nat.mod_eq_of_lt hlt]
    exact ⟨rfl, h.ticks⟩

theorem read?_text_iff {n : Numerals} (h : n.Each Unbroken) {t : TimeSpan} :
    read? n.text = some t ↔ n.Denotes t :=
  ⟨denotes_of_read?_text h, read?_text_of_denotes⟩

theorem days_of_days? {text rest : List Char} {d : UInt64} (h : days? text = some (d, rest)) :
    ∃ days : Option (List Char),
      (text = (days.elim [] fun d => d ++ ['.']) ++ rest) ∧ ∀ d ∈ days, Unbroken d := by
  rw [days?] at h
  split at h
  · cases h
  · split at h
    · split at h
      · cases h
      · rename_i days clock hcut
        obtain ⟨w, hw, hrest⟩ := Option.map_eq_some_iff.mp h
        obtain ⟨-, rfl⟩ := Prod.mk.inj hrest
        refine ⟨some days, ?_, ?_⟩
        · rw [Option.elim_some, List.append_assoc, List.singleton_append]
          exact (Text.cut_eq_some hcut).1
        · intro d hd
          cases hd
          exact unbroken_of_word? hw
    · cases h
      exact ⟨none, rfl, nofun⟩

theorem atPoint_eq (text : List Char) :
    text = (atPoint text).1 ++ (atPoint text).2.elim [] fun f => '.' :: f := by
  rw [atPoint]
  split
  · rename_i hcut
    exact (Text.cut_eq_some hcut).1
  · exact (List.append_nil text).symm

theorem parts_of_clock? {text : List Char} {hours left : UInt64}
    (h : clock? text = some (hours, left)) :
    ∃ hs ms ss, text = hs ++ ':' :: (ms ++ ':' :: ss) ∧
      Unbroken hs ∧ Unbroken ms ∧ Unbroken ss := by
  simp only [clock?, Option.bind_eq_bind, Option.bind_eq_some_iff, Prod.exists] at h
  obtain ⟨hs, rest, hcut, ms, ss, hcut', _, hhs, _, hms, _, hss, -⟩ := h
  obtain rfl := (Text.cut_eq_some hcut').1
  exact ⟨hs, ms, ss, (Text.cut_eq_some hcut).1, unbroken_of_word? hhs, unbroken_of_word? hms,
    unbroken_of_word? hss⟩

theorem unbroken_of_fractionTicks? {fraction : Option (List Char)} {ticks : UInt64}
    (h : fractionTicks? fraction = some ticks) : ∀ f ∈ fraction, Unbroken f := fun f hf =>
  unbroken_of_isRun ((fractionTicks?_eq_some_iff.mp h).1 f hf).1

theorem numerals_of_read? {text : List Char} {t : TimeSpan} (h : read? text = some t) :
    ∃ n : Numerals, text = n.text ∧ n.Each Unbroken := by
  obtain ⟨_, rest, hdays, _, _, hclock, _, hticks, -⟩ := read?_eq_some_iff.mp h
  obtain ⟨days, htext, hdays⟩ := days_of_days? hdays
  obtain ⟨hs, ms, ss, hparts, hhs, hms, hss⟩ := parts_of_clock? hclock
  have hrest := atPoint_eq rest
  rw [hparts] at hrest
  exact ⟨⟨days, hs, ms, ss, (atPoint rest).2⟩, htext.trans (congrArg _ hrest), hdays, hhs, hms, hss,
    unbroken_of_fractionTicks? hticks⟩

theorem parse_eq_ok_iff {text : String} {t : TimeSpan} :
    parse text = .ok t ↔ read? text.toList = some t := by
  rw [parse]
  cases read? text.toList with
  | none => simp
  | some u => simp

theorem parse_eq_error {text : String} (h : ∀ t, parse text ≠ .ok t) :
    parse text = .error ⟨text⟩ := by
  rw [parse]
  cases hread : read? text.toList with
  | none => rfl
  | some t => exact absurd (parse_eq_ok_iff.mpr hread) (h t)

theorem parse_eq_ok_iff_denotes {text : String} {t : TimeSpan} :
    parse text = .ok t ↔ ∃ n : Numerals, text.toList = n.text ∧ n.Denotes t := by
  rw [parse_eq_ok_iff]
  constructor
  · intro h
    obtain ⟨n, htext, hn⟩ := numerals_of_read? h
    exact ⟨n, htext, denotes_of_read?_text hn (htext ▸ h)⟩
  · rintro ⟨n, htext, hn⟩
    rw [htext]
    exact read?_text_of_denotes hn

theorem parse_text_iff {n : Numerals} (h : n.Each Unbroken) {t : TimeSpan} :
    parse (String.ofList n.text) = .ok t ↔ n.Denotes t := by
  rw [parse_eq_ok_iff, String.toList_ofList, read?_text_iff h]

structure Numerals.Fits (n : Numerals) : Prop where
  days : ∀ d ∈ n.days, ofDigits d < bound
  hours : ofDigits n.hours < bound
  minutes : ofDigits n.minutes < 60
  seconds : ofDigits n.seconds < 60
  total : n.total ofDigits < bound

theorem ticks_lt {n : Numerals} (hdigits : n.Each IsRun)
    (hfraction : ∀ f ∈ n.fraction, f.length ≤ 7) : n.ticks ofDigits < ticksPerSecond := by
  rw [← Numerals.ticks_congr (hdigits.mono fun _ h => number_of_isRun h)]
  exact ticks_lt_second fun f hf =>
    ⟨Text.isRun_unmarked (hdigits.fraction f hf), hfraction f hf⟩

theorem denotes_iff_fits {n : Numerals} (hdigits : n.Each IsRun)
    (hfraction : ∀ f ∈ n.fraction, f.length ≤ 7) {t : TimeSpan} :
    n.Denotes t ↔
      n.Fits ∧ t.seconds = n.total ofDigits ∧ t.nanos = n.ticks ofDigits * nanosPerTick := by
  have hnumbers : n.Each fun cs => number cs = ofDigits cs :=
    hdigits.mono fun _ h => number_of_isRun h
  have hruns := hdigits.mono fun _ h => Text.isRun_unmarked h
  have htotal := Numerals.total_congr hnumbers
  have hticks := Numerals.ticks_congr hnumbers
  constructor
  · intro h
    have hlt := t.seconds_lt
    obtain ⟨hdays, hhours, hminutes, hseconds⟩ := h.lt_bound
    refine ⟨⟨fun d hd => ?_, hnumbers.hours ▸ hhours, hnumbers.minutes ▸ h.minutes,
      hnumbers.seconds ▸ h.seconds, ?_⟩, htotal ▸ h.total, hticks ▸ h.ticks⟩
    · rw [Option.mem_def.mp hd, Option.elim_some, hnumbers.days d hd] at hdays
      exact hdays
    · rw [← htotal, ← h.total]
      exact hlt
  · rintro ⟨hfits, hseconds, hnanos⟩
    exact ⟨hruns, hnumbers.minutes ▸ hfits.minutes, hnumbers.seconds ▸ hfits.seconds, hfraction,
      hseconds.trans htotal.symm, by rw [hnanos, hticks]⟩

/-- Digits between the marks of a span's text are read exactly or refused, and refused only where a
number is none of a clock or does not fit a word. -/
theorem digits_read_exactly (n : Numerals) (hdigits : n.Each IsRun)
    (hfraction : ∀ f ∈ n.fraction, f.length ≤ 7) :
    ((∃ t, parse (String.ofList n.text) = .ok t) ↔ n.Fits) ∧
    (∀ t, parse (String.ofList n.text) = .ok t →
      t.seconds = n.total ofDigits ∧ t.nanos = n.ticks ofDigits * 100) ∧
    (¬ n.Fits → parse (String.ofList n.text) = .error ⟨String.ofList n.text⟩) := by
  have hread {t : TimeSpan} := (parse_text_iff (t := t)
    (hdigits.mono fun _ h => unbroken_of_isRun (Text.isRun_unmarked h))).trans
    (denotes_iff_fits hdigits hfraction)
  refine ⟨⟨fun ⟨t, ht⟩ => (hread.mp ht).1, fun hfits => ?_⟩, fun t ht => (hread.mp ht).2,
    fun hfits => parse_eq_error fun t ht => hfits (hread.mp ht).1⟩
  have hnanos : n.ticks ofDigits * nanosPerTick < 1000000000 := by
    have hlt := ticks_lt hdigits hfraction
    rw [ticksPerSecond] at hlt
    rw [nanosPerTick]
    omega
  exact ⟨⟨_, _, hfits.total, hnanos⟩, hread.mpr ⟨hfits, rfl, rfl⟩⟩

def lastSecond : Numerals :=
  ⟨some ['2', '1', '3', '5', '0', '3', '9', '8', '2', '3', '3', '4', '6', '0', '1'],
    ['0', '0', '7'], ['0', '0'], ['1', '5'], some ['0', '0', '0', '0', '0', '0', '1']⟩

theorem digits_read_exactly_last :
    lastSecond.Each IsRun ∧ (∀ f ∈ lastSecond.fraction, f.length ≤ 7) ∧ lastSecond.Fits ∧
    ∃ t, parse "213503982334601.007:00:15.0000001" = .ok t ∧
      t.seconds = 18446744073709551615 ∧ t.nanos = 100 := by
  have hdigits : lastSecond.Each IsRun := ⟨by decide, by decide, by decide, by decide, by decide⟩
  have hfraction : ∀ f ∈ lastSecond.fraction, f.length ≤ 7 := by decide
  have hfits : lastSecond.Fits := ⟨by decide, by decide, by decide, by decide, by decide⟩
  obtain ⟨hread, hexact, -⟩ := digits_read_exactly lastSecond hdigits hfraction
  obtain ⟨t, ht⟩ := hread.mpr hfits
  exact ⟨hdigits, hfraction, hfits, t, ht, hexact t ht⟩

def InForm (text : String) : Prop :=
  ∃ n : Numerals, text.toList = n.text ∧ n.Each IsRun ∧ ∀ f ∈ n.fraction, f.length ≤ 7

theorem not_mem_text_iff {n : Numerals} {c : Char} (hpoint : c ≠ '.') (hcolon : c ≠ ':') :
    c ∉ n.text ↔ n.Each fun cs => c ∉ cs := by
  have hdays : (c ∉ n.days.elim [] fun d => d ++ ['.']) ↔ ∀ d ∈ n.days, c ∉ d := by
    cases n.days <;> simp [hpoint]
  have hfraction : (c ∉ n.fraction.elim [] fun f => '.' :: f) ↔ ∀ f ∈ n.fraction, c ∉ f := by
    cases n.fraction <;> simp [hpoint]
  simp only [Numerals.text, Numerals.pointed, Numerals.clock, List.mem_append, List.mem_cons,
    not_or, hdays, hfraction, hcolon, not_false_eq_true, true_and]
  constructor
  · rintro ⟨hd, ⟨hh, hm, hs⟩, hf⟩
    exact ⟨hd, hh, hm, hs, hf⟩
  · rintro ⟨hd, hh, hm, hs, hf⟩
    exact ⟨hd, ⟨hh, hm, hs⟩, hf⟩

theorem plus_not_mem_of_inForm {text : String} (h : InForm text) : '+' ∉ text.toList := by
  obtain ⟨n, htext, hdigits, -⟩ := h
  rw [htext, not_mem_text_iff (by decide) (by decide)]
  exact hdigits.mono fun _ hrun => hrun.not_mem (by decide)

/-- What is read has the form of a span's text, but that each of its numbers may have a plus sign in
front: the form is kept just where there is none. -/
theorem read_in_form_unless_signed {text : String} {t : TimeSpan} (h : parse text = .ok t) :
    (∃ n : Numerals, text.toList = n.text ∧ (n.Each fun cs => IsRun (unmarked cs)) ∧
      ∀ f ∈ n.fraction, f.length ≤ 7) ∧
    (InForm text ↔ '+' ∉ text.toList) := by
  obtain ⟨n, htext, hn⟩ := parse_eq_ok_iff_denotes.mp h
  refine ⟨⟨n, htext, hn.runs, hn.fraction⟩, plus_not_mem_of_inForm, fun hplus => ?_⟩
  rw [htext, not_mem_text_iff (by decide) (by decide)] at hplus
  have hdigits (cs : List Char) (hcs : '+' ∉ cs ∧ IsRun (unmarked cs)) : IsRun cs := by
    rw [← Text.unmarked_of_not_mem hcs.1]
    exact hcs.2
  exact ⟨n, htext, (hplus.and hn.runs).mono hdigits, hn.fraction⟩

theorem read_in_form_unless_signed_fraction :
    (∃ t, parse "1.02:03:04.+5" = .ok t) ∧ ¬ InForm "1.02:03:04.+5" := by
  have hread : ∃ t, parse "1.02:03:04.+5" = .ok t :=
    ⟨⟨93784, 50000000, by decide, by decide⟩, by decide⟩
  obtain ⟨t, ht⟩ := hread
  obtain ⟨-, hform⟩ := read_in_form_unless_signed ht
  exact ⟨⟨t, ht⟩, fun h => hform.mp h (by decide)⟩

theorem signed_hours_read : (∃ t, parse "+1:00:00" = .ok t) ∧ ¬ InForm "+1:00:00" :=
  ⟨⟨⟨3600, 0, by decide, by decide⟩, by decide⟩, fun h => plus_not_mem_of_inForm h (by decide)⟩

end HostedTests.Clock.TimeSpan
