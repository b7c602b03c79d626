import HostedTests.Clock.Instant
import Mathlib.Data.Nat.Notation

namespace HostedTests.Clock

namespace TimeSpan

theorem totalNanos_ofNanos? {n : Int} {t : TimeSpan} (h : ofNanos? n = some t) :
    t.totalNanos = n := by
  rw [ofNanos?] at h
  split at h
  · cases h
    simp only [totalNanos]
    omega
  · cases h

theorem totalNanos_getD_ofNanos? {n : Int} (h : n < bound * 1000000000) :
    ((ofNanos? n).getD zero).totalNanos = max 0 n := by
  by_cases hn : 0 ≤ n
  · have hsome : (ofNanos? n).isSome = true := by
      rw [ofNanos?, dif_pos ⟨hn, h⟩]
      rfl
    obtain ⟨t, ht⟩ := Option.isSome_iff_exists.mp hsome
    rw [ht, Option.getD_some, totalNanos_ofNanos? ht, Int.max_eq_right hn]
  · have hnone : ofNanos? n = none := dif_neg fun hrange => hn hrange.1
    rw [hnone, Option.getD_none, Int.max_eq_left (by omega)]
    rfl

theorem totalNanos_since (later earlier : TimeSpan) :
    (later.since earlier).totalNanos = max 0 (later.totalNanos - earlier.totalNanos) := by
  apply totalNanos_getD_ofNanos?
  have hseconds := later.seconds_lt
  have hnanos := later.nanos_lt
  simp only [totalNanos, bound]
  omega

end TimeSpan

theorem daysBefore_succ {year : Int} {month : Nat} (h : 1 ≤ month) :
    daysBefore year (month + 1) = daysBefore year month + daysInMonth year month := by
  obtain ⟨n, rfl⟩ := Nat.exists_eq_add_of_le' h
  rfl

theorem daysBefore_december (year : Int) :
    daysBefore year 12 = if isLeapYear year then 335 else 334 := by
  cases hleap : isLeapYear year <;> simp [daysBefore, daysInMonth, hleap]

theorem daysInMonth_le (year : Int) (month : Nat) : daysInMonth year month ≤ 31 := by
  unfold daysInMonth
  cases isLeapYear year <;> split <;> simp

theorem daysBefore_le (year : Int) (month : Nat) : daysBefore year month ≤ month * 31 := by
  induction month using daysBefore.induct with
  | case1 => exact Nat.le_refl 0
  | case2 => exact Nat.zero_le _
  | case3 month ih =>
    have hlength := daysInMonth_le year (month + 1)
    rw [daysBefore]
    omega

theorem isLeapYear_iff (year : Int) :
    isLeapYear year = true ↔ year % 4 = 0 ∧ (year % 100 ≠ 0 ∨ year % 400 = 0) := by
  simp [isLeapYear]

namespace Date

theorem number_eq (d : Date) : d.number =
    (d.year - 1) * 365 + (d.year - 1) / 4 - (d.year - 1) / 100 + (d.year - 1) / 400 +
      daysBefore d.year d.month + d.day := rfl

theorem number_next? {d next : Date} (h : d.next? = some next) : next.number = d.number + 1 := by
  obtain ⟨-, ⟨hmonth, hlast⟩, -, hday⟩ := d.valid
  have hof {year : Int} {month day : Nat} (h : of? year month day = some next) :
      next.year = year ∧ next.month = month ∧ next.day = day := by
    rw [of?] at h
    split at h
    · cases h
      exact ⟨rfl, rfl, rfl⟩
    · cases h
  rw [next?] at h
  split at h
  · obtain ⟨hy, hm, hd⟩ := hof h
    rw [number_eq, number_eq, hy, hm, hd]
    omega
  · rename_i hend
    split at h
    · obtain ⟨hy, hm, hd⟩ := hof h
      rw [number_eq, number_eq, hy, hm, hd, daysBefore_succ hmonth]
      omega
    · obtain ⟨hy, hm, hd⟩ := hof h
      have hdecember : d.month = 12 := by omega
      have hlength : daysInMonth d.year 12 = 31 := rfl
      have hnone : daysBefore (d.year + 1) 1 = 0 := rfl
      have hleap := isLeapYear_iff d.year
      rw [hdecember, hlength] at hday hend
      rw [number_eq, number_eq, hy, hm, hd, hdecember, hnone, daysBefore_december]
      split <;> rename_i hyear <;> rw [hleap] at hyear <;> omega

theorem number_bounds (d : Date) : -95760000 < d.number ∧ d.number < 95760000 := by
  obtain ⟨⟨hfirst, hlast⟩, ⟨-, hmonth⟩, -, hday⟩ := d.valid
  have hbefore := daysBefore_le d.year d.month
  have hlength := daysInMonth_le d.year d.month
  rw [firstYear] at hfirst
  rw [lastYear] at hlast
  rw [number_eq]
  omega

end Date

namespace Instant

theorem totalNanos_since (later earlier : Instant) :
    (later.since earlier).totalNanos = max 0 (later.totalNanos - earlier.totalNanos) := by
  apply TimeSpan.totalNanos_getD_ofNanos?
  have hlater := later.date.number_bounds
  have hearlier := earlier.date.number_bounds
  have hminute := later.time.minuteOfDay_lt
  have hvalid := later.time.valid
  simp only [totalNanos, Time.nanosOfDay, TimeSpan.bound]
  omega

end Instant

end HostedTests.Clock
