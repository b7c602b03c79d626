import HostedTests.Proofs.Agreement
import HostedTests.Proofs.Clock.Timestamp
import Mathlib.Data.List.TakeWhile

namespace HostedTests.Clock.Timestamp

open Text (Spells)

theorem number_fixed {k n : ℕ} {cs rest : List Char} (h : number k k cs = .ok (n, rest)) :
    ∃ ds, cs = ds ++ rest ∧ Spells n ds ∧ ds.length = k := by
  rw [number] at h
  split at h
  · cases h
  · split at h
    · cases h
    · rename_i hleast
      have hdigits : (cs.take k).takeWhile Text.isDigit = cs.take k := by
        apply (List.takeWhile_prefix Text.isDigit).eq_of_length_le
        have htake := List.length_take_le k cs
        omega
      have hlength : (cs.take k).length = k := by
        have htake := List.length_take_le k cs
        rw [hdigits] at hleast
        omega
      rw [hdigits] at h
      cases h
      refine ⟨cs.take k, ?_, ⟨?_, rfl⟩, hlength⟩
      · rw [hlength, List.take_append_drop]
      · exact List.takeWhile_eq_self_iff.mp hdigits

theorem refines_part (low high : ℕ) (cs : List Char) :
    Refines (numberWithin 2 2 low high cs) (part low high cs) := by
  rw [part, numberWithin, numberWithin]
  rintro ⟨m, rest⟩ h
  cases hnumber : number 2 2 cs with
  | error f =>
    rw [hnumber] at h
    cases h
  | ok p =>
    obtain ⟨n, rest'⟩ := p
    obtain ⟨ds, rfl, hspells, hlength⟩ := number_fixed hnumber
    have hne : ds ≠ [] := List.ne_nil_of_length_pos (by omega)
    have hread : number 1 2 (ds ++ rest') = .ok (n, rest') :=
      number_spells hspells (by omega) (by omega) (.inl hlength)
    rw [hnumber] at h
    rw [Text.trimStart_spells hspells hne, hread]
    exact h

theorem refines_mark {c : Char} (h : Text.isBlank c = false) (cs : List Char) :
    Refines (char c cs) (mark c cs) := by
  intro rest hrest
  cases cs with
  | nil => cases hrest
  | cons d cs =>
    rw [char] at hrest
    split at hrest
    · rename_i hd
      cases hrest
      rw [hd]
      exact mark_cons h _
    · cases hrest

theorem year_of_number {n : ℕ} {cs rest : List Char} (h : number 4 4 cs = .ok (n, rest)) :
    year (Text.trimStart cs) = .ok ((n : Int), rest) := by
  obtain ⟨ds, rfl, hspells, hlength⟩ := number_fixed h
  rw [Text.trimStart_spells hspells (List.ne_nil_of_length_pos (by omega))]
  exact year_plain hspells hlength rest

theorem isDigit_of_twoDigits {top : Char} {cs : List Char} {r : ℕ × List Char}
    (h : twoDigits top cs = .ok r) : ∃ d rest, cs = d :: rest ∧ Text.isDigit d := by
  match cs, h with
  | a :: b :: rest, h =>
    rw [twoDigits] at h
    split at h
    · rename_i hdigits
      exact ⟨a, b :: rest, rfl, hdigits.1⟩
    · cases h
  | [a], h =>
    rw [twoDigits] at h
    split at h <;> cases h
  | [], h => cases h

theorem skip_colon {cs rest : List Char} (h : char ':' cs = .ok rest)
    (hdigit : ∃ d more, rest = d :: more ∧ Text.isDigit d) :
    cs.dropWhile isColonOrBlank = rest := by
  obtain ⟨d, more, rfl, hd⟩ := hdigit
  have hstop : isColonOrBlank d = false := by
    have hcolon : d ≠ ':' := by
      rintro rfl
      exact absurd hd (by decide)
    rw [isColonOrBlank, Text.not_isBlank_of_isDigit hd, beq_false_of_ne hcolon, Bool.or_false]
  cases cs with
  | nil => cases h
  | cons c cs =>
    rw [char] at h
    split at h
    · rename_i hc
      cases h
      rw [hc, List.dropWhile_cons_of_pos (by decide), List.dropWhile_cons_of_neg (by simp [hstop])]
    · cases h

theorem refines_skip {β : Type} (cs : List Char) (k : ℕ × List Char → Except Fault β) :
    Refines (char ':' cs >>= fun cs => twoDigits '5' cs >>= k)
      (Except.ok (cs.dropWhile isColonOrBlank) >>= fun cs => twoDigits '5' cs >>= k) := by
  intro b h
  cases hcolon : char ':' cs with
  | error f =>
    rw [hcolon] at h
    cases h
  | ok rest =>
    rw [hcolon] at h
    change (twoDigits '5' rest >>= k) = .ok b at h
    cases hminutes : twoDigits '5' rest with
    | error f =>
      rw [hminutes] at h
      cases h
    | ok r =>
      rw [skip_colon hcolon (isDigit_of_twoDigits hminutes)]
      exact h

theorem refines_offset_skip (cs : List Char) :
    Refines (offset (char ':') cs)
      (offset (fun cs => .ok (cs.dropWhile isColonOrBlank)) cs) := by
  cases cs with
  | nil => exact .refl _
  | cons c cs =>
    rw [offset, offset]
    split
    · exact .refl _
    · split
      · refine Refines.bind (.refl _) ?_
        rintro ⟨hours, cs⟩
        exact refines_skip cs _
      · exact .refl _

theorem lenientOffset_marked {c : Char}
    (h : c = 'Z' ∨ c = 'z' ∨ c = '+' ∨ c = '-' ∨ c = '\u2212') (cs : List Char) :
    lenientOffset (Text.trimStart (c :: cs)) =
      offset (fun cs => .ok (cs.dropWhile isColonOrBlank)) (c :: cs) := by
  have hblank : Text.isBlank c = false := by rcases h with rfl | rfl | rfl | rfl | rfl <;> decide
  have hutc : c.toUpper ≠ 'U' := by rcases h with rfl | rfl | rfl | rfl | rfl <;> decide
  rw [Text.trimStart_cons hblank]
  unfold lenientOffset
  split
  · rename_i he
    cases he
    exact if_neg fun hall => hutc hall.1
  · rfl

theorem refines_offset (cs : List Char) :
    Refines (offset (char ':') cs) (lenientOffset (Text.trimStart cs)) := by
  intro r h
  cases cs with
  | nil => cases h
  | cons c cs =>
    have hc : c = 'Z' ∨ c = 'z' ∨ c = '+' ∨ c = '-' ∨ c = '\u2212' := by
      by_contra hc
      push Not at hc
      obtain ⟨hZ, hz, hplus, hminus, hsign⟩ := hc
      rw [offset, if_neg (not_or.mpr ⟨hZ, hz⟩),
        if_neg (not_or.mpr ⟨hplus, not_or.mpr ⟨hminus, hsign⟩⟩)] at h
      cases h
    rw [lenientOffset_marked hc]
    exact refines_offset_skip (c :: cs) r h

theorem lenient_of_strict {text : List Char} {i : Instant} (h : strict text = .ok i) :
    lenient text = .ok i := by
  cases hnumber : number 4 4 text with
  | error f =>
    rw [strict, hnumber] at h
    cases h
  | ok p =>
    obtain ⟨n, cs⟩ := p
    suffices hrefines : Refines (strict text) (lenient text) from hrefines i h
    rw [strict, lenient, hnumber, year_of_number hnumber]
    refine Refines.bind (refines_mark (by decide) cs) fun cs => ?_
    refine Refines.bind (refines_part 1 12 cs) ?_
    rintro ⟨month, cs⟩
    refine Refines.bind (refines_mark (by decide) cs) fun cs => ?_
    refine Refines.bind (refines_part 1 31 cs) ?_
    rintro ⟨day, cs⟩
    refine Refines.bind (.refl (dateEnd cs)) fun cs => ?_
    refine Refines.bind (refines_part 0 23 cs) ?_
    rintro ⟨hour, cs⟩
    refine Refines.bind (refines_mark (by decide) cs) fun cs => ?_
    refine Refines.bind (refines_part 0 59 cs) ?_
    rintro ⟨minute, cs⟩
    refine Refines.bind (refines_mark (by decide) cs) fun cs => ?_
    refine Refines.bind (refines_part 0 60 cs) ?_
    rintro ⟨second, cs⟩
    refine Refines.bind (.refl (fraction cs)) ?_
    rintro ⟨nanos, cs⟩
    refine Refines.bind (refines_offset cs) ?_
    rintro ⟨offset, cs⟩
    intro i h
    cases cs with
    | nil => exact h
    | cons c cs => cases h

theorem toUtc_strict {text : String} {i : Instant} (h : strict text.toList = .ok i) :
    toUtc text = i.format := by
  rw [toUtc, h]

theorem toUtc_other {text : String} {f : Fault} (h : strict text.toList = .error f) :
    toUtc text = text := by
  rw [toUtc, h]

theorem toUtc_eq_self_iff {text : String} :
    toUtc text = text ↔ ∀ i, strict text.toList = .ok i → i.format = text := by
  cases hstrict : strict text.toList with
  | error f =>
    rw [toUtc_other hstrict]
    exact iff_of_true rfl fun i hi => absurd hi (by simp)
  | ok i =>
    rw [toUtc_strict hstrict]
    exact ⟨fun h j hj => Except.ok.inj hj ▸ h, fun h => h i rfl⟩

theorem toUtc_toUtc (text : String) : toUtc (toUtc text) = toUtc text := by
  cases hstrict : strict text.toList with
  | error f => rw [toUtc_other hstrict, toUtc_other hstrict]
  | ok i => rw [toUtc_strict hstrict, toUtc_format]

theorem lenient_format (i : Instant) : lenient i.format.toList = .ok i := by
  rw [Instant.format.eq_1, String.toList_ofList, lenient_render]

theorem lenient_toUtc (text : String) : lenient (toUtc text).toList = lenient text.toList := by
  cases hstrict : strict text.toList with
  | error f => rw [toUtc_other hstrict]
  | ok i => rw [toUtc_strict hstrict, lenient_format, lenient_of_strict hstrict]

end HostedTests.Clock.Timestamp
