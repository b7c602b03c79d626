import HostedTests.Channel.Frame
import HostedTests.Proofs.Text.Utf8
import Mathlib.Algebra.Ring.Nat
import Mathlib.Data.List.Forall2
import Mathlib.Tactic.IntervalCases

namespace HostedTests.Frame

inductive Grouping : ℕ → List UInt8 → Prop where
  | last (b : UInt8) : b.toNat < 128 → Grouping b.toNat [b]
  | more (b : UInt8) (n : ℕ) (octets : List UInt8) :
    128 ≤ b.toNat → Grouping n octets → Grouping (b.toNat - 128 + 128 * n) (b :: octets)

theorem toNat_toUInt8 {n : ℕ} (h : n < 256) : n.toUInt8.toNat = n := Text.Utf8.toNat_ofNat h

theorem prefixOf_small {n : ℕ} (h : n < 128) : prefixOf n = [n.toUInt8] := by
  rw [prefixOf, if_pos h]

theorem prefixOf_large {n : ℕ} (h : ¬ n < 128) :
    prefixOf n = (n % 128 + 128).toUInt8 :: prefixOf (n / 128) := by
  rw [prefixOf, if_neg h]

theorem grouping_prefixOf (n : ℕ) : Grouping n (prefixOf n) := by
  induction n using Nat.strongRecOn with
  | ind n ih =>
    by_cases h : n < 128
    · have hlast := Grouping.last n.toUInt8
      rw [toNat_toUInt8 (by omega)] at hlast
      rw [prefixOf_small h]
      exact hlast h
    · have hmore := Grouping.more (n % 128 + 128).toUInt8 (n / 128) (prefixOf (n / 128))
      rw [toNat_toUInt8 (by omega)] at hmore
      have hn : n % 128 + 128 - 128 + 128 * (n / 128) = n := by omega
      rw [prefixOf_large h]
      rw [hn] at hmore
      exact hmore (by omega) (ih (n / 128) (by omega))

theorem length_prefixOf_le {n : ℕ} {octets : List UInt8} (h : Grouping n octets) :
    (prefixOf n).length ≤ octets.length := by
  induction h with
  | last b hb =>
    rw [prefixOf_small hb]
    exact Nat.le_refl 1
  | more b n octets hb h ih =>
    have hlt := b.toNat_lt
    by_cases hsmall : b.toNat - 128 + 128 * n < 128
    · rw [prefixOf_small hsmall]
      exact Nat.le_add_left 1 octets.length
    · have hdiv : (b.toNat - 128 + 128 * n) / 128 = n := by omega
      rw [prefixOf_large hsmall, List.length_cons, List.length_cons, hdiv]
      omega

theorem length_prefixOf (k : ℕ) {n : ℕ} (h : n < 128 ^ (k + 1)) : (prefixOf n).length ≤ k + 1 := by
  induction k generalizing n with
  | zero =>
    rw [prefixOf_small (by omega)]
    exact Nat.le_refl 1
  | succ k ih =>
    by_cases hn : n < 128
    · rw [prefixOf_small hn, List.length_singleton]
      omega
    · have hdiv : n / 128 < 128 ^ (k + 1) := Nat.div_lt_of_lt_mul (by rw [← Nat.pow_succ']; exact h)
      rw [prefixOf_large hn, List.length_cons]
      have := ih hdiv
      omega

theorem getLast_prefixOf (n : ℕ) (h : (prefixOf n).getLast? = some 0) : n = 0 := by
  induction n using Nat.strongRecOn with
  | ind n ih =>
    by_cases hn : n < 128
    · rw [prefixOf_small hn, List.getLast?_singleton, Option.some.injEq] at h
      have hz := congrArg UInt8.toNat h
      rwa [toNat_toUInt8 (by omega)] at hz
    · obtain ⟨b, octets, he⟩ : ∃ b octets, prefixOf (n / 128) = b :: octets := by
        by_cases hd : n / 128 < 128
        · exact ⟨_, _, prefixOf_small hd⟩
        · exact ⟨_, _, prefixOf_large hd⟩
      rw [prefixOf_large hn, he, List.getLast?_cons_cons, ← he] at h
      have := ih (n / 128) (by omega) h
      omega

theorem octet_bits : ∀ n < 256, (UInt8.ofNat n &&& 0x7F).toNat = n % 128 ∧
    (UInt8.ofNat n &&& 0x80 = 0 ↔ n < 128) := by
  decide +kernel

theorem toNat_low (b : UInt8) : (b &&& 0x7F).toNat = b.toNat % 128 := by
  have h := (octet_bits b.toNat b.toNat_lt).1
  rwa [UInt8.ofNat_toNat] at h

theorem high_eq_zero_iff (b : UInt8) : b &&& 0x80 = 0 ↔ b.toNat < 128 := by
  have h := (octet_bits b.toNat b.toNat_lt).2
  rwa [UInt8.ofNat_toNat] at h

theorem overflows_iff (b : UInt8) : (b &&& 0x80 ≠ 0 ∨ 0x0F < b &&& 0x7F) ↔ 15 < b.toNat := by
  rw [Ne, high_eq_zero_iff, UInt8.lt_iff_toNat_lt, toNat_low]
  change (¬b.toNat < 128 ∨ 15 < b.toNat % 128) ↔ _
  omega

theorem readPrefix_cons (index : ℕ) (n : UInt32) (b : UInt8) (rest : List UInt8) :
    readPrefix index n (b :: rest) =
      if index + 1 = longestPrefix ∧ 15 < b.toNat then .overflow rest
      else if b.toNat < 128 then .length (withGroup index n b) rest
      else readPrefix (index + 1) (withGroup index n b) rest := by
  rw [readPrefix]
  simp only [overflows_iff, high_eq_zero_iff]

theorem group_lt {index : ℕ} {b : UInt8} (hindex : index < longestPrefix)
    (hfits : ¬(index + 1 = longestPrefix ∧ 15 < b.toNat)) :
    b.toNat % 128 * 2 ^ (7 * index) < 2 ^ 32 := by
  have hlast : index = 4 → b.toNat ≤ 15 := by
    rintro rfl
    exact Nat.le_of_not_lt fun hb => hfits ⟨rfl, hb⟩
  rw [longestPrefix] at hindex
  interval_cases index <;> omega

theorem toNat_withGroup {index : ℕ} {n : UInt32} {b : UInt8} (hindex : index < longestPrefix)
    (hn : n.toNat < 2 ^ (7 * index)) (hfits : ¬(index + 1 = longestPrefix ∧ 15 < b.toNat)) :
    (withGroup index n b).toNat = n.toNat + b.toNat % 128 * 2 ^ (7 * index) := by
  have hgroup := group_lt hindex hfits
  have hshift : (7 * index).toUInt32.toNat % 32 = 7 * index := by
    rw [longestPrefix] at hindex
    interval_cases index <;> rfl
  rw [withGroup, UInt32.toNat_or, UInt32.toNat_shiftLeft, UInt8.toNat_toUInt32, toNat_low, hshift,
    Nat.shiftLeft_eq, Nat.mod_eq_of_lt hgroup, Nat.or_comm, Nat.mul_comm,
    ← Nat.two_pow_add_eq_or_of_lt hn, Nat.add_comm]

theorem withGroup_lt {index : ℕ} {n : UInt32} {b : UInt8} (hindex : index < longestPrefix)
    (hn : n.toNat < 2 ^ (7 * index)) (hfits : ¬(index + 1 = longestPrefix ∧ 15 < b.toNat)) :
    (withGroup index n b).toNat < 2 ^ (7 * (index + 1)) := by
  have hpow : (2 : ℕ) ^ (7 * (index + 1)) = 128 * 2 ^ (7 * index) := by
    rw [Nat.mul_succ, Nat.pow_add, Nat.mul_comm]
  have hgroup := Nat.mul_le_mul_right (2 ^ (7 * index)) (show b.toNat % 128 ≤ 127 by omega)
  rw [toNat_withGroup hindex hn hfits, hpow]
  omega

theorem readPrefix_prefixOf (index : ℕ) (m : UInt32) (n : ℕ) (rest : List UInt8)
    (hindex : index < longestPrefix) (hm : m.toNat < 2 ^ (7 * index))
    (h : n * 2 ^ (7 * index) < lengthBound) :
    ∃ length, readPrefix index m (prefixOf n ++ rest) = .length length rest ∧
      length.toNat = m.toNat + n * 2 ^ (7 * index) := by
  induction n using Nat.strongRecOn generalizing index m with
  | ind n ih =>
    have hlast : index + 1 = longestPrefix → n < 16 := by
      intro hi
      obtain rfl : index = 4 := Nat.succ.inj hi
      rw [lengthBound] at h
      omega
    by_cases hn : n < 128
    · have hb : n.toUInt8.toNat = n := toNat_toUInt8 (by omega)
      have hfits : ¬(index + 1 = longestPrefix ∧ 15 < n.toUInt8.toNat) := by
        rintro ⟨hi, hn⟩
        have := hlast hi
        omega
      refine ⟨withGroup index m n.toUInt8, ?_, ?_⟩
      · rw [prefixOf_small hn, List.singleton_append, readPrefix_cons, if_neg hfits, hb, if_pos hn]
      · rw [toNat_withGroup hindex hm hfits, hb, Nat.mod_eq_of_lt hn]
    · have hb : (n % 128 + 128).toUInt8.toNat = n % 128 + 128 := toNat_toUInt8 (by omega)
      have hmore : index + 1 ≠ longestPrefix := by
        intro hi
        have := hlast hi
        omega
      have hfits : ¬(index + 1 = longestPrefix ∧ 15 < (n % 128 + 128).toUInt8.toNat) :=
        fun hi => hmore hi.1
      have hpow : (2 : ℕ) ^ (7 * (index + 1)) = 128 * 2 ^ (7 * index) := by
        rw [Nat.mul_succ, Nat.pow_add, Nat.mul_comm]
      have hsplit : n % 128 * 2 ^ (7 * index) + n / 128 * 2 ^ (7 * (index + 1)) =
          n * 2 ^ (7 * index) := by
        rw [hpow, ← Nat.mul_assoc, ← Nat.add_mul]
        congr 1
        omega
      have hgroup : (n % 128 + 128) % 128 = n % 128 := by omega
      obtain ⟨length, hread, hlength⟩ := ih (n / 128) (by omega) (index + 1)
        (withGroup index m (n % 128 + 128).toUInt8) (by omega) (withGroup_lt hindex hm hfits)
        (by omega)
      refine ⟨length, ?_, ?_⟩
      · rw [prefixOf_large hn, List.cons_append, readPrefix_cons, if_neg hfits, hb,
          if_neg (by omega), hread]
      · rw [hlength, toNat_withGroup hindex hm hfits, hb, hgroup, Nat.add_assoc, hsplit]

theorem readPrefix_append {index : ℕ} {n m : UInt32} {octets rest : List UInt8}
    (h : readPrefix index n octets = .length m rest) (more : List UInt8) :
    readPrefix index n (octets ++ more) = .length m (rest ++ more) := by
  induction octets generalizing index n with
  | nil => cases h
  | cons b octets ih =>
    rw [readPrefix] at h
    rw [List.cons_append, readPrefix]
    split at h
    · cases h
    · rename_i hfits
      rw [if_neg hfits]
      split at h
      · rename_i hlast
        cases h
        rw [if_pos hlast]
      · rename_i hmore
        rw [if_neg hmore]
        exact ih h

def frameOf (text : String) : List UInt8 :=
  prefixOf text.utf8ByteSize ++ Text.Utf8.encode text.toList

theorem encode_eq (text : String) :
    encode text = if text.utf8ByteSize < lengthBound then .ok (frameOf text)
      else .error (.frameTooLarge text.utf8ByteSize (lengthBound - 1)) := by
  rw [encode, Text.Utf8.length_encode]
  rfl

theorem encode_eq_ok_iff (text : String) (frame : List UInt8) :
    encode text = .ok frame ↔ text.utf8ByteSize < lengthBound ∧ frame = frameOf text := by
  rw [encode_eq]
  split
  · rename_i h
    rw [Except.ok.injEq]
    constructor
    · intro hf
      exact ⟨h, hf.symm⟩
    · rintro ⟨-, rfl⟩
      rfl
  · rename_i h
    constructor
    · intro hf
      cases hf
    · rintro ⟨hlt, -⟩
      exact absurd hlt h

theorem readPrefix_frameOf {text : String} (h : text.utf8ByteSize < lengthBound)
    (rest : List UInt8) :
    ∃ length, readPrefix 0 0 (frameOf text ++ rest) =
        .length length (Text.Utf8.encode text.toList ++ rest) ∧
      length.toNat = text.utf8ByteSize := by
  have hread := readPrefix_prefixOf 0 0 text.utf8ByteSize
    (Text.Utf8.encode text.toList ++ rest) (by decide) (by decide)
    (by rw [Nat.mul_zero, Nat.pow_zero, Nat.mul_one]; exact h)
  rw [Nat.mul_zero, Nat.pow_zero, Nat.mul_one, UInt32.toNat_zero, Nat.zero_add] at hread
  rw [frameOf, List.append_assoc]
  exact hread

theorem read_frameOf {most : ℕ} {text : String} (hmost : text.utf8ByteSize ≤ most)
    (h : text.utf8ByteSize < lengthBound) (rest : List UInt8) (ending : Ending) :
    read most ⟨frameOf text ++ rest, ending⟩ = (.ok (some text), ⟨rest, ending⟩) := by
  have hsize := Text.Utf8.length_encode text
  have hfull : ¬ (Text.Utf8.encode text.toList).length < text.utf8ByteSize := by omega
  obtain ⟨length, hread, hlength⟩ := readPrefix_frameOf h rest
  rw [read, hread]
  simp only [hlength, if_neg (Nat.not_lt.mpr hmost), List.take_left' hsize, if_neg hfull,
    List.drop_left' hsize, bodyText, Text.Utf8.decode_encode, String.ofList_toList, Source.after]

theorem read_frameOf_large {most : ℕ} {text : String} (hmost : most < text.utf8ByteSize)
    (h : text.utf8ByteSize < lengthBound) (rest : List UInt8) (ending : Ending) :
    (read most ⟨frameOf text ++ rest, ending⟩).1 =
      .error (.frameTooLarge text.utf8ByteSize most) := by
  obtain ⟨length, hread, hlength⟩ := readPrefix_frameOf h rest
  rw [read, hread]
  simp only [hlength, if_pos hmost]

theorem read_append {most : ℕ} {s : Source} {text : String} (h : (read most s).1 = .ok (some text))
    (more : List UInt8) (ending : Ending) :
    read most ⟨s.octets ++ more, ending⟩ =
      (.ok (some text), ⟨(read most s).2.octets ++ more, ending⟩) := by
  rw [read] at h ⊢
  cases hp : readPrefix 0 0 s.octets with
  | cut index =>
    rw [hp] at h
    cases index with
    | zero =>
      cases he : s.ending <;> simp only [he, reduceCtorEq, Except.ok.injEq] at h
    | succ index => cases h
  | overflow rest =>
    rw [hp] at h
    cases h
  | length n rest =>
    rw [hp] at h
    simp only [readPrefix_append hp]
    rw [read, hp]
    simp only at h ⊢
    split at h
    · cases h
    · rename_i hmost
      split at h
      · cases h
      · rename_i hfull
        have hn : n.toNat ≤ rest.length := by
          rw [List.length_take] at hfull
          omega
        simp only [if_neg hmost, if_neg hfull, List.take_append_of_le_length hn,
          List.drop_append_of_le_length hn, Source.after]
        exact congrArg₂ Prod.mk h rfl

theorem not_read_torn {most : ℕ} {text : String} {torn : List UInt8} {ending : Ending}
    (h : text.utf8ByteSize < lengthBound) (htorn : torn <+: frameOf text)
    (hne : torn ≠ frameOf text) (found : String) :
    (read most ⟨torn, ending⟩).1 ≠ .ok (some found) := by
  obtain ⟨more, hmore⟩ := htorn
  intro hread
  have hwhole := read_append hread more ending
  rw [hmore] at hwhole
  have hframe : frameOf text = frameOf text ++ [] := (List.append_nil _).symm
  rw [hframe] at hwhole
  rcases Nat.lt_or_ge most text.utf8ByteSize with hlarge | hmost
  · have herror := read_frameOf_large hlarge h [] ending
    rw [hwhole] at herror
    cases herror
  · rw [read_frameOf hmost h] at hwhole
    have hrest := congrArg (Source.octets ∘ Prod.snd) hwhole
    obtain ⟨-, rfl⟩ := List.append_eq_nil_iff.mp hrest.symm
    exact hne ((List.append_nil _).symm.trans hmore)

theorem frameOf_eq_of_isPrefix {text other : String} (h : text.utf8ByteSize < lengthBound)
    (hother : other.utf8ByteSize < lengthBound) (htorn : frameOf text <+: frameOf other) :
    frameOf text = frameOf other := by
  by_contra hne
  have hread := read_frameOf (Nat.le_refl text.utf8ByteSize) h [] .closed
  rw [List.append_nil] at hread
  exact not_read_torn hother htorn hne text (congrArg Prod.fst hread)

theorem readAllFrom_text {most : ℕ} {s t : Source} {text : String} (done : List String)
    (h : read most s = (.ok (some text), t)) :
    readAllFrom most done s = readAllFrom most (text :: done) t := by
  rw [readAllFrom]
  split
  · rename_i found hfound
    have htext := hfound.symm.trans (congrArg Prod.fst h)
    cases htext
    exact congrArg (readAllFrom most (text :: done)) (congrArg Prod.snd h)
  · rename_i hnone
    rw [h] at hnone
    cases hnone
  · rename_i hfault
    rw [h] at hfault
    cases hfault

theorem readAllFrom_frames {most : ℕ} (texts done : List String) (rest : List UInt8)
    (ending : Ending) (h : ∀ t ∈ texts, t.utf8ByteSize ≤ most ∧ t.utf8ByteSize < lengthBound) :
    readAllFrom most done ⟨texts.flatMap frameOf ++ rest, ending⟩ =
      readAllFrom most (texts.reverse ++ done) ⟨rest, ending⟩ := by
  induction texts generalizing done with
  | nil => rfl
  | cons text texts ih =>
    obtain ⟨hmost, hbound⟩ := h text List.mem_cons_self
    have hfirst := read_frameOf hmost hbound (texts.flatMap frameOf ++ rest) ending
    rw [List.flatMap_cons, List.append_assoc, readAllFrom_text done hfirst,
      ih (text :: done) fun t ht => h t (List.mem_cons_of_mem text ht), List.reverse_cons,
      List.append_assoc]
    rfl

theorem mapM_encode {texts : List String} (h : ∀ t ∈ texts, t.utf8ByteSize < lengthBound) :
    texts.mapM encode = .ok (texts.map frameOf) := by
  induction texts with
  | nil => rfl
  | cons text texts ih =>
    have hfirst : encode text = .ok (frameOf text) :=
      (encode_eq_ok_iff text _).mpr ⟨h text List.mem_cons_self, rfl⟩
    rw [List.mapM_cons, hfirst, ih fun t ht => h t (List.mem_cons_of_mem text ht)]
    rfl

theorem readAllFrom_stopped {most : ℕ} {s : Source} (done : List String)
    (h : ∀ text, (read most s).1 ≠ .ok (some text)) :
    (readAllFrom most done s).texts = done.reverse := by
  rw [readAllFrom]
  split
  · rename_i text hfound
    exact absurd hfound (h text)
  · rfl
  · rfl

theorem not_read_nothing (most : ℕ) (ending : Ending) (found : String) :
    (read most ⟨[], ending⟩).1 ≠ .ok (some found) := by
  cases ending <;> nofun

theorem readAllFrom_large {most : ℕ} (texts done : List String) (rest : List UInt8)
    (ending : Ending) (hbound : ∀ t ∈ texts, t.utf8ByteSize < lengthBound)
    (hlarge : ∃ t ∈ texts, most < t.utf8ByteSize) :
    ∃ found, found <+: texts ∧
      (readAllFrom most done ⟨texts.flatMap frameOf ++ rest, ending⟩).texts =
        done.reverse ++ found := by
  induction texts generalizing done with
  | nil =>
    obtain ⟨t, ht, -⟩ := hlarge
    cases ht
  | cons text texts ih =>
    have htext := hbound text List.mem_cons_self
    rw [List.flatMap_cons, List.append_assoc]
    rcases Nat.lt_or_ge most text.utf8ByteSize with hover | hmost
    · refine ⟨[], List.nil_prefix, ?_⟩
      rw [List.append_nil]
      apply readAllFrom_stopped
      intro found hfound
      rw [read_frameOf_large hover htext] at hfound
      cases hfound
    · have hlater : ∃ t ∈ texts, most < t.utf8ByteSize := by
        obtain ⟨t, ht, hover⟩ := hlarge
        rcases List.mem_cons.mp ht with rfl | ht
        · omega
        · exact ⟨t, ht, hover⟩
      obtain ⟨found, hfound, hread⟩ :=
        ih (text :: done) (fun t ht => hbound t (List.mem_cons_of_mem text ht)) hlater
      refine ⟨text :: found, (List.prefix_cons_inj text).mpr hfound, ?_⟩
      rw [readAllFrom_text done (read_frameOf hmost htext _ ending), hread, List.reverse_cons,
        List.append_assoc]
      rfl

/-- Of a frame that may be torn nothing but its text is read. -/
theorem readAllFrom_torn (most : ℕ) {text : String} {torn : List UInt8} (done : List String)
    (ending : Ending) (h : text.utf8ByteSize < lengthBound) (htorn : torn <+: frameOf text) :
    ∃ found, found <+: [text] ∧
      (readAllFrom most done ⟨torn, ending⟩).texts = done.reverse ++ found := by
  by_cases hwhole : torn = frameOf text ∧ text.utf8ByteSize ≤ most
  · obtain ⟨rfl, hmost⟩ := hwhole
    refine ⟨[text], List.prefix_rfl, ?_⟩
    have hread := read_frameOf hmost h [] ending
    rw [List.append_nil] at hread
    rw [readAllFrom_text done hread, readAllFrom_stopped _ (not_read_nothing most ending),
      List.reverse_cons]
  · refine ⟨[], List.nil_prefix, ?_⟩
    rw [List.append_nil]
    apply readAllFrom_stopped
    by_cases hframe : torn = frameOf text
    · have hread := read_frameOf_large (Nat.lt_of_not_le fun hmost => hwhole ⟨hframe, hmost⟩) h []
        ending
      rw [List.append_nil, ← hframe] at hread
      rw [hread]
      exact nofun
    · exact not_read_torn h htorn hframe

theorem readAllFrom_end (most : ℕ) (done : List String) :
    readAllFrom most done ⟨[], .closed⟩ = ⟨done.reverse, none, ⟨[], .closed⟩⟩ := by
  have hread : read most ⟨[], .closed⟩ = (.ok none, ⟨[], .closed⟩) := rfl
  rw [readAllFrom]
  split
  · rename_i hfound
    cases hfound
  · rw [hread]
  · rename_i hfault
    cases hfault

/-- The octets are the groups of seven bits of a length, and no fewer octets are. -/
structure IsLength (n : ℕ) (octets : List UInt8) : Prop where
  groups : Grouping n octets
  fewest : ∀ others, Grouping n others → octets.length ≤ others.length
  length : 1 ≤ octets.length ∧ octets.length ≤ 5
  lastGroup : octets.getLast? = some 0 → n = 0

theorem isLength_prefixOf {n : ℕ} (h : n < lengthBound) : IsLength n (prefixOf n) where
  groups := grouping_prefixOf n
  fewest := fun _ hothers => length_prefixOf_le hothers
  length := by
    constructor
    · by_cases hn : n < 128
      · rw [prefixOf_small hn]
        exact Nat.le_refl 1
      · rw [prefixOf_large hn, List.length_cons]
        exact Nat.le_add_left 1 _
    · exact length_prefixOf 4 (Nat.lt_trans h (by decide))
  lastGroup := getLast_prefixOf n

theorem frames_read_back (most : ℕ) (texts : List String)
    (h : ∀ t ∈ texts, t.utf8ByteSize ≤ most ∧ t.utf8ByteSize ≤ 0xFFFFFFFF) :
    ∃ frames, texts.mapM encode = .ok frames ∧
      readAll most ⟨frames.flatten, .closed⟩ = ⟨texts, none, ⟨[], .closed⟩⟩ ∧
      List.Forall₂ (fun text frame => ∃ head,
        frame = head ++ Text.Utf8.encode text.toList ∧ IsLength text.utf8ByteSize head)
        texts frames ∧
      ∀ f ∈ frames, ∀ g ∈ frames, f <+: g → f = g := by
  have hbound : ∀ t ∈ texts, t.utf8ByteSize < lengthBound := fun t ht =>
    Nat.lt_succ_of_le (h t ht).2
  refine ⟨texts.map frameOf, mapM_encode hbound, ?_, ?_, ?_⟩
  · have hread := readAllFrom_frames texts [] [] .closed fun t ht => ⟨(h t ht).1, hbound t ht⟩
    rw [readAllFrom_end, List.append_nil, List.append_nil, List.reverse_reverse] at hread
    rw [readAll, ← List.flatMap_def]
    exact hread
  · rw [List.forall₂_map_right_iff, List.forall₂_same]
    intro text ht
    exact ⟨prefixOf text.utf8ByteSize, rfl, isLength_prefixOf (hbound text ht)⟩
  · intro f hf g hg htorn
    obtain ⟨text, ht, rfl⟩ := List.mem_map.mp hf
    obtain ⟨other, hother, rfl⟩ := List.mem_map.mp hg
    exact frameOf_eq_of_isPrefix (hbound text ht) (hbound other hother) htorn

theorem frames_read_back_long :
    let long := String.ofList (List.replicate 200 'x')
    (∀ t ∈ ["", "é", long], t.utf8ByteSize ≤ 200 ∧ t.utf8ByteSize ≤ 0xFFFFFFFF) ∧
      ∃ frames, ["", "é", long].mapM encode = .ok frames ∧
        readAll 200 ⟨frames.flatten, .closed⟩ = ⟨["", "é", long], none, ⟨[], .closed⟩⟩ := by
  let long := String.ofList (List.replicate 200 'x')
  have hsizes : ∀ t ∈ ["", "é", long], t.utf8ByteSize ≤ 200 ∧ t.utf8ByteSize ≤ 0xFFFFFFFF := by
    decide +kernel
  obtain ⟨frames, hframes, hread, -⟩ := frames_read_back 200 ["", "é", long] hsizes
  exact ⟨hsizes, frames, hframes, hread⟩

end HostedTests.Frame
