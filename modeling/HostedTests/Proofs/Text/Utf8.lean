import HostedTests.Text.Utf8
import Mathlib.Data.List.Basic

namespace HostedTests.Text.Utf8

theorem toNat_ofNat {n : ℕ} (h : n < 256) : (UInt8.ofNat n).toNat = n := by
  rw [UInt8.toNat_ofNat', Nat.mod_eq_of_lt h]

theorem within_ofNat {low high : UInt8} {n : ℕ} (h : n < 256) :
    within low high (UInt8.ofNat n) = true ↔ low.toNat ≤ n ∧ n ≤ high.toNat := by
  simp only [within, Bool.and_eq_true, decide_eq_true_eq, UInt8.le_iff_toNat_le, toNat_ofNat h]

def tail (n : ℕ) : UInt8 := UInt8.ofNat (n % 64 + 0x80)

theorem isTail_tail (n : ℕ) : isTail (tail n) = true := by
  rw [isTail, tail, within_ofNat (by omega)]
  constructor
  · exact Nat.le_add_left 0x80 (n % 64)
  · change n % 64 + 0x80 ≤ 0xBF
    omega

theorem tailBits_tail (n : ℕ) : tailBits (tail n) = n % 64 := by
  rw [tailBits, tail, toNat_ofNat (by omega)]
  omega

theorem lead_ofNat : ∀ n < 256, lead (UInt8.ofNat n) =
    if 0xC2 ≤ n ∧ n ≤ 0xDF then some (1, 0x80, 0xBF)
    else if n = 0xE0 then some (2, 0xA0, 0xBF)
    else if n = 0xED then some (2, 0x80, 0x9F)
    else if 0xE1 ≤ n ∧ n ≤ 0xEF then some (2, 0x80, 0xBF)
    else if n = 0xF0 then some (3, 0x90, 0xBF)
    else if 0xF1 ≤ n ∧ n ≤ 0xF3 then some (3, 0x80, 0xBF)
    else if n = 0xF4 then some (3, 0x80, 0x8F)
    else none := by
  decide +kernel

theorem lead_two {v : ℕ} (h : 0x80 ≤ v) (h' : v < 0x800) :
    lead (UInt8.ofNat (v / 64 % 32 + 0xC0)) = some (1, 0x80, 0xBF) := by
  rw [lead_ofNat _ (by omega), if_pos (by omega)]

theorem lead_three {v : ℕ} (h : 0x800 ≤ v) (h' : v < 0x10000) (hs : v < 0xD800 ∨ 0xDFFF < v) :
    ∃ low high, lead (UInt8.ofNat (v / 4096 % 16 + 0xE0)) = some (2, low, high) ∧
      within low high (tail (v / 64)) = true := by
  rw [lead_ofNat _ (by omega), if_neg (by omega)]
  simp only [tail, within_ofNat (show v / 64 % 64 + 0x80 < 256 by omega)]
  -- Behind the first and the last but two of these octets not every other may stand.
  by_cases hfirst : v / 4096 % 16 + 0xE0 = 0xE0
  · refine ⟨0xA0, 0xBF, by rw [if_pos hfirst], ?_⟩
    change 0xA0 ≤ _ ∧ _ ≤ 0xBF
    omega
  · rw [if_neg hfirst]
    by_cases hgap : v / 4096 % 16 + 0xE0 = 0xED
    · refine ⟨0x80, 0x9F, by rw [if_pos hgap], ?_⟩
      change 0x80 ≤ _ ∧ _ ≤ 0x9F
      omega
    · refine ⟨0x80, 0xBF, by rw [if_neg hgap, if_pos (by omega)], ?_⟩
      change 0x80 ≤ _ ∧ _ ≤ 0xBF
      omega

theorem lead_four {v : ℕ} (h : 0x10000 ≤ v) (h' : v < 0x110000) :
    ∃ low high, lead (UInt8.ofNat (v / 262144 % 8 + 0xF0)) = some (3, low, high) ∧
      within low high (tail (v / 4096)) = true := by
  rw [lead_ofNat _ (by omega), if_neg (by omega), if_neg (by omega), if_neg (by omega),
    if_neg (by omega)]
  simp only [tail, within_ofNat (show v / 4096 % 64 + 0x80 < 256 by omega)]
  by_cases hfirst : v / 262144 % 8 + 0xF0 = 0xF0
  · refine ⟨0x90, 0xBF, by rw [if_pos hfirst], ?_⟩
    change 0x90 ≤ _ ∧ _ ≤ 0xBF
    omega
  · rw [if_neg hfirst]
    by_cases hlast : v / 262144 % 8 + 0xF0 = 0xF4
    · refine ⟨0x80, 0x8F, by rw [if_neg (by omega), if_pos hlast], ?_⟩
      change 0x80 ≤ _ ∧ _ ≤ 0x8F
      omega
    · refine ⟨0x80, 0xBF, by rw [if_pos (by omega)], ?_⟩
      change 0x80 ≤ _ ∧ _ ≤ 0xBF
      omega

theorem encodeChar_eq (c : Char) : String.utf8EncodeChar c =
    if c.toNat ≤ 0x7F then [UInt8.ofNat c.toNat]
    else if c.toNat ≤ 0x7FF then [UInt8.ofNat (c.toNat / 64 % 32 + 0xC0), tail c.toNat]
    else if c.toNat ≤ 0xFFFF then
      [UInt8.ofNat (c.toNat / 4096 % 16 + 0xE0), tail (c.toNat / 64), tail c.toNat]
    else
      [UInt8.ofNat (c.toNat / 262144 % 8 + 0xF0), tail (c.toNat / 4096), tail (c.toNat / 64),
        tail c.toNat] := rfl

theorem not_lt_ascii {n : ℕ} (h : n < 256) (hn : 0x80 ≤ n) : ¬ UInt8.ofNat n < 0x80 := by
  rw [UInt8.lt_iff_toNat_lt, toNat_ofNat h]
  exact Nat.not_lt.mpr hn

theorem piece_encodeChar (c : Char) (rest : List UInt8) :
    ∃ a more n, String.utf8EncodeChar c = a :: more ∧ piece a (more ++ rest) = .char c n rest := by
  have hc : Char.ofNat c.toNat = c := Char.ofNat_toNat c
  have hvalid : c.toNat < 0xD800 ∨ (0xDFFF < c.toNat ∧ c.toNat < 0x110000) := c.valid
  rw [encodeChar_eq]
  by_cases h₁ : c.toNat ≤ 0x7F
  · have hlt : UInt8.ofNat c.toNat < 0x80 := by
      rw [UInt8.lt_iff_toNat_lt, toNat_ofNat (by omega)]
      exact Nat.lt_succ_of_le h₁
    refine ⟨_, [], 1, if_pos h₁, ?_⟩
    unfold piece
    rw [if_pos hlt, toNat_ofNat (by omega), hc, List.nil_append]
  rw [if_neg h₁]
  by_cases h₂ : c.toNat ≤ 0x7FF
  · have hlead := lead_two (v := c.toNat) (by omega) (by omega)
    have hbits : c.toNat / 64 % 32 + 0xC0 < 256 := by omega
    have hvalue : (c.toNat / 64 % 32 + 0xC0) % 32 * 64 + c.toNat % 64 = c.toNat := by omega
    refine ⟨_, _, 2, if_pos h₂, ?_⟩
    unfold piece
    rw [if_neg (not_lt_ascii hbits (by omega)), hlead]
    simp only [List.cons_append, List.nil_append, isTail_tail, if_true, tailBits_tail,
      toNat_ofNat hbits, hvalue, hc]
  rw [if_neg h₂]
  by_cases h₃ : c.toNat ≤ 0xFFFF
  · obtain ⟨low, high, hlead, hwithin⟩ := lead_three (v := c.toNat) (by omega) (by omega) (by omega)
    have hbits : c.toNat / 4096 % 16 + 0xE0 < 256 := by omega
    have hvalue : ((c.toNat / 4096 % 16 + 0xE0) % 16 * 64 + c.toNat / 64 % 64) * 64 +
        c.toNat % 64 = c.toNat := by omega
    refine ⟨_, _, 3, if_pos h₃, ?_⟩
    unfold piece
    rw [if_neg (not_lt_ascii hbits (by omega)), hlead]
    simp only [List.cons_append, List.nil_append, hwithin, isTail_tail, if_true, tailBits_tail,
      toNat_ofNat hbits, hvalue, hc, Bool.not_true, Bool.false_eq_true, if_false]
  · obtain ⟨low, high, hlead, hwithin⟩ := lead_four (v := c.toNat) (by omega) (by omega)
    have hbits : c.toNat / 262144 % 8 + 0xF0 < 256 := by omega
    have hvalue : (((c.toNat / 262144 % 8 + 0xF0) % 8 * 64 + c.toNat / 4096 % 64) * 64 +
        c.toNat / 64 % 64) * 64 + c.toNat % 64 = c.toNat := by omega
    refine ⟨_, _, 4, if_neg h₃, ?_⟩
    unfold piece
    rw [if_neg (not_lt_ascii hbits (by omega)), hlead]
    simp only [List.cons_append, List.nil_append, hwithin, isTail_tail, if_true, tailBits_tail,
      toNat_ofNat hbits, hvalue, hc, Bool.not_true, Bool.false_eq_true, if_false]

theorem decodeFrom_char {a : UInt8} {octets rest : List UInt8} {c : Char} {n : ℕ} (start : ℕ)
    (done : List Char) (h : piece a octets = .char c n rest) :
    decodeFrom start done (a :: octets) = decodeFrom (start + n) (c :: done) rest := by
  rw [decodeFrom]
  split
  · rename_i c' n' rest' h'
    rw [h] at h'
    cases h'
    rfl
  · rename_i h'
    rw [h] at h'
    cases h'
  · rename_i h'
    rw [h] at h'
    cases h'

theorem decodeFrom_encode (start : ℕ) (done cs : List Char) :
    decodeFrom start done (encode cs) = .ok (done.reverse ++ cs) := by
  induction cs generalizing start done with
  | nil => rw [encode, List.flatMap_nil, decodeFrom, List.append_nil]
  | cons c cs ih =>
    obtain ⟨a, more, n, he, hp⟩ := piece_encodeChar c (encode cs)
    have hcons : encode (c :: cs) = a :: (more ++ encode cs) := by
      rw [encode, List.flatMap_cons, he]
      rfl
    rw [hcons, decodeFrom_char start done hp, ih, List.reverse_cons, List.append_assoc]
    rfl

theorem decode_encode (cs : List Char) : decode (encode cs) = .ok cs := decodeFrom_encode 0 [] cs

theorem toNat_char {v : ℕ} (h : v < 0xD800 ∨ 0xDFFF < v ∧ v < 0x110000) :
    (Char.ofNat v).toNat = v := by
  have hvalid : v.isValidChar := h
  rw [Char.ofNat, dif_pos hvalid]
  exact UInt32.toNat_ofNatLT

theorem within_iff (low high b : UInt8) :
    within low high b = true ↔ low.toNat ≤ b.toNat ∧ b.toNat ≤ high.toNat := by
  rw [within, Bool.and_eq_true, decide_eq_true_eq, decide_eq_true_eq, UInt8.le_iff_toNat_le,
    UInt8.le_iff_toNat_le]

theorem isTail_iff (b : UInt8) : isTail b = true ↔ 0x80 ≤ b.toNat ∧ b.toNat ≤ 0xBF :=
  within_iff 0x80 0xBF b

theorem tail_eq {n : ℕ} {b : UInt8} (hb : isTail b = true) (h : n % 64 = b.toNat % 64) :
    tail n = b := by
  obtain ⟨hlow, hhigh⟩ := (isTail_iff b).mp hb
  rw [tail, show n % 64 + 0x80 = b.toNat by omega, UInt8.ofNat_toNat]

theorem octet_eq {n : ℕ} {b : UInt8} (h : n = b.toNat) : UInt8.ofNat n = b := by
  rw [h, UInt8.ofNat_toNat]

theorem encodeChar_one {a : UInt8} (ha : a.toNat < 0x80) :
    String.utf8EncodeChar (Char.ofNat a.toNat) = [a] := by
  rw [encodeChar_eq, toNat_char (by omega), if_pos (by omega), octet_eq rfl]

theorem encodeChar_two {a b : UInt8} (ha : 0xC2 ≤ a.toNat ∧ a.toNat ≤ 0xDF)
    (hb : isTail b = true) :
    String.utf8EncodeChar (Char.ofNat (a.toNat % 32 * 64 + tailBits b)) = [a, b] := by
  unfold tailBits
  rw [encodeChar_eq, toNat_char (by omega), if_neg (by omega), if_pos (by omega),
    octet_eq (b := a) (by omega), tail_eq hb (by omega)]

theorem encodeChar_three {a b c : UInt8} (ha : 0xE0 ≤ a.toNat ∧ a.toNat ≤ 0xEF)
    (hb : isTail b = true) (hc : isTail c = true)
    (hlow : a.toNat = 0xE0 → 0xA0 ≤ b.toNat) (hhigh : a.toNat = 0xED → b.toNat ≤ 0x9F) :
    String.utf8EncodeChar
      (Char.ofNat ((a.toNat % 16 * 64 + tailBits b) * 64 + tailBits c)) = [a, b, c] := by
  obtain ⟨hb₁, hb₂⟩ := (isTail_iff b).mp hb
  unfold tailBits
  rw [encodeChar_eq, toNat_char (by omega), if_neg (by omega), if_neg (by omega),
    if_pos (by omega), octet_eq (b := a) (by omega), tail_eq hb (by omega), tail_eq hc (by omega)]

theorem encodeChar_four {a b c d : UInt8} (ha : 0xF0 ≤ a.toNat ∧ a.toNat ≤ 0xF4)
    (hb : isTail b = true) (hc : isTail c = true) (hd : isTail d = true)
    (hlow : a.toNat = 0xF0 → 0x90 ≤ b.toNat) (hhigh : a.toNat = 0xF4 → b.toNat ≤ 0x8F) :
    String.utf8EncodeChar
      (Char.ofNat (((a.toNat % 8 * 64 + tailBits b) * 64 + tailBits c) * 64 + tailBits d)) =
        [a, b, c, d] := by
  obtain ⟨hb₁, hb₂⟩ := (isTail_iff b).mp hb
  unfold tailBits
  rw [encodeChar_eq, toNat_char (by omega), if_neg (by omega), if_neg (by omega),
    if_neg (by omega), octet_eq (b := a) (by omega), tail_eq hb (by omega), tail_eq hc (by omega),
    tail_eq hd (by omega)]

theorem of_lead_one {a low high : UInt8} (h : lead a = some (1, low, high)) :
    0xC2 ≤ a.toNat ∧ a.toNat ≤ 0xDF := by
  have hlead := lead_ofNat a.toNat a.toNat_lt
  rw [UInt8.ofNat_toNat, h] at hlead
  repeat' split at hlead
  all_goals first
    | assumption
    | cases hlead

theorem of_lead_two {a b low high : UInt8} (h : lead a = some (2, low, high))
    (hb : within low high b = true) :
    (0xE0 ≤ a.toNat ∧ a.toNat ≤ 0xEF) ∧ isTail b = true ∧
      (a.toNat = 0xE0 → 0xA0 ≤ b.toNat) ∧ (a.toNat = 0xED → b.toNat ≤ 0x9F) := by
  have hlead := lead_ofNat a.toNat a.toNat_lt
  rw [UInt8.ofNat_toNat, h] at hlead
  rw [within_iff] at hb
  rw [isTail_iff]
  repeat' split at hlead
  all_goals cases hlead
  all_goals simp only [UInt8.reduceToNat] at hb
  all_goals omega

theorem of_lead_three {a b low high : UInt8} {k : ℕ} (h : lead a = some (k, low, high))
    (hone : k ≠ 1) (htwo : k ≠ 2) (hb : within low high b = true) :
    (0xF0 ≤ a.toNat ∧ a.toNat ≤ 0xF4) ∧ isTail b = true ∧
      (a.toNat = 0xF0 → 0x90 ≤ b.toNat) ∧ (a.toNat = 0xF4 → b.toNat ≤ 0x8F) := by
  have hlead := lead_ofNat a.toNat a.toNat_lt
  rw [UInt8.ofNat_toNat, h] at hlead
  rw [within_iff] at hb
  rw [isTail_iff]
  repeat' split at hlead
  all_goals cases hlead
  all_goals simp only [UInt8.reduceToNat] at hb
  all_goals omega

theorem piece_eq_char {a : UInt8} {octets rest : List UInt8} {c : Char} {n : ℕ}
    (h : piece a octets = .char c n rest) : a :: octets = String.utf8EncodeChar c ++ rest := by
  unfold piece at h
  split at h
  · rename_i ha
    cases h
    rw [encodeChar_one (UInt8.lt_iff_toNat_lt.mp ha)]
    rfl
  split at h
  · cases h
  · rename_i hlead
    split at h
    · cases h
    · split at h
      · rename_i hb
        cases h
        rw [encodeChar_two (of_lead_one hlead) hb]
        rfl
      · cases h
  · rename_i hlead
    split at h
    · cases h
    · split at h
      · cases h
      · rename_i hb
        rw [Bool.not_eq_true', Bool.not_eq_false] at hb
        obtain ⟨ha, htail, hlow, hhigh⟩ := of_lead_two hlead hb
        split at h
        · cases h
        · split at h
          · rename_i hc
            cases h
            rw [encodeChar_three ha htail hc hlow hhigh]
            rfl
          · cases h
  · rename_i hone htwo hlead
    split at h
    · cases h
    · split at h
      · cases h
      · rename_i hb
        rw [Bool.not_eq_true', Bool.not_eq_false] at hb
        obtain ⟨ha, htail, hlow, hhigh⟩ :=
          of_lead_three hlead hone htwo hb
        split at h
        · cases h
        · split at h
          · cases h
          · rename_i hc
            rw [Bool.not_eq_true', Bool.not_eq_false] at hc
            split at h
            · cases h
            · split at h
              · rename_i hd
                cases h
                rw [encodeChar_four ha htail hc hd hlow hhigh]
                rfl
              · cases h

theorem decodeFrom_eq_ok {start : ℕ} {done cs : List Char} {octets : List UInt8}
    (h : decodeFrom start done octets = .ok cs) :
    ∃ more, cs = done.reverse ++ more ∧ encode more = octets := by
  fun_induction decodeFrom start done octets with
  | case1 start done =>
    cases h
    exact ⟨[], (List.append_nil _).symm, rfl⟩
  | case2 start done a rest bound c n rest' hpiece fits ih =>
    obtain ⟨more, rfl, rfl⟩ := ih h
    refine ⟨c :: more, ?_, ?_⟩
    · rw [List.reverse_cons, List.append_assoc]
      rfl
    · rw [encode, List.flatMap_cons]
      exact (piece_eq_char hpiece).symm
  | case3 => cases h
  | case4 => cases h

theorem decode_eq_ok_iff (octets : List UInt8) (cs : List Char) :
    decode octets = .ok cs ↔ encode cs = octets := by
  constructor
  · intro h
    obtain ⟨more, rfl, hencode⟩ := decodeFrom_eq_ok h
    exact hencode
  · rintro rfl
    exact decode_encode cs

theorem length_encode (s : String) : (encode s.toList).length = s.utf8ByteSize := by
  have hsize : s.utf8ByteSize = s.toList.utf8Encode.size := by
    rw [← String.size_toByteArray, ← String.toByteArray_ofList, String.ofList_toList]
  have hlist : (encode s.toList).toByteArray = s.toList.utf8Encode := rfl
  rw [hsize, ← hlist]
  exact List.size_toByteArray.symm

end HostedTests.Text.Utf8
