import HostedTests.Uuid
import HostedTests.Proofs.Text.Digits
import Mathlib.Data.List.Basic

namespace HostedTests.Uuid

theorem ofHex_hexadecimal (n : ℕ) : ofHex (Text.hexadecimal n) = n := by
  induction n using Nat.strongRecOn with
  | ind n ih =>
    by_cases hn : n < 16
    · rw [Text.hexadecimal, Nat.toDigits_of_lt_base hn]
      simp [ofHex, Text.hexValue?_digitChar n hn]
    · have hq := ih (n / 16) (by omega)
      rw [Text.hexadecimal, ofHex] at hq
      rw [Text.hexadecimal, Nat.toDigits_of_base_le (by decide) (by omega), ofHex,
        List.foldl_append, hq]
      simp only [List.foldl_cons, List.foldl_nil,
        Text.hexValue?_digitChar (n % 16) (by omega), Option.getD_some]
      omega

theorem length_digits (u : Uuid) : u.digits.length = 32 := by
  have h : (Text.hexadecimal u.value).length ≤ 32 :=
    (Nat.length_toDigits_le_iff (by decide) (by decide)).2 u.value_lt
  rw [digits, List.length_append, List.length_replicate]
  omega

theorem hex_of_mem_digits (u : Uuid) : ∀ c ∈ u.digits, (Json.hexValue? c).isSome := by
  intro c hc
  rw [digits, List.mem_append] at hc
  rcases hc with hc | hc
  · rw [List.eq_of_mem_replicate hc]
    decide
  · exact Text.hexadecimal_hex c hc

theorem ofHex_digits (u : Uuid) : ofHex u.digits = u.value := by
  have hz (k : ℕ) (cs : List Char) : ofHex (List.replicate k '0' ++ cs) = ofHex cs := by
    induction k with
    | zero => rfl
    | succ k ih =>
      rw [← ih]
      rfl
  rw [digits, hz, ofHex_hexadecimal]

theorem hex_ascii {c : Char} (h : (Json.hexValue? c).isSome) :
    c.utf8Size = 1 ∧ c ≠ '-' ∧ c ≠ '\x7b' ∧ c.toLower ≠ 'u' := by
  have hc : c.toNat < 128 := by
    simp only [Json.hexValue?] at h
    split at h
    · rename_i hr
      have := (Char.le_def.1 hr.2)
      simp only [UInt32.le_iff_toNat_le] at this
      exact Nat.lt_of_le_of_lt this (by decide)
    · split at h
      · rename_i hr
        have := (Char.le_def.1 hr.2)
        simp only [UInt32.le_iff_toNat_le] at this
        exact Nat.lt_of_le_of_lt this (by decide)
      · split at h
        · rename_i hr
          have := (Char.le_def.1 hr.2)
          simp only [UInt32.le_iff_toNat_le] at this
          exact Nat.lt_of_le_of_lt this (by decide)
        · simp at h
  have hall : ∀ n < 128, (Json.hexValue? (Char.ofNat n)).isSome →
      (Char.ofNat n).utf8Size = 1 ∧ Char.ofNat n ≠ '-' ∧ Char.ofNat n ≠ '\x7b' ∧
        (Char.ofNat n).toLower ≠ 'u' := by decide
  have hn := hall c.toNat hc
  rw [Char.ofNat_toNat] at hn
  exact hn h

def groups (u : Uuid) : List (List Char) :=
  [u.digits.take 8, (u.digits.drop 8).take 4, ((u.digits.drop 8).drop 4).take 4,
    (((u.digits.drop 8).drop 4).drop 4).take 4,
    ((((u.digits.drop 8).drop 4).drop 4).drop 4).take 12]

theorem render_eq (u : Uuid) : u.render = ['-'].intercalate u.groups := by
  simp [render, groupSizes, inGroups, groups, List.intercalate, List.intersperse]

theorem flatten_groups (u : Uuid) : u.groups.flatten = u.digits := by
  have hlast : ((((u.digits.drop 8).drop 4).drop 4).drop 4).length = 12 := by
    simp [length_digits]
  rw [groups, List.take_of_length_le (Nat.le_of_eq hlast)]
  simp only [List.flatten_cons, List.flatten_nil, List.append_nil, List.take_append_drop]

theorem hex_of_mem_groups (u : Uuid) : ∀ g ∈ u.groups, ∀ c ∈ g, (Json.hexValue? c).isSome := by
  intro g hg c hc
  apply hex_of_mem_digits u c
  rw [← flatten_groups u]
  exact List.mem_flatten.2 ⟨g, hg, hc⟩

theorem splitOn_render (u : Uuid) : u.render.splitOn '-' = u.groups := by
  rw [render_eq]
  apply List.splitOn_intercalate
  · intro g hg hm
    exact (hex_ascii (hex_of_mem_groups u g hg '-' hm)).2.1 rfl
  · simp [groups]

theorem mem_inGroups {sizes : List ℕ} {cs : List Char} {c : Char} (h : c ∈ inGroups sizes cs) :
    c = '-' ∨ c ∈ cs := by
  induction sizes generalizing cs with
  | nil => exact .inr h
  | cons n rest ih =>
    cases rest with
    | nil => exact .inr (List.mem_of_mem_take h)
    | cons m rest =>
      rw [inGroups, List.mem_append, List.mem_cons] at h
      · rcases h with h | h | h
        · exact .inr (List.mem_of_mem_take h)
        · exact .inl h
        · exact (ih h).imp_right List.mem_of_mem_drop
      · simp

theorem mem_render {u : Uuid} {c : Char} (h : c ∈ u.render) :
    c = '-' ∨ (Json.hexValue? c).isSome :=
  (mem_inGroups h).imp_right (hex_of_mem_digits u c)

theorem length_render (u : Uuid) : u.render.length = 36 := by
  simp [render, groupSizes, inGroups, length_digits]

theorem size_render (u : Uuid) : Text.Utf8.size u.render = 36 := by
  have hone : ∀ c ∈ u.render, c.utf8Size = 1 := by
    intro c hc
    rcases mem_render hc with rfl | hx
    · decide
    · exact (hex_ascii hx).1
  have hsize (cs : List Char) (n : ℕ) (h : ∀ c ∈ cs, c.utf8Size = 1) :
      cs.foldl (fun n c => n + c.utf8Size) n = n + cs.length := by
    induction cs generalizing n with
    | nil => rfl
    | cons c cs ih =>
      rw [List.foldl_cons, h c List.mem_cons_self, ih _ fun d hd => h d (List.mem_cons_of_mem c hd),
        List.length_cons]
      omega
  rw [Text.Utf8.size, hsize _ _ hone, length_render, Nat.zero_add]

theorem badCharacter?_eq_none {index : ℕ} {cs : List Char}
    (h : ∀ c ∈ cs, c = '-' ∨ (Json.hexValue? c).isSome) : badCharacter? index cs = none := by
  induction cs generalizing index with
  | nil => rfl
  | cons c cs ih =>
    rw [badCharacter?, if_pos (h c List.mem_cons_self)]
    exact ih fun d hd => h d (List.mem_cons_of_mem c hd)

theorem unwrap_render (u : Uuid) : unwrap u.render = ⟨0, true, u.render⟩ := by
  obtain ⟨c, cs, he⟩ : ∃ c cs, u.render = c :: cs :=
    List.exists_cons_of_length_eq_add_one (length_render u)
  have hc : c ≠ '\x7b' ∧ c.toLower ≠ 'u' := by
    rcases mem_render (he ▸ List.mem_cons_self) with rfl | hx
    · decide
    · exact (hex_ascii hx).2.2
  have hname : resourceName = 'u' :: "rn:uuid:".toList := by decide
  have hlower : ¬ (u.render.take resourceName.length).map Char.toLower = resourceName := by
    rw [he, hname, List.length_cons, List.take_succ_cons, List.map_cons]
    exact fun h => hc.2 (List.cons.inj h).1
  have hhead : ¬ u.render.head? = some '\x7b' := by
    rw [he, List.head?_cons]
    exact fun h => hc.1 (Option.some.inj h)
  rw [unwrap, if_neg (fun h => hhead h.1), if_neg hlower]

theorem parse_format (u : Uuid) : parse u.format = .ok u := by
  have hbad : badCharacter? 0 u.render = none := badCharacter?_eq_none fun c hc => mem_render hc
  have hlengths : badGroup? 0 groupSizes u.groups = none := by
    simp [groupSizes, groups, badGroup?, length_digits]
  have hdigits : ofDigits u.groups.flatten = .ok u := by
    rw [flatten_groups, ofDigits, dif_pos (ofHex_digits u ▸ u.value_lt)]
    simp only [ofHex_digits]
  have hcount : u.groups.length = 5 ∧ groupSizes.length = 5 := ⟨rfl, rfl⟩
  rw [parse, format, String.toList_ofList, read, size_render]
  simp only [unwrap_render, hbad, splitOn_render, hlengths, hdigits, hcount, longest]
  rfl

end HostedTests.Uuid
