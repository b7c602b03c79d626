import HostedTests.Chunks

namespace HostedTests

variable {α : Type}

theorem Chunks.flatten_fill (most room : Nat) (chunk items : List α) :
    (fill most room chunk items).flatten = chunk.reverse ++ items := by
  induction items generalizing room chunk with
  | nil => cases chunk <;> simp [fill]
  | cons a rest ih =>
    cases room with
    | zero => rw [fill, List.flatten_cons, ih, List.reverse_singleton, List.singleton_append]
    | succ room => rw [fill, ih, List.reverse_cons, List.append_assoc, List.singleton_append]

theorem flatten_chunks (most : Nat) (items : List α) : (chunks most items).flatten = items := by
  rw [chunks, Chunks.flatten_fill, List.reverse_nil, List.nil_append]

theorem flatten_dropLast_chunks (most : Nat) (items : List α) :
    (chunks most items).dropLast.flatten ++ ((chunks most items).getLast?).getD [] = items := by
  have hflatten := flatten_chunks most items
  cases hlast : (chunks most items).getLast? with
  | none =>
    rw [List.getLast?_eq_none_iff] at hlast
    rw [hlast] at hflatten ⊢
    exact hflatten
  | some last =>
    obtain ⟨before, hsplit⟩ := List.getLast?_eq_some_iff.mp hlast
    rw [hsplit, List.flatten_concat] at hflatten
    rw [hsplit, List.dropLast_concat]
    exact hflatten

theorem length_flatten_of_full {size : Nat} {parts : List (List α)}
    (h : ∀ part ∈ parts, part.length = size) : parts.flatten.length = size * parts.length := by
  induction parts with
  | nil => simp
  | cons part parts ih =>
    obtain ⟨hpart, hparts⟩ := List.forall_mem_cons.mp h
    rw [List.flatten_cons, List.length_append, hpart, ih hparts, List.length_cons, Nat.mul_succ,
      Nat.add_comm]

theorem Chunks.length_of_mem_fill {most room : Nat} {chunk : List α} (items : List α)
    (hmost : 0 < most) (hroom : chunk.length + room = most) :
    ∀ part ∈ fill most room chunk items, 0 < part.length ∧ part.length ≤ most := by
  induction items generalizing room chunk with
  | nil =>
    intro part hpart
    cases chunk with
    | nil => simp [fill] at hpart
    | cons a chunk =>
      simp only [fill, List.isEmpty_cons, Bool.false_eq_true, if_false, List.mem_singleton] at hpart
      rw [hpart, List.length_reverse, List.length_cons]
      rw [List.length_cons] at hroom
      omega
  | cons a rest ih =>
    cases room with
    | zero =>
      rw [fill, List.forall_mem_cons, List.length_reverse]
      refine ⟨by omega, ih ?_⟩
      rw [List.length_singleton]
      omega
    | succ room =>
      apply ih
      rw [List.length_cons]
      omega

theorem Chunks.full_of_mem_dropLast_fill {most room : Nat} {chunk : List α} (items : List α)
    (hmost : 0 < most) (hroom : chunk.length + room = most) :
    ∀ part ∈ (fill most room chunk items).dropLast, part.length = most := by
  induction items generalizing room chunk with
  | nil => cases chunk <;> simp [fill]
  | cons a rest ih =>
    cases room with
    | zero =>
      have hrest : ∀ part ∈ (fill most (most - 1) [a] rest).dropLast, part.length = most := by
        apply ih
        rw [List.length_singleton]
        omega
      intro part hpart
      rw [fill] at hpart
      cases hfill : fill most (most - 1) [a] rest with
      | nil => simp [hfill] at hpart
      | cons next more =>
        rw [hfill, List.dropLast_cons_cons] at hpart
        rw [hfill] at hrest
        rcases List.mem_cons.mp hpart with rfl | hpart
        · rw [List.length_reverse]
          exact hroom
        · exact hrest part hpart
    | succ room =>
      apply ih
      rw [List.length_cons]
      omega

theorem length_of_mem_chunks {most : Nat} {items part : List α} (h : part ∈ chunks most items) :
    0 < part.length ∧ part.length ≤ max 1 most :=
  Chunks.length_of_mem_fill items (Nat.le_max_left 1 most) (Nat.zero_add _) part h

theorem full_of_mem_dropLast_chunks {most : Nat} {items part : List α}
    (h : part ∈ (chunks most items).dropLast) : part.length = max 1 most :=
  Chunks.full_of_mem_dropLast_fill items (Nat.le_max_left 1 most) (Nat.zero_add _) part h

theorem getLast?_chunks_eq_none_iff (most : Nat) (items : List α) :
    (chunks most items).getLast? = none ↔ items = [] := by
  have hflatten := flatten_chunks most items
  rw [List.getLast?_eq_none_iff]
  constructor
  · intro h
    rw [← hflatten, h, List.flatten_nil]
  · intro h
    rw [h, List.flatten_eq_nil_iff] at hflatten
    apply List.eq_nil_iff_forall_not_mem.mpr
    intro part hpart
    have hlength := (length_of_mem_chunks hpart).1
    rw [hflatten part (h ▸ hpart)] at hlength
    exact Nat.lt_irrefl 0 hlength

theorem length_dropLast_chunks (most : Nat) (items : List α) :
    (chunks most items).dropLast.length =
      (items.length + max 1 most - 1) / max 1 most - 1 := by
  have hsize : 0 < max 1 most := Nat.le_max_left 1 most
  have hfull : (chunks most items).dropLast.flatten.length =
      max 1 most * (chunks most items).dropLast.length :=
    length_flatten_of_full fun _ hpart => full_of_mem_dropLast_chunks hpart
  have htotal := congrArg List.length (flatten_dropLast_chunks most items)
  rw [List.length_append, hfull] at htotal
  cases hlast : (chunks most items).getLast? with
  | none =>
    rw [(getLast?_chunks_eq_none_iff most items).mp hlast]
    simp only [chunks, Chunks.fill, List.isEmpty_nil, if_true, List.dropLast_nil, List.length_nil,
      Nat.zero_add]
    rw [Nat.div_eq_of_lt (by omega)]
  | some last =>
    obtain ⟨hpos, hle⟩ := length_of_mem_chunks (List.mem_of_getLast? hlast)
    rw [hlast, Option.getD_some] at htotal
    have hquotient : (items.length + max 1 most - 1) / max 1 most =
        (chunks most items).dropLast.length + 1 := by
      rw [Nat.div_eq_iff hsize, ← htotal, Nat.succ_mul]
      rw [Nat.mul_comm (max 1 most)]
      omega
    rw [hquotient, Nat.add_sub_cancel]

end HostedTests
