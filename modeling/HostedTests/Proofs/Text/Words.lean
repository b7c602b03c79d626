import HostedTests.Proofs.Text.Digits

namespace HostedTests.Text

structure Solid (cs : List Char) : Prop where
  nonempty : cs ≠ []
  unbroken : ∀ c ∈ cs, isBlank c = false

instance (cs : List Char) : Decidable (Solid cs) :=
  decidable_of_iff (cs.isEmpty = false ∧ cs.all (fun c => !isBlank c) = true) <| by
    rw [List.isEmpty_eq_false_iff, List.all_eq_true]
    simp only [Bool.not_eq_true']
    exact ⟨fun h => ⟨h.1, h.2⟩, fun h => ⟨h.nonempty, h.unbroken⟩⟩

@[simp] theorem words_nil : words [] = [] := rfl

theorem words_cons (c : Char) (cs : List Char) :
    words (c :: cs) =
      if isBlank c then words cs
      else
        match cs, words cs with
        | [], _ => [[c]]
        | _, [] => [[c]]
        | d :: _, w :: ws => if isBlank d then [c] :: w :: ws else (c :: w) :: ws := rfl

theorem words_cons_blank {c : Char} (hc : isBlank c) (cs : List Char) :
    words (c :: cs) = words cs := by
  rw [words_cons, if_pos hc]

theorem words_singleton {c : Char} (hc : isBlank c = false) : words [c] = [[c]] := by
  rw [words_cons, if_neg (by simp [hc])]

theorem words_cons_break {c d : Char} (hc : isBlank c = false) (hd : isBlank d) (cs : List Char) :
    words (c :: d :: cs) = [c] :: words cs := by
  rw [words_cons, if_neg (by simp [hc]), words_cons_blank hd]
  cases words cs with
  | nil => rfl
  | cons w ws => exact if_pos hd

theorem words_cons_unbroken {c d : Char} (hc : isBlank c = false) (hd : isBlank d = false)
    (cs : List Char) :
    ∃ w ws, words (d :: cs) = w :: ws ∧ words (c :: d :: cs) = (c :: w) :: ws := by
  obtain ⟨w, ws, he⟩ : ∃ w ws, words (d :: cs) = w :: ws := by
    rw [words_cons, if_neg (by simp [hd])]
    split
    · exact ⟨_, _, rfl⟩
    · exact ⟨_, _, rfl⟩
    · split
      · exact ⟨_, _, rfl⟩
      · exact ⟨_, _, rfl⟩
  refine ⟨w, ws, he, ?_⟩
  rw [words_cons, if_neg (by simp [hc]), he]
  exact if_neg (by simp [hd])

theorem words_append_blank {b : Char} (hb : isBlank b) (cs ds : List Char) :
    words (cs ++ b :: ds) = words cs ++ words ds := by
  induction cs with
  | nil => exact words_cons_blank hb ds
  | cons c cs ih =>
    cases hc : isBlank c with
    | true => rw [List.cons_append, words_cons_blank hc, words_cons_blank hc, ih]
    | false =>
      cases cs with
      | nil => rw [List.cons_append, List.nil_append, words_cons_break hc hb, words_singleton hc,
          List.singleton_append]
      | cons d cs =>
        cases hd : isBlank d with
        | true =>
          rw [List.cons_append, words_cons_blank hd, words_cons_blank hd] at ih
          rw [List.cons_append, List.cons_append, words_cons_break hc hd, words_cons_break hc hd,
            ih, List.cons_append]
        | false =>
          obtain ⟨w, ws, he, hcons⟩ := words_cons_unbroken hc hd cs
          obtain ⟨v, vs, he', hcons'⟩ := words_cons_unbroken hc hd (cs ++ b :: ds)
          obtain ⟨rfl, rfl⟩ : v = w ∧ vs = ws ++ words ds := by
            rw [List.cons_append, he, he', List.cons_append] at ih
            exact List.cons.inj ih
          rw [List.cons_append, List.cons_append, hcons', hcons, List.cons_append]

theorem words_trimStart (cs : List Char) : words (trimStart cs) = words cs := by
  induction cs with
  | nil => rfl
  | cons c cs ih =>
    rw [trimStart] at ih ⊢
    cases hc : isBlank c with
    | true => rw [List.dropWhile_cons_of_pos hc, ih, words_cons_blank hc]
    | false => rw [List.dropWhile_cons_of_neg (by simp [hc])]

theorem words_of_solid {cs : List Char} (h : Solid cs) : words cs = [cs] := by
  induction cs with
  | nil => exact absurd rfl h.nonempty
  | cons c cs ih =>
    have hc := h.unbroken c List.mem_cons_self
    cases cs with
    | nil => exact words_singleton hc
    | cons d cs =>
      have hrest : Solid (d :: cs) :=
        ⟨List.cons_ne_nil _ _, fun e he => h.unbroken e (List.mem_cons_of_mem _ he)⟩
      obtain ⟨w, ws, he, hcons⟩ :=
        words_cons_unbroken hc (hrest.unbroken d List.mem_cons_self) cs
      obtain ⟨rfl, rfl⟩ : w = d :: cs ∧ ws = [] := List.cons.inj (he.symm.trans (ih hrest))
      exact hcons

theorem solid_of_mem_words {cs w : List Char} (h : w ∈ words cs) : Solid w := by
  induction cs generalizing w with
  | nil => simp at h
  | cons c cs ih =>
    cases hc : isBlank c with
    | true => exact ih (words_cons_blank hc cs ▸ h)
    | false =>
      have hone : Solid [c] := ⟨List.cons_ne_nil _ _, by simpa using hc⟩
      cases cs with
      | nil =>
        rw [words_singleton hc, List.mem_singleton] at h
        exact h ▸ hone
      | cons d cs =>
        cases hd : isBlank d with
        | true =>
          rw [words_cons_break hc hd] at h
          rcases List.mem_cons.1 h with rfl | h
          · exact hone
          · exact ih (by rwa [words_cons_blank hd])
        | false =>
          obtain ⟨v, vs, he, hcons⟩ := words_cons_unbroken hc hd cs
          rw [hcons] at h
          rw [he] at ih
          rcases List.mem_cons.1 h with rfl | h
          · refine ⟨List.cons_ne_nil _ _, fun e hmem => ?_⟩
            rcases List.mem_cons.1 hmem with rfl | hmem
            · exact hc
            · exact (ih List.mem_cons_self).unbroken e hmem
          · exact ih (List.mem_cons_of_mem _ h)

theorem flatMap_words_eq_iff (texts : List (List Char)) :
    texts.flatMap words = texts ↔ ∀ cs ∈ texts, Solid cs := by
  constructor
  · intro h cs hcs
    rw [← h, List.mem_flatMap] at hcs
    obtain ⟨_, _, hw⟩ := hcs
    exact solid_of_mem_words hw
  · intro h
    induction texts with
    | nil => rfl
    | cons cs texts ih =>
      rw [List.flatMap_cons, words_of_solid (h cs List.mem_cons_self),
        ih fun ds hds => h ds (List.mem_cons_of_mem _ hds), List.singleton_append]

theorem words_intercalate {b : Char} (hb : isBlank b) (texts : List (List Char)) :
    words ([b].intercalate texts) = texts.flatMap words := by
  induction texts with
  | nil => rfl
  | cons cs texts ih =>
    cases texts with
    | nil => rw [List.intercalate_singleton, List.flatMap_singleton]
    | cons ds texts =>
      rw [List.intercalate_cons_cons, List.append_assoc, List.singleton_append,
        words_append_blank hb, ih, ← List.flatMap_cons]

theorem isBlank_of_isDigit {c : Char} (h : isDigit c) : isBlank c = false := by
  have hrange := toNat_of_isDigit h
  simp [isBlank]
  omega

theorem solid_decimal (n : ℕ) : Solid (decimal n) := by
  refine ⟨?_, fun c hc => isBlank_of_isDigit (isDigit_of_mem_decimal c hc)⟩
  obtain ⟨c, cs, he, -⟩ := decimal_head n
  rw [he]
  exact List.cons_ne_nil c cs

def wordsOf (s : String) : List String := (words s.toList).map String.ofList

def IsWord (s : String) : Prop := Solid s.toList

instance (s : String) : Decidable (IsWord s) := inferInstanceAs (Decidable (Solid s.toList))

theorem wordsOf_of_isWord {s : String} (h : IsWord s) : wordsOf s = [s] := by
  rw [wordsOf, words_of_solid h, List.map_singleton, String.ofList_toList]

theorem isWord_number (n : ℕ) : IsWord (toString n) := by
  rw [IsWord, Nat.toString_eq_repr, Nat.toList_repr]
  exact solid_decimal n

theorem flatMap_wordsOf (texts : List String) :
    texts.flatMap wordsOf = ((texts.map String.toList).flatMap words).map String.ofList := by
  rw [List.map_flatMap, List.flatMap_map]
  rfl

theorem wordsOf_intercalate (texts : List String) :
    wordsOf (" ".intercalate texts) = texts.flatMap wordsOf := by
  have hspace : " ".toList = [' '] := rfl
  rw [wordsOf, String.toList_intercalate, hspace, words_intercalate rfl, flatMap_wordsOf]

theorem flatMap_wordsOf_eq_iff (texts : List String) :
    texts.flatMap wordsOf = texts ↔ ∀ s ∈ texts, IsWord s := by
  have hback : (texts.map String.toList).map String.ofList = texts := by
    rw [List.map_map]
    exact (List.map_congr_left fun s _ => String.ofList_toList).trans (List.map_id texts)
  have hinjective : Function.Injective String.ofList := fun a b h => by
    simpa using congrArg String.toList h
  rw [flatMap_wordsOf]
  conv_lhs => rhs; rw [← hback]
  rw [(List.map_injective_iff.2 hinjective).eq_iff, flatMap_words_eq_iff, List.forall_mem_map]
  rfl

theorem wordsOf_append_space (s t : String) :
    wordsOf (s ++ " " ++ t) = wordsOf s ++ wordsOf t := by
  have hspace : " ".toList = [' '] := rfl
  rw [wordsOf, String.toList_append, String.toList_append, hspace, List.append_assoc,
    List.singleton_append, words_append_blank rfl, List.map_append]
  rfl

theorem wordsOf_trimStart (s : String) :
    wordsOf (String.ofList (trimStart s.toList)) = wordsOf s := by
  rw [wordsOf, String.toList_ofList, words_trimStart]
  rfl

end HostedTests.Text
