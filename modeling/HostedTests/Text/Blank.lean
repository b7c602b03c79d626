namespace HostedTests.Text

/-- The characters with the property White_Space. -/
def isBlank (c : Char) : Bool :=
  let n := c.toNat
  (9 ≤ n && n ≤ 13) || n == 0x20 || n == 0x85 || n == 0xA0 || n == 0x1680 ||
    (0x2000 ≤ n && n ≤ 0x200A) || n == 0x2028 || n == 0x2029 || n == 0x202F || n == 0x205F ||
    n == 0x3000

def trimStart (cs : List Char) : List Char := cs.dropWhile isBlank

def trimEnd (cs : List Char) : List Char := (cs.reverse.dropWhile isBlank).reverse

def trim (cs : List Char) : List Char := trimEnd (trimStart cs)

def allBlank (s : String) : Bool := s.toList.all isBlank

def words : List Char → List (List Char)
  | [] => []
  | c :: rest =>
    if isBlank c then words rest
    else
      match rest, words rest with
      | [], _ => [[c]]
      | _, [] => [[c]]
      | d :: _, w :: ws => if isBlank d then [c] :: w :: ws else (c :: w) :: ws

def cut (c : Char) : List Char → Option (List Char × List Char)
  | [] => none
  | d :: rest =>
    if d = c then some ([], rest) else (cut c rest).map fun p => (d :: p.1, p.2)

@[simp] theorem cut_nil (c : Char) : cut c [] = none := rfl

theorem cut_eq_some {c : Char} {cs left right : List Char} (h : cut c cs = some (left, right)) :
    cs = left ++ c :: right ∧ c ∉ left := by
  induction cs generalizing left with
  | nil => simp at h
  | cons d rest ih =>
    by_cases hd : d = c
    · simp only [cut, hd, if_true, Option.some.injEq, Prod.mk.injEq] at h
      simp [← h.1, ← h.2, hd]
    · simp only [cut, hd, if_false, Option.map_eq_some_iff] at h
      obtain ⟨⟨l, r⟩, hp, he⟩ := h
      obtain ⟨rfl, rfl⟩ := Prod.mk.injEq .. ▸ he
      obtain ⟨h1, h2⟩ := ih hp
      exact ⟨by simp [h1], by simp [h2, Ne.symm hd]⟩

theorem cut_eq_none {c : Char} {cs : List Char} (h : c ∉ cs) : cut c cs = none := by
  cases hcut : cut c cs with
  | none => rfl
  | some p =>
    rw [(cut_eq_some hcut).1] at h
    exact absurd (List.mem_append_right _ List.mem_cons_self) h

theorem cut_append {c : Char} {left : List Char} (h : c ∉ left) (right : List Char) :
    cut c (left ++ c :: right) = some (left, right) := by
  induction left with
  | nil => simp [cut]
  | cons d rest ih =>
    simp only [List.mem_cons, not_or] at h
    simp [cut, Ne.symm h.1, ih h.2]

end HostedTests.Text
