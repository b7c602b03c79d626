import HostedTests.Proofs.Text.Words
import Mathlib.Data.List.DropRight

namespace HostedTests.Text

def Blanks (cs : List Char) : Prop := ∀ c ∈ cs, isBlank c = true

def Trimmed (cs : List Char) : Prop := trim cs = cs

instance (cs : List Char) : Decidable (Trimmed cs) := inferInstanceAs (Decidable (trim cs = cs))

theorem blanks_nil : Blanks [] := List.forall_mem_nil _

theorem Blanks.append {cs ds : List Char} (h : Blanks cs) (h' : Blanks ds) : Blanks (cs ++ ds) :=
  List.forall_mem_append.mpr ⟨h, h'⟩

theorem Blanks.reverse {cs : List Char} (h : Blanks cs) : Blanks cs.reverse :=
  fun c hc => h c (List.mem_reverse.mp hc)

theorem trimStart_append {before : List Char} (h : Blanks before) (cs : List Char) :
    trimStart (before ++ cs) = trimStart cs := List.dropWhile_append_of_pos h

theorem trimStart_blanks {cs : List Char} (h : Blanks cs) : trimStart cs = [] := by
  have happend := trimStart_append h []
  rwa [List.append_nil] at happend

theorem trimEnd_append {after : List Char} (h : Blanks after) (cs : List Char) :
    trimEnd (cs ++ after) = trimEnd cs := by
  rw [trimEnd, List.reverse_append, List.dropWhile_append_of_pos h.reverse]
  rfl

theorem exists_trimStart (cs : List Char) : ∃ before, Blanks before ∧ cs = before ++ trimStart cs :=
  ⟨cs.takeWhile isBlank, fun _ => List.mem_takeWhile_imp, List.takeWhile_append_dropWhile.symm⟩

theorem exists_trimEnd (cs : List Char) : ∃ after, Blanks after ∧ cs = trimEnd cs ++ after := by
  obtain ⟨before, hbefore, hcs⟩ := exists_trimStart cs.reverse
  refine ⟨before.reverse, hbefore.reverse, ?_⟩
  rw [trimEnd, ← List.reverse_append]
  exact List.reverse_eq_iff.mp hcs

theorem exists_trim (cs : List Char) :
    ∃ before after, Blanks before ∧ Blanks after ∧ cs = before ++ trim cs ++ after := by
  obtain ⟨before, hbefore, hstart⟩ := exists_trimStart cs
  obtain ⟨after, hafter, hend⟩ := exists_trimEnd (trimStart cs)
  refine ⟨before, after, hbefore, hafter, ?_⟩
  rw [trim, List.append_assoc, ← hend, ← hstart]

theorem trim_append_left {before : List Char} (h : Blanks before) (cs : List Char) :
    trim (before ++ cs) = trim cs := by
  rw [trim, trimStart_append h, trim]

theorem trim_append_right {after : List Char} (h : Blanks after) (cs : List Char) :
    trim (cs ++ after) = trim cs := by
  obtain ⟨before, hbefore, hcs⟩ := exists_trimStart cs
  rw [hcs, List.append_assoc, trim_append_left hbefore, trim_append_left hbefore]
  cases hstart : trimStart cs with
  | nil =>
    rw [List.nil_append, trim, trimStart_blanks h]
    rfl
  | cons c rest =>
    have hc : isBlank c = false := by
      have hhead := List.head?_dropWhile_not isBlank cs
      rw [trimStart] at hstart
      rwa [hstart] at hhead
    rw [trim, trim, List.cons_append, trimStart_cons hc, trimStart_cons hc, ← List.cons_append,
      trimEnd_append h]

theorem trim_around {before after : List Char} (h : Blanks before) (h' : Blanks after)
    (cs : List Char) : trim (before ++ cs ++ after) = trim cs := by
  rw [trim_append_right h', trim_append_left h]

theorem trimmed_trim (cs : List Char) : Trimmed (trim cs) := by
  obtain ⟨before, after, hbefore, hafter, hcs⟩ := exists_trim cs
  rw [Trimmed]
  conv_rhs => rw [hcs, trim_around hbefore hafter]

theorem trim_trimEnd (cs : List Char) : trim (trimEnd cs) = trim cs := by
  obtain ⟨after, hafter, hcs⟩ := exists_trimEnd cs
  conv_rhs => rw [hcs, trim_append_right hafter]

theorem trimEnd_cons {c : Char} (h : isBlank c = false) (cs : List Char) :
    trimEnd (c :: cs) = c :: trimEnd cs := by
  rw [trimEnd, trimEnd, List.reverse_cons, List.dropWhile_append]
  split
  · rename_i hnone
    rw [List.isEmpty_iff.mp hnone, List.dropWhile_cons_of_neg (by simp [h])]
    rfl
  · rw [List.reverse_append]
    rfl

theorem trim_word_append {word : List Char} (h : Solid word) (cs : List Char) :
    trim (word ++ cs) = word ++ trimEnd cs := by
  have hend (ds : List Char) (hds : ∀ c ∈ ds, isBlank c = false) :
      trimEnd (ds ++ cs) = ds ++ trimEnd cs := by
    induction ds with
    | nil => rfl
    | cons d ds ih =>
      obtain ⟨hd, hds⟩ := List.forall_mem_cons.mp hds
      rw [List.cons_append, trimEnd_cons hd, ih hds, List.cons_append]
  obtain ⟨c, rest, rfl⟩ := List.exists_cons_of_ne_nil h.nonempty
  rw [trim, List.cons_append, trimStart_cons (h.unbroken c List.mem_cons_self), ← List.cons_append,
    hend _ h.unbroken]

end HostedTests.Text
