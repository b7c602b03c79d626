import HostedTests.Files.Path
import Mathlib.Data.List.Basic
import Mathlib.Data.List.Nodup

namespace HostedTests.Files

namespace Component

theorem before_iff {a b : Component} :
    a.before b ↔ a.rank < b.rank ∨ ∃ x y, a = .named x ∧ b = .named y ∧ x < y := by
  cases a <;> cases b <;> simp [before, rank]

theorem before_irrefl (c : Component) : ¬c.before c := by
  rw [before_iff]
  rintro (hrank | ⟨x, y, rfl, heq, hlt⟩)
  · exact Nat.lt_irrefl _ hrank
  · cases heq
    exact String.lt_irrefl x hlt

theorem before_trans {a b c : Component} (hab : a.before b) (hbc : b.before c) : a.before c := by
  rw [before_iff] at hab hbc ⊢
  rcases hab with hab | ⟨x, y, rfl, rfl, hxy⟩
  · rcases hbc with hbc | ⟨y, z, rfl, rfl, hyz⟩
    · exact .inl (Nat.lt_trans hab hbc)
    · exact .inl hab
  · rcases hbc with hbc | ⟨y', z, heq, rfl, hyz⟩
    · exact .inl hbc
    · cases heq
      exact .inr ⟨x, z, rfl, rfl, String.lt_trans hxy hyz⟩

theorem eq_of_rank {a b : Component} (h : a.rank = b.rank) :
    a = b ∨ ∃ x y, a = .named x ∧ b = .named y := by
  cases a <;> cases b <;> simp [rank] at h ⊢

theorem before_total {a b : Component} (hne : a ≠ b) : a.before b ∨ b.before a := by
  rw [before_iff, before_iff]
  rcases Nat.lt_trichotomy a.rank b.rank with hrank | hrank | hrank
  · exact .inl (.inl hrank)
  · rcases eq_of_rank hrank with heq | ⟨x, y, rfl, rfl⟩
    · exact absurd heq hne
    · by_cases hxy : x < y
      · exact .inl (.inr ⟨x, y, rfl, rfl, hxy⟩)
      · by_cases hyx : y < x
        · exact .inr (.inr ⟨y, x, rfl, rfl, hyx⟩)
        · have hle : y ≤ x := String.not_lt.mp hxy
          have hge : x ≤ y := String.not_lt.mp hyx
          exact absurd (congrArg Component.named (String.le_antisymm hge hle)) hne
  · exact .inr (.inl hrank)

end Component

namespace Path

theorem before_irrefl (cs : List Component) : ¬before cs cs := by
  induction cs with
  | nil => simp [before]
  | cons c cs ih => simpa [before] using ih

theorem before_trans {as bs cs : List Component} (hab : before as bs) (hbc : before bs cs) :
    before as cs := by
  induction as generalizing bs cs with
  | nil =>
    cases cs with
    | nil => cases bs <;> simp [before] at hbc
    | cons c cs => rfl
  | cons a as ih =>
    cases bs with
    | nil => simp [before] at hab
    | cons b bs =>
      cases cs with
      | nil => simp [before] at hbc
      | cons c cs =>
        rw [before] at hab hbc ⊢
        split at hab
        next hfirst =>
          subst hfirst
          split at hbc
          next hsecond => rw [if_pos hsecond]; exact ih hab hbc
          next hsecond => rwa [if_neg hsecond]
        next hfirst =>
          split at hbc
          next hsecond => subst hsecond; rwa [if_neg hfirst]
          next hsecond =>
            rw [if_neg]
            · exact Component.before_trans hab hbc
            · rintro rfl
              exact Component.before_irrefl _ (Component.before_trans hab hbc)

theorem before_total {as bs : List Component} (hne : as ≠ bs) : before as bs ∨ before bs as := by
  induction as generalizing bs with
  | nil =>
    cases bs with
    | nil => exact absurd rfl hne
    | cons b bs => exact .inl rfl
  | cons a as ih =>
    cases bs with
    | nil => exact .inr rfl
    | cons b bs =>
      rw [before, before]
      by_cases hfirst : a = b
      · subst hfirst
        simp only [if_true]
        exact ih fun hrest => hne (hrest ▸ rfl)
      · rw [if_neg hfirst, if_neg (Ne.symm hfirst)]
        exact Component.before_total hfirst

def Ordered (paths : List String) : Prop :=
  paths.Pairwise fun p q => before (components p) (components q)

theorem mem_insert {p q : String} {paths : List String} (h : q ∈ insert p paths) :
    q = p ∨ q ∈ paths := by
  induction paths with
  | nil => exact .inl (List.mem_singleton.mp h)
  | cons first rest ih =>
    unfold insert at h
    split at h
    · exact (List.mem_cons.mp h).imp id (List.mem_cons_of_mem _)
    · split at h
      · exact List.mem_cons.mp h
      · rcases List.mem_cons.mp h with rfl | h
        · exact .inr List.mem_cons_self
        · exact (ih h).imp_right (List.mem_cons_of_mem _)

theorem mem_components_insert {p : String} {paths : List String} {cs : List Component} :
    cs ∈ (insert p paths).map components ↔ cs = components p ∨ cs ∈ paths.map components := by
  induction paths with
  | nil => simp [insert]
  | cons first rest ih =>
    unfold insert
    split
    next hsame => simp [hsame]
    next =>
      split
      · simp
      · rw [List.map_cons, List.mem_cons, ih, List.map_cons, List.mem_cons]
        tauto

theorem ordered_insert (p : String) {paths : List String} (h : Ordered paths) :
    Ordered (insert p paths) := by
  induction paths with
  | nil => exact List.pairwise_singleton _ _
  | cons first rest ih =>
    obtain ⟨hfirst, hrest⟩ := List.pairwise_cons.mp h
    unfold insert
    split
    next hsame => exact List.pairwise_cons.mpr ⟨fun q hq => hsame ▸ hfirst q hq, hrest⟩
    next hdiffer =>
      split
      next hbefore =>
        refine List.pairwise_cons.mpr ⟨fun q hq => ?_, h⟩
        rcases List.mem_cons.mp hq with rfl | hq
        · exact hbefore
        · exact before_trans hbefore (hfirst q hq)
      next hnotBefore =>
        refine List.pairwise_cons.mpr ⟨fun q hq => ?_, ih hrest⟩
        rcases mem_insert hq with rfl | hq
        · exact (before_total hdiffer).resolve_left hnotBefore
        · exact hfirst q hq

theorem mem_distinct {q : String} {paths : List String} (h : q ∈ distinct paths) : q ∈ paths := by
  have hfold (paths seen : List String)
      (hq : q ∈ paths.foldl (fun ps p => insert p ps) seen) : q ∈ seen ∨ q ∈ paths := by
    induction paths generalizing seen with
    | nil => exact .inl hq
    | cons p paths ih =>
      rcases ih (insert p seen) hq with hq | hq
      · rcases mem_insert hq with rfl | hq
        · exact .inr List.mem_cons_self
        · exact .inl hq
      · exact .inr (List.mem_cons_of_mem _ hq)
  exact (hfold paths [] h).resolve_left List.not_mem_nil

theorem mem_components_distinct {paths : List String} {cs : List Component} :
    cs ∈ (distinct paths).map components ↔ cs ∈ paths.map components := by
  have hfold (seen : List String) :
      cs ∈ (paths.foldl (fun ps p => insert p ps) seen).map components ↔
        cs ∈ seen.map components ∨ cs ∈ paths.map components := by
    induction paths generalizing seen with
    | nil => simp
    | cons p paths ih =>
      rw [List.foldl_cons, ih, mem_components_insert, List.map_cons, List.mem_cons]
      tauto
  simpa [distinct] using hfold []

theorem ordered_distinct (paths : List String) : Ordered (distinct paths) := by
  have hfold (seen : List String) (h : Ordered seen) :
      Ordered (paths.foldl (fun ps p => insert p ps) seen) := by
    induction paths generalizing seen with
    | nil => exact h
    | cons p paths ih => exact ih _ (ordered_insert p h)
  exact hfold [] List.Pairwise.nil

theorem components_nodup {paths : List String} (h : Ordered paths) :
    (paths.map components).Nodup := by
  apply List.Pairwise.map components _ h
  intro p q hbefore heq
  rw [heq] at hbefore
  exact before_irrefl _ hbefore

theorem components_distinct_eq {paths paths' : List String}
    (h : ∀ cs, cs ∈ paths.map components ↔ cs ∈ paths'.map components) :
    (distinct paths).map components = (distinct paths').map components := by
  have hordered (paths : List String) :
      ((distinct paths).map components).Pairwise fun as bs => before as bs :=
    List.pairwise_map.mpr (ordered_distinct paths)
  refine List.Perm.eq_of_pairwise ?_ (hordered paths) (hordered paths') ?_
  · intro as bs _ _ hab hba
    exact absurd (before_trans hab hba) (before_irrefl as)
  · rw [List.perm_ext_iff_of_nodup (components_nodup (ordered_distinct paths))
      (components_nodup (ordered_distinct paths'))]
    intro cs
    rw [mem_components_distinct, mem_components_distinct, h]

theorem distinct_eq {paths paths' : List String} (hmem : ∀ p, p ∈ paths ↔ p ∈ paths')
    (halike : ∀ p ∈ paths, ∀ q ∈ paths, components p = components q → p = q) :
    distinct paths = distinct paths' := by
  have hspelled : ∀ p ∈ distinct paths, ∀ q ∈ distinct paths', components p = components q →
      p = q := fun p hp q hq => halike p (mem_distinct hp) q ((hmem q).mpr (mem_distinct hq))
  have hcomponents : (distinct paths).map components = (distinct paths').map components :=
    components_distinct_eq fun cs => by simp [hmem]
  generalize distinct paths = ps at hspelled hcomponents
  generalize distinct paths' = qs at hspelled hcomponents
  induction ps generalizing qs with
  | nil => exact (List.map_eq_nil_iff.mp hcomponents.symm).symm
  | cons p ps ih =>
    cases qs with
    | nil => cases hcomponents
    | cons q qs =>
      obtain ⟨hfirst, hrest⟩ := List.cons.inj hcomponents
      rw [hspelled p List.mem_cons_self q List.mem_cons_self hfirst]
      congr 1
      apply ih _ _ hrest
      intro p hp q hq
      exact hspelled p (List.mem_cons_of_mem _ hp) q (List.mem_cons_of_mem _ hq)

end Path

end HostedTests.Files
