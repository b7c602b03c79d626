import HostedTests.Proofs.Dictionary
import HostedTests.Proofs.Host.Loading
import HostedTests.Proofs.Json.Sorted
import HostedTests.Proofs.Session.Starting

namespace HostedTests

theorem RunCriteria.mem_firstSeen (items : List String) (s : String) :
    s ∈ firstSeen items ↔ s ∈ items := by
  have hfold (seen : List String) :
      s ∈ items.foldl (fun seen s => if s ∈ seen then seen else seen ++ [s]) seen ↔
        s ∈ seen ∨ s ∈ items := by
    induction items generalizing seen with
    | nil => simp
    | cons item items ih =>
      rw [List.foldl_cons, ih, List.mem_cons, ← or_assoc]
      split
      · rename_i hmem
        constructor
        · rintro (h | h)
          · exact Or.inl (Or.inl h)
          · exact Or.inr h
        · rintro ((h | rfl) | h)
          · exact Or.inl h
          · exact Or.inl hmem
          · exact Or.inr h
      · rw [List.mem_append, List.mem_singleton]
  rw [firstSeen, hfold, or_iff_right List.not_mem_nil]

theorem eraseDups_induction {α : Type} [BEq α] {motive : List α → Prop} (nil : motive [])
    (cons : ∀ a rest, motive (rest.filter (!· == a)) → motive (a :: rest)) (items : List α) :
    motive items := by
  induction hn : items.length using Nat.strongRecOn generalizing items with
  | ind n ih =>
    cases items with
    | nil => exact nil
    | cons a rest =>
      have hle := List.length_filter_le (!· == a) rest
      rw [List.length_cons] at hn
      exact cons a rest (ih _ (by omega) _ rfl)

section

variable {α β : Type} [BEq α]

theorem eraseDups_sublist (items : List α) : items.eraseDups.Sublist items := by
  induction items using eraseDups_induction with
  | nil => exact .slnil
  | cons a rest ih =>
    rw [List.eraseDups_cons]
    exact (ih.trans List.filter_sublist).cons_cons a

theorem findSome?_filter_ne [LawfulBEq α] {f : α → Option β} {a : α} (ha : f a = none)
    (items : List α) : (items.filter (!· == a)).findSome? f = items.findSome? f := by
  induction items with
  | nil => rfl
  | cons b items ih =>
    by_cases hb : b = a
    · rw [List.filter_cons_of_neg (by simpa using hb), ih, List.findSome?_cons, hb, ha]
    · rw [List.filter_cons_of_pos (by simpa using hb), List.findSome?_cons, List.findSome?_cons, ih]

theorem findSome?_eraseDups [LawfulBEq α] (f : α → Option β) (items : List α) :
    items.eraseDups.findSome? f = items.findSome? f := by
  induction items using eraseDups_induction with
  | nil => rfl
  | cons a rest ih =>
    rw [List.eraseDups_cons, List.findSome?_cons, List.findSome?_cons, ih]
    cases ha : f a with
    | some b => rfl
    | none => exact findSome?_filter_ne ha rest

end

theorem findSome?_flatMap {α β γ : Type} (f : α → List β) (g : β → Option γ) (items : List α) :
    (items.flatMap f).findSome? g = items.findSome? fun a => (f a).findSome? g := by
  induction items with
  | nil => rfl
  | cons a items ih =>
    rw [List.flatMap_cons, List.findSome?_append, List.findSome?_cons, ih]
    cases (f a).findSome? g <;> rfl

theorem RunCriteria.firstSeen_map {α : Type} [BEq α] [LawfulBEq α] (f : α → String) (items : List α)
    (hf : ∀ a ∈ items, ∀ b ∈ items, f a = f b → a = b) :
    firstSeen (items.map f) = items.eraseDups.map f := by
  -- What is seen already is kept apart, and the rest counts without it.
  have hfold (rest seen : List α) (hrest : rest ⊆ items) (hseen : seen ⊆ items) :
      (rest.map f).foldl (fun seen s => if s ∈ seen then seen else seen ++ [s]) (seen.map f) =
        (seen ++ (rest.filter (· ∉ seen)).eraseDups).map f := by
    induction rest generalizing seen with
    | nil => simp
    | cons a rest ih =>
      obtain ⟨ha, hrest⟩ := List.cons_subset.mp hrest
      have hmem : f a ∈ seen.map f ↔ a ∈ seen := by
        constructor
        · intro h
          obtain ⟨b, hb, hab⟩ := List.mem_map.mp h
          rwa [← hf b (hseen hb) a ha hab]
        · exact List.mem_map_of_mem
      rw [List.map_cons, List.foldl_cons]
      by_cases h : a ∈ seen
      · rw [if_pos (hmem.mpr h), ih seen hrest hseen, List.filter_cons_of_neg (by simpa using h)]
      · have hnext : seen ++ [a] ⊆ items :=
          List.append_subset.mpr ⟨hseen, List.cons_subset.mpr ⟨ha, List.nil_subset _⟩⟩
        have hfilter : rest.filter (· ∉ seen ++ [a]) =
            (rest.filter (· ∉ seen)).filter (!· == a) := by
          rw [List.filter_filter]
          apply List.filter_congr
          intro b _
          rw [Bool.eq_iff_iff]
          simp [and_comm]
        have hmapped : seen.map f ++ [f a] = (seen ++ [a]).map f := by
          rw [List.map_append, List.map_singleton]
        rw [if_neg (mt hmem.mp h), hmapped, ih (seen ++ [a]) hrest hnext, hfilter,
          List.filter_cons_of_pos (by simpa using h), List.eraseDups_cons, List.append_assoc,
          List.singleton_append]
  have hall := hfold items [] (List.Subset.refl _) (List.nil_subset _)
  simpa [firstSeen] using hall

theorem Dictionary.mem_keys_ofList {α : Type} (entries : List (String × α)) (key : String) :
    key ∈ (ofList entries).entries.map Prod.fst ↔ key ∈ entries.map Prod.fst := by
  have hfold (d : Dictionary α) :
      key ∈ (entries.foldl (fun d e => d.insert e.1 e.2) d).entries.map Prod.fst ↔
        key ∈ d.entries.map Prod.fst ∨ key ∈ entries.map Prod.fst := by
    induction entries generalizing d with
    | nil => simp
    | cons e entries ih =>
      have hinsert : key ∈ (d.insert e.1 e.2).entries.map Prod.fst ↔
          key = e.1 ∨ key ∈ d.entries.map Prod.fst := by
        constructor
        · intro h
          obtain ⟨f, hf, rfl⟩ := List.mem_map.mp h
          rcases mem_insertEntry hf with rfl | hf
          · exact Or.inl rfl
          · exact Or.inr (List.mem_map_of_mem hf)
        · exact keys_insertEntry e.1 e.2
      rw [List.foldl_cons, ih, hinsert, List.map_cons, List.mem_cons, or_assoc]
      exact or_left_comm
  rw [ofList, hfold]
  exact or_iff_right List.not_mem_nil

theorem ReferenceHost.mem_sourcesOf (tests : List TestCase) (source : String) :
    source ∈ sourcesOf tests ↔ source ∈ tests.map TestCase.source := by
  rw [sourcesOf, Dictionary.mem_keys_ofList, List.map_map]
  rfl

namespace ReferenceHost

theorem foldl_firstSeen (items : List String) {seen : Dictionary Unit} {before : List String}
    (h : ∀ s, (seen.get? s).isSome ↔ s ∈ before) :
    items.foldl (fun seen s => if s ∈ seen then seen else seen ++ [s]) before =
      before ++ newTo seen items := by
  induction items generalizing seen before with
  | nil => simp [newTo]
  | cons item items ih =>
    rw [List.foldl_cons, newTo]
    by_cases hmem : item ∈ before
    · rw [if_pos hmem, if_pos ((h item).mpr hmem), ih h]
    · have hnext (s : String) :
          ((seen.insert item ()).get? s).isSome ↔ s ∈ before ++ [item] := by
        rw [Dictionary.get?_insert, List.mem_append, List.mem_singleton, ← h]
        by_cases hs : s = item
        · simp [hs]
        · simp [hs]
      rw [if_neg hmem, if_neg (mt (h item).mp hmem), ih hnext, List.append_assoc,
        List.singleton_append]

theorem newTo_empty (items : List String) :
    newTo .empty items = RunCriteria.firstSeen items := by
  have hempty (s : String) : ((Dictionary.empty : Dictionary Unit).get? s).isSome ↔ s ∈ [] := by
    simp [Dictionary.empty, Dictionary.get?]
  rw [RunCriteria.firstSeen, foldl_firstSeen items hempty, List.nil_append]

theorem runSources_eq (w : Surroundings) (h : ReferenceHost) (c : SourcesCriteria) :
    h.runSources w c =
      let l := load w h.nextId (RunCriteria.sources c).touched
      h.afterLoad l fun h => h.run w l.tests c.context := by
  rw [runSources, newTo_empty]
  rfl

end ReferenceHost

namespace Surroundings

variable (w : Surroundings)

def prescribed? (source name : String) : Option Outcome :=
  ((w.lines source).filterMap SourceLine.test?).lookup name

def outcome (c : TestCase) : Outcome :=
  (w.prescribed? c.source c.fullyQualifiedName).getD .notFound

def testsFor (first : Nat) : RunCriteria → List ScriptedTest
  | .sources c => w.testsOf first (RunCriteria.firstSeen c.adapterSources.values.flatten)
  | .tests c => c.tests.map fun t => ⟨t, w.outcome t⟩

theorem find?_scripted_single (source name : String) (s : String) :
    ((w.scripted [s]).find? fun t => t.1 = source ∧ t.2.1 = name).map (·.2.2) =
      if s = source then w.prescribed? source name else none := by
  have hflat : w.scripted [s] = (w.lines s).filterMap fun line => line.test?.map fun t => (s, t) :=
    List.flatMap_singleton ..
  rw [hflat, prescribed?]
  by_cases hs : s = source
  · subst hs
    rw [if_pos rfl]
    induction w.lines s with
    | nil => rfl
    | cons line lines ih =>
      cases line with
      | crash text => exact ih
      | test n o =>
        simp only [SourceLine.test?, List.filterMap_cons, Option.map_some, List.find?_cons,
          true_and, List.lookup_cons]
        by_cases hn : n = name
        · subst hn
          simp
        · simp only [hn, decide_false, beq_eq_false_iff_ne.mpr (Ne.symm hn)]
          exact ih
  · rw [if_neg hs, Option.map_eq_none_iff, List.find?_eq_none]
    intro t ht
    obtain ⟨line, -, hline⟩ := List.mem_filterMap.mp ht
    obtain ⟨t', -, rfl⟩ := Option.map_eq_some_iff.mp hline
    simp [hs]

theorem find?_scripted (sources : List String) (source name : String) :
    ((w.scripted sources).find? fun t => t.1 = source ∧ t.2.1 = name).map (·.2.2) =
      if source ∈ sources then w.prescribed? source name else none := by
  induction sources with
  | nil => rfl
  | cons s sources ih =>
    have hsplit : w.scripted (s :: sources) = w.scripted [s] ++ w.scripted sources := by
      rw [← List.singleton_append]
      exact List.flatMap_append
    rw [hsplit, List.find?_append, Option.map_or, find?_scripted_single, ih]
    by_cases hs : s = source
    · subst hs
      rw [if_pos rfl, if_pos List.mem_cons_self]
      cases w.prescribed? s name with
      | some o => rfl
      | none => split <;> rfl
    · rw [if_neg hs, Option.none_or]
      simp only [List.mem_cons, Ne.symm hs, false_or]

theorem outcomeOf_testsOf (first : Nat) {sources : List String} {c : TestCase}
    (h : c.source ∈ sources) :
    ReferenceHost.outcomeOf (w.testsOf first sources) c = w.outcome c := by
  have hnumbered (ts : List (String × String × Outcome)) (n : Nat) :
      (((ts.zipIdx n).map w.number).find? fun t => t.testCase.source = c.source ∧
        t.testCase.fullyQualifiedName = c.fullyQualifiedName).map (·.outcome) =
      (ts.find? fun t => t.1 = c.source ∧ t.2.1 = c.fullyQualifiedName).map (·.2.2) := by
    induction ts generalizing n with
    | nil => rfl
    | cons t ts ih =>
      rw [List.zipIdx_cons, List.map_cons, List.find?_cons, List.find?_cons]
      by_cases ht : t.1 = c.source ∧ t.2.1 = c.fullyQualifiedName
      · simp only [number, TestCase.named, ht, and_self, decide_true]
        rfl
      · simp only [number, TestCase.named, ht, decide_false]
        exact ih (n + 1)
  rw [ReferenceHost.outcomeOf, testsOf, hnumbered, find?_scripted, if_pos h, outcome]

end Surroundings

end HostedTests
