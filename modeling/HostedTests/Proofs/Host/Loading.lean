import HostedTests.Host.Reference

namespace HostedTests

namespace SourceLine

def test? : SourceLine → Option (String × Outcome)
  | test name outcome => some (name, outcome)
  | crash _ => none

def crash? : SourceLine → Option String
  | test _ _ => none
  | crash text => some text

theorem outcome_of_mem_parse {text name : String} {o : Outcome} (h : .test name o ∈ parse text) :
    o ∈ [.passed, .failed, .skipped] := by
  obtain ⟨cs, -, hcs⟩ := List.mem_filterMap.mp h
  unfold ofTrimmed? at hcs
  repeat' split at hcs
  all_goals cases hcs
  all_goals decide

end SourceLine

namespace Surroundings

open ReferenceHost (executorUri remark)

variable (w : Surroundings)

def lines (source : String) : List SourceLine :=
  match w.read source with
  | .ok text => SourceLine.parse text
  | .error _ => []

def warning? (source : String) : Option Message :=
  match w.read source with
  | .ok _ => none
  | .error why => some (remark .warning s!"could not read source {source}: {why}")

def scripted (sources : List String) : List (String × String × Outcome) :=
  sources.flatMap fun source => (w.lines source).filterMap fun line =>
    line.test?.map fun t => (source, t)

def number (t : (String × String × Outcome) × Nat) : ScriptedTest :=
  ⟨.named (w.id t.2) t.1.2.1 executorUri t.1.1, t.1.2.2⟩

def testsOf (first : Nat) (sources : List String) : List ScriptedTest :=
  ((w.scripted sources).zipIdx first).map w.number

theorem map_snd_scripted (sources : List String) :
    (w.scripted sources).map Prod.snd = (sources.flatMap w.lines).filterMap SourceLine.test? := by
  have hline (source : String) : (fun line : SourceLine =>
      (line.test?.map fun t => (source, t)).map Prod.snd) = SourceLine.test? := by
    funext line
    cases line <;> rfl
  rw [scripted, List.map_flatMap, List.filterMap_flatMap]
  congr
  funext source
  rw [List.map_filterMap, hline]

theorem map_testsOf {α : Type} (first : Nat) (sources : List String) (f : ScriptedTest → α)
    (g : String × Outcome → α) (h : ∀ t, f (w.number t) = g t.1.2) :
    (w.testsOf first sources).map f =
      ((sources.flatMap w.lines).filterMap SourceLine.test?).map g := by
  have hcomp : f ∘ w.number = (g ∘ Prod.snd) ∘ Prod.fst := funext h
  rw [testsOf, List.map_map, hcomp, ← List.map_map, List.zipIdx_map_fst, ← List.map_map,
    map_snd_scripted]

theorem prescriptions_testsOf (first : Nat) (sources : List String) :
    (w.testsOf first sources).map
        (fun t => (t.testCase.source, t.testCase.fullyQualifiedName, t.outcome)) =
      w.scripted sources := by
  rw [testsOf, List.map_map]
  exact List.zipIdx_map_fst first (w.scripted sources)

def CrashFree (sources : List String) : Prop :=
  ∀ source ∈ sources, ∀ text, SourceLine.crash text ∉ w.lines source

theorem crashFree_iff (sources : List String) :
    w.CrashFree sources ↔ (sources.flatMap w.lines).findSome? SourceLine.crash? = none := by
  rw [List.findSome?_eq_none_iff]
  constructor
  · intro h line hline
    obtain ⟨source, hsource, hline⟩ := List.mem_flatMap.mp hline
    cases line with
    | test name outcome => rfl
    | crash text => exact absurd hline (h source hsource text)
  · intro h source hsource text hline
    have hnone := h _ (List.mem_flatMap.mpr ⟨source, hsource, hline⟩)
    cases hnone

end Surroundings

namespace ReferenceHost

variable (w : Surroundings)

theorem foldl_loadLine_crashed (source : String) (lines : List SourceLine) {l : Loaded}
    (h : l.crash.isSome) : lines.foldl (loadLine w source) l = l := by
  induction lines with
  | nil => rfl
  | cons line lines ih =>
    have hline : loadLine w source l line = l := by
      unfold loadLine
      exact if_pos h
    rw [List.foldl_cons, hline, ih]

theorem loadLine_test (source name : String) (outcome : Outcome) {l : Loaded}
    (h : l.crash = none) :
    loadLine w source l (.test name outcome) =
      { l with tests := l.tests ++ [w.number ((source, name, outcome), l.nextId)],
               nextId := l.nextId + 1 } := by
  rw [loadLine, h]
  rfl

theorem foldl_loadLine (source : String) (lines : List SourceLine) {l : Loaded}
    (h : l.crash = none) (hfree : ∀ text, SourceLine.crash text ∉ lines) :
    let named := lines.filterMap fun line => line.test?.map fun t => (source, t)
    lines.foldl (loadLine w source) l =
      { l with tests := l.tests ++ (named.zipIdx l.nextId).map w.number,
               nextId := l.nextId + named.length } := by
  induction lines generalizing l with
  | nil =>
    simp only [List.foldl_nil, List.filterMap_nil, List.zipIdx_nil, List.map_nil, List.append_nil,
      List.length_nil, Nat.add_zero]
  | cons line lines ih =>
    cases line with
    | crash text => exact absurd List.mem_cons_self (hfree text)
    | test name outcome =>
      rw [List.foldl_cons, loadLine_test w source name outcome h, ih]
      · simp only [SourceLine.test?, List.filterMap_cons, Option.map_some, List.zipIdx_cons,
          List.map_cons, List.append_assoc, List.singleton_append, List.length_cons,
          Nat.add_assoc, Nat.add_comm 1]
      · exact h
      · exact fun text hmem => hfree text (List.mem_cons_of_mem _ hmem)

theorem foldl_loadLine_crash (source : String) (lines : List SourceLine) {l : Loaded}
    (h : l.crash = none) :
    (lines.foldl (loadLine w source) l).crash = lines.findSome? SourceLine.crash? ∧
      (lines.foldl (loadLine w source) l).sent = l.sent := by
  induction lines generalizing l with
  | nil => exact ⟨h, rfl⟩
  | cons line lines ih =>
    cases line with
    | test name outcome =>
      rw [List.foldl_cons, loadLine_test w source name outcome h]
      exact ih h
    | crash text =>
      have hcrash : loadLine w source l (.crash text) = { l with crash := some text } := by
        rw [loadLine, h]
        rfl
      rw [List.foldl_cons, hcrash, foldl_loadLine_crashed]
      · exact ⟨rfl, rfl⟩
      · rfl

theorem loadSource_crash (source : String) {l : Loaded} (h : l.crash = none) :
    (loadSource w l source).crash = (w.lines source).findSome? SourceLine.crash? ∧
      (loadSource w l source).sent = l.sent ++ (w.warning? source).toList := by
  have hgoes : ¬l.crash.isSome = true := by
    rw [h]
    exact Bool.false_ne_true
  unfold loadSource Surroundings.lines Surroundings.warning?
  rw [if_neg hgoes]
  cases w.read source with
  | error why => exact ⟨h, rfl⟩
  | ok text =>
    obtain ⟨hcrash, hsent⟩ := foldl_loadLine_crash w source (SourceLine.parse text) h
    exact ⟨hcrash, hsent.trans (List.append_nil _).symm⟩

theorem foldl_loadSource_crashed (sources : List String) {l : Loaded} (h : l.crash.isSome) :
    sources.foldl (loadSource w) l = l := by
  induction sources with
  | nil => rfl
  | cons source sources ih => rw [List.foldl_cons, loadSource, if_pos h, ih]

theorem load_crash (first : Nat) (sources : List String) :
    (load w first sources).crash = (sources.flatMap w.lines).findSome? SourceLine.crash? ∧
      ∀ m ∈ (load w first sources).sent, ∃ source, w.warning? source = some m := by
  have hfold (sources : List String) (l : Loaded) (h : l.crash = none)
      (hsent : ∀ m ∈ l.sent, ∃ source, w.warning? source = some m) :
      (sources.foldl (loadSource w) l).crash =
          (sources.flatMap w.lines).findSome? SourceLine.crash? ∧
        ∀ m ∈ (sources.foldl (loadSource w) l).sent, ∃ source, w.warning? source = some m := by
    induction sources generalizing l with
    | nil => exact ⟨h, hsent⟩
    | cons source sources ih =>
      obtain ⟨hcrash, hnext⟩ := loadSource_crash w source h
      have hsent' : ∀ m ∈ (loadSource w l source).sent, ∃ s, w.warning? s = some m := by
        rw [hnext]
        intro m hm
        rcases List.mem_append.mp hm with hm | hm
        · exact hsent m hm
        · exact ⟨source, Option.mem_toList.mp hm⟩
      rw [List.foldl_cons, List.flatMap_cons, List.findSome?_append, ← hcrash]
      cases hc : (loadSource w l source).crash with
      | none => exact ih _ hc hsent'
      | some text =>
        rw [foldl_loadSource_crashed w sources (by rw [hc]; rfl), hc]
        exact ⟨rfl, hsent'⟩
  exact hfold sources _ rfl (by simp)

theorem loadSource_crashFree (source : String) {l : Loaded} (h : l.crash = none)
    (hfree : ∀ text, SourceLine.crash text ∉ w.lines source) :
    loadSource w l source =
      ⟨l.tests ++ w.testsOf l.nextId [source], l.sent ++ (w.warning? source).toList, none,
        l.nextId + (w.scripted [source]).length⟩ := by
  have hflat : w.scripted [source] = (w.lines source).filterMap fun line =>
      line.test?.map fun t => (source, t) := List.flatMap_singleton ..
  rw [Surroundings.testsOf, hflat]
  unfold loadSource Surroundings.warning? Surroundings.lines at *
  rw [h]
  cases hread : w.read source with
  | error why => simp
  | ok text =>
    rw [hread] at hfree
    have hlines := foldl_loadLine w source (SourceLine.parse text) h hfree
    simp only [Option.isSome_none, Bool.false_eq_true, if_false, hlines, Option.toList_none,
      List.append_nil, h]

theorem load_crashFree (first : Nat) {sources : List String} (hfree : w.CrashFree sources) :
    load w first sources =
      ⟨w.testsOf first sources, sources.filterMap w.warning?, none,
        first + (w.scripted sources).length⟩ := by
  have hfold (sources : List String) (hfree : w.CrashFree sources) (l : Loaded)
      (h : l.crash = none) : sources.foldl (loadSource w) l =
        ⟨l.tests ++ w.testsOf l.nextId sources, l.sent ++ sources.filterMap w.warning?, none,
          l.nextId + (w.scripted sources).length⟩ := by
    induction sources generalizing l with
    | nil =>
      obtain ⟨tests, sent, crash, nextId⟩ := l
      obtain rfl : crash = none := h
      simp [Surroundings.testsOf, Surroundings.scripted]
    | cons source sources ih =>
      have hsplit : w.scripted (source :: sources) = w.scripted [source] ++ w.scripted sources := by
        rw [← List.singleton_append]
        exact List.flatMap_append
      rw [List.foldl_cons, loadSource_crashFree w source h (hfree source List.mem_cons_self), ih]
      · simp only [Surroundings.testsOf, hsplit, List.zipIdx_append, List.map_append,
          List.length_append, List.append_assoc, Nat.add_assoc, List.filterMap_cons]
        cases w.warning? source <;> simp
      · exact fun source' hmem => hfree source' (List.mem_cons_of_mem _ hmem)
      · rfl
  rw [load, hfold sources hfree _ rfl, List.nil_append, List.nil_append]

end ReferenceHost

end HostedTests
