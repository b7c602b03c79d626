import HostedTests.Proofs.Files.Distinct
import HostedTests.Proofs.Files.Spelling
import Mathlib.Data.List.Infix

namespace HostedTests

open Files

namespace Files.Tree

variable {t : Tree} {base : Place}

def HasFile (t : Tree) (base : Place) (directory name : String) : Prop :=
  ∃ place octets, t.locate true base directory = .ok place ∧
    t.node? (place ++ [name]) = some (.file octets)

def Searchable (t : Tree) (base : Place) (directory : String) : Prop :=
  (∃ entries, t.list base directory = .ok entries) ∨ t.list base directory = .error .notFound

def Unrepeated (t : Tree) : Prop := (t.nodes.map Prod.fst).Nodup

instance (t : Tree) : Decidable t.Unrepeated := inferInstanceAs (Decidable (List.Nodup _))

theorem mem_nodes_iff (hplaces : t.Unrepeated) {place : Place} (hne : place ≠ []) {n : Node} :
    (place, n) ∈ t.nodes ↔ t.node? place = some n := by
  constructor
  · intro hmem
    have hunique : ∀ n', (place, n') ∈ t.nodes → n' = n := by
      intro n' hmem'
      have heq := List.inj_on_of_nodup_map hplaces hmem' hmem rfl
      exact (Prod.mk.inj heq).2
    rw [node?, if_neg (by simpa using hne)]
    exact lookup_eq_of_agree hmem hunique
  · intro hn
    exact mem_nodes hn hne

theorem list_eq_ok {directory : String} {entries : List (String × Node)}
    (h : t.list base directory = .ok entries) :
    ∃ place, t.locate true base directory = .ok place ∧ t.node? place = some .directory ∧
      entries = t.nodes.filterMap fun e =>
        if e.1.dropLast = place then e.1.getLast?.map fun name => (name, e.2) else none := by
  unfold list at h
  cases hlocate : t.locate true base directory with
  | error f => simp [hlocate, Bind.bind, Except.bind] at h
  | ok place =>
    simp only [hlocate, Bind.bind, Except.bind] at h
    split at h
    next hnode => exact ⟨place, rfl, hnode, (Except.ok.inj h).symm⟩
    next => cases h
    next => cases h

theorem list_located {directory : String} {place : Place}
    (hlocate : t.locate true base directory = .ok place)
    (hnode : t.node? place = some .directory) : ∃ entries, t.list base directory = .ok entries := by
  simp [list, hlocate, hnode, Bind.bind, Except.bind]

theorem eq_append_iff {place place' : Place} {name : String} :
    place'.dropLast = place ∧ place'.getLast? = some name ↔ place' = place ++ [name] := by
  constructor
  · rintro ⟨rfl, hlast⟩
    rw [List.getLast?_eq_some_iff] at hlast
    obtain ⟨front, rfl⟩ := hlast
    rw [List.dropLast_concat]
  · rintro rfl
    simp

theorem mem_list (hplaces : t.Unrepeated) {directory : String} {entries : List (String × Node)}
    (hlist : t.list base directory = .ok entries) {name : String} {n : Node} :
    (name, n) ∈ entries ↔ ∃ place, t.locate true base directory = .ok place ∧
      t.node? (place ++ [name]) = some n := by
  obtain ⟨place, hlocate, -, rfl⟩ := list_eq_ok hlist
  have hentry (e : Place × Node) :
      ((if e.1.dropLast = place then e.1.getLast?.map fun name => (name, e.2) else none) =
        some (name, n)) ↔ e = (place ++ [name], n) := by
    rw [Prod.ext_iff, ← eq_append_iff]
    split <;> simp [*]
  simp only [List.mem_filterMap, hentry, exists_eq_right, hlocate, Except.ok.injEq,
    exists_eq_left']
  exact mem_nodes_iff hplaces (by simp)

theorem list_nodup (hplaces : t.Unrepeated) {directory : String} {entries : List (String × Node)}
    (hlist : t.list base directory = .ok entries) : (entries.map Prod.fst).Nodup := by
  obtain ⟨place, -, -, rfl⟩ := list_eq_ok hlist
  rw [List.map_filterMap]
  refine List.Pairwise.filterMap _ ?_ (List.pairwise_map.mp hplaces)
  have hkey (e : Place × Node) (name : String)
      (hname : ((if e.1.dropLast = place then e.1.getLast?.map fun name => (name, e.2)
        else none).map Prod.fst) = some name) : e.1 = place ++ [name] := by
    rw [← eq_append_iff]
    split at hname
    next hparent => exact ⟨hparent, by simpa using hname⟩
    next => cases hname
  rintro e e' hne name hname _ hname' rfl
  exact hne ((hkey e name hname).trans (hkey e' name hname').symm)

end Files.Tree

namespace HostCommand

variable (h : HostCommand) (t : Tree) (base : Place)

def directoryOf (source : String) : String := (Path.directory? source).getD "."

def Offers (source name : String) : Prop :=
  t.HasFile base (directoryOf source) name ∧ h.adapterPattern.toList <:+: name.toList

/-- The adapters beside the sources: in order, each once under each way to its directory, spelled as
one of the sources spells the way. -/
structure Lists (sources found : List String) : Prop where
  sorted : found.Pairwise (· ≤ ·)
  once : (found.map Path.components).Nodup
  only : ∀ path ∈ found, ∃ source ∈ sources, ∃ name, h.Offers t base source name ∧
    path = Path.join (directoryOf source) name
  every : ∀ source ∈ sources, ∀ name, h.Offers t base source name →
    Path.components (directoryOf source) ++ [.named name] ∈ found.map Path.components

def adapter? (e : String × Node) : Option String :=
  match e.2 with
  | .file _ => if containsText h.adapterPattern.toList e.1.toList then some e.1 else none
  | _ => none

def names (directory : String) : List String :=
  match t.list base directory with
  | .error _ => []
  | .ok entries => entries.filterMap h.adapter?

variable {h t base}

theorem directoryOf_ne_empty (source : String) : directoryOf source ≠ "" := by
  unfold directoryOf Path.directory?
  cases hparent : Path.parent? source with
  | none => decide
  | some directory =>
    by_cases hempty : directory = ""
    · subst hempty
      decide
    · simp [Option.filter, hempty]

theorem containsText_iff (part cs : List Char) : containsText part cs ↔ part <:+: cs := by
  induction cs with
  | nil => simp [containsText]
  | cons c cs ih => simp [containsText, ih, List.infix_cons_iff]

theorem insertSorted_perm (s : String) (items : List String) :
    (insertSorted s items).Perm (s :: items) := by
  induction items with
  | nil => rfl
  | cons t rest ih =>
    unfold insertSorted
    split
    · rfl
    · exact (ih.cons t).trans (.swap s t rest)

theorem insertSorted_pairwise (s : String) {items : List String} (h : items.Pairwise (· ≤ ·)) :
    (insertSorted s items).Pairwise (· ≤ ·) := by
  induction items with
  | nil => exact List.pairwise_singleton _ _
  | cons t rest ih =>
    obtain ⟨hfirst, hrest⟩ := List.pairwise_cons.mp h
    unfold insertSorted
    split
    next hlt =>
      have hle : s ≤ t := String.not_lt.mp (String.lt_asymm hlt)
      refine List.pairwise_cons.mpr ⟨fun u hu => ?_, h⟩
      rcases List.mem_cons.mp hu with rfl | hu
      · exact hle
      · exact String.le_trans hle (hfirst u hu)
    next hle =>
      refine List.pairwise_cons.mpr ⟨fun u hu => ?_, ih hrest⟩
      rcases List.mem_cons.mp ((insertSorted_perm s rest).mem_iff.mp hu) with rfl | hu
      · exact String.not_lt.mp hle
      · exact hfirst u hu

theorem sorted_perm (items : List String) : (sorted items).Perm items := by
  induction items with
  | nil => rfl
  | cons s items ih => exact (insertSorted_perm s _).trans (ih.cons s)

theorem sorted_pairwise (items : List String) : (sorted items).Pairwise (· ≤ ·) := by
  induction items with
  | nil => exact List.Pairwise.nil
  | cons s items ih => exact insertSorted_pairwise s ih

theorem adapter?_eq_some {e : String × Node} {name : String} :
    h.adapter? e = some name ↔
      e.1 = name ∧ (∃ octets, e.2 = .file octets) ∧ h.adapterPattern.toList <:+: name.toList := by
  obtain ⟨name', node⟩ := e
  rw [← containsText_iff]
  cases node with
  | file octets =>
    simp only [adapter?, Option.ite_none_right_eq_some, Option.some.injEq, Node.file.injEq,
      exists_eq', true_and]
    constructor
    · rintro ⟨hcontains, rfl⟩
      exact ⟨rfl, hcontains⟩
    · rintro ⟨rfl, hcontains⟩
      exact ⟨hcontains, rfl⟩
  | directory => simp [adapter?]
  | link target => simp [adapter?]

theorem adaptersIn_eq {directory : String} (hsearch : t.Searchable base directory) :
    h.adaptersIn t base directory =
      .ok ((h.names t base directory).map (Path.join directory)) := by
  unfold adaptersIn names
  rcases hsearch with ⟨entries, hlist⟩ | hlist
  · rw [hlist]
    dsimp only
    rw [List.map_filterMap]
    congr 2
    funext e
    obtain ⟨name, node⟩ := e
    cases node with
    | file octets => dsimp only [adapter?]; split <;> rfl
    | directory => rfl
    | link target => rfl
  · rw [hlist]
    rfl

theorem mem_names (hsound : t.Sound) (hplaces : t.Unrepeated) {directory name : String}
    (hsearch : t.Searchable base directory) :
    name ∈ h.names t base directory ↔
      t.HasFile base directory name ∧ h.adapterPattern.toList <:+: name.toList := by
  unfold names
  rcases hsearch with ⟨entries, hlist⟩ | hlist
  · rw [hlist]
    simp only [List.mem_filterMap, adapter?_eq_some]
    constructor
    · rintro ⟨⟨_, _⟩, hmem, rfl, ⟨octets, rfl⟩, hcontains⟩
      obtain ⟨place, hlocate, hfile⟩ := (Tree.mem_list hplaces hlist).mp hmem
      exact ⟨⟨place, octets, hlocate, hfile⟩, hcontains⟩
    · rintro ⟨⟨place, octets, hlocate, hfile⟩, hcontains⟩
      have hmem := (Tree.mem_list hplaces hlist).mpr ⟨place, hlocate, hfile⟩
      exact ⟨_, hmem, rfl, ⟨octets, rfl⟩, hcontains⟩
  · rw [hlist]
    simp only [List.not_mem_nil, false_iff, not_and]
    rintro ⟨place, octets, hlocate, hfile⟩
    have hparent := hsound.directories hfile place.length (by simp)
    rw [List.take_left] at hparent
    obtain ⟨entries, hentries⟩ := Tree.list_located hlocate hparent
    cases hlist.symm.trans hentries

theorem names_nodup (hplaces : t.Unrepeated) (directory : String) :
    (h.names t base directory).Nodup := by
  unfold names
  cases hlist : t.list base directory with
  | error f => exact List.nodup_nil
  | ok entries =>
    refine List.Pairwise.filterMap _ ?_ (List.pairwise_map.mp (Tree.list_nodup hplaces hlist))
    rintro e e' hne name hname _ hname' rfl
    exact hne ((adapter?_eq_some.mp hname).1.trans (adapter?_eq_some.mp hname').1.symm)

theorem names_spelling {directory directory' : String} (hne : directory ≠ "")
    (hne' : directory' ≠ "") (hsame : Path.components directory = Path.components directory') :
    h.names t base directory = h.names t base directory' := by
  unfold names
  rw [Tree.list_spelling hne hne' hsame]

def unsorted (h : HostCommand) (t : Tree) (base : Place) (sources : List String) : List String :=
  (directories sources).flatMap fun directory =>
    (h.names t base directory).map (Path.join directory)

theorem mapM_eq_ok {α β ε : Type} {f : α → Except ε β} {g : α → β} {items : List α}
    (hitems : ∀ a ∈ items, f a = .ok (g a)) : items.mapM f = .ok (items.map g) := by
  induction items with
  | nil => rfl
  | cons a items ih =>
    obtain ⟨hfirst, hrest⟩ := List.forall_mem_cons.mp hitems
    rw [List.mapM_cons, hfirst, ih hrest]
    rfl

theorem mem_directories {directory : String} {sources : List String}
    (hmem : directory ∈ directories sources) : ∃ source ∈ sources, directoryOf source = directory :=
  List.mem_map.mp (Path.mem_distinct hmem)

theorem extensions_eq {sources : List String}
    (hsearch : ∀ source ∈ sources, t.Searchable base (directoryOf source)) :
    h.extensions t base sources = .ok (sorted (h.unsorted t base sources)) := by
  have hadapters : ∀ directory ∈ directories sources, h.adaptersIn t base directory =
      .ok ((h.names t base directory).map (Path.join directory)) := by
    intro directory hmem
    obtain ⟨source, hsource, rfl⟩ := mem_directories hmem
    exact adaptersIn_eq (hsearch source hsource)
  rw [extensions, mapM_eq_ok hadapters, unsorted, List.flatMap_def]
  rfl

variable (h t base) in
def ways (directory : String) : List (List Component) :=
  (h.names t base directory).map fun name => Path.components directory ++ [.named name]

theorem ways_spelling {directory directory' : String} (hne : directory ≠ "")
    (hne' : directory' ≠ "") (hsame : Path.components directory = Path.components directory') :
    h.ways t base directory = h.ways t base directory' := by
  rw [ways, ways, names_spelling hne hne' hsame, hsame]

theorem components_unsorted (hsound : t.Sound) (hplaces : t.Unrepeated) {sources : List String}
    (hsearch : ∀ source ∈ sources, t.Searchable base (directoryOf source)) :
    (h.unsorted t base sources).map Path.components =
      (directories sources).flatMap (h.ways t base) := by
  rw [unsorted, List.map_flatMap]
  apply List.flatMap_congr
  intro directory hmem
  obtain ⟨source, hsource, rfl⟩ := mem_directories hmem
  rw [List.map_map]
  apply List.map_congr_left
  intro name hname
  obtain ⟨⟨place, octets, -, hfile⟩, -⟩ :=
    (mem_names hsound hplaces (hsearch source hsource)).mp hname
  exact Path.components_join (directoryOf_ne_empty source)
    (hsound.names hfile name (by simp))

theorem ways_nodup (hplaces : t.Unrepeated) (sources : List String) :
    ((directories sources).flatMap (h.ways t base)).Nodup := by
  rw [List.nodup_flatMap]
  constructor
  · intro directory _
    refine (names_nodup hplaces directory).map ?_
    intro name name' heq
    simpa using heq
  · have hordered := Path.ordered_distinct (sources.map fun s => (Path.directory? s).getD ".")
    refine List.Pairwise.imp ?_ (List.pairwise_map.mp (Path.components_nodup hordered))
    intro directory directory' hne cs hcs hcs'
    obtain ⟨name, -, rfl⟩ := List.mem_map.mp hcs
    obtain ⟨name', -, heq⟩ := List.mem_map.mp hcs'
    exact hne (List.append_inj_left' heq rfl).symm

theorem ways_eq {sources sources' : List String}
    (hmem : ∀ source, source ∈ sources' ↔ source ∈ sources) :
    (directories sources').flatMap (h.ways t base) =
      (directories sources).flatMap (h.ways t base) := by
  have hcomponents : (directories sources').map Path.components =
      (directories sources).map Path.components :=
    Path.components_distinct_eq fun cs => by simp [hmem]
  have hnonempty (sources : List String) : ∀ directory ∈ directories sources, directory ≠ "" := by
    intro directory hdirectory
    obtain ⟨source, -, rfl⟩ := mem_directories hdirectory
    exact directoryOf_ne_empty source
  have hds := hnonempty sources
  have hds' := hnonempty sources'
  generalize directories sources = ds at hcomponents hds
  generalize directories sources' = ds' at hcomponents hds'
  induction ds' generalizing ds with
  | nil => rw [List.map_eq_nil_iff.mp hcomponents.symm]
  | cons d' ds' ih =>
    cases ds with
    | nil => cases hcomponents
    | cons d ds =>
      rw [List.forall_mem_cons] at hds hds'
      obtain ⟨hfirst, hrest⟩ := List.cons.inj hcomponents
      rw [List.flatMap_cons, List.flatMap_cons, ways_spelling hds'.1 hds.1 hfirst,
        ih ds hds.2 hrest hds'.2]

theorem lists_sorted (hsound : t.Sound) (hplaces : t.Unrepeated) {sources : List String}
    (hsearch : ∀ source ∈ sources, t.Searchable base (directoryOf source)) :
    h.Lists t base sources (sorted (h.unsorted t base sources)) where
  sorted := sorted_pairwise _
  once := by
    rw [((sorted_perm _).map Path.components).nodup_iff, components_unsorted hsound hplaces hsearch]
    exact ways_nodup hplaces sources
  only path hpath := by
    rw [(sorted_perm _).mem_iff, unsorted, List.mem_flatMap] at hpath
    obtain ⟨directory, hdirectory, hpath⟩ := hpath
    obtain ⟨source, hsource, rfl⟩ := mem_directories hdirectory
    obtain ⟨name, hname, rfl⟩ := List.mem_map.mp hpath
    exact ⟨source, hsource, name, (mem_names hsound hplaces (hsearch source hsource)).mp hname, rfl⟩
  every source hsource name hoffers := by
    rw [((sorted_perm _).map Path.components).mem_iff, components_unsorted hsound hplaces hsearch,
      List.mem_flatMap]
    have hname := (mem_names hsound hplaces (hsearch source hsource)).mpr hoffers
    have hdirectory : Path.components (directoryOf source) ∈
        (directories sources).map Path.components :=
      Path.mem_components_distinct.mpr (List.mem_map_of_mem (List.mem_map_of_mem hsource))
    obtain ⟨directory, hmem, hsame⟩ := List.mem_map.mp hdirectory
    obtain ⟨source', -, rfl⟩ := mem_directories hmem
    refine ⟨_, hmem, ?_⟩
    rw [ways_spelling (directoryOf_ne_empty source') (directoryOf_ne_empty source) hsame]
    exact List.mem_map_of_mem hname

def SpelledAlike (sources : List String) : Prop :=
  ∀ source ∈ sources, ∀ source' ∈ sources,
    Path.components (directoryOf source) = Path.components (directoryOf source') →
      directoryOf source = directoryOf source'

theorem adapters_listed_once (h : HostCommand) {t : Tree} (hsound : t.Sound)
    (hplaces : t.Unrepeated) (base : Place) (sources : List String)
    (hsearch : ∀ source ∈ sources, t.Searchable base (directoryOf source)) :
    ∃ found, h.extensions t base sources = .ok found ∧ h.Lists t base sources found ∧
      ∀ sources', (∀ source, source ∈ sources' ↔ source ∈ sources) →
        ∃ found', h.extensions t base sources' = .ok found' ∧
          (found'.map Path.components).Perm (found.map Path.components) ∧
          (SpelledAlike sources → found' = found) := by
  refine ⟨_, extensions_eq hsearch, lists_sorted hsound hplaces hsearch, ?_⟩
  intro sources' hmem
  have hsearch' : ∀ source ∈ sources', t.Searchable base (directoryOf source) :=
    fun source hsource => hsearch source ((hmem source).mp hsource)
  refine ⟨_, extensions_eq hsearch', ?_, ?_⟩
  · refine ((sorted_perm _).map _).trans (.trans ?_ ((sorted_perm _).map _).symm)
    rw [components_unsorted hsound hplaces hsearch, components_unsorted hsound hplaces hsearch',
      ways_eq hmem]
  · intro halike
    have hdirectories : directories sources' = directories sources := by
      symm
      apply Path.distinct_eq
      · intro directory
        simp [hmem]
      · intro directory hdirectory directory' hdirectory'
        obtain ⟨source, hsource, rfl⟩ := List.mem_map.mp hdirectory
        obtain ⟨source', hsource', rfl⟩ := List.mem_map.mp hdirectory'
        exact halike source hsource source' hsource'
    rw [unsorted, unsorted, hdirectories]

def workTree : Tree :=
  ⟨[(["work"], .directory), (["work", "sub"], .directory),
    (["work", "X.TestAdapter.so"], .file [])]⟩

theorem list_work {directory : String} {cs : List Component} (hsteps : Tree.steps directory = cs)
    (hwalk : workTree.walk true Tree.mostLinks [] cs = .ok ["work"])
    (hpath : directory ≠ "" ∧ '\x00' ∉ directory.toList) :
    workTree.list [] directory = .ok [("sub", .directory), ("X.TestAdapter.so", .file [])] := by
  have hlocate : workTree.locate true [] directory = .ok ["work"] := by
    simp [Tree.locate, hpath, hsteps, hwalk]
  simp only [Tree.list, hlocate]
  rfl

theorem walk_work : workTree.walk true Tree.mostLinks [] [.root, .named "work"] = .ok ["work"] := by
  simp [Tree.walk, Tree.node?, workTree]

theorem adapters_listed_once_work :
    let h : HostCommand := ⟨["testhost"], ".TestAdapter.", 0⟩
    let sources := ["/work/a", "/work/b"]
    ∃ found, h.extensions workTree [] sources = .ok found ∧ h.Lists workTree [] sources found ∧
      h.extensions workTree [] ["/work/b", "/work/a", "/work/b"] = .ok found := by
  have hmem (a b source : String) : source ∈ [b, a, b] ↔ source ∈ [a, b] := by
    simp only [List.mem_cons, List.not_mem_nil, or_false]
    tauto
  intro h sources
  have hdirectories : ∀ source ∈ sources, directoryOf source = "/work" := by decide
  have hsearch : ∀ source ∈ sources, workTree.Searchable [] (directoryOf source) := by
    intro source hsource
    rw [hdirectories source hsource]
    exact .inl ⟨_, list_work (by decide) walk_work (by decide)⟩
  obtain ⟨found, hfound, hlists, hothers⟩ :=
    adapters_listed_once h (by decide) (by decide) [] sources hsearch
  obtain ⟨found', hfound', -, hsame⟩ := hothers _ (hmem "/work/a" "/work/b")
  have halike : SpelledAlike sources := fun source hsource source' hsource' _ =>
    (hdirectories source hsource).trans (hdirectories source' hsource').symm
  rw [hsame halike] at hfound'
  exact ⟨found, hfound, hlists, hfound'⟩

/-- The way through another directory and back is a way of its own, and of two ways with the same
parts the last is listed. -/
theorem adapter_listed_by_each_way :
    let h : HostCommand := ⟨["testhost"], ".TestAdapter.", 0⟩
    h.extensions workTree [] ["/work/a", "/work/sub/../a"] =
        .ok ["/work/X.TestAdapter.so", "/work/sub/../X.TestAdapter.so"] ∧
      h.extensions workTree [] ["/work/a", "//work/a"] = .ok ["//work/X.TestAdapter.so"] ∧
      h.extensions workTree [] ["//work/a", "/work/a"] = .ok ["/work/X.TestAdapter.so"] := by
  intro h
  have hadapters {directory : String}
      (hlist : workTree.list [] directory =
        .ok [("sub", .directory), ("X.TestAdapter.so", .file [])]) :
      h.adaptersIn workTree [] directory = .ok [Path.join directory "X.TestAdapter.so"] := by
    have hcontains : containsText h.adapterPattern.toList "X.TestAdapter.so".toList = true := by
      decide
    rw [adaptersIn, hlist]
    simp only [List.filterMap_cons, hcontains, if_true, List.filterMap_nil]
  have hplain : h.adaptersIn workTree [] "/work" = .ok ["/work/X.TestAdapter.so"] :=
    hadapters (list_work (by decide) walk_work (by decide))
  have hdouble : h.adaptersIn workTree [] "//work" = .ok ["//work/X.TestAdapter.so"] :=
    hadapters (list_work (by decide) walk_work (by decide))
  have hback : h.adaptersIn workTree [] "/work/sub/.." = .ok ["/work/sub/../X.TestAdapter.so"] := by
    have hwalk : workTree.walk true Tree.mostLinks []
        [.root, .named "work", .named "sub", .up] = .ok ["work"] := by
      simp [Tree.walk, Tree.node?, workTree]
      rfl
    exact hadapters (list_work (by decide) hwalk (by decide))
  have htwo : directories ["/work/a", "/work/sub/../a"] = ["/work", "/work/sub/.."] := by decide
  have hlast : directories ["/work/a", "//work/a"] = ["//work"] := by decide
  have hlast' : directories ["//work/a", "/work/a"] = ["/work"] := by decide
  refine ⟨?_, ?_, ?_⟩
  · simp only [extensions, htwo, List.mapM_cons, List.mapM_nil, hplain, hback]
    rfl
  · simp only [extensions, hlast, List.mapM_cons, List.mapM_nil, hdouble]
    rfl
  · simp only [extensions, hlast', List.mapM_cons, List.mapM_nil, hplain]
    rfl

end HostCommand

end HostedTests
