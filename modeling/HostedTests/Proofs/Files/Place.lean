import HostedTests.Host.Process
import Mathlib.Data.List.Basic

namespace HostedTests.Files

theorem lookup_eq_of_agree {α β : Type} [BEq α] [LawfulBEq α] {entries : List (α × β)} {a : α}
    {b : β} (hmem : (a, b) ∈ entries) (hagree : ∀ b', (a, b') ∈ entries → b' = b) :
    entries.lookup a = some b := by
  cases hlookup : entries.lookup a with
  | none =>
    rw [List.lookup_eq_none_iff] at hlookup
    simpa using hlookup _ hmem
  | some b' =>
    obtain ⟨before, after, hentries, -⟩ := List.lookup_eq_some_iff.mp hlookup
    rw [hagree b' (by simp [hentries])]

def IsName (name : String) : Prop :=
  name ∉ ["", ".", ".."] ∧ '/' ∉ name.toList ∧ '\x00' ∉ name.toList

instance (name : String) : Decidable (IsName name) := inferInstanceAs (Decidable (_ ∧ _ ∧ _))

def Tree.Sound (t : Tree) : Prop :=
  ∀ e ∈ t.nodes, (∀ name ∈ e.1, IsName name) ∧
    ∀ n < e.1.length, t.node? (e.1.take n) = some .directory

instance (t : Tree) : Decidable t.Sound := inferInstanceAs (Decidable (∀ e ∈ t.nodes, _ ∧ _))

namespace Tree

variable {t : Tree} {place : Place} {n : Node}

theorem mem_nodes (hn : t.node? place = some n) (hne : place ≠ []) : (place, n) ∈ t.nodes := by
  unfold node? at hn
  rw [if_neg (by simpa using hne)] at hn
  obtain ⟨before, after, hnodes, -⟩ := List.lookup_eq_some_iff.mp hn
  rw [hnodes]
  exact List.mem_append_right _ List.mem_cons_self

theorem Sound.names (h : t.Sound) (hn : t.node? place = some n) : ∀ name ∈ place, IsName name := by
  by_cases hne : place = []
  · subst hne
    exact fun name hname => absurd hname List.not_mem_nil
  · exact (h _ (mem_nodes hn hne)).1

theorem Sound.directories (h : t.Sound) (hn : t.node? place = some n) :
    ∀ k < place.length, t.node? (place.take k) = some .directory := by
  by_cases hne : place = []
  · subst hne
    exact fun k hk => absurd hk (Nat.not_lt_zero k)
  · exact (h _ (mem_nodes hn hne)).2

end Tree

namespace Path

def spelling (place : Place) : List Char := place.flatMap fun name => '/' :: name.toList

def ends (i : Nat) : Place → List (Nat × String)
  | [] => []
  | name :: rest => (i + 1 + name.toList.length, name) :: ends (i + 1 + name.toList.length) rest

theorem toList_pathOf {place : Place} (h : place ≠ []) :
    (Machine.pathOf place).toList = spelling place := by
  induction place with
  | nil => exact absurd rfl h
  | cons name rest ih =>
    cases rest with
    | nil => simp [Machine.pathOf, spelling]
    | cons next rest =>
      have hrest := ih (List.cons_ne_nil next rest)
      simp only [Machine.pathOf, String.toList_append, spelling] at hrest ⊢
      rw [String.intercalate_cons_cons, String.toList_append, String.toList_append,
        List.flatMap_cons, ← hrest]
      simp

theorem pieces_skip (i : Nat) (piece cs rest : List Char) (h : '/' ∉ cs) :
    pieces i piece (cs ++ rest) = pieces (i + cs.length) (cs.reverse ++ piece) rest := by
  induction cs generalizing i piece with
  | nil => rfl
  | cons c cs ih =>
    rw [List.mem_cons, not_or] at h
    rw [List.cons_append, pieces, if_neg (Ne.symm h.1), ih _ _ h.2, List.length_cons,
      List.reverse_cons, List.append_assoc, List.singleton_append]
    congr 1
    omega

theorem pieces_spelling (i : Nat) (piece : List Char) {place : Place}
    (h : ∀ name ∈ place, IsName name) :
    pieces i piece (spelling place) =
      (i, piece.reverse) :: (ends i place).map fun e => (e.1, e.2.toList) := by
  induction place generalizing i piece with
  | nil => rfl
  | cons name rest ih =>
    obtain ⟨hname, hrest⟩ := List.forall_mem_cons.mp h
    have hskip := pieces_skip (i + 1) [] name.toList (spelling rest) hname.2.1
    rw [List.append_nil, ih _ _ hrest, List.reverse_reverse] at hskip
    have hspelling : spelling (name :: rest) = '/' :: (name.toList ++ spelling rest) := rfl
    rw [hspelling, pieces, if_pos rfl, hskip]
    rfl

theorem map_ends (i : Nat) (place : Place) : (ends i place).map Prod.snd = place := by
  induction place generalizing i with
  | nil => rfl
  | cons name rest ih => rw [ends, List.map_cons, ih]

theorem ends_concat (i : Nat) (place : Place) (name : String) :
    ends i (place ++ [name]) =
      ends i place ++ [(i + (spelling (place ++ [name])).length, name)] := by
  induction place generalizing i with
  | nil =>
    simp [ends, spelling]
    omega
  | cons first rest ih =>
    rw [List.cons_append, ends, ih, ends, List.cons_append]
    simp [spelling]
    omega

theorem isRooted_pathOf (place : Place) : isRooted (Machine.pathOf place) = true := by
  simp [isRooted, Machine.pathOf]

theorem isEmpty_pathOf (place : Place) : (Machine.pathOf place).isEmpty = false := by
  rw [Bool.eq_false_iff]
  intro hempty
  have hrooted := isRooted_pathOf place
  rw [String.isEmpty_iff.mp hempty] at hrooted
  cases hrooted

theorem ofPiece_name {name : String} (h : IsName name) :
    Component.ofPiece name.toList = .named name := by
  obtain ⟨hdots, -, -⟩ := h
  simp only [List.mem_cons, List.not_mem_nil, or_false, not_or] at hdots
  have hhere : name.toList ≠ ['.'] := by
    intro heq
    exact hdots.2.1 (String.toList_inj.mp heq)
  have hup : name.toList ≠ ['.', '.'] := by
    intro heq
    exact hdots.2.2 (String.toList_inj.mp heq)
  rw [Component.ofPiece, if_neg hhere, if_neg hup, String.ofList_toList]

theorem isEmpty_name {name : String} (h : IsName name) : name.toList.isEmpty = false := by
  obtain ⟨hdots, -, -⟩ := h
  simp only [List.mem_cons, List.not_mem_nil, or_false, not_or] at hdots
  rw [List.isEmpty_eq_false_iff]
  intro heq
  exact hdots.1 (String.toList_inj.mp heq)

theorem pieces_pathOf {place : Place} (h : ∀ name ∈ place, IsName name) (hne : place ≠ []) :
    pieces 0 [] (Machine.pathOf place).toList =
      (0, []) :: (ends 0 place).map fun e => (e.1, e.2.toList) := by
  rw [toList_pathOf hne]
  exact pieces_spelling 0 [] h

theorem steps_pathOf {place : Place} (h : ∀ name ∈ place, IsName name) :
    Tree.steps (Machine.pathOf place) = .root :: place.map .named := by
  rw [Tree.steps, isRooted_pathOf, if_pos rfl]
  by_cases hne : place = []
  · subst hne
    rfl
  · have hparts : (pieces 0 [] (Machine.pathOf place).toList).map Prod.snd =
        [] :: place.map String.toList := by
      have hplace := congrArg (List.map String.toList) (map_ends 0 place)
      rw [List.map_map] at hplace
      rw [pieces_pathOf h hne, List.map_cons, List.map_map]
      exact congrArg ([] :: ·) hplace
    have hnames : ∀ cs ∈ place.map String.toList, cs.isEmpty = false := by
      intro cs hcs
      obtain ⟨name, hname, rfl⟩ := List.mem_map.mp hcs
      exact isEmpty_name (h name hname)
    have hfilter : (place.map String.toList).filter (fun cs => !cs.isEmpty) =
        place.map String.toList := by
      rw [List.filter_eq_self]
      intro cs hcs
      rw [hnames cs hcs]
      rfl
    have hends : ¬(([] :: place.map String.toList).getLast? = some [] ∧
        ([] :: place.map String.toList).any (fun cs => !cs.isEmpty) = true) := by
      rintro ⟨hlast, -⟩
      rcases List.eq_nil_or_concat place with rfl | ⟨before, name, rfl⟩
      · exact hne rfl
      · rw [List.concat_eq_append, List.map_append, ← List.cons_append, List.map_singleton,
          List.getLast?_concat, Option.some.injEq] at hlast
        have hname := isEmpty_name (h name (by simp))
        rw [hlast] at hname
        cases hname
    rw [hparts, if_neg hends, List.append_nil, List.filter_cons_of_neg (by simp), hfilter,
      List.map_map, List.singleton_append]
    exact congrArg (Component.root :: ·) (List.map_congr_left fun name hname =>
      ofPiece_name (h name hname))

theorem pathOf_inj {p q : Place} (hp : ∀ name ∈ p, IsName name) (hq : ∀ name ∈ q, IsName name)
    (h : Machine.pathOf p = Machine.pathOf q) : p = q := by
  have hsteps := congrArg Tree.steps h
  rw [steps_pathOf hp, steps_pathOf hq, List.cons.injEq] at hsteps
  apply List.map_injective_iff.mpr _ hsteps.2
  intro a b hab
  cases hab
  rfl

theorem places_pathOf {place : Place} (h : ∀ name ∈ place, IsName name) (hne : place ≠ []) :
    places (Machine.pathOf place) = (ends 0 place).map fun e => (e.1, .named e.2) := by
  have hends : ∀ e ∈ ends 0 place, IsName e.2 := by
    intro e he
    apply h
    rw [← map_ends 0 place]
    exact List.mem_map_of_mem he
  have hpart : ∀ e ∈ ends 0 place,
      (if e.2.toList.isEmpty ∨ e.2.toList = ['.'] then none
        else some (e.1, Component.ofPiece e.2.toList)) = some (e.1, .named e.2) := by
    intro e he
    have hname := hends e he
    have hdot : e.2.toList ≠ ['.'] := by
      intro heq
      have hpiece := ofPiece_name hname
      rw [heq] at hpiece
      cases hpiece
    rw [isEmpty_name hname, ofPiece_name hname, if_neg]
    rintro (hempty | heq)
    · cases hempty
    · exact hdot heq
  rw [places, pieces_pathOf h hne]
  dsimp only
  rw [List.isEmpty_nil, if_pos rfl, List.nil_append, List.filterMap_map]
  exact List.filterMap_eq_map_iff_forall_eq_some.mpr hpart

theorem directory?_pathOf {place : Place} {name : String}
    (h : ∀ n ∈ place ++ [name], IsName n) :
    directory? (Machine.pathOf (place ++ [name])) = some (Machine.pathOf place) := by
  have hne : place ++ [name] ≠ [] := List.append_ne_nil_of_right_ne_nil _ (by simp)
  have hparent : parent? (Machine.pathOf (place ++ [name])) = some (Machine.pathOf place) := by
    rw [parent?, places_pathOf h hne, ends_concat, List.map_append, List.reverse_append]
    rcases List.eq_nil_or_concat place with rfl | ⟨before, last, rfl⟩
    · simp only [ends, List.map_nil, List.reverse_nil, isRooted_pathOf]
      rfl
    · rw [List.concat_eq_append, ends_concat, List.map_append, List.reverse_append]
      simp only [List.map_cons, List.map_nil, List.reverse_cons, List.reverse_nil,
        List.nil_append, List.singleton_append, Nat.zero_add]
      have hbefore : before ++ [last] ≠ [] := by simp
      have hnext : before ++ [last] ++ [name] ≠ [] := by simp
      have hspelling : spelling (before ++ [last] ++ [name]) =
          spelling (before ++ [last]) ++ spelling [name] := List.flatMap_append
      rw [toList_pathOf hnext, hspelling, List.take_left, ← toList_pathOf hbefore,
        String.ofList_toList]
  rw [directory?, hparent, Option.filter_some, isEmpty_pathOf]
  rfl

end Path

namespace Tree

variable {t : Tree} {place : Place} {n : Node}

theorem walk_named (follow : Bool) (links : Nat) (before after : Place)
    (hdirectories : ∀ k < (before ++ after).length,
      t.node? ((before ++ after).take k) = some .directory)
    (hlast : t.node? (before ++ after) = some .directory ∨
      ∃ octets, t.node? (before ++ after) = some (.file octets)) :
    t.walk follow links before (after.map .named) = .ok (before ++ after) := by
  induction after generalizing before with
  | nil => rw [List.map_nil, walk, List.append_nil]
  | cons name rest ih =>
    have hnext : before ++ [name] ++ rest = before ++ name :: rest := by
      rw [List.append_assoc, List.singleton_append]
    have hrest := ih (before ++ [name]) (by rwa [hnext]) (by rwa [hnext])
    rw [hnext] at hrest
    rw [List.map_cons, walk]
    cases rest with
    | nil =>
      rcases hlast with hlast | ⟨octets, hlast⟩
      · simp only [hlast]
        exact hrest
      · simp only [hlast]
        rfl
    | cons next rest =>
      have hdirectory := hdirectories (before.length + 1) (by simp)
      have htake : (before ++ name :: next :: rest).take (before.length + 1) =
          before ++ [name] := by
        rw [← hnext]
        exact List.take_left' (by simp)
      rw [htake] at hdirectory
      simp only [hdirectory]
      exact hrest

theorem locate_pathOf (h : t.Sound) (base : Place)
    (hn : t.node? place = some .directory ∨ ∃ octets, t.node? place = some (.file octets)) :
    t.locate true base (Machine.pathOf place) = .ok place := by
  obtain ⟨n, hnode⟩ : ∃ n, t.node? place = some n := by
    rcases hn with hn | ⟨octets, hn⟩
    · exact ⟨_, hn⟩
    · exact ⟨_, hn⟩
  have hnames := h.names hnode
  have hnul : '\x00' ∉ (Machine.pathOf place).toList := by
    by_cases hne : place = []
    · subst hne
      decide
    · rw [Path.toList_pathOf hne]
      intro hmem
      obtain ⟨name, hname, hmem⟩ := List.mem_flatMap.mp hmem
      rcases List.mem_cons.mp hmem with hslash | hmem
      · exact absurd hslash (by decide)
      · exact (hnames name hname).2.2 hmem
  have hwalk := walk_named true mostLinks [] place (h.directories hnode) hn
  rw [locate, Path.isEmpty_pathOf, if_neg Bool.false_ne_true, if_neg hnul,
    Path.steps_pathOf hnames, walk]
  exact hwalk

theorem readText_pathOf (h : t.Sound) (base : Place) {octets : List UInt8}
    (hn : t.node? place = some (.file octets)) :
    t.readText base (Machine.pathOf place) =
      match Text.Utf8.decode octets with
      | .ok cs => .ok (String.ofList cs)
      | .error _ => .error .notUtf8 := by
  have hlocate := locate_pathOf h base (Or.inr ⟨octets, hn⟩)
  have hread : t.read base (Machine.pathOf place) = .ok octets := by
    simp only [read, hlocate, Bind.bind, Except.bind, hn]
  cases hdecode : Text.Utf8.decode octets with
  | ok cs => simp only [readText, hread, Bind.bind, Except.bind, hdecode]
  | error i => simp only [readText, hread, Bind.bind, Except.bind, hdecode]

theorem list_pathOf (h : t.Sound) (base : Place) (hn : t.node? place = some .directory) :
    ∃ entries, t.list base (Machine.pathOf place) = .ok entries := by
  have hlocate := locate_pathOf h base (Or.inl hn)
  simp only [list, hlocate, Bind.bind, Except.bind, hn]
  exact ⟨_, rfl⟩

end Tree

end HostedTests.Files
