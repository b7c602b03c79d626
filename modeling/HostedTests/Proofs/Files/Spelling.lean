import HostedTests.Proofs.Files.Place

namespace HostedTests.Files

namespace Path

def parts (p : String) : List (List Char) := (pieces 0 [] p.toList).map Prod.snd

def kept? (piece : List Char) : Option Component :=
  if piece.isEmpty ∨ piece = ['.'] then none else some (Component.ofPiece piece)

theorem pieces_append (i : Nat) (piece cs rest : List Char) :
    pieces i piece (cs ++ '/' :: rest) =
      pieces i piece cs ++ pieces (i + cs.length + 1) [] rest := by
  induction cs generalizing i piece with
  | nil => simp [pieces]
  | cons c cs ih =>
    rw [List.cons_append, pieces, pieces]
    have hlength : i + 1 + cs.length + 1 = i + (c :: cs).length + 1 := by
      rw [List.length_cons]
      omega
    split
    · rw [ih, hlength, List.cons_append]
    · rw [ih, hlength]

theorem pieces_ne_nil (i : Nat) (piece cs : List Char) : pieces i piece cs ≠ [] := by
  induction cs generalizing i piece with
  | nil => simp [pieces]
  | cons c cs ih =>
    rw [pieces]
    split
    · simp
    · apply ih

theorem mem_pieces {c : Char} (hc : c ≠ '/') (i : Nat) (piece cs : List Char) :
    (∃ part ∈ (pieces i piece cs).map Prod.snd, c ∈ part) ↔ c ∈ piece ∨ c ∈ cs := by
  induction cs generalizing i piece with
  | nil => simp [pieces]
  | cons d cs ih =>
    rw [pieces]
    split
    · have hd : c ≠ d := by
        rintro rfl
        contradiction
      rw [List.map_cons, List.exists_mem_cons_iff, ih]
      simp [hd]
    · rw [ih]
      simp only [List.mem_cons]
      tauto

def ofParts : List (List Char) → List Component
  | [] => []
  | first :: rest =>
    (if first.isEmpty then [] else [Component.ofPiece first]) ++ rest.filterMap kept?

theorem ofParts_append {front : List (List Char)} (hfront : front ≠ []) (part : List Char) :
    ofParts (front ++ [part]) = ofParts front ++ (kept? part).toList := by
  cases front with
  | nil => exact absurd rfl hfront
  | cons first rest =>
    rw [List.cons_append, ofParts, ofParts, List.filterMap_append, List.append_assoc]
    congr 2

theorem places_eq (p : String) : (places p).map Prod.snd = ofParts (parts p) := by
  unfold places parts
  cases pieces 0 [] p.toList with
  | nil => rfl
  | cons first rest =>
    obtain ⟨i, first⟩ := first
    dsimp only
    rw [List.map_append, List.map_cons, ofParts]
    congr 1
    · split <;> rfl
    · rw [List.map_filterMap, List.filterMap_map]
      apply List.filterMap_congr
      intro e _
      simp only [Function.comp_apply, kept?]
      split <;> simp

theorem components_eq (p : String) :
    components p = (if isRooted p then [Component.root] else []) ++ ofParts (parts p) := by
  rw [← places_eq]
  rfl

def moves (cs : List Component) : List Component := cs.filter (· ≠ .here)

@[simp] theorem moves_here (cs : List Component) : moves (.here :: cs) = moves cs := rfl

theorem moves_cons {c : Component} (hc : c ≠ .here) (cs : List Component) :
    moves (c :: cs) = c :: moves cs := List.filter_cons_of_pos (by simpa using hc)

theorem moves_append (cs ds : List Component) : moves (cs ++ ds) = moves cs ++ moves ds :=
  List.filter_append cs ds

theorem moves_moves (cs : List Component) : moves (moves cs) = moves cs := by
  simp [moves]

theorem ofPiece_eq_here {piece : List Char} : Component.ofPiece piece = .here ↔ piece = ['.'] := by
  unfold Component.ofPiece
  split
  · simp [*]
  · split <;> simp [*]

theorem moves_nonempty (l : List (List Char)) :
    moves ((l.filter fun piece => !piece.isEmpty).map Component.ofPiece) = l.filterMap kept? := by
  induction l with
  | nil => rfl
  | cons piece l ih =>
    by_cases hempty : piece.isEmpty = true
    · rw [List.filter_cons_of_neg (by simp [hempty]), ih, List.filterMap_cons_none]
      simp [kept?, hempty]
    · rw [List.filter_cons_of_pos (by simp [hempty]), List.map_cons, ← List.singleton_append,
        moves_append, ih]
      by_cases hdot : piece = ['.']
      · subst hdot
        rfl
      · have hkept : kept? piece = some (Component.ofPiece piece) := by simp [kept?, hempty, hdot]
        rw [List.filterMap_cons_some hkept, moves, List.filter_cons_of_pos]
        · rfl
        · simpa [ofPiece_eq_here] using hdot

theorem moves_steps (p : String) : moves (Tree.steps p) = moves (components p) := by
  have hend (b : Prop) [Decidable b] :
      moves (if b then [Component.here] else []) = [] := by
    split <;> rfl
  have hroot : moves (if isRooted p then [Component.root] else []) =
      if isRooted p then [Component.root] else [] := by
    split <;> rfl
  rw [components_eq]
  unfold Tree.steps
  simp only [moves_append, hend, hroot, List.append_nil, moves_nonempty]
  congr 1
  change (parts p).filterMap kept? = _
  cases parts p with
  | nil => rfl
  | cons first rest =>
    have hkept : moves (rest.filterMap kept?) = rest.filterMap kept? := by
      rw [← moves_nonempty rest, moves_moves]
    have hfirst := moves_nonempty [first]
    rw [ofParts, moves_append, hkept, ← List.singleton_append, List.filterMap_append, ← hfirst]
    congr 2
    cases first <;> rfl

theorem mem_moves {c : Component} (hc : c ≠ .here) {cs : List Component} :
    c ∈ moves cs ↔ c ∈ cs := by
  simp [moves, hc]

theorem ofPiece_eq_named {piece : List Char} {name : String} :
    Component.ofPiece piece = .named name ↔
      piece ≠ ['.'] ∧ piece ≠ ['.', '.'] ∧ name = String.ofList piece := by
  unfold Component.ofPiece
  split
  · simp [*]
  · split <;> simp [*, eq_comm]

theorem named_mem_steps {p name : String} :
    .named name ∈ Tree.steps p ↔
      ∃ part ∈ parts p, part ≠ [] ∧ Component.ofPiece part = .named name := by
  unfold Tree.steps
  have hroot : Component.named name ∉ if isRooted p then [Component.root] else [] := by
    split <;> simp
  have hend (b : Prop) [Decidable b] :
      Component.named name ∉ if b then [Component.here] else [] := by
    split <;> simp
  simp only [List.mem_append, hroot, hend, false_or, or_false, List.mem_map, List.mem_filter,
    and_assoc]
  apply exists_congr
  simp [parts]

theorem nul_mem {p : String} :
    '\x00' ∈ p.toList ↔ ∃ name, .named name ∈ components p ∧ '\x00' ∈ name.toList := by
  have hnamed (name : String) : .named name ∈ components p ↔ .named name ∈ Tree.steps p := by
    rw [← mem_moves (by simp), ← moves_steps, mem_moves (by simp)]
  have hparts := mem_pieces (c := '\x00') (by decide) 0 [] p.toList
  rw [← or_false ('\x00' ∈ p.toList), or_comm, ← List.mem_nil_iff '\x00', ← hparts]
  constructor
  · rintro ⟨part, hpart, hnul⟩
    have hpiece : Component.ofPiece part = .named (String.ofList part) := by
      rw [ofPiece_eq_named]
      refine ⟨?_, ?_, rfl⟩ <;> rintro rfl <;> simp at hnul
    refine ⟨String.ofList part, ?_, by simpa using hnul⟩
    rw [hnamed, named_mem_steps]
    exact ⟨part, hpart, List.ne_nil_of_mem hnul, hpiece⟩
  · rintro ⟨name, hname, hnul⟩
    rw [hnamed, named_mem_steps] at hname
    obtain ⟨part, hpart, -, hpiece⟩ := hname
    obtain ⟨-, -, rfl⟩ := ofPiece_eq_named.mp hpiece
    exact ⟨part, hpart, by simpa using hnul⟩

theorem pieces_slashless (i : Nat) {cs : List Char} (h : '/' ∉ cs) :
    pieces i [] cs = [(i + cs.length, cs)] := by
  have hskip := pieces_skip i [] cs [] h
  rw [List.append_nil, List.append_nil] at hskip
  rw [hskip, pieces, List.reverse_reverse]

theorem parts_slash {p : String} {front name : List Char} (hp : p.toList = front ++ '/' :: name)
    (hname : '/' ∉ name) : parts p = (pieces 0 [] front).map Prod.snd ++ [name] := by
  rw [parts, hp, pieces_append, List.map_append, pieces_slashless _ hname]
  rfl

theorem kept?_name {name : String} (h : IsName name) : kept? name.toList = some (.named name) := by
  have hdot : name.toList ≠ ['.'] := by
    intro heq
    have hpiece := ofPiece_name h
    rw [heq] at hpiece
    cases hpiece
  rw [kept?, if_neg (by simp [isEmpty_name h, hdot]), ofPiece_name h]

theorem isRooted_append {p : String} (hp : p ≠ "") (q : String) :
    isRooted (p ++ q) = isRooted p := by
  unfold isRooted
  rw [String.toList_append, List.head?_append_of_ne_nil _ (by simpa using hp)]

theorem isRooted_name {name : String} (h : IsName name) : isRooted name = false := by
  unfold isRooted
  rw [decide_eq_false_iff_not]
  intro hhead
  exact h.2.1 (List.mem_of_head? hhead)

theorem components_join {directory name : String} (hdirectory : directory ≠ "")
    (hname : IsName name) :
    components (join directory name) = components directory ++ [.named name] := by
  have hjoin {joined : String} {front : List (List Char)} (hfront : front ≠ [])
      (hrooted : isRooted joined = isRooted directory)
      (hparts : ofParts (parts directory) = ofParts front)
      (hjoined : parts joined = front ++ [name.toList]) :
      components joined = components directory ++ [.named name] := by
    rw [components_eq, components_eq, hrooted, hjoined, ofParts_append hfront, hparts,
      kept?_name hname, List.append_assoc]
    rfl
  have hslash := hname.2.1
  have hpieces (cs : List Char) : (pieces 0 [] cs).map Prod.snd ≠ [] := by
    simpa using pieces_ne_nil 0 [] cs
  unfold join
  rw [if_neg (by simp [isRooted_name hname, hdirectory])]
  split
  next hends =>
    obtain ⟨front, hfront⟩ := List.getLast?_eq_some_iff.mp hends
    have hparts : parts directory = (pieces 0 [] front).map Prod.snd ++ [[]] :=
      parts_slash hfront List.not_mem_nil
    have hlast : ofParts (parts directory) = ofParts ((pieces 0 [] front).map Prod.snd) := by
      rw [hparts, ofParts_append (hpieces front)]
      simp [kept?]
    exact hjoin (hpieces front) (isRooted_append hdirectory name) hlast
      (parts_slash (by simp [hfront]) hslash)
  next =>
    refine hjoin (hpieces directory.toList) ?_ rfl (parts_slash (by simp) hslash)
    rw [String.append_assoc, isRooted_append hdirectory]

end Path

namespace Tree

variable {t : Tree} {base : Place}

theorem walk_moves_of (links : Nat) (place : Place) (cs : List Component)
    (hlinks : ∀ fewer < links, ∀ place cs,
      t.walk true fewer place cs >>= t.asDirectory =
        t.walk true fewer place (Path.moves cs) >>= t.asDirectory) :
    t.walk true links place cs >>= t.asDirectory =
      t.walk true links place (Path.moves cs) >>= t.asDirectory := by
  induction cs generalizing place with
  | nil => rfl
  | cons c cs ih =>
    cases c with
    | root =>
      rw [Path.moves_cons (by simp), walk, walk]
      apply ih
    | here =>
      rw [Path.moves_here, walk]
      apply ih
    | up =>
      rw [Path.moves_cons (by simp), walk, walk]
      apply ih
    | named name =>
      rw [Path.moves_cons (by simp), walk, walk]
      cases hnode : t.node? (place ++ [name]) with
      | none =>
        simp only
        split <;> split <;> simp [Bind.bind, Except.bind, asDirectory, hnode]
      | some n =>
        cases n with
        | file octets =>
          simp only
          split <;> split <;> simp [Bind.bind, Except.bind, asDirectory, hnode]
        | directory => apply ih
        | link target =>
          simp only [Bool.not_true, Bool.false_eq_true, and_false, if_false]
          cases links with
          | zero => rfl
          | succ links =>
            have hleft := hlinks links (Nat.lt_succ_self links) place (steps target ++ cs)
            have hright := hlinks links (Nat.lt_succ_self links) place
              (steps target ++ Path.moves cs)
            rw [Path.moves_append] at hleft hright
            rw [Path.moves_moves] at hright
            exact hleft.trans hright.symm

theorem walk_moves (links : Nat) (place : Place) (cs : List Component) :
    t.walk true links place cs >>= t.asDirectory =
      t.walk true links place (Path.moves cs) >>= t.asDirectory := by
  induction links using Nat.strongRecOn generalizing place cs with
  | ind links ih => exact walk_moves_of links place cs ih

theorem list_eq_asDirectory (p : String) :
    t.list base p = (t.locate true base p >>= t.asDirectory).map fun place =>
      t.nodes.filterMap fun e =>
        if e.1.dropLast = place then e.1.getLast?.map fun name => (name, e.2) else none := by
  unfold list
  cases t.locate true base p with
  | error f => rfl
  | ok place =>
    simp only [Bind.bind, Except.bind, asDirectory]
    cases t.node? place with
    | none => rfl
    | some n => cases n <;> rfl

theorem list_spelling {p q : String} (hp : p ≠ "") (hq : q ≠ "")
    (h : Path.components p = Path.components q) : t.list base p = t.list base q := by
  have hlocate : t.locate true base p >>= t.asDirectory =
      t.locate true base q >>= t.asDirectory := by
    unfold locate
    have hnul : '\x00' ∈ p.toList ↔ '\x00' ∈ q.toList := by
      rw [Path.nul_mem, Path.nul_mem, h]
    have hempty : p.isEmpty = false ∧ q.isEmpty = false := by simp [hp, hq]
    rw [hempty.1, hempty.2, if_neg Bool.false_ne_true, if_neg Bool.false_ne_true]
    by_cases hmem : '\x00' ∈ p.toList
    · rw [if_pos hmem, if_pos (hnul.mp hmem)]
    · rw [if_neg hmem, if_neg (mt hnul.mpr hmem), walk_moves, Path.moves_steps, h,
        ← Path.moves_steps q, ← walk_moves]
  rw [list_eq_asDirectory, list_eq_asDirectory, hlocate]

end Tree

end HostedTests.Files
