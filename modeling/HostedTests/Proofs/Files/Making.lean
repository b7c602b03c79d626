import HostedTests.Proofs.Files.Walking

namespace HostedTests.Files

namespace Path

def names (cs : List Component) : List String :=
  cs.filterMap fun c => match c with
    | .named name => some name
    | _ => none

@[simp] theorem names_here (cs : List Component) : names (.here :: cs) = names cs := rfl

@[simp] theorem names_named (name : String) (cs : List Component) :
    names (.named name :: cs) = name :: names cs := rfl

def IsPlain (cs : List Component) : Prop := ∀ c ∈ cs, c ≠ .root ∧ c ≠ .up

end Path

open HostedTests.Files.Path

namespace Tree

variable {t t' : Tree} {place q : Place} {follow : Bool} {links : Nat} {cs : List Component}

/-- The way comes to a name that is missing in the directory `q`. -/
structure Misses (t : Tree) (links : Nat) (place : Place) (cs front : List Component) (q : Place)
    (name : String) (back : List Component) : Prop where
  way : cs = front ++ .named name :: back
  reached : t.walk true links place front = .ok q
  directory : t.node? q = some .directory
  missing : t.node? (q ++ [name]) = none

section Misses

variable {front back : List Component} {name : String}

theorem Misses.cons (h : t.Misses links place cs front q name back) {links' : Nat} {place' : Place}
    {c : Component}
    (hwalk : t.walk true links' place' (c :: front) = t.walk true links place front) :
    t.Misses links' place' (c :: cs) (c :: front) q name back :=
  ⟨by rw [h.way, List.cons_append], hwalk.trans h.reached, h.directory, h.missing⟩

theorem Misses.append (h : t.Misses links place cs front q name back) (more : List Component) :
    t.Misses links place (cs ++ more) front q name (back ++ more) :=
  ⟨by rw [h.way, List.append_assoc, List.cons_append], h.reached, h.directory, h.missing⟩

end Misses

structure Grown (t t' : Tree) (place : Place) : Prop where
  closed : t'.Closed
  node : ∀ q, t'.node? q = t.node? q ∨
    t.node? q = none ∧ t'.node? q = some .directory ∧ q <+: place

theorem Grown.refl (h : t.Closed) (place : Place) : t.Grown t place := ⟨h, fun _ => .inl rfl⟩

theorem Grown.mono {place' : Place} (h : t.Grown t' place) (hplace : place <+: place') :
    t.Grown t' place' :=
  ⟨h.closed, fun q => (h.node q).imp_right fun hq => ⟨hq.1, hq.2.1, hq.2.2.trans hplace⟩⟩

theorem Grown.trans {t'' : Tree} (h : t.Grown t' place) (h' : t'.Grown t'' place) :
    t.Grown t'' place := by
  refine ⟨h'.closed, fun q => ?_⟩
  rcases h'.node q with hq | ⟨hmissing, hq, hway⟩
  · rw [hq]
    exact h.node q
  · rcases h.node q with hsame | ⟨-, hthere, -⟩
    · exact .inr ⟨hsame ▸ hmissing, hq, hway⟩
    · rw [hthere] at hmissing
      cases hmissing

theorem Grown.kept (h : t.Grown t' place) (q : Place) (n : Node) (hn : t.node? q = some n) :
    t'.node? q = some n := by
  rcases h.node q with hq | ⟨hnone, -⟩
  · rw [hq, hn]
  · rw [hn] at hnone
    cases hnone

theorem Grown.fresh (h : t.Grown t' place) (hsound : t.Sound)
    (hmissing : t.node? place ≠ some .directory) (name : String) :
    t'.node? (place ++ [name]) = none := by
  have hlonger : ¬place ++ [name] <+: place := by
    intro hprefix
    have hlength := hprefix.length_le
    rw [List.length_append, List.length_singleton] at hlength
    omega
  rcases h.node (place ++ [name]) with hnode | ⟨-, -, hprefix⟩
  · rw [hnode]
    cases hn : t.node? (place ++ [name]) with
    | none => rfl
    | some n =>
      have hdirectory := hsound.directories hn place.length (by simp)
      rw [List.take_left] at hdirectory
      exact absurd hdirectory hmissing
  · exact absurd hprefix hlonger

end Tree

end HostedTests.Files
