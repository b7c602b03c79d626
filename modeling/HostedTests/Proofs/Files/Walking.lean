import HostedTests.Proofs.Files.Spelling

namespace HostedTests.Files

def Node.text : Node → Except SystemFault String
  | .file octets =>
    match Text.Utf8.decode octets with
    | .ok cs => .ok (String.ofList cs)
    | .error _ => .error .notUtf8
  | .directory => .error .isDirectory
  | .link _ => .error .notFound

namespace Tree

variable {t t' : Tree} {base place : Place} {follow : Bool} {links : Nat} {cs : List Component}

def turn (place : Place) : Component → Option Place
  | .root => some []
  | .here => some place
  | .up => some place.dropLast
  | .named _ => none

section Paths

variable {p : String} {q : Place}

end Paths

def Closed (t : Tree) : Prop :=
  ∀ place, t.node? place = some .directory → t.node? place.dropLast = some .directory

theorem Sound.closed (h : t.Sound) : t.Closed := by
  intro place hplace
  by_cases hempty : place = []
  · rwa [hempty] at hplace ⊢
  · rw [List.dropLast_eq_take]
    apply h.directories hplace
    have hlength := List.length_pos_iff.mpr hempty
    omega

theorem Closed.turn (hclosed : t.Closed) (hplace : t.node? place = some .directory) {c : Component}
    {next : Place} (h : turn place c = some next) : t.node? next = some .directory := by
  cases c <;> cases h
  · rfl
  · exact hplace
  · exact hclosed place hplace

section Closed

variable {q : Place} (hclosed : t.Closed)

include hclosed

end Closed

end Tree

end HostedTests.Files
