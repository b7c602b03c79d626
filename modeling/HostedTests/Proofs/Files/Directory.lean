import HostedTests.Proofs.Files.Making
import HostedTests.Proofs.Files.Naming

namespace HostedTests.Files

namespace Path

open HostedTests.Files.Tree (steps)

end Path

open HostedTests.Files.Path

namespace Tree

variable {t t' made : Tree} {base q : Place} {p d name : String} {follow : Bool} {links : Nat}
  {cs front back : List Component}

theorem next_of_names (q : Place) (name : String) (back : List Component) :
    q ++ [name] <+: q ++ names (.named name :: back) := by
  rw [names_named, List.prefix_append_right_inj]
  exact List.cons_prefix_cons.mpr ⟨rfl, List.nil_prefix⟩

theorem node?_below (h : t.Sound) {r : Place} (hq : t.node? q = none) (hr : q <+: r) :
    t.node? r = none := by
  cases hnode : t.node? r with
  | none => rfl
  | some n =>
    rw [List.prefix_iff_eq_take] at hr
    by_cases hlength : q.length < r.length
    · rw [hr, h.directories hnode _ hlength] at hq
      cases hq
    · rw [hr, List.take_of_length_le (Nat.not_lt.mp hlength), hnode] at hq
      cases hq

theorem Misses.below (h : t.Misses links base cs front q name back) (hsound : t.Sound) :
    t.node? (q ++ names (.named name :: back)) = none :=
  node?_below hsound h.missing (next_of_names q name back)

end Tree

end HostedTests.Files
