import HostedTests.Proofs.Session.Telling

namespace HostedTests.Session

structure Confined (p : Nat) (s t : Session) : Prop where
  frame : t = { s with record := t.record, parties := t.parties, collector := t.collector }
  parties : t.parties.length = s.parties.length
  told : ∀ q, q ≠ p → t.told q = s.told q
  transmitted : t.transmitted = s.transmitted
  others : ∀ q, q ≠ p → t.collection? q = s.collection? q
  collects : s.collection? p ≠ none → t.collection? p ≠ none

namespace Confined

theorem refl (p : Nat) (s : Session) : Confined p s s :=
  ⟨rfl, rfl, fun _ _ => rfl, rfl, fun _ _ => rfl, id⟩

theorem trans {p : Nat} {s t u : Session} (h : Confined p s t) (k : Confined p t u) :
    Confined p s u where
  frame := by
    rw [k.frame, h.frame]
  parties := k.parties.trans h.parties
  told := fun q hq => (k.told q hq).trans (h.told q hq)
  transmitted := k.transmitted.trans h.transmitted
  others := fun q hq => (k.others q hq).trans (h.others q hq)
  collects := fun hc => k.collects (h.collects hc)

end Confined

theorem confined_tell (s : Session) (p : Nat) (n : Notice) :
    Confined p s (s.tell .quiet p n) where
  frame := rfl
  parties := rfl
  told := by
    intro q hq
    rw [tell_quiet, tellAll, told_append rfl q, filterMap_told_other hq.symm, List.append_nil]
  transmitted := (transmitted_append (s := s) rfl).trans (List.append_nil _)
  others := fun _ _ => rfl
  collects := id

theorem confined_foldl_tell (p : Nat) (us : List Utterance) (s : Session) :
    Confined p s (us.foldl (fun s u => s.tell .quiet p u.notice) s) := by
  induction us generalizing s with
  | nil => exact Confined.refl p s
  | cons u us ih => exact (confined_tell s p u.notice).trans (ih _)

theorem confined_callCollector (s : Session) (p : Nat) (canceled : Bool) :
    Confined p s (s.callCollector canceled).2 where
  frame := rfl
  parties := rfl
  told := by
    intro q _
    exact (told_append (s := s) rfl q).trans (List.append_nil _)
  transmitted := (transmitted_append (s := s) rfl).trans (List.append_nil _)
  others := fun _ _ => rfl
  collects := id

theorem collection?_setCollection (s : Session) (p q : Nat) (c : Collection) :
    (s.setCollection p c).collection? q =
      if p = q then (s.parties[p]?).map fun _ => c else s.collection? q := by
  rw [setCollection, collection?, collection?, List.getElem?_modify]
  by_cases h : p = q
  · subst h
    cases s.parties[p]? <;> simp only [if_true] <;> rfl
  · cases s.parties[q]? <;> simp only [h, if_false] <;> rfl

theorem confined_setCollection (s : Session) (p : Nat) (c : Collection) :
    Confined p s (s.setCollection p c) where
  frame := rfl
  parties := List.length_modify ..
  told := fun _ _ => rfl
  transmitted := rfl
  others := by
    intro q hq
    rw [collection?_setCollection, if_neg hq.symm]
  collects := by
    intro hc hnone
    rw [collection?_setCollection, if_pos rfl, Option.map_eq_none_iff] at hnone
    rw [collection?, hnone] at hc
    exact hc rfl

theorem confined_endCollection (s : Session) (p : Nat) (canceled : Bool) :
    Confined p s (s.endCollection .quiet p canceled).2 := by
  unfold endCollection
  cases s.collection? p with
  | none => exact Confined.refl p s
  | some c =>
    by_cases hended : c.ended
    · simp only [hended, if_true]
      exact Confined.refl p s
    · let t := s.setCollection p ⟨true, none⟩
      let u := (t.callCollector canceled).2
      let v := t.collector.ending.utterances.foldl (fun s u => s.tell .quiet p u.notice) u
      have ht : Confined p s t := confined_setCollection s p _
      have hu : Confined p t u := confined_callCollector t p canceled
      have hv : Confined p u v := confined_foldl_tell p _ u
      have hsv : Confined p s v := (ht.trans hu).trans hv
      simp only [hended, if_false, callCollector, Bool.false_eq_true]
      cases t.collector.ending.outcome with
      | ok sets => exact hsv.trans (confined_setCollection v p _)
      | error e => exact hsv.trans (confined_tell v p _)

theorem confined_of_endCollection {s t : Session} {p : Nat} {canceled : Bool}
    {result : Option (List AttachmentSet)}
    (h : s.endCollection .quiet p canceled = (result, t)) : Confined p s t := by
  have hend := confined_endCollection s p canceled
  rw [h] at hend
  exact hend

theorem confined_deliver (s : Session) (p : Nat) (n : Notice) :
    Confined p s (s.deliver .quiet p n) := by
  unfold deliver
  by_cases hnone : (s.collection? p).isNone
  · rw [if_pos hnone]
    exact confined_tell s p n
  · rw [if_neg hnone]
    split
    · split
      · exact confined_tell s p _
      · split
        · rename_i hend
          apply (confined_of_endCollection hend).trans
          apply confined_tell
        · rename_i hend
          apply (confined_of_endCollection hend).trans
          apply confined_tell
    · split
      · rename_i hend
        apply (confined_of_endCollection hend).trans
        apply confined_tell
      · rename_i hend
        apply (confined_of_endCollection hend).trans
        apply confined_tell
    · exact confined_tell s p _

end HostedTests.Session
