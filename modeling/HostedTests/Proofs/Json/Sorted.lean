import HostedTests.Json.Value
import Mathlib.Data.List.Basic

namespace HostedTests

theorem mem_insertEntry {α : Type} {key : String} {value : α} {e : String × α}
    {entries : List (String × α)} (h : e ∈ insertEntry key value entries) :
    e = (key, value) ∨ e ∈ entries := by
  induction entries with
  | nil => exact .inl (List.mem_singleton.1 h)
  | cons f rest ih =>
    simp only [insertEntry] at h
    split at h
    · exact (List.mem_cons.1 h).imp_right id
    · split at h
      · exact (List.mem_cons.1 h).imp_right (List.mem_cons_of_mem f)
      · rcases List.mem_cons.1 h with rfl | h
        · exact .inr List.mem_cons_self
        · exact (ih h).imp_right (List.mem_cons_of_mem f)

theorem keys_insertEntry {α : Type} (key : String) (value : α) {name : String}
    {entries : List (String × α)} (h : name = key ∨ name ∈ entries.map Prod.fst) :
    name ∈ (insertEntry key value entries).map Prod.fst := by
  induction entries with
  | nil => simpa [insertEntry] using h
  | cons f rest ih =>
    simp only [insertEntry]
    split
    · simpa using h
    · split
      · rename_i hk
        simpa [← hk] using h
      · rw [List.map_cons, List.mem_cons] at h ⊢
        rcases h with h | h | h
        · exact .inr (ih (.inl h))
        · exact .inl h
        · exact .inr (ih (.inr h))

theorem insertEntry_last {α : Type} {key : String} (value : α) {entries : List (String × α)}
    (h : ∀ e ∈ entries, e.1 < key) : insertEntry key value entries = entries ++ [(key, value)] := by
  induction entries with
  | nil => rfl
  | cons f rest ih =>
    have hf := h f List.mem_cons_self
    have hne : key ≠ f.1 := fun he => String.lt_irrefl key (he ▸ hf)
    rw [insertEntry, if_neg (String.lt_asymm hf), if_neg hne,
      ih fun e he => h e (List.mem_cons_of_mem f he), List.cons_append]

namespace Json.Value

theorem sortedMember_eq (m : String × Value) : sortedMember m = m.2.sorted := by
  obtain ⟨name, v⟩ := m
  rw [sortedMember]

theorem sortedItems_eq (items : List Value) : sortedItems items = items.map sorted := by
  induction items with
  | nil => rfl
  | cons v rest ih => rw [sortedItems, ih, List.map_cons]

theorem mem_sortedMembers {m : String × Value} {members done : List (String × Value)}
    (h : m ∈ sortedMembers members done) :
    m ∈ done ∨ ∃ a ∈ members, m = (a.1, a.2.sorted) := by
  induction members generalizing done with
  | nil => exact .inl h
  | cons a rest ih =>
    rw [sortedMembers] at h
    rcases ih h with h | ⟨b, hb, he⟩
    · rcases mem_insertEntry h with h | h
      · exact .inr ⟨a, List.mem_cons_self, sortedMember_eq a ▸ h⟩
      · exact .inl h
    · exact .inr ⟨b, List.mem_cons_of_mem a hb, he⟩

theorem forall_sortedMembers {P : String × Value → Prop} {members : List (String × Value)}
    (h : ∀ m ∈ members, P (m.1, m.2.sorted)) : ∀ m ∈ sortedMembers members [], P m := by
  intro m hm
  obtain ⟨a, ha, rfl⟩ := (mem_sortedMembers hm).resolve_left List.not_mem_nil
  exact h a ha

theorem keys_sortedMembers {name : String} {members done : List (String × Value)}
    (h : name ∈ members.map Prod.fst ∨ name ∈ done.map Prod.fst) :
    name ∈ (sortedMembers members done).map Prod.fst := by
  induction members generalizing done with
  | nil => exact h.resolve_left (by simp)
  | cons a rest ih =>
    rw [sortedMembers]
    apply ih
    rw [List.map_cons, List.mem_cons] at h
    rcases h with (h | h) | h
    · exact .inr (keys_insertEntry _ _ (.inl h))
    · exact .inl h
    · exact .inr (keys_insertEntry _ _ (.inr h))

theorem sortedMembers_ascending {members done : List (String × Value)}
    (h : Ascending (done ++ members)) :
    sortedMembers members done = done ++ members.map fun m => (m.1, m.2.sorted) := by
  induction members generalizing done with
  | nil => rw [sortedMembers, List.map_nil, List.append_nil]
  | cons a rest ih =>
    have hlast : ∀ e ∈ done, e.1 < a.1 := fun e he =>
      (List.pairwise_append.1 h).2.2 e he a List.mem_cons_self
    have hnext : Ascending ((done ++ [(a.1, a.2.sorted)]) ++ rest) := by
      have hkeys : ((done ++ [(a.1, a.2.sorted)]) ++ rest).map Prod.fst =
          (done ++ a :: rest).map Prod.fst := by simp
      rw [Ascending, ← List.pairwise_map (f := Prod.fst) (R := (· < ·))] at h ⊢
      rw [hkeys]
      exact h
    rw [sortedMembers, sortedMember_eq, insertEntry_last _ hlast, ih hnext, List.map_cons,
      List.append_assoc, List.singleton_append]

end Json.Value

end HostedTests
