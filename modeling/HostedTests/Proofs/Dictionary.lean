import HostedTests.Dictionary
import Mathlib.Data.List.Basic

namespace HostedTests

variable {α : Type}

theorem lookup_cons_ite (e : String × α) (rest : List (String × α)) (name : String) :
    (e :: rest).lookup name = if name = e.1 then some e.2 else rest.lookup name := by
  rw [List.lookup_cons]
  by_cases hn : name = e.1
  · simp [hn]
  · simp only [beq_eq_false_iff_ne.2 hn, if_neg hn]

theorem lookup_insertEntry (key : String) (value : α) (entries : List (String × α))
    (name : String) :
    (insertEntry key value entries).lookup name =
      if name = key then some value else entries.lookup name := by
  induction entries with
  | nil => exact lookup_cons_ite (key, value) [] name
  | cons e rest ih =>
    rw [insertEntry]
    split
    · exact lookup_cons_ite (key, value) (e :: rest) name
    · split
      · rename_i heq
        rw [lookup_cons_ite, lookup_cons_ite e rest, ← heq]
        split <;> rfl
      · rename_i hne
        rw [lookup_cons_ite, lookup_cons_ite e rest, ih]
        by_cases hn : name = e.1
        · simp [hn, Ne.symm hne]
        · simp [hn]

namespace Dictionary

theorem get?_insert (d : Dictionary α) (key : String) (value : α) (name : String) :
    (d.insert key value).get? name = if name = key then some value else d.get? name :=
  lookup_insertEntry key value d.entries name

theorem get?_extend_entries (entries : List (String × α)) (h : Ascending entries)
    (d : Dictionary α) (name : String) :
    (entries.foldl (fun d e => d.insert e.1 e.2) d).get? name =
      (entries.lookup name).or (d.get? name) := by
  induction entries generalizing d with
  | nil => rfl
  | cons e rest ih =>
    obtain ⟨he, hrest⟩ := List.pairwise_cons.1 h
    rw [List.foldl_cons, ih hrest, get?_insert, lookup_cons_ite]
    by_cases hn : name = e.1
    · have hlater : rest.lookup name = none := by
        rw [List.lookup_eq_none_iff]
        intro f hf
        simpa [hn] using String.ne_of_lt (he f hf)
      rw [if_pos hn, if_pos hn, hlater, Option.none_or, Option.some_or]
    · rw [if_neg hn, if_neg hn]

theorem get?_extend (d e : Dictionary α) (name : String) :
    (d.extend e).get? name = (e.get? name).or (d.get? name) :=
  get?_extend_entries e.entries e.ascending d name

end Dictionary

end HostedTests
