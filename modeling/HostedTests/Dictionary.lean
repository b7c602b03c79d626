namespace HostedTests

def Ascending {α : Type} (entries : List (String × α)) : Prop :=
  entries.Pairwise fun a b => a.1 < b.1

def insertEntry {α : Type} (key : String) (value : α) :
    List (String × α) → List (String × α)
  | [] => [(key, value)]
  | e :: rest =>
    if key < e.1 then (key, value) :: e :: rest
    else if key = e.1 then (key, value) :: rest
    else e :: insertEntry key value rest

theorem key_of_mem_insertEntry {α : Type} {key : String} {value : α} {e : String × α}
    {entries : List (String × α)} (h : e ∈ insertEntry key value entries) :
    e.1 = key ∨ ∃ f ∈ entries, f.1 = e.1 := by
  induction entries with
  | nil => simp_all [insertEntry]
  | cons f rest ih =>
    simp only [insertEntry] at h
    split at h
    · rcases List.mem_cons.1 h with rfl | h
      · exact .inl rfl
      · exact .inr ⟨e, h, rfl⟩
    · split at h
      · rcases List.mem_cons.1 h with rfl | h
        · exact .inl rfl
        · exact .inr ⟨e, List.mem_cons_of_mem _ h, rfl⟩
      · rcases List.mem_cons.1 h with rfl | h
        · exact .inr ⟨e, List.mem_cons_self, rfl⟩
        · rcases ih h with h | ⟨g, hg, he⟩
          · exact .inl h
          · exact .inr ⟨g, List.mem_cons_of_mem _ hg, he⟩

theorem ascending_insertEntry {α : Type} (key : String) (value : α)
    {entries : List (String × α)} (h : Ascending entries) :
    Ascending (insertEntry key value entries) := by
  induction entries with
  | nil => simp [insertEntry, Ascending]
  | cons e rest ih =>
    obtain ⟨he, hrest⟩ := List.pairwise_cons.1 h
    simp only [insertEntry]
    split
    · rename_i hk
      refine List.pairwise_cons.2 ⟨fun a ha => ?_, h⟩
      rcases List.mem_cons.1 ha with rfl | ha
      · exact hk
      · exact String.lt_trans hk (he a ha)
    · rename_i hk
      split
      · rename_i heq
        exact List.pairwise_cons.2 ⟨fun a ha => heq ▸ he a ha, hrest⟩
      · rename_i hne
        refine List.pairwise_cons.2 ⟨fun a ha => ?_, ih hrest⟩
        rcases key_of_mem_insertEntry ha with h' | ⟨f, hf, h'⟩
        · rw [h']
          rcases Std.lt_trichotomy key e.1 with h1 | h1 | h1
          · exact absurd h1 hk
          · exact absurd h1 hne
          · exact h1
        · exact h' ▸ he f hf

structure Dictionary (α : Type) where
  entries : List (String × α)
  ascending : Ascending entries
  deriving DecidableEq

namespace Dictionary

variable {α : Type}

def empty : Dictionary α := ⟨[], List.Pairwise.nil⟩

instance : Inhabited (Dictionary α) := ⟨empty⟩

def insert (d : Dictionary α) (key : String) (value : α) : Dictionary α :=
  ⟨insertEntry key value d.entries, ascending_insertEntry key value d.ascending⟩

def ofList (entries : List (String × α)) : Dictionary α :=
  entries.foldl (fun d e => d.insert e.1 e.2) empty

def extend (d e : Dictionary α) : Dictionary α :=
  e.entries.foldl (fun d e => d.insert e.1 e.2) d

def get? (d : Dictionary α) (key : String) : Option α := d.entries.lookup key

def values (d : Dictionary α) : List α := d.entries.map (·.2)

def map {β : Type} (f : α → β) (d : Dictionary α) : Dictionary β :=
  ⟨d.entries.map fun e => (e.1, f e.2), by
    have h := d.ascending
    simp only [Ascending, List.pairwise_map] at *
    exact h⟩

end Dictionary

end HostedTests
