import HostedTests.Proofs.Json.Sorted
import HostedTests.Proofs.Json.Values

namespace HostedTests.Json

inductive Value.IsRead : ℕ → Value → Prop where
  | null {room : ℕ} : IsRead room .null
  | bool {room : ℕ} (b : Bool) : IsRead room (.bool b)
  | number {room : ℕ} (x : Number) : IsRead room (.number x)
  | string {room : ℕ} (s : String) : IsRead room (.string s)
  | list {room : ℕ} {items : List Value} (hroom : 0 < room) (h : ∀ v ∈ items, IsRead room v) :
      IsRead (room + 1) (.list items)
  | object {room : ℕ} {members : List (String × Value)} (hroom : 0 < room)
      (ha : Ascending members) (h : ∀ m ∈ members, IsRead room m.2) :
      IsRead (room + 1) (.object members)

mutual

def Value.numbers : Value → List Number
  | .number x => [x]
  | .list items => itemsNumbers items
  | .object members => membersNumbers members
  | _ => []

def itemsNumbers : List Value → List Number
  | [] => []
  | v :: rest => Value.numbers v ++ itemsNumbers rest

def membersNumbers : List (String × Value) → List Number
  | [] => []
  | m :: rest => memberNumbers m ++ membersNumbers rest

def memberNumbers : String × Value → List Number
  | (_, v) => Value.numbers v

end

theorem itemsNumbers_eq (items : List Value) :
    itemsNumbers items = items.flatMap Value.numbers := by
  induction items with
  | nil => rfl
  | cons v rest ih => rw [itemsNumbers, ih, List.flatMap_cons]

theorem membersNumbers_eq (members : List (String × Value)) :
    membersNumbers members = members.flatMap fun m => m.2.numbers := by
  induction members with
  | nil => rfl
  | cons m rest ih =>
    obtain ⟨name, v⟩ := m
    rw [membersNumbers, ih, memberNumbers, List.flatMap_cons]

namespace Value.IsRead

variable {room : ℕ} {v : Value}

theorem sorted (h : v.IsRead room) : v.sorted = v := by
  induction h with
  | null | bool | number | string => simp only [Value.sorted]
  | list hroom h ih =>
    rw [Value.sorted, sortedItems_eq]
    exact congrArg Value.list ((List.map_congr_left ih).trans (List.map_id _))
  | object hroom ha h ih =>
    rw [Value.sorted, sortedMembers_ascending (by rwa [List.nil_append]), List.nil_append]
    apply congrArg Value.object
    exact (List.map_congr_left fun m hm => congrArg (Prod.mk m.1) (ih m hm)).trans (List.map_id _)

theorem fits (h : v.IsRead room) (hn : ∀ x ∈ v.numbers, x.Fits) : v.Fits room := by
  induction h with
  | null | bool | string => exact trivial
  | number x =>
    rw [Value.numbers] at hn
    exact hn x List.mem_cons_self
  | list hroom h ih =>
    rw [Value.numbers, itemsNumbers_eq] at hn
    refine ⟨by omega, itemsFit_of_forall ?_⟩
    intro v hv
    exact ih v hv fun x hx => hn x (List.mem_flatMap.mpr ⟨v, hv, hx⟩)
  | object hroom ha h ih =>
    rw [Value.numbers, membersNumbers_eq] at hn
    refine ⟨by omega, membersFit_of_forall ?_⟩
    intro m hm
    exact ih m hm fun x hx => hn x (List.mem_flatMap.mpr ⟨m, hm, hx⟩)

end Value.IsRead

def Container.IsRead (room : ℕ) : Container → Prop
  | .list items => ∀ v ∈ items, v.IsRead room
  | .object members => Ascending members ∧ ∀ m ∈ members, m.2.IsRead room

def Frame.container : Frame → Container
  | .list items => .list items
  | .object members _ => .object members

def stackIsRead (room : ℕ) : List Frame → Prop
  | [] => True
  | f :: rest => f.container.IsRead room ∧ stackIsRead (room + 1) rest

namespace Reader

structure Stands (whole : ℕ) (stack : List Frame) (room : ℕ) : Prop where
  room_pos : 0 < room
  level : room + stack.length = whole
  stack_isRead : stackIsRead room stack

structure Inside (whole : ℕ) (stack : List Frame) (room : ℕ) (c : Container) : Prop where
  room_pos : 0 < room
  isRead : c.IsRead room
  stands : Stands whole stack (room + 1)

def IsSound (whole : ℕ) (r : Reader) : Prop :=
  match r.place with
  | .value | .string _ | .numeral _ => Stands whole r.stack r.room
  | .literal _ v => Stands whole r.stack r.room ∧ v.IsRead r.room
  | .first c | .next c | .comma c => Inside whole r.stack r.room c
  | .name members _ | .colon members _ => Inside whole r.stack r.room (.object members)

end Reader

def ReaderStep.IsSound (whole : ℕ) : ReaderStep → Prop
  | .more r => r.IsSound whole
  | .done v | .doneBefore v => v.IsRead whole
  | .fault _ => True

namespace Reader

variable {whole room : ℕ} {stack rest : List Frame} {c : Container} {v : Value}

theorem Inside.push (h : Inside whole stack room c) {f : Frame} (hf : f.container = c) :
    Stands whole (f :: stack) room := by
  have hlevel := h.stands.level
  refine ⟨h.room_pos, ?_, hf ▸ h.isRead, h.stands.stack_isRead⟩
  rw [List.length_cons]
  omega

theorem Stands.resumed (h : Stands whole stack room) (hv : v.IsRead room)
    (hr : resume stack v = some (c, rest)) : Inside whole rest room c := by
  obtain ⟨hpos, hlevel, hstack⟩ := h
  cases stack with
  | nil => cases hr
  | cons f tail =>
    obtain ⟨hf, htail⟩ := hstack
    rw [List.length_cons] at hlevel
    have hstands : Stands whole tail (room + 1) := ⟨by omega, by omega, htail⟩
    cases f with
    | list items =>
      cases hr
      exact ⟨hpos, List.forall_mem_cons.mpr ⟨hv, hf⟩, hstands⟩
    | object members name =>
      cases hr
      refine ⟨hpos, ⟨ascending_insertEntry name v hf.1, ?_⟩, hstands⟩
      intro m hm
      rcases mem_insertEntry hm with rfl | hm
      · exact hv
      · exact hf.2 m hm

theorem Stands.unresumed (h : Stands whole stack room) (hr : resume stack v = none) :
    room = whole := by
  cases stack with
  | nil => exact h.level
  | cons f tail => cases f <;> cases hr

theorem complete_isSound (h : Stands whole stack room) (hv : v.IsRead room) :
    (complete stack room v).IsSound whole := by
  rw [complete]
  cases hr : resume stack v with
  | none => exact h.unresumed hr ▸ hv
  | some p => exact h.resumed hv hr

theorem openContainer_isSound (h : Stands whole stack room) (hc : ∀ room, c.IsRead room) :
    (openContainer stack room c).IsSound whole := by
  rw [openContainer]
  split
  · exact trivial
  · rename_i hroom
    have hback : room - 1 + 1 = room := by omega
    refine ⟨show 0 < room - 1 by omega, hc _, ?_⟩
    exact hback.symm ▸ h

theorem begin_isSound (h : Stands whole stack room) (d : Char) :
    (begin stack room d).IsSound whole := by
  rw [begin]
  repeat' split
  · exact ⟨h, .null⟩
  · exact ⟨h, .bool true⟩
  · exact ⟨h, .bool false⟩
  · exact h
  · exact h
  · exact h
  · exact openContainer_isSound h fun _ => List.forall_mem_nil _
  · exact openContainer_isSound h fun _ => ⟨List.Pairwise.nil, List.forall_mem_nil _⟩
  · exact trivial

theorem close_list_isSound {items : List Value} (h : Inside whole stack room (.list items)) :
    (complete stack (room + 1) (.list items.reverse)).IsSound whole :=
  complete_isSound h.stands (.list h.room_pos fun v hv => h.isRead v (List.mem_reverse.mp hv))

theorem close_object_isSound {members : List (String × Value)}
    (h : Inside whole stack room (.object members)) :
    (complete stack (room + 1) (.object members)).IsSound whole :=
  complete_isSound h.stands (.object h.room_pos h.isRead.1 h.isRead.2)

theorem nextStep_isSound (h : Inside whole stack room c) (d : Char) :
    (nextStep stack room c d).IsSound whole := by
  unfold nextStep
  repeat' split
  · exact h
  · exact h
  · exact close_list_isSound h
  · exact trivial
  · exact close_object_isSound h
  · exact trivial

theorem firstStep_isSound (h : Inside whole stack room c) (d : Char) :
    (firstStep stack room c d).IsSound whole := by
  unfold firstStep
  repeat' split
  · exact h
  · exact close_list_isSound h
  · exact begin_isSound (h.push rfl) d
  · exact h
  · exact close_object_isSound h
  · exact trivial

theorem commaStep_isSound (h : Inside whole stack room c) (d : Char) :
    (commaStep stack room c d).IsSound whole := by
  unfold commaStep
  repeat' split
  · exact h
  · exact trivial
  · exact begin_isSound (h.push rfl) d
  · exact h
  · exact trivial
  · exact trivial

theorem behindNumeral_isSound (h : Stands whole stack room) (n : PartialNumeral) (d : Char) :
    (behindNumeral stack room n d).IsSound whole := by
  unfold behindNumeral
  split
  · exact trivial
  · rename_i x _
    cases hr : resume stack (.number x) with
    | none => exact .number x
    | some p => exact nextStep_isSound (h.resumed (.number x) hr) d

theorem step_isSound {r : Reader} (h : r.IsSound whole) (d : Char) :
    (r.step d).IsSound whole := by
  obtain ⟨stack, room, place⟩ := r
  cases place with
  | value =>
    simp only [step]
    split
    · exact h
    · exact begin_isSound h d
  | first c => exact firstStep_isSound h d
  | next c => exact nextStep_isSound h d
  | comma c => exact commaStep_isSound h d
  | name members p =>
    simp only [step]
    split
    · exact h
    · exact h
    · exact trivial
  | colon members name =>
    simp only [step]
    repeat' split
    · exact h
    · exact h.push rfl
    · exact trivial
  | string p =>
    simp only [step]
    split
    · exact h
    · exact complete_isSound h (.string _)
    · exact trivial
  | numeral n =>
    simp only [step]
    split
    · exact h
    · exact behindNumeral_isSound h n d
    · exact trivial
  | literal text v =>
    simp only [step]
    repeat' split
    · exact trivial
    · exact complete_isSound h.1 h.2
    · exact trivial
    · exact h
    · exact trivial

theorem start_isSound {whole : ℕ} (h : 0 < whole) : (start whole).IsSound whole :=
  ⟨h, Nat.add_zero whole, trivial⟩

end Reader

end HostedTests.Json
