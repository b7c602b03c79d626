import HostedTests.Message.Reader
import HostedTests.Proofs.Message.Normal
import HostedTests.Proofs.Message.Reading
import HostedTests.Proofs.Payload.Bound
import HostedTests.Proofs.Payload.Exact

namespace HostedTests

class LawfulPayload (α : Type) [Payload α] : Prop where
  unpack_pack : ∀ a : α, Payload.unpack (Payload.pack a) = a

namespace LawfulPayload

instance {α : Type} [Payload α] [LawfulPayload α] : LawfulPayload (List α) := by
  constructor
  intro as
  change (as.map Payload.pack).map Payload.unpack = as
  rw [List.map_map]
  exact (List.map_congr_left fun a _ => unpack_pack a).trans (List.map_id as)

instance {α : Type} [Payload α] [LawfulPayload α] : LawfulPayload (Option α) := by
  constructor
  intro a
  cases a with
  | none => rfl
  | some a => exact congrArg some (unpack_pack a)

end LawfulPayload

class ExhaustivePayload (α : Type) [Payload α] : Prop where
  pack_unpack : ∀ x : (Payload.shape α).Carrier, Payload.pack (Payload.unpack x : α) = x

namespace ExhaustivePayload

instance {α : Type} [Payload α] [ExhaustivePayload α] : ExhaustivePayload (List α) := by
  constructor
  intro (xs : List (Payload.shape α).Carrier)
  change (xs.map (Payload.unpack : _ → α)).map Payload.pack = xs
  rw [List.map_map]
  exact (List.map_congr_left fun x _ => pack_unpack (α := α) x).trans (List.map_id xs)

instance {α : Type} [Payload α] [ExhaustivePayload α] : ExhaustivePayload (Option α) := by
  constructor
  intro x
  cases x with
  | none => rfl
  | some x => exact congrArg some (pack_unpack (α := α) x)

end ExhaustivePayload

namespace Message

open Json (Value)

def Carries {α : Type} [Payload α] (text : String) (kind : Kind) (a : α) : Prop :=
  ∃ m, parse text = .ok m ∧ m.kind = kind ∧ (m.require : Except Fault α) = .ok a

def isExchangeable (s : Payload.Shape) : Bool :=
  s.isSolid && s.isUnambiguous && decide (s.levels < Reader.payloadRoom) && isTimed s

theorem boundPayload_normal (kind : Kind) {v : Value} (h : normalize v = v) :
    boundPayload ⟨kind, v.sorted⟩ = v.sorted := by
  rw [boundPayload]
  split
  · rfl
  · exact (normalize_sorted v).trans (congrArg Value.sorted h)

theorem boundPayload_contract {kind : Kind} (h : kind ≠ .remark) (v : Value) :
    boundPayload ⟨kind, v.sorted⟩ = (normalize v).sorted := by
  rw [boundPayload, if_neg h, normalize_sorted]

variable {α : Type} [Payload α]

theorem parse_bound (kind : Kind) (hunambiguous : (Payload.shape α).isUnambiguous)
    (hshallow : (Payload.shape α).levels < Reader.payloadRoom) {a b : α}
    (hbound : boundPayload ⟨kind, (Payload.toValue a).sorted⟩ = (Payload.toValue b).sorted) :
    let m : Message := ⟨kind, (Payload.toValue a).sorted⟩
    parse (carrying kind a).text = .ok m ∧
      (m.bind : Except Fault α) =
        .ok (Payload.unpack ((Payload.shape α).canon (Payload.pack b))) := by
  intro m
  have hbind : (Payload.ofValue (Payload.toValue b).sorted : Except Payload.Fault α) =
      .ok (Payload.unpack ((Payload.shape α).canon (Payload.pack b))) := by
    have hb := Payload.bind_print _ hunambiguous (Payload.pack b)
    rw [Payload.ofValue]
    change Except.map Payload.unpack ((Payload.shape α).bind (Payload.shape α |>.print
      (Payload.pack b)).sorted) = _
    rw [hb, Except.map]
  refine ⟨parse_text (carrying kind a) (Payload.print_fits _ hunambiguous _ hshallow), ?_⟩
  rw [bind, hbound, hbind]
  rfl

theorem parse_carrying (kind : Kind) (hunambiguous : (Payload.shape α).isUnambiguous)
    (hshallow : (Payload.shape α).levels < Reader.payloadRoom) (a : α)
    (hnormal : normalize (Payload.toValue a) = Payload.toValue a) :
    let m : Message := ⟨kind, (Payload.toValue a).sorted⟩
    parse (carrying kind a).text = .ok m ∧
      (m.bind : Except Fault α) =
        .ok (Payload.unpack ((Payload.shape α).canon (Payload.pack a))) :=
  parse_bound kind hunambiguous hshallow (boundPayload_normal kind hnormal)

theorem carries_of_bound (kind : Kind) (hsolid : (Payload.shape α).isSolid)
    (hunambiguous : (Payload.shape α).isUnambiguous)
    (hshallow : (Payload.shape α).levels < Reader.payloadRoom) {a b : α}
    (hbound : boundPayload ⟨kind, (Payload.toValue a).sorted⟩ = (Payload.toValue b).sorted) :
    Carries (carrying kind a).text kind
      (Payload.unpack ((Payload.shape α).canon (Payload.pack b)) : α) := by
  obtain ⟨hread, hbind⟩ := parse_bound kind hunambiguous hshallow hbound
  refine ⟨_, hread, rfl, ?_⟩
  rw [require_of_ne_null (Payload.print_ne_null hsolid (Payload.pack a)), hbind]

theorem carries_canon (kind : Kind) (h : isExchangeable (Payload.shape α)) (a : α) :
    Carries (carrying kind a).text kind
      (Payload.unpack ((Payload.shape α).canon (Payload.pack a)) : α) := by
  simp only [isExchangeable, Bool.and_eq_true, decide_eq_true_eq] at h
  obtain ⟨⟨⟨hsolid, hunambiguous⟩, hshallow⟩, htimed⟩ := h
  exact carries_of_bound kind hsolid hunambiguous hshallow
    (boundPayload_normal kind (normalize_print _ htimed (Payload.pack a)))

def Settles (α : Type) [Payload α] (f : α → α) : Prop :=
  ∀ a : α, Payload.unpack ((Payload.shape α).canon (Payload.pack a)) = f a

theorem settles_exact [LawfulPayload α] (h : (Payload.shape α).isExact) : Settles α id := by
  intro a
  rw [Payload.canon_eq _ h, LawfulPayload.unpack_pack]
  rfl

theorem settles_list {f : α → α} (h : Settles α f) : Settles (List α) (List.map f) := by
  intro as
  change ((as.map Payload.pack).map fun x => (Payload.shape α).canon x).map Payload.unpack = _
  rw [List.map_map, List.map_map]
  exact List.map_congr_left fun a _ => h a

theorem settles_option {f : α → α} (h : Settles α f) :
    Settles (Option α) (Option.map f) := by
  intro a
  cases a with
  | none => rfl
  | some a => exact congrArg some (h a)

theorem of_require_ok {m : Message} {a : α} (h : (m.require : Except Fault α) = .ok a) :
    ∃ x, (Payload.shape α).bind m.boundPayload = .ok x ∧ Payload.unpack x = a := by
  have hbind : (m.bind : Except Fault α) = .ok a := by
    unfold require at h
    split at h
    · cases h
    · exact h
  exact Payload.of_map_ok (Payload.of_mapError_ok hbind)

theorem settled_of_carries [ExhaustivePayload α] {f : α → α} (h : Settles α f) {text : String}
    {kind : Kind} {a : α} (ha : Carries text kind a) : f a = a := by
  obtain ⟨m, -, -, hrequire⟩ := ha
  obtain ⟨x, hx, rfl⟩ := of_require_ok hrequire
  have hcanon := Payload.canon_bound _ hx
  rw [← h, ExhaustivePayload.pack_unpack (α := α), hcanon]

theorem carries_unique {text : String} {kind : Kind} {a b : α} (ha : Carries text kind a)
    (hb : Carries text kind b) : a = b := by
  obtain ⟨m, hm, -, ha⟩ := ha
  obtain ⟨m', hm', -, hb⟩ := hb
  obtain rfl : m = m' := Except.ok.inj (hm.symm.trans hm')
  exact Except.ok.inj (ha.symm.trans hb)

theorem carries_settled {f : α → α} (h : Settles α f) (hs : isExchangeable (Payload.shape α))
    (kind : Kind) (a : α) : Carries (carrying kind a).text kind (f a) := by
  have hcarries := carries_canon kind hs a
  rwa [h a] at hcarries

theorem carries_exact [LawfulPayload α] (he : (Payload.shape α).isExact)
    (hs : isExchangeable (Payload.shape α)) (kind : Kind) (a : α) :
    Carries (carrying kind a).text kind a :=
  carries_settled (settles_exact he) hs kind a

end Message

end HostedTests
