import HostedTests.Payload.Completion
import HostedTests.Payload.Criteria
import HostedTests.Message.Reader
import HostedTests.Proofs.Message.Normal
import HostedTests.Proofs.Payload.Extent
import HostedTests.Proofs.Payload.Stray
import Mathlib.Logic.Relation

namespace HostedTests.Message

open Json (Value)
open Payload (Shape AddsStray)

theorem normalizeMember_of_not_plain {name : String} {v : Value} (h : ¬ Payload.IsPlain v) :
    normalizeMember (name, v) = (name, normalize v) := by
  apply normalizeMember_of_not_string
  rintro s rfl
  exact h trivial

theorem addsStray_normalize {s : Shape} {v w : Value} (h : AddsStray s v w) :
    AddsStray s (normalize v) (normalize w) := by
  induction h with
  | here stray h =>
    rw [normalize, normalize, normalizeMembers_insertEntry]
    exact .here _ h
  | field front back hs h ih =>
    obtain ⟨hv, hw⟩ := h.not_plain
    simp only [normalize, normalizeMembers_eq, List.map_append, List.map_cons,
      normalizeMember_of_not_plain hv, normalizeMember_of_not_plain hw]
    exact .field _ _ hs ih
  | row front back hs h ih =>
    simp only [normalize, normalizeItems_eq, List.map_append, List.map_cons]
    exact .row _ _ (by rwa [List.length_map]) ih
  | item front back h ih =>
    simp only [normalize, normalizeItems_eq, List.map_append, List.map_cons]
    exact .item _ _ ih
  | present h ih => exact .present ih
  | entry front back h ih =>
    obtain ⟨hv, hw⟩ := h.not_plain
    simp only [normalize, normalizeMembers_eq, List.map_append, List.map_cons,
      normalizeMember_of_not_plain hv, normalizeMember_of_not_plain hw]
    exact .entry _ _ ih

theorem addsStray_boundPayload (kind : Kind) {s : Shape} {v w : Value} (h : AddsStray s v w) :
    AddsStray s (boundPayload ⟨kind, v⟩) (boundPayload ⟨kind, w⟩) := by
  unfold boundPayload
  split
  · exact h
  · exact addsStray_normalize h

variable {α : Type} [Payload α]

theorem require_addsStray (kind : Kind) {v w : Value} (h : AddsStray (Payload.shape α) v w) :
    (require ⟨kind, w⟩ : Except Fault α) = require ⟨kind, v⟩ := by
  obtain ⟨hv, hw⟩ := h.not_plain
  rw [require_of_ne_null (Payload.ne_null_of_not_plain hw),
    require_of_ne_null (Payload.ne_null_of_not_plain hv), bind, bind, Payload.ofValue,
    Payload.ofValue, (addsStray_boundPayload kind h).bind_eq]

def isWritable (s : Shape) : Bool :=
  s.isUnambiguous && decide (s.levels < Reader.payloadRoom)

theorem parse_written (kind : Kind) (h : isWritable (Payload.shape α)) (a : α) :
    Value.parse (carrying kind a).text =
      .ok (.object [(kindName, .string kind.wire), (payloadName, (Payload.toValue a).sorted)]) := by
  simp only [isWritable, Bool.and_eq_true, decide_eq_true_eq] at h
  have hpayload : (Payload.toValue a).Fits Reader.payloadRoom :=
    Payload.print_fits _ h.1 (Payload.pack a) h.2
  have hfits : (carrying kind a).toValue.Fits Json.depthLimit :=
    ⟨by decide, trivial, hpayload, trivial⟩
  have hasc : Ascending ([] ++ [(kindName, .string kind.wire), (payloadName, Payload.toValue a)]) :=
    List.pairwise_pair.2 (show kindName < payloadName by decide)
  have hsorted : (carrying kind a).toValue.sorted =
      .object [(kindName, .string kind.wire), (payloadName, (Payload.toValue a).sorted)] := by
    rw [toValue, carrying, Value.sorted, Value.sortedMembers_ascending hasc]
    rfl
  rw [← hsorted]
  exact Json.parse_object hfits

def records : List Shape :=
  [Remark.shape, TestCase.shape, TestResult.shape, RunStatistics.shape, RunChange.shape,
    Attachment.shape, AttachmentSet.shape, RunEnd.shape, DiscoveryCriteria.shape,
    ExecutionContext.shape, SourcesCriteria.shape, TestsCriteria.shape, StartInfo.shape,
    DiscoveryCompletion.shape, RunCompletion.shape]

/-- However many stray members are put into the records of a payload, the same is bound, or the same
is wrong with it, in a message of any kind. The text of a message has the members of a message, and
below them those of its payload: the fields of the records and the keys of the dictionaries. -/
theorem stray_members_unseen :
    (∀ (α : Type) [Payload α] (kind : Kind) (v w : Value),
      Relation.ReflTransGen (AddsStray (Payload.shape α)) v w →
        (require ⟨kind, w⟩ : Except Fault α) = require ⟨kind, v⟩) ∧
    (∀ s ∈ records, isWritable s) ∧
    ∀ (α : Type) [Payload α], isWritable (Payload.shape α) → ∀ (kind : Kind) (a : α),
      (Payload.shape α).Covers (Payload.pack a) (Payload.toValue a) ∧
      ∃ p, Value.parse (carrying kind a).text =
          .ok (.object [(kindName, .string kind.wire), (payloadName, p)]) ∧
        (Payload.shape α).Covers (Payload.pack a) p := by
  refine ⟨?_, by decide, ?_⟩
  · intro α _ kind v w h
    induction h with
    | refl => rfl
    | tail _ hstep ih => exact (require_addsStray kind hstep).trans ih
  · intro α _ h kind a
    have hunambiguous : (Payload.shape α).isUnambiguous := (Bool.and_eq_true_iff.1 h).1
    have hcovers := Payload.covers_print _ hunambiguous (Payload.pack a)
    exact ⟨hcovers, _, parse_written kind h a, Payload.covers_sorted _ hcovers⟩

theorem stray_members_unseen_nested :
    let payload (attachment : List (String × Value)) : Value :=
      .object [("RunAttachments", .list [.object [("Attachments", .list [.object attachment]),
        ("DisplayName", .string "d"), ("Uri", .string "s")]])]
    let plain := payload [("Uri", .string "u")]
    let strewn := payload [("$type", .object [("Uri", .null)]), ("Uri", .string "u")]
    let completion : RunCompletion := ⟨none, none, some [⟨"s", "d", [⟨"u", none⟩]⟩], none⟩
    Relation.ReflTransGen (AddsStray RunCompletion.shape) plain strewn ∧
    isWritable RunCompletion.shape ∧
    (require ⟨.executionComplete, strewn⟩ : Except Fault RunCompletion) = .ok completion ∧
    RunCompletion.shape.Covers (Payload.pack completion) (Payload.toValue completion) ∧
    ∃ p, Value.parse (carrying .executionComplete completion).text =
        .ok (.object [(kindName, .string Kind.executionComplete.wire), (payloadName, p)]) ∧
      RunCompletion.shape.Covers (Payload.pack completion) p := by
  intro payload plain strewn completion
  have hattachment : AddsStray Attachment.shape (.object [("Uri", .string "u")])
      (.object (insertEntry "$type" (.object [("Uri", .null)]) [("Uri", .string "u")])) :=
    .here _ (by decide)
  have hstrewn : AddsStray RunCompletion.shape plain strewn := by
    refine .field [] [] (s := .optional (.list AttachmentSet.shape)) rfl (.present ?_)
    refine .item [] [] ?_
    exact .field [] _ (s := .list Attachment.shape) rfl (.item [] [] hattachment)
  have hstrewn := Relation.ReflTransGen.single hstrewn
  have hwritable : isWritable RunCompletion.shape := by decide
  have hbound := stray_members_unseen.1 RunCompletion .executionComplete plain strewn hstrewn
  have hwritten := stray_members_unseen.2.2 RunCompletion hwritable .executionComplete completion
  exact ⟨hstrewn, hwritable, hbound.trans rfl, hwritten⟩

end HostedTests.Message
