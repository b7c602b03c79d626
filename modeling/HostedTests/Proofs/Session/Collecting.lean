import HostedTests.Proofs.Session.Confinement
import HostedTests.Proofs.Message.Exchanged

namespace HostedTests

theorem Collection.completion?_eq_some_iff (text : String) (c : RunCompletion) :
    Collection.completion? text = some c ↔ Message.Carries text .executionComplete c := by
  unfold completion?
  constructor
  · intro h
    split at h
    · cases h
    · rename_i m hm
      split at h
      · cases h
      · rename_i hkind
        cases hrequire : (m.require : Except Message.Fault RunCompletion) with
        | error f =>
          rw [hrequire] at h
          cases h
        | ok c' =>
          rw [hrequire] at h
          cases h
          exact ⟨m, hm, not_not.mp hkind, hrequire⟩
  · rintro ⟨m, hm, hkind, hrequire⟩
    simp only [hm, hkind, ne_eq, not_true_eq_false, if_false, hrequire]
    rfl

namespace Notice

def ending? : Notice → Option Bool
  | raw text => (Collection.completion? text).map RunCompletion.isCanceled
  | runComplete r => some r.runEnd.isCanceled
  | _ => none

def attach (sets : List AttachmentSet) : Notice → Notice
  | raw text =>
    match Collection.completion? text with
    | none => raw text
    | some c => raw (Message.carrying .executionComplete (c.attach sets)).text
  | runComplete r => runComplete (r.attach sets)
  | n => n

end Notice

namespace Collecting

def sets? (a : Collecting) : Option (List AttachmentSet) :=
  match a.outcome with
  | .ok sets => some sets
  | .error _ => none

def said (a : Collecting) : List Notice :=
  a.utterances.map Utterance.notice ++
    match a.outcome with
    | .ok _ => []
    | .error t => [.log .error t.text]

def passed (a : Collecting) (n : Notice) : Notice :=
  match a.sets? with
  | none => n
  | some sets => n.attach sets

def collection (a : Collecting) (ended : Bool) : Collection :=
  if ended then ⟨true, a.sets?⟩ else .fresh

end Collecting

namespace Session

theorem foldl_tell_quiet (p : Nat) (us : List Utterance) (s : Session) :
    us.foldl (fun s u => s.tell .quiet p u.notice) s = s.tellAll p (us.map Utterance.notice) := by
  induction us generalizing s with
  | nil =>
    rw [tellAll, List.map_nil, List.map_nil, List.append_nil]
    rfl
  | cons u us ih =>
    rw [List.foldl_cons, ih, tell_quiet, tellAll_tellAll]
    rfl

def asked (s : Session) (p : Nat) (canceled : Bool) : Session :=
  let a := s.collector.ending
  { s.setCollection p (a.collection true) with
    record := s.record ++ .collectorEnded canceled :: a.said.map (.told p)
    collector := { s.collector with ended := s.collector.ended + 1 } }

theorem endCollection_open {s : Session} {p : Nat} (h : s.collection? p = some .fresh)
    (canceled : Bool) :
    s.endCollection .quiet p canceled = (s.collector.ending.sets?, s.asked p canceled) := by
  have hended : Collection.fresh.ended = false := rfl
  simp only [endCollection, h, hended, Bool.false_eq_true, if_false, callCollector,
    foldl_tell_quiet]
  have hcollector : (s.setCollection p ⟨true, none⟩).collector = s.collector := rfl
  rw [hcollector]
  cases houtcome : s.collector.ending.outcome with
  | ok sets =>
    have hsets : s.collector.ending.sets? = some sets := by
      rw [Collecting.sets?, houtcome]
    have hsaid : s.collector.ending.said = s.collector.ending.utterances.map Utterance.notice := by
      rw [Collecting.said, houtcome, List.append_nil]
    simp only [asked, hsets, hsaid, Collecting.collection, if_true, tellAll, note, setCollection,
      List.modify_modify_eq, List.append_assoc, List.singleton_append]
    rfl
  | error t =>
    have hsets : s.collector.ending.sets? = none := by
      rw [Collecting.sets?, houtcome]
    have hsaid : s.collector.ending.said =
        s.collector.ending.utterances.map Utterance.notice ++ [.log .error t.text] := by
      rw [Collecting.said, houtcome]
    simp only [tell_quiet, tellAll_tellAll]
    simp only [asked, hsets, hsaid, Collecting.collection, if_true, tellAll, note, setCollection,
      List.append_assoc, List.singleton_append]

theorem endCollection_ended {s : Session} {p : Nat} {sets : Option (List AttachmentSet)}
    (h : s.collection? p = some ⟨true, sets⟩) (canceled : Bool) :
    s.endCollection .quiet p canceled = (sets, s) := by
  simp only [endCollection, h, if_true]

theorem deliver_of_endCollection {s t : Session} {p : Nat} {n : Notice} {canceled : Bool}
    {a : Collecting} (hcollects : s.collection? p ≠ none) (hn : n.ending? = some canceled)
    (hend : s.endCollection .quiet p canceled = (a.sets?, t)) :
    s.deliver .quiet p n = t.tellAll p [a.passed n] := by
  have hsome : ¬ (s.collection? p).isNone = true := by
    rw [Option.isNone_iff_eq_none]
    exact hcollects
  rw [Collecting.passed]
  unfold deliver
  rw [if_neg hsome]
  cases n with
  | raw text =>
    obtain ⟨c, hc, rfl⟩ := Option.map_eq_some_iff.mp hn
    simp only [hc, hend]
    cases a.sets? with
    | none => rfl
    | some sets => simp only [Notice.attach, hc, tell_quiet]
  | runComplete r =>
    cases hn
    simp only [hend]
    cases a.sets? <;> rfl
  | _ => cases hn

theorem deliver_no_ending (s : Session) (p : Nat) {n : Notice} (hn : n.ending? = none) :
    s.deliver .quiet p n = s.tellAll p [n] := by
  unfold deliver
  split
  · rfl
  · cases n with
    | raw text =>
      have hnone := Option.map_eq_none_iff.mp hn
      simp only [hnone, tell_quiet]
    | runComplete r => cases hn
    | _ => rfl

end Session

end HostedTests
