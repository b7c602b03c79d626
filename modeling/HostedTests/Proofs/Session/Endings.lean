import HostedTests.Proofs.Session.Trail

namespace HostedTests

def Party.isCollecting (q : Party) : Bool := q.collection.isSome

def Party.hasEnded (q : Party) : Bool := q.collection.any Collection.ended

namespace Session

structure Settled (s : Session) (asked joined : Nat) (t : Session) : Prop where
  kind : t.manager.map Manager.kind = s.manager.map Manager.kind
  collector : t.collector = { s.collector with ended := t.collector.ended }
  parties : t.parties.countP Party.isCollecting = s.parties.countP Party.isCollecting + joined
  calls : t.endings.length + s.parties.countP Party.hasEnded =
    s.endings.length + t.parties.countP Party.hasEnded + asked

namespace Settled

theorem trans {s t u : Session} {asked joined asked' joined' : Nat} (h : s.Settled asked joined t)
    (k : t.Settled asked' joined' u) : s.Settled (asked + asked') (joined + joined') u where
  kind := k.kind.trans h.kind
  collector := by
    rw [k.collector, h.collector]
  parties := by
    rw [k.parties, h.parties, Nat.add_assoc]
  calls := by
    have hs := h.calls
    have hk := k.calls
    omega

theorem unasked {s t : Session} (hstill : s.Still t) : s.Settled 0 0 t where
  kind := hstill.kind
  collector := by
    rw [hstill.collector]
  parties := by
    rw [hstill.parties]
    rfl
  calls := by
    rw [hstill.endings, hstill.parties]
    rfl

end Settled

theorem countP_setCollection {s : Session} {p : Nat} {c : Collection} (h : s.collection? p = some c)
    (d : Collection) :
    (s.setCollection p d).parties.countP Party.isCollecting =
        s.parties.countP Party.isCollecting ∧
      (s.setCollection p d).parties.countP Party.hasEnded + c.ended.toNat =
        s.parties.countP Party.hasEnded + d.ended.toNat := by
  obtain ⟨party, hparty, hc⟩ := Option.bind_eq_some_iff.mp h
  obtain ⟨hlt, hget⟩ := List.getElem?_eq_some_iff.mp hparty
  obtain ⟨before, party', after, hsplit, hlength, hmodify⟩ :=
    List.exists_of_modify (fun q : Party => { q with collection := some d }) hlt
  have hsame : party' = party := by
    rw [← hget, ← Option.some.injEq, ← List.getElem?_eq_getElem, hsplit, ← hlength,
      List.getElem?_append_right (Nat.le_refl _), Nat.sub_self, List.getElem?_cons_zero]
  subst hsame
  have hparties : (s.setCollection p d).parties = _ := hmodify
  rw [hparties, hsplit]
  simp only [List.countP_append, List.countP_cons, Party.isCollecting, Party.hasEnded, hc,
    Option.isSome_some, Option.any_some, true_and]
  rcases c.ended.eq_false_or_eq_true with hc | hc <;>
    rcases d.ended.eq_false_or_eq_true with hd | hd <;>
    simp only [hc, hd, Bool.toNat_true, Bool.toNat_false, if_true, Bool.false_eq_true, if_false] <;>
    omega

theorem settled_tellAll (s : Session) (p : Nat) (ns : List Notice) :
    s.Settled 0 0 (s.tellAll p ns) := by
  refine .unasked ⟨rfl, rfl, rfl, ?_⟩
  have hnone : (ns.map (Incident.told p)).filterMap Incident.ending? = [] := by
    rw [List.filterMap_map, List.filterMap_eq_nil_iff]
    exact fun _ _ => rfl
  rw [endings_append (s := s) rfl, hnone, List.append_nil]

theorem settled_callCollector (s : Session) (canceled : Bool) :
    s.Settled 1 0 (s.callCollector canceled).2 where
  kind := rfl
  collector := rfl
  parties := rfl
  calls := by
    have hcalls : (s.callCollector canceled).2.endings =
        s.endings ++ [Incident.collectorEnded canceled].filterMap Incident.ending? :=
      endings_append rfl
    rw [hcalls, List.length_append]
    exact Nat.add_right_comm _ 1 _

theorem settled_ending {s : Session} {p : Nat} {c : Collection} (h : s.collection? p = some c)
    (hopen : c.ended = false) (canceled : Bool) :
    s.Settled 0 0 ((s.setCollection p ⟨true, none⟩).callCollector canceled).2 := by
  have hcall := settled_callCollector (s.setCollection p ⟨true, none⟩) canceled
  obtain ⟨hcollecting, hended⟩ := countP_setCollection h ⟨true, none⟩
  refine ⟨rfl, rfl, hcollecting, ?_⟩
  have hcalls := hcall.calls
  change _ = s.endings.length + _ + 1 at hcalls
  rw [hopen] at hended
  simp only [Bool.toNat_false, Bool.toNat_true] at hended
  omega

theorem settled_setCollection {s : Session} {p : Nat} {c : Collection}
    (h : s.collection? p = some c) (hended : c.ended = true) (sets : List AttachmentSet) :
    s.Settled 0 0 (s.setCollection p ⟨true, some sets⟩) := by
  obtain ⟨hcollecting, hcount⟩ := countP_setCollection h ⟨true, some sets⟩
  refine ⟨rfl, rfl, hcollecting, ?_⟩
  rw [hended] at hcount
  change s.endings.length + _ = s.endings.length + _
  rw [Nat.add_right_cancel hcount]

theorem settled_endCollection (s : Session) (p : Nat) (canceled : Bool) :
    s.Settled 0 0 (s.endCollection .quiet p canceled).2 := by
  unfold endCollection
  cases hc : s.collection? p with
  | none => exact .unasked ⟨rfl, rfl, rfl, rfl⟩
  | some c =>
    cases hended : c.ended with
    | true =>
      simp only [hended, if_true]
      exact .unasked ⟨rfl, rfl, rfl, rfl⟩
    | false =>
      let t := s.setCollection p ⟨true, none⟩
      let u := (t.callCollector canceled).2
      let ns := t.collector.ending.utterances.map Utterance.notice
      have hsaid : s.Settled 0 0 (u.tellAll p ns) :=
        (settled_ending hc hended canceled).trans (settled_tellAll u p ns)
      have hcollection : (u.tellAll p ns).collection? p = some ⟨true, none⟩ := by
        change t.collection? p = _
        obtain ⟨party, hparty, -⟩ := Option.bind_eq_some_iff.mp hc
        rw [collection?_setCollection, if_pos rfl, hparty]
        rfl
      simp only [hended, Bool.false_eq_true, if_false, callCollector, foldl_tell_quiet]
      cases t.collector.ending.outcome with
      | ok sets => exact hsaid.trans (settled_setCollection hcollection rfl sets)
      | error e => exact hsaid.trans (settled_tellAll _ p [.log .error e.text])

theorem settled_deliver (s : Session) (p : Nat) (n : Notice) :
    s.Settled 0 0 (s.deliver .quiet p n) := by
  have hplain : s.Settled 0 0 (s.tell .quiet p n) := settled_tellAll s p [n]
  unfold deliver
  split
  · exact hplain
  · split
    · split
      · exact hplain
      · rename_i c _
        have hend := settled_endCollection s p c.isCanceled
        split <;> rename_i heq <;> rw [heq] at hend
        · exact hend.trans (settled_tellAll _ p [_])
        · exact hend.trans (settled_tellAll _ p [_])
    · rename_i r
      have hend := settled_endCollection s p r.runEnd.isCanceled
      split <;> rename_i heq <;> rw [heq] at hend
      · exact hend.trans (settled_tellAll _ p [_])
      · exact hend.trans (settled_tellAll _ p [_])
    · exact hplain

theorem settled_welcome (s : Session) (observer : Observer) (hooks : List Hook) (collects : Bool) :
    s.Settled 0 collects.toNat (s.welcome observer hooks collects) := by
  refine ⟨rfl, rfl, ?_, ?_⟩
  · change (s.parties ++ [_]).countP _ = _
    rw [List.countP_append]
    cases collects <;> rfl
  · change s.endings.length + _ = s.endings.length + (s.parties ++ [_]).countP _
    rw [List.countP_append]
    cases collects <;> rfl

theorem settled_of_trail {s t : Session} {asked joined : Nat} (h : s.Trail asked joined t) :
    s.Settled asked joined t := by
  induction h with
  | refl => exact .unasked ⟨rfl, rfl, rfl, rfl⟩
  | still _ hstill ih => exact ih.trans (.unasked hstill)
  | deliver p n _ ih => exact ih.trans (settled_deliver _ p n)
  | welcome observer hooks collects _ ih =>
    exact ih.trans (settled_welcome _ observer hooks collects)
  | callCollector canceled _ ih => exact ih.trans (settled_callCollector _ canceled)

theorem endsAt_ended (c : Collector) (n : Nat) (step : Step) :
    Collector.endsAt { c with ended := n } step = c.endsAt step := by
  cases step <;> rfl

theorem settled_after (s : Session) (h : s.manager.map Manager.kind = some .collecting)
    (steps : List Step) :
    s.Settled (steps.countP s.collector.endsAt) (steps.countP Step.collects) (s.after steps) := by
  induction steps generalizing s with
  | nil => exact .unasked ⟨rfl, rfl, rfl, rfl⟩
  | cons step steps ih =>
    have hstep := settled_of_trail (step_trail s h step)
    have hrest := ih _ (hstep.kind.trans h)
    have hsame : Collector.endsAt (s.step .quiet [] step).2.collector = s.collector.endsAt := by
      rw [hstep.collector]
      funext step'
      exact endsAt_ended _ _ step'
    have hcount (b : Step → Bool) :
        (step :: steps).countP b = (b step).toNat + steps.countP b := by
      rw [List.countP_cons, Nat.add_comm]
      cases b step <;> rfl
    rw [hsame] at hrest
    rw [hcount, hcount]
    exact hstep.trans hrest

/-- The data collector is asked to end once for each canceled run and each preparation that failed,
and once for each of the runs whose observers have their collections of data ended. -/
theorem endings_of_collecting (server : Server) (collector : Collector) (host : HostBehaviour)
    (connectionTimeout wait exitWait : Nat) (steps : List Step) :
    let m : Manager := .fresh .collecting connectionTimeout wait
    let s := (fresh server collector (some m) host exitWait).after steps
    s.endings.length = steps.countP collector.endsAt + s.parties.countP Party.hasEnded ∧
      s.parties.countP Party.isCollecting = steps.countP Step.collects := by
  intro m s
  have h := settled_after (fresh server collector (some m) host exitWait) rfl steps
  have hcalls := h.calls
  have hparties := h.parties
  change s.endings.length + 0 = 0 + s.parties.countP Party.hasEnded + steps.countP collector.endsAt
    at hcalls
  change s.parties.countP Party.isCollecting = 0 + steps.countP Step.collects at hparties
  omega

/-- The collection of data for a run ends a second time when the run is completed, whether it ended
before because the preparation failed, because the run was canceled, or because another run was
refused meanwhile. -/
theorem collection_ends_again :
    let m : Manager := .fresh .collecting 0 0
    let failing : Collector := { Collector.idle with preparation := ⟨[], .error (.of "no port")⟩ }
    let start : Step := .startRun (.ofSources ["a.tests"]) .plain
    let completed : Step := .receive (Message.carrying .executionComplete
      (RunCompletion.only ⟨none, false, false, none, none, .zero⟩)).text
    let s (collector : Collector) : Session :=
      fresh (.fresh "4000" none false true) collector (some m) .nearby 0
    ((s failing).after [.prepareCollection, start, completed]).endings = [true, false] ∧
      ((s .idle).after [.prepareCollection, start, .cancelManagedRun, completed]).endings =
        [true, false] ∧
      ((s .idle).after [.prepareCollection, start, start, completed]).endings = [false, false] := by
  decide +kernel

end Session

end HostedTests
