import HostedTests.Proofs.Session.Attaching
import HostedTests.Proofs.Session.Requests
import HostedTests.Proofs.Session.Twins

namespace HostedTests.Session

variable {a : Collecting}

theorem modify_length {β : Type} (f : β → β) (xs : List β) (x : β) :
    (xs ++ [x]).modify xs.length f = xs ++ [f x] := by
  induction xs with
  | nil => rfl
  | cons y ys ih =>
    rw [List.cons_append, List.length_cons, List.modify_succ_cons, ih]
    rfl

theorem plain_fresh (server : Server) (collector : Collector) (host : HostBehaviour)
    (exitWait : Nat) :
    Plain collector.ending none (fresh server collector none host exitWait) where
  manager := rfl
  running := rfl
  uncollected := rfl
  bare := fun _ h => absurd h List.not_mem_nil
  answer := rfl
  unasked := rfl
  enrolled := by
    intro _ h
    cases h

theorem plain_after {s : Session} (h : Plain a none s) {steps : List Step}
    (hsteps : ∀ step ∈ steps, ∀ o, step ≠ .collectFor o) : Plain a none (s.after steps) :=
  (Twin.after (t := s) ⟨h, rfl⟩ hsteps).plain

theorem twin_welcome {s : Session} (k : s.WellKept) (h : Plain a none s) (observer : Observer) :
    Twin a (some s.nextParty) (s.welcome observer [] false) (s.welcome observer [] true) := by
  obtain ⟨hrecord, hany⟩ :=
    a.record_unheard s.parties.length false (k.unheard s.parties.length (Nat.le_refl _))
  have hw : Twin a none (s.welcome observer [] false) (s.welcome observer [] false) :=
    Twin.welcome ⟨h, rfl⟩ observer
  refine ⟨⟨hw.plain.manager, hw.plain.running, hw.plain.uncollected, hw.plain.bare,
    hw.plain.answer, hw.plain.unasked, ?_⟩, ?_⟩
  · rintro _ ⟨⟩
    rw [welcome, enroll, List.length_append, List.length_singleton]
    exact Nat.lt_succ_self _
  · simp only [collecting, welcome, enroll, setCollection, hany, hrecord, nextParty,
      modify_length]
    rfl

theorem run_accepted {s : Session} (k : s.WellKept) (criteria : RunCriteria) (observer : Observer)
    (h : (s.step .quiet [] (.run criteria observer)).1 = .done) :
    ∃ op, (s.step .quiet [] (.run criteria observer)).2.operations[s.operations.length]? = some op ∧
      op.party = s.nextParty ∧ op.state.kind = .execution := by
  let r : StartRequest := .execution criteria
  have hfault : s.startFault? r = none := by
    rcases start_result s r observer with ⟨f, -, hstep⟩ | ⟨hfault, -⟩
    · rw [show s.step .quiet [] (.run criteria observer) = _ from hstep] at h
      cases h
    · exact hfault
  obtain ⟨-, -, ⟨line, hline⟩, -⟩ := (startFault?_eq_none_iff s r).mp hfault
  obtain ⟨-, -, -, -, -, -, hlength⟩ := step_start_fields s r observer line hfault hline
  have hlt : s.operations.length <
      (s.step .quiet [] (.run criteria observer)).2.operations.length := by
    rw [show (s.step .quiet [] (.run criteria observer)).2.operations.length = _ from hlength]
    exact Nat.lt_succ_self _
  have hop := List.getElem?_eq_getElem hlt
  obtain ⟨-, r', observer', -, hstep, -, -, hafter, -⟩ :=
    step_registers k _ s.operations.length _ (Nat.le_refl _) hop
  have hsame : r.step observer = r'.step observer' := hstep
  obtain rfl := StartRequest.step_inj hsame
  exact ⟨_, hop, by rw [hafter]; rfl, by rw [hafter]; rfl⟩

theorem attachments_reach_observer (server : Server) (collector : Collector) (host : HostBehaviour)
    (exitWait : Nat) (earlier steps : List Step) (criteria : RunCriteria) (observer : Observer)
    (h : ∀ step ∈ earlier ++ steps, ∀ o, step ≠ .collectFor o) :
    let s := (fresh server collector none host exitWait).after earlier
    let p := s.nextParty
    let started := s.step .quiet [] (.run criteria observer)
    let decorated := (s.welcome observer [] true).run .quiet criteria p
    let bare := started.2.after steps
    let t := decorated.2.after steps
    .ofRequest decorated.1 = started.1 ∧
      t = { bare with parties := t.parties, collector := t.collector, record := t.record } ∧
      t.record.filter (Incident.isApart p) = bare.record.filter (Incident.isApart p) ∧
      collector.ending.Decorates (bare.told p) (t.told p) t.endings ∧
      t.endings.length ≤ 1 ∧
      (started.1 = .done → ∃ op, bare.operations[s.operations.length]? = some op ∧
        op.party = p ∧ op.state.kind = .execution ∧
        (op.state.completed = true → t.endings.length = 1) ∧
        ((∀ text, Utterance.raw text ∉ collector.ending.utterances) →
          ∀ text c r, .raw text ∈ t.told p → Message.Carries text .executionComplete c →
            RunCompletion.report? c = some r → .runComplete r ∈ t.told p)) := by
  intro s p started decorated bare t
  let a := collector.ending
  have kfresh := wellKept_fresh server collector host exitWait
  have k : s.WellKept := wellKept_after kfresh earlier
  have hplain : Plain a none s := by
    apply plain_after (plain_fresh server collector host exitWait)
    exact fun step hstep => h step (List.mem_append_left steps hstep)
  have hrun : Alike a (some p) ((s.welcome observer [] false).run .quiet criteria p) decorated :=
    (twin_welcome k hplain observer).run criteria p
  have htwin : Twin a (some p) bare t :=
    hrun.twin.after fun step hstep => h step (List.mem_append_right earlier hstep)
  have hdecorates : a.Decorates (bare.told p) (t.told p) t.endings := by
    rw [told, told, endings, htwin.same]
    exact Collecting.decorates_record a p bare.record htwin.plain.unasked
  refine ⟨?_, ?_, ?_, hdecorates, hdecorates.length_le, ?_⟩
  · rw [hrun.result]
    rfl
  · rw [htwin.same]
    rfl
  · rw [htwin.same]
    exact a.apart_record p false bare.record
  · intro hdone
    have hbare : bare = (fresh server collector none host exitWait).after
        (earlier ++ .run criteria observer :: steps) := by
      rw [after_append]
      rfl
    have hechoed : bare.RunsEchoed := by
      rw [hbare]
      apply runsEchoed_after kfresh
      intro _ _ hop
      cases hop
    have hconcluded : bare.Concluded := by
      rw [hbare]
      exact (concluded_after server collector host exitWait _).2
    obtain ⟨op, hop, hparty, hkind⟩ := run_accepted k criteria observer hdone
    have kstarted : started.2.WellKept := wellKept_outcome k (step_outcome k _)
    obtain ⟨ns, hops, -, -⟩ := after_kept kstarted steps s.operations.length op hop
    have hheard := hechoed _ _ hops hkind
    rw [Operation.after_party, hparty] at hheard
    refine ⟨op.after ns, hops, hparty, hkind, ?_, ?_⟩
    · intro hcompleted
      have hconcludes := hconcluded _ _ hops
      rw [hcompleted, Operation.after_party, hparty] at hconcludes
      obtain ⟨n, hn, hcompletion⟩ := List.any_eq_true.mp hconcludes.any
      obtain ⟨r, rfl⟩ := hheard.typed n hn hcompletion
      exact hdecorates.length_eq hn (.runComplete r)
    · intro hlogs text c r hraw hc hr
      exact Collecting.echoed_decorated hdecorates hheard hlogs hraw hc hr

theorem attachments_reach_observer_lost :
    let server : Server := .fresh "4000" none false true
    let coverage : AttachmentSet := ⟨"datacollector://coverage", "Coverage", []⟩
    let answer : Collecting := ⟨[.log .warning "no symbols"], .ok [coverage]⟩
    let collector : Collector := { Collector.idle with endings := [answer] }
    let s := (fresh server collector none .elsewhere 0).after [.listen, .connect]
    let criteria : RunCriteria := .ofSources ["a.dll"]
    let bare := (s.step .quiet [] (.run criteria .plain)).2.after [.disconnect none]
    let t := ((s.welcome .plain [] true).run .quiet criteria s.nextParty).2.after [.disconnect none]
    ∃ op, bare.operations[s.operations.length]? = some op ∧ op.state.completed = true ∧
      answer.Decorates (bare.told s.nextParty) (t.told s.nextParty) t.endings ∧
      t.endings.length = 1 := by
  let server : Server := .fresh "4000" none false true
  let coverage : AttachmentSet := ⟨"datacollector://coverage", "Coverage", []⟩
  let answer : Collecting := ⟨[.log .warning "no symbols"], .ok [coverage]⟩
  let collector : Collector := { Collector.idle with endings := [answer] }
  let s := (fresh server collector none .elsewhere 0).after [.listen, .connect]
  let criteria : RunCriteria := .ofSources ["a.dll"]
  have hsteps : ∀ step ∈ [Step.listen, .connect] ++ [.disconnect none], ∀ o,
      step ≠ .collectFor o := by
    simp
  obtain ⟨-, -, -, hdecorates, -, haccepted⟩ := attachments_reach_observer server collector
    .elsewhere 0 [.listen, .connect] [.disconnect none] criteria .plain hsteps
  let r : StartRequest := .execution criteria
  have hfault : s.startFault? r = none := by decide +kernel
  have hdone : (s.step .quiet [] (.run criteria .plain)).1 = .done := by
    rcases start_result s r .plain with ⟨f, hf, -⟩ | ⟨-, hdone⟩
    · rw [hfault] at hf
      cases hf
    · exact hdone
  obtain ⟨op, hop, -, -, hended, -⟩ := haccepted hdone
  have hcompleted : ((s.step .quiet [] (.run criteria .plain)).2.after
      [.disconnect none]).operations[s.operations.length]? = some ⟨⟨.execution, true⟩, 0⟩ := by
    decide +kernel
  obtain rfl : op = ⟨⟨.execution, true⟩, 0⟩ := Option.some.inj (hop.symm.trans hcompleted)
  exact ⟨_, hcompleted, rfl, hdecorates, hended rfl⟩

end HostedTests.Session
