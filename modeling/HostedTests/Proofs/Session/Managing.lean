import HostedTests.Proofs.Session.Completion
import HostedTests.Proofs.Session.Requests

namespace HostedTests

def OperationKind.manager : OperationKind → Manager.Kind
  | discovery => .discovery
  | execution => .execution

namespace StartRequest

def context : StartRequest → String
  | discovery _ => "start discovery"
  | execution _ => "start test run"

def direct (r : StartRequest) (p : Nat) (s : Session) : Except RequestFault Unit × Session :=
  match r with
  | discovery c => s.discover .quiet c p
  | execution c => s.run .quiet c p

def managed (r : StartRequest) (observer : Observer) : Step :=
  match r with
  | discovery c => .startDiscovery c observer
  | execution c => .startRun c observer

def failure (r : StartRequest) (e : Trouble) : List Notice :=
  [.log .error e.text, r.kind.abortNotice e.text]

end StartRequest

namespace Session

def unmanaged (s : Session) : Session := { s with manager := none, running := 0 }

theorem Mute.unmanaged {s t : Session} (h : s.Mute t) : s.unmanaged.Mute t.unmanaged :=
  ⟨rfl, rfl, h.operations, h.parties, h.collected, h.collector, h.record⟩

theorem Aside.unmanaged {s t : Session} (h : s.Aside t) : s.unmanaged.Aside t.unmanaged :=
  ⟨rfl, rfl, h.operations, h.parties, h.bare, h.collects, h.collecting, h.told⟩

theorem outcome_unmanaged {s t : Session} {step : Step} (h : Outcome s step t) :
    Outcome s.unmanaged step t.unmanaged := by
  have htarget : s.unmanaged.target step = s.target step := by cases step <;> rfl
  cases h with
  | aside hidle h =>
    refine .aside ?_ h.unmanaged
    rw [htarget]
    exact hidle
  | informed o op ho hears h =>
    have hblock : s.unmanaged.block op step = s.block op step := by cases step <;> rfl
    refine .informed o op (htarget.trans ho) ⟨hears.registered, hears.incomplete, hears.bare⟩ ?_
    rw [hblock]
    exact h.unmanaged
  | started r observer line hstep hfault hline h =>
    exact .started r observer line hstep hfault hline h.unmanaged

theorem outcome_manager {s t : Session} {step : Step} (h : Outcome s step t) :
    t.manager = s.manager := by
  cases h with
  | aside _ h => exact h.manager
  | informed _ _ _ _ h => exact h.manager
  | started _ _ _ _ _ _ h => exact h.manager

structure Unclaimed (p : Nat) (s : Session) : Prop where
  enrolled : p < s.parties.length
  bare : s.collection? p = none
  apart : ∀ (o : Nat) (op : Operation), s.operations[o]? = some op → op.party ≠ p

theorem unclaimed_aside {p : Nat} {s t : Session} (h : s.Unclaimed p) (ha : s.Aside t) :
    t.Unclaimed p ∧ t.told p = s.told p := by
  refine ⟨⟨Nat.lt_of_lt_of_le h.enrolled ha.parties, ha.bare p h.enrolled h.bare, ?_⟩,
    ha.told p h.bare⟩
  rw [ha.operations]
  exact h.apart

theorem unclaimed_inform {p : Nat} {s : Session} (h : s.Unclaimed p) {o : Nat} {op : Operation}
    (hop : s.operations[o]? = some op) (ns : List Notice) :
    (s.inform o op ns).Unclaimed p ∧ (s.inform o op ns).told p = s.told p := by
  refine ⟨⟨h.enrolled, h.bare, ?_⟩, told_inform_other s o op ns (h.apart o op hop)⟩
  intro o' op' hop'
  obtain ⟨op'', hop'', hparty⟩ := observer_set hop ns hop'
  exact hparty ▸ h.apart o' op'' hop''

theorem unclaimed_outcome {p : Nat} {s t : Session} {step : Step} (h : s.Unclaimed p)
    (outcome : Outcome s step t) : t.Unclaimed p ∧ t.told p = s.told p := by
  cases outcome with
  | aside _ ha => exact unclaimed_aside h ha
  | informed o op _ hears ha =>
    obtain ⟨hinformed, htold⟩ := unclaimed_inform h hears.registered (s.block op step)
    obtain ⟨ht, htold'⟩ := unclaimed_aside hinformed ha
    exact ⟨ht, htold'.trans htold⟩
  | started r observer line _ _ _ ha =>
    have hstarted : (s.started r observer line).Unclaimed p := by
      obtain ⟨hw, -⟩ := unclaimed_aside h (aside_welcome s observer [] false)
      refine ⟨hw.enrolled, hw.bare, ?_⟩
      intro o op hop
      change (s.operations ++ [_])[o]? = some op at hop
      rcases List.mem_append.mp (List.mem_of_getElem? hop) with hmem | hmem
      · obtain ⟨o', hop'⟩ := List.getElem?_of_mem hmem
        exact h.apart o' op hop'
      · rw [List.mem_singleton.mp hmem]
        exact (Nat.ne_of_lt h.enrolled).symm
    obtain ⟨hinformed, htold⟩ :=
      unclaimed_inform hstarted (hears_started s r observer line).registered (s.opening r)
    obtain ⟨ht, htold'⟩ := unclaimed_aside hinformed ha
    exact ⟨ht, htold'.trans htold⟩

theorem unclaimed_welcome {s : Session} (k : s.WellKept) (observer : Observer) :
    (s.welcome observer [] false).Unclaimed s.nextParty := by
  refine ⟨?_, collection?_nextParty_welcome s observer, ?_⟩
  · rw [welcome, enroll, List.length_append]
    exact Nat.lt_succ_self _
  · intro o op hop
    exact Nat.ne_of_lt (k.enrolled o op hop)

def failed (s : Session) (r : StartRequest) (observer : Observer) (e : Trouble) : Session :=
  (s.welcome observer [] false).tellAll s.nextParty (r.failure e)

theorem wellKept_failed {s : Session} (k : s.WellKept) (r : StartRequest) (observer : Observer)
    (e : Trouble) : (s.failed r observer e).WellKept := by
  have hw : (s.welcome observer [] false).WellKept :=
    wellKept_aside k (aside_welcome s observer [] false)
  have hp := (unclaimed_welcome k observer).enrolled
  refine ⟨hw.manager, hw.running, hw.enrolled, hw.bare, hw.distinct, hw.collects, ?_⟩
  intro q hq
  have hne : s.nextParty ≠ q := Nat.ne_of_lt (Nat.lt_of_lt_of_le hp hq)
  rw [failed, tellAll, told_append (s := s.welcome observer [] false) rfl q,
    filterMap_told_other hne, List.append_nil]
  exact hw.unheard q hq

theorem told_failed {s : Session} (k : s.WellKept) (r : StartRequest) (observer : Observer)
    (e : Trouble) : (s.failed r observer e).told s.nextParty = r.failure e := by
  rw [failed, tellAll, told_append (s := s.welcome observer [] false) rfl, filterMap_told_self]
  change s.told s.nextParty ++ _ = _
  rw [k.unheard s.nextParty (Nat.le_refl _), List.nil_append]

theorem told_failed_other (s : Session) (r : StartRequest) (observer : Observer) (e : Trouble)
    {q : Nat} (hq : q ≠ s.nextParty) : (s.failed r observer e).told q = s.told q := by
  rw [failed, tellAll, told_append (s := s.welcome observer [] false) rfl,
    filterMap_told_other hq.symm, List.append_nil]
  rfl

inductive Readies (s : Session) (m : Manager) : Except Trouble Nat → Session → Prop where
  | standing (process : Nat) : m.process = some process → Readies s m (.ok process) s
  | made (process : Nat) (t : Session) : m.process = none → s.unmanaged.Mute t.unmanaged →
    t.manager = s.manager.map (fun m => { m with process := some process }) →
    Readies s m (.ok process) t
  | failed (e : Trouble) (t : Session) : m.process = none → s.unmanaged.Mute t.unmanaged →
    t.manager = s.manager → Readies s m (.error e) t

theorem mute_launchHost (s : Session) (info : StartInfo) :
    s.unmanaged.Mute (s.launchHost info).2.unmanaged ∧
      (s.launchHost info).2.manager = s.manager := by
  have hnoted : s.Mute (s.note (.hostLaunched info)) := mute_note s rfl
  unfold launchHost
  dsimp only
  split
  · exact ⟨hnoted.unmanaged, rfl⟩
  · let t := { s.note (.hostLaunched info) with running := s.running + 1 }
    have ht : s.unmanaged.Mute t.unmanaged := hnoted.unmanaged
    have hconnect := mute_connect t t.front
    dsimp only
    split
    · exact ⟨ht.trans hconnect.unmanaged, hconnect.manager⟩
    · exact ⟨ht, rfl⟩

theorem mute_readyHost (s : Session) (sources : List String) (kind : OperationKind) :
    s.Mute (s.readyHost sources kind).2 := by
  have hnoted : s.Mute (s.note (.extensionsSought sources)) := mute_note s rfl
  unfold readyHost
  dsimp only
  split
  · exact hnoted
  · rename_i paths _
    have hsent := hnoted.trans (mute_send _ (kind.extensionsMessage paths))
    split <;> rename_i heq <;> rwa [heq] at hsent

theorem readies_setUp (s : Session) (m : Manager) (sources : List String) (kind : OperationKind) :
    s.Readies m (s.setUp m sources kind).1 (s.setUp m sources kind).2 := by
  unfold setUp
  cases hprocess : m.process with
  | some process => exact .standing process hprocess
  | none =>
    have hlisten := mute_listen s
    dsimp only
    generalize s.listen = listening at hlisten ⊢
    obtain ⟨_ | port, t⟩ := listening
    · exact .failed _ t hprocess hlisten.unmanaged hlisten.manager
    · dsimp only
      split
      · exact .failed _ t hprocess hlisten.unmanaged hlisten.manager
      · rename_i info _
        let u := { t with exitWait := m.exitWait }
        have hu : t.Mute u := .of_eq rfl rfl rfl rfl rfl rfl rfl
        obtain ⟨hlaunch, hmanager⟩ :=
          mute_launchHost u ((m.parameters.map info.collecting).getD info)
        have hlaunched := (hlisten.trans hu).unmanaged.trans hlaunch
        replace hmanager := hmanager.trans hlisten.manager
        generalize u.launchHost _ = launching at hlaunched hmanager ⊢
        obtain ⟨_ | process, v⟩ := launching
        · exact .failed _ v hprocess hlaunched hmanager
        · dsimp only
          split
          · have habandon := mute_abandonHost v
            exact .failed _ _ hprocess (hlaunched.trans habandon.unmanaged)
              (habandon.manager.trans hmanager)
          · have hready := mute_readyHost v sources kind
            generalize v.readyHost sources kind = readying at hready ⊢
            obtain ⟨_ | _, w⟩ := readying
            · have habandon := hready.trans (mute_abandonHost w)
              exact .failed _ _ hprocess (hlaunched.trans habandon.unmanaged)
                (habandon.manager.trans hmanager)
            · refine .made process _ hprocess (hlaunched.trans hready.unmanaged) ?_
              change w.manager.map _ = _
              rw [hready.manager.trans hmanager]

theorem direct_cases (s : Session) (r : StartRequest) (observer : Observer) :
    (∃ f, s.startFault? r = some f ∧
      r.direct s.nextParty (s.welcome observer [] false) =
        (.error f, s.welcome observer [] false)) ∨
    (s.startFault? r = none ∧ r.direct s.nextParty (s.welcome observer [] false) =
      (.ok (), (s.step .quiet [] (r.step observer)).2)) := by
  have hstep : s.step .quiet [] (r.step observer) =
      (.ofRequest (r.direct s.nextParty (s.welcome observer [] false)).1,
        (r.direct s.nextParty (s.welcome observer [] false)).2) := by
    cases r <;> rfl
  rcases start_result s r observer with ⟨f, hfault, hrefused⟩ | ⟨hfault, hdone⟩
  all_goals
    generalize r.direct s.nextParty (s.welcome observer [] false) = x at hstep ⊢
    obtain ⟨_ | _, t⟩ := x
  · rw [hstep] at hrefused
    cases hrefused
    exact Or.inl ⟨_, hfault, rfl⟩
  · rw [hstep] at hrefused
    cases hrefused
  · rw [hstep] at hdone
    cases hdone
  · rw [hstep]
    exact Or.inr ⟨hfault, rfl⟩

inductive Startup (s : Session) (m : Manager) (r : StartRequest) (observer : Observer) :
    StepResult → Session → Prop where
  | failed (s₀ : Session) (e : Trouble) : s.unmanaged.Mute s₀.unmanaged →
    (∃ process, s₀.manager = some { m with process }) → (m.process ≠ none → s₀ = s) →
    Startup s m r observer (.failed e) (s₀.failed r observer e)
  | accepted (s₀ : Session) (process : Nat) : s.unmanaged.Mute s₀.unmanaged →
    s₀.manager = some { m with process := some process } → s₀.startFault? r = none →
    Startup s m r observer (.process process) (s₀.step .quiet [] (r.step observer)).2

theorem welcome_before {s t : Session} {observer : Observer}
    (h : (s.welcome observer [] false).unmanaged.Mute t.unmanaged) :
    ∃ s₀ : Session, t = s₀.welcome observer [] false ∧ s.unmanaged.Mute s₀.unmanaged ∧
      s₀.manager = t.manager := by
  have hparties : t.parties = s.parties ++ [⟨observer, [], none⟩] := h.parties
  refine ⟨{ t with parties := s.parties }, ?_, ?_, rfl⟩
  · rw [welcome, enroll]
    simp only [Bool.false_eq_true, if_false, ← hparties]
  · exact ⟨rfl, rfl, h.operations, rfl, h.collected, h.collector, h.record⟩

theorem startManaged_failed (s : Session) (r : StartRequest) (observer : Observer) (e : Trouble) :
    ((s.welcome observer [] false).deliver .quiet s.nextParty (.log .error e.text)).deliver .quiet
      s.nextParty (failureNotice r.kind e) = s.failed r observer e := by
  have hbare := collection?_nextParty_welcome s observer
  rw [deliver_bare _ _ _ hbare, deliver_bare_tellAll _ _ _ _ hbare]
  rfl

theorem startup_ready {s s₀ : Session} {m : Manager} {process : Nat}
    (hmute : s.unmanaged.Mute s₀.unmanaged)
    (hmanager : s₀.manager = some { m with process := some process })
    (hsame : m.process ≠ none → s₀ = s) (r : StartRequest) (observer : Observer)
    {ready : Except Trouble Nat × Session}
    (hready : ready = (.ok process, s₀.welcome observer [] false)) :
    let started : Except Trouble Nat × Session :=
      match ready with
      | (.error t, u) => (.error t, u)
      | (.ok process, u) =>
        match r.direct s.nextParty u with
        | (.error f, u) => (.error (f.trouble.within r.context), u)
        | (.ok (), u) => (.ok process, u)
    let x : Except Trouble Nat × Session :=
      match started with
      | (.ok process, u) => (.ok process, u)
      | (.error t, u) =>
        (.error t, (u.deliver .quiet s.nextParty (.log .error t.text)).deliver .quiet s.nextParty
          (failureNotice r.kind t))
    s.Startup m r observer (.ofProcess x.1) x.2 := by
  have hnext : s.nextParty = s₀.nextParty := congrArg List.length hmute.parties.symm
  subst hready
  dsimp only
  rw [hnext]
  rcases direct_cases s₀ r observer with ⟨f, -, hrefused⟩ | ⟨hfault, haccepted⟩
  · rw [hrefused]
    dsimp only
    rw [startManaged_failed s₀ r observer]
    exact .failed s₀ _ hmute ⟨some process, hmanager⟩ hsame
  · rw [haccepted]
    exact .accepted s₀ process hmute hmanager hfault

theorem startup_startManaged {s : Session} {m : Manager} (hm : s.manager = some m)
    (r : StartRequest) (observer : Observer) :
    let x := (s.welcome observer [] false).startManaged .quiet m r.kind r.sources r.context
      s.nextParty (r.direct s.nextParty)
    s.Startup m r observer (.ofProcess x.1) x.2 := by
  let w := s.welcome observer [] false
  have hready := readies_setUp w m r.sources r.kind
  unfold startManaged
  generalize w.setUp m r.sources r.kind = ready at hready ⊢
  obtain ⟨result, t⟩ := ready
  dsimp only at hready
  cases hready with
  | failed e _ hprocess hmute hmanager =>
    obtain ⟨s₀, rfl, hmute₀, hmanager₀⟩ := welcome_before hmute
    have hnext : s.nextParty = s₀.nextParty := congrArg List.length hmute₀.parties.symm
    dsimp only
    rw [hnext, startManaged_failed s₀ r observer e]
    refine .failed s₀ e hmute₀ ⟨m.process, ?_⟩ fun h => absurd hprocess h
    exact hmanager₀.trans (hmanager.trans hm)
  | standing process hprocess =>
    have hmanager : s.manager = some { m with process := some process } := by
      rw [hm, ← hprocess]
    exact startup_ready (.refl _) hmanager (fun _ => rfl) r observer rfl
  | made process _ hprocess hmute hmanager =>
    obtain ⟨s₀, rfl, hmute₀, hmanager₀⟩ := welcome_before hmute
    have hmade : s₀.manager = some { m with process := some process } := by
      rw [hmanager₀, hmanager]
      exact congrArg (Option.map _) hm
    exact startup_ready hmute₀ hmade (fun h => absurd hprocess h) r observer rfl

theorem step_managed {s : Session} {m : Manager} (hm : s.manager = some m) {r : StartRequest}
    (hkind : m.kind = r.kind.manager) (hrecorded : m.recorded = []) (observer : Observer) :
    s.step .quiet [] (r.managed observer) =
      let x := (s.welcome observer [] false).startManaged .quiet m r.kind r.sources r.context
        s.nextParty (r.direct s.nextParty)
      (.ofProcess x.1, x.2) := by
  cases r with
  | discovery c =>
    have hfor : s.managerFor [.discovery] = some m :=
      managerFor_of_mem hm (List.mem_singleton.mpr hkind)
    simp only [StartRequest.managed, Session.step, hfor]
    rfl
  | execution c =>
    have hfor : s.managerFor [.execution, .collecting] = some m :=
      managerFor_of_mem hm (List.mem_cons.mpr (Or.inl hkind))
    have hcollects : decide (m.kind = .collecting) = false := by
      rw [hkind]
      rfl
    -- A manager that collects no data has recorded nothing to tell first.
    have hunrecorded : ({ m with recorded := [] } : Manager) = m := by
      rw [← hrecorded]
    have hmanager : (s.welcome observer [] false).manager = some m := hm
    have hsame : (s.welcome observer [] false).modifyManager (fun m => { m with recorded := [] }) =
        s.welcome observer [] false := by
      rw [modifyManager, hmanager, Option.map_some, hunrecorded, ← hmanager]
    simp only [StartRequest.managed, Session.step, hfor, hcollects, startRun, hsame, hrecorded,
      List.foldl_nil, hmanager, Option.getD_some]
    rfl

theorem startup_step {s : Session} {m : Manager} (hm : s.manager = some m) {r : StartRequest}
    (hkind : m.kind = r.kind.manager) (hrecorded : m.recorded = []) (observer : Observer) :
    let call := s.step .quiet [] (r.managed observer)
    s.Startup m r observer call.1 call.2 := by
  rw [step_managed hm hkind hrecorded]
  exact startup_startManaged hm r observer

end Session

end HostedTests
