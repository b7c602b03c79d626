import HostedTests.Proofs.Session.Managing

namespace HostedTests.Session

inductive Course (s t : Session) : Prop where
  | outcome (s₀ : Session) (step : Step) : s.unmanaged.Mute s₀.unmanaged →
    Outcome s₀.unmanaged step t.unmanaged → Course s t
  | failed (s₀ : Session) (r : StartRequest) (observer : Observer) (e : Trouble) :
    s.unmanaged.Mute s₀.unmanaged → t = s₀.failed r observer e → Course s t

structure Managed (k : OperationKind) (s : Session) : Prop where
  manager : ∃ m, s.manager = some m ∧ m.kind = k.manager ∧ m.recorded = []
  kept : s.unmanaged.WellKept
  concluded : s.unmanaged.Concluded

theorem course_of_mute {s t : Session} (h : s.Mute t) : s.Course t :=
  .outcome t .awaitConnection h.unmanaged (outcome_idle rfl (aside_self _))

theorem concluded_mute {s t : Session} (h : s.Concluded) (hmute : s.Mute t) : t.Concluded := by
  intro o op hop
  rw [hmute.told]
  exact h o op (hmute.operations ▸ hop)

theorem unclaimed_failed {s : Session} (k : s.WellKept) (r : StartRequest) (observer : Observer)
    (e : Trouble) : (s.failed r observer e).Unclaimed s.nextParty := by
  obtain ⟨henrolled, hbare, hapart⟩ := unclaimed_welcome k observer
  exact ⟨henrolled, hbare, hapart⟩

theorem managed_course {k : OperationKind} {s t : Session} (h : s.Managed k) (hcourse : s.Course t)
    (hmanager : ∃ m, t.manager = some m ∧ m.kind = k.manager ∧ m.recorded = []) :
    t.Managed k := by
  cases hcourse with
  | outcome s₀ step hmute outcome =>
    have kept₀ := wellKept_aside h.kept (aside_of_mute hmute)
    have concluded₀ := concluded_mute h.concluded hmute
    exact ⟨hmanager, wellKept_outcome kept₀ outcome, concluded_outcome kept₀ concluded₀ outcome⟩
  | failed s₀ r observer e hmute ht =>
    subst ht
    have kept₀ := wellKept_aside h.kept (aside_of_mute hmute)
    have concluded₀ := concluded_mute h.concluded hmute
    refine ⟨hmanager, wellKept_failed kept₀ r observer e, ?_⟩
    intro o op hop
    have hne : op.party ≠ s₀.nextParty := Nat.ne_of_lt (kept₀.enrolled o op hop)
    have htold := told_failed_other s₀.unmanaged r observer e hne
    exact htold ▸ concluded₀ o op hop

theorem unclaimed_course {p : Nat} {s t : Session} (h : s.unmanaged.Unclaimed p)
    (hcourse : s.Course t) : t.unmanaged.Unclaimed p ∧ t.told p = s.told p := by
  cases hcourse with
  | outcome s₀ step hmute outcome =>
    obtain ⟨h₀, htold⟩ := unclaimed_aside h (aside_of_mute hmute)
    obtain ⟨ht, htold'⟩ := unclaimed_outcome h₀ outcome
    exact ⟨ht, htold'.trans htold⟩
  | failed s₀ r observer e hmute ht =>
    subst ht
    obtain ⟨h₀, htold⟩ := unclaimed_aside h (aside_of_mute hmute)
    obtain ⟨hw, -⟩ := unclaimed_aside h₀ (aside_welcome s₀.unmanaged observer [] false)
    have hne : p ≠ s₀.nextParty := Nat.ne_of_lt h₀.enrolled
    exact ⟨⟨hw.enrolled, hw.bare, hw.apart⟩, (told_failed_other s₀ r observer e hne).trans htold⟩

theorem claimed_course {k : OperationKind} {s t : Session} (h : s.Managed k) (hcourse : s.Course t)
    {o : Nat} {op : Operation} (hop : s.operations[o]? = some op) :
    ∃ ns, t.operations[o]? = some (op.after ns) := by
  cases hcourse with
  | outcome s₀ step hmute outcome =>
    have kept₀ := wellKept_aside h.kept (aside_of_mute hmute)
    have hop₀ : s₀.operations[o]? = some op := by
      rw [show s₀.operations = s.operations from hmute.operations, hop]
    exact ⟨_, (outcome_share kept₀ outcome o op hop₀).1⟩
  | failed s₀ r observer e hmute ht =>
    subst ht
    refine ⟨[], ?_⟩
    rw [op.after_nil]
    change s₀.operations[o]? = some op
    rw [show s₀.operations = s.operations from hmute.operations, hop]

/-- What the steps of a managed session are: those of any session, the exit of the host that the
manager launched, starts through the manager, and what concerns no operation. -/
inductive Manages (s : Session) (step : Step) (t : Session) : Prop where
  | usual : Outcome s step t → Manages s step t
  | exited (stderr : Option String) :
    Outcome { s with running := s.running - 1 } (.hostExited stderr) t → Manages s step t
  | startup (m : Manager) (r : StartRequest) (observer : Observer) (result : StepResult) :
    s.manager = some m → s.Startup m r observer result t → Manages s step t
  | mute : s.Mute t → Manages s step t

theorem mute_signalManaged (s : Session) (kind : Message.Kind) (context : String) :
    s.Mute (s.signalManaged kind context).2 := by
  have hsent := mute_send s (.signal kind)
  unfold signalManaged
  split <;> rename_i heq <;> rwa [heq] at hsent

theorem step_manages {k : OperationKind} {s : Session} (h : s.Managed k) (step : Step) :
    s.Manages step (s.step .quiet [] step).2 := by
  obtain ⟨m, hm, hkind, hrecorded⟩ := h.manager
  have hbare : s.Bare := h.kept.bare
  have hnone (kinds : List Manager.Kind) (hmem : k.manager ∉ kinds) :
      s.managerFor kinds = none := managerFor_of_not_mem hm (hkind ▸ hmem)
  have hstartup (r : StartRequest) (observer : Observer) (hr : r.kind = k) :
      s.Manages step (s.step .quiet [] (r.managed observer)).2 :=
    .startup m r observer _ hm (startup_step hm (hr ▸ hkind) hrecorded observer)
  cases step
  case setUp sources kind =>
    simp only [Session.step, hnone [.operation] (by cases k <;> decide)]
    exact .mute (.refl s)
  case startDiscovery c observer =>
    cases k with
    | discovery => exact hstartup (.discovery c) observer rfl
    | execution =>
      simp only [Session.step, hnone [.discovery] (by decide)]
      exact .mute (.refl s)
  case startRun c observer =>
    cases k with
    | discovery =>
      simp only [Session.step, hnone [.execution, .collecting] (by decide)]
      exact .mute (.refl s)
    | execution => exact hstartup (.execution c) observer rfl
  case prepareCollection =>
    simp only [Session.step, hnone [.collecting] (by cases k <;> decide)]
    exact .mute (.refl s)
  case recordedMessages =>
    simp only [Session.step]
    split <;> exact .mute (.refl s)
  case cancelManagedRun =>
    simp only [Session.step]
    split
    · exact .mute (.refl s)
    · rename_i m' hfor
      have hm' : m' = m := by
        rw [managerFor, hm, Option.filter_some] at hfor
        split at hfor <;> cases hfor
        rfl
      have hother : m'.kind ≠ .collecting := by
        rw [hm', hkind]
        cases k <;> decide
      rw [cancelManagedRun, if_neg hother]
      exact .mute (mute_signalManaged s _ _)
  case abortManagedRun =>
    simp only [Session.step]
    split
    · exact .mute (.refl s)
    · exact .mute (mute_signalManaged s _ _)
  case closeManager =>
    simp only [Session.step]
    split
    · exact .mute (.refl s)
    · exact .mute (mute_closeManager s)
  case launchedHostExits stderr =>
    simp only [Session.step]
    split
    · exact .mute (.refl s)
    · exact .exited stderr
        (outcome_hostExited (s := { s with running := s.running - 1 }) hbare stderr)
  all_goals exact .usual (unmanaged_outcome hbare h.kept.collects _ rfl)

theorem startup_course {s t : Session} {m : Manager} {r : StartRequest} {observer : Observer}
    {result : StepResult} (h : s.Startup m r observer result t) :
    s.Course t ∧ ∃ process, t.manager = some { m with process } := by
  cases h with
  | failed s₀ e hmute hmanager _ => exact ⟨.failed s₀ r observer e hmute rfl, hmanager⟩
  | accepted s₀ process hmute hmanager _ =>
    have outcome := outcome_start s₀ r observer
    refine ⟨.outcome s₀ _ hmute (outcome_unmanaged outcome), some process, ?_⟩
    rw [outcome_manager outcome, hmanager]

theorem manages_course {s t : Session} {step : Step} (h : s.Manages step t) :
    s.Course t ∧ ∀ m, s.manager = some m → ∃ process, t.manager = some { m with process } := by
  cases h with
  | usual outcome =>
    refine ⟨.outcome s step (.refl _) (outcome_unmanaged outcome), fun m hm => ⟨m.process, ?_⟩⟩
    rw [outcome_manager outcome, hm]
  | exited stderr outcome =>
    refine ⟨?_, fun m hm => ⟨m.process, (outcome_manager outcome).trans hm⟩⟩
    exact .outcome { s with running := s.running - 1 } _ (.refl _) (outcome_unmanaged outcome)
  | startup m r observer result hm hstartup =>
    obtain ⟨hcourse, hmanager⟩ := startup_course hstartup
    refine ⟨hcourse, ?_⟩
    rw [hm]
    rintro m' ⟨⟩
    exact hmanager
  | mute hmute =>
    refine ⟨course_of_mute hmute, fun m hm => ⟨m.process, ?_⟩⟩
    rw [hmute.manager, hm]

theorem managed_step {k : OperationKind} {s : Session} (h : s.Managed k) (step : Step) :
    (s.step .quiet [] step).2.Managed k := by
  obtain ⟨hcourse, hmanager⟩ := manages_course (step_manages h step)
  obtain ⟨m, hm, hkind, hrecorded⟩ := h.manager
  obtain ⟨process, hprocess⟩ := hmanager m hm
  exact managed_course h hcourse ⟨_, hprocess, hkind, hrecorded⟩

theorem managed_fresh (server : Server) (collector : Collector) (k : OperationKind)
    (host : HostBehaviour) (connectionTimeout wait exitWait : Nat) :
    (fresh server collector (some (.fresh k.manager connectionTimeout wait)) host exitWait).Managed
      k where
  manager := ⟨_, rfl, rfl, rfl⟩
  kept := wellKept_fresh server collector host exitWait
  concluded := by
    intro o op hop
    cases hop

theorem managed_after {k : OperationKind} {s : Session} (h : s.Managed k) (steps : List Step) :
    (s.after steps).Managed k := by
  induction steps generalizing s with
  | nil => exact h
  | cons step steps ih => exact ih (managed_step h step)

theorem unclaimed_after {k : OperationKind} {s : Session} (h : s.Managed k) {p : Nat}
    (hp : s.unmanaged.Unclaimed p) (steps : List Step) : (s.after steps).told p = s.told p := by
  induction steps generalizing s with
  | nil => rfl
  | cons step steps ih =>
    obtain ⟨hcourse, -⟩ := manages_course (step_manages h step)
    obtain ⟨hnext, htold⟩ := unclaimed_course hp hcourse
    exact (ih (managed_step h step) hnext).trans htold

theorem claimed_after {k : OperationKind} {s : Session} (h : s.Managed k) {o : Nat}
    {op : Operation} (hop : s.operations[o]? = some op) (steps : List Step) :
    ∃ ns, (s.after steps).operations[o]? = some (op.after ns) := by
  induction steps generalizing s op with
  | nil =>
    refine ⟨[], ?_⟩
    rw [op.after_nil]
    exact hop
  | cons step steps ih =>
    obtain ⟨hcourse, -⟩ := manages_course (step_manages h step)
    obtain ⟨ns, hnext⟩ := claimed_course h hcourse hop
    obtain ⟨ms, hrest⟩ := ih (managed_step h step) hnext
    exact ⟨ns ++ ms, by rw [← op.after_after]; exact hrest⟩

def Hostless (s : Session) : Prop :=
  ∀ m, s.manager = some m → m.process = none → s.operations = []

theorem operations_outcome {s t : Session} {step : Step} (h : Outcome s step t)
    (hdirect : ∀ (r : StartRequest) (observer : Observer), step ≠ r.step observer)
    (hnone : s.operations = []) : t.operations = [] := by
  cases h with
  | aside _ h => rw [h.operations, hnone]
  | informed o op _ hears _ =>
    have hop := hears.registered
    rw [hnone] at hop
    cases hop
  | started r observer _ hstep _ _ _ => exact absurd hstep (hdirect r observer)

theorem hostless_step {k : OperationKind} {s : Session} (h : s.Managed k) (hs : s.Hostless)
    {step : Step} (hdirect : ∀ (r : StartRequest) (observer : Observer), step ≠ r.step observer) :
    (s.step .quiet [] step).2.Hostless := by
  intro m hm hprocess
  cases step_manages h step with
  | usual outcome =>
    exact operations_outcome outcome hdirect (hs m (outcome_manager outcome ▸ hm) hprocess)
  | exited stderr outcome =>
    refine operations_outcome outcome ?_ (hs m ((outcome_manager outcome).symm.trans hm) hprocess)
    intro r observer
    cases r <;> exact Step.noConfusion
  | mute hmute => exact hmute.operations.trans (hs m (hmute.manager ▸ hm) hprocess)
  | startup m' r observer result hm' hstartup =>
    generalize (s.step .quiet [] step).2 = t at hm hstartup ⊢
    cases hstartup with
    | failed s₀ e hmute hmanager hsame =>
      have hoperations : s₀.operations = s.operations := hmute.operations
      cases hprocess' : m'.process with
      | none => exact hoperations.trans (hs m' hm' hprocess')
      | some process =>
        obtain rfl := hsame (hprocess' ▸ Option.some_ne_none process)
        exact hs m hm hprocess
    | accepted s₀ process _ hmanager _ =>
      rw [outcome_manager (outcome_start s₀ r observer), hmanager] at hm
      cases hm
      cases hprocess

theorem hostless_after {k : OperationKind} {s : Session} (h : s.Managed k) (hs : s.Hostless)
    {steps : List Step}
    (hdirect : ∀ step ∈ steps, ∀ (r : StartRequest) (observer : Observer),
      step ≠ r.step observer) : (s.after steps).Hostless := by
  induction steps generalizing s with
  | nil => exact hs
  | cons step steps ih =>
    rw [List.forall_mem_cons] at hdirect
    exact ih (managed_step h step) (hostless_step h hs hdirect.1) hdirect.2

inductive Registered (s : Session) (r : StartRequest) (t : Session) : Prop where
  | sent (line : Nat) (text : String) : t.channel = some line → r.ReadFrom text →
    t.record.getLast? = some (.sent line text) → t.told s.nextParty = [] →
    t.operations = s.operations ++ [⟨⟨r.kind, false⟩, s.nextParty⟩] →
    t.current = some s.operations.length → Registered s r t
  | aborted (f : ChannelFault) : AbortSequence r.kind f.message (t.told s.nextParty) →
    t.operations = s.operations ++ [⟨⟨r.kind, true⟩, s.nextParty⟩] →
    t.current = some s.operations.length → Registered s r t

theorem registered_step {s : Session} (k : s.unmanaged.WellKept) (r : StartRequest)
    (observer : Observer) (hfault : s.startFault? r = none) :
    let t := (s.step .quiet [] (r.step observer)).2
    s.Registered r t ∧ ∀ q, q ≠ s.nextParty → t.told q = s.told q := by
  intro t
  obtain ⟨-, -, ⟨line, hline⟩, -⟩ := (startFault?_eq_none_iff s r).mp hfault
  obtain ⟨hcurrent, -, -, -, hchannel, -⟩ := step_start_fields s r observer line hfault hline
  have hunheard : s.told s.nextParty = [] := k.unheard s.nextParty (Nat.le_refl _)
  cases begun_step r observer hfault hline with
  | sent text _ hread hrecord hoperations =>
    have htold (q : Nat) : t.told q = s.told q := by
      rw [told_append hrecord q]
      exact List.append_nil _
    refine ⟨.sent line text (hchannel.trans hline) hread ?_ ?_ hoperations hcurrent, ?_⟩
    · rw [hrecord, List.getLast?_concat]
    · rw [htold, hunheard]
    · exact fun q _ => htold q
  | aborted f ns _ habort hrecord hoperations =>
    have htold : t.told s.nextParty = ns := by
      rw [told_append hrecord, filterMap_told_self, hunheard, List.nil_append]
    refine ⟨.aborted f (htold ▸ habort) hoperations hcurrent, ?_⟩
    intro q hq
    rw [told_append hrecord q, filterMap_told_other hq.symm, List.append_nil]

theorem registered_of_mute {s s₀ t : Session} {r : StartRequest}
    (hmute : s.unmanaged.Mute s₀.unmanaged) (h : s₀.Registered r t) : s.Registered r t := by
  have hparty : s₀.nextParty = s.nextParty := congrArg List.length hmute.parties
  have hoperations : s₀.operations = s.operations := hmute.operations
  cases h with
  | sent line text hchannel hread hlast htold hstarted hcurrent =>
    rw [hparty] at htold hstarted
    rw [hoperations] at hstarted hcurrent
    exact .sent line text hchannel hread hlast htold hstarted hcurrent
  | aborted f habort hstarted hcurrent =>
    rw [hparty] at habort hstarted
    rw [hoperations] at hstarted hcurrent
    exact .aborted f habort hstarted hcurrent

theorem registered_operation {s t : Session} {r : StartRequest} (h : s.Registered r t) :
    ∃ op : Operation, t.operations[s.operations.length]? = some op ∧ op.party = s.nextParty ∧
      op.state.kind = r.kind := by
  cases h with
  | sent _ _ _ _ _ _ hoperations _ =>
    rw [hoperations, List.getElem?_concat_length]
    exact ⟨_, rfl, rfl, rfl⟩
  | aborted _ _ hoperations _ =>
    rw [hoperations, List.getElem?_concat_length]
    exact ⟨_, rfl, rfl, rfl⟩

theorem told_start {k : OperationKind} {s : Session} (h : s.Managed k) {r : StartRequest}
    (hkind : r.kind = k) (observer : Observer) (later : List Step) :
    let call := s.step .quiet [] (r.managed observer)
    (∃ e, call.1 = .failed e ∧ call.2.told s.nextParty = r.failure e) ∨
      ∃ process : Nat, call.1 = .process process ∧
        ∃ b, Concludes b ((call.2.after later).told s.nextParty) := by
  intro call
  obtain ⟨m, hm, hmkind, hrecorded⟩ := h.manager
  have ht : call.2.Managed k := managed_step h _
  have hstartup : s.Startup m r observer call.1 call.2 :=
    startup_step hm (hkind ▸ hmkind) hrecorded observer
  clear_value call
  obtain ⟨result, t⟩ := call
  cases hstartup with
  | failed s₀ e hmute _ _ =>
    have kept₀ := wellKept_aside h.kept (aside_of_mute hmute)
    have hp : s₀.nextParty = s.nextParty := congrArg List.length hmute.parties
    exact Or.inl ⟨e, rfl, hp ▸ told_failed kept₀ r observer e⟩
  | accepted s₀ process hmute _ hfault =>
    have kept₀ := wellKept_aside h.kept (aside_of_mute hmute)
    obtain ⟨hregistered₀, -⟩ := registered_step kept₀ r observer hfault
    obtain ⟨op, hop, hparty, -⟩ := registered_operation (registered_of_mute hmute hregistered₀)
    obtain ⟨ns, hlater⟩ := claimed_after ht hop later
    have hconcludes := (managed_after ht later).concluded _ _ hlater
    rw [Operation.after_party, hparty] at hconcludes
    exact Or.inr ⟨process, rfl, _, hconcludes⟩

theorem countP_failure (r : StartRequest) (e : Trouble) :
    (r.failure e).countP Notice.isCompletion = 1 := by
  rw [StartRequest.failure, List.countP_cons, List.countP_cons, r.kind.isCompletion_abortNotice]
  rfl

/-- A start through a manager answers with the process of the host or fails. The observer of one
that failed is told the error and an aborted completion, and nothing else ever; all others and the
operations are left alone. One that did not fail registered the operation, whose observer hears of
one completion if the operation is completed and of none before. -/
theorem managed_start_told_once (server : Server) (collector : Collector) (host : HostBehaviour)
    (connectionTimeout wait exitWait : Nat) (earlier later : List Step) (r : StartRequest)
    (observer : Observer) :
    let m : Manager := .fresh r.kind.manager connectionTimeout wait
    let s := (fresh server collector (some m) host exitWait).after earlier
    let p := s.nextParty
    let result := (s.step .quiet [] (r.managed observer)).1
    let t := (s.step .quiet [] (r.managed observer)).2
    let u := t.after later
    ((∃ process : Nat, result = .process process) ∨ ∃ e, result = .failed e) ∧
      (u.told p).countP Notice.isCompletion ≤ 1 ∧
      (∀ q, q ≠ p → t.told q = s.told q) ∧
      (∀ e, result = .failed e →
        t.told p = [.log .error e.text, r.kind.abortNotice e.text] ∧ u.told p = t.told p ∧
          t.operations = s.operations ∧
          (s.operations ≠ [] →
            (∀ step ∈ earlier, ∀ (r' : StartRequest) (observer' : Observer),
              step ≠ r'.step observer') →
            t = (s.welcome observer [] false).tellAll p (t.told p))) ∧
      ∀ process, result = .process process → s.Registered r t ∧
        ∃ op : Operation, u.operations[s.operations.length]? = some op ∧ op.party = p ∧
          op.state.kind = r.kind ∧
          (u.told p).countP Notice.isCompletion = if op.state.completed then 1 else 0 := by
  intro m s p result t u
  have hfresh := managed_fresh server collector r.kind host connectionTimeout wait exitWait
  have h : s.Managed r.kind := managed_after hfresh earlier
  have ht : t.Managed r.kind := managed_step h _
  have hu : u.Managed r.kind := managed_after ht later
  obtain ⟨m', hm, hkind, hrecorded⟩ := h.manager
  have hstartup : s.Startup m' r observer result t := startup_step hm hkind hrecorded observer
  clear_value result t
  cases hstartup with
  | failed s₀ e hmute _ hsame =>
    have kept₀ := wellKept_aside h.kept (aside_of_mute hmute)
    have hp : s₀.nextParty = p := congrArg List.length hmute.parties
    have htold : (s₀.failed r observer e).told p = r.failure e :=
      hp ▸ told_failed kept₀ r observer e
    have hlater : u.told p = r.failure e := by
      rw [← htold]
      exact unclaimed_after ht (hp ▸ unclaimed_failed kept₀ r observer e) later
    refine ⟨Or.inr ⟨e, rfl⟩, ?_, ?_, ?_, ?_⟩
    · rw [hlater, countP_failure]
    · intro q hq
      rw [told_failed_other s₀ r observer e (hp ▸ hq)]
      exact hmute.told q
    · rintro _ ⟨⟩
      refine ⟨htold, hlater.trans htold.symm, hmute.operations, ?_⟩
      intro hstarted hdirect
      have hhostless : s.Hostless := hostless_after hfresh (fun _ _ _ => rfl) hdirect
      obtain rfl := hsame fun hnone => hstarted (hhostless m' hm hnone)
      rw [htold]
      rfl
    · intro process hprocess
      cases hprocess
  | accepted s₀ process hmute _ hfault =>
    have kept₀ := wellKept_aside h.kept (aside_of_mute hmute)
    have hp : s₀.nextParty = p := congrArg List.length hmute.parties
    obtain ⟨hregistered₀, hothers⟩ := registered_step kept₀ r observer hfault
    have hregistered := registered_of_mute hmute hregistered₀
    obtain ⟨op, hop, hparty, hop_kind⟩ := registered_operation hregistered
    obtain ⟨ns, hlater⟩ := claimed_after ht hop later
    have hcount := (hu.concluded _ _ hlater).countP
    rw [Operation.after_party, hparty] at hcount
    refine ⟨Or.inl ⟨process, rfl⟩, ?_, ?_, ?_, ?_⟩
    · rw [show u.told p = u.unmanaged.told p from rfl, hcount]
      split
      · exact Nat.le_refl 1
      · exact Nat.zero_le 1
    · intro q hq
      rw [hothers q (hp ▸ hq)]
      exact hmute.told q
    · rintro e ⟨⟩
    · rintro _ -
      exact ⟨hregistered, _, hlater, hparty, hop_kind, hcount⟩

theorem managed_start_told_once_busy :
    let start : Step := .startRun (.ofSources ["a.tests"]) .plain
    let s := (fresh (.fresh "4000" none false true) .idle (some (.fresh .execution 0 0)) .nearby
      0).after [start]
    let call := s.step .quiet [] start
    ∃ e, call.1 = .failed e ∧ call.2 = (s.welcome .plain [] false).tellAll 1
      [.log .error e.text, .runComplete (.only (.aborted (some e.text)))] := by
  let server : Server := .fresh "4000" none false true
  let r : StartRequest := .execution (.ofSources ["a.tests"])
  let start : Step := r.managed .plain
  let s := (fresh server .idle (some (.fresh .execution 0 0)) .nearby 0).after [start]
  obtain ⟨hresult, -, -, hfailed, hregistered⟩ :=
    managed_start_told_once server .idle .nearby 0 0 0 [start] [] r .plain
  rcases hresult with ⟨process, hprocess⟩ | ⟨e, he⟩
  · obtain ⟨-, op, hop, -⟩ := hregistered process hprocess
    have hnone : (s.step .quiet [] start).2.operations[s.operations.length]? = none := by
      decide +kernel
    cases hnone.symm.trans hop
  · obtain ⟨htold, -, -, hsame⟩ := hfailed e he
    have hstarted : s.operations ≠ [] := by decide +kernel
    have hindirect : ∀ step ∈ [start], ∀ (r' : StartRequest) (observer' : Observer),
        step ≠ r'.step observer' := by
      intro step hstep r' observer'
      rw [List.mem_singleton.mp hstep]
      cases r' <;> exact Step.noConfusion
    have hnext : s.nextParty = 1 := by decide +kernel
    have ht := hsame hstarted hindirect
    rw [htold] at ht
    exact ⟨e, he, hnext ▸ ht⟩

end HostedTests.Session
