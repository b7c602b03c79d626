import HostedTests.Proofs.Session.InFlight

namespace HostedTests

namespace StartRequest

def NamesSomething : StartRequest → Prop
  | discovery c => c.sources ≠ []
  | execution (.sources c) => ∃ sources ∈ c.adapterSources.values, sources ≠ []
  | execution (.tests c) => c.tests ≠ []

def ReadFrom (text : String) : StartRequest → Prop
  | discovery c => Message.Carries text .startDiscovery c
  | execution (.sources c) => Message.Carries text .startRunWithSources c
  | execution (.tests c) => Message.Carries text .startRunWithTests c

theorem fault?_eq_none_iff (r : StartRequest) : r.fault? = none ↔ r.NamesSomething := by
  cases r with
  | discovery c =>
    simp only [fault?, DiscoveryCriteria.fault?, NamesSomething, List.isEmpty_iff,
      ite_eq_right_iff, reduceCtorEq, imp_false, ne_eq]
  | execution c =>
    cases c with
    | sources c =>
      simp only [fault?, RunCriteria.fault?, NamesSomething, List.all_eq_true, List.isEmpty_iff,
        ite_eq_right_iff, reduceCtorEq, imp_false, not_forall, exists_prop, ne_eq]
    | tests c =>
      simp only [fault?, RunCriteria.fault?, NamesSomething, List.isEmpty_iff,
        ite_eq_right_iff, reduceCtorEq, imp_false, ne_eq]

theorem readFrom_message (r : StartRequest) : r.ReadFrom r.message.text := by
  cases r with
  | discovery c =>
    exact Message.carries_exact rfl (by decide) .startDiscovery c
  | execution c =>
    cases c with
    | sources c =>
      exact Message.carries_exact rfl (by decide) .startRunWithSources c
    | tests c => exact Message.carries_exact rfl (by decide) .startRunWithTests c

end StartRequest

namespace Session

structure Accepts (s : Session) (r : StartRequest) : Prop where
  live : s.closed = false
  names : r.NamesSomething
  connected : ∃ line, s.channel = some line
  settled : ∀ o op, s.current = some o → s.operations[o]? = some op → op.state.completed = true

inductive Refuses (s : Session) (r : StartRequest) : RequestFault → Prop where
  | disposed : s.closed = true → Refuses s r .disposed
  | invalidCriteria (f : CriteriaFault) :
    s.closed = false → ¬r.NamesSomething → r.fault? = some f → Refuses s r (.invalidCriteria f)
  | notConnected :
    s.closed = false → r.NamesSomething → s.channel = none → Refuses s r .notConnected
  | operationInProgress (line o : Nat) (op : Operation) :
    s.closed = false → r.NamesSomething → s.channel = some line → s.current = some o →
    s.operations[o]? = some op → op.state.completed = false →
    Refuses s r (.operationInProgress op.state.kind)

inductive Begun (s : Session) (r : StartRequest) (line : Nat) (t : Session) : Prop where
  | sent (text : String) :
    s.lines[line]?.bind (·.refusal) = none → r.ReadFrom text →
    t.record = s.record ++ [.sent line text] →
    t.operations = s.operations ++ [⟨⟨r.kind, false⟩, s.nextParty⟩] → Begun s r line t
  | aborted (f : ChannelFault) (ns : List Notice) :
    s.lines[line]?.bind (·.refusal) = some f → AbortSequence r.kind f.message ns →
    t.record = s.record ++ ns.map (.told s.nextParty) →
    t.operations = s.operations ++ [⟨⟨r.kind, true⟩, s.nextParty⟩] → Begun s r line t

structure Dispatches (s : Session) (line o : Nat) : Prop where
  accepted : ∀ text, s.receive .quiet line text = (true, s.accept .quiet o text)
  heard : ∀ text op, s.operations[o]? = some op → op.state.completed = false →
    ∃ ns, (s.accept .quiet o text).told op.party = s.told op.party ++ .raw text :: ns
  others : ∀ text o' op, o' ≠ o → s.operations[o']? = some op →
    (s.accept .quiet o text).operations[o']? = some op ∧
      (s.accept .quiet o text).told op.party = s.told op.party

theorem startFault?_eq_some_iff (s : Session) (r : StartRequest) (f : RequestFault) :
    s.startFault? r = some f ↔ s.Refuses r f := by
  have hnames := r.fault?_eq_none_iff
  constructor
  · intro h
    unfold startFault? at h
    cases hclosed : s.closed with
    | true =>
      rw [hclosed, if_pos rfl] at h
      cases h
      exact .disposed hclosed
    | false =>
      rw [hclosed, if_neg Bool.false_ne_true] at h
      cases hfault : r.fault? with
      | some f' =>
        rw [hfault] at h
        cases h
        refine .invalidCriteria f' hclosed ?_ hfault
        intro hn
        rw [hnames.mpr hn] at hfault
        cases hfault
      | none =>
        rw [hfault] at h
        cases hchannel : s.channel with
        | none =>
          rw [hchannel] at h
          cases h
          exact .notConnected hclosed (hnames.mp hfault) hchannel
        | some line =>
          rw [hchannel] at h
          obtain ⟨op, hactive, rfl⟩ := Option.map_eq_some_iff.mp h
          obtain ⟨o, ho, hop, hopen⟩ := (active?_eq_some_iff s op).mp hactive
          exact .operationInProgress line o op hclosed (hnames.mp hfault) hchannel ho hop hopen
  · intro h
    unfold startFault?
    cases h with
    | disposed hclosed => rw [if_pos hclosed]
    | invalidCriteria f' hclosed _ hfault =>
      rw [hclosed, if_neg Bool.false_ne_true, hfault]
    | notConnected hclosed hn hchannel =>
      rw [hclosed, if_neg Bool.false_ne_true, hnames.mpr hn, hchannel]
    | operationInProgress line o op hclosed hn hchannel ho hop hopen =>
      have hactive : s.active? = some op := (active?_eq_some_iff s op).mpr ⟨o, ho, hop, hopen⟩
      rw [hclosed, if_neg Bool.false_ne_true, hnames.mpr hn, hchannel, hactive]
      rfl

theorem startFault?_eq_none_iff_accepts (s : Session) (r : StartRequest) :
    s.startFault? r = none ↔ s.Accepts r := by
  rw [startFault?_eq_none_iff, r.fault?_eq_none_iff, active?_eq_none_iff]
  constructor
  · rintro ⟨hclosed, hn, hline, hactive⟩
    exact ⟨hclosed, hn, hline, hactive⟩
  · rintro ⟨hclosed, hn, hline, hactive⟩
    exact ⟨hclosed, hn, hline, hactive⟩

theorem begun_step {s : Session} (r : StartRequest) (observer : Observer) {line : Nat}
    (h : s.startFault? r = none) (hline : s.channel = some line) :
    s.Begun r line (s.step .quiet [] (r.step observer)).2 := by
  rw [step_start_accepted s r observer line h hline]
  cases hrefusal : s.lines[line]?.bind (·.refusal) with
  | none => exact .sent r.message.text hrefusal r.readFrom_message rfl rfl
  | some f =>
    refine .aborted f (r.kind.abortBlock f.message) hrefusal (abortSequence_abortBlock _ _) rfl ?_
    have hafter : Operation.after ⟨.fresh r.kind, s.nextParty⟩ (r.kind.abortBlock f.message) =
        ⟨⟨r.kind, true⟩, s.nextParty⟩ := by
      rw [Operation.after, r.kind.any_abortBlock, Bool.or_true]
      rfl
    change (s.operations ++ [_]).set s.operations.length _ = _
    rw [List.set_append_right _ _ (Nat.le_refl _), Nat.sub_self, hafter]
    rfl

theorem dispatches_of_subscriber {s : Session} (k : s.WellKept) (h : s.InFlight) {line o : Nat}
    (hclosed : s.closed = false) (hsub : s.subscriber? line = some o) : s.Dispatches line o := by
  have habandoned : s.abandoned = false := by
    by_contra hnot
    rw [h.abandoned (eq_true_of_ne_false hnot)] at hclosed
    cases hclosed
  refine ⟨?_, ?_, ?_⟩
  · intro text
    unfold receive
    rw [show s.lines[line]?.bind (·.subscriber) = some o from hsub]
    simp only [habandoned, Bool.false_eq_true, if_false]
  · intro text op hop hopen
    have hears : s.Hears o op := ⟨hop, hopen, k.bare o op hop⟩
    refine ⟨(s.hearingBlock op text).tail, ?_⟩
    rw [(aside_accept hears text).told op.party hears.bare, told_inform_self]
    rfl
  · intro text o' op hne hop
    rcases hears_or_completed k.bare o with ⟨op', hears⟩ | hcompleted
    · have hget : (s.inform o op' (s.hearingBlock op' text)).operations[o']? = some op := by
        rw [inform, List.getElem?_set_ne hne.symm, hop]
      have hparty : op'.party ≠ op.party :=
        fun hp => hne (k.distinct _ _ _ _ hears.registered hop hp).symm
      obtain ⟨hops, htold⟩ := aside_operation (wellKept_inform k hears.registered _)
        (aside_accept hears text) o' op hget
      exact ⟨hops, htold.trans (told_inform_other s o op' _ hparty)⟩
    · rw [accept_completed s o text hcompleted]
      exact ⟨hop, rfl⟩

theorem subscriber?_started {s : Session} (h : s.InFlight) (r : StartRequest)
    (observer : Observer) {line : Nat} (hfault : s.startFault? r = none)
    (hline : s.channel = some line) :
    let t := (s.step .quiet [] (r.step observer)).2
    line < t.lines.length ∧ t.subscriber? line = some s.operations.length := by
  intro t
  obtain ⟨-, -, -, -, -, hlines, -⟩ := step_start_fields s r observer line hfault hline
  have hlt : line < s.lines.length := h.channel line hline
  constructor
  · rw [show t.lines = _ from hlines, length_lines_subscribe]
    exact hlt
  · rw [subscriber?, show t.lines = _ from hlines]
    exact subscriber?_subscribe_self s _ hlt

theorem receive_cases {s : Session} {line o : Nat}
    (h : s.subscriber? line = some o ∨ s.subscriber? line = none) (text : String) :
    s.receive .quiet line text = (true, s.accept .quiet o text) ∨
      (s.receive .quiet line text).2 = s := by
  unfold receive
  rcases h with h | h
  · rw [show s.lines[line]?.bind (·.subscriber) = some o from h]
    cases s.abandoned with
    | true => exact Or.inr rfl
    | false => exact Or.inl rfl
  · rw [show s.lines[line]?.bind (·.subscriber) = none from h]
    exact Or.inr rfl

theorem start_result (s : Session) (r : StartRequest) (observer : Observer) :
    (∃ f, s.startFault? r = some f ∧
      s.step .quiet [] (r.step observer) = (.refused f, s.welcome observer [] false)) ∨
    (s.startFault? r = none ∧ (s.step .quiet [] (r.step observer)).1 = .done) := by
  cases hfault : s.startFault? r with
  | some f => exact Or.inl ⟨f, rfl, step_start_refused s r observer f hfault⟩
  | none =>
    obtain ⟨-, -, ⟨line, hline⟩, -⟩ := (startFault?_eq_none_iff s r).mp hfault
    refine Or.inr ⟨rfl, ?_⟩
    rw [step_start_accepted s r observer line hfault hline]
    cases s.lines[line]?.bind (·.refusal) <;> rfl

theorem start_done_iff (s : Session) (r : StartRequest) (observer : Observer) :
    (s.step .quiet [] (r.step observer)).1 = .done ↔ s.Accepts r := by
  rw [← startFault?_eq_none_iff_accepts]
  rcases start_result s r observer with ⟨f, hfault, hstep⟩ | ⟨hfault, hdone⟩
  · rw [hstep, hfault]
    simp only [reduceCtorEq]
  · rw [hdone, hfault]
    simp only

theorem start_refused_iff (s : Session) (r : StartRequest) (observer : Observer)
    (f : RequestFault) :
    (s.step .quiet [] (r.step observer)).1 = .refused f ↔ s.Refuses r f := by
  rw [← startFault?_eq_some_iff]
  rcases start_result s r observer with ⟨f', hfault, hstep⟩ | ⟨hfault, hdone⟩
  · rw [hstep, hfault]
    simp only [StepResult.refused.injEq, Option.some.injEq]
  · rw [hdone, hfault]
    simp only [reduceCtorEq]

theorem start_refused_keeps {s : Session} {r : StartRequest} {f : RequestFault}
    (h : s.Refuses r f) (observer : Observer) :
    let t := (s.step .quiet [] (r.step observer)).2
    t = { s with parties := t.parties } := by
  intro t
  have ht : t = s.welcome observer [] false :=
    congrArg Prod.snd (step_start_refused s r observer f ((startFault?_eq_some_iff s r f).mpr h))
  rw [ht]
  rfl

theorem started_dispatches {s : Session} (k : s.WellKept) (h : s.InFlight) {r : StartRequest}
    (observer : Observer) {line : Nat} (hfault : s.startFault? r = none)
    (hline : s.channel = some line) (more : List Step) :
    let t := (s.step .quiet [] (r.step observer)).2
    (t.after more).operations.length = t.operations.length →
      ((t.after more).closed = false → ¬t.Ends line more →
        (t.after more).Dispatches line s.operations.length) ∧
      ∀ text, (t.after more).receive .quiet line text =
          (true, (t.after more).accept .quiet s.operations.length text) ∨
        ((t.after more).receive .quiet line text).2 = t.after more := by
  intro t hlen
  have kt : t.WellKept := wellKept_outcome k (step_outcome k _)
  have ht : t.InFlight := inFlight_step k h _
  obtain ⟨hlt, hsub⟩ := subscriber?_started h r observer hfault hline
  obtain ⟨-, hkept⟩ := lineKept_after kt hlt more hlen
  rw [hsub] at hkept
  constructor
  · intro hclosed hends
    rcases hkept with hkept | ⟨-, hover | hover⟩
    · apply dispatches_of_subscriber
      · exact wellKept_after kt more
      · exact inFlight_after kt ht more
      · exact hclosed
      · exact hkept
    · rw [hclosed] at hover
      cases hover
    · exact absurd hover hends
  · exact receive_cases (hkept.imp_right And.left)

theorem one_operation_at_a_time (server : Server) (collector : Collector) (host : HostBehaviour)
    (exitWait : Nat) (steps : List Step) (r : StartRequest) (observer : Observer) :
    let s := (fresh server collector none host exitWait).after steps
    let result := (s.step .quiet [] (r.step observer)).1
    let t := (s.step .quiet [] (r.step observer)).2
    (∀ o o', s.IsOpen o → s.IsOpen o' → o = o') ∧
      (result = .done ∨ ∃ f, result = .refused f) ∧
      (result = .done ↔ s.Accepts r) ∧
      (∀ f, result = .refused f ↔ s.Refuses r f) ∧
      (∀ f, s.Refuses r f → t = { s with parties := t.parties }) ∧
      (s.Accepts r → ∃ line, s.channel = some line ∧ s.Begun r line t ∧
        t.current = some s.operations.length ∧
        ∀ more, (t.after more).operations.length = t.operations.length →
          ((t.after more).closed = false → ¬t.Ends line more →
            (t.after more).Dispatches line s.operations.length) ∧
          ∀ text, (t.after more).receive .quiet line text =
              (true, (t.after more).accept .quiet s.operations.length text) ∨
            ((t.after more).receive .quiet line text).2 = t.after more) := by
  intro s result t
  have kfresh := wellKept_fresh server collector host exitWait
  have k : s.WellKept := wellKept_after kfresh steps
  have h : s.InFlight :=
    inFlight_after kfresh (inFlight_fresh server collector host exitWait) steps
  refine ⟨?_, ?_, start_done_iff s r observer, start_refused_iff s r observer, ?_, ?_⟩
  · intro o o' ho ho'
    have hlast := (h.latest o ho).1
    have hlast' := (h.latest o' ho').1
    omega
  · rcases start_result s r observer with ⟨f, -, hstep⟩ | ⟨-, hdone⟩
    · exact Or.inr ⟨f, congrArg Prod.fst hstep⟩
    · exact Or.inl hdone
  · intro f hf
    exact start_refused_keeps hf observer
  · intro ha
    have hfault := (startFault?_eq_none_iff_accepts s r).mpr ha
    obtain ⟨line, hline⟩ := ha.connected
    obtain ⟨hcurrent, -⟩ := step_start_fields s r observer line hfault hline
    refine ⟨line, hline, begun_step r observer hfault hline, hcurrent, ?_⟩
    exact started_dispatches k h observer hfault hline

theorem one_operation_at_a_time_first :
    let s := (fresh (.fresh "4000" none false true) .idle none .elsewhere 0).after
      [.listen, .connect]
    let r : StartRequest := .discovery (.ofSources ["a.dll"])
    (s.step .quiet [] (r.step .plain)).1 = .done ∧
      (s.step .quiet [] (r.step .plain)).2.Dispatches 0 0 := by
  let server : Server := .fresh "4000" none false true
  let s := (fresh server .idle none .elsewhere 0).after [.listen, .connect]
  let r : StartRequest := .discovery (.ofSources ["a.dll"])
  obtain ⟨-, -, hdone, -, -, hbegins⟩ :=
    one_operation_at_a_time server .idle .elsewhere 0 [.listen, .connect] r .plain
  have hchannel : s.channel = some 0 := by decide +kernel
  have haccepts : s.Accepts r := by
    refine ⟨by decide +kernel, List.cons_ne_nil _ _, ⟨0, hchannel⟩, ?_⟩
    intro o op ho
    have hnone : s.current = none := by decide +kernel
    rw [hnone] at ho
    cases ho
  obtain ⟨line, hline, -, -, hafter⟩ := hbegins haccepts
  cases hchannel.symm.trans hline
  have hlength : ((fresh server .idle none .elsewhere 0).after
      [.listen, .connect]).operations.length = 0 := by decide +kernel
  have hdispatches := (hafter [] rfl).1 (by decide +kernel) fun ⟨i, hi, _⟩ => nomatch hi
  rw [hlength] at hdispatches
  exact ⟨hdone.mpr haccepts, hdispatches⟩

end Session

end HostedTests
