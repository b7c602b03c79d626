import HostedTests.Proofs.Session.Blocks

namespace HostedTests

inductive StartRequest where
  | discovery (criteria : DiscoveryCriteria)
  | execution (criteria : RunCriteria)

namespace StartRequest

def kind : StartRequest → OperationKind
  | discovery _ => .discovery
  | execution _ => .execution

def sources : StartRequest → List String
  | discovery c => c.sources
  | execution c => c.touched

def fault? : StartRequest → Option CriteriaFault
  | discovery c => c.fault?
  | execution c => c.fault?

def message : StartRequest → Message
  | discovery c => c.request
  | execution c => c.request

def step (r : StartRequest) (observer : Observer) : Step :=
  match r with
  | discovery c => .discover c observer
  | execution c => .run c observer

theorem step_inj {r r' : StartRequest} {observer observer' : Observer}
    (h : r.step observer = r'.step observer') : r = r' := by
  cases r <;> cases r' <;> cases h <;> rfl

end StartRequest

namespace Session

def startFault? (s : Session) (r : StartRequest) : Option RequestFault :=
  if s.closed then some .disposed
  else
    match r.fault? with
    | some f => some (.invalidCriteria f)
    | none =>
      match s.channel with
      | none => some .notConnected
      | some _ => s.active?.map fun op => .operationInProgress op.state.kind

def register (s : Session) (line : Nat) (op : Operation) : Session :=
  { s with
    operations := s.operations ++ [op]
    current := some s.operations.length }.subscribe line (some s.operations.length)

def started (s : Session) (r : StartRequest) (observer : Observer) (line : Nat) : Session :=
  (s.welcome observer [] false).register line ⟨.fresh r.kind, s.nextParty⟩

theorem step_start (s : Session) (r : StartRequest) (observer : Observer) :
    s.step .quiet [] (r.step observer) =
      let w := s.welcome observer [] false
      let (x, t) : Except RequestFault Unit × Session :=
        if s.closed then (.error .disposed, w)
        else
          match r.fault? with
          | some f => (.error (.invalidCriteria f), w)
          | none => w.startOperation .quiet r.kind s.nextParty r.message
      (.ofRequest x, t) := by
  cases r <;> rfl

theorem step_start_refused (s : Session) (r : StartRequest) (observer : Observer)
    (f : RequestFault) (h : s.startFault? r = some f) :
    s.step .quiet [] (r.step observer) = (.refused f, s.welcome observer [] false) := by
  let w := s.welcome observer [] false
  rw [step_start]
  unfold startFault? at h
  cases hclosed : s.closed with
  | true =>
    rw [hclosed, if_pos rfl] at h
    cases h
    rfl
  | false =>
    rw [hclosed, if_neg Bool.false_ne_true] at h
    cases hfault : r.fault? with
    | some f' =>
      rw [hfault] at h
      cases h
      rfl
    | none =>
      have hline : w.line? = match s.channel with
          | none => .error .notConnected
          | some line => .ok line := by
        unfold line?
        exact if_neg (ne_true_of_eq_false hclosed)
      have hactive : w.active? = s.active? := rfl
      rw [hfault] at h
      cases hchannel : s.channel with
      | none =>
        rw [hchannel] at h hline
        cases h
        simp only [startOperation, w, hline] at *
        rfl
      | some line =>
        rw [hchannel] at h hline
        obtain ⟨op, hop, rfl⟩ := Option.map_eq_some_iff.mp h
        rw [hop] at hactive
        simp only [startOperation, w, hline, hactive] at *
        rfl

theorem startOperation_accepted (s : Session) (kind : OperationKind) (p line : Nat) (m : Message)
    (hclosed : s.closed = false) (hchannel : s.channel = some line) (hactive : s.active? = none) :
    s.startOperation .quiet kind p m =
      let t := s.register line ⟨.fresh kind, p⟩
      match t.transmit line m.text with
      | (.ok (), t) => (.ok (), t)
      | (.error f, t) => (.ok (), t.abort .quiet s.operations.length f.message) := by
  have hline : s.line? = .ok line := by
    rw [line?, hclosed, if_neg Bool.false_ne_true, hchannel]
  simp only [startOperation, hline, hactive]
  rfl

theorem startFault?_eq_none_iff (s : Session) (r : StartRequest) :
    s.startFault? r = none ↔
      s.closed = false ∧ r.fault? = none ∧ (∃ line, s.channel = some line) ∧ s.active? = none := by
  unfold startFault?
  cases hclosed : s.closed with
  | true => simp only [if_true, reduceCtorEq, Bool.true_eq_false, false_and]
  | false =>
    rw [if_neg Bool.false_ne_true]
    cases r.fault? with
    | some f => simp only [reduceCtorEq, false_and, and_false]
    | none =>
      cases s.channel with
      | none => simp only [reduceCtorEq, exists_false, false_and, and_false]
      | some line =>
        simp only [Option.map_eq_none_iff, Option.some.injEq, exists_eq', true_and]

@[simp] theorem length_lines_subscribe (s : Session) (line : Nat) (o : Option Nat) :
    (s.subscribe line o).lines.length = s.lines.length := List.length_modify ..

@[simp] theorem length_lines_refuse (s : Session) (line : Nat) (f : Option ChannelFault) :
    (s.refuse line f).lines.length = s.lines.length := List.length_modify ..

theorem refusal_subscribe (s : Session) (line l : Nat) (o : Option Nat) :
    (s.subscribe line o).lines[l]?.bind (·.refusal) = s.lines[l]?.bind (·.refusal) := by
  rw [subscribe, List.getElem?_modify]
  cases s.lines[l]? with
  | none => rfl
  | some k =>
    by_cases h : line = l
    · simp only [h, if_true]
      rfl
    · simp only [h, if_false]
      rfl

theorem collection?_nextParty_welcome (s : Session) (observer : Observer) :
    (s.welcome observer [] false).collection? s.nextParty = none := by
  have hget : (s.parties ++ [⟨observer, [], none⟩])[s.parties.length]? =
      some ⟨observer, [], none⟩ := List.getElem?_concat_length
  change ((s.parties ++ [⟨observer, [], none⟩])[s.parties.length]?).bind (·.collection) = none
  rw [hget]
  rfl

theorem hears_started (s : Session) (r : StartRequest) (observer : Observer) (line : Nat) :
    (s.started r observer line).Hears s.operations.length ⟨.fresh r.kind, s.nextParty⟩ :=
  ⟨List.getElem?_concat_length, rfl, collection?_nextParty_welcome s observer⟩

theorem step_start_accepted (s : Session) (r : StartRequest) (observer : Observer) (line : Nat)
    (h : s.startFault? r = none) (hchannel : s.channel = some line) :
    s.step .quiet [] (r.step observer) =
      match s.lines[line]?.bind (·.refusal) with
      | none => (.done, (s.started r observer line).note (.sent line r.message.text))
      | some f =>
        (.done, (s.started r observer line).inform s.operations.length
          ⟨.fresh r.kind, s.nextParty⟩ (r.kind.abortBlock f.message)) := by
  let w := s.welcome observer [] false
  obtain ⟨hclosed, hfault, -, hactive⟩ := (startFault?_eq_none_iff s r).mp h
  have hrefusal : (s.started r observer line).lines[line]?.bind (·.refusal) =
      s.lines[line]?.bind (·.refusal) := refusal_subscribe _ _ _ _
  have hstart :=
    startOperation_accepted w r.kind s.nextParty line r.message hclosed hchannel hactive
  have hregister : w.register line ⟨.fresh r.kind, s.nextParty⟩ = s.started r observer line := rfl
  rw [hregister] at hstart
  simp only [step_start, hclosed, hfault, Bool.false_eq_true, if_false]
  rw [hstart]
  simp only [transmit, hrefusal]
  cases s.lines[line]?.bind (·.refusal) with
  | none => rfl
  | some f => exact congrArg (Prod.mk _) (abort_open _ _ _ _ (hears_started s r observer line))

end Session

end HostedTests
