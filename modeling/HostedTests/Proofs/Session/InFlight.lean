import HostedTests.Proofs.Session.Transcript
import HostedTests.Proofs.Session.Wiring

namespace HostedTests

namespace Session

structure InFlight (s : Session) : Prop where
  latest : ∀ o, s.IsOpen o → o + 1 = s.operations.length ∧ (s.closed = false → s.current = some o)
  current : ∀ o, s.current = some o → o + 1 = s.operations.length
  detached : s.closed = true → s.current = none
  abandoned : s.abandoned = true → s.closed = true
  front : s.front < s.lines.length
  channel : ∀ line, s.channel = some line → line < s.lines.length

theorem active?_eq_some_iff (s : Session) (op : Operation) :
    s.active? = some op ↔
      ∃ o, s.current = some o ∧ s.operations[o]? = some op ∧ op.state.completed = false := by
  unfold active?
  rw [Option.filter_eq_some_iff, Option.bind_eq_some_iff, Bool.not_eq_true']
  constructor
  · rintro ⟨⟨o, ho, hop⟩, hopen⟩
    exact ⟨o, ho, hop, hopen⟩
  · rintro ⟨o, ho, hop, hopen⟩
    exact ⟨⟨o, ho, hop⟩, hopen⟩

theorem active?_eq_none_iff (s : Session) :
    s.active? = none ↔ ∀ o op, s.current = some o → s.operations[o]? = some op →
      op.state.completed = true := by
  rw [Option.eq_none_iff_forall_ne_some]
  constructor
  · intro h o op ho hop
    by_contra hnot
    exact h op ((active?_eq_some_iff s op).mpr ⟨o, ho, hop, eq_false_of_ne_true hnot⟩)
  · intro h op hop
    obtain ⟨o, ho, hop, hopen⟩ := (active?_eq_some_iff s op).mp hop
    rw [h o op ho hop] at hopen
    cases hopen

theorem step_start_fields (s : Session) (r : StartRequest) (observer : Observer) (line : Nat)
    (h : s.startFault? r = none) (hline : s.channel = some line) :
    let t := (s.step .quiet [] (r.step observer)).2
    t.current = some s.operations.length ∧ t.closed = s.closed ∧ t.abandoned = s.abandoned ∧
      t.front = s.front ∧ t.channel = s.channel ∧
      t.lines = (s.subscribe line (some s.operations.length)).lines ∧
      t.operations.length = s.operations.length + 1 := by
  rw [step_start_accepted s r observer line h hline]
  cases s.lines[line]?.bind (·.refusal) with
  | none => exact ⟨rfl, rfl, rfl, rfl, rfl, rfl, List.length_append⟩
  | some f =>
    exact ⟨rfl, rfl, rfl, rfl, rfl, rfl, (List.length_set ..).trans List.length_append⟩

theorem inFlight_started {s : Session} (k : s.WellKept) (h : s.InFlight) (r : StartRequest)
    (observer : Observer) (hfault : s.startFault? r = none) :
    (s.step .quiet [] (r.step observer)).2.InFlight := by
  obtain ⟨hclosed, -, ⟨line, hline⟩, hactive⟩ := (startFault?_eq_none_iff s r).mp hfault
  obtain ⟨hcurrent, hclosed', habandoned, hfront, hchannel, hlines, hlen⟩ :=
    step_start_fields s r observer line hfault hline
  have hlines' : (s.step .quiet [] (r.step observer)).2.lines.length = s.lines.length := by
    rw [hlines, length_lines_subscribe]
  refine ⟨?_, ?_, ?_, ?_, ?_, ?_⟩
  · intro o hopen
    rcases isOpen_of_step k _ o hopen with ⟨op, hop, hincomplete⟩ | ⟨rfl, -⟩
    · have ho := (h.latest o ⟨op, hop, hincomplete⟩).2 hclosed
      have hcompleted := (active?_eq_none_iff s).mp hactive o op ho hop
      rw [hcompleted] at hincomplete
      cases hincomplete
    · exact ⟨hlen.symm, fun _ => hcurrent⟩
  · intro o ho
    rw [hcurrent] at ho
    cases ho
    exact hlen.symm
  · intro hc
    rw [hclosed', hclosed] at hc
    cases hc
  · intro ha
    rw [hclosed']
    rw [habandoned] at ha
    exact h.abandoned ha
  · rw [hfront, hlines']
    exact h.front
  · intro l hl
    rw [hlines']
    rw [hchannel] at hl
    exact h.channel l hl

theorem inFlight_sameWiring {s : Session} (k : s.WellKept) (h : s.InFlight) (step : Step)
    (hstep : ∀ (r : StartRequest) (observer : Observer),
      step = r.step observer → s.startFault? r ≠ none)
    (hw : s.SameWiring (s.step .quiet [] step).2) : (s.step .quiet [] step).2.InFlight := by
  have hlen : (s.step .quiet [] step).2.operations.length = s.operations.length := by
    rcases length_step k step with hlen | ⟨-, r, observer, hr, hfault⟩
    · exact hlen
    · exact absurd hfault (hstep r observer hr)
  refine ⟨?_, ?_, ?_, ?_, ?_, ?_⟩
  · intro o hopen
    rw [hlen, hw.closed, hw.current]
    rcases isOpen_of_step k step o hopen with hopen | ⟨-, r, observer, hr, hfault⟩
    · exact h.latest o hopen
    · exact absurd hfault (hstep r observer hr)
  · intro o ho
    rw [hlen]
    rw [hw.current] at ho
    exact h.current o ho
  · intro hc
    rw [hw.current]
    rw [hw.closed] at hc
    exact h.detached hc
  · intro ha
    rw [hw.closed]
    rw [hw.abandoned] at ha
    exact h.abandoned ha
  · rw [hw.lines]
    rcases hw.front with hfront | hfront
    · rw [hfront]
      exact h.front
    · exact hfront
  · intro l hl
    rw [hw.lines]
    rcases hw.channel with hchannel | hchannel
    · rw [hchannel] at hl
      exact h.channel l hl
    · rw [hchannel] at hl
      cases hl
      exact h.front

theorem inFlight_start {s : Session} (k : s.WellKept) (h : s.InFlight) (r : StartRequest)
    (observer : Observer) : (s.step .quiet [] (r.step observer)).2.InFlight := by
  cases hfault : s.startFault? r with
  | none => exact inFlight_started k h r observer hfault
  | some f =>
    apply inFlight_sameWiring k h
    · intro r' observer' hr hnone
      rw [← StartRequest.step_inj hr, hfault] at hnone
      cases hnone
    · rw [step_start_refused s r observer f hfault]
      exact ⟨rfl, rfl, rfl, rfl, Or.inl rfl, Or.inl rfl⟩

theorem closed_close (s : Session) : s.close.closed = true := by
  unfold close
  split
  · assumption
  · dsimp only
    split <;> rfl

theorem length_lines_close (s : Session) : s.close.lines.length = s.lines.length := by
  unfold close
  split
  · rfl
  · dsimp only
    split
    · rfl
    · rw [length_lines_subscribe]

theorem inFlight_close {s : Session} (h : s.InFlight) : s.close.InFlight := by
  unfold close
  split
  · exact h
  · have hlatest : ∀ o, s.IsOpen o → o + 1 = s.operations.length ∧
        (true = false → (none : Option Nat) = some o) :=
      fun o ho => ⟨(h.latest o ho).1, fun hc => by cases hc⟩
    dsimp only
    split
    · exact ⟨hlatest, fun _ ho => (nomatch ho), fun _ => rfl, fun _ => rfl, h.front, h.channel⟩
    · rename_i line _
      have hlen := length_lines_subscribe s line none
      refine ⟨hlatest, fun _ ho => (nomatch ho), fun _ => rfl, fun _ => rfl, ?_, ?_⟩
      · exact Nat.lt_of_lt_of_eq h.front hlen.symm
      · intro l hl
        exact Nat.lt_of_lt_of_eq (h.channel l hl) hlen.symm

theorem inFlight_lines {s t : Session} (h : s.InFlight) (hops : t.operations = s.operations)
    (hcurrent : t.current = s.current) (hclosed : t.closed = s.closed)
    (habandoned : t.abandoned = true → t.closed = true) (hfront : t.front < t.lines.length)
    (hchannel : t.channel = s.channel) (hlines : s.lines.length ≤ t.lines.length) :
    t.InFlight := by
  refine ⟨?_, ?_, ?_, habandoned, hfront, ?_⟩
  · intro o ho
    rw [hops, hclosed, hcurrent]
    rw [IsOpen, hops] at ho
    exact h.latest o ho
  · intro o ho
    rw [hops]
    rw [hcurrent] at ho
    exact h.current o ho
  · intro hc
    rw [hcurrent]
    rw [hclosed] at hc
    exact h.detached hc
  · intro l hl
    rw [hchannel] at hl
    exact Nat.lt_of_lt_of_le (h.channel l hl) hlines

theorem inFlight_step {s : Session} (k : s.WellKept) (h : s.InFlight) (step : Step) :
    (s.step .quiet [] step).2.InFlight := by
  cases hrewires : step.rewires with
  | false =>
    refine inFlight_sameWiring k h step ?_ (sameWiring_step k step hrewires)
    intro r observer hr
    rw [hr] at hrewires
    cases r <;> cases hrewires
  | true =>
    cases step
    case discover criteria observer => exact inFlight_start k h (.discovery criteria) observer
    case run criteria observer => exact inFlight_start k h (.execution criteria) observer
    case close => exact inFlight_close h
    case leave =>
      have hclose := inFlight_close h
      rw [step_leave k.manager]
      exact inFlight_lines hclose rfl rfl rfl (fun _ => closed_close s) hclose.front rfl
        (Nat.le_refl _)
    case replaceLine =>
      have hlen : (s.lines ++ [Line.fresh]).length = s.lines.length + 1 := List.length_append
      refine inFlight_lines h rfl rfl rfl h.abandoned ?_ rfl ?_
      · exact Nat.lt_of_lt_of_eq (Nat.lt_succ_self _) hlen.symm
      · exact Nat.le_trans (Nat.le_succ _) (Nat.le_of_eq hlen.symm)
    case endLine =>
      have hlen : ((s.subscribe s.front none).refuse s.front (some .disposed)).lines.length =
          s.lines.length := by
        rw [length_lines_refuse, length_lines_subscribe]
      refine inFlight_lines h rfl rfl rfl h.abandoned ?_ rfl (Nat.le_of_eq hlen.symm)
      exact Nat.lt_of_lt_of_eq h.front hlen.symm
    case refuseSends fault =>
      have hlen := length_lines_refuse s s.front fault
      refine inFlight_lines h rfl rfl rfl h.abandoned ?_ rfl (Nat.le_of_eq hlen.symm)
      exact Nat.lt_of_lt_of_eq h.front hlen.symm
    all_goals cases hrewires

theorem inFlight_fresh (server : Server) (collector : Collector) (host : HostBehaviour)
    (exitWait : Nat) : (fresh server collector none host exitWait).InFlight where
  latest := fun _ ho => absurd ho (not_isOpen_of_length_le (Nat.zero_le _))
  current := fun _ ho => nomatch ho
  detached := fun _ => rfl
  abandoned := fun ha => nomatch ha
  front := Nat.zero_lt_one
  channel := fun _ hl => nomatch hl

theorem inFlight_after {s : Session} (k : s.WellKept) (h : s.InFlight) (steps : List Step) :
    (s.after steps).InFlight :=
  (after_induction k h (fun _ k h step => inFlight_step k h step) steps).2

theorem closed_start (s : Session) (r : StartRequest) (observer : Observer) :
    (s.step .quiet [] (r.step observer)).2.closed = s.closed := by
  cases hfault : s.startFault? r with
  | some f =>
    rw [step_start_refused s r observer f hfault]
    rfl
  | none =>
    obtain ⟨-, -, ⟨line, hline⟩, -⟩ := (startFault?_eq_none_iff s r).mp hfault
    exact (step_start_fields s r observer line hfault hline).2.1

theorem closed_step_eq {s : Session} (k : s.WellKept) (step : Step) :
    (s.step .quiet [] step).2.closed = (s.closed || step.closes) := by
  cases hrewires : step.rewires with
  | false =>
    rw [(sameWiring_step k step hrewires).closed, Step.closes_eq_false hrewires, Bool.or_false]
  | true =>
    cases step
    case discover criteria observer =>
      exact (closed_start s (.discovery criteria) observer).trans (Bool.or_false _).symm
    case run criteria observer =>
      exact (closed_start s (.execution criteria) observer).trans (Bool.or_false _).symm
    case close => exact (closed_close s).trans (Bool.or_true _).symm
    case leave =>
      rw [step_leave k.manager]
      exact (closed_close s).trans (Bool.or_true _).symm
    case replaceLine => exact (Bool.or_false _).symm
    case endLine => exact (Bool.or_false _).symm
    case refuseSends fault => exact (Bool.or_false _).symm
    all_goals cases hrewires

theorem closed_step {s : Session} (k : s.WellKept) (step : Step) (h : s.closed = true) :
    (s.step .quiet [] step).2.closed = true := by
  rw [closed_step_eq k step, h, Bool.true_or]

theorem closed_after {s : Session} (k : s.WellKept) (steps : List Step) (h : s.closed = true) :
    (s.after steps).closed = true :=
  (after_induction k h (fun _ k h step => closed_step k step h) steps).2

theorem length_after {s : Session} (k : s.WellKept) (steps : List Step) :
    s.operations.length ≤ (s.after steps).operations.length := by
  induction steps generalizing s with
  | nil => exact Nat.le_refl _
  | cons step steps ih =>
    apply Nat.le_trans _ (ih (wellKept_outcome k (step_outcome k step)))
    rcases length_step k step with hlen | ⟨hlen, -⟩ <;> omega

def subscriber? (s : Session) (line : Nat) : Option Nat := s.lines[line]?.bind (·.subscriber)

def Ends (s : Session) (line : Nat) (steps : List Step) : Prop :=
  ∃ i, steps[i]? = some .endLine ∧ (s.after (steps.take i)).front = line

theorem subscriber?_refuse (s : Session) (other : Nat) (f : Option ChannelFault) (line : Nat) :
    (s.refuse other f).subscriber? line = s.subscriber? line := by
  rw [subscriber?, refuse, List.getElem?_modify, subscriber?]
  by_cases heq : other = line <;> cases s.lines[line]? <;>
    simp only [heq, if_true, if_false] <;> rfl

theorem subscriber?_subscribe_other (s : Session) {other line : Nat} (o : Option Nat)
    (h : other ≠ line) : (s.subscribe other o).subscriber? line = s.subscriber? line := by
  rw [subscriber?, subscribe, List.getElem?_modify, subscriber?]
  cases s.lines[line]? <;> simp only [h, if_false] <;> rfl

theorem subscriber?_subscribe_self (s : Session) {line : Nat} (o : Option Nat)
    (h : line < s.lines.length) : (s.subscribe line o).subscriber? line = o := by
  rw [subscriber?, subscribe, List.getElem?_modify, List.getElem?_eq_getElem h]
  simp only [if_true]
  rfl

theorem subscriber?_close (s : Session) {line : Nat} (h : line < s.lines.length) :
    s.close.subscriber? line = s.subscriber? line ∨ s.close.subscriber? line = none := by
  unfold close
  split
  · exact Or.inl rfl
  · dsimp only
    split
    · exact Or.inl rfl
    · rename_i channel _
      by_cases heq : channel = line
      · subst heq
        exact Or.inr (subscriber?_subscribe_self _ none h)
      · exact Or.inl (subscriber?_subscribe_other _ none heq)

def LineKept (s t : Session) (line : Nat) (reason : Prop) : Prop :=
  line < t.lines.length ∧
    (t.subscriber? line = s.subscriber? line ∨ t.subscriber? line = none ∧ reason)

theorem lineKept_of_lines {s t : Session} {line : Nat} (reason : Prop)
    (hline : line < s.lines.length) (h : t.lines = s.lines) : LineKept s t line reason := by
  rw [LineKept, subscriber?, subscriber?, h]
  exact ⟨hline, Or.inl rfl⟩

theorem lineKept_close {s : Session} {line : Nat} (hline : line < s.lines.length) :
    LineKept s s.close line (s.close.closed = true) := by
  refine ⟨Nat.lt_of_lt_of_eq hline (length_lines_close s).symm, ?_⟩
  rcases subscriber?_close s hline with h | h
  · exact Or.inl h
  · exact Or.inr ⟨h, closed_close s⟩

theorem lineKept_start {s : Session} {line : Nat} (reason : Prop) (hline : line < s.lines.length)
    (r : StartRequest) (observer : Observer)
    (hlen : (s.step .quiet [] (r.step observer)).2.operations.length = s.operations.length) :
    LineKept s (s.step .quiet [] (r.step observer)).2 line reason := by
  cases hfault : s.startFault? r with
  | none =>
    obtain ⟨-, -, ⟨channel, hchannel⟩, -⟩ := (startFault?_eq_none_iff s r).mp hfault
    obtain ⟨-, -, -, -, -, -, hgrown⟩ := step_start_fields s r observer channel hfault hchannel
    omega
  | some f =>
    rw [step_start_refused s r observer f hfault]
    exact lineKept_of_lines reason hline rfl

theorem lineKept_endLine {s : Session} {line : Nat} (hline : line < s.lines.length) :
    LineKept s (s.step .quiet [] .endLine).2 line (s.front = line) := by
  constructor
  · change line < ((s.subscribe s.front none).refuse s.front (some .disposed)).lines.length
    rwa [length_lines_refuse, length_lines_subscribe]
  · have hrefuse := subscriber?_refuse (s.subscribe s.front none) s.front (some .disposed) line
    by_cases heq : s.front = line
    · refine Or.inr ⟨hrefuse.trans ?_, heq⟩
      rw [heq]
      exact subscriber?_subscribe_self s none hline
    · exact Or.inl (hrefuse.trans (subscriber?_subscribe_other s none heq))

theorem lineKept_step {s : Session} (k : s.WellKept) {line : Nat} (hline : line < s.lines.length)
    (step : Step)
    (hlen : (s.step .quiet [] step).2.operations.length = s.operations.length) :
    LineKept s (s.step .quiet [] step).2 line
      ((s.step .quiet [] step).2.closed = true ∨ step = .endLine ∧ s.front = line) := by
  cases hrewires : step.rewires with
  | false => exact lineKept_of_lines _ hline (sameWiring_step k step hrewires).lines
  | true =>
    cases step
    case discover criteria observer =>
      exact lineKept_start _ hline (.discovery criteria) observer hlen
    case run criteria observer =>
      exact lineKept_start _ hline (.execution criteria) observer hlen
    case close =>
      obtain ⟨hlt, h⟩ := lineKept_close hline
      exact ⟨hlt, h.imp_right fun h => ⟨h.1, Or.inl h.2⟩⟩
    case leave =>
      obtain ⟨hlt, h⟩ := lineKept_close hline
      rw [step_leave k.manager]
      exact ⟨hlt, h.imp_right fun h => ⟨h.1, Or.inl h.2⟩⟩
    case replaceLine =>
      have hlen : (s.lines ++ [Line.fresh]).length = s.lines.length + 1 := List.length_append
      refine ⟨Nat.lt_of_lt_of_eq (Nat.lt_succ_of_lt hline) hlen.symm, Or.inl ?_⟩
      · change (s.lines ++ [Line.fresh])[line]?.bind (·.subscriber) = _
        rw [List.getElem?_append_left hline, subscriber?]
    case endLine =>
      obtain ⟨hlt, h⟩ := lineKept_endLine hline
      exact ⟨hlt, h.imp_right fun h => ⟨h.1, Or.inr ⟨rfl, h.2⟩⟩⟩
    case refuseSends fault =>
      refine ⟨?_, Or.inl (subscriber?_refuse s s.front fault line)⟩
      exact Nat.lt_of_lt_of_eq hline (length_lines_refuse s s.front fault).symm
    all_goals cases hrewires

theorem ends_cons {s : Session} {line : Nat} {step : Step} {steps : List Step}
    (h : (s.step .quiet [] step).2.Ends line steps) : s.Ends line (step :: steps) := by
  obtain ⟨i, hi, hfront⟩ := h
  exact ⟨i + 1, hi, hfront⟩

theorem lineKept_after {s : Session} (k : s.WellKept) {line : Nat} (hline : line < s.lines.length)
    (steps : List Step) (hlen : (s.after steps).operations.length = s.operations.length) :
    LineKept s (s.after steps) line ((s.after steps).closed = true ∨ s.Ends line steps) := by
  induction steps generalizing s with
  | nil => exact lineKept_of_lines _ hline rfl
  | cons step steps ih =>
    let t := (s.step .quiet [] step).2
    have kt : t.WellKept := wellKept_outcome k (step_outcome k step)
    -- Operations are never forgotten, so the first of the steps started none either.
    have htlen : t.operations.length = s.operations.length := by
      have hlater : t.operations.length ≤ s.operations.length :=
        Nat.le_trans (length_after kt steps) (Nat.le_of_eq hlen)
      rcases length_step k step with heq | ⟨heq, -⟩
      · exact heq
      · have hgrown : t.operations.length = s.operations.length + 1 := heq
        omega
    obtain ⟨htline, hstep⟩ := lineKept_step k hline step htlen
    obtain ⟨hafter, hsteps⟩ := ih kt htline (hlen.trans htlen.symm)
    refine ⟨hafter, ?_⟩
    rcases hsteps with hsame | ⟨hnone, hreason⟩
    · rcases hstep with hkept | ⟨hlost, hclosed | ⟨rfl, hfront⟩⟩
      · exact Or.inl (hsame.trans hkept)
      · exact Or.inr ⟨hsame.trans hlost, Or.inl (closed_after kt steps hclosed)⟩
      · exact Or.inr ⟨hsame.trans hlost, Or.inr ⟨0, rfl, hfront⟩⟩
    · exact Or.inr ⟨hnone, hreason.imp_right ends_cons⟩

end Session

end HostedTests
