import HostedTests.Proofs.Session.Outcome

namespace HostedTests

inductive Concludes : Bool → List Notice → Prop where
  | ongoing (ns : List Notice) : (∀ n ∈ ns, n.isCompletion = false) → Concludes false ns
  | concluded (ns : List Notice) (n : Notice) :
    (∀ m ∈ ns, m.isCompletion = false) → n.isCompletion = true → Concludes true (ns ++ [n])

namespace Concludes

theorem nil : Concludes false [] := .ongoing [] fun _ h => absurd h List.not_mem_nil

theorem append {ns ms : List Notice} {b : Bool} (h : Concludes false ns) (k : Concludes b ms) :
    Concludes b (ns ++ ms) := by
  cases h with
  | ongoing _ hns =>
    cases k with
    | ongoing _ hms =>
      refine .ongoing _ ?_
      intro n hn
      rcases List.mem_append.mp hn with hn | hn
      · exact hns n hn
      · exact hms n hn
    | concluded ps n hps hn =>
      rw [← List.append_assoc]
      refine .concluded _ n ?_ hn
      intro m hm
      rcases List.mem_append.mp hm with hm | hm
      · exact hns m hm
      · exact hps m hm

theorem any {b : Bool} {ns : List Notice} (h : Concludes b ns) :
    ns.any Notice.isCompletion = b := by
  cases h with
  | ongoing _ hns =>
    rw [List.any_eq_false]
    intro n hn
    rw [hns n hn]
    exact Bool.false_ne_true
  | concluded ms n _ hn => rw [List.any_append, List.any_cons, hn, Bool.true_or, Bool.or_true]

theorem countP {b : Bool} {ns : List Notice} (h : Concludes b ns) :
    ns.countP Notice.isCompletion = if b then 1 else 0 := by
  have hzero : ∀ ms : List Notice, (∀ m ∈ ms, m.isCompletion = false) →
      ms.countP Notice.isCompletion = 0 := by
    intro ms hms
    rw [List.countP_eq_zero]
    intro m hm
    rw [hms m hm]
    exact Bool.false_ne_true
  cases h with
  | ongoing _ hns => exact hzero _ hns
  | concluded ms n hms hn =>
    rw [List.countP_append, hzero ms hms, List.countP_cons, hn]
    rfl

theorem dropLast {b : Bool} {ns : List Notice} (h : Concludes b ns) :
    ∀ n ∈ ns.dropLast, n.isCompletion = false := by
  cases h with
  | ongoing _ hns => exact fun n hn => hns n ((List.dropLast_sublist ns).subset hn)
  | concluded ms n hms _ =>
    rw [List.dropLast_concat]
    exact hms

theorem ongoing_before {b : Bool} {ns ms : List Notice} {n : Notice}
    (h : Concludes b (ns ++ n :: ms)) : ns.any Notice.isCompletion = false := by
  have hlast := h.dropLast
  rw [List.dropLast_append_cons] at hlast
  rw [List.any_eq_false]
  intro m hm
  rw [hlast m (List.mem_append_left _ hm)]
  exact Bool.false_ne_true

theorem getLast? {ns : List Notice} {n : Notice} (h : Concludes true ns) (hmem : n ∈ ns)
    (hn : n.isCompletion = true) : ns.getLast? = some n := by
  cases h with
  | concluded ms m hms hm =>
    rcases List.mem_append.mp hmem with hmem | hmem
    · rw [hms n hmem] at hn
      cases hn
    · rw [List.mem_singleton.mp hmem]
      exact List.getLast?_concat

end Concludes

theorem concludes_abortBlock (k : OperationKind) (cause : String) :
    Concludes true (k.abortBlock cause) := by
  refine .concluded [_, _, _] _ ?_ (k.isCompletion_abortNotice _)
  intro n hn
  simp only [List.mem_cons, List.not_mem_nil, or_false] at hn
  rcases hn with rfl | rfl | rfl <;> rfl

theorem concludes_exitBlock (k : OperationKind) (stderr : String) :
    Concludes true (k.exitBlock stderr) := by
  refine .concluded [_, _] _ ?_ (k.isCompletion_abortNotice _)
  intro n hn
  simp only [List.mem_cons, List.not_mem_nil, or_false] at hn
  rcases hn with rfl | rfl <;> rfl

theorem concludes_single (n : Notice) (h : n.isCompletion = false) : Concludes false [n] := by
  refine .ongoing _ ?_
  intro m hm
  rw [List.mem_singleton.mp hm]
  exact h

namespace Session

theorem concludes_hearingBlock (s : Session) (op : Operation) (text : String) :
    ∃ b, Concludes b (s.hearingBlock op text) := by
  have hraw : Concludes false [.raw text] := concludes_single _ rfl
  unfold hearingBlock
  split
  · exact ⟨true, hraw.append (concludes_abortBlock _ _)⟩
  · rename_i info _
    have hlaunch : Concludes false [.launchUnderDebugger info] := concludes_single _ rfl
    split
    · exact ⟨true, hraw.append (hlaunch.append (concludes_abortBlock _ _))⟩
    · exact ⟨false, hraw.append hlaunch⟩
  · rename_i n _ _
    cases hn : n.isCompletion with
    | false => exact ⟨false, hraw.append (concludes_single n hn)⟩
    | true =>
      refine ⟨true, hraw.append (.concluded [] n ?_ hn)⟩
      intro m hm
      cases hm

theorem concludes_block (s : Session) (op : Operation) (step : Step) :
    ∃ b, Concludes b (s.block op step) := by
  unfold block
  split
  · exact concludes_hearingBlock s op _
  · exact ⟨true, concludes_abortBlock _ _⟩
  · exact ⟨true, concludes_abortBlock _ _⟩
  · exact ⟨true, concludes_abortBlock _ _⟩
  · exact ⟨true, concludes_exitBlock _ _⟩
  · exact ⟨false, .nil⟩

def share (s : Session) (o : Nat) (op : Operation) (step : Step) : List Notice :=
  if op.state.completed = false ∧ s.target step = some o then s.block op step else []

theorem share_of_completed (s : Session) (o : Nat) (op : Operation) (step : Step)
    (h : op.state.completed = true) : s.share o op step = [] := by
  rw [share, h, if_neg fun h => Bool.noConfusion h.1]

theorem share_of_not_target (s : Session) (o : Nat) (op : Operation) (step : Step)
    (h : s.target step ≠ some o) : s.share o op step = [] := by
  rw [share, if_neg fun k => h k.2]

theorem aside_operation {s t : Session} (k : s.WellKept) (h : s.Aside t) (o : Nat)
    (op : Operation) (hop : s.operations[o]? = some op) :
    t.operations[o]? = some op ∧ t.told op.party = s.told op.party := by
  refine ⟨?_, h.told _ (k.bare o op hop)⟩
  rw [h.operations, hop]

theorem target_start (s : Session) (r : StartRequest) (observer : Observer) :
    s.target (r.step observer) = none := by
  cases r <;> rfl

theorem started_operation {s : Session} (r : StartRequest) (observer : Observer) (line : Nat)
    {o : Nat} {op : Operation} (hop : s.operations[o]? = some op) :
    (s.started r observer line).operations[o]? = some op := by
  obtain ⟨hlt, -⟩ := List.getElem?_eq_some_iff.mp hop
  change (s.operations ++ _)[o]? = some op
  rw [List.getElem?_append_left hlt, hop]

theorem outcome_share {s t : Session} (k : s.WellKept) {step : Step} (outcome : Outcome s step t)
    (o : Nat) (op : Operation) (hop : s.operations[o]? = some op) :
    t.operations[o]? = some (op.after (s.share o op step)) ∧
      t.told op.party = s.told op.party ++ s.share o op step := by
  obtain ⟨hlt, -⟩ := List.getElem?_eq_some_iff.mp hop
  -- In all cases but one the step is nothing to the operation, and its share is empty.
  have hidle : s.share o op step = [] → t.operations[o]? = some op →
      t.told op.party = s.told op.party →
      t.operations[o]? = some (op.after (s.share o op step)) ∧
        t.told op.party = s.told op.party ++ s.share o op step := by
    intro hshare hops htold
    rw [hshare, Operation.after_nil, List.append_nil]
    exact ⟨hops, htold⟩
  cases outcome with
  | aside htarget h =>
    obtain ⟨hops, htold⟩ := aside_operation k h o op hop
    refine hidle ?_ hops htold
    by_cases ht : s.target step = some o
    · exact share_of_completed s o op step (htarget o op ht hop)
    · exact share_of_not_target s o op step ht
  | informed o' op' htarget hears h =>
    have hkept := wellKept_inform k hears.registered (s.block op' step)
    by_cases heq : o' = o
    · subst heq
      have hsame : op' = op := Option.some.inj (hears.registered.symm.trans hop)
      subst hsame
      have hshare : s.share o' op' step = s.block op' step := by
        rw [share, if_pos ⟨hears.incomplete, htarget⟩]
      have hget : (s.inform o' op' (s.block op' step)).operations[o']? =
          some (op'.after (s.block op' step)) := List.getElem?_set_self hlt
      obtain ⟨hops, htold⟩ := aside_operation hkept h o' _ hget
      rw [hshare]
      exact ⟨hops, htold.trans (told_inform_self s o' op' _)⟩
    · have hget : (s.inform o' op' (s.block op' step)).operations[o]? = some op := by
        rw [inform, List.getElem?_set_ne heq, hop]
      have hne : op'.party ≠ op.party := fun hp => heq (k.distinct _ _ _ _ hears.registered hop hp)
      obtain ⟨hops, htold⟩ := aside_operation hkept h o op hget
      refine hidle ?_ hops (htold.trans (told_inform_other s o' op' _ hne))
      refine share_of_not_target s o op step fun ht => heq ?_
      exact Option.some.inj (htarget.symm.trans ht)
  | started r observer line hstep _ _ h =>
    have hkept := wellKept_inform (wellKept_started k r observer line)
      (hears_started s r observer line).registered (s.opening r)
    have hne : s.nextParty ≠ op.party := (ne_of_lt (k.enrolled o op hop)).symm
    have hget : ((s.started r observer line).inform s.operations.length
        ⟨.fresh r.kind, s.nextParty⟩ (s.opening r)).operations[o]? = some op := by
      rw [inform, List.getElem?_set_ne (ne_of_lt hlt).symm]
      exact started_operation r observer line hop
    obtain ⟨hops, htold⟩ := aside_operation hkept h o op hget
    refine hidle ?_ hops (htold.trans (told_inform_other _ _ _ _ hne))
    apply share_of_not_target s o op step
    rw [hstep, target_start]
    exact (Option.some_ne_none o).symm

theorem step_share {s : Session} (k : s.WellKept) (step : Step) (o : Nat) (op : Operation)
    (hop : s.operations[o]? = some op) :
    let t := (s.step .quiet [] step).2
    t.operations[o]? = some (op.after (s.share o op step)) ∧
      t.told op.party = s.told op.party ++ s.share o op step :=
  outcome_share k (step_outcome k step) o op hop

theorem outcome_registers {s t : Session} (k : s.WellKept) {step : Step}
    (outcome : Outcome s step t) (o : Nat) (op : Operation) (hnew : s.operations.length ≤ o)
    (hop : t.operations[o]? = some op) :
    o = s.operations.length ∧ ∃ (r : StartRequest) (observer : Observer) (line : Nat),
      step = r.step observer ∧ s.startFault? r = none ∧ s.channel = some line ∧
      op = Operation.after ⟨.fresh r.kind, s.nextParty⟩ (s.opening r) ∧
      t.told op.party = s.opening r := by
  have hnone : s.operations[o]? = none := List.getElem?_eq_none hnew
  cases outcome with
  | aside _ h =>
    rw [h.operations, hnone] at hop
    cases hop
  | informed o' op' _ _ h =>
    have hlen : (s.operations.set o' (op'.after (s.block op' step))).length ≤ o := by
      rwa [List.length_set]
    rw [h.operations, inform, List.getElem?_eq_none hlen] at hop
    cases hop
  | started r observer line hstep hfault hline h =>
    let u := s.started r observer line
    have hlen : u.operations.length = s.operations.length + 1 := List.length_append
    rw [h.operations, inform] at hop
    obtain ⟨hlt, -⟩ := List.getElem?_eq_some_iff.mp hop
    rw [List.length_set] at hlt
    have ho : o = s.operations.length := by
      change o < u.operations.length at hlt
      omega
    subst ho
    rw [List.getElem?_set_self hlt] at hop
    have hop' := Option.some.inj hop
    subst hop'
    refine ⟨rfl, r, observer, line, hstep, hfault, hline, rfl, ?_⟩
    have hbare := collection?_nextParty_welcome s observer
    have hunheard : u.told s.nextParty = [] := k.unheard s.nextParty (Nat.le_refl _)
    apply (h.told _ hbare).trans
    apply (told_inform_self u _ ⟨.fresh r.kind, s.nextParty⟩ _).trans
    exact (congrArg (· ++ s.opening r) hunheard).trans (List.nil_append _)

theorem step_registers {s : Session} (k : s.WellKept) (step : Step) (o : Nat) (op : Operation)
    (hnew : s.operations.length ≤ o)
    (hop : (s.step .quiet [] step).2.operations[o]? = some op) :
    o = s.operations.length ∧ ∃ (r : StartRequest) (observer : Observer) (line : Nat),
      step = r.step observer ∧ s.startFault? r = none ∧ s.channel = some line ∧
      op = Operation.after ⟨.fresh r.kind, s.nextParty⟩ (s.opening r) ∧
      (s.step .quiet [] step).2.told op.party = s.opening r :=
  outcome_registers k (step_outcome k step) o op hnew hop

def IsOpen (s : Session) (o : Nat) : Prop :=
  ∃ op, s.operations[o]? = some op ∧ op.state.completed = false

theorem not_isOpen_of_length_le {s : Session} {o : Nat} (h : s.operations.length ≤ o) :
    ¬s.IsOpen o := by
  rintro ⟨op, hop, -⟩
  rw [List.getElem?_eq_none h] at hop
  cases hop

theorem isOpen_of_step {s : Session} (k : s.WellKept) (step : Step) (o : Nat)
    (h : (s.step .quiet [] step).2.IsOpen o) :
    s.IsOpen o ∨ o = s.operations.length ∧ ∃ (r : StartRequest) (observer : Observer),
      step = r.step observer ∧ s.startFault? r = none := by
  obtain ⟨op, hop, hopen⟩ := h
  rcases Nat.lt_or_ge o s.operations.length with hlt | hge
  · have hget : s.operations[o]? = some s.operations[o] := List.getElem?_eq_getElem hlt
    obtain ⟨hafter, -⟩ := step_share k step o _ hget
    rw [hafter] at hop
    cases hop
    rw [Operation.after_completed, Bool.or_eq_false_iff] at hopen
    exact Or.inl ⟨_, hget, hopen.1⟩
  · obtain ⟨ho, r, observer, -, hstep, hfault, -⟩ := step_registers k step o op hge hop
    exact Or.inr ⟨ho, r, observer, hstep, hfault⟩

theorem length_step {s : Session} (k : s.WellKept) (step : Step) :
    (s.step .quiet [] step).2.operations.length = s.operations.length ∨
      (s.step .quiet [] step).2.operations.length = s.operations.length + 1 ∧
        ∃ (r : StartRequest) (observer : Observer),
          step = r.step observer ∧ s.startFault? r = none := by
  cases step_outcome k step with
  | aside _ h => exact Or.inl (congrArg List.length h.operations)
  | informed o op _ _ h =>
    refine Or.inl ((congrArg List.length h.operations).trans ?_)
    rw [inform, List.length_set]
  | started r observer line hstep hfault _ h =>
    refine Or.inr ⟨(congrArg List.length h.operations).trans ?_, r, observer, hstep, hfault⟩
    rw [inform, List.length_set]
    exact List.length_append

end Session

end HostedTests
