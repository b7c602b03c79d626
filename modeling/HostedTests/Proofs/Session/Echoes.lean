import HostedTests.Proofs.Session.Transcript

namespace HostedTests

theorem Message.kind_of_carries {α β : Type} [Payload α] [Payload β] {text : String}
    {k k' : Message.Kind} {a : α} {b : β} (ha : Message.Carries text k a)
    (hb : Message.Carries text k' b) : k = k' := by
  obtain ⟨m, hm, rfl, -⟩ := ha
  obtain ⟨m', hm', rfl, -⟩ := hb
  rw [Except.ok.inj (hm.symm.trans hm')]

structure Echoed (ns : List Notice) : Prop where
  typed : ∀ n ∈ ns, n.isCompletion = true → ∃ r, n = .runComplete r
  told : ∀ (text : String) (c : RunCompletion) (r : RunReport), .raw text ∈ ns →
    Message.Carries text .executionComplete c → c.report? = some r → .runComplete r ∈ ns

namespace Echoed

theorem nil : Echoed [] where
  typed := fun _ h => absurd h List.not_mem_nil
  told := fun _ _ _ h => absurd h List.not_mem_nil

theorem append {ns ms : List Notice} (h : Echoed ns) (k : Echoed ms) : Echoed (ns ++ ms) where
  typed := by
    intro n hn
    rcases List.mem_append.mp hn with hn | hn
    · exact h.typed n hn
    · exact k.typed n hn
  told := by
    intro text c r hraw hc hr
    rw [List.mem_append]
    rcases List.mem_append.mp hraw with hraw | hraw
    · exact Or.inl (h.told text c r hraw hc hr)
    · exact Or.inr (k.told text c r hraw hc hr)

theorem cons {n : Notice} {ns : List Notice} (h : Echoed ns)
    (htyped : n.isCompletion = true → ∃ r, n = .runComplete r)
    (htold : ∀ text c r, n = .raw text → Message.Carries text .executionComplete c →
      RunCompletion.report? c = some r → .runComplete r ∈ ns) : Echoed (n :: ns) where
  typed := by
    intro m hm
    rcases List.mem_cons.mp hm with rfl | hm
    · exact htyped
    · exact h.typed m hm
  told := by
    intro text c r hraw hc hr
    apply List.mem_cons_of_mem
    rcases List.mem_cons.mp hraw with hraw | hraw
    · exact htold text c r hraw.symm hc hr
    · exact h.told text c r hraw hc hr

theorem cons_plain {n : Notice} {ns : List Notice} (h : Echoed ns) (hn : n.isCompletion = false)
    (hraw : ∀ text, n ≠ .raw text) : Echoed (n :: ns) := by
  apply h.cons
  · intro hc
    rw [hn] at hc
    cases hc
  · intro text c r heq
    exact absurd heq (hraw text)

theorem cons_raw {text : String} {ns : List Notice} (h : Echoed ns)
    (htold : ∀ c r, Message.Carries text .executionComplete c → RunCompletion.report? c = some r →
      .runComplete r ∈ ns) : Echoed (.raw text :: ns) := by
  apply h.cons
  · intro hc
    cases hc
  · intro text' c r heq
    cases heq
    exact htold c r

theorem runComplete (r : RunReport) : Echoed [.runComplete r] := by
  apply nil.cons
  · exact fun _ => ⟨r, rfl⟩
  · intro text c r' heq
    cases heq

theorem cons_remark {ns : List Notice} (h : Echoed ns) (r : Remark) :
    Echoed (.raw r.message.text :: ns) := by
  apply h.cons_raw
  intro c _ hc
  have hkind := Message.kind_of_carries (carries_remark r) hc
  cases hkind

end Echoed

namespace OperationKind

theorem hear_of_carries {text : String} {c : RunCompletion} {r : RunReport}
    (hc : Message.Carries text .executionComplete c) (hr : c.report? = some r) :
    execution.hear text = .ok (.runComplete r) := by
  obtain ⟨e, he, rfl⟩ := Option.map_eq_some_iff.mp hr
  exact hear_of_means _ _ _ (.runComplete text c e hc he)

theorem echoed_abortBlock (cause : String) : Echoed (execution.abortBlock cause) := by
  let reason := execution.abortReason cause
  refine Echoed.cons_plain ?_ rfl (by rintro _ ⟨⟩)
  apply Echoed.cons_remark
  apply (Echoed.runComplete _).cons_raw
  intro c r hc hr
  have hsame : c = .only (.aborted (some reason)) :=
    Message.carries_unique hc (readsAborted_abortMessage execution reason)
  subst hsame
  cases hr
  exact List.mem_singleton_self _

theorem echoed_exitBlock (stderr : String) : Echoed (execution.exitBlock stderr) := by
  refine Echoed.cons_plain ?_ rfl (by rintro _ ⟨⟩)
  apply Echoed.cons_remark
  exact Echoed.runComplete _

theorem echoed_of_means {text : String} {n : Notice} (h : execution.Means text n) :
    Echoed [n] := by
  cases h
  case runComplete => exact Echoed.runComplete _
  all_goals exact Echoed.nil.cons_plain rfl (by rintro _ ⟨⟩)

end OperationKind

namespace Session

theorem echoed_hearingBlock (s : Session) {op : Operation} (hop : op.state.kind = .execution)
    (text : String) : Echoed (s.hearingBlock op text) := by
  unfold hearingBlock
  rw [hop]
  have hcarried {n : Except Trouble Notice} (hhear : OperationKind.execution.hear text = n)
      (c : RunCompletion) (r : RunReport) (hc : Message.Carries text .executionComplete c)
      (hr : c.report? = some r) : n = .ok (.runComplete r) :=
    hhear.symm.trans (OperationKind.hear_of_carries hc hr)
  split
  · rename_i t hhear
    apply (OperationKind.echoed_abortBlock t.text).cons_raw
    intro c r hc hr
    cases hcarried hhear c r hc hr
  · rename_i info hhear
    refine Echoed.cons_raw (Echoed.cons_plain ?_ rfl (by rintro _ ⟨⟩)) ?_
    · split
      · exact OperationKind.echoed_abortBlock _
      · exact Echoed.nil
    · intro c r hc hr
      cases hcarried hhear c r hc hr
  · rename_i n _ hhear
    apply (OperationKind.echoed_of_means (OperationKind.means_of_hear _ _ _ hhear)).cons_raw
    intro c r hc hr
    rw [Except.ok.inj (hcarried hhear c r hc hr)]
    exact List.mem_singleton_self _

theorem echoed_block (s : Session) {op : Operation} (hop : op.state.kind = .execution)
    (step : Step) : Echoed (s.block op step) := by
  unfold block
  rw [hop]
  split
  · exact echoed_hearingBlock s hop _
  · exact OperationKind.echoed_abortBlock _
  · exact OperationKind.echoed_abortBlock _
  · exact OperationKind.echoed_abortBlock _
  · exact OperationKind.echoed_exitBlock _
  · exact Echoed.nil

theorem echoed_opening (s : Session) {r : StartRequest} (hr : r.kind = .execution) :
    Echoed (s.opening r) := by
  unfold opening
  rw [hr]
  split
  · exact Echoed.nil
  · exact OperationKind.echoed_abortBlock _

def RunsEchoed (s : Session) : Prop :=
  ∀ (o : Nat) (op : Operation), s.operations[o]? = some op → op.state.kind = .execution →
    Echoed (s.told op.party)

theorem runsEchoed_step {s : Session} (k : s.WellKept) (h : s.RunsEchoed) (step : Step) :
    (s.step .quiet [] step).2.RunsEchoed := by
  intro o op' hop' hkind
  rcases Nat.lt_or_ge o s.operations.length with hlt | hge
  · have hop : s.operations[o]? = some s.operations[o] := List.getElem?_eq_getElem hlt
    obtain ⟨hget, htold⟩ := step_share k step o _ hop
    rw [hget] at hop'
    cases hop'
    rw [Operation.after_party, htold]
    apply (h o _ hop hkind).append
    unfold share
    split
    · exact echoed_block s hkind step
    · exact Echoed.nil
  · obtain ⟨-, r, -, -, -, -, -, rfl, htold⟩ := step_registers k step o op' hge hop'
    rw [htold]
    exact echoed_opening s hkind

theorem runsEchoed_after {s : Session} (k : s.WellKept) (h : s.RunsEchoed) (steps : List Step) :
    (s.after steps).RunsEchoed :=
  (after_induction k h (fun _ k h step => runsEchoed_step k h step) steps).2

end Session

end HostedTests
