import HostedTests.Proofs.Session.Progress

namespace HostedTests.Session

theorem concludes_opening (s : Session) (r : StartRequest) : ∃ b, Concludes b (s.opening r) := by
  unfold opening
  split
  · exact ⟨false, .nil⟩
  · exact ⟨true, concludes_abortBlock _ _⟩

theorem concludes_share (s : Session) (o : Nat) (op : Operation) (step : Step) :
    ∃ b, Concludes b (s.share o op step) := by
  unfold share
  split
  · exact concludes_block s op step
  · exact ⟨false, .nil⟩

def Concluded (s : Session) : Prop :=
  ∀ (o : Nat) (op : Operation), s.operations[o]? = some op →
    Concludes op.state.completed (s.told op.party)

theorem concludes_after {s t : Session} {op : Operation} {ns : List Notice}
    (h : Concludes op.state.completed (s.told op.party)) (hns : ∃ b, Concludes b ns)
    (hlast : op.state.completed = true → ns = [])
    (htold : t.told op.party = s.told op.party ++ ns) :
    Concludes (op.after ns).state.completed (t.told (op.after ns).party) := by
  obtain ⟨b, hb⟩ := hns
  rw [Operation.after_party, htold, Operation.after_completed]
  cases hc : op.state.completed with
  | true =>
    rw [hlast hc, List.append_nil, Bool.true_or]
    rwa [hc] at h
  | false =>
    rw [hc] at h
    rw [Bool.false_or, hb.any]
    exact h.append hb

theorem concluded_outcome {s t : Session} (k : s.WellKept) (h : s.Concluded) {step : Step}
    (outcome : Outcome s step t) : t.Concluded := by
  intro o op' hop'
  rcases Nat.lt_or_ge o s.operations.length with hlt | hge
  · have hop : s.operations[o]? = some s.operations[o] := List.getElem?_eq_getElem hlt
    obtain ⟨hget, htold⟩ := outcome_share k outcome o _ hop
    rw [hget] at hop'
    cases hop'
    exact concludes_after (h o _ hop) (concludes_share s o _ step)
      (share_of_completed s o _ step) htold
  · obtain ⟨-, r, -, -, -, -, -, rfl, htold⟩ := outcome_registers k outcome o op' hge hop'
    obtain ⟨b, hb⟩ := concludes_opening s r
    rw [htold, Operation.after_completed, hb.any]
    exact hb

theorem concluded_step {s : Session} (k : s.WellKept) (h : s.Concluded) (step : Step) :
    (s.step .quiet [] step).2.Concluded :=
  concluded_outcome k h (step_outcome k step)

theorem concluded_after (server : Server) (collector : Collector) (host : HostBehaviour)
    (exitWait : Nat) (steps : List Step) :
    let s := (fresh server collector none host exitWait).after steps
    s.WellKept ∧ s.Concluded := by
  apply after_induction (wellKept_fresh server collector host exitWait)
  · intro o op h
    cases h
  · intro t k h step
    exact concluded_step k h step

theorem after_kept {s : Session} (k : s.WellKept) (steps : List Step) (o : Nat) (op : Operation)
    (hop : s.operations[o]? = some op) :
    ∃ ns, (s.after steps).operations[o]? = some (op.after ns) ∧
      (s.after steps).told op.party = s.told op.party ++ ns ∧
      (op.state.completed = true → ns = []) := by
  induction steps generalizing s op with
  | nil =>
    refine ⟨[], ?_, (List.append_nil _).symm, fun _ => rfl⟩
    rw [Operation.after_nil]
    exact hop
  | cons step steps ih =>
    obtain ⟨hget, htold⟩ := step_share k step o op hop
    obtain ⟨ns, hops, htold', hns⟩ := ih (wellKept_outcome k (step_outcome k step)) _ hget
    refine ⟨s.share o op step ++ ns, ?_, ?_, ?_⟩
    · rw [← Operation.after_after]
      exact hops
    · rw [← List.append_assoc, ← htold]
      exact htold'
    · intro hc
      have hshare := share_of_completed s o op step hc
      rw [hns (by rw [Operation.after_completed, hc, Bool.true_or]), hshare, List.append_nil]

theorem after_append (s : Session) (steps more : List Step) :
    s.after (steps ++ more) = (s.after steps).after more := List.foldl_append

def Reaches (kind : Step → Prop) (s t : Session) : Prop :=
  ∃ steps : List Step, (∀ step ∈ steps, kind step) ∧ t = s.after steps

namespace Reaches

variable {kind : Step → Prop} {s t u : Session}

theorem of_eq (h : t = s) : s.Reaches kind t :=
  ⟨[], fun _ hmem => absurd hmem List.not_mem_nil, h⟩

theorem trans (h : s.Reaches kind t) (h' : t.Reaches kind u) : s.Reaches kind u := by
  obtain ⟨steps, hsteps, rfl⟩ := h
  obtain ⟨more, hmore, rfl⟩ := h'
  refine ⟨steps ++ more, ?_, (after_append s steps more).symm⟩
  intro step hmem
  rcases List.mem_append.mp hmem with hmem | hmem
  · exact hsteps step hmem
  · exact hmore step hmem

theorem step (s : Session) {step : Step} (h : kind step) :
    s.Reaches kind (s.step .quiet [] step).2 :=
  ⟨[step], List.forall_mem_singleton.mpr h, rfl⟩

end Reaches

theorem completion_told_once (server : Server) (collector : Collector) (host : HostBehaviour)
    (exitWait : Nat) (steps more : List Step) (o : Nat) (op : Operation)
    (h : ((fresh server collector none host exitWait).after steps).operations[o]? = some op) :
    let s := (fresh server collector none host exitWait).after steps
    let t := (fresh server collector none host exitWait).after (steps ++ more)
    (s.told op.party).countP Notice.isCompletion = (if op.state.completed then 1 else 0) ∧
      (∀ n ∈ (s.told op.party).dropLast, n.isCompletion = false) ∧
      ∃ op', t.operations[o]? = some op' ∧ op'.party = op.party ∧
        op'.state.kind = op.state.kind ∧
        (op.state.completed = true → op'.state.completed = true ∧
          t.told op.party = s.told op.party) := by
  intro s t
  obtain ⟨k, hs⟩ := concluded_after server collector host exitWait steps
  have hconcludes := hs o op h
  obtain ⟨ns, hops, htold, hns⟩ := after_kept k more o op h
  have ht : t = s.after more := after_append _ steps more
  refine ⟨hconcludes.countP, hconcludes.dropLast, op.after ns, ?_, rfl, rfl, ?_⟩
  · rw [ht]
    exact hops
  · intro hc
    refine ⟨by rw [Operation.after_completed, hc, Bool.true_or], ?_⟩
    rw [ht, htold, hns hc, List.append_nil]

theorem completion_told_once_lost :
    let s := fresh (.fresh "4000" none false true) .idle none .elsewhere 0
    let steps : List Step :=
      [.listen, .connect, .discover (.ofSources ["a.dll"]) .plain, .disconnect none]
    ∃ op, (s.after steps).operations[0]? = some op ∧ op.state.completed = true ∧
      ((s.after steps).told op.party).countP Notice.isCompletion = 1 ∧
      (s.after (steps ++ [.disconnect none])).told op.party = (s.after steps).told op.party := by
  let server : Server := .fresh "4000" none false true
  let steps : List Step :=
    [.listen, .connect, .discover (.ofSources ["a.dll"]) .plain, .disconnect none]
  let op : Operation := ⟨⟨.discovery, true⟩, 0⟩
  have hop : ((fresh server .idle none .elsewhere 0).after steps).operations[0]? = some op := by
    decide +kernel
  obtain ⟨hcount, -, op', -, -, -, hkept⟩ :=
    completion_told_once server .idle .elsewhere 0 steps [.disconnect none] 0 op hop
  exact ⟨op, hop, rfl, hcount, (hkept rfl).2⟩

end HostedTests.Session
