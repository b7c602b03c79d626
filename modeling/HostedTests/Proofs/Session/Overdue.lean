import HostedTests.Proofs.Session.Closing

/-!
Waits that outlast a session. A wait for a host's exit keeps its operation, also when the session is
closed meanwhile; when the wait ends and the operation is not completed, its observer is told that
it was aborted.
-/

namespace HostedTests

namespace Session

def firstFor? (o : Nat) : Session → List Step → Option (Session × Step)
  | _, [] => none
  | s, step :: steps =>
    if s.target step = some o then some (s, step)
    else firstFor? o (s.step .quiet [] step).2 steps

theorem firstFor?_eq_some {s u : Session} {o : Nat} {steps : List Step} {step : Step}
    (h : firstFor? o s steps = some (u, step)) :
    ∃ more rest, steps = more ++ step :: rest ∧ u = s.after more ∧ u.target step = some o := by
  induction steps generalizing s with
  | nil => cases h
  | cons first steps ih =>
    rw [firstFor?] at h
    split at h
    · rename_i htarget
      cases h
      exact ⟨[], steps, rfl, rfl, htarget⟩
    · obtain ⟨more, rest, rfl, rfl, htarget⟩ := ih h
      exact ⟨first :: more, rest, rfl, rfl, htarget⟩

theorem target_of_closed {s : Session} (h : s.InFlight) (hclosed : s.closed = true) {step : Step}
    {o : Nat} (htarget : s.target step = some o) :
    step.reads = true ∧ s.subscriber? s.front = some o ∨
      ∃ wait w, step = .endDisconnect wait ∧ s.waits[wait]? = some w ∧ w.operation = o := by
  have hcurrent := h.detached hclosed
  cases step
  case receive text =>
    simp only [target] at htarget
    split at htarget
    · cases htarget
    · exact Or.inl ⟨rfl, htarget⟩
  case endDisconnect wait =>
    obtain ⟨w, hw, ho⟩ := Option.map_eq_some_iff.mp htarget
    exact Or.inr ⟨wait, w, rfl, hw, ho⟩
  case disconnect fault =>
    simp only [target, hcurrent, ite_self] at htarget
    cases htarget
  case beginDisconnect fault =>
    simp only [target, hcurrent, ite_self] at htarget
    cases htarget
  case hostExited stderr =>
    cases stderr with
    | none => cases htarget
    | some text =>
      simp only [target, hcurrent, ite_self] at htarget
      cases htarget
  all_goals cases htarget

theorem block_ne_nil {s : Session} (h : s.InFlight) (hclosed : s.closed = true) {step : Step}
    {o : Nat} (htarget : s.target step = some o) (op : Operation) : s.block op step ≠ [] := by
  rcases target_of_closed h hclosed htarget with ⟨hreads, -⟩ | ⟨wait, w, rfl, -, -⟩
  · cases step
    case receive text => exact hearingBlock_ne_nil s op text
    all_goals cases hreads
  · exact List.cons_ne_nil _ _

theorem reached_after {s : Session} (k : s.WellKept) (h : s.InFlight) (hclosed : s.closed = true)
    {o : Nat} {op : Operation} (hop : s.operations[o]? = some op)
    (hopen : op.state.completed = false) (steps : List Step) :
    ∃ ns, (s.after steps).told op.party = s.told op.party ++ ns ∧
      (ns = [] ↔ firstFor? o s steps = none) ∧
      ∀ u wait w, firstFor? o s steps = some (u, .endDisconnect wait) → u.waits[wait]? = some w →
        ns = op.state.kind.abortBlock (lossCause w.fault) := by
  induction steps generalizing s with
  | nil =>
    have hnone : firstFor? o s [] = none := rfl
    refine ⟨[], (List.append_nil _).symm, ⟨fun _ => hnone, fun _ => rfl⟩, ?_⟩
    intro u wait w hsome
    rw [hnone] at hsome
    cases hsome
  | cons step steps ih =>
    let t := (s.step .quiet [] step).2
    have kt : t.WellKept := wellKept_outcome k (step_outcome k step)
    obtain ⟨hget, htold⟩ := step_share k step o op hop
    rw [firstFor?]
    by_cases htarget : s.target step = some o
    · have hshare : s.share o op step = s.block op step := if_pos ⟨hopen, htarget⟩
      rw [hshare] at hget htold
      obtain ⟨ns, -, htold', hns⟩ := after_kept kt steps o _ hget
      rw [if_pos htarget]
      refine ⟨s.block op step ++ ns, ?_, ?_, ?_⟩
      · rw [← List.append_assoc, ← htold]
        exact htold'
      · simp [block_ne_nil h hclosed htarget op]
      · rintro u wait w heq hw
        cases heq
        have hblock : s.block op (.endDisconnect wait) =
            op.state.kind.abortBlock (lossCause w.fault) := by
          rw [block, hw, Option.bind_some]
        rw [hblock] at hns ⊢
        rw [hns, List.append_nil]
        rw [Operation.after_completed, OperationKind.any_abortBlock, Bool.or_true]
    · have hshare : s.share o op step = [] := share_of_not_target s o op step htarget
      rw [hshare, Operation.after_nil] at hget
      rw [hshare, List.append_nil] at htold
      rw [if_neg htarget, ← htold]
      exact ih kt (inFlight_step k h step) (closed_step k step hclosed) hget

/-- Once a session is closed, the observer of an operation is told something just when the operation
is not completed and a step reaches it all the same. In an orderly run only the end of a wait does,
and the observer is told then that the operation was aborted. -/
theorem told_once_closed (server : Server) (collector : Collector) (host : HostBehaviour)
    (exitWait : Nat) (steps later : List Step) (o : Nat) (op : Operation)
    (hclosed : ((fresh server collector none host exitWait).after steps).closed = true)
    (hop : ((fresh server collector none host exitWait).after steps).operations[o]? = some op) :
    let s := (fresh server collector none host exitWait).after steps
    ∃ ns, (s.after later).told op.party = s.told op.party ++ ns ∧
      (ns = [] ↔ op.state.completed = true ∨ firstFor? o s later = none) ∧
      (op.state.completed = false → ∀ u wait w,
        firstFor? o s later = some (u, .endDisconnect wait) → u.waits[wait]? = some w →
          AbortSequence op.state.kind (lossCause w.fault) ns) ∧
      ((fresh server collector none host exitWait).Orderly (steps ++ later) → ∀ u step,
        firstFor? o s later = some (u, step) →
          ∃ wait w, step = .endDisconnect wait ∧ u.waits[wait]? = some w ∧ w.operation = o) := by
  intro s
  let s₀ := fresh server collector none host exitWait
  have k₀ : s₀.WellKept := wellKept_fresh server collector host exitWait
  have h₀ : s₀.InFlight := inFlight_fresh server collector host exitWait
  have k : s.WellKept := wellKept_after k₀ steps
  have h : s.InFlight := inFlight_after k₀ h₀ steps
  have horderly : s₀.Orderly (steps ++ later) → ∀ u step, firstFor? o s later = some (u, step) →
      ∃ wait w, step = .endDisconnect wait ∧ u.waits[wait]? = some w ∧ w.operation = o := by
    intro horderly u step hfirst
    obtain ⟨more, rest, rfl, rfl, htarget⟩ := firstFor?_eq_some hfirst
    obtain ⟨ha, ho⟩ := attached_after k₀ h₀
      (attached_fresh server collector host exitWait _) horderly
    obtain ⟨hmore, -⟩ := attached_after k h ha ho
    have hmclosed := closed_after k more hclosed
    rcases target_of_closed (inFlight_after k h more) hmclosed htarget with ⟨hreads, hsub⟩ | hwait
    · rw [unheard_of_attached hmclosed hmore hreads] at hsub
      cases hsub
    · exact hwait
  cases hcompleted : op.state.completed with
  | true =>
    obtain ⟨ns, -, htold, hns⟩ := after_kept k later o op hop
    exact ⟨ns, htold, by simp [hns hcompleted], nofun, horderly⟩
  | false =>
    obtain ⟨ns, htold, hns, habort⟩ := reached_after k h hclosed hop hcompleted later
    refine ⟨ns, htold, by simp [hns], ?_, horderly⟩
    intro _ u wait w hfirst hw
    rw [habort u wait w hfirst hw]
    exact abortSequence_abortBlock _ _

theorem told_once_closed_waiting :
    let server : Server := .fresh "4000" none false true
    let steps : List Step := [.listen, .connect, .waitForExit 5000,
      .run (.ofSources ["a.dll"]) .plain, .beginDisconnect none, .close]
    let s := (fresh server .idle none .elsewhere 0).after steps
    ∃ ns, AbortSequence .execution (lossCause none) ns ∧
      (s.after [.hostExited (some "Segmentation fault"), .endDisconnect 0]).told 0 =
        s.told 0 ++ ns := by
  intro server steps s
  let exited := (s.step .quiet [] (.hostExited (some "Segmentation fault"))).2
  have hclosed : s.closed = true := by decide +kernel
  have hop : s.operations[0]? = some ⟨⟨.execution, false⟩, 0⟩ := by decide +kernel
  have hexit : s.target (.hostExited (some "Segmentation fault")) ≠ some 0 := by decide +kernel
  have hend : exited.target (.endDisconnect 0) = some 0 := by decide +kernel
  have hwait : exited.waits[0]? = some ⟨0, none⟩ := by decide +kernel
  have hfirst : firstFor? 0 s [.hostExited (some "Segmentation fault"), .endDisconnect 0] =
      some (exited, .endDisconnect 0) := by
    rw [firstFor?, if_neg hexit, firstFor?, if_pos hend]
  obtain ⟨ns, htold, -, habort, -⟩ := told_once_closed server .idle .elsewhere 0 steps
    [.hostExited (some "Segmentation fault"), .endDisconnect 0] 0 _ hclosed hop
  exact ⟨ns, habort rfl exited 0 _ hfirst hwait, htold⟩

theorem closed_session_tells :
    let s := (fresh (.fresh "4000" none false true) .idle none .elsewhere 0).after
      [.listen, .connect, .waitForExit 5000, .run (.ofSources ["a.dll"]) .plain,
        .beginDisconnect none, .close]
    s.closed = true ∧ s.told 0 = [] ∧
      ((s.after [.hostExited (some "Segmentation fault"), .endDisconnect 0]).told 0).length = 4 := by
  decide +kernel

end Session

end HostedTests
