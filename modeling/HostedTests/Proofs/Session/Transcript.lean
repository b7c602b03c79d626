import HostedTests.Proofs.Session.Completion
import Mathlib.Data.List.Induction

namespace HostedTests

def OperationKind.ReadsAborted (k : OperationKind) (reason text : String) : Prop :=
  match k with
  | discovery => Message.Carries text .discoveryComplete DiscoveryCompletion.aborted
  | execution =>
    Message.Carries text .executionComplete (RunCompletion.only (.aborted (some reason)))

/-- An abort as it is told: the reason, its echo, the echo of the completion, the completion. -/
inductive AbortSequence (k : OperationKind) (cause : String) : List Notice → Prop where
  | told (m c : String) :
    Message.Carries m .remark (⟨.error, k.abortReason cause⟩ : Remark) →
    k.ReadsAborted (k.abortReason cause) c →
    AbortSequence k cause [.log .error (k.abortReason cause), .raw m, .raw c,
      k.abortNotice (k.abortReason cause)]

inductive ExitSequence (k : OperationKind) (stderr : String) : List Notice → Prop where
  | told (m : String) :
    Message.Carries m .remark (⟨.error, stderr⟩ : Remark) →
    ExitSequence k stderr [.log .error stderr, .raw m, k.abortNotice (k.abortReason stderr)]

theorem carries_remark (r : Remark) : Message.Carries r.message.text .remark r :=
  Message.carries_exact rfl (by decide) .remark r

theorem readsAborted_abortMessage (k : OperationKind) (reason : String) :
    k.ReadsAborted reason (k.abortMessage reason).text := by
  cases k with
  | discovery =>
    exact Message.carries_exact rfl (by decide) .discoveryComplete DiscoveryCompletion.aborted
  | execution =>
    have hcarries := Message.carries_settled Message.settles_runCompletion (by decide)
      .executionComplete (RunCompletion.only (.aborted (some reason)))
    rwa [RunCompletion.truncated_aborted] at hcarries

theorem abortSequence_abortBlock (k : OperationKind) (cause : String) :
    AbortSequence k cause (k.abortBlock cause) :=
  .told _ _ (carries_remark _) (readsAborted_abortMessage k _)

theorem exitSequence_exitBlock (k : OperationKind) (stderr : String) :
    ExitSequence k stderr (k.exitBlock stderr) :=
  .told _ (carries_remark _)

namespace Session

structure Arrives (s : Session) (step : Step) (o : Nat) (text : String) : Prop where
  receives : step = .receive text
  held : s.abandoned = false
  subscribed : s.lines[s.front]?.bind (·.subscriber) = some o

inductive Block (s : Session) (step : Step) (o : Nat) (k : OperationKind) (party : Nat) :
    List Notice → Prop where
  | heard (text : String) (n : Notice) :
    s.Arrives step o text → k.Means text n →
    (∀ info, n = .launchUnderDebugger info → ∃ sent, s.reply party info = .ok sent) →
    Block s step o k party [.raw text, n]
  | launchFailed (text : String) (info : StartInfo) (t : Trouble) (ns : List Notice) :
    s.Arrives step o text → k.Means text (.launchUnderDebugger info) →
    s.reply party info = .error t → AbortSequence k t.text ns →
    Block s step o k party (.raw text :: .launchUnderDebugger info :: ns)
  | refused (text cause : String) (ns : List Notice) :
    s.Arrives step o text → (∀ n, ¬k.Means text n) → AbortSequence k cause ns →
    Block s step o k party (.raw text :: ns)
  | lost (fault : Option ChannelFault) (ns : List Notice) :
    step = .disconnect fault ∨ step = .beginDisconnect fault → s.current = some o →
    AbortSequence k (lossCause fault) ns → Block s step o k party ns
  | waited (wait : Nat) (fault : Option ChannelFault) (ns : List Notice) :
    step = .endDisconnect wait → s.waits[wait]? = some ⟨o, fault⟩ →
    AbortSequence k (lossCause fault) ns → Block s step o k party ns
  | unsent (r : StartRequest) (observer : Observer) (line : Nat) (f : ChannelFault)
    (ns : List Notice) :
    step = r.step observer → o = s.operations.length → s.channel = some line →
    s.lines[line]?.bind (·.refusal) = some f → AbortSequence k f.message ns →
    Block s step o k party ns
  | exited (stderr : String) (ns : List Notice) :
    step = .hostExited (some stderr) → s.current = some o → Text.allBlank stderr = false →
    ExitSequence k stderr ns → Block s step o k party ns

theorem block_hearing {s : Session} {step : Step} {o : Nat} {text : String}
    (h : s.Arrives step o text) (op : Operation) :
    s.Block step o op.state.kind op.party (s.hearingBlock op text) := by
  unfold hearingBlock
  cases hhear : op.state.kind.hear text with
  | error t =>
    refine .refused text t.text _ h ?_ (abortSequence_abortBlock _ _)
    intro n hn
    rw [(OperationKind.hear_eq_ok_iff _ _ _).mpr hn] at hhear
    cases hhear
  | ok n =>
    have hmeans := (OperationKind.hear_eq_ok_iff _ _ _).mp hhear
    cases n
    case launchUnderDebugger info =>
      dsimp only
      cases hreply : s.reply op.party info with
      | error t =>
        exact .launchFailed text info t _ h hmeans hreply (abortSequence_abortBlock _ _)
      | ok sent =>
        refine .heard text _ h hmeans fun info' heq => ⟨sent, ?_⟩
        cases heq
        exact hreply
    all_goals exact .heard text _ h hmeans (fun _ heq => nomatch heq)

theorem block_of_target {s : Session} {step : Step} {o : Nat} (op : Operation)
    (h : s.target step = some o) :
    s.Block step o op.state.kind op.party (s.block op step) := by
  cases step
  case receive text =>
    simp only [target] at h
    split at h
    · cases h
    · rename_i hheld
      exact block_hearing ⟨rfl, eq_false_of_ne_true hheld, h⟩ op
  case disconnect fault =>
    simp only [target] at h
    split at h
    · exact .lost fault _ (Or.inl rfl) h (abortSequence_abortBlock _ _)
    · cases h
  case beginDisconnect fault =>
    simp only [target] at h
    split at h
    · exact .lost fault _ (Or.inr rfl) h (abortSequence_abortBlock _ _)
    · cases h
  case endDisconnect wait =>
    simp only [target] at h
    obtain ⟨⟨_, fault⟩, hw, rfl⟩ := Option.map_eq_some_iff.mp h
    refine .waited wait fault _ rfl hw ?_
    simp only [block, hw, Option.bind_some]
    exact abortSequence_abortBlock _ _
  case hostExited stderr =>
    cases stderr with
    | none => cases h
    | some text =>
      simp only [target] at h
      split at h
      · cases h
      · rename_i hblank
        exact .exited text _ rfl h (eq_false_of_ne_true hblank)
          (exitSequence_exitBlock _ _)
  all_goals cases h

theorem block_opening {s : Session} (r : StartRequest) (observer : Observer) {line : Nat}
    (hline : s.channel = some line) (party : Nat) (hne : s.opening r ≠ []) :
    s.Block (r.step observer) s.operations.length r.kind party (s.opening r) := by
  unfold opening at hne ⊢
  rw [hline, Option.bind_some] at hne ⊢
  cases hrefusal : s.lines[line]?.bind (·.refusal) with
  | none => simp only [hrefusal, ne_eq, not_true_eq_false] at hne
  | some f =>
    exact .unsent r observer line f _ rfl rfl hline hrefusal (abortSequence_abortBlock _ _)

structure Transcript (s : Session) (steps : List Step) (o : Nat) (op : Operation)
    (blocks : List (Nat × List Notice)) : Prop where
  told : (s.after steps).told op.party = (blocks.map Prod.snd).flatten
  ascending : (blocks.map Prod.fst).Pairwise (· < ·)
  fromSteps : ∀ b ∈ blocks, ∃ step, steps[b.1]? = some step ∧
    (s.after (steps.take b.1)).Block step o op.state.kind op.party b.2
  whileOpen : ∀ b ∈ blocks, (s.after (steps.take b.1)).operations.length = o ∨
    (s.after (steps.take b.1)).IsOpen o
  completionLast : ∀ b ∈ blocks.dropLast, ∀ n ∈ b.2, n.isCompletion = false
  everyMessage : ∀ i step text, steps[i]? = some step →
    (s.after (steps.take i)).Arrives step o text → (s.after (steps.take i)).IsOpen o →
    i ∈ blocks.map Prod.fst

theorem index_lt {steps : List Step} {i : Nat} {step : Step} (h : steps[i]? = some step) :
    i < steps.length :=
  (List.getElem?_eq_some_iff.mp h).1

theorem take_concat {steps : List Step} {i : Nat} (h : i < steps.length) (last : Step) :
    (steps ++ [last]).take i = steps.take i :=
  List.take_append_of_le_length (Nat.le_of_lt h)

theorem getElem?_concat {steps : List Step} {i : Nat} (h : i < steps.length) (last : Step) :
    (steps ++ [last])[i]? = steps[i]? :=
  List.getElem?_append_left h

theorem transcript_unregistered {s : Session} (k : s.WellKept) (steps : List Step) (o : Nat)
    (op : Operation) (h : (s.after steps).operations.length ≤ o)
    (htold : (s.after steps).told op.party = []) : s.Transcript steps o op [] where
  told := htold
  ascending := List.Pairwise.nil
  fromSteps := fun _ hb => absurd hb List.not_mem_nil
  whileOpen := fun _ hb => absurd hb List.not_mem_nil
  completionLast := fun _ hb => absurd hb List.not_mem_nil
  everyMessage := by
    rintro i step text - - ⟨op', hop', -⟩
    have hkept : (s.after (steps.take i)).WellKept := wellKept_after k _
    obtain ⟨ns, hlater, -⟩ := after_kept hkept (steps.drop i) o op' hop'
    rw [← after_append, List.take_append_drop, List.getElem?_eq_none h] at hlater
    cases hlater

theorem Transcript.fromSteps_concat {s : Session} {steps : List Step} {o : Nat} {op : Operation}
    {blocks : List (Nat × List Notice)} (h : s.Transcript steps o op blocks) (last : Step)
    (b : Nat × List Notice) (hb : b ∈ blocks) :
    ∃ step, (steps ++ [last])[b.1]? = some step ∧
      (s.after ((steps ++ [last]).take b.1)).Block step o op.state.kind op.party b.2 := by
  obtain ⟨step, hget, hblock⟩ := h.fromSteps b hb
  have hlt := index_lt hget
  rw [take_concat hlt, getElem?_concat hlt]
  exact ⟨step, hget, hblock⟩

theorem Transcript.whileOpen_concat {s : Session} {steps : List Step} {o : Nat} {op : Operation}
    {blocks : List (Nat × List Notice)} (h : s.Transcript steps o op blocks) (last : Step)
    (b : Nat × List Notice) (hb : b ∈ blocks) :
    (s.after ((steps ++ [last]).take b.1)).operations.length = o ∨
      (s.after ((steps ++ [last]).take b.1)).IsOpen o := by
  obtain ⟨step, hget, -⟩ := h.fromSteps b hb
  rw [take_concat (index_lt hget)]
  exact h.whileOpen b hb

theorem Transcript.everyMessage_concat {s : Session} {steps : List Step} {o : Nat} {op : Operation}
    {blocks : List (Nat × List Notice)} (h : s.Transcript steps o op blocks) (last : Step)
    {i : Nat} {step : Step} {text : String} (hget : (steps ++ [last])[i]? = some step)
    (harrives : (s.after ((steps ++ [last]).take i)).Arrives step o text)
    (hopen : (s.after ((steps ++ [last]).take i)).IsOpen o) :
    i ∈ blocks.map Prod.fst ∨
      i = steps.length ∧ (s.after steps).Arrives last o text ∧ (s.after steps).IsOpen o := by
  rcases Nat.lt_or_ge i steps.length with hlt | hge
  · rw [getElem?_concat hlt] at hget
    rw [take_concat hlt] at harrives hopen
    exact Or.inl (h.everyMessage i step text hget harrives hopen)
  · have hlen := index_lt hget
    rw [List.length_append, List.length_singleton] at hlen
    have hi : i = steps.length := by omega
    subst hi
    rw [List.getElem?_concat_length] at hget
    cases hget
    rw [List.take_left' rfl] at harrives hopen
    exact Or.inr ⟨rfl, harrives, hopen⟩

theorem transcript_silent {s : Session} {steps : List Step} {o : Nat} {op op' : Operation}
    {blocks : List (Nat × List Notice)} (h : s.Transcript steps o op blocks) (step : Step)
    (hkind : op'.state.kind = op.state.kind) (hparty : op'.party = op.party)
    (htold : (s.after (steps ++ [step])).told op.party = (s.after steps).told op.party)
    (hsilent : ∀ text, (s.after steps).Arrives step o text → ¬(s.after steps).IsOpen o) :
    s.Transcript (steps ++ [step]) o op' blocks where
  told := by
    rw [hparty, htold, h.told]
  ascending := h.ascending
  fromSteps := by
    rw [hkind, hparty]
    exact h.fromSteps_concat step
  whileOpen := h.whileOpen_concat step
  completionLast := h.completionLast
  everyMessage := by
    intro i step' text hget harrives hopen
    rcases h.everyMessage_concat step hget harrives hopen with hi | ⟨-, harrives, hopen⟩
    · exact hi
    · exact absurd hopen (hsilent text harrives)

theorem transcript_block {s : Session} {steps : List Step} {o : Nat} {op op' : Operation}
    {blocks : List (Nat × List Notice)} (h : s.Transcript steps o op blocks) (step : Step)
    (ns : List Notice) (hkind : op'.state.kind = op.state.kind) (hparty : op'.party = op.party)
    (htold : (s.after (steps ++ [step])).told op.party = (s.after steps).told op.party ++ ns)
    (hblock : (s.after steps).Block step o op.state.kind op.party ns)
    (hopen : (s.after steps).operations.length = o ∨ (s.after steps).IsOpen o)
    (hongoing : ∀ n ∈ (s.after steps).told op.party, n.isCompletion = false) :
    s.Transcript (steps ++ [step]) o op' (blocks ++ [(steps.length, ns)]) where
  told := by
    rw [hparty, htold, h.told, List.map_append, List.flatten_append]
    exact congrArg _ (List.append_nil ns).symm
  ascending := by
    rw [List.map_append, List.pairwise_append]
    refine ⟨h.ascending, List.pairwise_singleton _ _, ?_⟩
    intro i hi j hj
    obtain ⟨b, hb, rfl⟩ := List.mem_map.mp hi
    obtain ⟨step', hget, -⟩ := h.fromSteps b hb
    rw [List.mem_singleton.mp hj]
    exact index_lt hget
  fromSteps := by
    rw [hkind, hparty]
    intro b hb
    rcases List.mem_append.mp hb with hb | hb
    · exact h.fromSteps_concat step b hb
    · rw [List.mem_singleton.mp hb]
      refine ⟨step, List.getElem?_concat_length, ?_⟩
      rw [List.take_left' rfl]
      exact hblock
  whileOpen := by
    intro b hb
    rcases List.mem_append.mp hb with hb | hb
    · exact h.whileOpen_concat step b hb
    · rw [List.mem_singleton.mp hb, List.take_left' rfl]
      exact hopen
  completionLast := by
    rw [List.dropLast_concat]
    intro b hb n hn
    apply hongoing n
    rw [h.told, List.mem_flatten]
    exact ⟨b.2, List.mem_map_of_mem hb, hn⟩
  everyMessage := by
    intro i step' text hget harrives hopen'
    rw [List.map_append, List.mem_append]
    rcases h.everyMessage_concat step hget harrives hopen' with hi | ⟨hi, -⟩
    · exact Or.inl hi
    · exact Or.inr (List.mem_singleton.mpr hi)

theorem after_concat (s : Session) (steps : List Step) (step : Step) :
    s.after (steps ++ [step]) = ((s.after steps).step .quiet [] step).2 :=
  after_append s steps [step]

theorem hearingBlock_ne_nil (s : Session) (op : Operation) (text : String) :
    s.hearingBlock op text ≠ [] := List.cons_ne_nil _ _

theorem share_of_arrives {s : Session} {step : Step} {o : Nat} {text : String} {op : Operation}
    (h : s.Arrives step o text) (hopen : op.state.completed = false) :
    s.share o op step = s.hearingBlock op text := by
  obtain ⟨rfl, hheld, hsubscribed⟩ := h
  have htarget : s.target (.receive text) = some o := by
    rw [target, hheld, if_neg Bool.false_ne_true, hsubscribed]
  rw [share, if_pos ⟨hopen, htarget⟩, block]

theorem transcript_share {s₀ : Session} {steps : List Step} {o : Nat} {op : Operation}
    {blocks : List (Nat × List Notice)} (h : s₀.Transcript steps o op blocks)
    (k : (s₀.after steps).WellKept) (hconcluded : (s₀.after steps).Concluded)
    (hop : (s₀.after steps).operations[o]? = some op) (step : Step) :
    ∃ blocks', s₀.Transcript (steps ++ [step]) o (op.after ((s₀.after steps).share o op step))
      blocks' := by
  let s := s₀.after steps
  obtain ⟨-, htold⟩ := step_share k step o op hop
  rw [← after_concat] at htold
  by_cases hshare : s.share o op step = []
  · refine ⟨blocks, transcript_silent h step rfl rfl ?_ ?_⟩
    · rw [htold, hshare, List.append_nil]
    · rintro text harrives ⟨op', hop', hopen⟩
      cases hop.symm.trans hop'
      rw [share_of_arrives harrives hopen] at hshare
      exact hearingBlock_ne_nil _ _ _ hshare
  · have hconcerned : op.state.completed = false ∧ s.target step = some o := by
      by_contra hnot
      apply hshare
      exact if_neg hnot
    have hongoing : Concludes false (s.told op.party) := hconcerned.1 ▸ hconcluded o op hop
    have hblock := block_of_target op hconcerned.2
    have hshare' : s.share o op step = s.block op step := if_pos hconcerned
    rw [← hshare'] at hblock
    refine ⟨_, transcript_block h step _ rfl rfl htold hblock ?_ ?_⟩
    · exact Or.inr ⟨op, hop, hconcerned.1⟩
    · cases hongoing with
      | ongoing _ hns => exact hns

theorem transcript_opening {s₀ : Session} {steps : List Step} {step : Step} {o : Nat}
    {op : Operation} (k₀ : s₀.WellKept) (hnew : (s₀.after steps).operations.length ≤ o)
    (hop : (s₀.after (steps ++ [step])).operations[o]? = some op) :
    ∃ blocks, s₀.Transcript (steps ++ [step]) o op blocks := by
  let s := s₀.after steps
  have k : s.WellKept := wellKept_after k₀ steps
  rw [after_concat] at hop
  obtain ⟨ho, r, observer, line, hstep, -, hline, rfl, htold⟩ := step_registers k step o op hnew hop
  let op₀ : Operation := ⟨.fresh r.kind, s.nextParty⟩
  have hunheard : s.told op₀.party = [] := k.unheard _ (Nat.le_refl _)
  have hblocks : s₀.Transcript steps o op₀ [] :=
    transcript_unregistered k₀ steps o op₀ hnew hunheard
  rw [← after_concat] at htold
  by_cases hopening : s.opening r = []
  · refine ⟨[], transcript_silent hblocks step rfl rfl ?_ ?_⟩
    · exact (htold.trans hopening).trans hunheard.symm
    · intro _ _
      exact not_isOpen_of_length_le hnew
  · have hblock := block_opening r observer hline op₀.party hopening
    rw [← hstep, ← ho] at hblock
    refine ⟨_, transcript_block hblocks step _ rfl rfl ?_ hblock (Or.inl ho.symm) ?_⟩
    · exact htold.trans (congrArg (· ++ s.opening r) hunheard).symm
    · rw [hunheard]
      intro n hn
      cases hn

theorem told_in_blocks (server : Server) (collector : Collector) (host : HostBehaviour)
    (exitWait : Nat) (steps : List Step) (o : Nat) (op : Operation)
    (h : ((fresh server collector none host exitWait).after steps).operations[o]? = some op) :
    ∃ blocks, (fresh server collector none host exitWait).Transcript steps o op blocks := by
  let s₀ := fresh server collector none host exitWait
  induction steps using List.reverseRecOn generalizing op with
  | nil => cases h
  | append_singleton steps step ih =>
    rcases Nat.lt_or_ge o (s₀.after steps).operations.length with hlt | hge
    · obtain ⟨k, hconcluded⟩ := concluded_after server collector host exitWait steps
      have hop := List.getElem?_eq_getElem hlt
      obtain ⟨blocks, hblocks⟩ := ih _ hop
      obtain ⟨hget, -⟩ := step_share k step o _ hop
      rw [after_concat, hget] at h
      cases h
      exact transcript_share hblocks k hconcluded hop step
    -- The step is the one that registers the operation, which is aborted in it at most.
    · apply transcript_opening
      · exact wellKept_fresh server collector host exitWait
      · exact hge
      · exact h

theorem told_in_blocks_garbled :
    let s := fresh (.fresh "4000" none false true) .idle none .elsewhere 0
    let steps : List Step :=
      [.listen, .connect, .discover (.ofSources ["a.dll"]) .plain, .receive "no message"]
    ∃ op blocks, (s.after steps).operations[0]? = some op ∧ op.state.completed = true ∧
      s.Transcript steps 0 op blocks := by
  let server : Server := .fresh "4000" none false true
  let steps : List Step :=
    [.listen, .connect, .discover (.ofSources ["a.dll"]) .plain, .receive "no message"]
  let op : Operation := ⟨⟨.discovery, true⟩, 0⟩
  have hop : ((fresh server .idle none .elsewhere 0).after steps).operations[0]? = some op := by
    decide +kernel
  obtain ⟨blocks, hblocks⟩ := told_in_blocks server .idle .elsewhere 0 steps 0 op hop
  exact ⟨op, blocks, hop, rfl, hblocks⟩

end Session

end HostedTests
