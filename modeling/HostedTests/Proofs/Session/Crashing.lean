import HostedTests.Proofs.Session.InFlight

/-!
Hosts that crash. A crash is seen twice, as the loss of the connection and as the exit of the host,
and either may come first. Whichever does, the observer of the operation is told the same.
-/

namespace HostedTests

/-- What the observer of an operation is told of a crash: the exit if the host wrote about errors,
and the loss of the connection otherwise. -/
inductive CrashSequence (k : OperationKind) (stderr : Option String)
    (fault : Option ChannelFault) : List Notice → Prop where
  | exited (text : String) (ns : List Notice) :
    stderr = some text → Text.allBlank text = false → ExitSequence k text ns →
    CrashSequence k stderr fault ns
  | lost (ns : List Notice) :
    (∀ text, stderr = some text → Text.allBlank text = true) →
    AbortSequence k (lossCause fault) ns → CrashSequence k stderr fault ns

namespace OperationKind

def crashBlock (k : OperationKind) (stderr : Option String) (fault : Option ChannelFault) :
    List Notice :=
  match stderr.filter fun t => !Text.allBlank t with
  | some text => k.exitBlock text
  | none => k.abortBlock (lossCause fault)

variable (k : OperationKind) (stderr : Option String) (fault : Option ChannelFault)

theorem crashBlock_exited {text : String} (h : Text.allBlank text = false) :
    k.crashBlock (some text) fault = k.exitBlock text := by
  rw [crashBlock, Session.filter_allBlank, h, if_neg Bool.false_ne_true]

theorem crashBlock_lost (h : ∀ text, stderr = some text → Text.allBlank text = true) :
    k.crashBlock stderr fault = k.abortBlock (lossCause fault) := by
  cases stderr with
  | none => rfl
  | some text => rw [crashBlock, Session.filter_allBlank, h text rfl, if_pos rfl]

theorem exists_text_or_blank :
    (∃ text, stderr = some text ∧ Text.allBlank text = false) ∨
      ∀ text, stderr = some text → Text.allBlank text = true := by
  cases stderr with
  | none => exact Or.inr fun _ h => nomatch h
  | some text =>
    cases hblank : Text.allBlank text with
    | false => exact Or.inl ⟨text, rfl, hblank⟩
    | true =>
      refine Or.inr ?_
      rintro _ ⟨⟩
      exact hblank

theorem crashSequence_crashBlock : CrashSequence k stderr fault (k.crashBlock stderr fault) := by
  rcases exists_text_or_blank stderr with ⟨text, rfl, htext⟩ | hblank
  · rw [k.crashBlock_exited fault htext]
    exact .exited text _ rfl htext (exitSequence_exitBlock k text)
  · rw [k.crashBlock_lost stderr fault hblank]
    exact .lost _ hblank (abortSequence_abortBlock k _)

theorem any_crashBlock : (k.crashBlock stderr fault).any Notice.isCompletion = true := by
  unfold crashBlock
  split
  · exact k.any_exitBlock _
  · exact k.any_abortBlock _

end OperationKind

/-- The observers take no steps themselves, but a wait for the host's exit may be over while they
are told something. -/
def Reaction.OnlyEnds (react : Reaction) (wait : Nat) : Prop :=
  ∀ p n s, react p n s = s ∨ react p n s = s.endDisconnect .quiet wait

theorem onlyEnds_quiet (wait : Nat) : Reaction.quiet.OnlyEnds wait := fun _ _ _ => Or.inl rfl

namespace Session

variable {react : Reaction} {o : Nat} {op : Operation}

structure Exposed (s : Session) (o : Nat) (op : Operation) : Prop where
  hears : s.Hears o op
  current : s.current = some o
  held : s.abandoned = false
  tells : s.server.tells = true
  patient : s.exitWait ≠ 0

theorem exposed_of_inFlight {s : Session} (k : s.WellKept) (h : s.InFlight) (a : s.Attended)
    (hop : s.operations[o]? = some op) (hopen : op.state.completed = false)
    (hclosed : s.closed = false) (hwait : s.exitWait ≠ 0) : s.Exposed o op where
  hears := ⟨hop, hopen, k.bare o op hop⟩
  current := (h.latest o ⟨op, hop, hopen⟩).2 hclosed
  held := by
    by_contra hnot
    rw [h.abandoned (eq_true_of_ne_false hnot)] at hclosed
    cases hclosed
  tells := by
    refine a (Or.inr fun hnil => ?_)
    rw [hnil] at hop
    cases hop
  patient := hwait

def crashed (s : Session) (o : Nat) (op : Operation) (stderr : Option String)
    (fault : Option ChannelFault) : Session :=
  { s.inform o op (op.state.kind.crashBlock stderr fault) with hostHasExited := true }

theorem completed_crashed {s : Session} (h : s.Exposed o op) (stderr : Option String)
    (fault : Option ChannelFault) :
    ∃ op', (s.crashed o op stderr fault).operations[o]? = some op' ∧ op'.party = op.party ∧
      op'.state.completed = true := by
  obtain ⟨hlt, -⟩ := List.getElem?_eq_some_iff.mp h.hears.registered
  refine ⟨op.after (op.state.kind.crashBlock stderr fault), List.getElem?_set_self hlt, rfl, ?_⟩
  rw [Operation.after_completed, OperationKind.any_crashBlock, Bool.or_true]

theorem told_crashed (s : Session) (stderr : Option String) (fault : Option ChannelFault) :
    (s.crashed o op stderr fault).told op.party =
      s.told op.party ++ op.state.kind.crashBlock stderr fault :=
  told_inform_self s o op _

theorem step_beginDisconnect {s : Session} (h : s.Exposed o op) (fault : Option ChannelFault) :
    (s.step .quiet [] (.beginDisconnect fault)).2 =
      { s with waits := s.waits ++ [⟨o, fault⟩] } := by
  have hopen : s.isCompleted o = false := by
    rw [isCompleted, h.hears.registered, Option.map_some, Option.getD_some, h.hears.incomplete]
  simp only [Session.step, h.tells, if_true, beginDisconnect, h.held, h.current, hopen, h.patient,
    Bool.false_eq_true, if_false]

theorem endDisconnect_last (s : Session) (waits : List ExitWait) (w : ExitWait) :
    ({ s with waits := waits ++ [w] } : Session).endDisconnect .quiet waits.length =
      ({ s with waits } : Session).abort .quiet w.operation (lossCause w.fault) := by
  have hget : (waits ++ [w])[waits.length]? = some w := List.getElem?_concat_length
  have herase : (waits ++ [w]).eraseIdx waits.length = waits := by
    rw [List.eraseIdx_append_of_length_le (Nat.le_refl _), Nat.sub_self]
    exact List.append_nil waits
  simp only [endDisconnect, hget, herase]

theorem endDisconnect_completed {s : Session} {waits : List ExitWait} {w : ExitWait}
    (h : ∀ op, s.operations[w.operation]? = some op → op.state.completed = true) :
    ({ s with waits := waits ++ [w] } : Session).endDisconnect .quiet waits.length =
      { s with waits } := by
  rw [endDisconnect_last]
  exact abort_completed { s with waits } w.operation (lossCause w.fault) h

theorem endDisconnect_over (s : Session) : s.endDisconnect .quiet s.waits.length = s := by
  simp only [endDisconnect, List.getElem?_length]

def MayAwait (s : Session) (w : ExitWait) (t : Session) : Prop :=
  t = s ∨ t = { s with waits := s.waits ++ [w] }

section Ending

variable {s t : Session} {w : ExitWait} {p : Nat}

theorem endDisconnect_mayAwait (h : s.MayAwait w t)
    (hw : ∀ op, s.operations[w.operation]? = some op → op.state.completed = true) :
    t.endDisconnect .quiet s.waits.length = s := by
  rcases h with rfl | rfl
  · exact endDisconnect_over t
  · exact endDisconnect_completed hw

theorem deliver_mayAwait (hreact : react.OnlyEnds s.waits.length) (h : s.MayAwait w t)
    (hw : ∀ op, s.operations[w.operation]? = some op → op.state.completed = true)
    (hbare : s.collection? p = none) (n : Notice) :
    (s.tellAll p [n]).MayAwait w (t.deliver react p n) := by
  have htbare : t.collection? p = none := by
    rcases h with rfl | rfl <;> exact hbare
  have htold : (s.tellAll p [n]).MayAwait w (t.tellAll p [n]) := by
    rcases h with rfl | rfl
    · exact Or.inl rfl
    · exact Or.inr rfl
  rw [deliver_bare_tell react t p n htbare]
  change MayAwait _ w (react p n (t.tellAll p [n]))
  rcases hreact p n (t.tellAll p [n]) with hsame | hends
  · rw [hsame]
    exact htold
  · rw [hends]
    exact Or.inl (endDisconnect_mayAwait htold hw)

theorem tellError_mayAwait (hreact : react.OnlyEnds s.waits.length) (h : s.MayAwait w t)
    (hw : ∀ op, s.operations[w.operation]? = some op → op.state.completed = true)
    (hbare : s.collection? p = none) (text : String) :
    (s.tellAll p [.log .error text, .raw (Remark.message ⟨.error, text⟩).text]).MayAwait w
      (t.tellError react p text) := by
  have hlog := deliver_mayAwait hreact h hw hbare (.log .error text)
  have hecho := deliver_mayAwait (s := s.tellAll p [.log .error text]) hreact hlog hw hbare
    (.raw (Remark.message ⟨.error, text⟩).text)
  rw [tellAll_tellAll] at hecho
  exact hecho

/-- The exit report completes the operation before it says anything, so that it does not matter
when the wait is over. -/
theorem hostExited_mayAwait (h : s.Exposed o op) (fault : Option ChannelFault) {text : String}
    (htext : Text.allBlank text = false) (hreact : react.OnlyEnds s.waits.length) :
    (s.crashed o op (some text) fault).MayAwait ⟨o, fault⟩
      (({ s with waits := s.waits ++ [⟨o, fault⟩] } : Session).hostExited react (some text)) := by
  let done : Operation := { op with state.completed := true }
  let u : Session := { s with
    operations := s.operations.set o done
    hostHasExited := true }
  let reason := op.state.kind.abortReason text
  let w : ExitWait := ⟨o, fault⟩
  have hfilter : (some text).filter (fun t => !Text.allBlank t) = some text := by
    rw [filter_allBlank, htext, if_neg Bool.false_ne_true]
  have hpair : (s.current.bind fun o => s.operations[o]?.map fun op => (o, op)) =
      some (o, op) := by
    rw [h.current, Option.bind_some, h.hears.registered, Option.map_some]
  have hexit : ({ s with waits := s.waits ++ [w] } : Session).hostExited react (some text) =
      ({ u with waits := s.waits ++ [w] }.tellError react op.party text).deliver react op.party
        (op.state.kind.abortNotice reason) := by
    have hears : ({ s with waits := s.waits ++ [w] } : Session).Hears o op :=
      ⟨h.hears.registered, h.hears.incomplete, h.hears.bare⟩
    unfold hostExited
    rw [hfilter, hpair]
    simp only [tryComplete_open hears]
    rfl
  have hdone : ∀ op', u.operations[w.operation]? = some op' → op'.state.completed = true := by
    intro op' hop'
    obtain ⟨hlt, -⟩ := List.getElem?_eq_some_iff.mp h.hears.registered
    have hget : u.operations[o]? = some done := List.getElem?_set_self hlt
    rw [hget] at hop'
    cases hop'
    rfl
  have herror := tellError_mayAwait (s := u) (w := w) hreact (Or.inr rfl) hdone h.hears.bare text
  have hnotice := deliver_mayAwait (s := u.tellAll op.party _) hreact herror hdone h.hears.bare
    (op.state.kind.abortNotice reason)
  rw [tellAll_tellAll] at hnotice
  have hcrashed : s.crashed o op (some text) fault =
      u.tellAll op.party (op.state.kind.exitBlock text) := by
    rw [crashed, OperationKind.crashBlock_exited _ fault htext,
      inform_of_completion _ _ _ _ (op.state.kind.any_exitBlock text)]
    rfl
  rw [hexit, hcrashed]
  exact hnotice

end Ending

section Orders

variable {s : Session} (h : s.Exposed o op) (stderr : Option String)
  (fault : Option ChannelFault)

include h

theorem exposed_exited : ({ s with hostHasExited := true } : Session).Exposed o op :=
  ⟨⟨h.hears.registered, h.hears.incomplete, h.hears.bare⟩, h.current, h.held, h.tells, h.patient⟩

theorem abort_exited (hblank : ∀ text, stderr = some text → Text.allBlank text = true) :
    ({ s with hostHasExited := true } : Session).abort .quiet o (lossCause fault) =
      s.crashed o op stderr fault := by
  rw [abort_open _ o op _ (exposed_exited h).hears, crashed,
    OperationKind.crashBlock_lost _ _ fault hblank]
  rfl

theorem endDisconnect_exited (hblank : ∀ text, stderr = some text → Text.allBlank text = true) :
    ({ s with hostHasExited := true, waits := s.waits ++ [⟨o, fault⟩] } : Session).endDisconnect
      .quiet s.waits.length = s.crashed o op stderr fault := by
  exact (endDisconnect_last { s with hostHasExited := true } s.waits ⟨o, fault⟩).trans
    (abort_exited h stderr fault hblank)

theorem crashed_of_lost_first (hreact : react.OnlyEnds s.waits.length) :
    let lost := (s.step .quiet [] (.beginDisconnect fault)).2
    ((lost.step react [] (.hostExited stderr)).2.step .quiet []
      (.endDisconnect s.waits.length)).2 = s.crashed o op stderr fault := by
  rw [step_beginDisconnect h fault]
  let lost : Session := { s with waits := s.waits ++ [⟨o, fault⟩] }
  change (lost.hostExited react stderr).endDisconnect .quiet s.waits.length = _
  rcases OperationKind.exists_text_or_blank stderr with ⟨text, rfl, htext⟩ | hblank
  · obtain ⟨op', hop', -, hcompleted⟩ := completed_crashed h (some text) fault
    apply endDisconnect_mayAwait (hostExited_mayAwait h fault htext hreact)
    intro op'' hop''
    rw [hop'] at hop''
    cases hop''
    exact hcompleted
  · rw [hostExited_blank lost stderr hblank]
    exact endDisconnect_exited h stderr fault hblank

theorem hostExited_exposed {text : String} (htext : Text.allBlank text = false) :
    s.hostExited .quiet (some text) = s.crashed o op (some text) fault := by
  rw [hostExited_open s o op text h.hears h.current htext, crashed,
    OperationKind.crashBlock_exited _ fault htext]

theorem crashed_of_exited_first :
    let exited := (s.step .quiet [] (.hostExited stderr)).2
    exited.after [.disconnect fault] = s.crashed o op stderr fault ∧
      exited.after [.beginDisconnect fault, .endDisconnect s.waits.length] =
        s.crashed o op stderr fault := by
  change ((s.hostExited .quiet stderr).step .quiet [] (.disconnect fault)).2 = _ ∧
    (((s.hostExited .quiet stderr).step .quiet [] (.beginDisconnect fault)).2.endDisconnect
      .quiet s.waits.length) = _
  rcases OperationKind.exists_text_or_blank stderr with ⟨text, rfl, htext⟩ | hblank
  · let t := s.crashed o op (some text) fault
    have htells : t.server.tells = true := h.tells
    have hheld : t.abandoned = false := h.held
    have hcurrent : t.current = some o := h.current
    obtain ⟨op', hop', -, hcompleted⟩ := completed_crashed h (some text) fault
    have hover : t.isCompleted o = true := by
      rw [isCompleted, hop', Option.map_some, Option.getD_some, hcompleted]
    rw [hostExited_exposed h fault htext]
    constructor
    · change (t.step .quiet [] (.disconnect fault)).2 = t
      simp only [Session.step, htells, if_true, disconnect, hheld, Bool.false_eq_true, if_false,
        hcurrent]
      apply abort_completed t o
      intro op'' hop''
      rw [hop'] at hop''
      cases hop''
      exact hcompleted
    · have hbegin : (t.step .quiet [] (.beginDisconnect fault)).2 = t := by
        simp only [Session.step, htells, if_true, beginDisconnect, hheld, Bool.false_eq_true,
          if_false, hcurrent, hover]
      rw [hbegin]
      exact endDisconnect_over t
  · let t : Session := { s with hostHasExited := true }
    have ht : t.Exposed o op := exposed_exited h
    rw [hostExited_blank s stderr hblank]
    constructor
    · change (t.step .quiet [] (.disconnect fault)).2 = _
      simp only [Session.step, ht.tells, if_true, disconnect, ht.held, Bool.false_eq_true, if_false,
        ht.current]
      exact abort_exited h stderr fault hblank
    · rw [step_beginDisconnect ht fault]
      exact endDisconnect_exited h stderr fault hblank

end Orders

theorem crash_told_in_either_order (server : Server) (collector : Collector)
    (host : HostBehaviour) (exitWait : Nat) (steps : List Step) (o : Nat) (op : Operation)
    (stderr : Option String) (fault : Option ChannelFault) (react : Reaction)
    (hop : ((fresh server collector none host exitWait).after steps).operations[o]? = some op)
    (hopen : op.state.completed = false)
    (hclosed : ((fresh server collector none host exitWait).after steps).closed = false)
    (hwait : ((fresh server collector none host exitWait).after steps).exitWait ≠ 0)
    (hreact : react.OnlyEnds
      ((fresh server collector none host exitWait).after steps).waits.length) :
    let s := (fresh server collector none host exitWait).after steps
    let wait := s.waits.length
    let first := s.after [.hostExited stderr, .disconnect fault]
    let lost := (s.step .quiet [] (.beginDisconnect fault)).2
    let second := ((lost.step react [] (.hostExited stderr)).2.step .quiet []
      (.endDisconnect wait)).2
    lost.waits = s.waits ++ [⟨o, fault⟩] ∧ second = first ∧
      s.after [.hostExited stderr, .beginDisconnect fault, .endDisconnect wait] = first ∧
      ∃ ns, CrashSequence op.state.kind stderr fault ns ∧
        first.told op.party = s.told op.party ++ ns ∧
        ∀ later, (first.after later).told op.party = first.told op.party := by
  intro s wait first lost second
  have k : s.WellKept := wellKept_after (wellKept_fresh server collector host exitWait) steps
  have hflight : s.InFlight := inFlight_after (wellKept_fresh server collector host exitWait)
    (inFlight_fresh server collector host exitWait) steps
  have hattended : s.Attended := attended_after (wellKept_fresh server collector host exitWait)
    (attended_fresh server collector host exitWait) steps
  have h : s.Exposed o op := exposed_of_inFlight k hflight hattended hop hopen hclosed hwait
  obtain ⟨hfirst, hthird⟩ := crashed_of_exited_first h stderr fault
  have hsecond := crashed_of_lost_first h stderr fault hreact
  refine ⟨congrArg Session.waits (step_beginDisconnect h fault), hsecond.trans hfirst.symm,
    hthird.trans hfirst.symm, _, OperationKind.crashSequence_crashBlock _ stderr fault, ?_, ?_⟩
  · exact (congrArg (told · op.party) hfirst).trans (told_crashed s stderr fault)
  · intro later
    have kfirst : first.WellKept := wellKept_after k _
    obtain ⟨op', hop', hparty, hcompleted⟩ := completed_crashed h stderr fault
    have hget : first.operations[o]? = some op' := (congrArg (·.operations[o]?) hfirst).trans hop'
    obtain ⟨ns, -, htold, hns⟩ := after_kept kfirst later o op' hget
    rw [hparty, hns hcompleted, List.append_nil] at htold
    exact htold

theorem crash_told_in_either_order_echo :
    let server : Server := .fresh "4000" none false true
    let steps : List Step :=
      [.listen, .connect, .waitForExit 5000, .run (.ofSources ["a.dll"]) .plain]
    let s := (fresh server .idle none .elsewhere 0).after steps
    let lost := (s.step .quiet [] (.beginDisconnect (some .peerClosed))).2
    -- The wait is over when the exit report is echoed.
    let react : Reaction := fun _ n s => if n.kind = .raw then s.endDisconnect .quiet 0 else s
    let exited := (lost.step react [] (.hostExited (some "Segmentation fault"))).2
    ∃ ns, CrashSequence .execution (some "Segmentation fault") (some .peerClosed) ns ∧
      (exited.step .quiet [] (.endDisconnect 0)).2.told 0 = s.told 0 ++ ns := by
  intro server steps s lost react exited
  have hop : s.operations[0]? = some ⟨⟨.execution, false⟩, 0⟩ := by decide +kernel
  have hclosed : s.closed = false := by decide +kernel
  have hwait : s.exitWait ≠ 0 := by decide +kernel
  have hwaits : s.waits.length = 0 := by decide +kernel
  have hreact : react.OnlyEnds s.waits.length := by
    intro p n t
    rw [hwaits]
    by_cases hraw : n.kind = .raw
    · exact Or.inr (if_pos hraw)
    · exact Or.inl (if_neg hraw)
  obtain ⟨-, hsame, -, ns, hns, htold, -⟩ := crash_told_in_either_order server .idle .elsewhere 0
    steps 0 _ (some "Segmentation fault") (some .peerClosed) react hop rfl hclosed hwait hreact
  refine ⟨ns, hns, ?_⟩
  rw [← htold]
  rw [hwaits] at hsame
  exact congrArg (told · 0) hsame

end Session

end HostedTests
