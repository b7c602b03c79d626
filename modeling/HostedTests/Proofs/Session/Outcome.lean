import HostedTests.Proofs.Session.Ledger

namespace HostedTests

def Observer.plain : Observer := ⟨"", fun _ => .error (.of "debugger is not available")⟩

def HostBehaviour.elsewhere : HostBehaviour :=
  ⟨fun _ _ => .error (.of "unknown"), fun _ => .error (.of "unknown"), fun _ => .ok []⟩

def HostBehaviour.nearby : HostBehaviour :=
  ⟨fun _ _ => .ok ⟨"host", "", none, none⟩, fun _ => .ok ⟨7, true⟩, fun _ => .ok []⟩

def Step.isManaged : Step → Bool
  | setUp _ _ | startDiscovery _ _ | startRun _ _ | prepareCollection | recordedMessages
  | cancelManagedRun | abortManagedRun | closeManager | launchedHostExits _ => true
  | _ => false

namespace Session

def target (s : Session) : Step → Option Nat
  | .receive _ => if s.abandoned then none else s.lines[s.front]?.bind (·.subscriber)
  | .disconnect _ => if s.server.tells ∧ !s.abandoned then s.current else none
  | .beginDisconnect _ =>
    if s.server.tells ∧ !s.abandoned ∧ s.exitWait = 0 then s.current else none
  | .endDisconnect wait => s.waits[wait]?.map (·.operation)
  | .hostExited (some text) => if Text.allBlank text then none else s.current
  | _ => none

def block (s : Session) (op : Operation) : Step → List Notice
  | .receive text => s.hearingBlock op text
  | .disconnect fault | .beginDisconnect fault => op.state.kind.abortBlock (lossCause fault)
  | .endDisconnect wait =>
    op.state.kind.abortBlock (lossCause (s.waits[wait]?.bind (·.fault)))
  | .hostExited (some text) => op.state.kind.exitBlock text
  | _ => []

def opening (s : Session) (r : StartRequest) : List Notice :=
  match s.channel.bind fun line => s.lines[line]?.bind (·.refusal) with
  | none => []
  | some f => r.kind.abortBlock f.message

inductive Outcome (s : Session) (step : Step) (t : Session) : Prop where
  | aside :
    (∀ o op, s.target step = some o → s.operations[o]? = some op → op.state.completed = true) →
    s.Aside t → Outcome s step t
  | informed (o : Nat) (op : Operation) :
    s.target step = some o → s.Hears o op → (s.inform o op (s.block op step)).Aside t →
    Outcome s step t
  | started (r : StartRequest) (observer : Observer) (line : Nat) :
    step = r.step observer → s.startFault? r = none → s.channel = some line →
    ((s.started r observer line).inform s.operations.length ⟨.fresh r.kind, s.nextParty⟩
      (s.opening r)).Aside t → Outcome s step t

theorem outcome_idle {s t : Session} {step : Step} (htarget : s.target step = none)
    (h : s.Aside t) : Outcome s step t := by
  refine .aside ?_ h
  intro o op ho
  rw [htarget] at ho
  cases ho

theorem step_of_managed (s : Session) (hooks : List Hook) (step : Step) (hm : s.manager = none)
    (hr : s.running = 0) (h : step.isManaged) : (s.step .quiet hooks step).2 = s := by
  cases step <;> cases h <;>
    simp only [Session.step, managerFor, hm, Option.filter_none, Option.isNone_none, if_true, hr]

theorem managerFor_of_mem {s : Session} {m : Manager} (hm : s.manager = some m)
    {kinds : List Manager.Kind} (h : m.kind ∈ kinds) : s.managerFor kinds = some m := by
  rw [managerFor, hm, Option.filter_some, if_pos (decide_eq_true h)]

theorem managerFor_of_not_mem {s : Session} {m : Manager} (hm : s.manager = some m)
    {kinds : List Manager.Kind} (h : m.kind ∉ kinds) : s.managerFor kinds = none := by
  rw [managerFor, hm, Option.filter_some, if_neg]
  rwa [decide_eq_true_iff]

theorem send_cases (s : Session) (m : Message) :
    (s.send m).2 = s ∨ ∃ line, (s.send m).2 = s.note (.sent line m.text) := by
  unfold send transmit
  cases s.line? with
  | error f => exact Or.inl rfl
  | ok line =>
    dsimp only
    cases s.lines[line]?.bind (·.refusal) with
    | some f => exact Or.inl rfl
    | none => exact Or.inr ⟨line, rfl⟩

def Bare (s : Session) : Prop :=
  ∀ (o : Nat) (op : Operation), s.operations[o]? = some op → s.collection? op.party = none

theorem hears_or_completed {s : Session} (hbare : s.Bare) (o : Nat) :
    (∃ op, s.Hears o op) ∨ ∀ op, s.operations[o]? = some op → op.state.completed = true := by
  cases hop : s.operations[o]? with
  | none => exact Or.inr fun op h => by cases h
  | some op =>
    cases hc : op.state.completed with
    | false => exact Or.inl ⟨op, hop, hc, hbare o op hop⟩
    | true =>
      apply Or.inr
      intro op' h
      cases h
      exact hc

theorem outcome_of_target {s t : Session} {step : Step} (hbare : s.Bare) (o : Nat)
    (htarget : s.target step = some o)
    (hopen : ∀ op, s.Hears o op → (s.inform o op (s.block op step)).Aside t)
    (hcompleted : (∀ op, s.operations[o]? = some op → op.state.completed = true) → s.Aside t) :
    Outcome s step t := by
  rcases hears_or_completed hbare o with ⟨op, h⟩ | h
  · exact .informed o op htarget h (hopen op h)
  · refine .aside ?_ (hcompleted h)
    intro o' op ho hop
    rw [htarget] at ho
    cases ho
    exact h op hop

theorem aside_accept {s : Session} {o : Nat} {op : Operation} (h : s.Hears o op) (text : String) :
    (s.inform o op (s.hearingBlock op text)).Aside (s.accept .quiet o text) := by
  rw [accept_open s o op text h]
  refine aside_of_eq rfl rfl rfl rfl rfl ?_
  intro p
  have hreply : (s.hearingReply op text).filterMap (Incident.noticeFor? p) = [] := by
    unfold hearingReply
    split
    · split <;> rfl
    · rfl
  rw [told_append (s := s.inform o op (s.hearingBlock op text)) rfl p, hreply, List.append_nil]

theorem outcome_receive {s : Session} (hbare : s.Bare) (text : String) :
    Outcome s (.receive text) (s.receive .quiet s.front text).2 := by
  unfold receive
  cases hsub : s.lines[s.front]?.bind (·.subscriber) with
  | none =>
    refine outcome_idle ?_ (aside_self s)
    simp only [target, hsub, ite_self]
  | some o =>
    cases habandoned : s.abandoned with
    | true => exact outcome_idle (by simp only [target, habandoned, if_true]) (aside_self s)
    | false =>
      have htarget : s.target (.receive text) = some o := by
        simp only [target, habandoned, hsub, Bool.false_eq_true, if_false]
      simp only [Bool.false_eq_true, if_false]
      refine outcome_of_target hbare o htarget (fun op h => aside_accept h text) ?_
      intro h
      rw [accept_completed s o text h]
      exact aside_self s

theorem outcome_abort {s : Session} {step : Step} (hbare : s.Bare) (o : Nat) (cause : String)
    (waits : List ExitWait) (htarget : s.target step = some o)
    (hblock : ∀ op, s.block op step = op.state.kind.abortBlock cause) :
    Outcome s step ({ s with waits }.abort .quiet o cause) := by
  refine outcome_of_target hbare o htarget ?_ ?_
  · intro op h
    rw [abort_open { s with waits } o op cause ⟨h.registered, h.incomplete, h.bare⟩, hblock]
    exact aside_of_eq rfl rfl rfl rfl rfl fun _ => rfl
  · intro h
    rw [abort_completed { s with waits } o cause h]
    exact aside_of_eq rfl rfl rfl rfl rfl fun _ => rfl

theorem outcome_disconnect {s : Session} (hbare : s.Bare) (fault : Option ChannelFault)
    (htells : s.server.tells = true) :
    Outcome s (.disconnect fault) (s.disconnect .quiet fault) := by
  unfold disconnect
  cases habandoned : s.abandoned with
  | true =>
    refine outcome_idle ?_ (aside_self s)
    simp only [target, habandoned, Bool.not_true, Bool.false_eq_true, and_false, if_false]
  | false =>
    have htarget : s.target (.disconnect fault) = s.current := by
      simp only [target, habandoned, htells, Bool.not_false, and_self, if_true]
    cases hcurrent : s.current with
    | none => exact outcome_idle (htarget.trans hcurrent) (aside_self s)
    | some o =>
      exact outcome_abort hbare o (lossCause fault) s.waits (htarget.trans hcurrent) fun _ => rfl

theorem isCompleted_eq_true {s : Session} {o : Nat} (h : s.isCompleted o = true) (op : Operation)
    (hop : s.operations[o]? = some op) : op.state.completed = true := by
  rw [isCompleted, hop, Option.map_some, Option.getD_some] at h
  exact h

theorem outcome_beginDisconnect {s : Session} (hbare : s.Bare) (fault : Option ChannelFault)
    (htells : s.server.tells = true) :
    Outcome s (.beginDisconnect fault) (s.beginDisconnect .quiet fault) := by
  unfold beginDisconnect
  cases habandoned : s.abandoned with
  | true =>
    refine outcome_idle ?_ (aside_self s)
    simp only [target, habandoned, Bool.not_true, Bool.false_eq_true, false_and, and_false,
      if_false]
  | false =>
    simp only [Bool.false_eq_true, if_false]
    by_cases hwait : s.exitWait = 0
    · have htarget : s.target (.beginDisconnect fault) = s.current := by
        simp only [target, habandoned, htells, hwait, Bool.not_false, and_self, if_true]
      cases hcurrent : s.current with
      | none => exact outcome_idle (htarget.trans hcurrent) (aside_self s)
      | some o =>
        simp only [hwait, if_true]
        by_cases hcompleted : s.isCompleted o = true
        · rw [if_pos hcompleted]
          refine .aside ?_ (aside_self s)
          intro o' op ho hop
          rw [htarget, hcurrent] at ho
          cases ho
          exact isCompleted_eq_true hcompleted op hop
        · rw [if_neg hcompleted]
          apply outcome_abort hbare o (lossCause fault) s.waits (htarget.trans hcurrent)
          exact fun _ => rfl
    · have htarget : s.target (.beginDisconnect fault) = none := by
        simp only [target, hwait, and_false, if_false]
      apply outcome_idle htarget
      split
      · exact aside_self s
      · simp only [hwait, if_false]
        split
        · exact aside_self s
        · exact aside_of_eq rfl rfl rfl rfl rfl fun _ => rfl

theorem outcome_endDisconnect {s : Session} (hbare : s.Bare) (wait : Nat) :
    Outcome s (.endDisconnect wait) (s.endDisconnect .quiet wait) := by
  unfold endDisconnect
  cases hwait : s.waits[wait]? with
  | none => exact outcome_idle (by rw [target, hwait, Option.map_none]) (aside_self s)
  | some w =>
    refine outcome_abort hbare w.operation (lossCause w.fault) _ ?_ ?_
    · rw [target, hwait, Option.map_some]
    · intro op
      rw [block, hwait, Option.bind_some]

theorem outcome_hostExited {s : Session} (hbare : s.Bare) (stderr : Option String) :
    Outcome s (.hostExited stderr) (s.hostExited .quiet stderr) := by
  have hexited : s.Aside { s with hostHasExited := true } :=
    aside_of_eq rfl rfl rfl rfl rfl fun _ => rfl
  cases stderr with
  | none =>
    rw [hostExited_blank s none fun text h => by cases h]
    exact outcome_idle rfl hexited
  | some text =>
    cases hblank : Text.allBlank text with
    | true =>
      rw [hostExited_blank s (some text) fun text' h => by cases h; exact hblank]
      exact outcome_idle (by simp only [target, hblank, if_true]) hexited
    | false =>
      have htarget : s.target (.hostExited (some text)) = s.current := by
        simp only [target, hblank, Bool.false_eq_true, if_false]
      cases hcurrent : s.current with
      | none =>
        rw [hostExited_completed s (some text) fun o op ho => by rw [hcurrent] at ho; cases ho]
        exact outcome_idle (htarget.trans hcurrent) hexited
      | some o =>
        refine outcome_of_target hbare o (htarget.trans hcurrent) ?_ ?_
        · intro op h
          rw [hostExited_open s o op text h hcurrent hblank]
          exact aside_of_eq rfl rfl rfl rfl rfl fun _ => rfl
        · intro h
          rw [hostExited_completed s (some text) fun o' op ho hop => by
            rw [hcurrent] at ho
            cases ho
            exact h op hop]
          exact hexited

theorem outcome_start (s : Session) (r : StartRequest) (observer : Observer) :
    Outcome s (r.step observer) (s.step .quiet [] (r.step observer)).2 := by
  cases hfault : s.startFault? r with
  | some f =>
    rw [step_start_refused s r observer f hfault]
    refine outcome_idle ?_ (aside_welcome s observer [] false)
    cases r <;> rfl
  | none =>
    obtain ⟨-, -, ⟨line, hline⟩, -⟩ := (startFault?_eq_none_iff s r).mp hfault
    rw [step_start_accepted s r observer line hfault hline]
    refine .started r observer line rfl hfault hline ?_
    unfold opening
    rw [hline, Option.bind_some]
    cases s.lines[line]?.bind (·.refusal) with
    | none =>
      dsimp only
      rw [inform_of_no_completion _ _ _ _ (hears_started s r observer line).registered rfl]
      refine aside_of_eq rfl rfl rfl rfl rfl ?_
      intro p
      rw [told_note_sent, told_append (t := tellAll _ _ []) rfl p]
      exact (List.append_nil _).symm
    | some f => exact aside_self _

theorem aside_collectFor (s : Session) (observer : Observer) :
    s.Aside (s.step .quiet [] (.collectFor observer)).2 := by
  have hw := aside_welcome s observer [] true
  refine { hw with collects := fun p hp => Or.inr ?_ }
  cases hp
  change ((s.parties ++ [⟨observer, [], some .fresh⟩])[s.parties.length]?).bind (·.collection) ≠
    none
  rw [List.getElem?_concat_length]
  exact Option.some_ne_none _

theorem relay_cases (s : Session) (n : Notice) :
    (s.step .quiet [] (.relay n)).2 = s ∨
      ∃ p, s.collected = some p ∧ (s.step .quiet [] (.relay n)).2 = s.deliver .quiet p n := by
  cases hcollected : s.collected with
  | none =>
    apply Or.inl
    simp only [Session.step, hcollected]
  | some p =>
    refine Or.inr ⟨p, rfl, ?_⟩
    cases n
    case launchUnderDebugger info =>
      simp only [Session.step, hcollected, launchUnderDebugger]
      split
      · rename_i heq
        exact (Prod.mk.inj heq).2.symm
      · rename_i heq
        exact (Prod.mk.inj heq).2.symm
    all_goals simp only [Session.step, hcollected]

theorem aside_relay {s : Session}
    (hcollects : ∀ p, s.collected = some p → s.collection? p ≠ none) (n : Notice) :
    s.Aside (s.step .quiet [] (.relay n)).2 := by
  rcases relay_cases s n with h | ⟨p, hp, h⟩
  · rw [h]
    exact aside_self s
  · rw [h]
    exact aside_of_confined (confined_deliver s p n) (hcollects p hp)

theorem step_leave {s : Session} (h : s.manager = none) :
    (s.step .quiet [] .leave).2 = { s.close with abandoned := true } := by
  simp only [Session.step, Session.leave, h, Option.isSome_none, Bool.false_eq_true, if_false]

theorem step_listen (s : Session) : (s.step .quiet [] .listen).2 = s.listen.2 := by
  simp only [Session.step]
  split <;> rename_i heq <;> rw [heq]

theorem unmanaged_outcome {s : Session} (hbare : s.Bare)
    (hcollects : ∀ p, s.collected = some p → s.collection? p ≠ none) (step : Step)
    (hmanaged : step.isManaged = false) : Outcome s step (s.step .quiet [] step).2 := by
  cases step
  case listen =>
    rw [step_listen]
    exact outcome_idle rfl (aside_of_mute (mute_listen s))
  case discover criteria observer => exact outcome_start s (.discovery criteria) observer
  case run criteria observer => exact outcome_start s (.execution criteria) observer
  case receive text => exact outcome_receive hbare text
  case hostExited stderr => exact outcome_hostExited hbare stderr
  case endDisconnect wait => exact outcome_endDisconnect hbare wait
  case disconnect fault =>
    simp only [Session.step]
    split
    · rename_i htells
      exact outcome_disconnect hbare fault htells
    · rename_i htells
      exact outcome_idle (if_neg fun h => htells h.1) (aside_self s)
  case beginDisconnect fault =>
    simp only [Session.step]
    split
    · rename_i htells
      exact outcome_beginDisconnect hbare fault htells
    · rename_i htells
      exact outcome_idle (if_neg fun h => htells h.1) (aside_self s)
  case sendExtensions kind paths => exact outcome_idle rfl (aside_of_mute (mute_send s _))
  case cancelRun => exact outcome_idle rfl (aside_of_mute (mute_send s _))
  case abortRun => exact outcome_idle rfl (aside_of_mute (mute_send s _))
  case endSession => exact outcome_idle rfl (aside_of_mute (mute_endSession s))
  case close => exact outcome_idle rfl (aside_of_mute (mute_close s))
  case leave => exact outcome_idle rfl (aside_of_mute (mute_leave s))
  case connect =>
    apply outcome_idle rfl
    simp only [Session.step]
    split
    · exact aside_of_mute (mute_connect s s.front)
    · exact aside_self s
  case returnToLine line =>
    apply outcome_idle rfl
    simp only [Session.step]
    split <;> exact aside_of_eq rfl rfl rfl rfl rfl fun _ => rfl
  case collectFor observer => exact outcome_idle rfl (aside_collectFor s observer)
  case relay n => exact outcome_idle rfl (aside_relay hcollects n)
  all_goals first
    | (cases hmanaged; done)
    | exact outcome_idle rfl (aside_of_eq rfl rfl rfl rfl rfl fun _ => rfl)

theorem step_outcome {s : Session} (k : s.WellKept) (step : Step) :
    Outcome s step (s.step .quiet [] step).2 := by
  -- Without a manager the steps that a manager has to take change nothing.
  by_cases hmanaged : step.isManaged
  · rw [step_of_managed s [] step k.manager k.running hmanaged]
    refine outcome_idle ?_ (aside_self s)
    cases step <;> first | rfl | cases hmanaged
  · exact unmanaged_outcome k.bare k.collects step (eq_false_of_ne_true hmanaged)

theorem wellKept_outcome {s t : Session} {step : Step} (k : s.WellKept) (h : Outcome s step t) :
    t.WellKept := by
  cases h with
  | aside _ h => exact wellKept_aside k h
  | informed o op _ h ht => exact wellKept_aside (wellKept_inform k h.registered _) ht
  | started r observer line _ _ _ ht =>
    have hstarted := wellKept_started k r observer line
    exact wellKept_aside
      (wellKept_inform hstarted (hears_started s r observer line).registered _) ht

theorem wellKept_fresh (server : Server) (collector : Collector) (host : HostBehaviour)
    (exitWait : Nat) : (fresh server collector none host exitWait).WellKept where
  manager := rfl
  running := rfl
  enrolled := fun _ _ h => by cases h
  bare := fun _ _ h => by cases h
  distinct := fun _ _ _ _ h => by cases h
  collects := fun _ h => by cases h
  unheard := fun _ _ => rfl

theorem after_induction {motive : Session → Prop} {s : Session} (k : s.WellKept) (hs : motive s)
    (hstep : ∀ t, t.WellKept → motive t → ∀ step, motive (t.step .quiet [] step).2)
    (steps : List Step) : (s.after steps).WellKept ∧ motive (s.after steps) := by
  induction steps generalizing s with
  | nil => exact ⟨k, hs⟩
  | cons step steps ih => exact ih (wellKept_outcome k (step_outcome k step)) (hstep s k hs step)

theorem wellKept_after {s : Session} (k : s.WellKept) (steps : List Step) :
    (s.after steps).WellKept :=
  (after_induction (motive := fun _ => True) k trivial (fun _ _ _ _ => trivial) steps).1

end Session

end HostedTests
