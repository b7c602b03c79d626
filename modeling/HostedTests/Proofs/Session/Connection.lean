import HostedTests.Proofs.Session.Calls

namespace HostedTests

namespace Session

structure Wired (serving : Bool) (s : Session) : Prop where
  kept : s.WellKept
  inFlight : s.InFlight
  greets : s.server.greets = false
  tells : s.server.isOpen = true → s.server.tells = true
  alive : serving = true → s.closed = false → s.channel = some s.front
  dead : serving = false → s.closed = false → ∀ line, s.channel = some line →
    s.refusal? line = some .disposed

structure Undisturbed (s t : Session) : Prop where
  server : t.server = s.server
  lines : t.lines = s.lines
  front : t.front = s.front
  channel : t.channel = s.channel
  closed : t.closed = s.closed
  current : t.current = s.current

theorem undisturbed_self (s : Session) : s.Undisturbed s := ⟨rfl, rfl, rfl, rfl, rfl, rfl⟩

theorem Wired.refuses {s : Session} (h : s.Wired false) (hclosed : s.closed = false) (line : Nat)
    (hline : s.channel = some line) : ∃ f, s.refusal? line = some f :=
  ⟨.disposed, h.dead rfl hclosed line hline⟩

theorem wired_request {b : Bool} {s : Session} (h : s.Wired b) (step : Step)
    (hstep : Served.isRequest step = true) : (s.step .quiet [] step).2.Wired b := by
  have hr := requested_step h.kept h.greets step hstep
  have hclosed : (s.step .quiet [] step).2.closed = false → s.closed = false := by
    intro ht
    by_contra hnot
    rw [hr.closed (eq_true_of_ne_false hnot)] at ht
    cases ht
  refine ⟨wellKept_outcome h.kept (step_outcome h.kept step), inFlight_step h.kept h.inFlight step,
    hr.greets.trans h.greets, hr.tells h.tells, ?_, ?_⟩
  · intro hb ht
    rw [hr.channel, hr.front]
    exact h.alive hb (hclosed ht)
  · intro hb ht line hline
    rw [hr.refusals]
    rw [hr.channel] at hline
    exact h.dead hb (hclosed ht) line hline

theorem wired_endLine {s : Session} (h : s.Wired true) :
    (s.step .quiet [] .endLine).2.Wired false := by
  refine ⟨wellKept_outcome h.kept (step_outcome h.kept _), inFlight_step h.kept h.inFlight _,
    h.greets, h.tells, fun hb => (nomatch hb), ?_⟩
  intro _ hclosed line hline
  have hfront : line = s.front := Option.some.inj (hline.symm.trans (h.alive rfl hclosed))
  subst hfront
  have hlt : s.front < (s.subscribe s.front none).lines.length :=
    Nat.lt_of_lt_of_eq h.inFlight.front (length_lines_subscribe s s.front none).symm
  change ((s.subscribe s.front none).refuse s.front (some .disposed)).refusal? s.front = _
  rw [refusal?, refuse, List.getElem?_modify, List.getElem?_eq_getElem hlt]
  simp only [if_true]
  rfl

theorem wired_undisturbed {b : Bool} {s : Session} (h : s.Wired b) (step : Step)
    (hsame : s.Undisturbed (s.step .quiet [] step).2) : (s.step .quiet [] step).2.Wired b := by
  refine ⟨wellKept_outcome h.kept (step_outcome h.kept step), inFlight_step h.kept h.inFlight step,
    ?_, ?_, ?_, ?_⟩
  · rw [hsame.server]
    exact h.greets
  · rw [hsame.server]
    exact h.tells
  · rw [hsame.closed, hsame.front, hsame.channel]
    exact h.alive
  · rw [hsame.closed, hsame.channel]
    intro hb hc line hline
    rw [refusal?, hsame.lines]
    exact h.dead hb hc line hline

theorem wired_refuseSends {s : Session} (h : s.Wired true) (fault : Option ChannelFault) :
    (s.step .quiet [] (.refuseSends fault)).2.Wired true :=
  ⟨wellKept_outcome h.kept (step_outcome h.kept _), inFlight_step h.kept h.inFlight _, h.greets,
    h.tells, h.alive, fun hb => (nomatch hb)⟩

theorem wired_finishServing {s : Session} {b : Bool} (h : s.Wired b) :
    (s.step .quiet [] .finishServing).2.Wired b :=
  ⟨wellKept_outcome h.kept (step_outcome h.kept _), inFlight_step h.kept h.inFlight _, h.greets,
    fun ho => (nomatch ho), h.alive, h.dead⟩

theorem wired_client {s : Session} (h : s.Wired false) (hopen : s.server.isOpen = true) :
    let t := (s.step .quiet [] .replaceLine).2
    let u := (t.step .quiet [] .connect).2
    u.Wired true ∧ u.server = s.server ∧ u.waits = s.waits := by
  intro t u
  have kt : t.WellKept := wellKept_outcome h.kept (step_outcome h.kept _)
  have ht : t.InFlight := inFlight_step h.kept h.inFlight _
  have ku : u.WellKept := wellKept_outcome kt (step_outcome kt _)
  have hu : u.InFlight := inFlight_step kt ht _
  have htells : t.server.tells = true := h.tells hopen
  have hconnect : u = t.connect t.front := if_pos htells
  have hserver : u.server = s.server := by
    rw [hconnect]
    unfold connect
    split <;> rfl
  have hwaits : u.waits = s.waits := by
    rw [hconnect]
    unfold connect
    split <;> rfl
  refine ⟨⟨ku, hu, ?_, ?_, ?_, fun hb => (nomatch hb)⟩, hserver, hwaits⟩
  · rw [hserver]
    exact h.greets
  · rw [hserver]
    exact h.tells
  · intro _ hclosed
    have habandoned : t.abandoned = false := by
      by_contra hnot
      have htrue := eq_true_of_ne_false hnot
      have hsame : u = t := hconnect.trans (if_pos htrue)
      rw [hsame, ht.abandoned htrue] at hclosed
      cases hclosed
    have hsame : u = { t with channel := some t.front, connected := true } := by
      rw [hconnect, connect, habandoned, if_neg Bool.false_ne_true]
    rw [hsame]

theorem undisturbed_receive {s : Session} (k : s.WellKept) (line : Nat) (text : String) :
    let t := (s.receive .quiet line text).2
    s.Undisturbed t ∧ t.waits = s.waits := by
  unfold receive
  split
  · exact ⟨undisturbed_self s, rfl⟩
  · rename_i o _
    dsimp only
    split
    · exact ⟨undisturbed_self s, rfl⟩
    · rcases hears_or_completed k.bare o with ⟨op, h⟩ | h
      · rw [accept_open s o op text h]
        exact ⟨⟨rfl, rfl, rfl, rfl, rfl, rfl⟩, rfl⟩
      · rw [accept_completed s o text h]
        exact ⟨undisturbed_self s, rfl⟩

theorem undisturbed_abort {s : Session} (k : s.WellKept) (o : Nat) (cause : String) :
    let t := s.abort .quiet o cause
    s.Undisturbed t ∧ t.waits = s.waits := by
  rcases hears_or_completed k.bare o with ⟨op, h⟩ | h
  · rw [abort_open s o op cause h]
    exact ⟨⟨rfl, rfl, rfl, rfl, rfl, rfl⟩, rfl⟩
  · rw [abort_completed s o cause h]
    exact ⟨undisturbed_self s, rfl⟩

theorem not_isOpen_abort {s : Session} (k : s.WellKept) (o : Nat) (cause : String) :
    ¬(s.abort .quiet o cause).IsOpen o := by
  rintro ⟨op', hop', hopen⟩
  rcases hears_or_completed k.bare o with ⟨op, h⟩ | h
  · obtain ⟨hlt, -⟩ := List.getElem?_eq_some_iff.mp h.registered
    rw [abort_open s o op cause h, inform, List.getElem?_set_self hlt] at hop'
    cases hop'
    rw [Operation.after_completed, op.state.kind.any_abortBlock, Bool.or_true] at hopen
    cases hopen
  · rw [abort_completed s o cause h] at hop'
    rw [h op' hop'] at hopen
    cases hopen

theorem beginDisconnect_cases {s : Session} (k : s.WellKept) (h : s.InFlight)
    (fault : Option ChannelFault) (hlive : s.server.tells = true ∨ s.closed = true) :
    let t := (s.step .quiet [] (.beginDisconnect fault)).2
    s.Undisturbed t ∧
      ((t.waits = s.waits ∧ ∀ o, s.current = some o → ¬t.IsOpen o) ∨
        ∃ w, t.waits = s.waits ++ [w] ∧ ∀ o, s.current = some o → w.operation = o) := by
  have hsilent : (∀ o, s.current = some o → ¬s.IsOpen o) → s.Undisturbed s ∧
      ((s.waits = s.waits ∧ ∀ o, s.current = some o → ¬s.IsOpen o) ∨
        ∃ w, s.waits = s.waits ++ [w] ∧ ∀ o, s.current = some o → w.operation = o) :=
    fun hnone => ⟨undisturbed_self s, Or.inl ⟨rfl, hnone⟩⟩
  have hdetached : s.closed = true → ∀ o, s.current = some o → ¬s.IsOpen o := by
    intro hclosed o ho
    rw [h.detached hclosed] at ho
    cases ho
  simp only [Session.step]
  split
  · unfold beginDisconnect
    split
    · rename_i habandoned
      exact hsilent (hdetached (h.abandoned habandoned))
    · split
      · rename_i hcurrent
        apply hsilent
        intro o ho
        rw [hcurrent] at ho
        cases ho
      · rename_i o hcurrent
        split
        · rename_i hcompleted
          apply hsilent
          rintro o' ho' ⟨op, hop, hopen⟩
          cases hcurrent.symm.trans ho'
          rw [isCompleted_eq_true hcompleted op hop] at hopen
          cases hopen
        · split
          · obtain ⟨hsame, hwaits⟩ := undisturbed_abort k o (lossCause fault)
            refine ⟨hsame, Or.inl ⟨hwaits, ?_⟩⟩
            intro o' ho'
            cases hcurrent.symm.trans ho'
            exact not_isOpen_abort k o (lossCause fault)
          · refine ⟨⟨rfl, rfl, rfl, rfl, rfl, rfl⟩, Or.inr ⟨⟨o, fault⟩, rfl, ?_⟩⟩
            intro o' ho'
            exact Option.some.inj (hcurrent.symm.trans ho')
  · rename_i htells
    rcases hlive with hlive | hclosed
    · exact absurd hlive htells
    · exact hsilent (hdetached hclosed)

theorem endDisconnect_only {s : Session} (k : s.WellKept) (w : ExitWait) (hwaits : s.waits = [w])
    (hcurrent : ∀ o, s.current = some o → s.IsOpen o → w.operation = o) :
    let t := (s.step .quiet [] (.endDisconnect 0)).2
    s.Undisturbed t ∧ t.waits = [] ∧ ∀ o, s.current = some o → ¬t.IsOpen o := by
  intro t
  let u : Session := { s with waits := [] }
  have ku : u.WellKept := wellKept_aside k (aside_of_eq rfl rfl rfl rfl rfl fun _ => rfl)
  have hstep : t = u.abort .quiet w.operation (lossCause w.fault) := by
    have hget : s.waits[0]? = some w := by rw [hwaits]; rfl
    have herase : s.waits.eraseIdx 0 = [] := by rw [hwaits]; rfl
    change s.endDisconnect .quiet 0 = _
    rw [endDisconnect, hget]
    dsimp only
    rw [herase]
  have hopen : ¬t.IsOpen w.operation := by
    rw [hstep]
    exact not_isOpen_abort ku w.operation (lossCause w.fault)
  obtain ⟨hsame, hempty⟩ := undisturbed_abort ku w.operation (lossCause w.fault)
  rw [← hstep] at hsame hempty
  refine ⟨⟨hsame.server, hsame.lines, hsame.front, hsame.channel, hsame.closed, hsame.current⟩,
    hempty, ?_⟩
  -- An operation that is still incomplete was so before, so it is the one that was waited for.
  intro o ho ho'
  rcases isOpen_of_step k _ o ho' with hbefore | ⟨-, r, observer, hr, -⟩
  · rw [← hcurrent o ho hbefore] at ho'
    exact hopen ho'
  · cases r <;> cases hr

theorem aborted_start {s : Session} (h : s.Wired false) {r : StartRequest} (observer : Observer)
    (ha : s.Accepts r) :
    let t := (s.step .quiet [] (r.step observer)).2
    ∃ ns, AbortSequence r.kind ChannelFault.disposed.message ns ∧
      t.record = s.record ++ ns.map (.told s.nextParty) ∧
      t.operations = s.operations ++ [⟨⟨r.kind, true⟩, s.nextParty⟩] := by
  have hfault := (startFault?_eq_none_iff_accepts s r).mpr ha
  obtain ⟨line, hline⟩ := ha.connected
  have hrefusal : s.lines[line]?.bind (·.refusal) = some .disposed :=
    h.dead rfl ha.live line hline
  cases begun_step r observer hfault hline with
  | sent _ hnone _ _ _ =>
    rw [hrefusal] at hnone
    cases hnone
  | aborted f ns hsome hsequence hrecord hoperations =>
    cases hrefusal.symm.trans hsome
    exact ⟨ns, hsequence, hrecord, hoperations⟩

end Session

namespace Served

inductive Phase (v : Served) : Prop where
  | idle : v.serving = false → v.loss = none → v.finishing = [] → v.session.waits = [] →
    (∀ o, v.session.current = some o → ¬v.session.IsOpen o) → Phase v
  | serving : v.serving = true → v.loss = none → v.finishing = [] → v.session.waits = [] →
    v.session.server.isOpen = true → Phase v
  | lost (fault : ChannelFault) : v.serving = false → v.loss = some fault → v.finishing = [] →
    v.session.waits = [] → v.session.server.isOpen = true ∨ v.session.closed = true → Phase v
  | finishing (w : ExitWait) : v.serving = false → v.loss = none → v.finishing = [v.turn] →
    v.session.waits = [w] → v.session.server.isOpen = true ∨ v.session.closed = true →
    (∀ o, v.session.current = some o → v.session.IsOpen o → w.operation = o) → Phase v

structure Sound (v : Served) : Prop where
  wired : v.session.Wired v.serving
  phase : v.Phase

theorem isWaiting_iff (v : Served) :
    v.isWaiting = true ↔ v.session.server.isOpen = true ∧ v.serving = false ∧ v.loss = none ∧
      v.turn ∉ v.finishing := by
  simp only [isWaiting, Bool.and_eq_true, Bool.not_eq_true', Option.isNone_iff_eq_none,
    List.contains_eq_mem, decide_eq_false_iff_not, and_assoc]

theorem sound_endLine {v : Served} (h : v.session.Wired true) (hfinishing : v.finishing = [])
    (hwaits : v.session.waits = [])
    (hlive : v.session.server.isOpen = true ∨ v.session.closed = true) (fault : ChannelFault) :
    (v.endLine fault).Sound where
  wired := Session.wired_endLine h
  phase := .lost fault rfl rfl hfinishing hwaits hlive

theorem request_serving (v : Served) (step : Step) (hserving : v.serving = true)
    (hopen : v.session.server.isOpen = true) :
    v.request step =
      if (v.take step).session.server.isOpen then v.take step
      else (v.take step).endLine .disposed := by
  have hserving' : (v.take step).serving = true := hserving
  unfold request
  simp only [hopen, Bool.not_true, Bool.false_eq_true, false_and, if_false, hserving', true_and]
  cases (v.take step).session.server.isOpen <;> rfl

theorem request_unserved (v : Served) (step : Step) (hserving : v.serving = false) :
    v.request step = { v.take step with
      turn := if !v.session.server.isOpen ∧ (v.take step).session.server.isOpen ∧
        v.session.server.starts < (v.take step).session.server.starts then v.turn + 1
        else v.turn } := by
  have hnot : ¬((v.take step).serving = true ∧ !(v.take step).session.server.isOpen) := by
    rintro ⟨hserving', -⟩
    exact Bool.false_ne_true (hserving.symm.trans hserving')
  unfold request
  dsimp only
  rw [if_neg hnot]
  split <;> rfl

theorem sound_request {v : Served} (h : v.Sound) (step : Step) (hstep : isRequest step = true) :
    (v.request step).Sound := by
  have hr := Session.requested_step h.wired.kept h.wired.greets step hstep
  have hwired : (v.take step).session.Wired v.serving := Session.wired_request h.wired step hstep
  have hwaits : (v.take step).session.waits = v.session.waits := hr.waits
  have hlive : v.session.server.isOpen = true ∨ v.session.closed = true →
      (v.take step).session.server.isOpen = true ∨ (v.take step).session.closed = true := by
    rintro (hopen | hclosed)
    · exact hr.stays hopen
    · exact Or.inr (hr.closed hclosed)
  have hopen : v.serving = false → ∀ o, (v.take step).session.current = some o →
      (v.take step).session.IsOpen o → v.session.current = some o ∧ v.session.IsOpen o := by
    intro hserving o ho ho'
    have hdead : v.session.Wired false := hserving ▸ h.wired
    exact Session.open_of_dead h.wired.kept h.wired.inFlight step hdead.refuses o ho ho'
  cases h.phase with
  | idle hserving hloss hfinishing hempty hover =>
    rw [request_unserved v step hserving]
    refine ⟨hwired, .idle hserving hloss hfinishing (hwaits.trans hempty) ?_⟩
    intro o ho ho'
    obtain ⟨hbefore, hbefore'⟩ := hopen hserving o ho ho'
    exact hover o hbefore hbefore'
  | serving hserving hloss hfinishing hempty hserver =>
    rw [request_serving v step hserving hserver]
    split
    · rename_i hopen'
      exact ⟨hwired, .serving hserving hloss hfinishing (hwaits.trans hempty) hopen'⟩
    · rw [hserving] at hwired
      exact sound_endLine hwired hfinishing (hwaits.trans hempty) (hlive (Or.inl hserver)) _
  | lost fault hserving hloss hfinishing hempty hlive' =>
    rw [request_unserved v step hserving]
    exact ⟨hwired, .lost fault hserving hloss hfinishing (hwaits.trans hempty) (hlive hlive')⟩
  | finishing w hserving hloss hfinishing hwait hlive' hover =>
    -- A closed session does not start its server again, so the turn that is to finish stays.
    have hturn : ¬((!v.session.server.isOpen) = true ∧ (v.take step).session.server.isOpen = true ∧
        v.session.server.starts < (v.take step).session.server.starts) := by
      rintro ⟨hshut, hopen', -⟩
      rw [Bool.not_eq_true'] at hshut
      rcases hlive' with hserver | hclosed
      · rw [hshut] at hserver
        cases hserver
      · have hsame : (v.take step).session.server = v.session.server := hr.ended hclosed
        rw [hsame, hshut] at hopen'
        cases hopen'
    rw [request_unserved v step hserving, if_neg hturn]
    refine ⟨hwired, .finishing w hserving hloss hfinishing (hwaits.trans hwait) (hlive hlive') ?_⟩
    intro o ho ho'
    obtain ⟨hbefore, hbefore'⟩ := hopen hserving o ho ho'
    exact hover o hbefore hbefore'

theorem idle_of_isWaiting {v : Served} (h : v.Sound) (hw : v.isWaiting = true) :
    v.session.Wired false ∧ v.session.server.isOpen = true ∧ v.serving = false ∧
      v.finishing = [] ∧ v.session.waits = [] := by
  obtain ⟨hopen, hserving, hloss, hturn⟩ := (isWaiting_iff v).mp hw
  have hwired : v.session.Wired false := hserving ▸ h.wired
  cases h.phase with
  | idle _ _ hfinishing hempty _ => exact ⟨hwired, hopen, hserving, hfinishing, hempty⟩
  | serving hserving' _ _ _ _ =>
    rw [hserving] at hserving'
    cases hserving'
  | lost fault _ hloss' _ _ _ =>
    rw [hloss] at hloss'
    cases hloss'
  | finishing w _ _ hfinishing _ _ _ =>
    rw [hfinishing] at hturn
    exact absurd List.mem_cons_self hturn

theorem sound_client {v : Served} (h : v.Sound) : (v.step .client).Sound := by
  simp only [step]
  split
  · rename_i hw
    obtain ⟨hwired, hopen, -, hfinishing, hempty⟩ := idle_of_isWaiting h hw
    obtain ⟨hwired', hserver, hwaits⟩ := Session.wired_client hwired hopen
    obtain ⟨-, -, hloss, -⟩ := (isWaiting_iff v).mp hw
    refine ⟨hwired', .serving rfl hloss hfinishing (hwaits.trans hempty) ?_⟩
    exact (congrArg Server.isOpen hserver).trans hopen
  · exact h

theorem sound_acceptFails {v : Served} (h : v.Sound) (system : String) :
    (v.step (.acceptFails system)).Sound := by
  simp only [step]
  split
  · rename_i hw
    obtain ⟨-, hopen, hserving, hfinishing, hempty⟩ := idle_of_isWaiting h hw
    exact ⟨h.wired, .lost (.listen system) hserving rfl hfinishing hempty (Or.inl hopen)⟩
  · exact h

theorem serving_phase {v : Served} (h : v.Sound) (hserving : v.serving = true) :
    v.session.Wired true ∧ v.loss = none ∧ v.finishing = [] ∧ v.session.waits = [] ∧
      v.session.server.isOpen = true := by
  have hwired : v.session.Wired true := hserving ▸ h.wired
  have hnot : v.serving ≠ false := by
    rw [hserving]
    exact Bool.noConfusion
  cases h.phase with
  | serving _ hloss hfinishing hempty hopen => exact ⟨hwired, hloss, hfinishing, hempty, hopen⟩
  | idle hserving' _ _ _ _ => exact absurd hserving' hnot
  | lost fault hserving' _ _ _ _ => exact absurd hserving' hnot
  | finishing w hserving' _ _ _ _ _ => exact absurd hserving' hnot

theorem sound_frame {v : Served} (h : v.Sound) (text : String) : (v.step (.frame text)).Sound := by
  simp only [step]
  split
  · rename_i hserving
    obtain ⟨hwired, hloss, hfinishing, hempty, hopen⟩ := serving_phase h hserving
    obtain ⟨hsame, hwaits⟩ := Session.undisturbed_receive hwired.kept v.session.front text
    refine ⟨?_, .serving hserving hloss hfinishing (hwaits.trans hempty) ?_⟩
    · rw [take, hserving]
      exact Session.wired_undisturbed hwired (.receive text) hsame
    · exact (congrArg Server.isOpen hsame.server).trans hopen
  · exact h

theorem sound_sendsFail {v : Served} (h : v.Sound) (fault : ChannelFault) :
    (v.step (.sendsFail fault)).Sound := by
  simp only [step]
  split
  · rename_i hserving
    obtain ⟨hwired, hloss, hfinishing, hempty, hopen⟩ := serving_phase h hserving
    refine ⟨?_, .serving hserving hloss hfinishing hempty hopen⟩
    rw [take, hserving]
    exact Session.wired_refuseSends hwired (some fault)
  · exact h

theorem sound_lineEnds {v : Served} (h : v.Sound) (fault : ChannelFault) :
    (v.step (.lineEnds fault)).Sound := by
  simp only [step]
  split
  · rename_i hserving
    obtain ⟨hwired, -, hfinishing, hempty, hopen⟩ := serving_phase h hserving
    exact sound_endLine hwired hfinishing hempty (Or.inl hopen) fault
  · exact h

theorem finish_turn (v : Served) : v.finish v.turn = v.take .finishServing := if_pos rfl

theorem lost_phase {v : Served} (h : v.Sound) {fault : ChannelFault} (hloss : v.loss = some fault) :
    v.serving = false ∧ v.finishing = [] ∧ v.session.waits = [] ∧
      (v.session.server.isOpen = true ∨ v.session.closed = true) := by
  have hnot : v.loss ≠ none := by
    rw [hloss]
    exact Option.some_ne_none _
  cases h.phase with
  | lost _ hserving _ hfinishing hempty hlive => exact ⟨hserving, hfinishing, hempty, hlive⟩
  | idle _ hnone _ _ _ => exact absurd hnone hnot
  | serving _ hnone _ _ _ => exact absurd hnone hnot
  | finishing _ _ hnone _ _ _ _ => exact absurd hnone hnot

theorem sound_lossTold {v : Served} (h : v.Sound) : (v.step .lossTold).Sound := by
  simp only [step]
  cases hloss : v.loss with
  | none => exact h
  | some fault =>
    obtain ⟨hserving, hfinishing, hempty, hlive⟩ := lost_phase h hloss
    let cause := if v.session.server.isOpen then some fault else none
    let u : Served := { v.take (.beginDisconnect cause) with loss := none }
    obtain ⟨hsame, hcases⟩ :=
      Session.beginDisconnect_cases h.wired.kept h.wired.inFlight cause
        (hlive.imp_left h.wired.tells)
    have hu : u.session.Wired v.serving := Session.wired_undisturbed h.wired _ hsame
    have hcurrent : u.session.current = v.session.current := hsame.current
    -- Either the loss is dealt with at once and the turn ends, or the turn waits for the exit.
    have htell : v.tellLoss fault =
        if v.session.waits.length < u.session.waits.length then
          { u with finishing := u.finishing ++ [u.turn] }
        else u.finish u.turn := rfl
    change (v.tellLoss fault).Sound
    rw [htell]
    rcases hcases with ⟨hwaits, hover⟩ | ⟨w, hwaits, hover⟩
    · have hnot : ¬v.session.waits.length < u.session.waits.length := by
        rw [show u.session.waits = v.session.waits from hwaits]
        exact Nat.lt_irrefl _
      rw [if_neg hnot, finish_turn]
      refine ⟨Session.wired_finishServing hu, .idle hserving rfl hfinishing ?_ ?_⟩
      · exact (show u.session.waits = v.session.waits from hwaits).trans hempty
      · intro o ho
        exact hover o (hcurrent.symm.trans ho)
    · have hone : u.session.waits = [w] := by
        rw [show u.session.waits = v.session.waits ++ [w] from hwaits, hempty]
        rfl
      have hlt : v.session.waits.length < u.session.waits.length := by
        rw [hone, hempty]
        exact Nat.zero_lt_one
      rw [if_pos hlt]
      refine ⟨hu, .finishing w hserving rfl ?_ hone ?_ ?_⟩
      · change v.finishing ++ [v.turn] = [v.turn]
        rw [hfinishing]
        rfl
      · rw [show u.session.server = v.session.server from hsame.server,
          show u.session.closed = v.session.closed from hsame.closed]
        exact hlive
      · intro o ho _
        exact hover o (hcurrent.symm.trans ho)

theorem sound_waitEnds {v : Served} (h : v.Sound) (wait : Nat) :
    (v.step (.waitEnds wait)).Sound := by
  simp only [step]
  cases hwait : v.finishing[wait]? with
  | none => exact h
  | some turn =>
    have hne : v.finishing ≠ [] := by
      intro hnil
      rw [hnil] at hwait
      cases hwait
    cases h.phase with
    | idle _ _ hfinishing _ _ => exact absurd hfinishing hne
    | serving _ _ hfinishing _ _ => exact absurd hfinishing hne
    | lost _ _ _ hfinishing _ _ => exact absurd hfinishing hne
    | finishing w hserving hloss hfinishing hwaits _ hover =>
      rw [hfinishing] at hwait
      have hzero : wait = 0 := by
        have hlt := (List.getElem?_eq_some_iff.mp hwait).1
        rw [List.length_singleton] at hlt
        omega
      subst hzero
      have hturn : v.turn = turn := Option.some.inj hwait
      subst hturn
      obtain ⟨hsame, hempty, hnone⟩ := Session.endDisconnect_only h.wired.kept w hwaits hover
      have hu : (v.take (.endDisconnect 0)).session.Wired v.serving :=
        Session.wired_undisturbed h.wired _ hsame
      let u : Served := { v.take (.endDisconnect 0) with
        finishing := (v.take (.endDisconnect 0)).finishing.eraseIdx 0 }
      have herase : u.finishing = [] := by
        change v.finishing.eraseIdx 0 = []
        rw [hfinishing]
        rfl
      have hfinish : u.finish v.turn = u.take .finishServing := finish_turn u
      change (u.finish v.turn).Sound
      rw [hfinish]
      refine ⟨Session.wired_finishServing hu, .idle hserving hloss herase hempty ?_⟩
      intro o ho
      exact hnone o (hsame.current.symm.trans ho)

theorem sound_step {v : Served} (h : v.Sound) (step : ServedStep) : (v.step step).Sound := by
  cases step with
  | request s =>
    simp only [Served.step]
    split
    · rename_i hs
      exact sound_request h s hs
    · exact h
  | client => exact sound_client h
  | acceptFails system => exact sound_acceptFails h system
  | frame text => exact sound_frame h text
  | sendsFail fault => exact sound_sendsFail h fault
  | lineEnds fault => exact sound_lineEnds h fault
  | lossTold => exact sound_lossTold h
  | waitEnds wait => exact sound_waitEnds h wait

theorem sound_fresh (port exitWait : Nat) (host : HostBehaviour) :
    (fresh port exitWait host).Sound where
  wired :=
    ⟨Session.wellKept_fresh _ _ host exitWait, Session.inFlight_fresh _ _ host exitWait, rfl,
      fun ho => (nomatch ho), fun hb => (nomatch hb), fun _ _ _ hl => (nomatch hl)⟩
  phase := .idle rfl rfl rfl rfl fun _ ho => (nomatch ho)

theorem sound_after {v : Served} (h : v.Sound) (steps : List ServedStep) :
    (v.after steps).Sound := by
  induction steps generalizing v with
  | nil => exact h
  | cons step steps ih => exact ih (sound_step h step)

theorem no_operation_outlives_connection (port exitWait : Nat) (host : HostBehaviour)
    (steps : List ServedStep) :
    let v := (fresh port exitWait host).after steps
    v.serving = false →
      (v.loss = none → v.turn ∉ v.finishing → ∀ o op, v.session.current = some o →
        v.session.operations[o]? = some op → op.state.completed = true) ∧
      ∀ (r : StartRequest) (observer : Observer),
        let t := (v.session.step .quiet [] (r.step observer)).2
        v.session.Accepts r → ∃ ns, AbortSequence r.kind ChannelFault.disposed.message ns ∧
          t.record = v.session.record ++ ns.map (.told v.session.nextParty) ∧
          t.operations = v.session.operations ++ [⟨⟨r.kind, true⟩, v.session.nextParty⟩] := by
  intro v hserving
  have h : v.Sound := sound_after (sound_fresh port exitWait host) steps
  have hwired : v.session.Wired false := hserving ▸ h.wired
  constructor
  · intro hloss hturn o op ho hop
    cases h.phase with
    | idle _ _ _ _ hover =>
      by_contra hnot
      exact hover o ho ⟨op, hop, eq_false_of_ne_true hnot⟩
    | serving hserving' _ _ _ _ =>
      rw [hserving] at hserving'
      cases hserving'
    | lost _ _ hloss' _ _ _ =>
      rw [hloss] at hloss'
      cases hloss'
    | finishing _ _ _ hfinishing _ _ _ =>
      rw [hfinishing] at hturn
      exact absurd List.mem_cons_self hturn
  · intro r observer t ha
    exact Session.aborted_start hwired observer ha

theorem no_operation_outlives_connection_peer :
    let v := (fresh 4000 0 .elsewhere).after
      [.request .listen, .client, .request (.discover (.ofSources ["a.dll"]) .plain),
        .lineEnds .peerClosed, .lossTold]
    let r : StartRequest := .discovery (.ofSources ["b.dll"])
    v.serving = false ∧ v.session.current = some 0 ∧
      (∀ op, v.session.operations[0]? = some op → op.state.completed = true) ∧
      (v.session.step .quiet [] (r.step .plain)).2.operations =
        v.session.operations ++ [⟨⟨.discovery, true⟩, v.session.nextParty⟩] := by
  intro v r
  have hv : v = (fresh 4000 0 .elsewhere).after _ := rfl
  have hserving : v.serving = false := by decide +kernel
  have hloss : v.loss = none := by decide +kernel
  have hturn : v.turn ∉ v.finishing := by decide +kernel
  have hcurrent : v.session.current = some 0 := by decide +kernel
  have hchannel : v.session.channel = some 1 := by decide +kernel
  have hlive : v.session.closed = false := by decide +kernel
  have hclaim := no_operation_outlives_connection 4000 0 .elsewhere _ (hv ▸ hserving)
  -- From here on only these facts about the session count, and nothing is to compute it again.
  rw [← hv] at hclaim
  clear_value v
  obtain ⟨hover, hstarts⟩ := hclaim
  have hsettled := hover hloss hturn
  have haccepts : v.session.Accepts r :=
    ⟨hlive, List.cons_ne_nil _ _, ⟨1, hchannel⟩, hsettled⟩
  obtain ⟨_, -, -, hoperations⟩ := hstarts r .plain haccepts
  exact ⟨hserving, hcurrent, fun op hop => hsettled 0 op hcurrent hop, hoperations⟩

end Served

end HostedTests
