import HostedTests.Proofs.Session.Connection
import HostedTests.Proofs.Session.Speaking

/-!
Whom a session takes for connected. What is sent goes to the host that the server serves, and that
one was accepted after the server was last started. But once a host was accepted, the session says
ever after that one is connected, even while the server waits for the next.
-/

namespace HostedTests

namespace Session

theorem connected_step {s : Session} (k : s.WellKept) (hgreets : s.server.greets = false)
    {step : Step} (h : step ≠ .connect) :
    (s.step .quiet [] step).2.connected = s.connected := by
  by_cases hmanaged : step.isManaged
  · rw [step_of_managed s [] step k.manager k.running hmanaged]
  by_cases hconveys : step.conveys
  · rw [framed_step k step hconveys]
  have hstart (r : StartRequest) (observer : Observer) :
      (s.step .quiet [] (r.step observer)).2.connected = s.connected := by
    cases hfault : s.startFault? r with
    | some f =>
      rw [step_start_refused s r observer f hfault]
      rfl
    | none =>
      obtain ⟨-, -, ⟨line, hline⟩, -⟩ := (startFault?_eq_none_iff s r).mp hfault
      rw [step_start_accepted s r observer line hfault hline]
      cases s.lines[line]?.bind (·.refusal) <;> rfl
  have hclose : s.close.connected = s.connected := by
    unfold close
    split
    · rfl
    · dsimp only
      split <;> rfl
  cases step
  case listen =>
    rw [step_listen, listen_eq s hgreets]
    split <;> rfl
  case discover criteria observer => exact hstart (.discovery criteria) observer
  case run criteria observer => exact hstart (.execution criteria) observer
  case close => exact hclose
  case leave =>
    rw [step_leave k.manager]
    exact hclose
  case connect => exact absurd rfl h
  case returnToLine line =>
    simp only [Session.step]
    split <;> rfl
  all_goals first
    | exact absurd rfl hmanaged
    | exact absurd rfl hconveys
    | rfl

structure Guarded (s : Session) : Prop where
  exclusive : s.server.exclusive = true
  shut : s.closed = true → s.server.isOpen = false

theorem exclusive_start (v : Server) : v.start.2.exclusive = v.exclusive := by
  unfold Server.start
  dsimp only
  split
  · rfl
  · split <;> rfl

theorem exclusive_serverAfter (s : Session) (step : Step) :
    (s.serverAfter step).exclusive = s.server.exclusive := by
  cases step <;> simp only [serverAfter]
  case listen =>
    split
    · rfl
    · exact exclusive_start s.server
  case close => split <;> rfl
  case leave => split <;> rfl

theorem guarded_step {s : Session} (k : s.WellKept) (h : s.Guarded) (step : Step) :
    (s.step .quiet [] step).2.Guarded := by
  refine ⟨?_, ?_⟩ <;> rw [(linked_step k step).server]
  · exact (exclusive_serverAfter s step).trans h.exclusive
  · rw [closed_step_eq k step]
    have hstop : (if s.closed then s.server else s.server.stop).isOpen = false := by
      split
      · rename_i hclosed
        exact h.shut hclosed
      · rfl
    cases step
    case listen =>
      intro hclosed
      have hbefore : s.closed = true := (Bool.or_false _).symm.trans hclosed
      rw [serverAfter, if_pos hbefore]
      exact h.shut hbefore
    case close => exact fun _ => hstop
    case leave => exact fun _ => hstop
    case finishServing => exact fun _ => rfl
    all_goals exact fun hclosed => h.shut ((Bool.or_false _).symm.trans hclosed)

theorem listen_refused {s : Session} (h : s.Guarded) (hopen : s.server.isOpen = true) :
    ∃ f, (s.step .quiet [] .listen).1 = .refused f := by
  have hstart : ∃ f, s.server.start.1 = .error f := by
    unfold Server.start
    dsimp only
    split
    · exact ⟨_, rfl⟩
    · rw [if_pos ⟨h.exclusive, hopen⟩]
      exact ⟨_, rfl⟩
  obtain ⟨f, hf⟩ := hstart
  have hlisten : ∃ f t, s.listen = (.error f, t) := by
    unfold listen
    split
    · exact ⟨_, _, rfl⟩
    · generalize s.server.start = started at hf
      obtain ⟨_, server⟩ := started
      cases hf
      exact ⟨_, _, rfl⟩
  obtain ⟨f, t, hlisten⟩ := hlisten
  refine ⟨f, ?_⟩
  simp only [Session.step, hlisten]

end Session

namespace Served

theorem guarded_after (port exitWait : Nat) (host : HostBehaviour) (steps : List ServedStep) :
    ((fresh port exitWait host).after steps).session.Guarded := by
  obtain ⟨ss, -, hsession⟩ := leads_after (fresh port exitWait host) steps
  rw [hsession]
  exact (Session.after_induction (Session.wellKept_fresh _ _ host exitWait)
    ⟨rfl, fun hclosed => nomatch hclosed⟩ (fun _ k h step => Session.guarded_step k h step) ss).2

theorem live_of_serving {v : Served} (h : v.Sound) (hguarded : v.session.Guarded)
    (hserving : v.serving = true) :
    v.session.closed = false ∧ v.session.channel = some v.session.front := by
  obtain ⟨hwired, -, -, -, hopen⟩ := serving_phase h hserving
  have hclosed : v.session.closed = false := by
    by_contra hnot
    rw [hguarded.shut (eq_true_of_ne_false hnot)] at hopen
    cases hopen
  exact ⟨hclosed, hwired.alive rfl hclosed⟩

theorem transmits_take {v : Served} (h : v.Sound) (hguarded : v.session.Guarded) (s : Step)
    (hreads : s.reads = true → v.serving = true) :
    (v.take s).session.transmitted = v.session.transmitted ∨
      v.serving = true ∧ ∃ text,
        (v.take s).session.transmitted = v.session.transmitted ++ [(v.session.front, text)] := by
  have k := h.wired.kept
  cases hserving : v.serving with
  | true =>
    cases Session.sends_step k s with
    | nothing hsame => exact Or.inl hsame
    | along line text hchannel _ _ hsent =>
      have hline : line = v.session.front :=
        Option.some.inj (hchannel.symm.trans (live_of_serving h hguarded hserving).2)
      exact Or.inr ⟨rfl, text, hline ▸ hsent⟩
  | false =>
    apply Or.inl
    cases hclosed : v.session.closed with
    | true =>
      refine (Session.keeps_step k h.wired.inFlight hclosed s fun hr => ?_).1
      rw [hserving] at hreads
      exact absurd (hreads hr) Bool.false_ne_true
    | false =>
      cases Session.sends_step k s with
      | nothing hsame => exact hsame
      | along line text hchannel haccepts _ _ =>
        rw [h.wired.dead hserving hclosed line hchannel] at haccepts
        cases haccepts

structure Agrees (s t : Session) : Prop where
  transmitted : t.transmitted = s.transmitted
  front : t.front = s.front
  connected : t.connected = s.connected

theorem agrees_request (v : Served) (s : Step) :
    Agrees (v.take s).session (v.request s).session := by
  unfold request
  dsimp only
  split
  · exact ⟨rfl, rfl, rfl⟩
  · split <;> exact ⟨rfl, rfl, rfl⟩

theorem agrees_finish (v : Served) (turn : Nat) :
    Agrees v.session (v.finish turn).session ∧ (v.finish turn).serving = v.serving := by
  unfold finish
  split <;> exact ⟨⟨rfl, rfl, rfl⟩, rfl⟩

theorem agrees_tellLoss (v : Served) (fault : ChannelFault) :
    ∃ cause, Agrees (v.take (.beginDisconnect cause)).session (v.tellLoss fault).session ∧
      (v.tellLoss fault).serving = v.serving := by
  unfold tellLoss
  dsimp only
  generalize (if v.session.server.isOpen = true then some fault else none) = cause
  refine ⟨cause, ?_⟩
  split
  · exact ⟨⟨rfl, rfl, rfl⟩, rfl⟩
  · exact agrees_finish { v.take (.beginDisconnect cause) with loss := none } v.turn

theorem transmits_step {v : Served} (h : v.Sound) (hguarded : v.session.Guarded)
    (step : ServedStep) :
    (v.step step).session.transmitted = v.session.transmitted ∨
      v.serving = true ∧ ∃ text, (v.step step).session.transmitted =
        v.session.transmitted ++ [(v.session.front, text)] := by
  cases step <;> unfold Served.step <;> dsimp only
  case request s =>
    split
    · rename_i hs
      rw [(agrees_request v s).transmitted]
      refine transmits_take h hguarded s fun hreads => ?_
      cases s <;> first | (cases hreads; done) | cases hs
    · exact Or.inl rfl
  case client =>
    split
    · left
      have k : (v.take .replaceLine).session.WellKept :=
        Session.wellKept_outcome h.wired.kept (Session.step_outcome h.wired.kept .replaceLine)
      exact Session.silent_step k .connect rfl
    · exact Or.inl rfl
  case acceptFails system => split <;> exact Or.inl rfl
  case frame text =>
    split
    · rename_i hserving
      exact transmits_take h hguarded (.receive text) fun _ => hserving
    · exact Or.inl rfl
  case sendsFail fault => split <;> exact Or.inl rfl
  case lineEnds fault => split <;> exact Or.inl rfl
  case lossTold =>
    split
    · exact Or.inl rfl
    · rename_i fault _
      obtain ⟨cause, hsame, -⟩ := agrees_tellLoss v fault
      exact Or.inl (hsame.transmitted.trans
        (Session.silent_step h.wired.kept (.beginDisconnect cause) rfl))
  case waitEnds wait =>
    split
    · exact Or.inl rfl
    · exact Or.inl ((agrees_finish _ _).1.transmitted.trans
        (Session.silent_step h.wired.kept (.endDisconnect wait) rfl))

def admits (v : Served) : ServedStep → Bool
  | .client => v.isWaiting
  | _ => false

theorem front_client {v : Served} (h : v.Sound) (hwaiting : v.isWaiting = true) :
    (v.step .client).session.front = v.session.lines.length := by
  have k : (v.take .replaceLine).session.WellKept :=
    Session.wellKept_outcome h.wired.kept (Session.step_outcome h.wired.kept .replaceLine)
  have hstep : v.step .client = { (v.take .replaceLine).take .connect with serving := true } :=
    if_pos hwaiting
  rw [hstep]
  exact (Session.linked_step k .connect).front

theorem front_step {v : Served} (h : v.Sound) (hserving : v.serving = true) (step : ServedStep) :
    (v.step step).session.front = v.session.front := by
  obtain ⟨-, hloss, hfinishing, -, -⟩ := serving_phase h hserving
  cases step <;> unfold Served.step <;> dsimp only
  case request s =>
    split
    · rename_i hs
      exact (agrees_request v s).front.trans
        (Session.requested_step h.wired.kept h.wired.greets s hs).front
    · rfl
  case client =>
    split
    · rename_i hwaiting
      exact absurd (hserving.symm.trans ((isWaiting_iff v).mp hwaiting).2.1) Bool.noConfusion
    · rfl
  case acceptFails system => split <;> rfl
  case frame text =>
    rw [if_pos hserving]
    exact (Session.undisturbed_receive h.wired.kept v.session.front text).1.front
  case sendsFail fault => split <;> rfl
  case lineEnds fault => split <;> rfl
  case lossTold => rw [hloss]
  case waitEnds wait =>
    rw [hfinishing]
    rfl

theorem admits_of_serving {v : Served} (hidle : v.serving = false) {step : ServedStep}
    (hserving : (v.step step).serving = true) : v.admits step = true := by
  by_contra hnot
  suffices hstill : (v.step step).serving = false from
    Bool.noConfusion (hstill.symm.trans hserving)
  cases step <;> unfold Served.step <;> dsimp only
  case request s =>
    split
    · rw [request_unserved v s hidle]
      exact hidle
    · exact hidle
  case client =>
    rw [if_neg (show ¬v.isWaiting = true from hnot)]
    exact hidle
  case lossTold =>
    split
    · exact hidle
    · rename_i fault _
      obtain ⟨_, -, hsame⟩ := agrees_tellLoss v fault
      exact hsame.trans hidle
  case waitEnds wait =>
    split
    · exact hidle
    · exact (agrees_finish _ _).2.trans hidle
  case lineEnds fault =>
    split
    · rfl
    · exact hidle
  all_goals split <;> exact hidle

theorem connected_client {v : Served} (h : v.Sound) (hguarded : v.session.Guarded)
    (hwaiting : v.isWaiting = true) : (v.step .client).session.connected = true := by
  obtain ⟨hwired, hopen, -, -, -⟩ := idle_of_isWaiting h hwaiting
  have habandoned : v.session.abandoned = false := by
    by_contra hnot
    rw [hguarded.shut (hwired.inFlight.abandoned (eq_true_of_ne_false hnot))] at hopen
    cases hopen
  have hstep : v.step .client = { (v.take .replaceLine).take .connect with serving := true } :=
    if_pos hwaiting
  let t := (v.take .replaceLine).session
  have hconnect : ((v.take .replaceLine).take .connect).session = t.connect t.front :=
    if_pos (hwired.tells hopen)
  rw [hstep]
  change ((v.take .replaceLine).take .connect).session.connected = true
  rw [hconnect, Session.connect, show t.abandoned = false from habandoned,
    if_neg Bool.false_ne_true]

theorem connected_step {v : Served} (h : v.Sound) (hguarded : v.session.Guarded)
    (step : ServedStep) :
    (v.step step).session.connected = (v.session.connected || v.admits step) := by
  cases hadmits : v.admits step with
  | true =>
    rw [Bool.or_true]
    cases step
    case client => exact connected_client h hguarded hadmits
    all_goals cases hadmits
  | false =>
    rw [Bool.or_false]
    have htake {s : Step} (hs : s ≠ .connect) :
        (v.take s).session.connected = v.session.connected :=
      Session.connected_step h.wired.kept h.wired.greets hs
    cases step <;> unfold Served.step <;> dsimp only
    case request s =>
      split
      · rename_i hs
        refine (agrees_request v s).connected.trans (htake ?_)
        rintro rfl
        cases hs
      · rfl
    case client => rw [if_neg (show ¬v.isWaiting = true from ne_true_of_eq_false hadmits)]
    case acceptFails system => split <;> rfl
    case frame text =>
      split
      · exact htake nofun
      · rfl
    case sendsFail fault => split <;> rfl
    case lineEnds fault => split <;> rfl
    case lossTold =>
      split
      · rfl
      · rename_i fault _
        obtain ⟨cause, hsame, -⟩ := agrees_tellLoss v fault
        exact hsame.connected.trans (htake nofun)
    case waitEnds wait =>
      split
      · rfl
      · exact (agrees_finish _ _).1.connected.trans (htake (s := .endDisconnect wait) nofun)

theorem after_concat (v : Served) (steps : List ServedStep) (step : ServedStep) :
    v.after (steps ++ [step]) = (v.after steps).step step := List.foldl_concat ..

def Admits (v : Served) (steps earlier later : List ServedStep) : Prop :=
  steps = earlier ++ .client :: later ∧ (v.after earlier).isWaiting = true

def KeepsServing (v : Served) (steps : List ServedStep) : Prop :=
  ∀ before more, steps = before ++ .request .listen :: more →
    ∃ f, ((v.after before).session.step .quiet [] .listen).1 = .refused f

theorem Admits.concat {v : Served} {steps earlier later : List ServedStep}
    (h : v.Admits steps earlier later) (step : ServedStep) :
    v.Admits (steps ++ [step]) earlier (later ++ [step]) := by
  refine ⟨?_, h.2⟩
  rw [h.1, List.append_assoc]
  rfl

theorem KeepsServing.concat {v : Served} {steps : List ServedStep} (h : v.KeepsServing steps)
    {step : ServedStep} (hstep : step = .request .listen →
      ∃ f, ((v.after steps).session.step .quiet [] .listen).1 = .refused f) :
    v.KeepsServing (steps ++ [step]) := by
  intro before more heq
  obtain rfl | ⟨more', last, rfl⟩ := List.eq_nil_or_concat more
  · obtain ⟨rfl, hlast⟩ := List.append_inj' heq rfl
    exact hstep (List.cons.inj hlast).1
  · rw [List.concat_eq_append, ← List.cons_append, ← List.append_assoc] at heq
    exact h before more' (List.append_inj' heq rfl).1

theorem admits_since {v : Served} (hsound : ∀ steps, (v.after steps).Sound)
    (hguarded : ∀ steps, (v.after steps).session.Guarded) (hidle : v.serving = false)
    (steps : List ServedStep) (hserving : (v.after steps).serving = true) :
    ∃ earlier later, v.Admits steps earlier later ∧
      (v.after (earlier ++ [.client])).KeepsServing later ∧
      (v.after steps).session.front = (v.after earlier).session.lines.length := by
  induction steps using List.reverseRecOn with
  | nil => exact absurd (hidle.symm.trans hserving) Bool.noConfusion
  | append_singleton steps step ih =>
    have h := hsound steps
    rw [after_concat] at hserving ⊢
    cases hbefore : (v.after steps).serving with
    | false =>
      have hadmits := admits_of_serving hbefore hserving
      cases step
      case client =>
        refine ⟨steps, [], ⟨rfl, hadmits⟩, ?_, front_client h hadmits⟩
        intro before more heq
        cases before <;> cases heq
      all_goals cases hadmits
    | true =>
      obtain ⟨earlier, later, hadmits, hkeeps, hfront⟩ := ih hbefore
      have hrun : (v.after (earlier ++ [.client])).after later = v.after steps := by
        rw [hadmits.1, after, after, after, ← List.foldl_append, List.append_assoc]
        rfl
      refine ⟨earlier, later ++ [step], hadmits.concat step, hkeeps.concat fun _ => ?_,
        (front_step h hbefore step).trans hfront⟩
      obtain ⟨-, -, -, -, hopen⟩ := serving_phase h hbefore
      rw [hrun]
      exact Session.listen_refused (hguarded steps) hopen

theorem connected_after {v : Served} (hsound : ∀ steps, (v.after steps).Sound)
    (hguarded : ∀ steps, (v.after steps).session.Guarded) (hnone : v.session.connected = false)
    (steps : List ServedStep) :
    (v.after steps).session.connected = true ↔ ∃ earlier later, v.Admits steps earlier later := by
  induction steps using List.reverseRecOn with
  | nil =>
    refine ⟨fun hconnected => absurd (hnone.symm.trans hconnected) Bool.noConfusion, ?_⟩
    rintro ⟨earlier, later, hsplit, -⟩
    cases earlier <;> cases hsplit
  | append_singleton steps step ih =>
    rw [after_concat, connected_step (hsound steps) (hguarded steps), Bool.or_eq_true, ih]
    constructor
    · rintro (⟨earlier, later, hadmits⟩ | hadmits)
      · exact ⟨earlier, later ++ [step], hadmits.concat step⟩
      · cases step
        case client => exact ⟨steps, [], rfl, hadmits⟩
        all_goals cases hadmits
    · rintro ⟨earlier, later, hsplit, hwaiting⟩
      obtain rfl | ⟨later', last, rfl⟩ := List.eq_nil_or_concat later
      · obtain ⟨rfl, hlast⟩ := List.append_inj' hsplit rfl
        rw [(List.cons.inj hlast).1]
        exact Or.inr hwaiting
      · rw [List.concat_eq_append, ← List.cons_append, ← List.append_assoc] at hsplit
        exact Or.inl ⟨earlier, later', (List.append_inj' hsplit rfl).1, hwaiting⟩

/-- A text is sent only while the server serves a client that it accepted since it was last started,
and over the line of that client. But a session takes a host for connected once its server accepted
any client at all. -/
theorem texts_go_to_latest_host (port exitWait : Nat) (host : HostBehaviour)
    (steps : List ServedStep) :
    let v₀ := fresh port exitWait host
    let v := v₀.after steps
    ((v.session.step .quiet [] .awaitConnection).1 = .flag true ↔
        ∃ earlier later, v₀.Admits steps earlier later) ∧
      ∀ step, (v.step step).session.transmitted = v.session.transmitted ∨
        ∃ earlier later text, v₀.Admits steps earlier later ∧
          (v₀.after (earlier ++ [.client])).KeepsServing later ∧
          (v.step step).session.transmitted = v.session.transmitted ++
            [((v₀.after earlier).session.lines.length, text)] := by
  intro v₀ v
  have hsound (ss : List ServedStep) : (v₀.after ss).Sound :=
    sound_after (sound_fresh port exitWait host) ss
  have hguarded (ss : List ServedStep) : (v₀.after ss).session.Guarded :=
    guarded_after port exitWait host ss
  constructor
  · rw [← connected_after hsound hguarded rfl steps]
    change StepResult.flag v.session.connected = .flag true ↔ _
    rw [StepResult.flag.injEq]
  · intro step
    rcases transmits_step (hsound steps) (hguarded steps) step with hsame | ⟨hserving, text, hsent⟩
    · exact Or.inl hsame
    · obtain ⟨earlier, later, hadmits, hkeeps, hfront⟩ :=
        admits_since hsound hguarded rfl steps hserving
      exact Or.inr ⟨earlier, later, text, hadmits, hkeeps, hfront ▸ hsent⟩

/-- A host connected and went away, and the server was started again. Nobody is connected, and the
session says that somebody is. -/
theorem lost_host_still_counts :
    let v := (fresh 4000 0 .elsewhere).after
      [.request .listen, .client, .lineEnds .peerClosed, .lossTold]
    let w := v.step (.request .listen)
    (v.session.step .quiet [] .listen).1 = .port 4000 ∧ w.session.server.starts = 2 ∧
      w.serving = false ∧ w.isWaiting = true ∧
      (w.session.step .quiet [] .awaitConnection).1 = .flag true :=
  ⟨rfl, rfl, rfl, rfl, rfl⟩

end Served

end HostedTests
