import HostedTests.Proofs.Session.Progress

namespace HostedTests

namespace Step

def rewires : Step → Bool
  | discover _ _ | run _ _ | close | leave | replaceLine | endLine | refuseSends _ => true
  | _ => false

def closes : Step → Bool
  | close | leave => true
  | _ => false

theorem closes_eq_false {step : Step} (h : step.rewires = false) : step.closes = false := by
  cases step <;> first | rfl | cases h

def conveys : Step → Bool
  | sendExtensions _ _ | cancelRun | abortRun | endSession | receive _ | relay _ | hostExited _
  | disconnect _ | beginDisconnect _ | endDisconnect _ => true
  | _ => false

end Step

namespace Session

def Framed (s t : Session) : Prop :=
  t = { s with
    operations := t.operations, waits := t.waits, hostHasExited := t.hostHasExited
    parties := t.parties, collector := t.collector, record := t.record }

theorem framed_send (s : Session) (m : Message) : s.Framed (s.send m).2 := by
  rcases send_cases s m with h | ⟨line, h⟩
  · rw [h]
    rfl
  · rw [h]
    rfl

theorem framed_endSession (s : Session) : s.Framed s.endSession.2 := by
  unfold endSession
  split
  · rfl
  · exact framed_send s _

theorem framed_abort {s : Session} (k : s.WellKept) (o : Nat) (cause : String) :
    s.Framed (s.abort .quiet o cause) := by
  rcases hears_or_completed k.bare o with ⟨op, h⟩ | h
  · rw [abort_open s o op cause h]
    rfl
  · rw [abort_completed s o cause h]
    rfl

theorem framed_accept {s : Session} (k : s.WellKept) (o : Nat) (text : String) :
    s.Framed (s.accept .quiet o text) := by
  rcases hears_or_completed k.bare o with ⟨op, h⟩ | h
  · rw [accept_open s o op text h]
    rfl
  · rw [accept_completed s o text h]
    rfl

theorem framed_receive {s : Session} (k : s.WellKept) (line : Nat) (text : String) :
    s.Framed (s.receive .quiet line text).2 := by
  unfold receive
  split
  · rfl
  · dsimp only
    split
    · rfl
    · exact framed_accept k _ text

theorem framed_disconnect {s : Session} (k : s.WellKept) (fault : Option ChannelFault) :
    s.Framed (s.disconnect .quiet fault) := by
  unfold disconnect
  split
  · rfl
  · split
    · rfl
    · exact framed_abort k _ _

theorem framed_beginDisconnect {s : Session} (k : s.WellKept) (fault : Option ChannelFault) :
    s.Framed (s.beginDisconnect .quiet fault) := by
  unfold beginDisconnect
  split
  · rfl
  · split
    · rfl
    · split
      · rfl
      · split
        · exact framed_abort k _ _
        · rfl

theorem framed_endDisconnect {s : Session} (k : s.WellKept) (wait : Nat) :
    s.Framed (s.endDisconnect .quiet wait) := by
  unfold endDisconnect
  split
  · rfl
  · rename_i w _
    let t := { s with waits := s.waits.eraseIdx wait }
    have hkept : t.WellKept := wellKept_aside k (aside_of_eq rfl rfl rfl rfl rfl fun _ => rfl)
    exact framed_abort hkept w.operation (lossCause w.fault)

theorem hostExited_cases {s : Session} (k : s.WellKept) (stderr : Option String) :
    s.hostExited .quiet stderr = { s with hostHasExited := true } ∨
      ∃ o op ns, s.hostExited .quiet stderr = { s.inform o op ns with hostHasExited := true } := by
  by_cases hblank : ∀ text, stderr = some text → Text.allBlank text = true
  · exact Or.inl (hostExited_blank s stderr hblank)
  · obtain ⟨text, hnot⟩ := not_forall.mp hblank
    obtain ⟨rfl, htext⟩ := Classical.not_imp.mp hnot
    obtain hcurrent | ⟨o, hcurrent⟩ := Option.eq_none_or_eq_some s.current
    · refine Or.inl (hostExited_completed s (some text) ?_)
      intro o op ho
      rw [hcurrent] at ho
      cases ho
    · rcases hears_or_completed k.bare o with ⟨op, h⟩ | h
      · exact Or.inr ⟨o, op, _, hostExited_open s o op text h hcurrent (eq_false_of_ne_true htext)⟩
      · refine Or.inl (hostExited_completed s (some text) ?_)
        intro o' op ho hop
        rw [hcurrent] at ho
        cases ho
        exact h op hop

theorem framed_hostExited {s : Session} (k : s.WellKept) (stderr : Option String) :
    s.Framed (s.hostExited .quiet stderr) := by
  rcases hostExited_cases k stderr with h | ⟨o, op, ns, h⟩
  · rw [h]
    rfl
  · rw [h]
    rfl

theorem framed_of_confined {s t : Session} {p : Nat} (h : Confined p s t) : s.Framed t := by
  unfold Framed
  rw [h.frame]

theorem framed_relay (s : Session) (n : Notice) : s.Framed (s.step .quiet [] (.relay n)).2 := by
  rcases relay_cases s n with h | ⟨p, -, h⟩
  · rw [h]
    rfl
  · rw [h]
    exact framed_of_confined (confined_deliver s p n)

theorem framed_step {s : Session} (k : s.WellKept) (step : Step) (h : step.conveys = true) :
    s.Framed (s.step .quiet [] step).2 := by
  cases step
  case sendExtensions kind paths => exact framed_send s _
  case cancelRun => exact framed_send s _
  case abortRun => exact framed_send s _
  case endSession => exact framed_endSession s
  case receive text => exact framed_receive k s.front text
  case relay n => exact framed_relay s n
  case hostExited stderr => exact framed_hostExited k stderr
  case disconnect fault =>
    simp only [Session.step]
    split
    · exact framed_disconnect k fault
    · rfl
  case beginDisconnect fault =>
    simp only [Session.step]
    split
    · exact framed_beginDisconnect k fault
    · rfl
  case endDisconnect wait => exact framed_endDisconnect k wait
  all_goals cases h

structure SameWiring (s t : Session) : Prop where
  lines : t.lines = s.lines
  current : t.current = s.current
  closed : t.closed = s.closed
  abandoned : t.abandoned = s.abandoned
  front : t.front = s.front ∨ t.front < s.lines.length
  channel : t.channel = s.channel ∨ t.channel = some s.front

theorem sameWiring_self (s : Session) : s.SameWiring s :=
  ⟨rfl, rfl, rfl, rfl, Or.inl rfl, Or.inl rfl⟩

theorem sameWiring_of_framed {s t : Session} (h : s.Framed t) : s.SameWiring t := by
  refine ⟨?_, ?_, ?_, ?_, Or.inl ?_, Or.inl ?_⟩ <;> rw [h]

theorem sameWiring_connect (s : Session) : s.SameWiring (s.connect s.front) := by
  unfold connect
  split
  · exact sameWiring_self s
  · exact ⟨rfl, rfl, rfl, rfl, Or.inl rfl, Or.inr rfl⟩

theorem sameWiring_listen (s : Session) : s.SameWiring s.listen.2 := by
  unfold listen
  split
  · exact sameWiring_self s
  · split
    · exact ⟨rfl, rfl, rfl, rfl, Or.inl rfl, Or.inl rfl⟩
    · rename_i server _
      let t := { s with server }
      have hc : s.SameWiring (if server.greets then t.connect t.front else t) := by
        split
        · have h := sameWiring_connect t
          exact ⟨h.lines, h.current, h.closed, h.abandoned, h.front, h.channel⟩
        · exact ⟨rfl, rfl, rfl, rfl, Or.inl rfl, Or.inl rfl⟩
      dsimp only
      split <;> exact hc

theorem sameWiring_step {s : Session} (k : s.WellKept) (step : Step) (h : step.rewires = false) :
    s.SameWiring (s.step .quiet [] step).2 := by
  by_cases hmanaged : step.isManaged
  · rw [step_of_managed s [] step k.manager k.running hmanaged]
    exact sameWiring_self s
  by_cases hconveys : step.conveys
  · exact sameWiring_of_framed (framed_step k step hconveys)
  cases step
  case listen =>
    rw [step_listen]
    exact sameWiring_listen s
  case connect =>
    simp only [Session.step]
    split
    · exact sameWiring_connect s
    · exact sameWiring_self s
  case returnToLine line =>
    simp only [Session.step]
    split
    · rename_i hlt
      exact ⟨rfl, rfl, rfl, rfl, Or.inr hlt, Or.inl rfl⟩
    · exact sameWiring_self s
  all_goals first
    | exact absurd rfl hmanaged
    | exact absurd rfl hconveys
    | (cases h; done)
    | exact ⟨rfl, rfl, rfl, rfl, Or.inl rfl, Or.inl rfl⟩

def serverAfter (s : Session) : Step → Server
  | .listen => if s.closed then s.server else s.server.start.2
  | .close | .leave => if s.closed then s.server else s.server.stop
  | .finishServing => { s.server with isOpen := false }
  | _ => s.server

def frontAfter (s : Session) : Step → Nat
  | .replaceLine => s.lines.length
  | .returnToLine line => if line < s.lines.length then line else s.front
  | _ => s.front

structure Linked (s : Session) (step : Step) (t : Session) : Prop where
  server : t.server = s.serverAfter step
  front : t.front = s.frontAfter step
  channel : t.channel = s.channel ∨ t.channel = some s.front ∧ t.server.tells = true

theorem linked_start (s : Session) (r : StartRequest) (observer : Observer) :
    s.Linked (r.step observer) (s.step .quiet [] (r.step observer)).2 := by
  have hserver : s.serverAfter (r.step observer) = s.server := by
    cases r <;> rfl
  have hfront : s.frontAfter (r.step observer) = s.front := by
    cases r <;> rfl
  cases hfault : s.startFault? r with
  | some f =>
    rw [step_start_refused s r observer f hfault]
    exact ⟨hserver.symm, hfront.symm, Or.inl rfl⟩
  | none =>
    obtain ⟨-, -, ⟨line, hline⟩, -⟩ := (startFault?_eq_none_iff s r).mp hfault
    rw [step_start_accepted s r observer line hfault hline]
    cases s.lines[line]?.bind (·.refusal) <;> exact ⟨hserver.symm, hfront.symm, Or.inl rfl⟩

theorem linked_connect {s : Session} {step : Step} (htells : s.server.tells = true)
    (hserver : s.serverAfter step = s.server) (hfront : s.frontAfter step = s.front) :
    s.Linked step (s.connect s.front) := by
  unfold connect
  split
  · exact ⟨hserver.symm, hfront.symm, Or.inl rfl⟩
  · exact ⟨hserver.symm, hfront.symm, Or.inr ⟨rfl, htells⟩⟩

theorem linked_listen (s : Session) : s.Linked .listen s.listen.2 := by
  unfold listen
  split
  · rename_i hclosed
    exact ⟨(if_pos hclosed).symm, rfl, Or.inl rfl⟩
  · rename_i hclosed
    have hserver : s.serverAfter .listen = s.server.start.2 := if_neg hclosed
    cases hstart : s.server.start with
    | mk r server =>
      rw [hstart] at hserver
      cases r with
      | error f => exact ⟨hserver.symm, rfl, Or.inl rfl⟩
      | ok _ =>
        have htells : server.tells = true := by
          unfold Server.start at hstart
          dsimp only at hstart
          split at hstart
          · cases hstart
          · split at hstart <;> cases hstart
            rfl
        let t := { s with server }
        let u := if server.greets then t.connect t.front else t
        have hu : s.Linked .listen u := by
          unfold u
          split
          · have hlinked : t.Linked .connect (t.connect t.front) := linked_connect htells rfl rfl
            exact ⟨hlinked.server.trans hserver.symm, hlinked.front, hlinked.channel⟩
          · exact ⟨hserver.symm, rfl, Or.inl rfl⟩
        dsimp only
        split <;> exact hu

theorem linked_close (s : Session) : s.Linked .close s.close := by
  unfold close
  split
  · rename_i hclosed
    exact ⟨(if_pos hclosed).symm, rfl, Or.inl rfl⟩
  · rename_i hclosed
    have hserver : s.serverAfter .close = s.server.stop := if_neg hclosed
    dsimp only
    split <;> exact ⟨hserver.symm, rfl, Or.inl rfl⟩

theorem linked_step {s : Session} (k : s.WellKept) (step : Step) :
    s.Linked step (s.step .quiet [] step).2 := by
  by_cases hmanaged : step.isManaged
  · rw [step_of_managed s [] step k.manager k.running hmanaged]
    cases step <;> first | exact ⟨rfl, rfl, Or.inl rfl⟩ | cases hmanaged
  by_cases hconveys : step.conveys
  · rw [framed_step k step hconveys]
    cases step <;> first | exact ⟨rfl, rfl, Or.inl rfl⟩ | cases hconveys
  cases step
  case listen =>
    rw [step_listen]
    exact linked_listen s
  case discover criteria observer => exact linked_start s (.discovery criteria) observer
  case run criteria observer => exact linked_start s (.execution criteria) observer
  case close => exact linked_close s
  case leave =>
    rw [step_leave k.manager]
    exact ⟨(linked_close s).server, (linked_close s).front, (linked_close s).channel⟩
  case connect =>
    simp only [Session.step]
    split
    · rename_i htells
      exact linked_connect htells rfl rfl
    · exact ⟨rfl, rfl, Or.inl rfl⟩
  case returnToLine line =>
    refine ⟨?_, ?_, Or.inl ?_⟩ <;> simp only [Session.step, frontAfter] <;> split <;> rfl
  all_goals first
    | exact absurd rfl hmanaged
    | exact absurd rfl hconveys
    | exact ⟨rfl, rfl, Or.inl rfl⟩

theorem tells_start {v : Server} (h : v.tells = true) : v.start.2.tells = true := by
  unfold Server.start
  dsimp only
  split
  · exact h
  · split
    · exact h
    · rfl

theorem tells_serverAfter {s : Session} (h : s.server.tells = true) (step : Step) :
    (s.serverAfter step).tells = true := by
  unfold serverAfter
  split
  · split
    · exact h
    · exact tells_start h
  · split <;> exact h
  · split <;> exact h
  · exact h
  · exact h

def Attended (s : Session) : Prop :=
  s.channel ≠ none ∨ s.operations ≠ [] → s.server.tells = true

theorem attended_step {s : Session} (k : s.WellKept) (h : s.Attended) (step : Step) :
    (s.step .quiet [] step).2.Attended := by
  cases htells : s.server.tells with
  | true =>
    intro _
    rw [(linked_step k step).server]
    exact tells_serverAfter htells step
  | false =>
    have hchannel : s.channel = none := by
      by_contra hnot
      rw [h (Or.inl hnot)] at htells
      cases htells
    have hoperations : s.operations = [] := by
      by_contra hnot
      rw [h (Or.inr hnot)] at htells
      cases htells
    rintro (hline | hregistered)
    · rcases (linked_step k step).channel with hsame | ⟨-, hnow⟩
      · exact absurd (hsame.trans hchannel) hline
      · exact hnow
    -- Without a line there is no operation to register either.
    · rcases length_step k step with hlen | ⟨-, r, observer, -, hfault⟩
      · rw [hoperations] at hlen
        exact absurd (List.eq_nil_of_length_eq_zero hlen) hregistered
      · obtain ⟨-, -, ⟨line, hline⟩, -⟩ := (startFault?_eq_none_iff s r).mp hfault
        rw [hchannel] at hline
        cases hline

theorem attended_fresh (server : Server) (collector : Collector) (host : HostBehaviour)
    (exitWait : Nat) : (fresh server collector none host exitWait).Attended := by
  rintro (h | h)
  · exact absurd rfl h
  · exact absurd rfl h

theorem attended_after {s : Session} (k : s.WellKept) (h : s.Attended) (steps : List Step) :
    (s.after steps).Attended :=
  (after_induction k h (fun _ k h step => attended_step k h step) steps).2

end Session

end HostedTests
