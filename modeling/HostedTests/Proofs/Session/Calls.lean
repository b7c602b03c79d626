import HostedTests.Proofs.Session.Requests
import HostedTests.Session.Served

namespace HostedTests.Session

def refusal? (s : Session) (line : Nat) : Option ChannelFault := s.lines[line]?.bind (·.refusal)

structure Requested (s t : Session) : Prop where
  waits : t.waits = s.waits
  front : t.front = s.front
  channel : t.channel = s.channel
  refusals : ∀ line, t.refusal? line = s.refusal? line
  closed : s.closed = true → t.closed = true
  greets : t.server.greets = s.server.greets
  tells : (s.server.isOpen = true → s.server.tells = true) → t.server.isOpen = true →
    t.server.tells = true
  stays : s.server.isOpen = true → t.server.isOpen = true ∨ t.closed = true
  ended : s.closed = true → t.server = s.server

theorem requested_of_eq {s t : Session} (hwaits : t.waits = s.waits) (hfront : t.front = s.front)
    (hchannel : t.channel = s.channel) (hrefusals : ∀ line, t.refusal? line = s.refusal? line)
    (hclosed : t.closed = s.closed) (hserver : t.server = s.server) : s.Requested t := by
  refine ⟨hwaits, hfront, hchannel, hrefusals, ?_, by rw [hserver], ?_, ?_,
    fun _ => hserver⟩
  · intro h
    rw [hclosed, h]
  · rw [hserver]
    exact id
  · intro h
    rw [hserver]
    exact Or.inl h

theorem requested_self (s : Session) : s.Requested s :=
  requested_of_eq rfl rfl rfl (fun _ => rfl) rfl rfl

theorem requested_send (s : Session) (m : Message) : s.Requested (s.send m).2 := by
  rcases send_cases s m with h | ⟨line, h⟩
  · rw [h]
    exact requested_self s
  · rw [h]
    exact requested_of_eq rfl rfl rfl (fun _ => rfl) rfl rfl

theorem requested_endSession (s : Session) : s.Requested s.endSession.2 := by
  unfold endSession
  split
  · exact requested_self s
  · exact requested_send s _

theorem start_greets (v : Server) : v.start.2.greets = v.greets := by
  unfold Server.start
  dsimp only
  split
  · rfl
  · split <;> rfl

theorem start_stays (v : Server) (h : v.isOpen = true) : v.start.2.isOpen = true := by
  unfold Server.start
  dsimp only
  split
  · exact h
  · split
    · exact h
    · rfl

theorem start_tells (v : Server) (h : v.isOpen = true → v.tells = true)
    (ho : v.start.2.isOpen = true) : v.start.2.tells = true := by
  unfold Server.start at ho ⊢
  dsimp only at ho ⊢
  split at ho
  · exact h ho
  · split at ho
    · rename_i hrefusal hopen
      simp only [hrefusal, hopen]
      exact h ho
    · rename_i hrefusal hopen
      simp only [hrefusal, hopen, if_false]

theorem listen_eq (s : Session) (hgreets : s.server.greets = false) :
    s.listen.2 = if s.closed then s else { s with server := s.server.start.2 } := by
  unfold listen
  split
  · rfl
  · cases hstart : s.server.start with
    | mk r server =>
      have hg : server.greets = false := by
        have hsame := start_greets s.server
        rw [hstart] at hsame
        exact hsame.trans hgreets
      cases r with
      | error f => rfl
      | ok _ =>
        simp only [hg, Bool.false_eq_true, if_false]
        split <;> rfl

theorem requested_listen (s : Session) (hgreets : s.server.greets = false) :
    s.Requested s.listen.2 := by
  rw [listen_eq s hgreets]
  split
  · exact requested_self s
  · rename_i hopen
    exact ⟨rfl, rfl, rfl, fun _ => rfl, id, start_greets s.server, start_tells s.server,
      fun h => Or.inl (start_stays s.server h), fun h => absurd h hopen⟩

theorem requested_close (s : Session) : s.Requested s.close := by
  unfold close
  split
  · exact requested_self s
  · rename_i hopen
    have hstop : ∀ t : Session, t.waits = s.waits → t.front = s.front → t.channel = s.channel →
        (∀ line, t.refusal? line = s.refusal? line) → t.closed = true →
        t.server = s.server.stop → s.Requested t := by
      intro t hwaits hfront hchannel hrefusals hclosed hserver
      refine ⟨hwaits, hfront, hchannel, hrefusals, fun _ => hclosed, by rw [hserver]; rfl, ?_,
        fun _ => Or.inr hclosed, fun h => absurd h hopen⟩
      intro _ h
      rw [hserver] at h
      cases h
    dsimp only
    split
    · exact hstop _ rfl rfl rfl (fun _ => rfl) rfl rfl
    · exact hstop _ rfl rfl rfl (fun line => refusal_subscribe _ _ line none) rfl rfl

theorem requested_start (s : Session) (r : StartRequest) (observer : Observer) :
    s.Requested (s.step .quiet [] (r.step observer)).2 := by
  cases hfault : s.startFault? r with
  | some f =>
    rw [step_start_refused s r observer f hfault]
    exact requested_of_eq rfl rfl rfl (fun _ => rfl) rfl rfl
  | none =>
    obtain ⟨-, -, ⟨channel, hchannel⟩, -⟩ := (startFault?_eq_none_iff s r).mp hfault
    have hrefusals : ∀ line, (s.started r observer channel).refusal? line = s.refusal? line :=
      fun line => refusal_subscribe _ _ line _
    rw [step_start_accepted s r observer channel hfault hchannel]
    cases s.lines[channel]?.bind (·.refusal) with
    | none => exact requested_of_eq rfl rfl rfl hrefusals rfl rfl
    | some f => exact requested_of_eq rfl rfl rfl hrefusals rfl rfl

theorem requested_hostExited {s : Session} (k : s.WellKept) (stderr : Option String) :
    s.Requested (s.hostExited .quiet stderr) := by
  rcases hostExited_cases k stderr with h | ⟨o, op, ns, h⟩
  · rw [h]
    exact requested_of_eq rfl rfl rfl (fun _ => rfl) rfl rfl
  · rw [h]
    exact requested_of_eq rfl rfl rfl (fun _ => rfl) rfl rfl

theorem requested_step {s : Session} (k : s.WellKept) (hgreets : s.server.greets = false)
    (step : Step) (h : Served.isRequest step = true) :
    s.Requested (s.step .quiet [] step).2 := by
  by_cases hmanaged : step.isManaged
  · rw [step_of_managed s [] step k.manager k.running hmanaged]
    exact requested_self s
  · cases step
    case listen =>
      rw [step_listen]
      exact requested_listen s hgreets
    case discover criteria observer => exact requested_start s (.discovery criteria) observer
    case run criteria observer => exact requested_start s (.execution criteria) observer
    case hostExited stderr => exact requested_hostExited k stderr
    case sendExtensions kind paths => exact requested_send s _
    case cancelRun => exact requested_send s _
    case abortRun => exact requested_send s _
    case endSession => exact requested_endSession s
    case close => exact requested_close s
    case leave =>
      have hclose := requested_close s
      rw [step_leave k.manager]
      exact ⟨hclose.waits, hclose.front, hclose.channel, hclose.refusals, hclose.closed,
        hclose.greets, hclose.tells, hclose.stays, hclose.ended⟩
    all_goals first
      | exact absurd rfl hmanaged
      | (cases h; done)
      | exact requested_of_eq rfl rfl rfl (fun _ => rfl) rfl rfl

theorem open_of_dead {s : Session} (k : s.WellKept) (h : s.InFlight) (step : Step)
    (hdead : s.closed = false → ∀ line, s.channel = some line → ∃ f, s.refusal? line = some f)
    (o : Nat) (hcurrent : (s.step .quiet [] step).2.current = some o)
    (hopen : (s.step .quiet [] step).2.IsOpen o) : s.current = some o ∧ s.IsOpen o := by
  have ht : (s.step .quiet [] step).2.InFlight := inFlight_step k h step
  have hclosed : s.closed = false := by
    by_contra hnot
    have hlater := closed_step k step (eq_true_of_ne_false hnot)
    rw [ht.detached hlater] at hcurrent
    cases hcurrent
  obtain ⟨op, hop, hincomplete⟩ := hopen
  rcases isOpen_of_step k step o ⟨op, hop, hincomplete⟩ with hbefore | ⟨ho, -⟩
  · exact ⟨(h.latest o hbefore).2 hclosed, hbefore⟩
  · obtain ⟨-, r, observer, line, -, -, hline, rfl, -⟩ :=
      step_registers k step o op (Nat.le_of_eq ho.symm) hop
    obtain ⟨f, hf⟩ := hdead hclosed line hline
    have hopening : s.opening r = r.kind.abortBlock f.message := by
      unfold opening
      rw [hline, Option.bind_some, show s.lines[line]?.bind (·.refusal) = some f from hf]
    rw [Operation.after_completed, hopening, r.kind.any_abortBlock, Bool.or_true] at hincomplete
    cases hincomplete

end HostedTests.Session
