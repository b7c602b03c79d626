import HostedTests.Proofs.Session.InFlight
import HostedTests.Session.Served

namespace HostedTests

namespace Step

def reads : Step → Bool
  | receive _ => true
  | _ => false

def goesBack : Step → Bool
  | returnToLine _ => true
  | _ => false

end Step

namespace Session

def Unread (line : Nat) : Session → List Step → Prop
  | _, [] => True
  | s, step :: steps =>
    (step.reads = true → s.front ≠ line) ∧ Unread line (s.step .quiet [] step).2 steps

/-- Once another line is connected in place of a line, nothing is read from that one any more. -/
def Orderly : Session → List Step → Prop
  | _, [] => True
  | s, step :: steps =>
    (∀ line ∈ s.channel, (s.step .quiet [] step).2.channel ≠ some line →
      Unread line (s.step .quiet [] step).2 steps) ∧
    Orderly (s.step .quiet [] step).2 steps

instance decidableUnread (line : Nat) : ∀ s steps, Decidable (Unread line s steps)
  | _, [] => .isTrue trivial
  | s, step :: steps =>
    have := decidableUnread line (s.step .quiet [] step).2 steps
    inferInstanceAs (Decidable (_ ∧ _))

instance decidableOrderly : ∀ s steps, Decidable (Orderly s steps)
  | _, [] => .isTrue trivial
  | s, step :: steps =>
    have := decidableOrderly (s.step .quiet [] step).2 steps
    inferInstanceAs (Decidable (_ ∧ _))

theorem front_le_step {s : Session} (k : s.WellKept) (h : s.InFlight) {step : Step}
    (hstep : step.goesBack = false) : s.front ≤ (s.step .quiet [] step).2.front := by
  rw [(linked_step k step).front]
  cases step
  case replaceLine => exact Nat.le_of_lt h.front
  case returnToLine line => cases hstep
  all_goals exact Nat.le_refl _

theorem unread_of_lt {s : Session} (k : s.WellKept) (h : s.InFlight) {line : Nat}
    (hline : line < s.front) {steps : List Step} (hsteps : ∀ step ∈ steps, step.goesBack = false) :
    Unread line s steps := by
  induction steps generalizing s with
  | nil => trivial
  | cons step steps ih =>
    obtain ⟨hstep, hsteps⟩ := List.forall_mem_cons.mp hsteps
    refine ⟨fun _ => (Nat.ne_of_lt hline).symm, ?_⟩
    exact ih (wellKept_outcome k (step_outcome k step)) (inFlight_step k h step)
      (Nat.lt_of_lt_of_le hline (front_le_step k h hstep)) hsteps

theorem orderly_of_onward {s : Session} (k : s.WellKept) (h : s.InFlight)
    (hchannel : ∀ line ∈ s.channel, line ≤ s.front) {steps : List Step}
    (hsteps : ∀ step ∈ steps, step.goesBack = false) : s.Orderly steps := by
  induction steps generalizing s with
  | nil => trivial
  | cons step steps ih =>
    obtain ⟨hstep, hsteps⟩ := List.forall_mem_cons.mp hsteps
    let t := (s.step .quiet [] step).2
    have kt : t.WellKept := wellKept_outcome k (step_outcome k step)
    have ht : t.InFlight := inFlight_step k h step
    have hfront : s.front ≤ t.front := front_le_step k h hstep
    rcases (linked_step k step).channel with hsame | ⟨hnow, -⟩
    · refine ⟨fun line hline hnot => absurd (hsame.trans hline) hnot, ih kt ht ?_ hsteps⟩
      intro line hline
      exact Nat.le_trans (hchannel line (hsame.symm.trans hline)) hfront
    · constructor
      · intro line hline hnot
        have hne : line ≠ s.front := by
          rintro rfl
          exact hnot hnow
        have hlt : line < s.front := Nat.lt_of_le_of_ne (hchannel line hline) hne
        exact unread_of_lt kt ht (Nat.lt_of_lt_of_le hlt hfront) hsteps
      · refine ih kt ht ?_ hsteps
        intro line hline
        cases hnow.symm.trans hline
        exact hfront

theorem orderly_fresh (server : Server) (collector : Collector) (host : HostBehaviour)
    (exitWait : Nat) {steps : List Step} (hsteps : ∀ step ∈ steps, step.goesBack = false) :
    (fresh server collector none host exitWait).Orderly steps :=
  orderly_of_onward (wellKept_fresh server collector host exitWait)
    (inFlight_fresh server collector host exitWait) (fun _ hline => nomatch hline) hsteps

-- A host that is still heard after another one was connected.
example : ¬(fresh (.fresh "4000" none false true) .idle none .elsewhere 0).Orderly
    [.listen, .connect, .replaceLine, .connect, .returnToLine 0, .receive "late"] := by
  decide +kernel

end Session

namespace Served

def Leads (v v' : Served) : Prop :=
  v.session.Reaches (fun step => step.goesBack = false) v'.session

theorem leads_of_eq {v v' : Served} (h : v'.session = v.session) : v.Leads v' := .of_eq h

theorem Leads.trans {v v' v'' : Served} (h : v.Leads v') (h' : v'.Leads v'') : v.Leads v'' :=
  Session.Reaches.trans h h'

theorem leads_take (v : Served) {s : Step} (h : s.goesBack = false) : v.Leads (v.take s) :=
  .step v.session h

theorem leads_finish (v : Served) (turn : Nat) : v.Leads (v.finish turn) := by
  unfold finish
  split
  · exact leads_take v rfl
  · exact leads_of_eq rfl

theorem leads_request (v : Served) {s : Step} (h : isRequest s = true) :
    v.Leads (v.request s) := by
  have hstep : s.goesBack = false := by
    cases s <;> first | rfl | cases h
  have htake := leads_take v hstep
  unfold request
  dsimp only
  split
  · exact htake.trans (leads_of_eq rfl)
  · split
    · exact htake.trans (leads_take _ (s := .endLine) rfl)
    · exact htake

theorem leads_tellLoss (v : Served) (fault : ChannelFault) : v.Leads (v.tellLoss fault) := by
  unfold tellLoss
  dsimp only
  generalize (if v.session.server.isOpen = true then some fault else none) = cause
  have htake := leads_take v (s := .beginDisconnect cause) rfl
  split
  · exact htake.trans (leads_of_eq rfl)
  · exact htake.trans (leads_finish { v.take (.beginDisconnect cause) with loss := none } _)

theorem leads_step (v : Served) (step : ServedStep) : v.Leads (v.step step) := by
  have hself : v.Leads v := leads_of_eq rfl
  cases step <;> unfold Served.step <;> dsimp only
  case request s =>
    split
    · rename_i h
      exact leads_request v h
    · exact hself
  case client =>
    split
    · exact (leads_take v (s := .replaceLine) rfl).trans (leads_take _ (s := .connect) rfl)
    · exact hself
  case acceptFails system =>
    split <;> exact leads_of_eq rfl
  case frame text =>
    split
    · exact leads_take v rfl
    · exact hself
  case sendsFail fault =>
    split
    · exact leads_take v rfl
    · exact hself
  case lineEnds fault =>
    split
    · exact leads_take v (s := .endLine) rfl
    · exact hself
  case lossTold =>
    split
    · exact hself
    · exact leads_tellLoss v _
  case waitEnds wait =>
    split
    · exact hself
    · exact (leads_take v (s := .endDisconnect wait) rfl).trans (leads_finish _ _)

theorem leads_after (v : Served) (steps : List ServedStep) : v.Leads (v.after steps) := by
  induction steps generalizing v with
  | nil => exact leads_of_eq rfl
  | cons step steps ih => exact (leads_step v step).trans (ih (v.step step))

theorem orderly_served (port exitWait : Nat) (host : HostBehaviour) (steps : List ServedStep) :
    let s := Session.fresh (.fresh (toString port) none false true) .idle none host exitWait
    ∃ more : List Step,
      ((fresh port exitWait host).after steps).session = s.after more ∧ s.Orderly more := by
  obtain ⟨more, hmore, heq⟩ := leads_after (fresh port exitWait host) steps
  exact ⟨more, heq, Session.orderly_fresh _ _ _ _ hmore⟩

end Served

end HostedTests
