import HostedTests.Proofs.Session.Replacing

namespace HostedTests

namespace Step

def isCall : Step → Bool
  | listen | sendExtensions _ _ | discover _ _ | run _ _ | cancelRun | abortRun => true
  | _ => false

def endsWait : Step → Bool
  | endDisconnect _ => true
  | _ => false

end Step

namespace Session

theorem close_of_closed {s : Session} (h : s.closed = true) : s.close = s := if_pos h

theorem listen_of_closed {s : Session} (h : s.closed = true) :
    s.listen = (.error .disposed, s) := if_pos h

theorem send_of_closed {s : Session} (h : s.closed = true) (m : Message) :
    s.send m = (.error .disposed, s) := by
  have hline : s.line? = .error .disposed := if_pos h
  rw [send, hline]

theorem endSession_of_closed {s : Session} (h : s.closed = true) : s.endSession.2 = s := by
  unfold endSession
  split
  · rfl
  · rw [send_of_closed h]

theorem start_of_closed {s : Session} (h : s.closed = true) (r : StartRequest)
    (observer : Observer) :
    s.step .quiet [] (r.step observer) = (.refused .disposed, s.welcome observer [] false) :=
  step_start_refused s r observer .disposed (if_pos h)

theorem call_of_closed {s : Session} (h : s.closed = true) (step : Step)
    (hcall : step.isCall = true) : (s.step .quiet [] step).1 = .refused .disposed := by
  cases step
  case listen => simp only [Session.step, listen_of_closed h]
  case sendExtensions kind paths => simp only [Session.step, send_of_closed h]; rfl
  case cancelRun => simp only [Session.step, send_of_closed h]; rfl
  case abortRun => simp only [Session.step, send_of_closed h]; rfl
  case discover criteria observer =>
    exact congrArg Prod.fst (start_of_closed h (.discovery criteria) observer)
  case run criteria observer =>
    exact congrArg Prod.fst (start_of_closed h (.execution criteria) observer)
  all_goals cases hcall

structure Rests (s t : Session) : Prop where
  record : t.record = s.record
  waits : t.waits = s.waits

theorem rests_send {s : Session} (h : s.closed = true) (m : Message) : s.Rests (s.send m).2 := by
  rw [send_of_closed h]
  exact ⟨rfl, rfl⟩

theorem rests_start {s : Session} (h : s.closed = true) (r : StartRequest) (observer : Observer) :
    s.Rests (s.step .quiet [] (r.step observer)).2 := by
  rw [start_of_closed h]
  exact ⟨rfl, rfl⟩

theorem rests_step {s : Session} (k : s.WellKept) (h : s.InFlight) (hclosed : s.closed = true)
    (step : Step) (hreads : step.reads = true → s.subscriber? s.front = none)
    (hends : step.endsWait = false) (hrelay : ∀ n, step ≠ .relay n) :
    s.Rests (s.step .quiet [] step).2 := by
  have hcurrent := h.detached hclosed
  have hself : s.Rests s := ⟨rfl, rfl⟩
  by_cases hmanaged : step.isManaged
  · rw [step_of_managed s [] step k.manager k.running hmanaged]
    exact hself
  cases step
  case listen =>
    rw [step_listen, listen_of_closed hclosed]
    exact hself
  case sendExtensions kind paths => exact rests_send hclosed _
  case cancelRun => exact rests_send hclosed _
  case abortRun => exact rests_send hclosed _
  case endSession =>
    change s.Rests s.endSession.2
    rw [endSession_of_closed hclosed]
    exact hself
  case discover criteria observer => exact rests_start hclosed (.discovery criteria) observer
  case run criteria observer => exact rests_start hclosed (.execution criteria) observer
  case hostExited stderr =>
    change s.Rests (s.hostExited .quiet stderr)
    rw [hostExited_completed s stderr fun o op ho => by rw [hcurrent] at ho; cases ho]
    exact ⟨rfl, rfl⟩
  case close =>
    change s.Rests s.close
    rw [close_of_closed hclosed]
    exact hself
  case leave =>
    rw [step_leave k.manager, close_of_closed hclosed]
    exact ⟨rfl, rfl⟩
  case connect =>
    simp only [Session.step, Session.connect]
    split
    · split <;> exact ⟨rfl, rfl⟩
    · exact hself
  case returnToLine line =>
    simp only [Session.step]
    split <;> exact ⟨rfl, rfl⟩
  case disconnect fault =>
    simp only [Session.step, Session.disconnect, hcurrent]
    split
    · split <;> exact hself
    · exact hself
  case beginDisconnect fault =>
    simp only [Session.step, Session.beginDisconnect, hcurrent]
    split
    · split <;> exact hself
    · exact hself
  case receive text =>
    have hnone : s.lines[s.front]?.bind (·.subscriber) = none := hreads rfl
    simp only [Session.step, Session.receive, hnone]
    exact hself
  case endDisconnect wait => cases hends
  case relay n => exact absurd rfl (hrelay n)
  all_goals first
    | exact absurd rfl hmanaged
    | exact ⟨rfl, rfl⟩

theorem told_closed_step {s : Session} (k : s.WellKept) (h : s.InFlight) (hclosed : s.closed = true)
    (step : Step) (hreads : step.reads = true → s.subscriber? s.front = none)
    (hends : step.endsWait = false) {p : Nat} (hp : s.collected ≠ some p) :
    (s.step .quiet [] step).2.told p = s.told p := by
  by_cases hrelay : ∀ n, step ≠ .relay n
  · rw [told, (rests_step k h hclosed step hreads hends hrelay).record, told]
  · obtain ⟨n, hn⟩ := not_forall.mp hrelay
    rw [not_not.mp hn]
    rcases relay_cases s n with heq | ⟨q, hq, heq⟩
    · rw [heq]
    · rw [heq]
      refine (confined_deliver s q n).told p fun hpq => hp ?_
      rw [hq, hpq]

theorem keeps_endDisconnect {s : Session} (k : s.WellKept) (wait : Nat) :
    (s.endDisconnect .quiet wait).transmitted = s.transmitted ∧
      (s.endDisconnect .quiet wait).waits.Sublist s.waits := by
  unfold endDisconnect
  split
  · exact ⟨rfl, List.Sublist.refl _⟩
  · rename_i w _
    let t := { s with waits := s.waits.eraseIdx wait }
    have kt : t.WellKept := wellKept_aside k (aside_of_eq rfl rfl rfl rfl rfl fun _ => rfl)
    have hsublist : t.waits.Sublist s.waits := List.eraseIdx_sublist s.waits wait
    rcases hears_or_completed kt.bare w.operation with ⟨op, h⟩ | h
    · rw [abort_open t w.operation op _ h]
      exact ⟨transmitted_inform t w.operation op _, hsublist⟩
    · rw [abort_completed t w.operation _ h]
      exact ⟨rfl, hsublist⟩

theorem keeps_step {s : Session} (k : s.WellKept) (h : s.InFlight) (hclosed : s.closed = true)
    (step : Step) (hreads : step.reads = true → s.subscriber? s.front = none) :
    (s.step .quiet [] step).2.transmitted = s.transmitted ∧
      (s.step .quiet [] step).2.waits.Sublist s.waits := by
  by_cases hrelay : ∀ n, step ≠ .relay n
  · cases hends : step.endsWait with
    | false =>
      obtain ⟨hrecord, hwaits⟩ := rests_step k h hclosed step hreads hends hrelay
      rw [transmitted, hrecord, hwaits]
      exact ⟨rfl, List.Sublist.refl _⟩
    | true =>
      cases step
      case endDisconnect wait => exact keeps_endDisconnect k wait
      all_goals cases hends
  · obtain ⟨n, hn⟩ := not_forall.mp hrelay
    rw [not_not.mp hn]
    rcases relay_cases s n with heq | ⟨q, -, heq⟩
    · rw [heq]
      exact ⟨rfl, List.Sublist.refl _⟩
    · rw [heq]
      have hconfined := confined_deliver s q n
      refine ⟨hconfined.transmitted, ?_⟩
      rw [hconfined.frame]

theorem stops_start (v : Server) : v.start.2.stops = v.stops := by
  unfold Server.start
  dsimp only
  split
  · rfl
  · split <;> rfl

theorem stops_step {s : Session} (k : s.WellKept) (step : Step) :
    (s.step .quiet [] step).2.server.stops =
      if step.closes && !s.closed then s.server.stops + 1 else s.server.stops := by
  rw [(linked_step k step).server]
  cases hclosed : s.closed <;> cases step <;>
    simp only [serverAfter, hclosed, Step.closes, stops_start, Server.stop, Bool.not_true,
      Bool.not_false, Bool.and_true, Bool.and_false, Bool.false_eq_true, if_true, if_false]

theorem starts_of_closed {s : Session} (k : s.WellKept) (hclosed : s.closed = true) (step : Step) :
    (s.step .quiet [] step).2.server.starts = s.server.starts := by
  rw [(linked_step k step).server]
  cases step <;> simp only [serverAfter, hclosed, if_true]

theorem subscriber?_close_some {s : Session} (h : s.InFlight) {line o : Nat}
    (ho : s.close.subscriber? line = some o) :
    s.subscriber? line = some o ∧ (s.closed = false → s.channel ≠ some line) := by
  unfold close at ho
  split at ho
  · rename_i hclosed
    exact ⟨ho, fun hopen => by rw [hclosed] at hopen; cases hopen⟩
  · dsimp only at ho
    split at ho
    · rename_i hchannel
      refine ⟨ho, fun _ hline => ?_⟩
      rw [hchannel] at hline
      cases hline
    · rename_i channel hchannel
      by_cases heq : channel = line
      · subst heq
        have hnone := subscriber?_subscribe_self { s with closed := true, current := none } none
          (h.channel channel hchannel)
        exact absurd (hnone.symm.trans ho) (Option.some_ne_none o).symm
      · refine ⟨(subscriber?_subscribe_other _ none heq).symm.trans ho, fun _ hline => heq ?_⟩
        exact Option.some.inj (hchannel.symm.trans hline)

theorem subscriber?_eq_none {s : Session} {line : Nat} (h : s.lines.length ≤ line) :
    s.subscriber? line = none := by
  rw [subscriber?, List.getElem?_eq_none h, Option.bind_none]

theorem subscriber?_start (s : Session) (r : StartRequest) (observer : Observer) {line o : Nat}
    (ho : (s.step .quiet [] (r.step observer)).2.subscriber? line = some o) :
    s.subscriber? line = some o ∨
      ((s.step .quiet [] (r.step observer)).2.closed = false ∧
        (s.step .quiet [] (r.step observer)).2.channel = some line) := by
  cases hfault : s.startFault? r with
  | some f =>
    rw [step_start_refused s r observer f hfault] at ho
    exact Or.inl ho
  | none =>
    obtain ⟨hclosed, -, ⟨channel, hchannel⟩, -⟩ := (startFault?_eq_none_iff s r).mp hfault
    obtain ⟨-, hclosed', -, -, hchannel', hlines, -⟩ :=
      step_start_fields s r observer channel hfault hchannel
    by_cases heq : channel = line
    · subst heq
      exact Or.inr ⟨hclosed'.trans hclosed, hchannel'.trans hchannel⟩
    · rw [subscriber?, hlines] at ho
      exact Or.inl ((subscriber?_subscribe_other s _ heq).symm.trans ho)

theorem subscriber?_step {s : Session} (k : s.WellKept) (h : s.InFlight) (step : Step)
    {line o : Nat} (ho : (s.step .quiet [] step).2.subscriber? line = some o) :
    (s.subscriber? line = some o ∧
        (step.closes = true → s.closed = false → s.channel ≠ some line)) ∨
      ((s.step .quiet [] step).2.closed = false ∧
        (s.step .quiet [] step).2.channel = some line) := by
  have hnever (h : false = true) : s.closed = false → s.channel ≠ some line :=
    absurd h Bool.false_ne_true
  cases hrewires : step.rewires with
  | false =>
    rw [subscriber?, (sameWiring_step k step hrewires).lines] at ho
    rw [Step.closes_eq_false hrewires]
    exact Or.inl ⟨ho, hnever⟩
  | true =>
    cases step
    case discover criteria observer =>
      exact (subscriber?_start s (.discovery criteria) observer ho).imp_left fun ho => ⟨ho, hnever⟩
    case run criteria observer =>
      exact (subscriber?_start s (.execution criteria) observer ho).imp_left fun ho => ⟨ho, hnever⟩
    case close =>
      obtain ⟨hs, hchannel⟩ := subscriber?_close_some h ho
      exact Or.inl ⟨hs, fun _ => hchannel⟩
    case leave =>
      rw [step_leave k.manager] at ho
      obtain ⟨hs, hchannel⟩ := subscriber?_close_some h ho
      exact Or.inl ⟨hs, fun _ => hchannel⟩
    case replaceLine =>
      refine Or.inl ⟨?_, hnever⟩
      change (s.lines ++ [Line.fresh])[line]?.bind (·.subscriber) = some o at ho
      rcases Nat.lt_trichotomy line s.lines.length with hlt | rfl | hgt
      · rwa [List.getElem?_append_left hlt] at ho
      · rw [List.getElem?_concat_length] at ho
        cases ho
      · rw [List.getElem?_eq_none (Nat.le_trans (Nat.le_of_eq List.length_append) hgt)] at ho
        cases ho
    case endLine =>
      refine Or.inl ⟨?_, hnever⟩
      rcases Nat.lt_or_ge line s.lines.length with hlt | hge
      · rcases (lineKept_endLine hlt).2 with hsame | ⟨hnone, -⟩
        · exact hsame.symm.trans ho
        · exact absurd (hnone.symm.trans ho) (Option.some_ne_none o).symm
      · have hlen : ((s.subscribe s.front none).refuse s.front (some .disposed)).lines.length =
            s.lines.length := by
          rw [length_lines_refuse, length_lines_subscribe]
        have hnone := subscriber?_eq_none (Nat.le_trans (Nat.le_of_eq hlen) hge)
        exact absurd (hnone.symm.trans ho) (Option.some_ne_none o).symm
    case refuseSends fault =>
      exact Or.inl ⟨(subscriber?_refuse s s.front fault line).symm.trans ho, hnever⟩
    all_goals cases hrewires

/-- Whatever is subscribed to a line, the line is the connected one of an open session, or nothing
is read from it any more. -/
def Attached (s : Session) (steps : List Step) : Prop :=
  ∀ line o, s.subscriber? line = some o →
    s.closed = false ∧ s.channel = some line ∨ Unread line s steps

theorem attached_fresh (server : Server) (collector : Collector) (host : HostBehaviour)
    (exitWait : Nat) (steps : List Step) :
    (fresh server collector none host exitWait).Attached steps := by
  intro line o ho
  cases line <;> cases ho

theorem attached_step {s : Session} (k : s.WellKept) (h : s.InFlight) {step : Step}
    {steps : List Step} (ha : s.Attached (step :: steps)) (horderly : s.Orderly (step :: steps)) :
    (s.step .quiet [] step).2.Attached steps := by
  intro line o ho
  rcases subscriber?_step k h step ho with ⟨hs, hcloses⟩ | hconnected
  · rcases ha line o hs with ⟨hopen, hchannel⟩ | hunread
    · by_cases hsame : (s.step .quiet [] step).2.channel = some line
      · refine Or.inl ⟨?_, hsame⟩
        rw [closed_step_eq k step, hopen, Bool.false_or]
        exact eq_false_of_ne_true fun hc => hcloses hc hopen hchannel
      · exact Or.inr (horderly.1 line hchannel hsame)
    · exact Or.inr hunread.2
  · exact Or.inl hconnected

theorem attached_after {s : Session} (k : s.WellKept) (h : s.InFlight) {steps more : List Step}
    (ha : s.Attached (steps ++ more)) (horderly : s.Orderly (steps ++ more)) :
    (s.after steps).Attached more ∧ (s.after steps).Orderly more := by
  induction steps generalizing s with
  | nil => exact ⟨ha, horderly⟩
  | cons step steps ih =>
    exact ih (wellKept_outcome k (step_outcome k step)) (inFlight_step k h step)
      (attached_step k h ha horderly) horderly.2

theorem unheard_of_attached {s : Session} (hclosed : s.closed = true) {step : Step}
    {steps : List Step} (ha : s.Attached (step :: steps)) (hreads : step.reads = true) :
    s.subscriber? s.front = none := by
  cases hs : s.subscriber? s.front with
  | none => rfl
  | some o =>
    rcases ha s.front o hs with ⟨hopen, -⟩ | hunread
    · rw [hclosed] at hopen
      cases hopen
    · exact absurd rfl (hunread.1 hreads)

theorem closed_after_eq {s : Session} (k : s.WellKept) (steps : List Step) :
    (s.after steps).closed = (s.closed || steps.any Step.closes) := by
  induction steps generalizing s with
  | nil => exact (Bool.or_false _).symm
  | cons step steps ih =>
    change ((s.step .quiet [] step).2.after steps).closed = _
    rw [ih (wellKept_outcome k (step_outcome k step)), closed_step_eq k step, List.any_cons,
      Bool.or_assoc]

theorem stops_after {s : Session} (k : s.WellKept) (steps : List Step) :
    (s.after steps).server.stops =
      if steps.any Step.closes && !s.closed then s.server.stops + 1 else s.server.stops := by
  induction steps generalizing s with
  | nil => rfl
  | cons step steps ih =>
    change ((s.step .quiet [] step).2.after steps).server.stops = _
    rw [ih (wellKept_outcome k (step_outcome k step)), closed_step_eq k step, stops_step k step,
      List.any_cons]
    cases s.closed <;> cases step.closes <;> cases steps.any Step.closes <;> rfl

theorem kept_after_close {s : Session} (k : s.WellKept) (h : s.InFlight) (hclosed : s.closed = true)
    {steps : List Step} (ha : s.Attached steps) (horderly : s.Orderly steps) :
    (s.after steps).server.starts = s.server.starts ∧
      (s.after steps).transmitted = s.transmitted ∧
      (s.after steps).waits.Sublist s.waits := by
  induction steps generalizing s with
  | nil => exact ⟨rfl, rfl, List.Sublist.refl _⟩
  | cons step steps ih =>
    obtain ⟨hsent, hwaits⟩ := keeps_step k h hclosed step (unheard_of_attached hclosed ha)
    obtain ⟨hstarts', hsent', hwaits'⟩ := ih (wellKept_outcome k (step_outcome k step))
      (inFlight_step k h step) (closed_step k step hclosed) (attached_step k h ha horderly)
      horderly.2
    exact ⟨hstarts'.trans (starts_of_closed k hclosed step), hsent'.trans hsent,
      hwaits'.trans hwaits⟩

theorem keeps_close (s : Session) :
    s.close.record = s.record ∧ s.close.waits = s.waits ∧
      s.close.server.starts = s.server.starts := by
  unfold close
  split
  · exact ⟨rfl, rfl, rfl⟩
  · dsimp only
    split <;> exact ⟨rfl, rfl, rfl⟩

theorem keeps_closing {s : Session} (k : s.WellKept) {step : Step} (h : step.closes = true) :
    (s.step .quiet [] step).2.record = s.record ∧ (s.step .quiet [] step).2.waits = s.waits ∧
      (s.step .quiet [] step).2.server.starts = s.server.starts := by
  cases step
  case close => exact keeps_close s
  case leave =>
    rw [step_leave k.manager]
    exact keeps_close s
  all_goals cases h

/-- The first step that closes a session stops its server, and nothing does so again. From then on
calls are refused, nothing is sent, no wait for a host's exit begins, and no step but the end of an
earlier wait has anybody told anything. -/
theorem closed_for_good (server : Server) (collector : Collector) (host : HostBehaviour)
    (exitWait : Nat) (earlier later : List Step) (closing : Step)
    (hearlier : earlier.any Step.closes = false) (hclosing : closing.closes = true)
    (horderly : (fresh server collector none host exitWait).Orderly
      (earlier ++ closing :: later)) :
    let s := (fresh server collector none host exitWait).after earlier
    let c := (s.step .quiet [] closing).2
    let t := c.after later
    (s.server.stops = server.stops ∧ c.server.stops = server.stops + 1 ∧
        t.server.stops = server.stops + 1) ∧
      t.server.starts = s.server.starts ∧ t.transmitted = s.transmitted ∧ t.current = none ∧
      t.waits.Sublist s.waits ∧
      (∀ call, call.isCall = true → (t.step .quiet [] call).1 = .refused .disposed) ∧
      (∀ p, c.told p = s.told p) ∧
      ∀ more step rest, later = more ++ step :: rest → step.endsWait = false →
        let u := c.after more
        let v := (u.step .quiet [] step).2
        (∀ (o : Nat) (op : Operation), u.operations[o]? = some op →
            v.told op.party = u.told op.party) ∧
          ∀ p, u.collected ≠ some p → v.told p = u.told p := by
  intro s c t
  let s₀ := fresh server collector none host exitWait
  have k₀ : s₀.WellKept := wellKept_fresh server collector host exitWait
  have h₀ : s₀.InFlight := inFlight_fresh server collector host exitWait
  have ks : s.WellKept := wellKept_after k₀ earlier
  have hs : s.InFlight := inFlight_after k₀ h₀ earlier
  have kc : c.WellKept := wellKept_outcome ks (step_outcome ks closing)
  have hc : c.InFlight := inFlight_step ks hs closing
  have kt : t.WellKept := wellKept_after kc later
  have ht : t.InFlight := inFlight_after kc hc later
  have hopen : s.closed = false := by
    rw [closed_after_eq k₀ earlier, hearlier, Bool.or_false]
    rfl
  have hclosed : c.closed = true := by rw [closed_step_eq ks closing, hclosing, Bool.or_true]
  have htclosed : t.closed = true := closed_after kc later hclosed
  obtain ⟨ha, ho⟩ := attached_after k₀ h₀ (attached_fresh server collector host exitWait _) horderly
  have hca : c.Attached later := attached_step ks hs ha ho
  obtain ⟨hrecord, hwaits, hstarts⟩ := keeps_closing ks hclosing
  obtain ⟨hstarts', hsent, hwaits'⟩ := kept_after_close kc hc hclosed hca ho.2
  have hsstops : s.server.stops = server.stops := by
    rw [stops_after k₀ earlier, hearlier, Bool.false_and]
    rfl
  have hcstops : c.server.stops = server.stops + 1 := by
    rw [stops_step ks closing, hclosing, hopen, hsstops]
    rfl
  have htstops : t.server.stops = server.stops + 1 := by
    rw [stops_after kc later, hclosed, Bool.not_true, Bool.and_false]
    exact hcstops
  refine ⟨⟨hsstops, hcstops, htstops⟩, hstarts'.trans hstarts, ?_, ht.detached htclosed, ?_, ?_, ?_,
    ?_⟩
  · rw [hsent, transmitted, hrecord, transmitted]
  · rw [← hwaits]
    exact hwaits'
  · exact fun call hcall => call_of_closed htclosed call hcall
  · intro p
    rw [told, hrecord, told]
  · rintro more step rest rfl hends u v
    have ku : u.WellKept := wellKept_after kc more
    have hu : u.InFlight := inFlight_after kc hc more
    have huclosed : u.closed = true := closed_after kc more hclosed
    obtain ⟨hua, -⟩ := attached_after kc hc hca ho.2
    have htold (p : Nat) (hp : u.collected ≠ some p) : v.told p = u.told p :=
      told_closed_step ku hu huclosed step (unheard_of_attached huclosed hua) hends hp
    refine ⟨?_, htold⟩
    intro o op hop
    exact htold op.party fun hcollected =>
      ku.collects op.party hcollected (ku.bare o op hop)

theorem closed_for_good_running :
    let earlier : List Step := [.listen, .connect, .run (.ofSources ["a.dll"]) .plain]
    let later : List Step := [.hostExited (some "killed"), .disconnect none, .endLine, .replaceLine,
      .connect, .endSession, .leave, .receive "late"]
    let s := (fresh (.fresh "4000" none false true) .idle none .elsewhere 0).after earlier
    let t := (s.step .quiet [] .close).2.after later
    s.isCompleted 0 = false ∧ t.server.stops = 1 ∧ t.transmitted = s.transmitted ∧
      (t.step .quiet [] .listen).1 = .refused .disposed := by
  intro earlier later s t
  have horderly : (fresh (.fresh "4000" none false true) .idle none .elsewhere 0).Orderly
      (earlier ++ .close :: later) :=
    orderly_fresh (.fresh "4000" none false true) .idle .elsewhere 0 (by decide)
  obtain ⟨⟨-, -, hstops⟩, -, hsent, -, -, hcalls, -, -⟩ :=
    closed_for_good (.fresh "4000" none false true) .idle .elsewhere 0 earlier later .close rfl rfl
      horderly
  exact ⟨by decide +kernel, hstops, hsent, hcalls .listen rfl⟩

end Session

end HostedTests
