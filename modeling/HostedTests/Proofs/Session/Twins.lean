import HostedTests.Proofs.Session.Decorated
import HostedTests.Proofs.Session.Outcome

namespace HostedTests.Session

variable {α : Type} {a : Collecting} {p : Option Nat} {s t : Session}

def amid (s k : Session) : Session :=
  { s with
    parties := k.parties
    collected := k.collected
    collector := k.collector
    manager := k.manager
    running := k.running
    record := k.record }

def Silent (f : Session → α × Session) : Prop :=
  ∀ s k : Session, f (s.amid k) = ((f s).1, (f s).2.amid k)

theorem Twin.silent (h : Twin a p s t) {f : Session → α × Session} (hf : Silent f) :
    Alike a p (f s) (f t) := by
  obtain ⟨hs, rfl⟩ := h
  have hself : (f s).2.amid s = (f s).2 := (congrArg Prod.snd (hf s s)).symm
  have hamid : s.amid (s.collecting a p) = s.collecting a p := by cases p <;> rfl
  have htwin := hf s (s.collecting a p)
  rw [hamid] at htwin
  refine ⟨by rw [htwin], ?_, ?_⟩
  · rw [← hself]
    exact ⟨hs.manager, hs.running, hs.uncollected, hs.bare, hs.answer, hs.unasked, hs.enrolled⟩
  · rw [htwin, ← hself]
    cases p <;> rfl

theorem Twin.changed (h : Twin a p s t) {f : Session → Session}
    (hf : ∀ s k : Session, f (s.amid k) = (f s).amid k) : Twin a p (f s) (f t) :=
  (h.silent (f := fun s => ((), f s)) fun s k => congrArg (Prod.mk ()) (hf s k)).twin

theorem Alike.cases {x y : α × Session} (h : Alike a p x y) :
    ∃ r s t, x = (r, s) ∧ y = (r, t) ∧ Twin a p s t :=
  ⟨x.1, x.2, y.2, rfl, Prod.ext h.result rfl, h.twin⟩

namespace Twin

theorem alike (h : Twin a p s t) (r : α) : Alike a p (r, s) (r, t) := ⟨rfl, h⟩

theorem agree (h : Twin a p s t) {β : Type} {f : Session → β}
    (hf : ∀ s k : Session, f (s.amid k) = f s) : f t = f s :=
  (h.silent (f := fun s => (f s, s)) fun s k => congrArg (·, s.amid k) (hf s k)).result

theorem managerless (h : Twin a p s t) : t.manager = none := by
  obtain ⟨hs, rfl⟩ := h
  cases p <;> exact hs.manager

theorem idle (h : Twin a p s t) : t.running = 0 := by
  obtain ⟨hs, rfl⟩ := h
  cases p <;> exact hs.running

theorem uncollected (h : Twin a p s t) : t.collected = none := by
  obtain ⟨hs, rfl⟩ := h
  cases p <;> exact hs.uncollected

theorem nextParty (h : Twin a p s t) : t.nextParty = s.nextParty := by
  obtain ⟨-, rfl⟩ := h
  cases p with
  | none => rfl
  | some p => exact List.length_modify ..

theorem note_sent (h : Twin a p s t) (line : Nat) (text : String) :
    Twin a p (s.note (.sent line text)) (t.note (.sent line text)) := by
  obtain ⟨hs, rfl⟩ := h
  have hunasked : (s.note (.sent line text)).endings = [] := by
    rw [endings_append (s := s) rfl, hs.unasked]
    rfl
  refine ⟨⟨hs.manager, hs.running, hs.uncollected, hs.bare, hs.answer, hunasked, hs.enrolled⟩, ?_⟩
  cases p with
  | none => rfl
  | some p => exact (collecting_note_same rfl fun _ => rfl).symm

theorem deliver (h : Twin a p s t) (q : Nat) (n : Notice) :
    Twin a p (s.deliver .quiet q n) (t.deliver .quiet q n) := by
  obtain ⟨hs, rfl⟩ := h
  rw [collecting_deliver hs, deliver_bare s q n (hs.collection? q)]
  have hunasked : (s.tellAll q [n]).endings = [] := by
    rw [endings_append (s := s) rfl, hs.unasked]
    rfl
  exact ⟨⟨hs.manager, hs.running, hs.uncollected, hs.bare, hs.answer, hunasked, hs.enrolled⟩, rfl⟩

theorem observer (h : Twin a p s t) (q : Nat) :
    (t.parties[q]?).map Party.observer = (s.parties[q]?).map Party.observer := by
  obtain ⟨-, rfl⟩ := h
  cases p with
  | none => rfl
  | some p =>
    change ((s.parties.modify p _)[q]?).map Party.observer = _
    rw [List.getElem?_modify, Option.map_eq_map, Option.map_map]
    congr 1
    funext party
    by_cases hq : p = q <;> simp [hq]

theorem transmit (h : Twin a p s t) (line : Nat) (text : String) :
    Alike a p (s.transmit line text) (t.transmit line text) := by
  have hlines : t.lines = s.lines := h.agree fun _ _ => rfl
  unfold Session.transmit
  rw [hlines]
  cases s.lines[line]?.bind (·.refusal) with
  | some f => exact ⟨rfl, h⟩
  | none => exact ⟨rfl, h.note_sent line text⟩

theorem tryComplete (h : Twin a p s t) (o : Nat) :
    Alike a p (s.tryComplete o) (t.tryComplete o) := by
  apply h.silent (f := fun s => s.tryComplete o)
  intro s k
  have hops : (s.amid k).operations = s.operations := rfl
  simp only [Session.tryComplete, hops]
  cases s.operations[o]? with
  | none => rfl
  | some op =>
    dsimp only [OperationState.tryComplete]
    cases op.state.completed <;> rfl

theorem tellError (h : Twin a p s t) (q : Nat) (text : String) :
    Twin a p (s.tellError .quiet q text) (t.tellError .quiet q text) :=
  (h.deliver q _).deliver q _

theorem abort (h : Twin a p s t) (o : Nat) (cause : String) :
    Twin a p (s.abort .quiet o cause) (t.abort .quiet o cause) := by
  have hops : t.operations = s.operations := h.agree fun _ _ => rfl
  unfold Session.abort
  rw [hops]
  cases s.operations[o]? with
  | none => exact h
  | some op =>
    obtain ⟨won, s', t', hs, ht, h'⟩ := (h.tryComplete o).cases
    simp only [hs, ht]
    cases won with
    | false => exact h'
    | true => exact ((h'.tellError _ _).deliver _ _).deliver _ _

theorem complete (h : Twin a p s t) (o q : Nat) (n : Notice) :
    Twin a p (s.complete .quiet o q n) (t.complete .quiet o q n) := by
  obtain ⟨won, s', t', hs, ht, h'⟩ := (h.tryComplete o).cases
  simp only [Session.complete, hs, ht]
  cases won with
  | false => exact h'
  | true => exact h'.deliver q n

theorem launchUnderDebugger (h : Twin a p s t) (q : Nat) (info : StartInfo) :
    Alike a p (s.launchUnderDebugger .quiet q info) (t.launchUnderDebugger .quiet q info) := by
  refine ⟨?_, h.deliver q (.launchUnderDebugger info)⟩
  have hanswer := congrArg (Option.map fun o => o.debugger info) (h.observer q)
  rw [Option.map_map, Option.map_map] at hanswer
  exact congrArg (Option.getD · _) hanswer

theorem replyToLaunch (h : Twin a p s t) (q : Nat) (info : StartInfo) :
    Alike a p (s.replyToLaunch .quiet q info) (t.replyToLaunch .quiet q info) := by
  obtain ⟨answer, s', t', hs, ht, h'⟩ := (h.launchUnderDebugger q info).cases
  simp only [Session.replyToLaunch, hs, ht]
  cases answer with
  | error e => exact ⟨rfl, h'⟩
  | ok pid =>
    have hchannel : t'.channel = s'.channel := h'.agree fun _ _ => rfl
    simp only [hchannel]
    cases s'.channel with
    | none => exact ⟨rfl, h'⟩
    | some line =>
      obtain ⟨sent, s'', t'', hs, ht, h''⟩ :=
        (h'.transmit line (Message.carrying .launchedUnderDebugger pid).text).cases
      simp only [hs, ht]
      cases sent <;> exact ⟨rfl, h''⟩

theorem dispatchToDiscovery (h : Twin a p s t) (o q : Nat) (m : Message) :
    Alike a p (s.dispatchToDiscovery .quiet o q m) (t.dispatchToDiscovery .quiet o q m) := by
  obtain ⟨kind, payload⟩ := m
  cases kind
  case testCasesFound =>
    simp only [Session.dispatchToDiscovery]
    cases ((Message.mk .testCasesFound payload).require : Except Message.Fault (List TestCase)) with
    | error f => exact ⟨rfl, h⟩
    | ok tests => exact (h.deliver q _).alike _
  case discoveryComplete =>
    simp only [Session.dispatchToDiscovery]
    cases ((Message.mk .discoveryComplete payload).require :
      Except Message.Fault DiscoveryCompletion) with
    | error f => exact ⟨rfl, h⟩
    | ok c => exact (h.complete o q _).alike _
  case remark =>
    simp only [Session.dispatchToDiscovery]
    cases ((Message.mk .remark payload).require : Except Message.Fault Remark) with
    | error f => exact ⟨rfl, h⟩
    | ok r => exact (h.deliver q _).alike _
  all_goals exact ⟨rfl, h⟩

theorem dispatchToRun (h : Twin a p s t) (o q : Nat) (m : Message) :
    Alike a p (s.dispatchToRun .quiet o q m) (t.dispatchToRun .quiet o q m) := by
  obtain ⟨kind, payload⟩ := m
  cases kind
  case runStatsChange =>
    simp only [Session.dispatchToRun]
    cases ((Message.mk .runStatsChange payload).require : Except Message.Fault RunChange) with
    | error f => exact ⟨rfl, h⟩
    | ok c => exact (h.deliver q _).alike _
  case executionComplete =>
    simp only [Session.dispatchToRun]
    cases ((Message.mk .executionComplete payload).require :
      Except Message.Fault RunCompletion) with
    | error f => exact ⟨rfl, h⟩
    | ok c =>
      simp only
      cases c.report? with
      | none => exact ⟨rfl, h⟩
      | some report => exact (h.complete o q _).alike _
  case remark =>
    simp only [Session.dispatchToRun]
    cases ((Message.mk .remark payload).require : Except Message.Fault Remark) with
    | error f => exact ⟨rfl, h⟩
    | ok r => exact (h.deliver q _).alike _
  case launchUnderDebugger =>
    simp only [Session.dispatchToRun]
    cases ((Message.mk .launchUnderDebugger payload).require : Except Message.Fault StartInfo) with
    | error f => exact ⟨rfl, h⟩
    | ok info => exact h.replyToLaunch q info
  all_goals exact ⟨rfl, h⟩

theorem dispatch (h : Twin a p s t) (o : Nat) (op : Operation) (text : String) :
    Alike a p (s.dispatch .quiet o op text) (t.dispatch .quiet o op text) := by
  unfold Session.dispatch
  cases Message.parse text with
  | error f => exact ⟨rfl, h⟩
  | ok m =>
    simp only
    cases op.state.kind with
    | discovery => exact h.dispatchToDiscovery o op.party m
    | execution => exact h.dispatchToRun o op.party m

theorem accept (h : Twin a p s t) (o : Nat) (text : String) :
    Twin a p (s.accept .quiet o text) (t.accept .quiet o text) := by
  have hops : t.operations = s.operations := h.agree fun _ _ => rfl
  unfold Session.accept
  rw [hops]
  cases s.operations[o]? with
  | none => exact h
  | some op =>
    by_cases hcompleted : op.state.completed = true
    · simp only [hcompleted, if_true]
      exact h
    · obtain ⟨result, s', t', hs, ht, h'⟩ :=
        ((h.deliver op.party (.raw text)).dispatch o op text).cases
      simp only [hcompleted, hs, ht]
      cases result with
      | ok _ => exact h'
      | error e => exact h'.abort o e.text

theorem receive (h : Twin a p s t) (line : Nat) (text : String) :
    Alike a p (s.receive .quiet line text) (t.receive .quiet line text) := by
  have hlines : t.lines = s.lines := h.agree fun _ _ => rfl
  have habandoned : t.abandoned = s.abandoned := h.agree fun _ _ => rfl
  unfold Session.receive
  rw [hlines, habandoned]
  cases s.lines[line]?.bind (·.subscriber) with
  | none => exact ⟨rfl, h⟩
  | some o =>
    refine ⟨rfl, ?_⟩
    simp only
    split
    · exact h
    · exact h.accept o text

theorem disconnect (h : Twin a p s t) (fault : Option ChannelFault) :
    Twin a p (s.disconnect .quiet fault) (t.disconnect .quiet fault) := by
  have habandoned : t.abandoned = s.abandoned := h.agree fun _ _ => rfl
  have hcurrent : t.current = s.current := h.agree fun _ _ => rfl
  unfold Session.disconnect
  rw [habandoned, hcurrent]
  split
  · exact h
  · cases s.current with
    | none => exact h
    | some o => exact h.abort o _

theorem beginDisconnect (h : Twin a p s t) (fault : Option ChannelFault) :
    Twin a p (s.beginDisconnect .quiet fault) (t.beginDisconnect .quiet fault) := by
  have habandoned : t.abandoned = s.abandoned := h.agree fun _ _ => rfl
  have hcurrent : t.current = s.current := h.agree fun _ _ => rfl
  have hcompleted (o : Nat) : t.isCompleted o = s.isCompleted o :=
    h.agree (f := fun s => s.isCompleted o) fun _ _ => rfl
  have hwait : t.exitWait = s.exitWait := h.agree fun _ _ => rfl
  unfold Session.beginDisconnect
  rw [habandoned, hcurrent]
  split
  · exact h
  · cases s.current with
    | none => exact h
    | some o =>
      simp only [hcompleted, hwait]
      split
      · exact h
      · split
        · exact h.abort o _
        · let waiting (u : Session) : Session :=
            { u with
              abandoned := s.abandoned
              current := some o
              exitWait := s.exitWait
              waits := u.waits ++ [⟨o, fault⟩] }
          exact h.changed (f := waiting) fun _ _ => rfl

theorem endDisconnect (h : Twin a p s t) (wait : Nat) :
    Twin a p (s.endDisconnect .quiet wait) (t.endDisconnect .quiet wait) := by
  have hwaits : t.waits = s.waits := h.agree fun _ _ => rfl
  unfold Session.endDisconnect
  rw [hwaits]
  cases s.waits[wait]? with
  | none => exact h
  | some w =>
    have hleft := h.changed (f := fun s => { s with waits := s.waits.eraseIdx wait }) fun _ _ => rfl
    simp only [hwaits] at hleft
    exact hleft.abort w.operation (lossCause w.fault)

theorem hostExited (h : Twin a p s t) (stderr : Option String) :
    Twin a p (s.hostExited .quiet stderr) (t.hostExited .quiet stderr) := by
  have hexited {s t : Session} (h : Twin a p s t) :
      Twin a p { s with hostHasExited := true } { t with hostHasExited := true } :=
    h.changed (f := fun s => { s with hostHasExited := true }) fun _ _ => rfl
  have hpair : (t.current.bind fun o => t.operations[o]?.map fun op => (o, op)) =
      s.current.bind fun o => s.operations[o]?.map fun op => (o, op) :=
    h.agree (f := fun s => s.current.bind fun o => s.operations[o]?.map fun op => (o, op))
      fun _ _ => rfl
  unfold Session.hostExited
  rw [hpair]
  cases stderr.filter fun t => !Text.allBlank t with
  | none => exact hexited h
  | some text =>
    simp only
    cases s.current.bind fun o => s.operations[o]?.map fun op => (o, op) with
    | none => exact hexited h
    | some pair =>
      obtain ⟨o, op⟩ := pair
      obtain ⟨won, s', t', hs, ht, h'⟩ := (h.tryComplete o).cases
      simp only [hs, ht]
      cases won with
      | false => exact hexited h'
      | true => exact ((hexited h').tellError op.party text).deliver op.party _

theorem send (h : Twin a p s t) (m : Message) : Alike a p (s.send m) (t.send m) := by
  have hline : t.line? = s.line? := h.agree fun _ _ => rfl
  unfold Session.send
  rw [hline]
  cases s.line? with
  | error f => exact ⟨rfl, h⟩
  | ok line =>
    obtain ⟨sent, s', t', hs, ht, h'⟩ := (h.transmit line m.text).cases
    simp only [hs, ht]
    cases sent <;> exact ⟨rfl, h'⟩

theorem endSession (h : Twin a p s t) : Alike a p s.endSession t.endSession := by
  have hcompleted : t.currentIsCompleted = s.currentIsCompleted := h.agree fun _ _ => rfl
  have hchannel : t.channel = s.channel := h.agree fun _ _ => rfl
  unfold Session.endSession
  rw [hcompleted, hchannel]
  split
  · exact ⟨rfl, h⟩
  · exact h.send _

theorem startOperation (h : Twin a p s t) (kind : OperationKind) (q : Nat) (m : Message) :
    Alike a p (s.startOperation .quiet kind q m) (t.startOperation .quiet kind q m) := by
  have hline : t.line? = s.line? := h.agree fun _ _ => rfl
  have hactive : t.active? = s.active? := h.agree fun _ _ => rfl
  have hops : t.operations = s.operations := h.agree fun _ _ => rfl
  unfold Session.startOperation
  rw [hline, hactive]
  cases s.line? with
  | error f => exact ⟨rfl, h⟩
  | ok line =>
    simp only
    cases s.active? with
    | some op => exact ⟨rfl, h⟩
    | none =>
      have hregistered := h.changed (f := fun s => s.register line ⟨.fresh kind, q⟩) fun _ _ => rfl
      obtain ⟨sent, s', t', hs, ht, h'⟩ := (hregistered.transmit line m.text).cases
      unfold register at hs ht
      simp only [hs, ht]
      cases sent with
      | ok _ => exact h'.alike _
      | error f =>
        rw [hops]
        exact (h'.abort s.operations.length f.message).alike _

theorem modify_append {β : Type} (f : β → β) {i : Nat} {xs : List β} (ys : List β)
    (h : i < xs.length) : (xs ++ ys).modify i f = xs.modify i f ++ ys := by
  induction xs generalizing i with
  | nil => cases h
  | cons x xs ih =>
    cases i with
    | zero => rfl
    | succ i =>
      rw [List.cons_append, List.modify_succ_cons, List.modify_succ_cons, List.cons_append,
        ih (Nat.lt_of_succ_lt_succ h)]

theorem welcome (h : Twin a p s t) (observer : Observer) :
    Twin a p (s.welcome observer [] false) (t.welcome observer [] false) := by
  obtain ⟨hs, rfl⟩ := h
  have hlength : (s.welcome observer [] false).parties.length = s.parties.length + 1 := by
    rw [Session.welcome, enroll, List.length_append, List.length_singleton]
  refine ⟨⟨hs.manager, hs.running, hs.uncollected, ?_, hs.answer, hs.unasked, ?_⟩, ?_⟩
  · intro q hq
    rcases List.mem_append.mp hq with hq | hq
    · exact hs.bare q hq
    · rw [List.mem_singleton.mp hq]
      rfl
  · intro q hq
    have hlt := hs.enrolled q hq
    omega
  · cases p with
    | none => rfl
    | some p =>
      have hlt := hs.enrolled p rfl
      simp only [collecting, Session.welcome, enroll, setCollection]
      rw [modify_append _ _ hlt]

theorem amid_connect (s k : Session) (line : Nat) :
    (s.amid k).connect line = (s.connect line).amid k := by
  by_cases habandoned : s.abandoned
  · rw [Session.connect, Session.connect, if_pos habandoned]
    exact if_pos habandoned
  · rw [Session.connect, Session.connect, if_neg habandoned]
    exact if_neg habandoned

theorem connect (h : Twin a p s t) (line : Nat) : Twin a p (s.connect line) (t.connect line) :=
  h.changed (f := fun s => s.connect line) fun s k => amid_connect s k line

theorem close (h : Twin a p s t) : Twin a p s.close t.close := by
  apply h.changed
  intro s k
  by_cases hclosed : s.closed
  · rw [Session.close, Session.close, if_pos hclosed]
    exact if_pos hclosed
  · rw [Session.close, Session.close, if_neg hclosed]
    refine (if_neg hclosed).trans ?_
    have hchannel : (s.amid k).channel = s.channel := rfl
    simp only [hchannel]
    cases s.channel <;> rfl

theorem listen (h : Twin a p s t) : Alike a p s.listen t.listen := by
  apply h.silent
  intro s k
  have hserver : (s.amid k).server = s.server := rfl
  have hclosed : (s.amid k).closed = s.closed := rfl
  unfold Session.listen
  rw [hserver, hclosed]
  split
  · rfl
  · split
    · rfl
    · rename_i server _
      dsimp only
      cases server.greets with
      | true => split <;> exact congrArg (Prod.mk _) (amid_connect { s with server } k s.front)
      | false => split <;> rfl

theorem run (h : Twin a p s t) (criteria : RunCriteria) (q : Nat) :
    Alike a p (s.run .quiet criteria q) (t.run .quiet criteria q) := by
  have hclosed : t.closed = s.closed := h.agree fun _ _ => rfl
  unfold Session.run
  rw [hclosed]
  split
  · exact h.alike _
  · split
    · exact h.alike _
    · exact h.startOperation _ _ _

theorem discover (h : Twin a p s t) (criteria : DiscoveryCriteria) (q : Nat) :
    Alike a p (s.discover .quiet criteria q) (t.discover .quiet criteria q) := by
  have hclosed : t.closed = s.closed := h.agree fun _ _ => rfl
  unfold Session.discover
  rw [hclosed]
  split
  · exact h.alike _
  · split
    · exact h.alike _
    · exact h.startOperation _ _ _

theorem step (h : Twin a p s t) (step : Step) (hstep : ∀ o, step ≠ .collectFor o) :
    Alike a p (s.step .quiet [] step) (t.step .quiet [] step) := by
  have hmanager : t.manager = none := h.managerless
  have htells : t.server.tells = s.server.tells :=
    h.agree (f := fun s => s.server.tells) fun _ _ => rfl
  have hfront : t.front = s.front := h.agree fun _ _ => rfl
  by_cases hmanaged : step.isManaged
  · constructor
    · have hnone {u : Session} (hu : u.manager = none) (kinds : List Manager.Kind) :
          u.managerFor kinds = none := by
        rw [managerFor, hu, Option.filter_none]
      cases step <;> first
        | (cases hmanaged; done)
        | simp only [Session.step, hnone hmanager, hnone h.plain.manager, hmanager,
            h.plain.manager, h.idle, h.plain.running, Option.isNone_none, if_true]
    · rw [step_of_managed s [] step h.plain.manager h.plain.running hmanaged,
        step_of_managed t [] step hmanager h.idle hmanaged]
      exact h
  · cases step
    case listen =>
      obtain ⟨r, s', t', hs, ht, h'⟩ := h.listen.cases
      simp only [Session.step, hs, ht]
      cases r <;> exact h'.alike _
    case sendExtensions kind paths =>
      obtain ⟨r, s', t', hs, ht, h'⟩ := (h.send (kind.extensionsMessage paths)).cases
      simp only [Session.step, hs, ht]
      exact h'.alike _
    case discover criteria observer =>
      have hnext : t.nextParty = s.nextParty := h.nextParty
      obtain ⟨r, s', t', hs, ht, h'⟩ :=
        ((h.welcome observer).discover criteria s.nextParty).cases
      simp only [Session.step, hnext, hs, ht]
      exact h'.alike _
    case run criteria observer =>
      have hnext : t.nextParty = s.nextParty := h.nextParty
      obtain ⟨r, s', t', hs, ht, h'⟩ := ((h.welcome observer).run criteria s.nextParty).cases
      simp only [Session.step, hnext, hs, ht]
      exact h'.alike _
    case cancelRun =>
      obtain ⟨r, s', t', hs, ht, h'⟩ := (h.send (.signal .cancelRun)).cases
      simp only [Session.step, hs, ht]
      exact h'.alike _
    case abortRun =>
      obtain ⟨r, s', t', hs, ht, h'⟩ := (h.send (.signal .abortRun)).cases
      simp only [Session.step, hs, ht]
      exact h'.alike _
    case endSession =>
      obtain ⟨r, s', t', hs, ht, h'⟩ := h.endSession.cases
      simp only [Session.step, hs, ht]
      exact h'.alike _
    case hostExited stderr => exact (h.hostExited stderr).alike _
    case close => exact h.close.alike _
    case leave =>
      refine ⟨rfl, ?_⟩
      rw [step_leave h.plain.manager, step_leave hmanager]
      exact h.close.changed (f := fun s => { s with abandoned := true }) fun _ _ => rfl
    case connect =>
      simp only [Session.step, htells, hfront]
      split
      · exact (h.connect s.front).alike _
      · exact h.alike _
    case returnToLine line =>
      apply h.silent
      intro s k
      by_cases hlt : line < s.lines.length
      · simp only [Session.step, if_pos hlt]
        exact congrArg (Prod.mk _) (if_pos hlt)
      · simp only [Session.step, if_neg hlt]
        exact congrArg (Prod.mk _) (if_neg hlt)
    case disconnect fault =>
      simp only [Session.step, htells]
      split
      · exact (h.disconnect fault).alike _
      · exact h.alike _
    case beginDisconnect fault =>
      simp only [Session.step, htells]
      split
      · exact (h.beginDisconnect fault).alike _
      · exact h.alike _
    case endDisconnect wait => exact (h.endDisconnect wait).alike _
    case receive text =>
      obtain ⟨r, s', t', hs, ht, h'⟩ := (h.receive s.front text).cases
      simp only [Session.step, hfront, hs, ht]
      exact h'.alike _
    case collectFor observer => exact absurd rfl (hstep observer)
    case relay n =>
      simp only [Session.step, h.plain.uncollected, h.uncollected]
      exact h.alike _
    all_goals first
      | exact absurd rfl hmanaged
      | (apply h.silent
         intro s k
         rfl)

theorem after (h : Twin a p s t) {steps : List Step}
    (hsteps : ∀ step ∈ steps, ∀ o, step ≠ .collectFor o) :
    Twin a p (s.after steps) (t.after steps) := by
  induction steps generalizing s t with
  | nil => exact h
  | cons step steps ih =>
    rw [List.forall_mem_cons] at hsteps
    exact ih (h.step step hsteps.1).twin hsteps.2

end Twin

end HostedTests.Session
