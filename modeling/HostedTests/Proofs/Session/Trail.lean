import HostedTests.Proofs.Session.Decorated
import HostedTests.Proofs.Session.Outcome

namespace HostedTests

def Step.collects : Step → Bool
  | startRun _ _ | collectFor _ => true
  | _ => false

def Collector.endsAt (c : Collector) : Step → Bool
  | .prepareCollection => c.initializing.isOk && !c.preparation.outcome.isOk
  | .cancelManagedRun => true
  | _ => false

namespace Session

structure Still (s t : Session) : Prop where
  parties : t.parties = s.parties
  kind : t.manager.map Manager.kind = s.manager.map Manager.kind
  collector : t.collector = s.collector
  endings : t.endings = s.endings

/-- The way from one session to another, on which the data collector was asked so often apart from
deliveries, and so many parties joined for which data is collected. -/
inductive Trail (s : Session) : Nat → Nat → Session → Prop where
  | refl : Trail s 0 0 s
  | still {asked joined : Nat} {t u : Session} :
    Trail s asked joined t → t.Still u → Trail s asked joined u
  | deliver {asked joined : Nat} {t : Session} (p : Nat) (n : Notice) :
    Trail s asked joined t → Trail s asked joined (t.deliver .quiet p n)
  | welcome {asked joined : Nat} {t : Session} (observer : Observer) (hooks : List Hook)
    (collects : Bool) : Trail s asked joined t →
    Trail s asked (joined + collects.toNat) (t.welcome observer hooks collects)
  | callCollector {asked joined : Nat} {t : Session} (canceled : Bool) :
    Trail s asked joined t → Trail s (asked + 1) joined (t.callCollector canceled).2

theorem still_of_mute {s t : Session} (h : s.Mute t) : s.Still t where
  parties := h.parties
  kind := congrArg _ h.manager
  collector := h.collector
  endings := by
    obtain ⟨more, hmore, hmute⟩ := h.record
    have hnone : more.filterMap Incident.ending? = [] := by
      rw [List.filterMap_eq_nil_iff]
      intro i hi
      have hi' := hmute i hi
      cases i
      case collectorEnded => cases hi'
      all_goals rfl
    rw [endings_append hmore, hnone, List.append_nil]

theorem still_modifyManager (s : Session) {f : Manager → Manager} (h : ∀ m, (f m).kind = m.kind) :
    s.Still (s.modifyManager f) where
  parties := rfl
  kind := by
    rw [modifyManager, Option.map_map]
    exact congrArg (Option.map · s.manager) (funext h)
  collector := rfl
  endings := rfl

theorem still_tryComplete (s : Session) (o : Nat) : s.Still (s.tryComplete o).2 := by
  unfold tryComplete
  split
  · exact ⟨rfl, rfl, rfl, rfl⟩
  · split <;> exact ⟨rfl, rfl, rfl, rfl⟩

namespace Trail

variable {s t : Session} {asked joined : Nat}

theorem tryComplete (h : Trail s asked joined t) (o : Nat) :
    Trail s asked joined (t.tryComplete o).2 := h.still (still_tryComplete t o)

theorem mute (h : Trail s asked joined t) {u : Session} (hmute : t.Mute u) :
    Trail s asked joined u := h.still (still_of_mute hmute)

theorem keep (h : Trail s asked joined t) (said : List Utterance) :
    Trail s asked joined (t.keep said) := h.still (still_modifyManager t fun _ => rfl)

theorem tellError (h : Trail s asked joined t) (p : Nat) (text : String) :
    Trail s asked joined (t.tellError .quiet p text) := (h.deliver p _).deliver p _

theorem abort (h : Trail s asked joined t) (o : Nat) (cause : String) :
    Trail s asked joined (t.abort .quiet o cause) := by
  unfold Session.abort
  split
  · exact h
  · have hdone := h.tryComplete o
    split <;> rename_i heq <;> rw [heq] at hdone
    · exact hdone
    · exact ((hdone.tellError _ _).deliver _ _).deliver _ _

theorem complete (h : Trail s asked joined t) (o p : Nat) (n : Notice) :
    Trail s asked joined (t.complete .quiet o p n) := by
  have hdone := h.tryComplete o
  unfold Session.complete
  split <;> rename_i heq <;> rw [heq] at hdone
  · exact hdone
  · exact hdone.deliver p n

theorem launchUnderDebugger (h : Trail s asked joined t) (p : Nat) (info : StartInfo) :
    Trail s asked joined (t.launchUnderDebugger .quiet p info).2 :=
  h.deliver p (.launchUnderDebugger info)

theorem replyToLaunch (h : Trail s asked joined t) (p : Nat) (info : StartInfo) :
    Trail s asked joined (t.replyToLaunch .quiet p info).2 := by
  have hasked := h.launchUnderDebugger p info
  unfold Session.replyToLaunch
  generalize t.launchUnderDebugger .quiet p info = answer at hasked ⊢
  obtain ⟨_ | pid, u⟩ := answer
  · exact hasked
  · dsimp only
    split
    · exact hasked
    · rename_i line _
      have hsent := hasked.mute
        (mute_transmit u line (Message.carrying .launchedUnderDebugger pid).text)
      split <;> rename_i heq <;> rw [heq] at hsent <;> exact hsent

theorem dispatchToDiscovery (h : Trail s asked joined t) (o p : Nat) (m : Message) :
    Trail s asked joined (t.dispatchToDiscovery .quiet o p m).2 := by
  unfold Session.dispatchToDiscovery
  split
  · split
    · exact h
    · rename_i tests _
      exact h.deliver p (.discovered tests)
  · split
    · exact h
    · rename_i completion _
      exact h.complete o p (.discoveryComplete completion)
  · split
    · exact h
    · rename_i r _
      exact h.deliver p (.log r.severity r.text)
  · exact h

theorem dispatchToRun (h : Trail s asked joined t) (o p : Nat) (m : Message) :
    Trail s asked joined (t.dispatchToRun .quiet o p m).2 := by
  unfold Session.dispatchToRun
  split
  · split
    · exact h
    · rename_i change _
      exact h.deliver p (.runChanged change)
  · split
    · exact h
    · split
      · exact h
      · rename_i report _
        exact h.complete o p (.runComplete report)
  · split
    · exact h
    · rename_i r _
      exact h.deliver p (.log r.severity r.text)
  · split
    · exact h
    · exact h.replyToLaunch p _
  · exact h

theorem dispatch (h : Trail s asked joined t) (o : Nat) (op : Operation) (text : String) :
    Trail s asked joined (t.dispatch .quiet o op text).2 := by
  unfold Session.dispatch
  split
  · exact h
  · split
    · exact h.dispatchToDiscovery o op.party _
    · exact h.dispatchToRun o op.party _

theorem accept (h : Trail s asked joined t) (o : Nat) (text : String) :
    Trail s asked joined (t.accept .quiet o text) := by
  unfold Session.accept
  split
  · exact h
  · rename_i op _
    split
    · exact h
    · have hheard := (h.deliver op.party (.raw text)).dispatch o op text
      split <;> rename_i heq <;> rw [heq] at hheard
      · exact hheard
      · exact hheard.abort o _

theorem receive (h : Trail s asked joined t) (line : Nat) (text : String) :
    Trail s asked joined (t.receive .quiet line text).2 := by
  unfold Session.receive
  split
  · exact h
  · dsimp only
    split
    · exact h
    · exact h.accept _ text

theorem disconnect (h : Trail s asked joined t) (fault : Option ChannelFault) :
    Trail s asked joined (t.disconnect .quiet fault) := by
  unfold Session.disconnect
  split
  · exact h
  · split
    · exact h
    · exact h.abort _ _

theorem beginDisconnect (h : Trail s asked joined t) (fault : Option ChannelFault) :
    Trail s asked joined (t.beginDisconnect .quiet fault) := by
  unfold Session.beginDisconnect
  split
  · exact h
  · split
    · exact h
    · split
      · exact h
      · split
        · exact h.abort _ _
        · exact h.still ⟨rfl, rfl, rfl, rfl⟩

theorem endDisconnect (h : Trail s asked joined t) (wait : Nat) :
    Trail s asked joined (t.endDisconnect .quiet wait) := by
  unfold Session.endDisconnect
  split
  · exact h
  · apply Trail.abort
    exact h.still ⟨rfl, rfl, rfl, rfl⟩

theorem hostExited (h : Trail s asked joined t) (stderr : Option String) :
    Trail s asked joined (t.hostExited .quiet stderr) := by
  unfold Session.hostExited
  dsimp only
  split
  · rename_i o op _ _
    have hdone := h.tryComplete o
    split <;> rename_i heq <;> rw [heq] at hdone
    · exact hdone.still ⟨rfl, rfl, rfl, rfl⟩
    · apply Trail.deliver
      apply Trail.tellError
      exact hdone.still ⟨rfl, rfl, rfl, rfl⟩
  · exact h.still ⟨rfl, rfl, rfl, rfl⟩

theorem startOperation (h : Trail s asked joined t) (kind : OperationKind) (p : Nat)
    (request : Message) : Trail s asked joined (t.startOperation .quiet kind p request).2 := by
  unfold Session.startOperation
  split
  · exact h
  · rename_i line _
    split
    · exact h
    · let u := { t with
        operations := t.operations ++ [Operation.mk (.fresh kind) p]
        current := some t.operations.length }.subscribe line (some t.operations.length)
      have hu : Trail s asked joined u := h.still ⟨rfl, rfl, rfl, rfl⟩
      have hsent := hu.mute (mute_transmit u line request.text)
      dsimp only
      split <;> rename_i heq <;> rw [heq] at hsent
      · exact hsent
      · exact hsent.abort _ _

theorem discover (h : Trail s asked joined t) (criteria : DiscoveryCriteria) (p : Nat) :
    Trail s asked joined (t.discover .quiet criteria p).2 := by
  unfold Session.discover
  split
  · exact h
  · split
    · exact h
    · exact h.startOperation _ p _

theorem run (h : Trail s asked joined t) (criteria : RunCriteria) (p : Nat) :
    Trail s asked joined (t.run .quiet criteria p).2 := by
  unfold Session.run
  split
  · exact h
  · split
    · exact h
    · exact h.startOperation _ p _

theorem launchHost (h : Trail s asked joined t) (info : StartInfo) :
    Trail s asked joined (t.launchHost info).2 := by
  have hnoted : Trail s asked joined (t.note (.hostLaunched info)) := h.mute (mute_note t rfl)
  unfold Session.launchHost
  dsimp only
  split
  · exact hnoted
  · have hrunning : Trail s asked joined
        { t.note (.hostLaunched info) with running := t.running + 1 } :=
      hnoted.still ⟨rfl, rfl, rfl, rfl⟩
    dsimp only
    split
    · exact hrunning.mute (mute_connect _ _)
    · exact hrunning

theorem readyHost (h : Trail s asked joined t) (sources : List String) (kind : OperationKind) :
    Trail s asked joined (t.readyHost sources kind).2 := by
  have hnoted : Trail s asked joined (t.note (.extensionsSought sources)) :=
    h.mute (mute_note t rfl)
  unfold Session.readyHost
  dsimp only
  split
  · exact hnoted
  · rename_i paths _
    have hsent := hnoted.mute (mute_send _ (kind.extensionsMessage paths))
    split <;> rename_i heq <;> rw [heq] at hsent <;> exact hsent

theorem setUp (h : Trail s asked joined t) (m : Manager) (sources : List String)
    (kind : OperationKind) : Trail s asked joined (t.setUp m sources kind).2 := by
  unfold Session.setUp
  split
  · exact h
  · have hlisten := h.mute (mute_listen t)
    split <;> rename_i heq <;> rw [heq] at hlisten
    · exact hlisten
    · split
      · exact hlisten
      · rename_i u _ info _
        have hwaiting : Trail s asked joined { u with exitWait := m.exitWait } :=
          hlisten.still ⟨rfl, rfl, rfl, rfl⟩
        have hlaunch := hwaiting.launchHost ((m.parameters.map info.collecting).getD info)
        dsimp only
        split <;> rename_i heq <;> rw [heq] at hlaunch
        · exact hlaunch
        · split
          · exact hlaunch.mute (mute_abandonHost _)
          · have hready := hlaunch.readyHost sources kind
            split <;> rename_i heq <;> rw [heq] at hready
            · exact hready.mute (mute_abandonHost _)
            · exact hready.still (still_modifyManager _ fun _ => rfl)

theorem startManaged (h : Trail s asked joined t) (m : Manager) (kind : OperationKind)
    (sources : List String) (context : String) (p : Nat)
    {start : Session → Except RequestFault Unit × Session}
    (hstart : ∀ u, Trail s asked joined u → Trail s asked joined (start u).2) :
    Trail s asked joined (t.startManaged .quiet m kind sources context p start).2 := by
  have hready := h.setUp m sources kind
  unfold Session.startManaged
  generalize t.setUp m sources kind = ready at hready ⊢
  obtain ⟨_ | process, u⟩ := ready
  · exact (hready.deliver p _).deliver p _
  · have hstarted := hstart u hready
    dsimp only
    generalize start u = started at hstarted ⊢
    obtain ⟨_ | _, v⟩ := started
    · exact (hstarted.deliver p _).deliver p _
    · exact hstarted

theorem startRun (h : Trail s asked joined t) (m : Manager) (criteria : RunCriteria) (p : Nat) :
    Trail s asked joined (t.startRun .quiet m criteria p).2 := by
  have hrecorded (texts : List String) (u : Session) (hu : Trail s asked joined u) :
      Trail s asked joined
        (texts.foldl (fun s text => s.deliver .quiet p (.log .error text)) u) := by
    induction texts generalizing u with
    | nil => exact hu
    | cons text texts ih => exact ih _ (hu.deliver p _)
  unfold Session.startRun
  apply Trail.startManaged
  · apply hrecorded
    exact h.still (still_modifyManager t fun _ => rfl)
  · intro u hu
    exact hu.run criteria p

theorem endPreparation (h : Trail s asked joined t) :
    Trail s (asked + 1) joined t.endPreparation.2 := (h.callCollector true).keep _

theorem signalManaged (h : Trail s asked joined t) (kind : Message.Kind) (context : String) :
    Trail s asked joined (t.signalManaged kind context).2 := by
  have hsent := h.mute (mute_send t (.signal kind))
  unfold Session.signalManaged
  split <;> rename_i heq <;> rw [heq] at hsent <;> exact hsent

theorem prepareCollection (h : Trail s asked joined t) :
    Trail s (asked + (t.collector.endsAt .prepareCollection).toNat) joined
      t.prepareCollection.2 := by
  have hnoted : Trail s asked joined (t.note .collectorInitialized) := h.mute (mute_note t rfl)
  have hkept : Trail s asked joined (((t.note .collectorInitialized).note
      (.collectorPrepared true true)).keep t.collector.preparation.utterances) :=
    (hnoted.mute (mute_note _ rfl)).keep _
  unfold Session.prepareCollection Collector.endsAt
  cases hinitializing : t.collector.initializing with
  | error e =>
    simp only [Session.note, hinitializing]
    exact hnoted
  | ok u =>
    cases houtcome : t.collector.preparation.outcome with
    | error e =>
      simp only [Session.note, Session.keep, Session.modifyManager, hinitializing, houtcome]
      exact (hkept.keep [.log .error e.text]).endPreparation
    | ok answer =>
      simp only [Session.note, Session.keep, Session.modifyManager, hinitializing, houtcome]
      cases answer with
      | none => exact hkept
      | some parameters => exact hkept.still (still_modifyManager _ fun _ => rfl)

theorem cancelManagedRun (h : Trail s asked joined t) {m : Manager} (hm : m.kind = .collecting) :
    Trail s (asked + 1) joined (t.cancelManagedRun m).2 := by
  have hsignal := h.endPreparation.signalManaged .cancelRun "cancel test run"
  unfold Session.cancelManagedRun
  rw [if_pos hm]
  dsimp only
  split <;> rename_i heq <;> rw [heq] at hsignal
  · exact hsignal
  · split <;> exact hsignal

end Trail

theorem step_trail (s : Session) (h : s.manager.map Manager.kind = some .collecting)
    (step : Step) :
    s.Trail (s.collector.endsAt step).toNat step.collects.toNat (s.step .quiet [] step).2 := by
  obtain ⟨m, hm, hkind⟩ := Option.map_eq_some_iff.mp h
  have hfor (kinds : List Manager.Kind) (hmem : Manager.Kind.collecting ∈ kinds) :
      s.managerFor kinds = some m := managerFor_of_mem hm (hkind ▸ hmem)
  have hnone (kinds : List Manager.Kind) (hmem : Manager.Kind.collecting ∉ kinds) :
      s.managerFor kinds = none := managerFor_of_not_mem hm (hkind ▸ hmem)
  have hstart : Trail s 0 0 s := .refl
  have hwelcome (observer : Observer) : Trail s 0 0 (s.welcome observer [] false) :=
    hstart.welcome observer [] false
  cases step
  case listen =>
    have hlisten := hstart.mute (mute_listen s)
    simp only [Session.step]
    split <;> rename_i heq <;> rw [heq] at hlisten <;> exact hlisten
  case sendExtensions kind paths => exact hstart.mute (mute_send s _)
  case discover criteria observer => exact (hwelcome observer).discover criteria _
  case run criteria observer => exact (hwelcome observer).run criteria _
  case cancelRun => exact hstart.mute (mute_send s _)
  case abortRun => exact hstart.mute (mute_send s _)
  case endSession => exact hstart.mute (mute_endSession s)
  case hostExited stderr => exact hstart.hostExited stderr
  case close => exact hstart.mute (mute_close s)
  case leave => exact hstart.mute (mute_leave s)
  case connect =>
    simp only [Session.step]
    split
    · exact hstart.mute (mute_connect s _)
    · exact hstart
  case returnToLine line =>
    simp only [Session.step]
    split <;> exact hstart.still ⟨rfl, rfl, rfl, rfl⟩
  case disconnect fault =>
    simp only [Session.step]
    split
    · exact hstart.disconnect fault
    · exact hstart
  case beginDisconnect fault =>
    simp only [Session.step]
    split
    · exact hstart.beginDisconnect fault
    · exact hstart
  case endDisconnect wait => exact hstart.endDisconnect wait
  case receive text => exact hstart.receive _ text
  case setUp sources kind =>
    simp only [Session.step, hnone [.operation] (by decide)]
    exact hstart
  case startDiscovery criteria observer =>
    simp only [Session.step, hnone [.discovery] (by decide)]
    exact hstart
  case recordedMessages =>
    simp only [Session.step]
    split <;> exact hstart
  case startRun criteria observer =>
    simp only [Session.step, hfor [.execution, .collecting] (by decide), hkind, decide_true]
    exact (hstart.welcome observer [] true).startRun m criteria _
  case prepareCollection =>
    simp only [Session.step, hfor [.collecting] (by decide)]
    have hprepared := hstart.prepareCollection
    rw [Nat.zero_add] at hprepared
    exact hprepared
  case cancelManagedRun =>
    simp only [Session.step, hfor [.execution, .collecting] (by decide)]
    exact hstart.cancelManagedRun hkind
  case abortManagedRun =>
    simp only [Session.step, hfor [.execution, .collecting] (by decide)]
    exact hstart.signalManaged _ _
  case closeManager =>
    simp only [Session.step]
    split
    · exact hstart
    · exact hstart.mute (mute_closeManager s)
  case launchedHostExits stderr =>
    simp only [Session.step]
    split
    · exact hstart
    · apply Trail.hostExited
      exact hstart.still ⟨rfl, rfl, rfl, rfl⟩
  case collectFor observer =>
    have hjoined := hstart.welcome observer [] true
    exact hjoined.still ⟨rfl, rfl, rfl, rfl⟩
  case relay notice =>
    rcases relay_cases s notice with hsame | ⟨p, -, hdelivered⟩
    · rw [hsame]
      exact hstart
    · rw [hdelivered]
      exact hstart.deliver p notice
  all_goals exact hstart.still ⟨rfl, rfl, rfl, rfl⟩

end Session

end HostedTests
