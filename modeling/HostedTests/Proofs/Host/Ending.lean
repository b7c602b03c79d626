import HostedTests.Proofs.Host.Serving
import HostedTests.Proofs.Session.Speaking

namespace HostedTests

open Message (HasKind)

namespace ReferenceHost

variable (w : Surroundings)

def Attaching (h : ReferenceHost) : Prop := ∃ tests context, h.phase = .attaching tests context

def Ended (h : ReferenceHost) : Prop := ∃ e, h.phase = .ended e

def Discards (h : ReferenceHost) (a : Arrival) : Prop :=
  ∀ extensions nextId, ({ h with extensions, nextId } : ReferenceHost).receive w a =
    ([], { h with extensions, nextId })

def Heeds (r : List Message × ReferenceHost) : Prop := r.1 ≠ [] ∨ r.2.Ended

variable {w} {h : ReferenceHost}

theorem receive_ended (hended : h.Ended) (a : Arrival) : h.receive w a = ([], h) := by
  obtain ⟨e, he⟩ := hended
  simp [receive, he]

theorem receiveAll_cons {a : Arrival} {ms : List Message} {next : ReferenceHost}
    (hreceive : h.receive w a = (ms, next)) (arrivals : List Arrival) :
    h.receiveAll w (a :: arrivals) =
      (ms :: (next.receiveAll w arrivals).1, (next.receiveAll w arrivals).2) := by
  rw [receiveAll, hreceive]

theorem receiveAll_ended (hended : h.Ended) (arrivals : List Arrival) :
    h.receiveAll w arrivals = (List.replicate arrivals.length [], h) := by
  induction arrivals with
  | nil => rfl
  | cons a arrivals ih =>
    simp [receiveAll, receive_ended hended, ih, List.replicate_succ]

theorem receiveAll_append (h : ReferenceHost) (before after : List Arrival) :
    h.receiveAll w (before ++ after) =
      ((h.receiveAll w before).1 ++ ((h.receiveAll w before).2.receiveAll w after).1,
        ((h.receiveAll w before).2.receiveAll w after).2) := by
  induction before generalizing h with
  | nil => rfl
  | cons a before ih => simp [receiveAll, ih]

theorem ended_finish (h : ReferenceHost) (e : HostEnd) : (h.finish e).Ended := ⟨e, rfl⟩

theorem heeds_fail (h : ReferenceHost) (t : Trouble) : Heeds (h.fail t) := .inr ⟨_, rfl⟩

theorem heeds_said {m : Message} {ms : List Message} {h : ReferenceHost} : Heeds (m :: ms, h) :=
  .inl (List.cons_ne_nil m ms)

theorem heeds_expect {α : Type} (h : ReferenceHost) (payload : Except Message.Fault α)
    {go : α → List Message × ReferenceHost} (hgo : ∀ a, Heeds (go a)) :
    Heeds (h.expect payload go) := by
  cases payload with
  | error f => exact heeds_fail h f.trouble
  | ok a => exact hgo a

theorem heeds_afterLoad (h : ReferenceHost) (l : Loaded)
    {go : ReferenceHost → List Message × ReferenceHost} (hgo : ∀ h, (go h).1 ≠ []) :
    Heeds (h.afterLoad l go) := by
  unfold afterLoad
  cases l.crash with
  | some text => exact .inr ⟨_, rfl⟩
  | none =>
    left
    intro hnil
    exact hgo _ (List.append_eq_nil_iff.mp hnil).2

theorem reportResults_ne_nil (size : Nat) (elapsed : Clock.TimeSpan)
    (results sent waiting : List TestResult) :
    reportResults size elapsed sent waiting results ≠ [] := by
  induction results generalizing sent waiting with
  | nil => simp [reportResults]
  | cons r results ih =>
    rw [reportResults]
    split
    · simp
    · apply ih

theorem run_ne_nil (h : ReferenceHost) (tests : List ScriptedTest) (context : ExecutionContext) :
    (h.run w tests context).1 ≠ [] := by
  unfold run
  split
  · simp
  · apply reportResults_ne_nil

theorem heeds_answer (h : ReferenceHost) (r : StartRequest) : Heeds (h.answer w r) := by
  cases r with
  | discovery c =>
    apply heeds_afterLoad
    intro h
    simp [reportDiscovery]
  | execution c =>
    cases c with
    | sources c =>
      apply heeds_afterLoad
      intro h
      apply run_ne_nil
    | tests c =>
      apply heeds_afterLoad
      intro h
      apply run_ne_nil

theorem heeds_serve (h : ReferenceHost) {m : Message}
    (hkind : m.kind ∉ [.discoveryInitialize, .executionInitialize, .cancelRun, .abortRun]) :
    Heeds (h.serve w m) := by
  obtain ⟨kind, payload⟩ := m
  cases kind with
  | startDiscovery => exact heeds_expect h _ fun c => heeds_answer h (.discovery c)
  | startRunWithSources => exact heeds_expect h _ fun c => heeds_answer h (.execution (.sources c))
  | startRunWithTests => exact heeds_expect h _ fun c => heeds_answer h (.execution (.tests c))
  | sessionEnd => exact .inr (ended_finish h .closed)
  | discoveryInitialize => simp at hkind
  | executionInitialize => simp at hkind
  | cancelRun => simp at hkind
  | abortRun => simp at hkind
  | _ => exact heeds_fail h _

theorem not_heeds_of_discards (hopen : ¬h.Ended) {a : Arrival} (hdiscards : h.Discards w a) :
    ¬Heeds (h.receive w a) := by
  have hsame : h.receive w a = ([], h) := hdiscards h.extensions h.nextId
  rw [hsame]
  rintro (hsaid | hended)
  · exact hsaid rfl
  · exact hopen hended

theorem setup_not_discarded (hserving : h.phase = .serving) {text : String} {m : Message}
    (hm : Message.parse text = .ok m)
    (hkind : m.kind = .discoveryInitialize ∨ m.kind = .executionInitialize) :
    ¬h.Discards w (.text text) := by
  intro hdiscards
  have hserve (extensions : List String) :
      ({ h with extensions } : ReferenceHost).expect
        (m.bind : Except Message.Fault (Option (List String)))
        (fun paths => ([], { h with extensions := paths.getD [] })) =
        ([], { h with extensions }) := by
    have hreceive : ({ h with extensions } : ReferenceHost).receive w (.text text) =
        ({ h with extensions } : ReferenceHost).serve w m :=
      receive_message (h := { h with extensions }) hserving hm
    rw [← hdiscards extensions h.nextId, hreceive]
    rcases hkind with hkind | hkind <;> simp only [serve, hkind]
  cases hbind : (m.bind : Except Message.Fault (Option (List String))) with
  | error f =>
    have hfailed := congrArg (·.2.phase) (hserve h.extensions)
    simp [hbind, expect, fail, finish, hserving] at hfailed
  | ok paths =>
    have hset := congrArg (·.2.extensions) (hserve ("" :: paths.getD []))
    simp [hbind, expect] at hset

theorem discarded_serving (hserving : h.phase = .serving) {text : String}
    (hdiscards : h.Discards w (.text text)) : HasKind text .cancelRun ∨ HasKind text .abortRun := by
  have hopen : ¬h.Ended := by
    rintro ⟨e, he⟩
    cases hserving.symm.trans he
  have hunheeded := not_heeds_of_discards hopen hdiscards
  cases hm : Message.parse text with
  | error f =>
    have hfail : h.receive w (.text text) =
        h.fail (f.trouble.within "decode message from runner") := by
      simp [receive, hserving, hm]
    exact absurd (heeds_fail h _) (hfail ▸ hunheeded)
  | ok m =>
    rw [receive_message hserving hm] at hunheeded
    by_cases hkind : m.kind ∈ [.discoveryInitialize, .executionInitialize, .cancelRun, .abortRun]
    · simp only [List.mem_cons, List.not_mem_nil, or_false] at hkind
      rcases hkind with hkind | hkind | hkind | hkind
      · exact absurd hdiscards (setup_not_discarded hserving hm (.inl hkind))
      · exact absurd hdiscards (setup_not_discarded hserving hm (.inr hkind))
      · exact .inl ⟨m, hm, hkind⟩
      · exact .inr ⟨m, hm, hkind⟩
    · exact absurd (heeds_serve h hkind) hunheeded

theorem launched_not_discarded (hattaching : h.Attaching) {text : String}
    (hkind : HasKind text .launchedUnderDebugger) : ¬h.Discards w (.text text) := by
  intro hdiscards
  obtain ⟨tests, context, hphase⟩ := hattaching
  obtain ⟨m, hm, hkind⟩ := hkind
  have hopen : ¬h.Ended := by
    rintro ⟨e, he⟩
    cases hphase.symm.trans he
  apply not_heeds_of_discards hopen hdiscards
  simp only [receive, hphase, hm, attach, hkind, if_true]
  exact heeds_expect h _ fun process => heeds_said

theorem receive_attaching {tests : List ScriptedTest} {context : ExecutionContext}
    (hphase : h.phase = .attaching tests context) {text : String} {kind : Message.Kind}
    (hkind : HasKind text kind) (hother : kind ≠ .launchedUnderDebugger) :
    h.receive w (.text text) = ([], h) := by
  obtain ⟨m, hm, rfl⟩ := hkind
  simp [receive, hphase, hm, attach, hother]

/-- The end of the session, once the host serves it, ends the host: it is silent from then on. Until
the host ends, a message comes to nothing only if it cancels or aborts a run, or if the host waits to
run under a debugger and is not told that there is one. -/
theorem session_end_serves_no_more (h : ReferenceHost) (before after : List Arrival)
    (text : String) :
    let met := (h.receiveAll w before).2
    (met.phase = .serving → HasKind text .sessionEnd →
      h.receiveAll w (before ++ .text text :: after) =
        ((h.receiveAll w before).1 ++ List.replicate (after.length + 1) [], met.finish .closed)) ∧
    (¬met.Ended → met.Discards w (.text text) →
      met.phase = .serving ∧ (HasKind text .cancelRun ∨ HasKind text .abortRun) ∨
        met.Attaching ∧ ¬HasKind text .launchedUnderDebugger) := by
  intro met
  constructor
  · rintro hserving ⟨m, hm, hkind⟩
    have hend : met.receive w (.text text) = ([], met.finish .closed) := by
      rw [receive_message hserving hm]
      simp [serve, hkind]
    rw [receiveAll_append]
    change (_ ++ (met.receiveAll w _).1, (met.receiveAll w _).2) = _
    simp [receiveAll, hend, receiveAll_ended (ended_finish met .closed), List.replicate_succ]
  · intro hopen hdiscards
    cases hphase : met.phase with
    | ended e => exact absurd ⟨e, hphase⟩ hopen
    | serving => exact .inl ⟨rfl, discarded_serving hphase hdiscards⟩
    | attaching tests context =>
      have hattaching : met.Attaching := ⟨tests, context, hphase⟩
      exact .inr ⟨hattaching, fun hkind => launched_not_discarded hattaching hkind hdiscards⟩

theorem session_end_serves_no_more_fresh :
    let w : Surroundings := ⟨fun _ => .ok "a", Uuid.numbered, fun _ => .epoch, "testhost"⟩
    let cancel : String := (Message.signal .cancelRun).text
    let stop : Arrival := .text (Message.signal .sessionEnd).text
    let find : Arrival := .text (StartRequest.discovery (.ofSources ["s"])).message.text
    fresh.Discards w (.text cancel) ∧ HasKind cancel .cancelRun ∧
      fresh.receiveAll w [.text cancel, stop, find] = ([[], [], []], fresh.finish .closed) := by
  intro w cancel stop find
  have hcancel (h : ReferenceHost) (hserving : h.phase = .serving) :
      h.receive w (.text cancel) = ([], h) := by
    obtain ⟨m, hm, hkind⟩ := Message.hasKind_signal .cancelRun
    rw [receive_message hserving hm, serve, hkind]
  have hdiscards : fresh.Discards w (.text cancel) := fun extensions nextId => hcancel _ rfl
  have hopen : ¬(fresh.receiveAll w []).2.Ended := by
    rintro ⟨e, he⟩
    cases he
  have hmet : fresh.receiveAll w [.text cancel] = ([[]], fresh) := by
    simp [receiveAll, hcancel fresh rfl]
  have hserving : (fresh.receiveAll w [.text cancel]).2.phase = .serving := by
    rw [hmet]
    rfl
  have hkind := (session_end_serves_no_more (w := w) fresh [] [] cancel).2 hopen hdiscards
  have hend := (session_end_serves_no_more fresh [.text cancel] [find] _).1 hserving
    (Message.hasKind_signal .sessionEnd)
  refine ⟨hdiscards, ?_, ?_⟩
  · rcases hkind with ⟨-, hkind | hkind⟩ | ⟨⟨tests, context, hattaching⟩, -⟩
    · exact hkind
    · cases Message.hasKind_unique hkind (Message.hasKind_signal .cancelRun)
    · cases hattaching
  · rw [hmet] at hend
    exact hend

theorem receive_debug {context : ExecutionContext} (hdebug : context.isDebug = true) :
    let run : RunCriteria := .sources ⟨Dictionary.empty, "", context⟩
    fresh.receive w (.text (StartRequest.execution run).message.text) =
      ([.carrying .launchUnderDebugger w.debuggee],
        { fresh with phase := .attaching [] context }) := by
  intro run
  rw [receive_start rfl]
  change fresh.afterLoad (load w 0 []) (fun h => h.run w [] context) = _
  simp [load, afterLoad, ReferenceHost.run, hdebug, fresh]

theorem receive_find_nothing (hserving : h.phase = .serving) :
    h.receive w (.text (StartRequest.discovery (.ofSources [])).message.text) =
      ([.carrying .discoveryComplete (⟨0, none, false⟩ : DiscoveryCompletion)], h) := by
  rw [receive_start hserving]
  rfl

/-- While it waits for the debugger, the host ignores the end of the session and a request: then it
runs, and serves the next request. -/
theorem attaching_ignores_session_end :
    let w : Surroundings := ⟨fun _ => .ok "", Uuid.numbered, fun _ => .epoch, "testhost"⟩
    let context : ExecutionContext := { ExecutionContext.default with isDebug := true }
    let debug : RunCriteria := .sources ⟨Dictionary.empty, "", context⟩
    let start : Arrival := .text (StartRequest.execution debug).message.text
    let stop : Arrival := .text (Message.signal .sessionEnd).text
    let find : Arrival := .text (StartRequest.discovery (.ofSources [])).message.text
    let process : Int32 := 7
    let attached : Arrival := .text (Message.carrying .launchedUnderDebugger process).text
    fresh.receiveAll w [start, stop, find, attached, find] =
      ([[.carrying .launchUnderDebugger w.debuggee], [], [],
        [remark .informational s!"debugger attached to process {process}", completion .zero [] []],
        [.carrying .discoveryComplete (⟨0, none, false⟩ : DiscoveryCompletion)]],
        { fresh with nextReading := 2 }) := by
  intro w context debug start stop find process attached
  let attaching : ReferenceHost := { fresh with phase := .attaching [] context }
  let ran : ReferenceHost := { fresh with nextReading := 2 }
  have hstart : fresh.receive w start =
      ([.carrying .launchUnderDebugger w.debuggee], attaching) := receive_debug rfl
  have hstop : attaching.receive w stop = ([], attaching) :=
    receive_attaching rfl (Message.hasKind_signal .sessionEnd) (by decide)
  have hignored : attaching.receive w find = ([], attaching) :=
    receive_attaching rfl (StartRequest.hasKind_message (.discovery (.ofSources []))) (by decide)
  have hattached : attaching.receive w attached =
      ([remark .informational s!"debugger attached to process {process}", completion .zero [] []],
        ran) := by
    have hno : Clock.TimeSpan.zero.since .zero = .zero := by decide +kernel
    have helapsed : { attaching with phase := .serving }.elapsed w [] = .zero := hno
    rw [receive_launched (w := w) (h := attaching) rfl process, reportRun, helapsed]
    rfl
  have hfind : ran.receive w find =
      ([.carrying .discoveryComplete (⟨0, none, false⟩ : DiscoveryCompletion)], ran) :=
    receive_find_nothing rfl
  rw [receiveAll_cons hstart, receiveAll_cons hstop, receiveAll_cons hignored,
    receiveAll_cons hattached, receiveAll_cons hfind, receiveAll]

end ReferenceHost

end HostedTests
