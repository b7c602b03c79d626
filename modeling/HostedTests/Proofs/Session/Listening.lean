import HostedTests.Proofs.Session.Progress
import HostedTests.Session.Conversation

namespace HostedTests

def echoed (items : List (String × Notice)) : List Notice :=
  items.flatMap fun i => [.raw i.1, i.2]

namespace Observer

def replies (observer : Observer) : Notice → List String
  | .launchUnderDebugger info =>
    match observer.debugger info with
    | .ok process => [(Message.carrying .launchedUnderDebugger process).text]
    | .error _ => []
  | _ => []

def repliesTo (observer : Observer) (items : List (String × Notice)) : List String :=
  items.flatMap fun i => observer.replies i.2

def Copes (observer : Observer) (n : Notice) : Prop :=
  ∀ info, n = .launchUnderDebugger info → ∃ process, observer.debugger info = .ok process

theorem replies_of_launchless {n : Notice} (observer : Observer)
    (h : n.kind ≠ .launchUnderDebugger) : observer.replies n = [] ∧ observer.Copes n := by
  cases n
  case launchUnderDebugger info => exact absurd rfl h
  all_goals exact ⟨rfl, fun _ h => Notice.noConfusion h⟩

theorem repliesTo_launchless (observer : Observer) {items : List (String × Notice)}
    (h : ∀ i ∈ items, i.2.kind ≠ .launchUnderDebugger) : observer.repliesTo items = [] := by
  rw [repliesTo, List.flatMap_eq_nil_iff]
  intro i hi
  exact (observer.replies_of_launchless (h i hi)).1

end Observer

namespace Session

structure Listens (s : Session) (observer : Observer) (o p : Nat) (k : OperationKind)
    (heard : List (String × Notice)) : Prop where
  registered : s.operations[o]? =
    some ⟨⟨k, (heard.map Prod.snd).any Notice.isCompletion⟩, p⟩
  current : s.current = some o
  bare : s.collection? p = none
  observed : (s.parties[p]?).map Party.observer = some observer
  subscribed : s.lines[s.front]?.bind (·.subscriber) = some o
  held : s.abandoned = false
  channel : s.channel = some s.front
  sends : s.lines[s.front]?.bind (·.refusal) = none
  waits : s.waits = []
  told : s.told p = echoed heard

theorem listens_register {s : Session} {observer : Observer} {p : Nat} {hooks : List Hook}
    (k : OperationKind) (text : String) (hparty : s.parties[p]? = some ⟨observer, hooks, none⟩)
    (hunheard : s.told p = []) (hchannel : s.channel = some s.front)
    (hfront : s.front < s.lines.length) (hsends : s.lines[s.front]?.bind (·.refusal) = none)
    (hheld : s.abandoned = false) (hwaits : s.waits = []) :
    ((s.register s.front ⟨.fresh k, p⟩).note (.sent s.front text)).Listens observer
      s.operations.length p k [] where
  registered := List.getElem?_concat_length
  current := rfl
  bare := congrArg (Option.bind · Party.collection) hparty
  observed := congrArg (Option.map Party.observer) hparty
  subscribed := by
    change ((s.lines.modify s.front _)[s.front]?).bind _ = _
    rw [List.getElem?_modify_eq, List.getElem?_eq_getElem hfront]
    rfl
  held := hheld
  channel := hchannel
  sends := (refusal_subscribe _ _ _ _).trans hsends
  waits := hwaits
  told := (told_note_sent _ _ _ p).trans hunheard

theorem reply_of_copes {s : Session} {observer : Observer} {o p : Nat} {k : OperationKind}
    {heard : List (String × Notice)} (h : s.Listens observer o p k heard) {info : StartInfo}
    {process : Int32} (hdebugger : observer.debugger info = .ok process) :
    s.reply p info = .ok (s.front, (Message.carrying .launchedUnderDebugger process).text) := by
  have hanswer : (s.parties[p]?.map fun q => q.observer.debugger info) = some (.ok process) := by
    have hobserver := congrArg (Option.map fun q : Observer => q.debugger info) h.observed
    rw [Option.map_map, Option.map_some, hdebugger] at hobserver
    exact hobserver
  simp only [reply, hanswer, Option.getD_some, h.channel, h.sends]

theorem hearing_of_means {s : Session} {observer : Observer} {o p : Nat} {k : OperationKind}
    {heard : List (String × Notice)} (h : s.Listens observer o p k heard) {text : String}
    {n : Notice} (hmeans : k.Means text n) (hcopes : observer.Copes n) {op : Operation}
    (hkind : op.state.kind = k) (hparty : op.party = p) :
    s.hearingBlock op text = [.raw text, n] ∧
      s.hearingReply op text = (observer.replies n).map (.sent s.front) := by
  have hhear : op.state.kind.hear text = .ok n := by
    rw [hkind]
    exact (k.hear_eq_ok_iff text n).mpr hmeans
  constructor
  · unfold hearingBlock
    rw [hhear]
    cases n
    case launchUnderDebugger info =>
      obtain ⟨process, hprocess⟩ := hcopes info rfl
      simp only [hparty, reply_of_copes h hprocess]
    all_goals rfl
  · unfold hearingReply
    rw [hhear]
    cases n
    case launchUnderDebugger info =>
      obtain ⟨process, hprocess⟩ := hcopes info rfl
      simp only [hparty, reply_of_copes h hprocess, Observer.replies, hprocess, List.map_cons,
        List.map_nil]
    all_goals rfl

theorem listens_receive {s : Session} {observer : Observer} {o p : Nat} {k : OperationKind}
    {heard : List (String × Notice)} (h : s.Listens observer o p k heard)
    (hopen : (heard.map Prod.snd).any Notice.isCompletion = false) {text : String} {n : Notice}
    (hmeans : k.Means text n) (hcopes : observer.Copes n) :
    let t := (s.step .quiet [] (.receive text)).2
    t.Listens observer o p k (heard ++ [(text, n)]) ∧
      Conversation.sentAfter s.record.length t = observer.replies n ∧
      ∃ operations record, t = { s with operations, record } := by
  intro t
  let op : Operation := ⟨⟨k, false⟩, p⟩
  have hregistered : s.operations[o]? = some op := by
    rw [h.registered, hopen]
  have hears : s.Hears o op := ⟨hregistered, rfl, h.bare⟩
  have ht : t = s.accept .quiet o text := by
    change (s.receive .quiet s.front text).2 = _
    unfold receive
    rw [h.subscribed, h.held]
    rfl
  obtain ⟨hblock, hreply⟩ :=
    hearing_of_means h hmeans hcopes (show op.state.kind = k from rfl) rfl
  have haccept := accept_open s o op text hears
  rw [← ht, hblock, hreply] at haccept
  have hrecord : t.record = s.record ++ ([Notice.raw text, n].map (.told p) ++
      (observer.replies n).map (.sent s.front)) := by
    rw [haccept, ← List.append_assoc]
  have hlt : o < s.operations.length := (List.getElem?_eq_some_iff.mp hregistered).1
  rw [Conversation.sentAfter, hrecord, List.drop_left]
  refine ⟨?_, ?_, ?_⟩
  · have htold : t.told p = echoed (heard ++ [(text, n)]) := by
      have hsent : ((observer.replies n).map (Incident.sent s.front)).filterMap
          (Incident.noticeFor? p) = [] := by
        rw [List.filterMap_map, List.filterMap_eq_nil_iff]
        exact fun _ _ => rfl
      rw [told_append hrecord, List.filterMap_append, filterMap_told_self, hsent,
        List.append_nil, h.told, echoed, echoed, List.flatMap_append]
      rfl
    have hoperation : t.operations[o]? =
        some ⟨⟨k, ((heard ++ [(text, n)]).map Prod.snd).any Notice.isCompletion⟩, p⟩ := by
      rw [haccept]
      change (s.operations.set o (op.after [.raw text, n]))[o]? = _
      rw [List.getElem?_set_self hlt, List.map_append, List.any_append, hopen]
      rfl
    rw [haccept] at htold hoperation ⊢
    exact ⟨hoperation, h.current, h.bare, h.observed, h.subscribed, h.held, h.channel, h.sends,
      h.waits, htold⟩
  · have hsent (f : Incident → Option String) (hf : ∀ text, f (.sent s.front text) = some text)
        (texts : List String) : (texts.map (Incident.sent s.front)).filterMap f = texts := by
      have hcomp : f ∘ Incident.sent s.front = some := funext hf
      rw [List.filterMap_map, hcomp, List.filterMap_some]
    exact hsent _ (fun _ => rfl) (observer.replies n)
  · exact ⟨_, _, haccept⟩

theorem listens_after {s : Session} {observer : Observer} {o p : Nat} {k : OperationKind}
    {heard items : List (String × Notice)} {b : Bool} (h : s.Listens observer o p k heard)
    (hconcludes : Concludes b ((heard ++ items).map Prod.snd))
    (hmeans : ∀ i ∈ items, k.Means i.1 i.2) (hcopes : ∀ i ∈ items, observer.Copes i.2) :
    (s.after (items.map fun i => .receive i.1)).Listens observer o p k (heard ++ items) := by
  induction items generalizing s heard with
  | nil =>
    rw [List.append_nil]
    exact h
  | cons i items ih =>
    obtain ⟨hi, hmeans⟩ := List.forall_mem_cons.mp hmeans
    obtain ⟨hci, hcopes⟩ := List.forall_mem_cons.mp hcopes
    have hopen : (heard.map Prod.snd).any Notice.isCompletion = false := by
      rw [List.map_append, List.map_cons] at hconcludes
      exact hconcludes.ongoing_before
    have hassoc : heard ++ [i] ++ items = heard ++ i :: items := by
      rw [List.append_assoc, List.singleton_append]
    obtain ⟨hnext, -⟩ := listens_receive h hopen hi hci
    rw [← hassoc] at hconcludes ⊢
    exact ih hnext hconcludes hmeans hcopes

end Session

end HostedTests
