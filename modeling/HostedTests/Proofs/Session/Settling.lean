import HostedTests.Proofs.Host.Reporting
import HostedTests.Proofs.Session.Crashing
import HostedTests.Proofs.Session.Listening

namespace HostedTests

namespace OperationKind

def exitCause (stderr : String) : String :=
  if Text.allBlank stderr then lossCause (some .peerClosed) else stderr

def lossBlock (k : OperationKind) (stderr : String) : List Notice :=
  if Text.allBlank stderr then k.abortBlock (lossCause (some .peerClosed)) else k.exitBlock stderr

theorem lossBlock_eq_crashBlock (k : OperationKind) (stderr : String) :
    k.lossBlock stderr = k.crashBlock (some stderr) (some .peerClosed) := by
  cases hblank : Text.allBlank stderr with
  | false => rw [lossBlock, hblank, if_neg Bool.false_ne_true, crashBlock_exited _ _ hblank]
  | true =>
    have hnothing : ∀ text, some stderr = some text → Text.allBlank text = true := by
      rintro _ ⟨⟩
      exact hblank
    rw [lossBlock, hblank, if_pos rfl, crashBlock_lost _ _ _ hnothing]

end OperationKind

namespace Session

variable {observer : Observer} {o p : Nat} {k : OperationKind} {heard : List (String × Notice)}

theorem told_lost {s : Session} (h : s.Listens observer o p k heard)
    (hopen : (heard.map Prod.snd).any Notice.isCompletion = false)
    (htells : s.server.tells = true) (hwait : s.exitWait ≠ 0) (stderr : String) :
    (s.after [.beginDisconnect (some .peerClosed), .hostExited (some stderr),
      .endDisconnect 0]).told p = echoed heard ++ k.lossBlock stderr := by
  let op : Operation := ⟨⟨k, false⟩, p⟩
  have hregistered : s.operations[o]? = some op := by
    rw [h.registered, hopen]
  have hexposed : s.Exposed o op :=
    ⟨⟨hregistered, rfl, h.bare⟩, h.current, h.held, htells, hwait⟩
  have hcrashed := crashed_of_lost_first hexposed (some stderr) (some .peerClosed)
    (onlyEnds_quiet s.waits.length)
  rw [h.waits] at hcrashed
  have htold := congrArg (told · p) hcrashed
  rw [told_crashed, h.told, ← OperationKind.lossBlock_eq_crashBlock] at htold
  exact htold

theorem told_closed (s : Session) (p : Nat) :
    (s.step .quiet [] .closeManager).2.told p = s.told p := by
  simp only [step]
  split
  · rfl
  · exact (mute_closeManager s).told p

end Session

namespace Conversation

variable {observer : Observer} {o p : Nat} {k : OperationKind}

theorem listens_accept {c : Conversation} {heard : List (String × Notice)}
    (h : c.session.Listens observer o p k heard)
    (hopen : (heard.map Prod.snd).any Notice.isCompletion = false) {most : Nat}
    {i : String × Notice} (hmeans : k.Means i.1 i.2) (hlaunch : i.2.kind ≠ .launchUnderDebugger)
    (hfits : i.1.utf8ByteSize ≤ most) :
    ∃ operations record,
      c.accept most i.1 = { c with session := { c.session with operations, record } } ∧
      (c.accept most i.1).session.Listens observer o p k (heard ++ [i]) := by
  obtain ⟨hreplies, hcopes⟩ := observer.replies_of_launchless hlaunch
  obtain ⟨hlistens, hsent, operations, record, hframe⟩ :=
    Session.listens_receive h hopen hmeans hcopes
  have haccept : c.accept most i.1 = c.act (.receive i.1) := by
    rw [accept]
    exact if_neg (Nat.not_lt.mpr hfits)
  refine ⟨operations, record, ?_, ?_⟩
  · rw [haccept, act]
    dsimp only
    rw [hsent, hreplies, List.append_nil, hframe]
  · rw [haccept]
    exact hlistens

theorem listens_foldl {c : Conversation} {heard items : List (String × Notice)} {b : Bool}
    (h : c.session.Listens observer o p k heard)
    (hconcludes : Concludes b ((heard ++ items).map Prod.snd)) {most : Nat}
    (hmeans : ∀ i ∈ items, k.Means i.1 i.2)
    (hlaunch : ∀ i ∈ items, i.2.kind ≠ .launchUnderDebugger)
    (hfits : ∀ i ∈ items, i.1.utf8ByteSize ≤ most) :
    ∃ operations record,
      (items.map Prod.fst).foldl (accept most) c =
        { c with session := { c.session with operations, record } } ∧
      ((items.map Prod.fst).foldl (accept most) c).session.Listens observer o p k
        (heard ++ items) := by
  induction items generalizing c heard with
  | nil =>
    rw [List.append_nil]
    exact ⟨_, _, rfl, h⟩
  | cons i items ih =>
    obtain ⟨hi, hmeans⟩ := List.forall_mem_cons.mp hmeans
    obtain ⟨hli, hlaunch⟩ := List.forall_mem_cons.mp hlaunch
    obtain ⟨hfi, hfits⟩ := List.forall_mem_cons.mp hfits
    have hopen : (heard.map Prod.snd).any Notice.isCompletion = false := by
      rw [List.map_append, List.map_cons] at hconcludes
      exact hconcludes.ongoing_before
    have hassoc : heard ++ [i] ++ items = heard ++ i :: items := by
      rw [List.append_assoc, List.singleton_append]
    obtain ⟨_, _, hframe, hlistens⟩ := listens_accept h hopen hi hli hfi
    rw [← hassoc] at hconcludes ⊢
    obtain ⟨operations, record, hrest, hheard⟩ := ih hlistens hconcludes hmeans hlaunch hfits
    refine ⟨operations, record, ?_, hheard⟩
    rw [List.map_cons, List.foldl_cons, hrest, hframe]

theorem settle_reports {w : Surroundings} {c : Conversation} {sent : List (List Message)}
    {host : ReferenceHost} {items : List (String × Notice)} {b : Bool}
    (h : c.session.Listens observer o p k []) (hasked : c.toHost.isEmpty = false)
    (hquiet : c.toRunner = [])
    (hreceive : c.host.receiveAll w (c.toHost.map .text) = (sent, host))
    (hreports : Reports k b sent.flatten items) {most : Nat}
    (hfits : ∀ m ∈ sent.flatten, m.text.utf8ByteSize ≤ most) (rounds : Nat) :
    ∃ operations record,
      c.settle w most (rounds + 1) =
        ⟨{ c.session with operations, record }, host, [], []⟩ ∧
      (c.settle w most (rounds + 1)).session.Listens observer o p k items := by
  have hturn : c.hostTurn w = ⟨c.session, host, [], items.map Prod.fst⟩ := by
    rw [hostTurn, hreceive]
    dsimp only
    rw [hquiet, List.nil_append, hreports.texts]
  have hsizes : ∀ i ∈ items, i.1.utf8ByteSize ≤ most := by
    intro i hi
    have htext : i.1 ∈ sent.flatten.map Message.text := by
      rw [hreports.texts]
      exact List.mem_map_of_mem hi
    obtain ⟨m, hm, hmi⟩ := List.mem_map.mp htext
    rw [← hmi]
    exact hfits m hm
  obtain ⟨operations, record, hframe, hlistens⟩ :=
    listens_foldl (c := ⟨c.session, host, [], []⟩) h hreports.concludes hreports.means
      hreports.launchless hsizes
  -- Nothing was sent in reply, so the other rounds have nothing to deliver.
  have hrest (rounds : Nat) (s : Session) : settle w most rounds ⟨s, host, [], []⟩ =
      ⟨s, host, [], []⟩ := by
    cases rounds <;> rfl
  have hsettle : c.settle w most (rounds + 1) =
      (items.map Prod.fst).foldl (accept most) ⟨c.session, host, [], []⟩ := by
    rw [settle, hasked, if_neg Bool.false_ne_true, hturn, runnerTurn]
    dsimp only
    rw [hframe]
    exact hrest rounds _
  rw [hsettle]
  exact ⟨operations, record, hframe, hlistens⟩

theorem lose_ended {c : Conversation} {e : HostEnd} (h : c.host.phase = .ended e) (limit : Nat) :
    let report := (⟨.code e.code, Text.Utf8.encode e.stderr.toList⟩ : Exit).report limit
    (c.lose limit).session = c.session.after [.beginDisconnect (some .peerClosed),
      .hostExited (some report.stderr), .endDisconnect 0] := by
  rw [lose, h]
  rfl

theorem lose_serving {c : Conversation} (h : c.host.phase = .serving) (limit : Nat) :
    c.lose limit = c := by
  rw [lose, h]

end Conversation

end HostedTests
