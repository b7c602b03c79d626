import HostedTests.Proofs.Message.Exchanged
import HostedTests.Proofs.Session.Telling

namespace HostedTests

def Message.notice {α : Type} [Payload α] (m : Message) (f : α → Except Trouble Notice) :
    Except Trouble Notice :=
  match (m.require : Except Message.Fault α) with
  | .error e => .error e.trouble
  | .ok a => f a

namespace OperationKind

def hearMessage (k : OperationKind) (m : Message) : Except Trouble Notice :=
  match k with
  | discovery =>
    match m.kind with
    | .testCasesFound => m.notice fun tests : List TestCase => .ok (.discovered tests)
    | .discoveryComplete => m.notice fun c : DiscoveryCompletion => .ok (.discoveryComplete c)
    | .remark => m.notice fun r : Remark => .ok (.log r.severity r.text)
    | other => .error (.of s!"unexpected message {other.wire} during test discovery")
  | execution =>
    match m.kind with
    | .runStatsChange => m.notice fun c : RunChange => .ok (.runChanged c)
    | .executionComplete => m.notice fun c : RunCompletion =>
      match c.report? with
      | none => .error (.of "execution complete message carries no completion arguments")
      | some report => .ok (.runComplete report)
    | .remark => m.notice fun r : Remark => .ok (.log r.severity r.text)
    | .launchUnderDebugger => m.notice fun i : StartInfo => .ok (.launchUnderDebugger i)
    | other => .error (.of s!"unexpected message {other.wire} during test run")

def hear (k : OperationKind) (text : String) : Except Trouble Notice :=
  match Message.parse text with
  | .error f => .error (f.trouble.within "decode message envelope")
  | .ok m => k.hearMessage m

/-- The text is a message that the operation takes, and the notice has the values it carries. -/
inductive Means : OperationKind → String → Notice → Prop where
  | discovered (text : String) (tests : List TestCase) :
    Message.Carries text .testCasesFound tests → Means .discovery text (.discovered tests)
  | discoveryComplete (text : String) (c : DiscoveryCompletion) :
    Message.Carries text .discoveryComplete c → Means .discovery text (.discoveryComplete c)
  | runChanged (text : String) (c : RunChange) :
    Message.Carries text .runStatsChange c → Means .execution text (.runChanged c)
  | runComplete (text : String) (c : RunCompletion) (e : RunEnd) :
    Message.Carries text .executionComplete c → c.runEnd = some e →
    Means .execution text (.runComplete ⟨e, c.lastChange, c.attachments, c.executorUris⟩)
  | launchUnderDebugger (text : String) (i : StartInfo) :
    Message.Carries text .launchUnderDebugger i → Means .execution text (.launchUnderDebugger i)
  | remark (k : OperationKind) (text : String) (r : Remark) :
    Message.Carries text .remark r → Means k text (.log r.severity r.text)

theorem carries_of_notice {α : Type} [Payload α] {text : String} {m : Message}
    {kind : Message.Kind} {f : α → Except Trouble Notice} {n : Notice}
    (hm : Message.parse text = .ok m) (hk : m.kind = kind) (h : m.notice f = .ok n) :
    ∃ a : α, Message.Carries text kind a ∧ f a = .ok n := by
  rw [Message.notice] at h
  split at h
  · cases h
  · rename_i a ha
    exact ⟨a, ⟨m, hm, hk, ha⟩, h⟩

theorem means_of_hear (k : OperationKind) (text : String) (n : Notice) (h : k.hear text = .ok n) :
    k.Means text n := by
  unfold hear at h
  split at h
  · cases h
  rename_i m hm
  -- The cases are the kinds of messages that the operation takes, and last those it does not.
  cases k
  · dsimp only [hearMessage] at h
    split at h
    · rename_i hk
      obtain ⟨tests, hc, hn⟩ := carries_of_notice hm hk h
      cases hn
      apply Means.discovered
      exact hc
    · rename_i hk
      obtain ⟨c, hc, hn⟩ := carries_of_notice hm hk h
      cases hn
      apply Means.discoveryComplete
      exact hc
    · rename_i hk
      obtain ⟨r, hc, hn⟩ := carries_of_notice hm hk h
      cases hn
      apply Means.remark
      exact hc
    · cases h
  · dsimp only [hearMessage] at h
    split at h
    · rename_i hk
      obtain ⟨c, hc, hn⟩ := carries_of_notice hm hk h
      cases hn
      apply Means.runChanged
      exact hc
    · rename_i hk
      obtain ⟨c, hc, hn⟩ := carries_of_notice hm hk h
      cases he : c.runEnd with
      | none =>
        simp only [RunCompletion.report?, he, Option.map_none] at hn
        cases hn
      | some e =>
        simp only [RunCompletion.report?, he, Option.map_some] at hn
        cases hn
        apply Means.runComplete
        · exact hc
        · exact he
    · rename_i hk
      obtain ⟨r, hc, hn⟩ := carries_of_notice hm hk h
      cases hn
      apply Means.remark
      exact hc
    · rename_i hk
      obtain ⟨i, hc, hn⟩ := carries_of_notice hm hk h
      cases hn
      apply Means.launchUnderDebugger
      exact hc
    · cases h

theorem hear_of_means (k : OperationKind) (text : String) (n : Notice) (h : k.Means text n) :
    k.hear text = .ok n := by
  cases h with
  | discovered _ tests h =>
    obtain ⟨m, hm, hk, hr⟩ := h
    simp only [hear, hearMessage, hm, hk, Message.notice, hr]
  | discoveryComplete _ c h =>
    obtain ⟨m, hm, hk, hr⟩ := h
    simp only [hear, hearMessage, hm, hk, Message.notice, hr]
  | runChanged _ c h =>
    obtain ⟨m, hm, hk, hr⟩ := h
    simp only [hear, hearMessage, hm, hk, Message.notice, hr]
  | runComplete _ c e h he =>
    obtain ⟨m, hm, hk, hr⟩ := h
    simp only [hear, hearMessage, hm, hk, Message.notice, hr, RunCompletion.report?, he,
      Option.map_some]
  | launchUnderDebugger _ i h =>
    obtain ⟨m, hm, hk, hr⟩ := h
    simp only [hear, hearMessage, hm, hk, Message.notice, hr]
  | remark _ _ r h =>
    obtain ⟨m, hm, hk, hr⟩ := h
    cases k <;> simp only [hear, hearMessage, hm, hk, Message.notice, hr]

theorem hear_eq_ok_iff (k : OperationKind) (text : String) (n : Notice) :
    k.hear text = .ok n ↔ k.Means text n := by
  constructor
  · apply means_of_hear
  · apply hear_of_means

end OperationKind

end HostedTests
