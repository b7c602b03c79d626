import HostedTests.Proofs.Session.Decorated
import HostedTests.Proofs.Session.Echoes

namespace HostedTests

inductive Notice.Ends : Notice → Bool → Prop where
  | raw (text : String) (c : RunCompletion) (e : RunEnd) :
    Message.Carries text .executionComplete c → c.runEnd = some e → Ends (.raw text) e.isCanceled
  | bare (text : String) (c : RunCompletion) :
    Message.Carries text .executionComplete c → c.runEnd = none → Ends (.raw text) false
  | runComplete (r : RunReport) : Ends (.runComplete r) r.runEnd.isCanceled

theorem Notice.ends_of_carries {text : String} {c : RunCompletion}
    (h : Message.Carries text .executionComplete c) : (Notice.raw text).Ends c.isCanceled := by
  rw [RunCompletion.isCanceled]
  cases he : c.runEnd with
  | none => exact .bare text c h he
  | some e => exact .raw text c e h he

theorem Notice.ending?_eq_some_iff (n : Notice) (canceled : Bool) :
    n.ending? = some canceled ↔ n.Ends canceled := by
  constructor
  · intro h
    cases n
    case raw text =>
      obtain ⟨c, hc, rfl⟩ := Option.map_eq_some_iff.mp h
      exact ends_of_carries ((Collection.completion?_eq_some_iff text c).mp hc)
    case runComplete r =>
      cases h
      exact .runComplete r
    all_goals cases h
  · rintro (⟨text, c, e, hc, he⟩ | ⟨text, c, hc, he⟩ | r)
    · rw [ending?, (Collection.completion?_eq_some_iff text c).mpr hc, Option.map_some,
        RunCompletion.isCanceled, he]
      rfl
    · rw [ending?, (Collection.completion?_eq_some_iff text c).mpr hc, Option.map_some,
        RunCompletion.isCanceled, he]
      rfl
    · rfl

theorem Notice.not_ends_of_ending? {n : Notice} (h : n.ending? = none) (canceled : Bool) :
    ¬n.Ends canceled := by
  intro hends
  rw [(n.ending?_eq_some_iff canceled).mpr hends] at h
  cases h

structure Appended (sets : List AttachmentSet) (before after : Option (List AttachmentSet)) :
    Prop where
  together : after.getD [] = before.getD [] ++ sets
  absent : after = none ↔ before = none ∧ sets = []

theorem appended_merge (sets : List AttachmentSet) (before : Option (List AttachmentSet)) :
    Appended sets before (Collection.merge before sets) := by
  cases sets with
  | nil =>
    refine ⟨(List.append_nil _).symm, ?_⟩
    exact (and_iff_left rfl).symm
  | cons set sets =>
    refine ⟨rfl, ?_⟩
    constructor
    · rintro ⟨⟩
    · rintro ⟨-, ⟨⟩⟩

theorem Appended.unique {sets : List AttachmentSet} {before after after' :
    Option (List AttachmentSet)} (h : Appended sets before after)
    (h' : Appended sets before after') : after = after' := by
  cases after with
  | none => exact (h'.absent.mpr (h.absent.mp rfl)).symm
  | some items =>
    cases after' with
    | none => cases h.absent.mpr (h'.absent.mp rfl)
    | some items' => exact congrArg some (h.together.trans h'.together.symm)

namespace Collecting

variable {a : Collecting}

inductive Passes (a : Collecting) : Notice → Notice → Prop where
  | failed (n : Notice) (t : Trouble) : a.outcome = .error t → Passes a n n
  | plain (n : Notice) : (∀ canceled, ¬n.Ends canceled) → Passes a n n
  | raw (text text' : String) (c : RunCompletion) (sets : List AttachmentSet)
    (after : Option (List AttachmentSet)) :
    a.outcome = .ok sets → Message.Carries text .executionComplete c →
    Appended sets c.attachments after →
    Message.Carries text' .executionComplete { c with attachments := after } →
    Passes a (.raw text) (.raw text')
  | runComplete (r : RunReport) (sets : List AttachmentSet)
    (after : Option (List AttachmentSet)) :
    a.outcome = .ok sets → Appended sets r.attachments after →
    Passes a (.runComplete r) (.runComplete { r with attachments := after })

/-- What is told where data is collected, and what the data collector is asked meanwhile. Nothing
changes until the first notice of the completion, before which the data collector is asked. -/
inductive Decorates (a : Collecting) : List Notice → List Notice → List Bool → Prop where
  | nil : Decorates a [] [] []
  | before (n : Notice) (ns ms : List Notice) (calls : List Bool) :
    (∀ canceled, ¬n.Ends canceled) → Decorates a ns ms calls →
    Decorates a (n :: ns) (n :: ms) calls
  | ended (n : Notice) (canceled : Bool) (ns ms : List Notice) :
    n.Ends canceled → List.Forall₂ (Passes a) (n :: ns) ms →
    Decorates a (n :: ns) (a.said ++ ms) [canceled]

theorem carries_attached {text : String} {c : RunCompletion}
    (h : Message.Carries text .executionComplete c) (sets : List AttachmentSet) :
    Message.Carries (Message.carrying .executionComplete (c.attach sets)).text .executionComplete
      (c.attach sets) := by
  have hread := Message.carries_settled Message.settles_runCompletion (by decide)
    .executionComplete (c.attach sets)
  have hsettled : c.truncated = c := Message.settled_of_carries Message.settles_runCompletion h
  have htruncated : (c.attach sets).truncated = c.attach sets :=
    congrArg (RunCompletion.attach · sets) hsettled
  rwa [htruncated] at hread

theorem passes_passed (a : Collecting) (n : Notice) : a.Passes n (a.passed n) := by
  rw [passed, sets?]
  cases houtcome : a.outcome with
  | error t => exact .failed n t houtcome
  | ok sets =>
    have hplain (h : n.ending? = none) : a.Passes n n := .plain n (Notice.not_ends_of_ending? h)
    cases n
    case raw text =>
      cases hc : Collection.completion? text with
      | none =>
        simp only [Notice.attach, hc]
        exact hplain (Option.map_eq_none_iff.mpr hc)
      | some c =>
        have hcarries := (Collection.completion?_eq_some_iff text c).mp hc
        simp only [Notice.attach, hc]
        exact .raw text _ c sets _ houtcome hcarries (appended_merge sets c.attachments)
          (carries_attached hcarries sets)
    case runComplete r => exact .runComplete r sets _ houtcome (appended_merge sets r.attachments)
    all_goals exact hplain rfl

theorem told_asking (a : Collecting) (p : Nat) (canceled : Bool) :
    (a.asking p canceled).filterMap (Incident.noticeFor? p) = a.said := by
  rw [asking, List.filterMap_cons]
  exact Session.filterMap_told_self p a.said

theorem endings_asking (a : Collecting) (p : Nat) (canceled : Bool) :
    (a.asking p canceled).filterMap Incident.ending? = [canceled] := by
  have htold : (a.said.map (Incident.told p)).filterMap Incident.ending? = [] := by
    rw [List.filterMap_map]
    exact List.filterMap_eq_nil_iff.mpr fun _ _ => rfl
  exact congrArg (List.cons canceled) htold

theorem told_record_ended (a : Collecting) (p : Nat) (is : List Incident) :
    (a.record p true is).filterMap (Incident.noticeFor? p) =
      (is.filterMap (Incident.noticeFor? p)).map a.passed := by
  induction is with
  | nil => rfl
  | cons i is ih =>
    rw [record, Bool.true_or, List.filterMap_append, ih]
    cases i
    case told q n =>
      by_cases hq : q = p
      · subst hq
        rw [a.incidents_ended q n, List.filterMap_cons_some (Incident.noticeFor?_self q _),
          List.filterMap_cons_some (Incident.noticeFor?_self q n)]
        rfl
      · rw [a.incidents_other true hq, List.filterMap_cons_none (Incident.noticeFor?_other hq n),
          List.filterMap_cons_none (Incident.noticeFor?_other hq n)]
        rfl
    all_goals rfl

theorem endings_record_ended (a : Collecting) (p : Nat) (is : List Incident) :
    (a.record p true is).filterMap Incident.ending? = is.filterMap Incident.ending? := by
  induction is with
  | nil => rfl
  | cons i is ih =>
    rw [record, Bool.true_or, List.filterMap_append, ih]
    cases i
    case told q n =>
      rw [incidents]
      split <;> rfl
    all_goals rfl

theorem forall₂_passed (a : Collecting) (ns : List Notice) :
    List.Forall₂ a.Passes ns (ns.map a.passed) := by
  induction ns with
  | nil => exact .nil
  | cons n ns ih => exact .cons (a.passes_passed n) ih

theorem decorates_record (a : Collecting) (p : Nat) (is : List Incident)
    (h : is.filterMap Incident.ending? = []) :
    a.Decorates (is.filterMap (Incident.noticeFor? p))
      ((a.record p false is).filterMap (Incident.noticeFor? p))
      ((a.record p false is).filterMap Incident.ending?) := by
  induction is with
  | nil => exact .nil
  | cons i is ih =>
    have hrest : is.filterMap Incident.ending? = [] := by
      rw [List.filterMap_eq_nil_iff] at h ⊢
      exact fun j hj => h j (List.mem_cons_of_mem i hj)
    rw [record, Bool.false_or, List.filterMap_append, List.filterMap_append]
    cases i
    case told q n =>
      by_cases hq : q = p
      · subst hq
        rw [List.filterMap_cons_some (Incident.noticeFor?_self q n)]
        cases hn : n.ending? with
        | none =>
          rw [Incident.ends_self, hn, a.incidents_plain q false hn,
            List.filterMap_cons_some (Incident.noticeFor?_self q n)]
          exact .before n _ _ _ (Notice.not_ends_of_ending? hn) (ih hrest)
        | some canceled =>
          have hended : Incident.ends q (.told q n) = true := by
            rw [Incident.ends_self, hn, Option.isSome_some]
          have hends := (n.ending?_eq_some_iff canceled).mp hn
          have hpassed := forall₂_passed a (n :: is.filterMap (Incident.noticeFor? q))
          rw [hended, a.incidents_first q hn, told_record_ended, endings_record_ended, hrest,
            List.filterMap_append, told_asking, List.filterMap_append, endings_asking,
            List.filterMap_cons_some (Incident.noticeFor?_self q _), List.append_assoc]
          exact .ended n canceled _ _ hends hpassed
      · rw [Incident.ends_other hq, a.incidents_other false hq,
          List.filterMap_cons_none (Incident.noticeFor?_other hq n),
          List.filterMap_cons_none (Incident.noticeFor?_other hq n)]
        exact ih hrest
    case collectorEnded canceled => cases h
    all_goals exact ih hrest

variable {ns ms : List Notice}

theorem exists_passed (h : List.Forall₂ a.Passes ns ms) {n : Notice} (hn : n ∈ ns) :
    ∃ m ∈ ms, a.Passes n m := by
  induction h with
  | nil => cases hn
  | cons hpasses _ ih =>
    rcases List.mem_cons.mp hn with rfl | hn
    · exact ⟨_, List.mem_cons_self, hpasses⟩
    · obtain ⟨m, hm, hpasses⟩ := ih hn
      exact ⟨m, List.mem_cons_of_mem _ hm, hpasses⟩

theorem exists_source (h : List.Forall₂ a.Passes ns ms) {m : Notice} (hm : m ∈ ms) :
    ∃ n ∈ ns, a.Passes n m := by
  induction h with
  | nil => cases hm
  | cons hpasses _ ih =>
    rcases List.mem_cons.mp hm with rfl | hm
    · exact ⟨_, List.mem_cons_self, hpasses⟩
    · obtain ⟨n, hn, hpasses⟩ := ih hm
      exact ⟨n, List.mem_cons_of_mem _ hn, hpasses⟩

namespace Decorates

variable {calls : List Bool}

theorem length_le (h : Decorates a ns ms calls) : calls.length ≤ 1 := by
  induction h with
  | nil => exact Nat.zero_le 1
  | before n ns ms calls _ _ ih => exact ih
  | ended n canceled ns ms _ _ => exact Nat.le_refl 1

theorem length_eq (h : Decorates a ns ms calls) {n : Notice} (hn : n ∈ ns) {canceled : Bool}
    (hends : n.Ends canceled) : calls.length = 1 := by
  induction h with
  | nil => cases hn
  | before m ns ms calls hm _ ih =>
    rcases List.mem_cons.mp hn with rfl | hn
    · exact absurd hends (hm canceled)
    · exact ih hn
  | ended m _ ns ms _ _ => rfl

theorem passes (h : Decorates a ns ms calls) {n : Notice} (hn : n ∈ ns) :
    ∃ m ∈ ms, a.Passes n m := by
  induction h with
  | nil => cases hn
  | before m ns ms calls hm _ ih =>
    rcases List.mem_cons.mp hn with rfl | hn
    · exact ⟨n, List.mem_cons_self, .plain n hm⟩
    · obtain ⟨m', hm', hpasses⟩ := ih hn
      exact ⟨m', List.mem_cons_of_mem m hm', hpasses⟩
  | ended m canceled ns ms _ hpasses =>
    obtain ⟨m', hm', h⟩ := exists_passed hpasses hn
    exact ⟨m', List.mem_append_right _ hm', h⟩

theorem source (h : Decorates a ns ms calls) {m : Notice} (hm : m ∈ ms) :
    m ∈ a.said ∨ ∃ n ∈ ns, a.Passes n m := by
  induction h with
  | nil => cases hm
  | before n ns ms calls hn _ ih =>
    rcases List.mem_cons.mp hm with rfl | hm
    · exact Or.inr ⟨m, List.mem_cons_self, .plain m hn⟩
    · rcases ih hm with hsaid | ⟨n', hn', hpasses⟩
      · exact Or.inl hsaid
      · exact Or.inr ⟨n', List.mem_cons_of_mem n hn', hpasses⟩
  | ended n canceled ns ms _ hpasses =>
    rcases List.mem_append.mp hm with hm | hm
    · exact Or.inl hm
    · exact Or.inr (exists_source hpasses hm)

end Decorates

theorem raw_not_mem_said (h : ∀ text, Utterance.raw text ∉ a.utterances) (text : String) :
    .raw text ∉ a.said := by
  intro hraw
  rcases List.mem_append.mp hraw with hraw | hraw
  · obtain ⟨u, hu, heq⟩ := List.mem_map.mp hraw
    cases u with
    | log severity words => cases heq
    | raw words => exact h words hu
  · split at hraw
    · cases hraw
    · cases List.mem_singleton.mp hraw

theorem echoed_decorated {calls : List Bool} (h : Decorates a ns ms calls) (hechoed : Echoed ns)
    (hlogs : ∀ text, Utterance.raw text ∉ a.utterances) {text : String} {c : RunCompletion}
    {r : RunReport} (hraw : .raw text ∈ ms) (hc : Message.Carries text .executionComplete c)
    (hr : c.report? = some r) : .runComplete r ∈ ms := by
  rcases h.source hraw with hsaid | ⟨n, hn, hpasses⟩
  · exact absurd hsaid (raw_not_mem_said hlogs text)
  · cases hpasses with
    | failed _ t houtcome =>
      have htyped := hechoed.told text c r hn hc hr
      obtain ⟨m, hm, hpasses⟩ := h.passes htyped
      cases hpasses with
      | runComplete _ sets after hok =>
        rw [houtcome] at hok
        cases hok
      | _ => exact hm
    | plain _ hends => exact absurd (Notice.ends_of_carries hc) (hends _)
    | raw text₀ _ c₀ sets after houtcome hc₀ hafter hc' =>
      obtain rfl : c = { c₀ with attachments := after } := Message.carries_unique hc hc'
      obtain ⟨e, he, rfl⟩ := Option.map_eq_some_iff.mp hr
      let r₀ : RunReport := ⟨e, c₀.lastChange, c₀.attachments, c₀.executorUris⟩
      have hr₀ : c₀.report? = some r₀ := Option.map_eq_some_iff.mpr ⟨e, he, rfl⟩
      have htyped := hechoed.told text₀ c₀ r₀ hn hc₀ hr₀
      obtain ⟨m, hm, hpasses⟩ := h.passes htyped
      cases hpasses with
      | failed _ t herror =>
        rw [houtcome] at herror
        cases herror
      | plain _ hends => exact absurd (.runComplete r₀) (hends _)
      | runComplete _ sets' after' hok hafter' =>
        rw [houtcome] at hok
        cases hok
        obtain rfl : after = after' := hafter.unique hafter'
        exact hm

end Collecting

end HostedTests
