import HostedTests.Proofs.Session.Confinement
import HostedTests.Proofs.Session.Mute
import HostedTests.Proofs.Session.Starting

/-!
What a step does to the operations and to what their observers were told: it leaves both alone, or
it informs the observer of one operation, or it registers one more. Each operation has an observer
of its own, before which there is no collection of data.
-/

namespace HostedTests.Session

structure WellKept (s : Session) : Prop where
  manager : s.manager = none
  running : s.running = 0
  enrolled : ∀ (o : Nat) (op : Operation), s.operations[o]? = some op → op.party < s.parties.length
  bare : ∀ (o : Nat) (op : Operation), s.operations[o]? = some op → s.collection? op.party = none
  distinct : ∀ (o : Nat) (op : Operation) (o' : Nat) (op' : Operation),
    s.operations[o]? = some op → s.operations[o']? = some op' → op.party = op'.party → o = o'
  collects : ∀ p, s.collected = some p → s.collection? p ≠ none
  unheard : ∀ p, s.parties.length ≤ p → s.told p = []

structure Aside (s t : Session) : Prop where
  manager : t.manager = s.manager
  running : t.running = s.running
  operations : t.operations = s.operations
  parties : s.parties.length ≤ t.parties.length
  bare : ∀ p, p < s.parties.length → s.collection? p = none → t.collection? p = none
  collects : ∀ p, t.collected = some p → s.collected = some p ∨ t.collection? p ≠ none
  collecting : ∀ p, s.collection? p ≠ none → t.collection? p ≠ none
  told : ∀ p, s.collection? p = none → t.told p = s.told p

theorem aside_of_eq {s t : Session} (hmanager : t.manager = s.manager)
    (hrunning : t.running = s.running) (hoperations : t.operations = s.operations)
    (hparties : t.parties = s.parties) (hcollected : t.collected = s.collected)
    (htold : ∀ p, t.told p = s.told p) : s.Aside t := by
  have hcollection : ∀ p, t.collection? p = s.collection? p := by
    intro p
    rw [collection?, collection?, hparties]
  refine ⟨hmanager, hrunning, hoperations, by rw [hparties], ?_, ?_, ?_, fun p _ => htold p⟩
  · intro p _ hp
    rw [hcollection, hp]
  · intro p hp
    exact Or.inl (hcollected ▸ hp)
  · intro p hp
    rwa [hcollection]

theorem aside_self (s : Session) : s.Aside s := aside_of_eq rfl rfl rfl rfl rfl fun _ => rfl

theorem aside_of_mute {s t : Session} (h : s.Mute t) : s.Aside t :=
  aside_of_eq h.manager h.running h.operations h.parties h.collected h.told

theorem aside_welcome (s : Session) (observer : Observer) (hooks : List Hook) (collects : Bool) :
    s.Aside (s.welcome observer hooks collects) where
  manager := rfl
  running := rfl
  operations := rfl
  parties := by
    rw [welcome, enroll, List.length_append]
    exact Nat.le_add_right _ _
  bare := by
    intro p hp hbare
    rw [collection?, welcome, enroll, List.getElem?_append_left hp]
    exact hbare
  collects := fun _ hp => Or.inl hp
  collecting := by
    intro p hp
    have hlt : p < s.parties.length := by
      by_contra hge
      rw [collection?, List.getElem?_eq_none (Nat.le_of_not_lt hge)] at hp
      exact hp rfl
    rw [collection?, welcome, enroll, List.getElem?_append_left hlt]
    exact hp
  told := fun _ _ => rfl

theorem aside_of_confined {s t : Session} {p : Nat} (h : Confined p s t)
    (hp : s.collection? p ≠ none) : s.Aside t := by
  have hne : ∀ q, s.collection? q = none → q ≠ p := by
    intro q hq heq
    exact hp (heq ▸ hq)
  refine ⟨?_, ?_, ?_, ?_, ?_, ?_, ?_, ?_⟩
  · rw [h.frame]
  · rw [h.frame]
  · rw [h.frame]
  · rw [h.parties]
  · intro q _ hq
    rw [h.others q (hne q hq), hq]
  · intro q hq
    rw [h.frame] at hq
    exact Or.inl hq
  · intro q hq
    by_cases heq : q = p
    · subst heq
      exact h.collects hq
    · rwa [h.others q heq]
  · intro q hq
    exact h.told q (hne q hq)

theorem wellKept_aside {s t : Session} (k : s.WellKept) (h : s.Aside t) : t.WellKept where
  manager := h.manager.trans k.manager
  running := h.running.trans k.running
  enrolled := by
    intro o op hop
    rw [h.operations] at hop
    exact lt_of_lt_of_le (k.enrolled o op hop) h.parties
  bare := by
    intro o op hop
    rw [h.operations] at hop
    exact h.bare _ (k.enrolled o op hop) (k.bare o op hop)
  distinct := by
    rw [h.operations]
    exact k.distinct
  collects := by
    intro p hp
    rcases h.collects p hp with hp | hp
    · exact h.collecting p (k.collects p hp)
    · exact hp
  unheard := by
    intro p hp
    have hs : s.parties.length ≤ p := Nat.le_trans h.parties hp
    have hnone : s.collection? p = none := by
      rw [collection?, List.getElem?_eq_none hs]
      rfl
    rw [h.told p hnone, k.unheard p hs]

theorem observer_set {s : Session} {o : Nat} {op : Operation} (hop : s.operations[o]? = some op)
    (ns : List Notice) {o' : Nat} {op' : Operation}
    (h : (s.operations.set o (op.after ns))[o']? = some op') :
    ∃ op'', s.operations[o']? = some op'' ∧ op''.party = op'.party := by
  by_cases heq : o = o'
  · subst heq
    obtain ⟨hlt, -⟩ := List.getElem?_eq_some_iff.mp hop
    rw [List.getElem?_set_self hlt] at h
    cases h
    exact ⟨op, hop, rfl⟩
  · rw [List.getElem?_set_ne heq] at h
    exact ⟨op', h, rfl⟩

theorem wellKept_inform {s : Session} (k : s.WellKept) {o : Nat} {op : Operation}
    (hop : s.operations[o]? = some op) (ns : List Notice) : (s.inform o op ns).WellKept where
  manager := k.manager
  running := k.running
  enrolled := by
    intro o' op' h
    obtain ⟨op'', h'', hparty⟩ := observer_set hop ns h
    exact hparty ▸ k.enrolled o' op'' h''
  bare := by
    intro o' op' h
    obtain ⟨op'', h'', hparty⟩ := observer_set hop ns h
    exact hparty ▸ k.bare o' op'' h''
  distinct := by
    intro o₁ op₁ o₂ op₂ h₁ h₂ heq
    obtain ⟨op₁', h₁', hparty₁⟩ := observer_set hop ns h₁
    obtain ⟨op₂', h₂', hparty₂⟩ := observer_set hop ns h₂
    exact k.distinct o₁ op₁' o₂ op₂' h₁' h₂' (hparty₁.trans (heq.trans hparty₂.symm))
  collects := k.collects
  unheard := by
    intro p hp
    have hne : op.party ≠ p := ne_of_lt (lt_of_lt_of_le (k.enrolled o op hop) hp)
    rw [told_inform_other s o op ns hne]
    exact k.unheard p hp

theorem wellKept_register {s : Session} (k : s.WellKept) (line : Nat) (op : Operation)
    (hparty : op.party < s.parties.length) (hbare : s.collection? op.party = none)
    (hfresh : ∀ (o : Nat) (op' : Operation),
      s.operations[o]? = some op' → op'.party ≠ op.party) :
    (s.register line op).WellKept := by
  -- Whatever is registered after that was registered before or is the new operation.
  have hcases : ∀ o op', (s.operations ++ [op])[o]? = some op' →
      s.operations[o]? = some op' ∨ (o = s.operations.length ∧ op' = op) := by
    intro o op' h
    rcases Nat.lt_or_ge o s.operations.length with hlt | hge
    · exact Or.inl (by rwa [List.getElem?_append_left hlt] at h)
    · rw [List.getElem?_append_right hge] at h
      obtain ⟨hlt, hget⟩ := List.getElem?_eq_some_iff.mp h
      have hzero : o - s.operations.length = 0 := by
        simpa only [List.length_singleton, Nat.lt_one_iff] using hlt
      refine Or.inr ⟨by omega, ?_⟩
      simp only [hzero, List.getElem_cons_zero] at hget
      exact hget.symm
  refine ⟨k.manager, k.running, ?_, ?_, ?_, k.collects, k.unheard⟩
  · intro o op' h
    rcases hcases o op' h with h | ⟨-, rfl⟩
    · exact k.enrolled o op' h
    · exact hparty
  · intro o op' h
    rcases hcases o op' h with h | ⟨-, rfl⟩
    · exact k.bare o op' h
    · exact hbare
  · intro o₁ op₁ o₂ op₂ h₁ h₂ heq
    rcases hcases o₁ op₁ h₁ with k₁ | ⟨ho₁, rfl⟩
    · rcases hcases o₂ op₂ h₂ with k₂ | ⟨-, rfl⟩
      · exact k.distinct o₁ op₁ o₂ op₂ k₁ k₂ heq
      · exact absurd heq (hfresh o₁ op₁ k₁)
    · rcases hcases o₂ op₂ h₂ with k₂ | ⟨ho₂, -⟩
      · exact absurd heq.symm (hfresh o₂ op₂ k₂)
      · rw [ho₁, ho₂]

theorem wellKept_started {s : Session} (k : s.WellKept) (r : StartRequest) (observer : Observer)
    (line : Nat) : (s.started r observer line).WellKept := by
  have hw : (s.welcome observer [] false).WellKept :=
    wellKept_aside k (aside_welcome s observer [] false)
  apply wellKept_register hw
  · rw [welcome, enroll, List.length_append]
    exact Nat.lt_succ_self _
  · exact collection?_nextParty_welcome s observer
  · intro o op h
    exact ne_of_lt (k.enrolled o op h)

end HostedTests.Session
