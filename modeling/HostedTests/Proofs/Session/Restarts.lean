import HostedTests.Proofs.Session.Turns
import Mathlib.Data.List.Induction

namespace HostedTests.Listener

structure Orderly (l : Listener) : Prop where
  last : ∀ i, l.held = some i → i + 1 = l.turns.length
  past : ∀ (i : ℕ) (t : Turn), l.turns[i]? = some t → l.held ≠ some i → t.finished = true
  stopped : ∀ t ∈ l.turns, t.stopped = true → t.finished = true

def UnderWay (l : Listener) : Prop :=
  ∃ t, l.turns.getLast? = some t ∧ t.stopped = false ∧ t.finished = false

theorem isOpen_eq_true_iff (l : Listener) :
    l.isOpen = true ↔ ∃ i t, l.held = some i ∧ l.turns[i]? = some t ∧ t.finished = false := by
  constructor
  · intro h
    obtain ⟨t, ht, hnot⟩ := (Option.any_eq_true _ _).mp h
    obtain ⟨i, hi, hti⟩ := Option.bind_eq_some_iff.mp ht
    rw [Bool.not_eq_true'] at hnot
    exact ⟨i, t, hi, hti, hnot⟩
  · rintro ⟨i, t, hi, ht, hnot⟩
    rw [isOpen, hi, Option.bind_some, ht, Option.any_some, hnot]
    rfl

theorem Orderly.isOpen_iff {l : Listener} (h : l.Orderly) : l.isOpen = true ↔ l.UnderWay := by
  rw [isOpen_eq_true_iff]
  constructor
  · rintro ⟨i, t, hi, ht, hnot⟩
    refine ⟨t, ?_, ?_, hnot⟩
    · rw [List.getLast?_eq_getElem?, ← h.last i hi]
      exact ht
    · by_contra hstopped
      rw [h.stopped t (List.mem_of_getElem? ht) (eq_true_of_ne_false hstopped)] at hnot
      cases hnot
  · rintro ⟨t, ht, -, hnot⟩
    rw [List.getLast?_eq_getElem?] at ht
    refine ⟨l.turns.length - 1, t, ?_, ht, hnot⟩
    by_contra hheld
    rw [h.past _ t ht hheld] at hnot
    cases hnot

theorem finished_of_held {l : Listener} (hshut : l.isOpen = false) {i : ℕ} {t : Turn}
    (hheld : l.held = some i) (ht : l.turns[i]? = some t) : t.finished = true := by
  by_contra hnot
  have hopen := (isOpen_eq_true_iff l).mpr ⟨i, t, hheld, ht, eq_false_of_ne_true hnot⟩
  rw [hshut] at hopen
  cases hopen

theorem Orderly.all_over {l : Listener} (h : l.Orderly) (hshut : l.isOpen = false) :
    ∀ t ∈ l.turns, t.finished = true := by
  intro t ht
  obtain ⟨i, hi⟩ := List.getElem?_of_mem ht
  by_cases hheld : l.held = some i
  · exact finished_of_held hshut hheld hi
  · exact h.past i t hi hheld

theorem start_of_isOpen {l : Listener} (h : l.isOpen = true) (subscribes : Bool)
    (refusal : Option String) : l.start subscribes refusal = (.error .alreadyListening, l) :=
  if_pos h

theorem start_of_not_isOpen {l : Listener} (h : l.isOpen = false) (subscribes : Bool) :
    l.start subscribes none =
      (.ok (), { l with turns := l.turns ++ [.fresh subscribes], held := some l.turns.length }) :=
  if_neg (ne_true_of_eq_false h)

theorem start_refused {l : Listener} (h : l.isOpen = false) (subscribes : Bool) (system : String) :
    l.start subscribes (some system) = (.error (.listen system), l) :=
  if_neg (ne_true_of_eq_false h)

inductive Steps (l : Listener) (e : Event) : Listener → Prop where
  | met : e ≠ .stop →
    Steps l e { l with turns := l.turns.map fun t : Turn => t.meet l.mostOctets e }
  | opened (subscribes : Bool) : e = .start subscribes none → l.isOpen = false →
    Steps l e { l with turns := l.turns ++ [.fresh subscribes], held := some l.turns.length }
  | unheld : e = .stop → l.held = none → Steps l e l
  | stopped (i : ℕ) : e = .stop → l.held = some i →
    Steps l e { l with turns := l.turns.modify i Turn.shutdown, held := none }

theorem steps (l : Listener) (e : Event) : Steps l e (l.step e).2 := by
  cases e
  case start subscribes refusal =>
    have hsame : Steps l (.start subscribes refusal) l := by
      have hmet := Steps.met (l := l) (e := .start subscribes refusal) nofun
      rwa [show (l.turns.map fun t => t.meet l.mostOctets (.start subscribes refusal)) = l.turns
        from List.map_id _] at hmet
    change Steps l _ (l.start subscribes refusal).2
    cases hopen : l.isOpen with
    | true =>
      rw [start_of_isOpen hopen]
      exact hsame
    | false =>
      cases refusal with
      | none =>
        rw [start_of_not_isOpen hopen]
        exact .opened subscribes rfl hopen
      | some system =>
        rw [start_refused hopen]
        exact hsame
  case stop =>
    change Steps l .stop l.stop
    unfold stop
    cases hheld : l.held with
    | none => exact .unheld rfl hheld
    | some i => exact .stopped i rfl hheld
  all_goals exact .met nofun

theorem turn_of_opened {ts : List Turn} {opened t : Turn} {i : ℕ}
    (ht : (ts ++ [opened])[i]? = some t) : ts[i]? = some t ∨ i = ts.length ∧ t = opened := by
  rcases Nat.lt_trichotomy i ts.length with hlt | rfl | hgt
  · rw [List.getElem?_append_left hlt] at ht
    exact Or.inl ht
  · rw [List.getElem?_concat_length] at ht
    exact Or.inr ⟨rfl, (Option.some.inj ht).symm⟩
  · have hlength := (List.getElem?_eq_some_iff.mp ht).1
    rw [List.length_append, List.length_singleton] at hlength
    omega

theorem orderly_step {l : Listener} (h : l.Orderly) (e : Event) : (l.step e).2.Orderly := by
  have hsteps := steps l e
  generalize (l.step e).2 = l' at hsteps ⊢
  cases hsteps with
  | met _ =>
    refine ⟨fun i hi => ?_, fun i t ht hheld => ?_, fun t ht hstopped => ?_⟩
    · rw [List.length_map]
      exact h.last i hi
    · obtain ⟨u, hu, rfl⟩ := Option.map_eq_some_iff.mp (List.getElem?_map ▸ ht)
      have hover := h.past i u hu hheld
      rw [Turn.finished_meet hover]
      exact hover
    · obtain ⟨u, hu, rfl⟩ := List.mem_map.mp ht
      rw [Turn.stopped_meet] at hstopped
      have hover := h.stopped u hu hstopped
      rw [Turn.finished_meet hover]
      exact hover
  | opened subscribes _ hshut =>
    have hover := h.all_over hshut
    refine ⟨fun i hi => ?_, fun i t ht hheld => ?_, fun t ht hstopped => ?_⟩
    · cases hi
      rw [List.length_append]
      rfl
    · rcases turn_of_opened ht with hbefore | ⟨rfl, -⟩
      · exact hover t (List.mem_of_getElem? hbefore)
      · exact absurd rfl hheld
    · rcases List.mem_append.mp ht with hmem | hmem
      · exact hover t hmem
      · rw [List.mem_singleton.mp hmem] at hstopped
        cases hstopped
  | unheld _ _ => exact h
  | stopped i _ hheld =>
    have hover (j : ℕ) (t : Turn) (ht : (l.turns.modify i Turn.shutdown)[j]? = some t) :
        t.finished = true := by
      rw [List.getElem?_modify] at ht
      obtain ⟨u, hu, rfl⟩ := Option.map_eq_some_iff.mp ht
      split
      · exact u.shutdown_finished
      · rename_i hne
        exact h.past j u hu fun hj => hne (Option.some.inj (hheld.symm.trans hj))
    refine ⟨nofun, fun j t ht _ => hover j t ht, fun t ht _ => ?_⟩
    obtain ⟨j, hj⟩ := List.getElem?_of_mem ht
    exact hover j t hj

theorem after_concat (l : Listener) (events : List Event) (e : Event) :
    l.after (events ++ [e]) = ((l.after events).step e).2 := List.foldl_concat ..

theorem orderly_fresh (most : ℕ) : (fresh most).Orderly where
  last i hi := by cases hi
  past i t ht := by cases ht
  stopped t ht := by cases ht

theorem orderly_after {l : Listener} (h : l.Orderly) (events : List Event) :
    (l.after events).Orderly := by
  induction events generalizing l with
  | nil => exact h
  | cons e events ih => exact ih (orderly_step h e)

theorem mostOctets_step (l : Listener) (e : Event) :
    (l.step e).2.mostOctets = l.mostOctets := by
  have hsteps := steps l e
  generalize (l.step e).2 = l' at hsteps ⊢
  cases hsteps <;> rfl

theorem mostOctets_after (l : Listener) (events : List Event) :
    (l.after events).mostOctets = l.mostOctets := by
  induction events generalizing l with
  | nil => rfl
  | cons e events ih => exact (ih _).trans (mostOctets_step l e)

theorem react_of_ne_stop {e : Event} (h : e ≠ .stop) (t : Turn) (most : ℕ) :
    t.react most e = t.meet most e := by
  cases e
  case stop => exact absurd rfl h
  all_goals rfl

theorem turn_step {l : Listener} (h : l.Orderly) {e : Event} {i : ℕ} {t : Turn}
    (ht : (l.step e).2.turns[i]? = some t) :
    (∃ u, l.turns[i]? = some u ∧ t.Alike (u.react l.mostOctets e)) ∨
      ∃ subscribes, e = .start subscribes none ∧ l.isOpen = false ∧ i = l.turns.length ∧
        t = .fresh subscribes := by
  have hsteps := steps l e
  generalize (l.step e).2 = l' at hsteps ht
  cases hsteps with
  | met hne =>
    obtain ⟨u, hu, rfl⟩ := Option.map_eq_some_iff.mp (List.getElem?_map ▸ ht)
    exact Or.inl ⟨u, hu, Or.inl (react_of_ne_stop hne u _).symm⟩
  | opened subscribes he hshut =>
    subst he
    rcases turn_of_opened ht with hbefore | ⟨rfl, rfl⟩
    · exact Or.inl ⟨t, hbefore, Or.inl rfl⟩
    · exact Or.inr ⟨subscribes, rfl, hshut, rfl, rfl⟩
  | unheld he hheld =>
    subst he
    have hover := h.past i t ht (by rw [hheld]; exact nofun)
    exact Or.inl ⟨t, ht, Turn.alike_react_finished hover l.mostOctets .stop⟩
  | stopped j he hheld =>
    subst he
    obtain ⟨u, hu, rfl⟩ := Option.map_eq_some_iff.mp (List.getElem?_modify .. ▸ ht)
    refine Or.inl ⟨u, hu, ?_⟩
    split
    · exact Or.inl rfl
    · rename_i hne
      have hover := h.past i u hu fun hi => hne (Option.some.inj (hheld.symm.trans hi))
      exact Turn.alike_react_finished hover l.mostOctets .stop

theorem turn_after (most : ℕ) (events : List Event) (i : ℕ) (t : Turn)
    (ht : ((fresh most).after events).turns[i]? = some t) :
    ∃ earlier subscribes since, events = earlier ++ .start subscribes none :: since ∧
      ((fresh most).after earlier).isOpen = false ∧
      ((fresh most).after earlier).turns.length = i ∧
      t.Alike ((Turn.fresh subscribes).after most since) := by
  induction events using List.reverseRecOn generalizing t with
  | nil => cases ht
  | append_singleton events e ih =>
    rw [after_concat] at ht
    rcases turn_step (orderly_after (orderly_fresh most) events) ht with
      ⟨u, hu, halike⟩ | ⟨subscribes, rfl, hshut, rfl, rfl⟩
    · obtain ⟨earlier, subscribes, since, rfl, hshut, hlength, hafter⟩ := ih u hu
      refine ⟨earlier, subscribes, since ++ [e], ?_, hshut, hlength, ?_⟩
      · rw [List.append_assoc, List.cons_append]
      · rw [mostOctets_after] at halike
        rw [Turn.after, List.foldl_concat]
        exact halike.trans (hafter.react most e)
    · exact ⟨events, subscribes, [], rfl, hshut, rfl, Or.inl rfl⟩

structure Alike (l m : Listener) : Prop where
  mostOctets : l.mostOctets = m.mostOctets
  turns : List.Forall₂ Turn.Alike l.turns m.turns
  held : l.held = m.held ∨ l.isOpen = false ∧ m.isOpen = false

theorem turn_of_alike {ts us : List Turn} (h : List.Forall₂ Turn.Alike ts us) {i : ℕ} {t : Turn}
    (ht : ts[i]? = some t) : ∃ u, us[i]? = some u ∧ t.Alike u := by
  induction h generalizing i with
  | nil => cases ht
  | @cons t' u ts us halike _ ih =>
    cases i with
    | zero =>
      cases ht
      exact ⟨u, rfl, halike⟩
    | succ i => exact ih ht

theorem modify_alike {ts us : List Turn} (h : List.Forall₂ Turn.Alike ts us) (i : ℕ)
    {f g : Turn → Turn} (hfg : ∀ t u, ts[i]? = some t → t.Alike u → (f t).Alike (g u)) :
    List.Forall₂ Turn.Alike (ts.modify i f) (us.modify i g) := by
  induction h generalizing i with
  | nil =>
    rw [List.modify_nil, List.modify_nil]
    exact .nil
  | cons halike hrest ih =>
    cases i with
    | zero => exact .cons (hfg _ _ rfl halike) hrest
    | succ i => exact .cons halike (ih i hfg)

theorem reports_of_alike {ts us : List Turn} (h : List.Forall₂ Turn.Alike ts us) :
    ts.map Turn.reports = us.map Turn.reports := by
  induction h with
  | nil => rfl
  | cons halike _ ih => rw [List.map_cons, List.map_cons, halike.reports, ih]

theorem alike_self (ts : List Turn) : List.Forall₂ Turn.Alike ts ts :=
  List.forall₂_same.mpr fun _ _ => Or.inl rfl

theorem alike_symm {ts us : List Turn} (h : List.Forall₂ Turn.Alike ts us) :
    List.Forall₂ Turn.Alike us ts := (h.imp fun _ _ halike => halike.symm).flip

theorem alike_trans {ts us vs : List Turn} (h : List.Forall₂ Turn.Alike ts us)
    (k : List.Forall₂ Turn.Alike us vs) : List.Forall₂ Turn.Alike ts vs := by
  induction h generalizing vs with
  | nil => exact k
  | cons halike _ ih =>
    cases k with
    | cons halike' hrest => exact .cons (halike.trans halike') (ih hrest)

theorem Alike.symm {l m : Listener} (h : l.Alike m) : m.Alike l where
  mostOctets := h.mostOctets.symm
  turns := alike_symm h.turns
  held := h.held.imp Eq.symm And.symm

theorem Alike.opens {l m : Listener} (h : l.Alike m) (hopen : l.isOpen = true) :
    m.isOpen = true := by
  rcases h.held with hheld | ⟨hshut, -⟩
  · obtain ⟨i, t, hi, ht, hnot⟩ := (isOpen_eq_true_iff l).mp hopen
    obtain ⟨u, hu, halike⟩ := turn_of_alike h.turns ht
    exact (isOpen_eq_true_iff m).mpr
      ⟨i, u, hheld.symm.trans hi, hu, halike.finished.symm.trans hnot⟩
  · rw [hshut] at hopen
    cases hopen

theorem Alike.isOpen {l m : Listener} (h : l.Alike m) : l.isOpen = m.isOpen := by
  rw [Bool.eq_iff_iff]
  exact ⟨h.opens, h.symm.opens⟩

theorem held_stop (l : Listener) : l.stop.held = none := by
  unfold stop
  split
  · assumption
  · rfl

theorem turns_stop {l : Listener} (hshut : l.isOpen = false) :
    List.Forall₂ Turn.Alike l.turns l.stop.turns := by
  unfold stop
  cases hheld : l.held with
  | none => exact alike_self l.turns
  | some i =>
    have hmodified := modify_alike (alike_self l.turns) i (f := id) (g := Turn.shutdown)
    rw [List.modify_id] at hmodified
    refine hmodified fun t u ht halike => ?_
    have hover := finished_of_held hshut hheld ht
    exact (Turn.alike_react_finished hover l.mostOctets .stop).trans
      (halike.react l.mostOctets .stop)

theorem Alike.stop {l m : Listener} (h : l.Alike m) : l.stop.Alike m.stop where
  mostOctets := (mostOctets_step l .stop).trans
    (h.mostOctets.trans (mostOctets_step m .stop).symm)
  held := Or.inl ((held_stop l).trans (held_stop m).symm)
  turns := by
    rcases h.held with hheld | ⟨hl, hm⟩
    · unfold Listener.stop
      rw [hheld]
      cases m.held with
      | none => exact h.turns
      | some i =>
        exact modify_alike h.turns i fun _ _ _ halike => halike.react l.mostOctets .stop
    · exact alike_trans (alike_trans (alike_symm (turns_stop hl)) h.turns) (turns_stop hm)

theorem isOpen_met {l : Listener} (hshut : l.isOpen = false) (e : Event) :
    { l with turns := l.turns.map fun t : Turn => t.meet l.mostOctets e }.isOpen = false := by
  by_contra hopen
  obtain ⟨i, t, hi, ht, hnot⟩ := (isOpen_eq_true_iff _).mp (eq_true_of_ne_false hopen)
  obtain ⟨u, hu, rfl⟩ := Option.map_eq_some_iff.mp (List.getElem?_map ▸ ht)
  have hover := finished_of_held hshut hi hu
  rw [Turn.finished_meet hover, hover] at hnot
  cases hnot

theorem Alike.met {l m : Listener} (h : l.Alike m) {e : Event} (he : e ≠ .stop) :
    { l with turns := l.turns.map fun t : Turn => t.meet l.mostOctets e }.Alike
      { m with turns := m.turns.map fun t : Turn => t.meet m.mostOctets e } where
  mostOctets := h.mostOctets
  held := h.held.imp_right fun hshut => ⟨isOpen_met hshut.1 e, isOpen_met hshut.2 e⟩
  turns := by
    rw [h.mostOctets]
    refine List.rel_map (fun t u halike => ?_) h.turns
    have hreact := halike.react m.mostOctets e
    rwa [react_of_ne_stop he, react_of_ne_stop he] at hreact

theorem Alike.step {l m : Listener} (h : l.Alike m) (e : Event) :
    (l.step e).1 = (m.step e).1 ∧ (l.step e).2.Alike (m.step e).2 := by
  cases e
  case start subscribes refusal =>
    change (l.start subscribes refusal).1 = (m.start subscribes refusal).1 ∧
      (l.start subscribes refusal).2.Alike (m.start subscribes refusal).2
    cases hopen : l.isOpen with
    | true =>
      rw [start_of_isOpen hopen, start_of_isOpen (h.isOpen ▸ hopen)]
      exact ⟨rfl, h⟩
    | false =>
      have hshut : m.isOpen = false := h.isOpen ▸ hopen
      cases refusal with
      | some system =>
        rw [start_refused hopen, start_refused hshut]
        exact ⟨rfl, h⟩
      | none =>
        rw [start_of_not_isOpen hopen, start_of_not_isOpen hshut]
        refine ⟨rfl, h.mostOctets, ?_, Or.inl (congrArg some h.turns.length_eq)⟩
        exact List.rel_append h.turns (alike_self [_])
  case stop => exact ⟨rfl, h.stop⟩
  all_goals exact ⟨rfl, h.met Event.noConfusion⟩

theorem Alike.after {l m : Listener} (h : l.Alike m) (events : List Event) :
    (l.after events).Alike (m.after events) := by
  induction events generalizing l m with
  | nil => exact h
  | cons e events ih => exact ih (h.step e).2

theorem alike_stop {l : Listener} (hshut : l.isOpen = false) : l.stop.Alike l where
  mostOctets := mostOctets_step l .stop
  turns := alike_symm (turns_stop hshut)
  held := by
    refine Or.inr ⟨?_, hshut⟩
    rw [Listener.isOpen, held_stop]
    rfl

theorem turns_tell_their_stories (most : ℕ) (events : List Event) :
    let l := (fresh most).after events
    (∀ subscribes refusal,
        (l.step (.start subscribes refusal)).1 = .error .alreadyListening ↔ l.UnderWay) ∧
      (¬l.UnderWay → ∀ subscribes, l.step (.start subscribes none) =
        (.ok (),
          { l with turns := l.turns ++ [.fresh subscribes], held := some l.turns.length })) ∧
      (∀ i t, l.turns[i]? = some t → ∃ earlier subscribes since,
        events = earlier ++ .start subscribes none :: since ∧
          ¬((fresh most).after earlier).UnderWay ∧
          ((fresh most).after earlier).turns.length = i ∧
          (t.reports, t.finished) = story most subscribes since ∧
          t.reports.count .connected ≤ 1) ∧
      (¬l.UnderWay → ∀ more e,
        ((l.stop.after more).step e).1 = ((l.after more).step e).1 ∧
          (l.stop.after more).turns.map Turn.reports = (l.after more).turns.map Turn.reports) := by
  intro l
  have h (ss : List Event) : ((fresh most).after ss).Orderly :=
    orderly_after (orderly_fresh most) ss
  have hshut (hnot : ¬l.UnderWay) : l.isOpen = false :=
    eq_false_of_ne_true fun hopen => hnot ((h events).isOpen_iff.mp hopen)
  refine ⟨fun subscribes refusal => ?_, fun hnot subscribes => ?_, fun i t ht => ?_,
    fun hnot more e => ?_⟩
  · rw [← (h events).isOpen_iff]
    change (l.start subscribes refusal).1 = _ ↔ l.isOpen = true
    cases hopen : l.isOpen with
    | true => exact iff_of_true (congrArg Prod.fst (start_of_isOpen hopen subscribes refusal)) rfl
    | false =>
      refine iff_of_false ?_ Bool.false_ne_true
      cases refusal with
      | none =>
        rw [start_of_not_isOpen hopen]
        exact nofun
      | some system =>
        rw [start_refused hopen]
        exact nofun
  · exact start_of_not_isOpen (hshut hnot) subscribes
  · obtain ⟨earlier, subscribes, since, hevents, hbefore, hlength, halike⟩ :=
      turn_after most events i t ht
    have hstory : (t.reports, t.finished) = story most subscribes since := by
      rw [halike.reports, halike.finished]
      exact Turn.story_after subscribes most since
    refine ⟨earlier, subscribes, since, hevents, ?_, hlength, hstory, ?_⟩
    · rw [← (h earlier).isOpen_iff, hbefore]
      exact Bool.false_ne_true
    · rw [show t.reports = _ from congrArg Prod.fst hstory]
      exact Turn.count_connected_story most subscribes since
  · have halike := (alike_stop (hshut hnot)).after more
    exact ⟨(halike.step e).1, reports_of_alike halike.turns⟩

end HostedTests.Listener
