import HostedTests.Proofs.Channel.Sending
import HostedTests.Proofs.Channel.Waiting
import Mathlib.Data.List.Induction

namespace HostedTests.Channel

variable {σ : Type}

def Step.reads : Step σ → Bool
  | .receive | .notify => true
  | _ => false

def Step.isSend : Step σ → Bool
  | .send _ => true
  | _ => false

def Step.listener (s : Option σ) : Step σ → Option σ
  | .subscribe t => some t
  | .unsubscribe => none
  | _ => s

def listener (steps : List (Step σ)) : Option σ := steps.foldl Step.listener none

def readings (steps : List (Step σ)) : ℕ := steps.countP Step.reads

inductive Obtains (s : Option σ) (text : String) : Step σ → Result σ → Prop where
  | received : Obtains s text .receive (.text text)
  | handed (t : σ) : s = some t → Obtains s text .notify (.delivered (some (t, text)))
  | dropped : s = none → Obtains s text .notify (.delivered none)

def Step.refused : Step σ → Result σ
  | .send _ | .receive | .notify => .fault .disposed
  | .subscribe _ | .unsubscribe | .dispose => .done

theorem run_cons (c : Channel σ) (s : Step σ) (steps : List (Step σ)) :
    c.run (s :: steps) = ((c.step s).1 :: ((c.step s).2.run steps).1, ((c.step s).2.run steps).2) :=
  rfl

theorem run_append (c : Channel σ) (steps more : List (Step σ)) :
    c.run (steps ++ more) =
      ((c.run steps).1 ++ ((c.run steps).2.run more).1, ((c.run steps).2.run more).2) := by
  induction steps generalizing c with
  | nil => rfl
  | cons s steps ih => rw [List.cons_append, run_cons, ih, run_cons, List.cons_append]

theorem run_concat (c : Channel σ) (steps : List (Step σ)) (s : Step σ) :
    (c.run (steps ++ [s])).2 = ((c.run steps).2.step s).2 := by
  rw [run_append]
  rfl

theorem length_run (c : Channel σ) (steps : List (Step σ)) :
    (c.run steps).1.length = steps.length := by
  induction steps generalizing c with
  | nil => rfl
  | cons s steps ih => rw [run_cons, List.length_cons, List.length_cons, ih]

theorem getElem?_run (c : Channel σ) (before : List (Step σ)) (s : Step σ)
    (after : List (Step σ)) :
    (c.run (before ++ s :: after)).1[before.length]? = some ((c.run before).2.step s).1 := by
  have hlength := c.length_run before
  rw [run_append, List.getElem?_append_right (Nat.le_of_eq hlength), hlength, Nat.sub_self]
  rfl

theorem send_changes (c : Channel σ) (text : String) :
    ∃ sink canSend, (c.send text).2 = { c with sink := sink, canSend := canSend } := by
  rw [send]
  split
  · exact ⟨c.sink, c.canSend, rfl⟩
  · split
    · exact ⟨c.sink, false, rfl⟩
    · split
      · exact ⟨_, c.canSend, rfl⟩
      · exact ⟨_, false, rfl⟩

theorem receive_changes (c : Channel σ) :
    ∃ source, c.receive.2 = { c with source := source } := by
  rw [receive]
  split
  · exact ⟨c.source, rfl⟩
  · dsimp only
    split <;> exact ⟨_, rfl⟩

theorem step_send_state (c : Channel σ) (text : String) :
    (c.step (.send text)).2 = (c.send text).2 := by
  rw [step]
  split <;> rename_i h <;> rw [h]

theorem step_keeps (c : Channel σ) {s : Step σ} (h : s ≠ .dispose) :
    (c.step s).2.disposed = c.disposed ∧ (c.step s).2.mostOctets = c.mostOctets ∧
      (c.step s).2.subscriber = s.listener c.subscriber := by
  cases s with
  | send text =>
    obtain ⟨sink, canSend, hsend⟩ := c.send_changes text
    rw [step_send_state, hsend]
    exact ⟨rfl, rfl, rfl⟩
  | receive =>
    obtain ⟨source, hreceive⟩ := c.receive_changes
    rw [step_receive_state, hreceive]
    exact ⟨rfl, rfl, rfl⟩
  | notify =>
    obtain ⟨source, hreceive⟩ := c.receive_changes
    rw [step_notify_state, hreceive]
    exact ⟨rfl, rfl, rfl⟩
  | subscribe t => exact ⟨rfl, rfl, rfl⟩
  | unsubscribe => exact ⟨rfl, rfl, rfl⟩
  | dispose => exact absurd rfl h

theorem step_source (c : Channel σ) {s : Step σ} (h : s.reads = false) :
    (c.step s).2.source = c.source := by
  cases s with
  | send text =>
    obtain ⟨sink, canSend, hsend⟩ := c.send_changes text
    rw [step_send_state, hsend]
  | receive => cases h
  | notify => cases h
  | subscribe t => rfl
  | unsubscribe => rfl
  | dispose =>
    change c.dispose.source = c.source
    rw [dispose]
    split <;> rfl

def received : Except ChannelFault (Option String) → Except ChannelFault String
  | .ok (some text) => .ok text
  | .ok none => .error .peerClosed
  | .error f => .error f

structure Undisposed (most : ℕ) (steps : List (Step σ)) (c : Channel σ) : Prop where
  inUse : c.disposed = false
  mostOctets : c.mostOctets = most
  subscriber : c.subscriber = listener steps

section Step

variable {most : ℕ} {before : List (Step σ)} {c : Channel σ} {s : Step σ} {t : Frame.Source}

theorem receive_of_parses {r : Except ChannelFault (Option String)}
    (hc : Undisposed most before c) (h : Frame.Parses most c.source r t) :
    c.receive = (received r, { c with source := t }) := by
  rw [receive, hc.inUse, if_neg Bool.false_ne_true, hc.mostOctets, Frame.read_of_parses h]
  obtain _ | _ | text := r <;> rfl

theorem step_of_text {text : String} (hc : Undisposed most before c)
    (h : Frame.Parses most c.source (.ok (some text)) t) (hs : s.reads = true) :
    Obtains (listener before) text s (c.step s).1 ∧ (c.step s).2 = { c with source := t } := by
  have hreceive := receive_of_parses hc h
  cases s with
  | receive =>
    rw [step, hreceive]
    exact ⟨.received, rfl⟩
  | notify =>
    rw [step, notify, hreceive]
    refine ⟨?_, rfl⟩
    rw [← hc.subscriber]
    cases hsubscriber : c.subscriber with
    | none => exact .dropped rfl
    | some t => exact .handed t rfl
  | send text => cases hs
  | subscribe t => cases hs
  | unsubscribe => cases hs
  | dispose => cases hs

theorem step_of_lastRead {fault : Option ChannelFault} (hc : Undisposed most before c)
    (h : Frame.Parses most c.source (Frame.lastRead fault) t) (hs : s.reads = true) :
    (c.step s).1 = .fault (fault.getD .peerClosed) := by
  have hreceive := receive_of_parses hc h
  cases s with
  | receive =>
    rw [step, hreceive]
    cases fault <;> rfl
  | notify =>
    rw [step, notify, hreceive]
    cases fault <;> rfl
  | send text => cases hs
  | subscribe t => cases hs
  | unsubscribe => cases hs
  | dispose => cases hs

end Step

section Reading

variable (source : Frame.Source) (sink : Sink) (most : ℕ)

theorem undisposed_run {steps : List (Step σ)} (h : .dispose ∉ steps) :
    Undisposed most steps ((fresh source sink most).run steps).2 := by
  induction steps using List.reverseRecOn with
  | nil => exact ⟨rfl, rfl, rfl⟩
  | append_singleton steps s ih =>
    have hbefore := ih fun hmem => h (List.mem_append_left [s] hmem)
    have hs : s ≠ .dispose := by
      rintro rfl
      exact h (List.mem_append_right steps List.mem_cons_self)
    obtain ⟨hdisposed, hoctets, hlistener⟩ :=
      ((fresh source sink most).run steps).2.step_keeps hs
    rw [run_concat]
    refine ⟨hdisposed.trans hbefore.inUse, hoctets.trans hbefore.mostOctets, ?_⟩
    rw [hlistener, hbefore.subscriber, listener, listener, List.foldl_concat]

theorem frames_left {s t : Frame.Source} {texts : List String} (h : Frame.ReadsOn most s texts t) :
    (∀ text, (Frame.readAll most s).texts[texts.length]? = some text →
      ∃ u, Frame.Parses most t (.ok (some text)) u) ∧
    (texts.length = (Frame.readAll most s).texts.length →
      ∃ u, Frame.Parses most t (Frame.lastRead (Frame.readAll most s).fault) u) := by
  obtain ⟨htexts, hfault⟩ := Frame.readAll_readsOn h
  obtain ⟨left, u, fault, rest, hleft, hlast, hall⟩ := Frame.readsOn_readAllFrom most [] t
  have hreads : Frame.readAll most t = ⟨left, fault, rest⟩ := hall
  rw [htexts, hfault, hreads]
  constructor
  · intro text htext
    rw [List.getElem?_append_right (Nat.le_refl _), Nat.sub_self] at htext
    cases hleft with
    | nil => cases htext
    | cons hparses _ =>
      cases htext
      exact ⟨_, hparses⟩
  · intro hlength
    rw [List.length_append] at hlength
    cases hleft with
    | nil => exact ⟨rest, hlast⟩
    | cons _ _ =>
      rw [List.length_cons] at hlength
      omega

theorem readsOn_run {steps : List (Step σ)} (h : .dispose ∉ steps)
    (hreadings : readings steps ≤ (Frame.readAll most source).texts.length) :
    ∃ texts, texts.length = readings steps ∧
      Frame.ReadsOn most source texts ((fresh source sink most).run steps).2.source := by
  induction steps using List.reverseRecOn with
  | nil => exact ⟨[], rfl, .nil source⟩
  | append_singleton steps s ih =>
    have hsteps : .dispose ∉ steps := fun hmem => h (List.mem_append_left [s] hmem)
    have hcount : readings (steps ++ [s]) = readings steps + (if s.reads then 1 else 0) := by
      rw [readings, List.countP_append, List.countP_singleton]
      rfl
    obtain ⟨texts, hlength, hreads⟩ := ih hsteps (by omega)
    rw [run_concat]
    by_cases hs : s.reads = true
    · rw [if_pos hs] at hcount
      have hnext : texts.length < (Frame.readAll most source).texts.length := by omega
      obtain ⟨text, htext⟩ : ∃ text, (Frame.readAll most source).texts[texts.length]? = some text :=
        ⟨_, List.getElem?_eq_getElem hnext⟩
      obtain ⟨u, hparses⟩ := (frames_left most hreads).1 text htext
      have hchannel := undisposed_run source sink most hsteps
      have hstep := (step_of_text hchannel hparses hs).2
      refine ⟨texts ++ [text], ?_, ?_⟩
      · rw [List.length_append, hlength, hcount, List.length_singleton]
      · rw [hstep]
        exact hreads.trans (.cons hparses (.nil u))
    · rw [if_neg hs] at hcount
      rw [step_source _ (Bool.eq_false_iff.mpr hs)]
      exact ⟨texts, hlength.trans hcount.symm, hreads⟩

end Reading

def Alike (c d : Channel σ) : Prop :=
  ∃ sink canSend, d = { c with sink := sink, canSend := canSend }

theorem alike_send {c d : Channel σ} (h : Alike c d) (text : String) :
    Alike (c.step (.send text)).2 d := by
  obtain ⟨sink, canSend, rfl⟩ := h
  obtain ⟨_, _, hsend⟩ := c.send_changes text
  rw [step_send_state, hsend]
  exact ⟨sink, canSend, rfl⟩

theorem receive_alike (c : Channel σ) (sink : Sink) (canSend : Bool) :
    { c with sink := sink, canSend := canSend }.receive =
      (c.receive.1, { c.receive.2 with sink := sink, canSend := canSend }) := by
  rw [receive, receive]
  dsimp only
  split
  · rfl
  · split <;> rfl

theorem alike_step {c d : Channel σ} (h : Alike c d) {s : Step σ} (hs : s.isSend = false) :
    (d.step s).1 = (c.step s).1 ∧ Alike (c.step s).2 (d.step s).2 := by
  obtain ⟨sink, canSend, rfl⟩ := h
  cases s with
  | send text => cases hs
  | receive =>
    rw [step, step, receive_alike]
    obtain ⟨_ | text, c⟩ := c.receive <;> exact ⟨rfl, sink, canSend, rfl⟩
  | notify =>
    rw [step, step, notify, notify, receive_alike]
    obtain ⟨_ | text, c⟩ := c.receive <;> exact ⟨rfl, sink, canSend, rfl⟩
  | subscribe t => exact ⟨rfl, sink, canSend, rfl⟩
  | unsubscribe => exact ⟨rfl, sink, canSend, rfl⟩
  | dispose =>
    refine ⟨rfl, ?_⟩
    change Alike c.dispose (dispose { c with sink := sink, canSend := canSend })
    rw [dispose, dispose]
    split
    · exact ⟨sink, canSend, rfl⟩
    · exact ⟨sink, false, rfl⟩

theorem alike_run {c d : Channel σ} (h : Alike c d) (steps : List (Step σ)) :
    (d.run (steps.filter fun s => !s.isSend)).1 =
        ((steps.zip (c.run steps).1).filter fun p => !p.1.isSend).map Prod.snd ∧
      (d.run (steps.filter fun s => !s.isSend)).2.source = (c.run steps).2.source := by
  induction steps generalizing c d with
  | nil =>
    obtain ⟨sink, canSend, rfl⟩ := h
    exact ⟨rfl, rfl⟩
  | cons s steps ih =>
    rw [run_cons, List.zip_cons_cons, List.filter_cons, List.filter_cons]
    cases hs : s.isSend with
    | true =>
      obtain ⟨text, rfl⟩ : ∃ text, s = .send text := by
        cases s with
        | send text => exact ⟨text, rfl⟩
        | _ => cases hs
      exact ih (alike_send h text)
    | false =>
      obtain ⟨hresult, hstep⟩ := alike_step h hs
      obtain ⟨hresults, hsource⟩ := ih hstep
      have hkept : (!false) = true := rfl
      rw [if_pos hkept, if_pos hkept, run_cons, List.map_cons, hresult, hresults]
      exact ⟨rfl, hsource⟩

theorem step_of_disposed {c : Channel σ} (h : c.disposed = true) (s : Step σ) :
    (c.step s).1 = s.refused ∧ (c.step s).2.disposed = true ∧
      (c.step s).2.source = c.source ∧ (c.step s).2.sink = c.sink := by
  have hreceive : c.receive = (.error .disposed, c) := by
    rw [receive, h, if_pos rfl]
  cases s with
  | send text =>
    rw [step, send_of_shut (.inl h)]
    exact ⟨rfl, h, rfl, rfl⟩
  | receive =>
    rw [step, hreceive]
    exact ⟨rfl, h, rfl, rfl⟩
  | notify =>
    rw [step, notify, hreceive]
    exact ⟨rfl, h, rfl, rfl⟩
  | subscribe t => exact ⟨rfl, h, rfl, rfl⟩
  | unsubscribe => exact ⟨rfl, h, rfl, rfl⟩
  | dispose =>
    have hsame : c.dispose = c := if_pos h
    rw [step, hsame]
    exact ⟨rfl, h, rfl, rfl⟩

theorem run_of_disposed {c : Channel σ} (h : c.disposed = true) (steps : List (Step σ)) :
    (c.run steps).1 = steps.map Step.refused ∧ (c.run steps).2.disposed = true ∧
      (c.run steps).2.source = c.source ∧ (c.run steps).2.sink = c.sink := by
  induction steps generalizing c with
  | nil => exact ⟨rfl, h, rfl, rfl⟩
  | cons s steps ih =>
    obtain ⟨hresult, hdisposed, hsource, hsink⟩ := step_of_disposed h s
    obtain ⟨hresults, hstays, hsources, hsinks⟩ := ih hdisposed
    rw [run_cons, List.map_cons, hresult, hresults]
    exact ⟨rfl, hstays, hsources.trans hsource, hsinks.trans hsink⟩

theorem disposed_dispose (c : Channel σ) :
    c.dispose.disposed = true ∧ c.dispose.source = c.source ∧ c.dispose.sink = c.sink := by
  rw [dispose]
  split
  · exact ⟨‹_›, rfl, rfl⟩
  · exact ⟨rfl, rfl, rfl⟩

theorem run_dispose (c : Channel σ) (before after : List (Step σ)) :
    let ran := c.run (before ++ .dispose :: after)
    ran.1 = (c.run before).1 ++ .done :: after.map Step.refused ∧ ran.2.disposed = true ∧
      ran.2.source = (c.run before).2.source ∧ ran.2.sink = (c.run before).2.sink := by
  obtain ⟨hdisposed, hsource, hsink⟩ := (c.run before).2.disposed_dispose
  obtain ⟨hresults, hstays, hsources, hsinks⟩ := run_of_disposed hdisposed after
  have hstep : (c.run before).2.step .dispose = (.done, (c.run before).2.dispose) := rfl
  dsimp only
  rw [run_append, run_cons, hstep, hresults]
  exact ⟨rfl, hstays, hsources.trans hsource, hsinks.trans hsink⟩

theorem delivered_step {most : ℕ} {before : List (Step σ)} {c : Channel σ} {s : Step σ}
    {receipt : Option (σ × String)} (hc : Undisposed most before c)
    (h : (c.step s).1 = .delivered receipt) :
    s = .notify ∧ ∃ text, Frame.Parses most c.source (.ok (some text)) (c.step s).2.source ∧
      receipt = (listener before).map fun t => (t, text) := by
  cases s with
  | send text =>
    rw [step] at h
    split at h <;> cases h
  | receive =>
    rw [step] at h
    split at h <;> cases h
  | notify =>
    obtain ⟨r, t, hparses⟩ := Frame.parses_total most c.source
    have hreceive := receive_of_parses hc hparses
    rw [step, notify, hreceive] at h ⊢
    obtain _ | _ | text := r
    · cases h
    · cases h
    · cases h
      rw [← hc.subscriber]
      exact ⟨rfl, text, hparses, rfl⟩
  | subscribe t => cases h
  | unsubscribe => cases h
  | dispose => cases h

theorem frames_taken_in_turn (source : Frame.Source) (sink : Sink) (most : ℕ)
    (steps : List (Step σ)) :
    let c := fresh source sink most
    let frames := Frame.readAll most source
    (∀ before s after, steps = before ++ s :: after → .dispose ∉ before →
      readings before ≤ frames.texts.length →
        Frame.ReadsOn most source (frames.texts.take (readings before)) (c.run before).2.source ∧
        ∃ r, (c.run steps).1[before.length]? = some r ∧
          (s.reads = true →
            (∀ text, frames.texts[readings before]? = some text →
              Obtains (listener before) text s r) ∧
            (readings before = frames.texts.length →
              r = .fault (frames.fault.getD .peerClosed)))) ∧
    (∀ before s after receipt, steps = before ++ s :: after →
      (c.run steps).1[before.length]? = some (.delivered receipt) →
        s = .notify ∧ .dispose ∉ before ∧
        ∃ text, Frame.Parses most (c.run before).2.source (.ok (some text))
            (c.run (before ++ [s])).2.source ∧
          receipt = (listener before).map fun t => (t, text)) ∧
    (∀ other : Sink,
      let quiet := (fresh source other most).run (steps.filter fun s => !s.isSend)
      quiet.1 = ((steps.zip (c.run steps).1).filter fun p => !p.1.isSend).map Prod.snd ∧
        quiet.2.source = (c.run steps).2.source) ∧
    ∀ before after, steps = before ++ .dispose :: after →
      (c.run steps).1 = (c.run before).1 ++ .done :: after.map Step.refused ∧
        (c.run steps).2.source = (c.run before).2.source ∧
        (c.run steps).2.sink = (c.run before).2.sink := by
  intro c frames
  refine ⟨?_, ?_, ?_, ?_⟩
  · rintro before s after rfl hdispose hreadings
    obtain ⟨texts, hlength, hreads⟩ := readsOn_run source sink most hdispose hreadings
    obtain ⟨htext, hlast⟩ := frames_left most hreads
    have hchannel := undisposed_run source sink most hdispose
    have htexts : texts = frames.texts.take (readings before) := by
      rw [← hlength, (Frame.readAll_readsOn hreads).1, List.take_left]
    rw [hlength] at htext hlast
    rw [← htexts]
    refine ⟨hreads, _, getElem?_run c before s after, fun hs => ⟨?_, ?_⟩⟩
    · intro text hmem
      obtain ⟨t, hparses⟩ := htext text hmem
      exact (step_of_text hchannel hparses hs).1
    · intro hall
      obtain ⟨t, hparses⟩ := hlast hall
      exact step_of_lastRead hchannel hparses hs
  · rintro before s after receipt rfl hresult
    rw [getElem?_run] at hresult
    have hstep := Option.some.inj hresult
    have hdispose : .dispose ∉ before := by
      intro hmem
      obtain ⟨first, rest, rfl⟩ := List.append_of_mem hmem
      have hdisposed := (c.run_dispose first rest).2.1
      rw [(step_of_disposed hdisposed s).1] at hstep
      cases s <;> cases hstep
    rw [run_concat]
    obtain ⟨hs, text, hparses, hreceipt⟩ :=
      delivered_step (undisposed_run source sink most hdispose) hstep
    exact ⟨hs, hdispose, text, hparses, hreceipt⟩
  · intro other
    have halike : Alike c (fresh source other most) := ⟨other, true, rfl⟩
    exact alike_run halike steps
  · rintro before after rfl
    obtain ⟨hresults, -, hsource, hsink⟩ := c.run_dispose before after
    exact ⟨hresults, hsource, hsink⟩

end HostedTests.Channel
