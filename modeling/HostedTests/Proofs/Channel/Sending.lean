import HostedTests.Channel.Basic
import HostedTests.Proofs.Channel.Frame

namespace HostedTests

namespace Sink

theorem write_taken (s : Sink) (octets : List UInt8) :
    s.write octets = (none, s) ∨
      ∃ n, n ≤ octets.length ∧ (s.write octets).1 = some n ∧
        (s.write octets).2.accepted = s.accepted ++ octets.take n := by
  rw [write]
  split
  · exact .inl rfl
  · right
    refine ⟨_, ?_, rfl, rfl⟩
    split
    · exact Nat.min_le_right _ _
    · exact Nat.le_refl _

structure Takes (s : Sink) (octets taken : List UInt8) (r : Except String Unit × Sink) : Prop where
  accepted : r.2.accepted = s.accepted ++ taken
  isPrefix : taken <+: octets
  whole : r.1 = .ok () → taken = octets

theorem Takes.cons {s t : Sink} {first rest taken : List UInt8} {r : Except String Unit × Sink}
    (hfirst : t.accepted = s.accepted ++ first) (h : t.Takes rest taken r) :
    s.Takes (first ++ rest) (first ++ taken) r where
  accepted := by rw [h.accepted, hfirst, List.append_assoc]
  isPrefix := (List.prefix_append_right_inj first).mpr h.isPrefix
  whole := fun hok => by rw [h.whole hok]

theorem takes_writeAll (s : Sink) (octets : List UInt8) :
    ∃ taken, s.Takes octets taken (s.writeAll octets) := by
  fun_induction writeAll s octets with
  | case1 s => exact ⟨[], ⟨(List.append_nil _).symm, List.prefix_rfl, fun _ => rfl⟩⟩
  | case2 s b rest t hwrite =>
    rcases s.write_taken (b :: rest) with hsame | ⟨n, -, hn, -⟩
    · rw [hwrite] at hsame
      cases hsame
      exact ⟨[], ⟨(List.append_nil _).symm, List.nil_prefix, nofun⟩⟩
    · rw [hwrite] at hn
      cases hn
  | case3 s b rest t hwrite =>
    rcases s.write_taken (b :: rest) with hsame | ⟨n, -, hn, htaken⟩
    · rw [hwrite] at hsame
      cases hsame
    · rw [hwrite] at hn htaken
      cases hn
      exact ⟨[], ⟨htaken, List.nil_prefix, nofun⟩⟩
  | case4 s b rest n t hwrite ih =>
    obtain ⟨taken, htakes⟩ := ih
    rcases s.write_taken (b :: rest) with hsame | ⟨m, hm, hn, htaken⟩
    · rw [hwrite] at hsame
      cases hsame
    · rw [hwrite] at hn htaken
      cases hn
      have hall := Takes.cons htaken htakes
      rw [List.take_succ_cons, List.cons_append, List.take_append_drop] at hall
      exact ⟨_, hall⟩

theorem takes_put (s : Sink) (octets : List UInt8) :
    ∃ taken, s.Takes octets taken (s.put octets) := by
  obtain ⟨taken, h⟩ := s.takes_writeAll octets
  refine ⟨taken, ?_⟩
  rw [put]
  split
  · rename_i hwrite
    rw [hwrite] at h
    exact ⟨h.accepted, h.isPrefix, nofun⟩
  · rename_i hwrite
    rw [hwrite] at h
    rw [flush]
    split
    · exact ⟨h.accepted, h.isPrefix, nofun⟩
    · exact ⟨h.accepted, h.isPrefix, fun _ => h.whole rfl⟩

end Sink

namespace Channel

variable {σ : Type}

def Shut (c : Channel σ) : Prop := c.disposed = true ∨ c.canSend = false

def Torn (text : String) (octets : List UInt8) : Prop :=
  octets = [] ∨ ∃ frame, Frame.encode text = .ok frame ∧ octets <+: frame

theorem send_of_shut {c : Channel σ} (h : c.Shut) (text : String) :
    c.send text = (.error .disposed, c) := by
  have hshut : c.disposed = true ∨ (!c.canSend) = true := by
    rcases h with hdisposed | hsend
    · exact .inl hdisposed
    · rw [hsend]
      exact .inr rfl
  rw [send, if_pos hshut]

inductive Sent (c : Channel σ) (text : String) : Except ChannelFault Unit × Channel σ → Prop where
  | whole (c' : Channel σ) (frame : List UInt8) :
    Frame.encode text = .ok frame → c'.sink.accepted = c.sink.accepted ++ frame →
      Sent c text (.ok (), c')
  | torn (f : ChannelFault) (c' : Channel σ) (octets : List UInt8) :
    Torn text octets → c'.sink.accepted = c.sink.accepted ++ octets → c'.Shut →
      Sent c text (.error f, c')

theorem sent (c : Channel σ) (text : String) : Sent c text (c.send text) := by
  by_cases hshut : c.Shut
  · rw [send_of_shut hshut]
    exact .torn .disposed c [] (.inl rfl) (List.append_nil _).symm hshut
  · have hopen : ¬ (c.disposed = true ∨ (!c.canSend) = true) := by
      rintro (hdisposed | hsend)
      · exact hshut (.inl hdisposed)
      · exact hshut (.inr (Bool.not_eq_true' _ ▸ hsend))
    rw [send, if_neg hopen]
    split
    · exact .torn _ _ [] (.inl rfl) (List.append_nil _).symm (.inr rfl)
    · rename_i frame hframe
      obtain ⟨taken, htakes⟩ := c.sink.takes_put frame
      split
      · rename_i sink hput
        rw [hput] at htakes
        apply Sent.whole _ frame hframe
        rw [← htakes.whole rfl]
        exact htakes.accepted
      · rename_i system sink hput
        rw [hput] at htakes
        exact .torn _ _ taken (.inr ⟨frame, hframe, htakes.isPrefix⟩) htakes.accepted (.inr rfl)

def sends (steps : List (Step σ)) (results : List (Result σ)) : List (String × Result σ) :=
  (steps.zip results).filterMap fun
    | (.send text, r) => some (text, r)
    | _ => none

theorem sends_send (text : String) (r : Result σ) (steps : List (Step σ))
    (results : List (Result σ)) :
    sends (.send text :: steps) (r :: results) = (text, r) :: sends steps results := rfl

theorem sends_other {s : Step σ} (h : ∀ text, s ≠ .send text) (r : Result σ)
    (steps : List (Step σ)) (results : List (Result σ)) :
    sends (s :: steps) (r :: results) = sends steps results := by
  cases s with
  | send text => exact absurd rfl (h text)
  | receive => rfl
  | notify => rfl
  | subscribe s => rfl
  | unsubscribe => rfl
  | dispose => rfl

theorem receive_keeps (c : Channel σ) :
    c.receive.2.sink = c.sink ∧ c.receive.2.canSend = c.canSend ∧
      c.receive.2.disposed = c.disposed := by
  rw [receive]
  split
  · exact ⟨rfl, rfl, rfl⟩
  · dsimp only
    split <;> exact ⟨rfl, rfl, rfl⟩

theorem step_receive_state (c : Channel σ) : (c.step .receive).2 = c.receive.2 := by
  rw [step]
  split <;> rename_i h <;> rw [h]

theorem step_notify_state (c : Channel σ) : (c.step .notify).2 = c.receive.2 := by
  have hnotify : c.notify.2 = c.receive.2 := by
    rw [notify]
    dsimp only
    split <;> rfl
  rw [step]
  split <;> rename_i h <;> rw [← hnotify, h]

theorem step_other {c : Channel σ} {s : Step σ} (h : ∀ text, s ≠ .send text) :
    (c.step s).2.sink = c.sink ∧ (c.Shut → (c.step s).2.Shut) := by
  have hreceive : c.receive.2.sink = c.sink ∧ (c.Shut → c.receive.2.Shut) := by
    obtain ⟨hsink, hsend, hdisposed⟩ := c.receive_keeps
    refine ⟨hsink, fun hshut => ?_⟩
    rw [Shut, hsend, hdisposed]
    exact hshut
  cases s with
  | send text => exact absurd rfl (h text)
  | receive =>
    rw [step_receive_state]
    exact hreceive
  | notify =>
    rw [step_notify_state]
    exact hreceive
  | subscribe s => exact ⟨rfl, id⟩
  | unsubscribe => exact ⟨rfl, id⟩
  | dispose =>
    by_cases hdisposed : c.disposed = true
    · have hsame : c.dispose = c := if_pos hdisposed
      rw [step, hsame]
      exact ⟨rfl, id⟩
    · have hnew : c.dispose = _ := if_neg hdisposed
      rw [step, hnew]
      exact ⟨rfl, fun _ => .inl rfl⟩

theorem run_of_shut {c : Channel σ} (h : c.Shut) (steps : List (Step σ)) :
    (c.run steps).2.sink = c.sink ∧ (c.run steps).2.Shut ∧
      ∀ s ∈ sends steps (c.run steps).1, s.2 = .fault .disposed := by
  induction steps generalizing c with
  | nil => exact ⟨rfl, h, nofun⟩
  | cons s steps ih =>
    by_cases hs : ∃ text, s = .send text
    · obtain ⟨text, rfl⟩ := hs
      have hstep : c.step (.send text) = (.fault .disposed, c) := by
        rw [step, send_of_shut h]
      obtain ⟨hsink, hshut, hsends⟩ := ih h
      rw [run, hstep]
      refine ⟨hsink, hshut, ?_⟩
      rw [sends_send]
      intro s hmem
      rcases List.mem_cons.mp hmem with rfl | hmem
      · rfl
      · exact hsends s hmem
    · have hother : ∀ text, s ≠ .send text := fun text he => hs ⟨text, he⟩
      obtain ⟨hsink, hshut⟩ := step_other (c := c) hother
      obtain ⟨hsinks, hshuts, hsends⟩ := ih (hshut h)
      rw [run]
      refine ⟨hsinks.trans hsink, hshuts, ?_⟩
      rw [sends_other hother]
      exact hsends

/-- What sends wrote: the frames of the acknowledged texts, then a part of the next frame. -/
inductive Wrote :
    List (String × Result σ) → List String → Option String → List UInt8 → Prop where
  | nothing : Wrote [] [] none []
  | whole (text : String) (frame octets : List UInt8) (later : List (String × Result σ))
    (texts : List String) (torn : Option String) :
    Frame.encode text = .ok frame → Wrote later texts torn octets →
      Wrote ((text, .done) :: later) (text :: texts) torn (frame ++ octets)
  | torn (text : String) (f : ChannelFault) (octets : List UInt8)
    (later : List (String × Result σ)) :
    Torn text octets → (∀ s ∈ later, s.2 = .fault .disposed) →
      Wrote ((text, .fault f) :: later) [] (some text) octets

theorem run_wrote (c : Channel σ) (steps : List (Step σ)) :
    ∃ texts torn octets, Wrote (sends steps (c.run steps).1) texts torn octets ∧
      (c.run steps).2.sink.accepted = c.sink.accepted ++ octets ∧
      (torn.isSome → (c.run steps).2.Shut) := by
  induction steps generalizing c with
  | nil => exact ⟨[], none, [], .nothing, (List.append_nil _).symm, nofun⟩
  | cons s steps ih =>
    by_cases hs : ∃ text, s = .send text
    · obtain ⟨text, rfl⟩ := hs
      have hsent := c.sent text
      rw [run, step]
      cases hsend : c.send text with
      | mk r c' =>
        rw [hsend] at hsent
        cases hsent with
        | whole _ frame hframe haccepted =>
          obtain ⟨texts, torn, octets, hwrote, hoctets, hshut⟩ := ih c'
          refine ⟨text :: texts, torn, frame ++ octets, ?_, ?_, hshut⟩
          · exact .whole text frame octets _ texts torn hframe hwrote
          · rw [← List.append_assoc, ← haccepted]
            exact hoctets
        | torn f _ octets htorn haccepted hshut =>
          obtain ⟨hsink, hshuts, hsends⟩ := run_of_shut hshut steps
          refine ⟨[], some text, octets, .torn text f octets _ htorn hsends, ?_, fun _ => hshuts⟩
          rw [← haccepted, ← hsink]
    · have hother : ∀ text, s ≠ .send text := fun text he => hs ⟨text, he⟩
      obtain ⟨texts, torn, octets, hwrote, hoctets, hshut⟩ := ih (c.step s).2
      rw [run]
      refine ⟨texts, torn, octets, ?_, ?_, hshut⟩
      · rw [sends_other hother]
        exact hwrote
      · rw [← (step_other (c := c) hother).1]
        exact hoctets

theorem Wrote.octets_eq {sent : List (String × Result σ)} {texts : List String}
    {torn : Option String} {octets : List UInt8} (h : Wrote sent texts torn octets) :
    (∀ t ∈ texts, t.utf8ByteSize < Frame.lengthBound) ∧
      ∃ rest, octets = texts.flatMap Frame.frameOf ++ rest ∧
        (rest = [] ∨ ∃ text ∈ torn, text.utf8ByteSize < Frame.lengthBound ∧
          rest <+: Frame.frameOf text) := by
  induction h with
  | nothing => exact ⟨nofun, [], rfl, .inl rfl⟩
  | whole text frame octets later texts torn hframe _ ih =>
    obtain ⟨hbound, rfl⟩ := (Frame.encode_eq_ok_iff text frame).mp hframe
    obtain ⟨hbounds, rest, rfl, hrest⟩ := ih
    refine ⟨?_, rest, ?_, hrest⟩
    · intro t ht
      rcases List.mem_cons.mp ht with rfl | ht
      · exact hbound
      · exact hbounds t ht
    · rw [List.flatMap_cons, List.append_assoc]
  | torn text f octets later htorn _ =>
    refine ⟨nofun, octets, rfl, ?_⟩
    rcases htorn with rfl | ⟨frame, hframe, hprefix⟩
    · exact .inl rfl
    · obtain ⟨hbound, rfl⟩ := (Frame.encode_eq_ok_iff text frame).mp hframe
      exact .inr ⟨text, rfl, hbound, hprefix⟩

theorem Wrote.readAll {sent : List (String × Result σ)} {texts : List String}
    {torn : Option String} {octets : List UInt8} (h : Wrote sent texts torn octets) (most : ℕ)
    (ending : Frame.Ending) :
    (Frame.readAll most ⟨octets, ending⟩).texts <+: texts ++ torn.toList ∧
      ((∀ t ∈ texts, t.utf8ByteSize ≤ most) →
        texts <+: (Frame.readAll most ⟨octets, ending⟩).texts) := by
  obtain ⟨hbound, rest, rfl, hrest⟩ := h.octets_eq
  by_cases hall : ∀ t ∈ texts, t.utf8ByteSize ≤ most
  · obtain ⟨found, hfound, hread⟩ : ∃ found, found <+: torn.toList ∧
        (Frame.readAll most ⟨texts.flatMap Frame.frameOf ++ rest, ending⟩).texts =
          texts ++ found := by
      rw [Frame.readAll,
        Frame.readAllFrom_frames texts [] rest ending fun t ht => ⟨hall t ht, hbound t ht⟩,
        List.append_nil]
      rcases hrest with rfl | ⟨text, rfl, htext, htorn⟩
      · refine ⟨[], List.nil_prefix, ?_⟩
        rw [Frame.readAllFrom_stopped _ (Frame.not_read_nothing most ending),
          List.reverse_reverse, List.append_nil]
      · obtain ⟨found, hfound, hread⟩ :=
          Frame.readAllFrom_torn most texts.reverse ending htext htorn
        refine ⟨found, hfound, ?_⟩
        rw [hread, List.reverse_reverse]
    rw [hread]
    exact ⟨(List.prefix_append_right_inj texts).mpr hfound, fun _ => List.prefix_append _ _⟩
  · have hlarge : ∃ t ∈ texts, most < t.utf8ByteSize := by
      simpa only [not_forall, Nat.not_le, exists_prop] using hall
    obtain ⟨found, hfound, hread⟩ := Frame.readAllFrom_large texts [] rest ending hbound hlarge
    refine ⟨?_, fun hfits => absurd hfits hall⟩
    rw [Frame.readAll, hread, List.reverse_nil, List.nil_append]
    exact hfound.trans (List.prefix_append _ _)

theorem sends_write_whole_frames (source : Frame.Source) (most : Allowance)
    (writes flushes : Option ℕ) (mostOctets : ℕ) (steps : List (Step σ)) :
    let ran := (fresh source ⟨[], most, writes, flushes⟩ mostOctets).run steps
    ∃ acknowledged unacknowledged,
      Wrote (sends steps ran.1) acknowledged unacknowledged ran.2.sink.accepted ∧
      (unacknowledged.isSome → ∀ more,
        (ran.2.run more).2.sink.accepted = ran.2.sink.accepted ∧
          ∀ s ∈ sends more (ran.2.run more).1, s.2 = .fault .disposed) ∧
      ∀ peerMost ending,
        (Frame.readAll peerMost ⟨ran.2.sink.accepted, ending⟩).texts <+:
          acknowledged ++ unacknowledged.toList ∧
        ((∀ t ∈ acknowledged, t.utf8ByteSize ≤ peerMost) →
          acknowledged <+: (Frame.readAll peerMost ⟨ran.2.sink.accepted, ending⟩).texts) := by
  intro ran
  obtain ⟨texts, torn, octets, hwrote, haccepted, hshut⟩ :=
    run_wrote (fresh source ⟨[], most, writes, flushes⟩ mostOctets) steps
  have hoctets : ran.2.sink.accepted = octets := haccepted
  rw [hoctets]
  refine ⟨texts, torn, hwrote, ?_, fun peerMost ending => hwrote.readAll peerMost ending⟩
  intro hfailed more
  obtain ⟨hsink, -, hsends⟩ := run_of_shut (hshut hfailed) more
  exact ⟨(congrArg Sink.accepted hsink).trans hoctets, hsends⟩

end Channel

end HostedTests
