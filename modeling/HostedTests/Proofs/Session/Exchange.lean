import HostedTests.Proofs.Host.Serving

/-!
A session and the reference host that take turns in any order. Whatever the order, what the host has
said is what the operation has heard, what is on its way and what is about to be sent; so nothing is
lost, and nobody waits for ever.
-/

namespace HostedTests

theorem Conclusive.open_before {k : OperationKind} {observer : Observer}
    {heard rest : List (String × Notice)} {i : String × Notice}
    (c : Conclusive k observer (heard ++ i :: rest)) :
    (heard.map Prod.snd).any Notice.isCompletion = false := by
  have hconcludes := c.concludes
  rw [List.map_append, List.map_cons] at hconcludes
  exact hconcludes.ongoing_before

namespace Dialogue

variable {w : Surroundings} {observer : Observer} {h h' : ReferenceHost}

theorem of_nil {items : List (String × Notice)} (d : Dialogue w observer h [] items h') :
    items = [] := by
  cases d
  rfl

theorem of_cons {text : String} {texts : List String} {said : List (String × Notice)}
    (d : Dialogue w observer h (text :: texts) said h') :
    ∃ ms items more next, h.receive w (.text text) = (ms, next) ∧
      ms.map Message.text = items.map Prod.fst ∧ said = items ++ more ∧
      Dialogue w observer next (texts ++ observer.repliesTo items) more h' := by
  cases d with
  | hears hreceive htexts d => exact ⟨_, _, _, _, hreceive, htexts, rfl, d⟩

theorem not_ended {texts : List String} {items : List (String × Notice)}
    (d : Dialogue w observer h texts items h') (hserving : h'.phase = .serving) (e : HostEnd) :
    h.phase ≠ .ended e := by
  induction d with
  | silence h =>
    rw [hserving]
    exact HostPhase.noConfusion
  | @hears h next _ text _ _ _ _ hreceive _ _ ih =>
    intro hended
    have hgone : h.receive w (.text text) = ([], h) := by
      simp only [ReferenceHost.receive, hended]
    obtain rfl : next = h := by
      rw [hgone] at hreceive
      exact (congrArg Prod.snd hreceive).symm
    exact ih hserving hended

end Dialogue

namespace Exchange

structure Underway (w : Surroundings) (observer : Observer) (k : OperationKind)
    (items : List (String × Notice)) (last : ReferenceHost) (e : Exchange)
    (heard sent waiting more : List (String × Notice)) : Prop where
  listens : e.session.Listens observer 0 0 k heard
  whole : heard ++ (sent ++ waiting) ++ more = items
  toRunner : e.toRunner = sent.map Prod.fst
  outbox : e.outbox = waiting.map Prod.fst
  dialogue : Dialogue w observer e.host (e.toHost ++ observer.repliesTo (sent ++ waiting)) more last

def potential (observer : Observer) (e : Exchange) (sent waiting more : List (String × Notice)) :
    Nat :=
  e.toHost.length + (observer.repliesTo (sent ++ waiting ++ more)).length + sent.length +
    2 * waiting.length + 3 * more.length

namespace Underway

variable {w : Surroundings} {observer : Observer} {k : OperationKind}
variable {items : List (String × Notice)} {last : ReferenceHost} {e e' : Exchange}
variable {heard sent waiting more : List (String × Notice)}

theorem heard_subset (u : Underway w observer k items last e heard sent waiting more) :
    heard ⊆ items := by
  rw [← u.whole, List.append_assoc]
  exact List.subset_append_left _ _

theorem host_turn (u : Underway w observer k items last e heard sent waiting more)
    (hnext : e.next? w .host = some e') :
    ∃ sent' waiting' more', Underway w observer k items last e' heard sent' waiting' more' ∧
      potential observer e' sent' waiting' more' < potential observer e sent waiting more := by
  obtain ⟨⟨session, host, toHost, toRunner⟩, outbox⟩ := e
  obtain ⟨hlistens, hwhole, htoRunner, houtbox, hdialogue⟩ := u
  dsimp only at hlistens htoRunner houtbox hdialogue
  subst htoRunner houtbox
  cases waiting with
  | cons i waiting =>
    cases hnext
    refine ⟨sent ++ [i], waiting, more, ⟨hlistens, ?_, ?_, rfl, ?_⟩, ?_⟩
    · rw [List.append_assoc sent, List.singleton_append]
      exact hwhole
    · rw [List.map_append]
      rfl
    · rw [List.append_assoc sent, List.singleton_append]
      exact hdialogue
    · simp only [potential, List.append_assoc, List.singleton_append, List.length_append,
        List.length_cons, List.length_nil]
      omega
  | nil =>
    cases toHost with
    | nil => cases hnext
    | cons text rest =>
      cases hnext
      obtain ⟨ms, said, more, next, hreceive, htexts, rfl, hrest⟩ := hdialogue.of_cons
      rw [List.append_nil] at hrest hwhole
      refine ⟨sent, said, more, ⟨hlistens, ?_, rfl, ?_, ?_⟩, ?_⟩
      · rw [← hwhole]
        simp only [List.append_assoc]
      · exact (congrArg (fun answer => answer.1.map Message.text) hreceive).trans htexts
      · change Dialogue w observer (host.receive w (.text text)).2 _ more last
        rw [hreceive, Observer.repliesTo, List.flatMap_append, ← List.append_assoc]
        exact hrest
      · simp only [potential, List.append_assoc, List.nil_append, List.length_append,
          List.length_cons, List.length_nil]
        omega

theorem runner_turn (c : Conclusive k observer items)
    (u : Underway w observer k items last e heard sent waiting more)
    (hnext : e.next? w .runner = some e') :
    ∃ heard' sent', Underway w observer k items last e' heard' sent' waiting more ∧
      potential observer e' sent' waiting more < potential observer e sent waiting more := by
  obtain ⟨⟨session, host, toHost, toRunner⟩, outbox⟩ := e
  obtain ⟨hlistens, hwhole, htoRunner, houtbox, hdialogue⟩ := u
  dsimp only at hlistens htoRunner houtbox hdialogue
  subst htoRunner houtbox
  cases sent with
  | nil => cases hnext
  | cons i sent =>
    cases hnext
    rw [List.cons_append, List.append_assoc, List.cons_append] at hwhole
    subst hwhole
    have hmem : i ∈ heard ++ i :: (sent ++ waiting ++ more) :=
      List.mem_append_right _ List.mem_cons_self
    obtain ⟨hnow, hreplies, -⟩ :=
      Session.listens_receive hlistens c.open_before (c.means i hmem) (c.copes i hmem)
    refine ⟨heard ++ [i], sent, ⟨hnow, ?_, rfl, rfl, ?_⟩, ?_⟩
    · rw [List.append_assoc, List.append_assoc, List.singleton_append]
    · change Dialogue w observer host (toHost ++ Conversation.sentAfter _ _ ++ _) more last
      rw [hreplies, List.append_assoc]
      exact hdialogue
    · change (toHost ++ Conversation.sentAfter _ _).length + _ + _ + _ + _ < _
      rw [hreplies]
      simp only [potential, Observer.repliesTo, List.cons_append, List.flatMap_cons,
        List.length_append, List.length_cons]
      omega

theorem step (c : Conclusive k observer items)
    (u : Underway w observer k items last e heard sent waiting more) {turn : Turn}
    (hnext : e.next? w turn = some e') :
    ∃ heard' sent' waiting' more',
      Underway w observer k items last e' heard' sent' waiting' more' ∧
      potential observer e' sent' waiting' more' < potential observer e sent waiting more := by
  cases turn with
  | host =>
    obtain ⟨sent', waiting', more', u', hless⟩ := u.host_turn hnext
    exact ⟨heard, sent', waiting', more', u', hless⟩
  | runner =>
    obtain ⟨heard', sent', u', hless⟩ := u.runner_turn c hnext
    exact ⟨heard', sent', waiting, more, u', hless⟩

theorem after (c : Conclusive k observer items)
    (u : Underway w observer k items last e heard sent waiting more) (turns : List Turn) :
    ∃ heard sent waiting more,
      Underway w observer k items last (e.after w turns) heard sent waiting more := by
  induction turns generalizing e heard sent waiting more with
  | nil => exact ⟨heard, sent, waiting, more, u⟩
  | cons turn turns ih =>
    rw [Exchange.after, List.foldl_cons]
    cases hnext : e.next? w turn with
    | none => exact ih u
    | some e' =>
      obtain ⟨_, _, _, _, u', -⟩ := u.step c hnext
      exact ih u'

theorem heard_of_stuck (u : Underway w observer k items last e heard sent waiting more)
    (hstuck : ∀ turn, e.next? w turn = none) : heard = items := by
  obtain ⟨⟨session, host, toHost, toRunner⟩, outbox⟩ := e
  obtain ⟨-, hwhole, htoRunner, houtbox, hdialogue⟩ := u
  dsimp only at htoRunner houtbox hdialogue
  subst htoRunner houtbox
  have hhost := hstuck .host
  have hrunner := hstuck .runner
  cases sent with
  | cons i sent => cases hrunner
  | nil =>
    cases waiting with
    | cons i waiting => cases hhost
    | nil =>
      cases toHost with
      | cons text rest => cases hhost
      | nil =>
        obtain rfl := hdialogue.of_nil
        simp only [List.append_nil] at hwhole
        exact hwhole

theorem heard_of_completed (c : Conclusive k observer items)
    (u : Underway w observer k items last e heard sent waiting more)
    (hcompleted : (heard.map Prod.snd).any Notice.isCompletion = true) : heard = items := by
  have hwhole := u.whole
  rw [List.append_assoc] at hwhole
  generalize sent ++ waiting ++ more = rest at hwhole
  cases rest with
  | nil => exact (List.append_nil heard).symm.trans hwhole
  | cons i rest =>
    subst hwhole
    rw [c.open_before] at hcompleted
    cases hcompleted

theorem finishes (c : Conclusive k observer items)
    (u : Underway w observer k items last e heard sent waiting more) :
    ∃ turns, (e.after w turns).session.Listens observer 0 0 k items := by
  induction hn : potential observer e sent waiting more using Nat.strong_induction_on
    generalizing e heard sent waiting more with
  | _ n ih =>
    by_cases hstuck : ∀ turn, e.next? w turn = none
    · refine ⟨[], ?_⟩
      rw [← u.heard_of_stuck hstuck]
      exact u.listens
    · obtain ⟨turn, hturn⟩ := not_forall.mp hstuck
      obtain ⟨e', hnext⟩ := Option.ne_none_iff_exists'.mp hturn
      obtain ⟨_, _, _, _, u', hless⟩ := u.step c hnext
      obtain ⟨turns, hlistens⟩ := ih _ (hn ▸ hless) u' rfl
      refine ⟨turn :: turns, ?_⟩
      rw [Exchange.after, List.foldl_cons, hnext]
      exact hlistens

end Underway

end Exchange

end HostedTests
