import HostedTests.Proofs.Session.Managing

namespace HostedTests

namespace Incident

def isCleanUp : Incident → Bool
  | hostCleanedUp => true
  | _ => false

end Incident

namespace Session

def cleanUps (s : Session) : Nat := s.record.countP Incident.isCleanUp

structure Holds (s t : Session) : Prop where
  server : t.server = s.server
  closed : t.closed = s.closed
  cleanUps : t.cleanUps = s.cleanUps

theorem holds_of_eq {s t : Session} (hserver : t.server = s.server) (hclosed : t.closed = s.closed)
    (hrecord : t.record = s.record) : s.Holds t :=
  ⟨hserver, hclosed, congrArg (List.countP Incident.isCleanUp) hrecord⟩

theorem Holds.trans {s t u : Session} (h : s.Holds t) (k : t.Holds u) : s.Holds u :=
  ⟨k.server.trans h.server, k.closed.trans h.closed, k.cleanUps.trans h.cleanUps⟩

theorem holds_note (s : Session) {i : Incident} (h : i.isCleanUp = false) :
    s.Holds (s.note i) := by
  refine ⟨rfl, rfl, ?_⟩
  rw [cleanUps, note, List.countP_append, List.countP_singleton, h]
  rfl

theorem holds_connect (s : Session) (line : Nat) : s.Holds (s.connect line) := by
  unfold connect
  split <;> exact holds_of_eq rfl rfl rfl

theorem holds_send (s : Session) (m : Message) : s.Holds (s.send m).2 := by
  rcases send_cases s m with h | ⟨line, h⟩
  · rw [h]
    exact holds_of_eq rfl rfl rfl
  · rw [h]
    exact holds_note s rfl

theorem holds_launchHost (s : Session) (info : StartInfo) : s.Holds (s.launchHost info).2 := by
  have hnoted := holds_note s (i := .hostLaunched info) rfl
  unfold launchHost
  dsimp only
  split
  · exact hnoted
  · rename_i launch _
    let t := { s.note (.hostLaunched info) with running := s.running + 1 }
    have ht : s.Holds t := ⟨hnoted.server, hnoted.closed, hnoted.cleanUps⟩
    change s.Holds (if launch.connects = true ∧ t.server.tells = true then t.connect t.front else t)
    split
    · exact ht.trans (holds_connect t t.front)
    · exact ht

theorem running_launchHost (s : Session) (info : StartInfo) :
    (∃ e, (s.launchHost info).1 = .error e ∧ (s.launchHost info).2.running = s.running) ∨
      ∃ process, (s.launchHost info).1 = .ok process ∧
        (s.launchHost info).2.running = s.running + 1 := by
  unfold launchHost
  dsimp only
  split
  · rename_i e _
    exact Or.inl ⟨e, rfl, rfl⟩
  · rename_i launch _
    refine Or.inr ⟨launch.process, rfl, ?_⟩
    dsimp only
    split
    · exact (mute_connect _ _).running
    · rfl

theorem holds_readyHost (s : Session) (sources : List String) (kind : OperationKind) :
    s.Holds (s.readyHost sources kind).2 := by
  have hnoted := holds_note s (i := .extensionsSought sources) rfl
  unfold readyHost
  dsimp only
  split
  · exact hnoted
  · rename_i paths _
    have hsent := hnoted.trans (holds_send _ (kind.extensionsMessage paths))
    split <;> rename_i heq <;> rwa [heq] at hsent

theorem abandonHost_eq (s : Session) (hclosed : s.closed = false) :
    s.abandonHost.server = s.server.stop ∧ s.abandonHost.closed = true ∧
      s.abandonHost.cleanUps = s.cleanUps + 1 ∧ s.abandonHost.running = s.running := by
  have hclose : s.close.server = s.server.stop ∧ s.close.closed = true ∧
      s.close.record = s.record := by
    unfold close
    rw [if_neg (ne_true_of_eq_false hclosed)]
    dsimp only
    split <;> exact ⟨rfl, rfl, rfl⟩
  refine ⟨hclose.1, hclose.2.1, ?_, (mute_abandonHost s).running⟩
  rw [abandonHost, cleanUps, note, List.countP_append, hclose.2.2]
  rfl

theorem listen_cases (s : Session) :
    (s.listen.2.closed = s.closed ∧ s.listen.2.cleanUps = s.cleanUps ∧
      s.listen.2.server = if s.closed then s.server else s.server.start.2) ∧
      ∀ port, s.listen.1 = .ok port → s.closed = false := by
  unfold listen
  split
  · exact ⟨⟨rfl, rfl, rfl⟩, nofun⟩
  · rename_i hclosed
    split
    · rename_i hstart
      exact ⟨⟨rfl, rfl, (congrArg Prod.snd hstart).symm⟩, nofun⟩
    · rename_i server hstart
      let t := { s with server }
      let u := if server.greets then t.connect t.front else t
      have hu : t.Holds u := by
        unfold u
        split
        · exact holds_connect t t.front
        · exact holds_of_eq rfl rfl rfl
      have hserver : u.server = s.server.start.2 := by rw [hu.server, hstart]
      dsimp only
      split
      · exact ⟨⟨hu.closed, hu.cleanUps, hserver⟩, nofun⟩
      · exact ⟨⟨hu.closed, hu.cleanUps, hserver⟩, fun _ _ => eq_false_of_ne_true hclosed⟩

inductive SetUpFails (s t : Session) : Prop where
  | unlaunched : t.running = s.running → t.server = s.listen.2.server → t.closed = s.closed →
    t.cleanUps = s.cleanUps → SetUpFails s t
  | undone : t.running = s.running + 1 → t.server = s.server.start.2.stop → s.closed = false →
    t.closed = true → t.cleanUps = s.cleanUps + 1 → SetUpFails s t

theorem setUp_undone {s v w : Session} {port : Nat} (hport : s.listen.1 = .ok port)
    (hv : s.listen.2.Holds v) (hrunning : v.running = s.running + 1) (hw : v.Holds w)
    (hsame : w.running = v.running) : s.SetUpFails w.abandonHost := by
  obtain ⟨⟨hclosed, hcleanUps, hserver⟩, hopen⟩ := listen_cases s
  replace hopen := hopen port hport
  rw [hopen, if_neg Bool.false_ne_true] at hserver
  have hkept := hv.trans hw
  obtain ⟨hstop, hover, hcleaned, hleft⟩ :=
    abandonHost_eq w (hkept.closed.trans (hclosed.trans hopen))
  refine .undone (hleft.trans (hsame.trans hrunning)) ?_ hopen hover ?_
  · rw [hstop, hkept.server, hserver]
  · rw [hcleaned, hkept.cleanUps, hcleanUps]

theorem setUp_fails {s t : Session} {m : Manager} {sources : List String} {kind : OperationKind}
    {e : Trouble} (h : s.setUp m sources kind = (.error e, t)) : s.SetUpFails t := by
  unfold setUp at h
  split at h
  · cases h
  obtain ⟨⟨hclosed, hcleanUps, -⟩, -⟩ := listen_cases s
  have hrunning := (mute_listen s).running
  have hport : ∀ {r l}, s.listen = (r, l) → s.listen.1 = r := fun hl => congrArg Prod.fst hl
  split at h
  · rename_i l hlisten
    cases h
    rw [hlisten] at hclosed hcleanUps hrunning
    exact .unlaunched hrunning (congrArg (server ∘ Prod.snd) hlisten.symm) hclosed hcleanUps
  rename_i port l hlisten
  have hl : s.listen.2 = l := congrArg Prod.snd hlisten
  rw [hl] at hclosed hcleanUps hrunning
  split at h
  · cases h
    exact .unlaunched hrunning (congrArg server hl.symm) hclosed hcleanUps
  rename_i info _
  let u := { l with exitWait := m.exitWait }
  have hu : l.Holds u := holds_of_eq rfl rfl rfl
  have hlaunched := hu.trans (holds_launchHost u ((m.parameters.map info.collecting).getD info))
  have hcount := running_launchHost u ((m.parameters.map info.collecting).getD info)
  dsimp only at h
  generalize u.launchHost ((m.parameters.map info.collecting).getD info) = launching
    at h hlaunched hcount
  obtain ⟨_ | process, v⟩ := launching
  · cases h
    obtain ⟨_, _, hcount⟩ | ⟨_, hok, _⟩ := hcount
    · refine .unlaunched (hcount.trans hrunning) ?_ (hlaunched.closed.trans hclosed)
        (hlaunched.cleanUps.trans hcleanUps)
      rw [hlaunched.server, hl]
    · cases hok
  · have hone : v.running = s.running + 1 := by
      obtain ⟨_, herror, _⟩ | ⟨_, _, hcount⟩ := hcount
      · cases herror
      · exact hcount.trans (congrArg (· + 1) hrunning)
    rw [← hl] at hlaunched
    dsimp only at h
    split at h
    · cases h
      exact setUp_undone (hport hlisten) hlaunched hone (holds_of_eq rfl rfl rfl) rfl
    · have hready := holds_readyHost v sources kind
      have hsame := (mute_readyHost v sources kind).running
      generalize v.readyHost sources kind = readying at h hready hsame
      obtain ⟨_ | _, w⟩ := readying
      · cases h
        exact setUp_undone (hport hlisten) hlaunched hone hready hsame
      · cases h

theorem setUp_unlistened (s : Session) {m : Manager} (hprocess : m.process = none)
    {f : RequestFault} (hlisten : s.listen.1 = .error f) (sources : List String)
    (kind : OperationKind) :
    s.setUp m sources kind =
      (.error (f.trouble.within "initialize communication"), s.listen.2) := by
  unfold setUp
  rw [hprocess]
  generalize s.listen = listening at hlisten ⊢
  obtain ⟨_ | _, t⟩ := listening
  · cases hlisten
    rfl
  · cases hlisten

/-- What a failed setup leaves, and what that does to a later one. If the host was launched, the
server is stopped again, the session is closed and the host is cleaned up. Otherwise nothing is
undone: a server that the setup opened stays open, and refuses to be started again. -/
theorem setup_undone_once_launched (s t : Session) (m : Manager) (sources : List String)
    (kind : OperationKind) (e : Trouble) (h : s.setUp m sources kind = (.error e, t)) :
    (t.running = s.running + 1 ∧ t.server = s.server.start.2.stop ∧ t.closed = true ∧
        t.cleanUps = s.cleanUps + 1 ∧
        ∀ (n : Manager) (sources' : List String) (kind' : OperationKind), n.process = none →
          t.setUp n sources' kind' =
            (.error (RequestFault.disposed.trouble.within "initialize communication"), t)) ∨
      (t.running = s.running ∧ t.closed = s.closed ∧ t.cleanUps = s.cleanUps ∧
        t.server = (if s.closed then s.server else s.server.start.2) ∧
        ∀ (n : Manager) (sources' : List String) (kind' : OperationKind), n.process = none →
          s.closed = false → t.server.exclusive = true → t.server.isOpen = true →
          t.server.refusal = none →
          (t.setUp n sources' kind').1 = .error
            ((RequestFault.channel .alreadyListening).trouble.within
              "initialize communication")) := by
  cases setUp_fails h with
  | undone hrunning hserver _ hover hcleanUps =>
    refine Or.inl ⟨hrunning, hserver, hover, hcleanUps, ?_⟩
    intro n sources' kind' hprocess
    have hlisten : t.listen = (.error .disposed, t) := if_pos hover
    rw [setUp_unlistened t hprocess (congrArg Prod.fst hlisten), hlisten]
  | unlaunched hrunning hserver hclosed hcleanUps =>
    refine Or.inr ⟨hrunning, hclosed, hcleanUps, hserver.trans (listen_cases s).1.2.2, ?_⟩
    intro n sources' kind' hprocess hopen hexclusive hserving haccepts
    have hstart : t.server.start.1 = .error .alreadyListening := by
      simp only [Server.start, haccepts, hexclusive, hserving, and_self, ↓reduceIte]
    have hlisten : t.listen.1 = .error (.channel .alreadyListening) := by
      rw [listen, if_neg (ne_true_of_eq_false (hclosed.trans hopen))]
      generalize t.server.start = started at hstart
      obtain ⟨_, server⟩ := started
      cases hstart
      rfl
    rw [setUp_unlistened t hprocess hlisten]

theorem setup_undone_once_launched_bare :
    let missing := Trouble.of "no adapters"
    let host : HostBehaviour := { HostBehaviour.nearby with extensions := fun _ => .error missing }
    let s := fresh (.fresh "4000" none false true) .idle none host 0
    let t := (s.setUp (.fresh .operation 0 0) ["a"] .discovery).2
    s.setUp (.fresh .operation 0 0) ["a"] .discovery =
        (.error (missing.within "find adapter extensions"), t) ∧
      t.server.starts = 1 ∧ t.server.stops = 1 ∧ t.server.isOpen = false ∧ t.cleanUps = 1 := by
  intro missing host s t
  have h : s.setUp (.fresh .operation 0 0) ["a"] .discovery =
      (.error (missing.within "find adapter extensions"), t) := by
    unfold t s host missing
    exact Prod.ext rfl rfl
  refine ⟨h, ?_⟩
  rcases setup_undone_once_launched s t _ _ _ _ h with ⟨_, hserver, _, hcleanUps, _⟩ | ⟨hsame, _⟩
  · rw [hserver, hcleanUps]
    exact ⟨rfl, rfl, rfl, rfl⟩
  · exact absurd hsame (by decide +kernel)

/-- A host that is unknown: the server stays open, and a second attempt finds it so. -/
theorem listener_left_behind :
    let m := Manager.fresh .operation 90000 0
    let s := fresh (.fresh "4000" none false true) .idle (some m) .elsewhere 0
    let first := s.setUp m ["a"] .discovery
    let second := first.2.setUp m ["a"] .discovery
    first.1 = .error ((Trouble.of "unknown").within "build test host start info") ∧
      first.2.server.isOpen = true ∧ first.2.server.starts = 1 ∧ first.2.server.stops = 0 ∧
      first.2.closed = false ∧
      second.1 = .error ((RequestFault.channel .alreadyListening).trouble.within
        "initialize communication") :=
  ⟨rfl, rfl, rfl, rfl, rfl, rfl⟩

end Session
end HostedTests
