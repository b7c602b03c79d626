import HostedTests.Proofs.Session.Telling

namespace HostedTests

def Incident.isMute : Incident → Bool
  | told _ _ | collectorEnded _ => false
  | _ => true

namespace Session

structure Mute (s t : Session) : Prop where
  manager : t.manager = s.manager
  running : t.running = s.running
  operations : t.operations = s.operations
  parties : t.parties = s.parties
  collected : t.collected = s.collected
  collector : t.collector = s.collector
  record : ∃ more, t.record = s.record ++ more ∧ ∀ i ∈ more, i.isMute = true

namespace Mute

theorem of_eq {s t : Session} (hmanager : t.manager = s.manager) (hrunning : t.running = s.running)
    (hoperations : t.operations = s.operations) (hparties : t.parties = s.parties)
    (hcollected : t.collected = s.collected) (hcollector : t.collector = s.collector)
    (hrecord : t.record = s.record) : s.Mute t := by
  refine ⟨hmanager, hrunning, hoperations, hparties, hcollected, hcollector, [], ?_, ?_⟩
  · rw [hrecord, List.append_nil]
  · intro i hi
    cases hi

theorem refl (s : Session) : s.Mute s := .of_eq rfl rfl rfl rfl rfl rfl rfl

theorem trans {s t u : Session} (h : s.Mute t) (k : t.Mute u) : s.Mute u := by
  obtain ⟨more, hmore, hmute⟩ := h.record
  obtain ⟨rest, hrest, hmute'⟩ := k.record
  refine ⟨k.manager.trans h.manager, k.running.trans h.running, k.operations.trans h.operations,
    k.parties.trans h.parties, k.collected.trans h.collected, k.collector.trans h.collector,
    more ++ rest, ?_, ?_⟩
  · rw [hrest, hmore, List.append_assoc]
  · intro i hi
    rcases List.mem_append.mp hi with hi | hi
    · exact hmute i hi
    · exact hmute' i hi

theorem told {s t : Session} (h : s.Mute t) (p : Nat) : t.told p = s.told p := by
  obtain ⟨more, hmore, hmute⟩ := h.record
  have hnone : more.filterMap (Incident.noticeFor? p) = [] := by
    rw [List.filterMap_eq_nil_iff]
    intro i hi
    have hi' := hmute i hi
    cases i
    case told => cases hi'
    all_goals rfl
  rw [told_append hmore p, hnone, List.append_nil]

end Mute

theorem mute_note (s : Session) {i : Incident} (h : i.isMute = true) : s.Mute (s.note i) := by
  refine ⟨rfl, rfl, rfl, rfl, rfl, rfl, [i], rfl, ?_⟩
  intro j hj
  rwa [List.mem_singleton.mp hj]

theorem mute_connect (s : Session) (line : Nat) : s.Mute (s.connect line) := by
  unfold connect
  split
  · exact .refl s
  · exact .of_eq rfl rfl rfl rfl rfl rfl rfl

theorem mute_listen (s : Session) : s.Mute s.listen.2 := by
  unfold listen
  split
  · exact .refl s
  · split
    · exact .of_eq rfl rfl rfl rfl rfl rfl rfl
    · rename_i server _
      let t := { s with server }
      have ht : s.Mute t := .of_eq rfl rfl rfl rfl rfl rfl rfl
      have hconnect : s.Mute (if server.greets then t.connect t.front else t) := by
        split
        · exact ht.trans (mute_connect t t.front)
        · exact ht
      dsimp only
      split <;> exact hconnect

theorem mute_transmit (s : Session) (line : Nat) (text : String) :
    s.Mute (s.transmit line text).2 := by
  unfold transmit
  split
  · exact .refl s
  · exact mute_note s rfl

theorem mute_send (s : Session) (m : Message) : s.Mute (s.send m).2 := by
  unfold send
  split
  · exact .refl s
  · rename_i line _
    have h := mute_transmit s line m.text
    split <;> rename_i heq <;> rwa [heq] at h

theorem mute_endSession (s : Session) : s.Mute s.endSession.2 := by
  unfold endSession
  split
  · exact .refl s
  · exact mute_send s _

theorem mute_close (s : Session) : s.Mute s.close := by
  unfold close
  split
  · exact .refl s
  · dsimp only
    split <;> exact .of_eq rfl rfl rfl rfl rfl rfl rfl

theorem mute_leave (s : Session) : s.Mute s.leave := by
  unfold leave
  split
  · exact .refl s
  · exact (mute_close s).trans (.of_eq rfl rfl rfl rfl rfl rfl rfl)

theorem mute_abandonHost (s : Session) : s.Mute s.abandonHost :=
  (mute_close s).trans (mute_note _ rfl)

theorem mute_closeManager (s : Session) : s.Mute s.closeManager :=
  ((mute_endSession s).trans (mute_close _)).trans (mute_note _ rfl)

end Session

end HostedTests
