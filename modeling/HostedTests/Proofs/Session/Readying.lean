import HostedTests.Proofs.Session.Managing

namespace HostedTests.Session

theorem listen_opens {s : Session} {server : Server} {port : Nat} (hclosed : s.closed = false)
    (hstart : s.server.start = (.ok (), server)) (hgreets : server.greets = false)
    (hport : port? server.connection = some port) : s.listen = (.ok port, { s with server }) := by
  simp only [listen, hclosed, hstart, hgreets, hport, Bool.false_eq_true, if_false]

theorem launchHost_connects {s : Session} {info : StartInfo} {process : Nat}
    (hlaunch : s.host.launch info = .ok ⟨process, true⟩) (htells : s.server.tells = true)
    (hheld : s.abandoned = false) :
    s.launchHost info = (.ok process, { s.note (.hostLaunched info) with
      running := s.running + 1, channel := some s.front, connected := true }) := by
  have hnoted : (s.note (.hostLaunched info)).host.launch info = .ok ⟨process, true⟩ := hlaunch
  simp only [launchHost, hnoted]
  rw [if_pos ⟨trivial, htells⟩, connect]
  exact congrArg (Prod.mk _) (if_neg (ne_true_of_eq_false hheld))

theorem readyHost_tells {s : Session} {sources paths : List String} {line : Nat}
    (kind : OperationKind) (hextensions : s.host.extensions sources = .ok paths)
    (hclosed : s.closed = false) (hchannel : s.channel = some line)
    (hsends : s.lines[line]?.bind (·.refusal) = none) :
    s.readyHost sources kind = (.ok (), (s.note (.extensionsSought sources)).note
      (.sent line (kind.extensionsMessage paths).text)) := by
  have hsought : (s.note (.extensionsSought sources)).host.extensions sources = .ok paths :=
    hextensions
  have hline : (s.note (.extensionsSought sources)).line? = .ok line := by
    have hopen : (s.note (.extensionsSought sources)).closed = false := hclosed
    have hconnected : (s.note (.extensionsSought sources)).channel = some line := hchannel
    rw [line?, hopen, hconnected]
    rfl
  have hopen : (s.note (.extensionsSought sources)).lines[line]?.bind (·.refusal) = none := hsends
  simp only [readyHost, hsought, send, hline, transmit, hopen]

def readied (l : Session) (exitWait process : Nat) (info : StartInfo) (sources : List String)
    (text : String) : Session :=
  { l with
    exitWait
    running := l.running + 1
    channel := some l.front
    connected := true
    manager := l.manager.map fun m => { m with process := some process }
    record := l.record ++ [.hostLaunched info, .extensionsSought sources, .sent l.front text] }

theorem setUp_ready {s l : Session} {m : Manager} {sources paths : List String} {info : StartInfo}
    {process port : Nat} (kind : OperationKind) (hidle : m.process = none)
    (hplain : m.parameters = none) (hlisten : s.listen = (.ok port, l))
    (hinfo : l.host.startInfo port sources = .ok info)
    (hlaunch : l.host.launch info = .ok ⟨process, true⟩)
    (hextensions : l.host.extensions sources = .ok paths) (htells : l.server.tells = true)
    (hheld : l.abandoned = false) (hclosed : l.closed = false)
    (hsends : l.lines[l.front]?.bind (·.refusal) = none) :
    s.setUp m sources kind = (.ok process,
      l.readied m.exitWait process info sources (kind.extensionsMessage paths).text) := by
  let waiting : Session := { l with exitWait := m.exitWait }
  have hlaunched := launchHost_connects (s := waiting) hlaunch htells hheld
  have hready := readyHost_tells (s := { waiting.note (.hostLaunched info) with
    running := l.running + 1, channel := some l.front, connected := true }) kind hextensions
    hclosed rfl hsends
  simp only [setUp, hidle, hlisten, hinfo, hplain, Option.map_none, Option.getD_none]
  rw [hlaunched]
  dsimp only
  rw [if_neg (by simp), hready]
  simp only [modifyManager, readied, note, List.append_assoc, List.cons_append, List.nil_append,
    waiting]

theorem direct_accepted {s : Session} {r : StartRequest} {p line : Nat}
    (hclosed : s.closed = false) (hfault : r.fault? = none) (hchannel : s.channel = some line)
    (hactive : s.active? = none) (hsends : s.lines[line]?.bind (·.refusal) = none) :
    r.direct p s =
      (.ok (), (s.register line ⟨.fresh r.kind, p⟩).note (.sent line r.message.text)) := by
  have hdirect : r.direct p s = s.startOperation .quiet r.kind p r.message := by
    cases r with
    | discovery c =>
      rw [StartRequest.direct, discover, hclosed, if_neg Bool.false_ne_true,
        show c.fault? = none from hfault]
      rfl
    | execution c =>
      rw [StartRequest.direct, run, hclosed, if_neg Bool.false_ne_true,
        show c.fault? = none from hfault]
      rfl
  have hregistered : (s.register line ⟨.fresh r.kind, p⟩).lines[line]?.bind (·.refusal) = none :=
    (refusal_subscribe _ _ _ _).trans hsends
  rw [hdirect, startOperation_accepted s r.kind p line r.message hclosed hchannel hactive]
  simp only [transmit, hregistered]

theorem step_managed_ready {s l : Session} {m : Manager} {r : StartRequest} {observer : Observer}
    {paths : List String} {info : StartInfo} {process port : Nat} (hm : s.manager = some m)
    (hkind : m.kind = r.kind.manager) (hrecorded : m.recorded = []) (hidle : m.process = none)
    (hplain : m.parameters = none) (hlisten : (s.welcome observer [] false).listen = (.ok port, l))
    (hinfo : l.host.startInfo port r.sources = .ok info)
    (hlaunch : l.host.launch info = .ok ⟨process, true⟩)
    (hextensions : l.host.extensions r.sources = .ok paths) (htells : l.server.tells = true)
    (hheld : l.abandoned = false) (hclosed : l.closed = false)
    (hsends : l.lines[l.front]?.bind (·.refusal) = none) (hfault : r.fault? = none)
    (hactive : l.active? = none) :
    s.step .quiet [] (r.managed observer) =
      let ready := l.readied m.exitWait process info r.sources
        (r.kind.extensionsMessage paths).text
      (.process process, (ready.register l.front ⟨.fresh r.kind, s.nextParty⟩).note
        (.sent l.front r.message.text)) := by
  have hready := setUp_ready r.kind hidle hplain hlisten hinfo hlaunch hextensions htells hheld
    hclosed hsends
  let ready := l.readied m.exitWait process info r.sources (r.kind.extensionsMessage paths).text
  have hdirect : r.direct s.nextParty ready = (.ok (),
      (ready.register l.front ⟨.fresh r.kind, s.nextParty⟩).note
        (.sent l.front r.message.text)) :=
    direct_accepted hclosed hfault rfl hactive hsends
  rw [step_managed hm hkind hrecorded]
  simp only [startManaged, hready]
  rw [hdirect]
  rfl

end HostedTests.Session
