import HostedTests.Console.Program
import HostedTests.Proofs.Console.Printing
import HostedTests.Proofs.Files.Place
import HostedTests.Proofs.Host.Adapters
import HostedTests.Proofs.Session.Readying
import HostedTests.Proofs.Session.Settling

namespace HostedTests

open Files

theorem Session.noticesTo_eq_told (s : Session) (p : Nat) :
    Workplace.noticesTo p s = s.told p := by
  apply List.filterMap_congr
  intro i hi
  cases i <;> rfl

namespace Workplace

structure Hosted (w : Workplace) (path : String) (s : Settings) (program : String) : Prop where
  sound : w.machine.tree.Sound
  loads : Settings.load w.machine.tree w.machine.base path = .ok s
  command : s.host.command = [program]
  reference : w.isReference program = true
  reaches : w.network.reaches = true

def IsFile (w : Workplace) (place : Place) : Prop :=
  ∃ octets, w.machine.tree.node? place = some (.file octets)

def Finds (w : Workplace) (source : String) (place : Place) : Prop :=
  w.machine.tree.locate true w.machine.base source = .ok place ∧ w.IsFile place

variable {w : Workplace}

theorem resolve_finds {source : String} {place : Place} (h : w.Finds source place) :
    w.resolve source = .ok (Machine.pathOf place) := by
  obtain ⟨hlocate, octets, hfile⟩ := h
  simp only [resolve, hlocate, Bind.bind, Except.bind, hfile, Option.isSome_some, if_true]
  rfl

theorem mapM_resolve {sources : List String} {places : List Place}
    (h : List.Forall₂ w.Finds sources places) :
    sources.mapM w.resolve = .ok (places.map Machine.pathOf) := by
  induction h with
  | nil => rfl
  | cons hfinds _ ih =>
    rw [List.mapM_cons, resolve_finds hfinds, ih]
    rfl

theorem directory_of_file (hsound : w.machine.tree.Sound) {place : Place} (h : w.IsFile place) :
    ∃ parent, Path.directory? (Machine.pathOf place) = some (Machine.pathOf parent) ∧
      w.machine.tree.node? parent = some .directory := by
  obtain ⟨octets, hfile⟩ := h
  rcases List.eq_nil_or_concat place with rfl | ⟨parent, name, rfl⟩
  · cases hfile
  · rw [List.concat_eq_append] at hfile ⊢
    have hparent := hsound.directories hfile parent.length (by simp)
    rw [List.take_left] at hparent
    exact ⟨parent, Path.directory?_pathOf (hsound.names hfile), hparent⟩

theorem extensions_found (hsound : w.machine.tree.Sound) (s : Settings) {places : List Place}
    (hfiles : ∀ place ∈ places, w.IsFile place) :
    ∃ paths, (w.hostBehaviour s).extensions (places.map Machine.pathOf) = .ok paths := by
  refine ⟨_, HostCommand.extensions_eq ?_⟩
  intro source hsource
  obtain ⟨place, hplace, rfl⟩ := List.mem_map.mp hsource
  obtain ⟨parent, hdirectory, hparent⟩ := directory_of_file hsound (hfiles place hplace)
  rw [HostCommand.directoryOf, hdirectory]
  exact .inl (Tree.list_pathOf hsound w.machine.base hparent)

section

variable {path program : String} {s : Settings} {r : StartRequest} {places : List Place}

theorem startInfo_program (h : w.Hosted path s program) (port : Nat) {sources : List String}
    (hsources : sources ≠ []) :
    ∃ info, (w.hostBehaviour s).startInfo port sources = .ok info ∧ info.fileName = program := by
  have hwords : s.hostCommand.words = [program] := h.command
  change ∃ info, s.hostCommand.startInfo _ _ _ = .ok info ∧ _
  cases sources with
  | nil => exact absurd rfl hsources
  | cons source sources =>
    simp only [HostCommand.startInfo, hwords]
    exact ⟨_, rfl, rfl⟩

def listening (w : Workplace) (s : Settings) (kind : Manager.Kind) : Session :=
  { (w.session s kind).welcome observer [] false with
    server := (w.session s kind).server.start.2 }

theorem session_listens (w : Workplace) (s : Settings) (kind : Manager.Kind) :
    ((w.session s kind).welcome observer [] false).listen = (.ok 1, w.listening s kind) := by
  have hport : port? "1" = some 1 := by decide +kernel
  exact Session.listen_opens rfl rfl rfl hport

theorem step_managed_asks (h : w.Hosted path s program) (hfault : r.fault? = none)
    (hsources : r.sources = places.map Machine.pathOf) (hne : places ≠ [])
    (hfiles : ∀ place ∈ places, w.IsFile place) :
    ∃ t paths, (w.session s r.kind.manager).step .quiet [] (r.managed observer) =
        (.process w.hostProcess, t) ∧
      t.Listens observer 0 0 r.kind [] ∧ t.server.tells = true ∧ t.exitWait ≠ 0 ∧
      Conversation.sentAfter 0 t = [(r.kind.extensionsMessage paths).text, r.message.text] := by
  have hnonempty : r.sources ≠ [] := by
    rw [hsources]
    exact mt List.map_eq_nil_iff.mp hne
  obtain ⟨info, hinfo, hprogram⟩ := startInfo_program h 1 hnonempty
  obtain ⟨paths, hextensions⟩ := extensions_found h.sound s hfiles
  rw [← hsources] at hextensions
  have hlaunch : (w.hostBehaviour s).launch info = .ok ⟨w.hostProcess, true⟩ := by
    change (if w.isReference info.fileName then _ else _) = _
    rw [hprogram, h.reference, if_pos rfl, h.reaches]
  have hready := Session.step_managed_ready (s := w.session s r.kind.manager)
    rfl rfl rfl rfl rfl (session_listens w s r.kind.manager) hinfo hlaunch hextensions rfl rfl rfl
    rfl hfault rfl
  refine ⟨_, paths, hready, ?_, rfl, ?_, rfl⟩
  · exact Session.listens_register r.kind r.message.text rfl rfl rfl Nat.zero_lt_one rfl rfl rfl
  · change Settings.exitWait * 1000 ≠ 0
    decide

def Fits (w : Workplace) (s : Settings) (program : String) (r : StartRequest) : Prop :=
  ∀ m ∈ (ReferenceHost.fresh.answer (w.surroundings program) r).1,
    m.text.utf8ByteSize ≤ s.mostFrameOctets.toNat

def lastWords (s : Settings) (text : String) : String :=
  ((⟨.code 1, Text.Utf8.encode (text ++ "\n").toList⟩ : Exit).report s.stderrLimit.toNat).stderr

theorem operate_heard (h : w.Hosted path s program) (hfault : r.fault? = none)
    (hsources : r.sources = places.map Machine.pathOf) (hne : places ≠ [])
    (hfiles : ∀ place ∈ places, w.IsFile place) (hfits : w.Fits s program r) {b : Bool}
    {items : List (String × Notice)}
    (hreports : Reports r.kind b
      (ReferenceHost.fresh.answer (w.surroundings program) r).1 items) :
    ∃ (c : Conversation) (paths : List String),
      c.session.Listens observer 0 0 r.kind items ∧ c.session.server.tells = true ∧
      c.session.exitWait ≠ 0 ∧
      c.host = (({ ReferenceHost.fresh with extensions := paths } : ReferenceHost).answer
        (w.surroundings program) r).2 ∧
      w.operate s r.kind.manager (r.managed observer) = (.process w.hostProcess,
        ((c.lose s.stderrLimit.toNat).session.step .quiet [] .closeManager).2) := by
  obtain ⟨t, paths, hstep, hlistens, htells, hwait, hsent⟩ :=
    step_managed_asks h hfault hsources hne hfiles
  -- The host has both messages before it says anything, and the extensions make no difference.
  let asked := Conversation.ofSession t
  let answered := ({ ReferenceHost.fresh with extensions := paths } : ReferenceHost).answer
    (w.surroundings program) r
  have hsame : answered.1 = (ReferenceHost.fresh.answer (w.surroundings program) r).1 :=
    ReferenceHost.answer_extended paths r
  have hflat : [[], answered.1].flatten = answered.1 := by
    rw [List.flatten_cons, List.nil_append, List.flatten_singleton]
  have hreceive : asked.host.receiveAll (w.surroundings program) (asked.toHost.map .text) =
      ([[], answered.1], answered.2) := by
    change ReferenceHost.fresh.receiveAll _ ((Conversation.sentAfter 0 t).map .text) = _
    rw [hsent]
    exact ReferenceHost.receiveAll_request rfl paths r
  have hasked : asked.toHost.isEmpty = false := by
    change (Conversation.sentAfter 0 t).isEmpty = false
    rw [hsent]
    rfl
  rw [← hsame, ← hflat] at hreports
  have hsizes : ∀ m ∈ [[], answered.1].flatten, m.text.utf8ByteSize ≤ s.mostFrameOctets.toNat := by
    rw [hflat, hsame]
    exact hfits
  obtain ⟨operations, record, hsettle, hheard⟩ := Conversation.settle_reports hlistens hasked rfl
    hreceive hreports hsizes asked.toHost.length
  have hprogram : s.host.command.headD "" = program := by
    rw [h.command]
    rfl
  refine ⟨_, paths, hheard, ?_, ?_, ?_, ?_⟩
  · rw [hsettle]
    exact htells
  · rw [hsettle]
    exact hwait
  · rw [hsettle]
  · rw [operate, hstep, hprogram]

theorem operate_reports (h : w.Hosted path s program) (hfault : r.fault? = none)
    (hsources : r.sources = places.map Machine.pathOf) (hne : places ≠ [])
    (hfiles : ∀ place ∈ places, w.IsFile place) (hfits : w.Fits s program r)
    (hplain : r.isDebug = false) (hfree : (w.surroundings program).CrashFree r.sources) :
    let ended := w.operate s r.kind.manager (r.managed observer)
    ended.1 = .process w.hostProcess ∧ ∃ items, noticesTo 0 ended.2 = echoed items ∧
      Conclusive r.kind observer items ∧
      (w.surroundings program).Reported .fresh r (items.map Prod.snd) := by
  intro ended
  obtain ⟨ms, items, n, m, hanswer, hreports, hreported⟩ :=
    ReferenceHost.answer_reports (h := .fresh) hfree hplain
  have hmessages : Reports r.kind true
      (ReferenceHost.fresh.answer (w.surroundings program) r).1 items := by
    rw [hanswer]
    exact hreports
  obtain ⟨c, paths, hlistens, -, -, hhost, hoperate⟩ :=
    operate_heard h hfault hsources hne hfiles hfits hmessages
  -- It still serves, so it is not lost.
  have hserving : c.host.phase = .serving := by
    obtain ⟨_, _, _, _, hextended, -⟩ := ReferenceHost.answer_reports
      (h := { ReferenceHost.fresh with extensions := paths }) hfree hplain
    rw [hhost, hextended]
    rfl
  have hended := congrArg Prod.snd hoperate
  rw [Conversation.lose_serving hserving] at hended
  refine ⟨congrArg Prod.fst hoperate, items, ?_, hreports.conclusive observer, hreported⟩
  rw [Session.noticesTo_eq_told, hended]
  exact (Session.told_closed c.session 0).trans hlistens.told

theorem operate_crashes (h : w.Hosted path s program) (hfault : r.fault? = none)
    (hsources : r.sources = places.map Machine.pathOf) (hne : places ≠ [])
    (hfiles : ∀ place ∈ places, w.IsFile place) (hfits : w.Fits s program r) {text : String}
    (hcrash : (r.loaded.flatMap (w.surroundings program).lines).findSome? SourceLine.crash? =
      some text) :
    let ended := w.operate s r.kind.manager (r.managed observer)
    ended.1 = .process w.hostProcess ∧ ∃ items : List (String × Notice),
      noticesTo 0 ended.2 = echoed items ++ r.kind.lossBlock (lastWords s text) ∧
      ∀ i ∈ items, i.2.kind = .log := by
  intro ended
  obtain ⟨ms, host, hanswer, -, hwarnings⟩ := ReferenceHost.answer_crashes (h := .fresh) r hcrash
  obtain ⟨items, hreports, hlogs⟩ :=
    ReferenceHost.reports_warnings (w.surroundings program) r.kind hwarnings
  have hmessages : Reports r.kind false
      (ReferenceHost.fresh.answer (w.surroundings program) r).1 items := by
    rw [hanswer]
    exact hreports
  obtain ⟨c, paths, hlistens, htells, hwait, hhost, hoperate⟩ :=
    operate_heard h hfault hsources hne hfiles hfits hmessages
  have hcrashed : c.host.phase = .ended (.crashed text) := by
    obtain ⟨_, _, hextended, hphase, -⟩ := ReferenceHost.answer_crashes
      (h := { ReferenceHost.fresh with extensions := paths }) r hcrash
    rw [hhost, hextended]
    exact hphase
  have hended := congrArg Prod.snd hoperate
  have hlost := Conversation.lose_ended hcrashed s.stderrLimit.toNat
  refine ⟨congrArg Prod.fst hoperate, items, ?_, hlogs⟩
  rw [Session.noticesTo_eq_told, hended]
  refine (Session.told_closed _ 0).trans ?_
  rw [hlost]
  exact Session.told_lost hlistens hreports.concludes.any htells hwait (lastWords s text)

end

end Workplace

end HostedTests
