import HostedTests.Session.Management

namespace HostedTests

namespace StepResult

def ofRequest : Except RequestFault Unit → StepResult
  | .ok () => .done
  | .error f => .refused f

def ofTrouble : Except Trouble Unit → StepResult
  | .ok () => .done
  | .error t => .failed t

def ofProcess : Except Trouble Nat → StepResult
  | .ok number => .process number
  | .error t => .failed t

end StepResult

namespace Session

variable (react : Reaction)

def nextParty (s : Session) : Nat := s.parties.length

def welcome (s : Session) (observer : Observer) (hooks : List Hook) (collects : Bool) : Session :=
  s.enroll ⟨observer, hooks, if collects then some .fresh else none⟩

def managerFor (s : Session) (kinds : List Manager.Kind) : Option Manager :=
  s.manager.filter fun m => m.kind ∈ kinds

def step (s : Session) (hooks : List Hook) : Step → StepResult × Session
  | .listen =>
    match s.listen with
    | (.ok port, s) => (.port port, s)
    | (.error f, s) => (.refused f, s)
  | .awaitConnection => (.flag s.connected, s)
  | .waitForExit milliseconds => (.done, { s with exitWait := milliseconds })
  | .sendExtensions kind paths =>
    let (r, s) := s.send (kind.extensionsMessage paths)
    (.ofRequest r, s)
  | .discover criteria observer =>
    let (r, s) := (s.welcome observer hooks false).discover react criteria s.nextParty
    (.ofRequest r, s)
  | .run criteria observer =>
    let (r, s) := (s.welcome observer hooks false).run react criteria s.nextParty
    (.ofRequest r, s)
  | .cancelRun =>
    let (r, s) := s.send (.signal .cancelRun)
    (.ofRequest r, s)
  | .abortRun =>
    let (r, s) := s.send (.signal .abortRun)
    (.ofRequest r, s)
  | .endSession =>
    let (r, s) := s.endSession
    (.ofRequest r, s)
  | .hostExited stderr => (.done, s.hostExited react stderr)
  | .close => (.done, s.close)
  | .leave => (.done, s.leave)
  | .connect => (.flag s.server.tells, if s.server.tells then s.connect s.front else s)
  | .replaceLine =>
    (.done, { s with lines := s.lines ++ [.fresh], front := s.lines.length })
  | .returnToLine line => (.done, if line < s.lines.length then { s with front := line } else s)
  | .disconnect fault =>
    (.flag s.server.tells, if s.server.tells then s.disconnect react fault else s)
  | .beginDisconnect fault =>
    (.flag s.server.tells, if s.server.tells then s.beginDisconnect react fault else s)
  | .endDisconnect wait => (.done, s.endDisconnect react wait)
  | .endLine => (.done, (s.subscribe s.front none).refuse s.front (some .disposed))
  | .finishServing => (.done, { s with server := { s.server with isOpen := false } })
  | .receive text =>
    let (r, s) := s.receive react s.front text
    (.flag r, s)
  | .refuseSends fault => (.done, s.refuse s.front fault)
  | .setUp sources kind =>
    match s.managerFor [.operation] with
    | none => (.inapplicable, s)
    | some m =>
      let (r, s) := s.setUp m sources kind
      (.ofProcess r, s)
  | .startDiscovery criteria observer =>
    match s.managerFor [.discovery] with
    | none => (.inapplicable, s)
    | some m =>
      let (r, s) := (s.welcome observer hooks false).startDiscovery react m criteria s.nextParty
      (.ofProcess r, s)
  | .startRun criteria observer =>
    match s.managerFor [.execution, .collecting] with
    | none => (.inapplicable, s)
    | some m =>
      let (r, s) := (s.welcome observer hooks (m.kind = .collecting)).startRun react m criteria
        s.nextParty
      (.ofProcess r, s)
  | .prepareCollection =>
    match s.managerFor [.collecting] with
    | none => (.inapplicable, s)
    | some _ =>
      let (r, s) := s.prepareCollection
      (.ofTrouble r, s)
  | .recordedMessages =>
    match s.managerFor [.collecting] with
    | none => (.inapplicable, s)
    | some m => (.texts m.recorded, s)
  | .cancelManagedRun =>
    match s.managerFor [.execution, .collecting] with
    | none => (.inapplicable, s)
    | some m =>
      let (r, s) := s.cancelManagedRun m
      (.ofTrouble r, s)
  | .abortManagedRun =>
    match s.managerFor [.execution, .collecting] with
    | none => (.inapplicable, s)
    | some _ =>
      let (r, s) := s.abortManagedRun
      (.ofTrouble r, s)
  | .closeManager => if s.manager.isNone then (.inapplicable, s) else (.done, s.closeManager)
  | .launchedHostExits stderr =>
    if s.running = 0 then (.flag false, s)
    else (.flag true, { s with running := s.running - 1 }.hostExited react stderr)
  | .replaceHost host => (.done, { s with host })
  | .collectFor observer =>
    let p := s.nextParty
    let s := s.welcome observer hooks true
    (.done, { s with collected := some p })
  | .relay notice =>
    match s.collected with
    | none => (.inapplicable, s)
    | some p =>
      match notice with
      | .launchUnderDebugger info =>
        match s.launchUnderDebugger react p info with
        | (.ok process, s) => (.process process.toInt, s)
        | (.error t, s) => (.failed t, s)
      | notice => (.done, s.deliver react p notice)

def after (s : Session) (steps : List Step) : Session :=
  steps.foldl (fun s step => (s.step .quiet [] step).2) s

def takeHook (s : Session) (p : Nat) (kind : Notice.Kind) : List Act × Session :=
  match s.parties[p]? with
  | none => ([], s)
  | some party =>
    match party.hooks.find? fun h => h.1 = kind with
    | none => ([], s)
    | some h =>
      let party := { party with hooks := party.hooks.eraseP fun h => h.1 = kind }
      (h.2, { s with parties := s.parties.set p party })

def act (s : Session) : Act → StepResult × Session
  | .act _ step hooks => s.step react hooks step

end Session

def Act.name : Act → String
  | .act name _ _ => name

namespace Reaction

def hooked : Nat → Reaction
  | 0 => quiet
  | depth + 1 => fun p notice s =>
    let (acts, s) := s.takeHook p notice.kind
    acts.foldl (fun s a =>
      let (r, s) := s.act (hooked depth) a
      s.note (.acted a.name r)) s

end Reaction

end HostedTests
