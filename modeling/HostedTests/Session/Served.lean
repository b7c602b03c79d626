import HostedTests.Session.Run

/-!
Sessions over a server that serves one host at a time. Each host has a line of its own. When the
line ends it is of no more use, and only after that the session is told that the connection is lost;
the server may be started again once that is dealt with. Between the two, and while the session
waits for the host's exit, anything else may happen.
-/

namespace HostedTests

inductive ServedStep where
  | request (s : Step)
  | client
  | acceptFails (system : String)
  | frame (text : String)
  | sendsFail (fault : ChannelFault)
  | lineEnds (fault : ChannelFault)
  | lossTold
  | waitEnds (wait : Nat)

structure Served where
  session : Session
  serving : Bool
  -- Why the connection was lost, if the session is not told of it yet.
  loss : Option ChannelFault
  turn : Nat
  -- For each wait for a host's exit, the turn of that host.
  finishing : List Nat

namespace Served

def fresh (port : Nat) (exitWait : Nat) (host : HostBehaviour) : Served :=
  ⟨.fresh (.fresh (toString port) none false true) .idle none host exitWait, false, none, 0, []⟩

def take (v : Served) (s : Step) : Served := { v with session := (v.session.step .quiet [] s).2 }

def finish (v : Served) (turn : Nat) : Served :=
  if v.turn = turn then v.take .finishServing else v

def isWaiting (v : Served) : Bool :=
  v.session.server.isOpen && !v.serving && v.loss.isNone && !v.finishing.contains v.turn

def endLine (v : Served) (fault : ChannelFault) : Served :=
  { v.take .endLine with serving := false, loss := some fault }

def tellLoss (v : Served) (fault : ChannelFault) : Served :=
  let cause := if v.session.server.isOpen then some fault else none
  let before := v.session.waits.length
  let v := { v.take (.beginDisconnect cause) with loss := none }
  if before < v.session.waits.length then { v with finishing := v.finishing ++ [v.turn] }
  else v.finish v.turn

def isRequest : Step → Bool
  | .connect | .replaceLine | .returnToLine _ | .disconnect _ | .beginDisconnect _
  | .endDisconnect _ | .endLine | .finishServing | .receive _ | .refuseSends _ | .collectFor _
  | .relay _ => false
  | _ => true

def request (v : Served) (s : Step) : Served :=
  let opens := v.session.server.isOpen
  let starts := v.session.server.starts
  let v := v.take s
  if !opens ∧ v.session.server.isOpen ∧ starts < v.session.server.starts then
    { v with turn := v.turn + 1 }
  else if v.serving ∧ !v.session.server.isOpen then v.endLine .disposed
  else v

def step (v : Served) : ServedStep → Served
  | .request s => if isRequest s then v.request s else v
  | .client =>
    if v.isWaiting then { (v.take .replaceLine).take .connect with serving := true } else v
  | .acceptFails system => if v.isWaiting then { v with loss := some (.listen system) } else v
  | .frame text => if v.serving then v.take (.receive text) else v
  | .sendsFail fault => if v.serving then v.take (.refuseSends (some fault)) else v
  | .lineEnds fault => if v.serving then v.endLine fault else v
  | .lossTold =>
    match v.loss with
    | none => v
    | some fault => v.tellLoss fault
  | .waitEnds wait =>
    match v.finishing[wait]? with
    | none => v
    | some turn =>
      let v := v.take (.endDisconnect wait)
      { v with finishing := v.finishing.eraseIdx wait }.finish turn

def after (v : Served) (steps : List ServedStep) : Served := steps.foldl step v

end Served

end HostedTests
