import HostedTests.Channel.Basic

/-!
The listener that hosts connect to. Each start opens a turn for one host, unless the turn before is
still under way. A turn reports the connection of its host, then the texts that arrive, and last
that the connection is over, with the fault that ended it unless the listener was stopped.
-/

namespace HostedTests

inductive Report where
  | connected
  | received (text : String)
  | disconnected (fault : Option ChannelFault)
  deriving DecidableEq, Repr

namespace Listener

inductive Event where
  -- Binding a port may be refused by the system.
  | start (subscribes : Bool) (refusal : Option String)
  | stop
  | client (c : Nat)
  | acceptFails (system : String)
  | arrives (c : Nat) (octets : List UInt8)
  | ends (c : Nat)
  | fails (c : Nat) (system : String)
  deriving DecidableEq, Repr

structure Connection where
  client : Nat
  channel : Channel Unit
  -- Nothing more arrives, so that no read has to wait.
  ended : Bool

namespace Connection

def waits (k : Connection) : Bool :=
  !k.ended && !k.channel.disposed && Frame.awaits k.channel.mostOctets k.channel.source.octets

def extend (k : Connection) (octets : List UInt8) : Connection :=
  { k with channel.source.octets := k.channel.source.octets ++ octets }

def close (k : Connection) (ending : Frame.Ending) : Connection :=
  { k with channel.source.ending := ending, ended := true }

def shutdown (k : Connection) : Connection := { k with channel := k.channel.dispose, ended := true }

end Connection

structure Turn where
  -- Whoever is told of the connection subscribes to what arrives over it.
  subscribes : Bool
  stopped : Bool
  finished : Bool
  connection : Option Connection
  reports : List Report

namespace Turn

def fresh (subscribes : Bool) : Turn := ⟨subscribes, false, false, none, []⟩

def report (t : Turn) (rs : List Report) : Turn := { t with reports := t.reports ++ rs }

def serve (t : Turn) (k : Connection) : Turn :=
  if k.waits then { t with connection := some k }
  else
    match _h : k.channel.notify with
    | (.ok receipt, channel) =>
      (t.report (receipt.map fun r => .received r.2).toList).serve { k with channel }
    | (.error f, channel) =>
      { t.report [.disconnected (if t.stopped then none else some f)] with
        connection := some { k with channel := channel.dispose }, finished := true }
termination_by k.channel.source.octets.length
decreasing_by exact Channel.notify_shorter _h

def settle (t : Turn) : Turn :=
  if t.finished then t
  else
    match t.connection with
    | none => { t with finished := t.stopped }
    | some k => t.serve k

def isListening (t : Turn) : Bool := !t.finished && t.connection.isNone

def accept (t : Turn) (most c : Nat) : Turn :=
  if t.isListening then
    let channel := Channel.fresh ⟨[], .closed⟩ .willing most
    let subscriber := if t.subscribes then some () else none
    { t.report [.connected] with
      connection := some ⟨c, channel.subscribe subscriber, false⟩ }.settle
  else t

def failAccept (t : Turn) (system : String) : Turn :=
  if t.isListening then
    { t.report [.disconnected (some (.listen system))] with finished := true }
  else t

def hear (t : Turn) (c : Nat) (f : Connection → Connection) : Turn :=
  match t.connection with
  | none => t
  | some k =>
    if k.client = c ∧ !t.finished ∧ !k.ended then { t with connection := some (f k) }.settle
    else t

def meet (t : Turn) (most : Nat) : Event → Turn
  | .start _ _ | .stop => t
  | .client c => t.accept most c
  | .acceptFails system => t.failAccept system
  | .arrives c octets => t.hear c fun k => k.extend octets
  | .ends c => t.hear c fun k => k.close .closed
  | .fails c system => t.hear c fun k => k.close (.broken system)

def shutdown (t : Turn) : Turn :=
  { t with stopped := true, connection := t.connection.map Connection.shutdown }.settle

end Turn

end Listener

structure Listener where
  mostOctets : Nat
  turns : List Listener.Turn
  -- The turn that a stop would end, if there is one.
  held : Option Nat

namespace Listener

def fresh (mostOctets : Nat) : Listener := ⟨mostOctets, [], none⟩

def isOpen (l : Listener) : Bool := (l.held.bind fun i => l.turns[i]?).any fun t => !t.finished

def start (l : Listener) (subscribes : Bool) (refusal : Option String) :
    Except ChannelFault Unit × Listener :=
  if l.isOpen then (.error .alreadyListening, l)
  else
    match refusal with
    | some system => (.error (.listen system), l)
    | none =>
      (.ok (), { l with turns := l.turns ++ [.fresh subscribes], held := some l.turns.length })

def stop (l : Listener) : Listener :=
  match l.held with
  | none => l
  | some i => { l with turns := l.turns.modify i Turn.shutdown, held := none }

def step (l : Listener) : Event → Except ChannelFault Unit × Listener
  | .start subscribes refusal => l.start subscribes refusal
  | .stop => (.ok (), l.stop)
  | e => (.ok (), { l with turns := l.turns.map (·.meet l.mostOctets e) })

def after (l : Listener) (events : List Event) : Listener :=
  events.foldl (fun l e => (l.step e).2) l

end Listener

end HostedTests
