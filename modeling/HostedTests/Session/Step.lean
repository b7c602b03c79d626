import HostedTests.Session.Behaviour

namespace HostedTests

inductive Step where
  | listen
  | awaitConnection
  | waitForExit (milliseconds : Nat)
  | sendExtensions (kind : OperationKind) (paths : List String)
  | discover (criteria : DiscoveryCriteria) (observer : Observer)
  | run (criteria : RunCriteria) (observer : Observer)
  | cancelRun
  | abortRun
  | endSession
  | hostExited (stderr : Option String)
  | close
  | leave
  | connect
  -- Another line is at hand from now on.
  | replaceLine
  -- One of the earlier lines is at hand again.
  | returnToLine (line : Nat)
  -- The connection is lost, and nothing else happens until that is dealt with.
  | disconnect (fault : Option ChannelFault)
  -- The connection is lost; a wait for the host's exit begins if there is to be one.
  | beginDisconnect (fault : Option ChannelFault)
  | endDisconnect (wait : Nat)
  -- Nothing passes over the line at hand any more.
  | endLine
  -- The server is through with its host and may be started again.
  | finishServing
  | receive (text : String)
  -- From now on sending over the line at hand fails, if there is a fault.
  | refuseSends (fault : Option ChannelFault)
  | setUp (sources : List String) (kind : OperationKind)
  | startDiscovery (criteria : DiscoveryCriteria) (observer : Observer)
  | startRun (criteria : RunCriteria) (observer : Observer)
  | prepareCollection
  | recordedMessages
  | cancelManagedRun
  | abortManagedRun
  | closeManager
  | launchedHostExits (stderr : Option String)
  | replaceHost (host : HostBehaviour)
  | collectFor (observer : Observer)
  | relay (notice : Notice)

inductive StepResult where
  | done
  | port (number : Nat)
  | flag (b : Bool)
  | process (number : Int)
  | texts (items : List String)
  | refused (f : RequestFault)
  | failed (t : Trouble)
  | inapplicable

inductive Act where
  | act (name : String) (step : Step) (hooks : List (Notice.Kind × List Act))

abbrev Hook := Notice.Kind × List Act

mutual

def Act.hooks : Act → Nat
  | .act _ _ hooks => hookCount hooks

def hookCount : List (Notice.Kind × List Act) → Nat
  | [] => 0
  | hook :: rest => hookSize hook + hookCount rest

def hookSize : Notice.Kind × List Act → Nat
  | (_, acts) => 1 + actHooks acts

def actHooks : List Act → Nat
  | [] => 0
  | a :: rest => a.hooks + actHooks rest

end

end HostedTests
