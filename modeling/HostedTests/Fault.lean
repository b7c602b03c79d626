import HostedTests.Message.Normal
import HostedTests.Operation

namespace HostedTests

inductive ChannelFault where
  | send (system : String)
  | receive (system : String)
  | peerClosed
  | frameTooLarge (size most : Nat)
  | invalidFrame (what : String)
  | listen (system : String)
  | alreadyListening
  | disposed
  deriving DecidableEq, Repr

namespace ChannelFault

def message : ChannelFault → String
  | send system => "unable to send data over channel: " ++ system
  | receive system => "unable to read data from channel: " ++ system
  | peerClosed => "connection closed by remote peer"
  | frameTooLarge size most => s!"frame too large: {size} bytes (max {most})"
  | invalidFrame what => "invalid frame: " ++ what
  | listen system => "unable to listen for test host connection: " ++ system
  | alreadyListening => "server is already listening"
  | disposed => "channel has been disposed"

def causes (f : ChannelFault) : List String :=
  match f with
  | send system | receive system | listen system => [f.message, system]
  | _ => [f.message]

end ChannelFault

def Message.Fault.causes (f : Message.Fault) : List String := f.message :: f.detail?.toList

inductive CriteriaFault where
  | noDiscoverySource
  | noRunSource
  | noRunTest
  deriving DecidableEq, Repr

def CriteriaFault.message : CriteriaFault → String
  | noDiscoverySource => "discovery requires at least one source"
  | noRunSource => "test run requires at least one source"
  | noRunTest => "test run requires at least one test"

inductive RequestFault where
  | channel (f : ChannelFault)
  | message (f : Message.Fault)
  | notConnected
  | operationInProgress (kind : OperationKind)
  | invalidCriteria (f : CriteriaFault)
  | invalidConnectionString (text : String)
  | disposed

namespace RequestFault

def text : RequestFault → String
  | channel f => f.message
  | message f => f.message
  | notConnected => "no test host is connected"
  | operationInProgress kind => "a " ++ kind.name ++ " operation is already in progress"
  | invalidCriteria f => "invalid criteria: " ++ f.message
  | invalidConnectionString s => "invalid connection string " ++ Text.quoted s
  | disposed => "request sender has been disposed"

def causes (f : RequestFault) : List String :=
  match f with
  | channel f => f.causes
  | message f => f.causes
  | f => [f.text]

end RequestFault

/-- A fault that is only reported: what was tried, from the outside in, and what went wrong. -/
structure Trouble where
  causes : List String
  deriving DecidableEq, Repr

namespace Trouble

def of (what : String) : Trouble := ⟨[what]⟩

def within (t : Trouble) (context : String) : Trouble := ⟨context :: t.causes⟩

def text (t : Trouble) : String := ": ".intercalate t.causes

end Trouble

def ChannelFault.trouble (f : ChannelFault) : Trouble := ⟨f.causes⟩

def Message.Fault.trouble (f : Message.Fault) : Trouble := ⟨f.causes⟩

def RequestFault.trouble (f : RequestFault) : Trouble := ⟨f.causes⟩

end HostedTests
