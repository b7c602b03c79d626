import HostedTests.Clock.TimeSpan
import HostedTests.Host.Command

namespace HostedTests

structure HostSettings where
  command : List String
  -- Files beside the sources whose names contain this are adapters.
  adapterPattern : String
  deriving DecidableEq, Repr

structure Settings where
  connectionTimeout : UInt64
  mostFrameOctets : UInt64
  stderrLimit : UInt64
  host : HostSettings
  deriving DecidableEq, Repr

inductive SettingsFault where
  | noTimeout
  | noFrames
  | noStderr
  | noCommand
  deriving DecidableEq, Repr

def SettingsFault.message : SettingsFault → String
  | noTimeout => "connection_timeout_secs must be > 0"
  | noFrames => "max_frame_bytes must be > 0"
  | noStderr => "stderr_limit_bytes must be > 0"
  | noCommand => "testhost.command must be a non-empty array"

namespace HostSettings

def default : HostSettings := ⟨["testhost"], ".TestAdapter."⟩

def hasProgram (h : HostSettings) : Bool :=
  match h.command with
  | [] => false
  | program :: _ => !Text.allBlank program

end HostSettings

namespace Settings

def default : Settings := ⟨90, 67108864, 4096, .default⟩

def fault? (s : Settings) : Option SettingsFault :=
  if s.connectionTimeout = 0 then some .noTimeout
  else if s.mostFrameOctets = 0 then some .noFrames
  else if s.stderrLimit = 0 then some .noStderr
  else if !s.host.hasProgram then some .noCommand
  else none

def exitWait : Nat := 2

def hostCommand (s : Settings) : HostCommand :=
  ⟨s.host.command, s.host.adapterPattern, s.stderrLimit.toNat⟩

end Settings

end HostedTests
