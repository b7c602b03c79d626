import HostedTests.Settings.Basic
import HostedTests.Toml.Quoted

namespace HostedTests

def quotedText (s : String) : String := String.ofList (Toml.Quoted.write s.toList)

def textOfList : List String → String
  | [] => "[]"
  | [s] => "[" ++ quotedText s ++ "]"
  | items => "[\n" ++ String.join (items.map fun s => "    " ++ quotedText s ++ ",\n") ++ "]"

def HostSettings.text (h : HostSettings) : String :=
  "[testhost]\n" ++ "command = " ++ textOfList h.command ++ "\n" ++
    "adapter_pattern = " ++ quotedText h.adapterPattern ++ "\n"

def Settings.text (s : Settings) : String :=
  s!"connection_timeout_secs = {s.connectionTimeout.toNat}\n" ++
    s!"max_frame_bytes = {s.mostFrameOctets.toNat}\n" ++
    s!"stderr_limit_bytes = {s.stderrLimit.toNat}\n" ++ "\n" ++ s.host.text ++ "\n"

end HostedTests
