import HostedTests.Settings.Basic
import HostedTests.Toml.Document

/-!
Settings in a TOML document. What the document does not set has its default, and what it sets beyond
that is ignored. A list in place of the host's table names its settings in order.
-/

namespace HostedTests

open Toml (Value Members)

namespace Settings

def setting {α : Type} (bind : Value → Option α) (fallback : α) (ms : Members) (key : String) :
    Option α :=
  match ms.get? key with
  | none => some fallback
  | some v => bind v

def natural? : Value → Option UInt64
  | .integer i => if 0 ≤ i ∧ i < 0x10000000000000000 then some (UInt64.ofNat i.toNat) else none
  | _ => none

def text? : Value → Option String
  | .text s => some s
  | _ => none

def texts? : Value → Option (List String)
  | .list _ items => items.mapM text?
  | _ => none

end Settings

def HostSettings.ofValue? : Value → Option HostSettings
  | .table _ ms => do
    let command ← Settings.setting Settings.texts? HostSettings.default.command ms "command"
    let pattern ← Settings.setting Settings.text? HostSettings.default.adapterPattern ms
      "adapter_pattern"
    return ⟨command, pattern⟩
  | .list _ [] => some .default
  | .list _ [command] =>
    (Settings.texts? command).map fun command => { HostSettings.default with command }
  | .list _ (command :: pattern :: _) => do
    return ⟨← Settings.texts? command, ← Settings.text? pattern⟩
  | .moment => some .default
  | _ => none

def Settings.ofMembers? (ms : Members) : Option Settings := do
  let timeout ← setting natural? Settings.default.connectionTimeout ms "connection_timeout_secs"
  let frames ← setting natural? Settings.default.mostFrameOctets ms "max_frame_bytes"
  let stderr ← setting natural? Settings.default.stderrLimit ms "stderr_limit_bytes"
  let host ← setting HostSettings.ofValue? HostSettings.default ms "testhost"
  return ⟨timeout, frames, stderr, host⟩

def Settings.parse? (text : String) : Option Settings := (Toml.parse text).bind ofMembers?

end HostedTests
