import HostedTests.Proofs.Files.Replacing
import HostedTests.Proofs.Settings.Document
import HostedTests.Proofs.Text.Utf8
import HostedTests.Settings.Store

namespace HostedTests.Settings

open Files

variable {t t' : Tree} {base : Place} {path : String} {s : Settings}

section Steps

variable {d : String} {made written : Tree} (hfault : s.fault? = none)
  (hparent : Path.parent? path = some d) (hmake : t.makeDirectories base d = (.ok (), made))
  (hwrite : made.write base (besidePath path) (Text.Utf8.encode s.text.toList) = .ok written)

include hfault hparent hmake hwrite

end Steps

end HostedTests.Settings
