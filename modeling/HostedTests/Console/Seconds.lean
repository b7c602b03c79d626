import HostedTests.Clock.TimeSpan
import HostedTests.Number.Binary64
import HostedTests.Text.Decimal

/-!
Seconds with two places: the float nearest to a time span, rounded to hundredths. A tie goes to the
even neighbour.
-/

namespace HostedTests.Console

open Number (Binary64)

def floatSeconds (t : Clock.TimeSpan) : Option Binary64 := do
  let seconds ← Binary64.ofRatio t.seconds 1
  let rest ← Binary64.ofRatio t.nanos 1000000000
  let (n, d) := seconds.ratio
  let (m, e) := rest.ratio
  Binary64.ofRatio (n * e + m * d) (d * e)

def hundredths (t : Clock.TimeSpan) : Nat :=
  match floatSeconds t with
  | none => 0
  | some x => Binary64.roundHalfEven (x.ratio.1 * 100) x.ratio.2

def secondsText (t : Clock.TimeSpan) : String :=
  let h := hundredths t
  String.ofList (Text.decimal (h / 100) ++ '.' :: Text.padded 2 (h % 100))

end HostedTests.Console
