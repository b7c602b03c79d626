import HostedTests.Files.Tree

namespace HostedTests

structure Network where
  reaches : Bool
  deriving DecidableEq, Repr

namespace Network

def accept (n : Network) : Except Files.SystemFault Unit :=
  if n.reaches then .ok () else .error .notReady

end Network

end HostedTests
