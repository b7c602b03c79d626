import HostedTests.Proofs.Files.Directory

namespace HostedTests.Files

open HostedTests.Files.Path

namespace Tree

variable {t t' t'' : Tree} {base q : Place} {p b ending : String} {octets : List UInt8}

end Tree

end HostedTests.Files
