import HostedTests.Chunks
import HostedTests.Fault

namespace HostedTests

structure Capture where
  kept : List UInt8
  dropped : Nat
  deriving DecidableEq, Repr

namespace Capture

/-- What one read of a stream gives. At the end of the stream it gives nothing. -/
abbrev Read := Except String (List UInt8)

def empty : Capture := ⟨[], 0⟩

def take (limit : Nat) (c : Capture) (octets : List UInt8) : Capture :=
  let room := limit - c.kept.length
  if room = 0 then { c with dropped := c.dropped + octets.length }
  else
    let n := min octets.length room
    ⟨c.kept ++ octets.take n, c.dropped + (octets.length - n)⟩

def drain (limit : Nat) (c : Capture) : List Read → Except Trouble (Capture × List Read)
  | [] => .ok (c, [])
  | .error why :: _ => .error ((Trouble.of why).within "read output")
  | .ok [] :: later => .ok (c, later)
  | .ok octets :: later => drain limit (c.take limit octets) later

def mostPerRead : Nat := 8192

def reads (octets : List UInt8) : List Read :=
  (chunks mostPerRead octets).map .ok ++ [.ok []]

/-- Nothing is known of a stream that could not be read to its end. -/
def ofReads (limit : Nat) (reads : List Read) : Capture :=
  match drain limit empty reads with
  | .ok (c, _) => c
  | .error _ => empty

def ofStream (limit : Nat) (octets : List UInt8) : Capture := ofReads limit (reads octets)

end Capture

end HostedTests
