import HostedTests.Fault
import HostedTests.Text.Utf8

/-!
Frames: a text with its length in front, in groups of seven bits, the lowest group first.
-/

namespace HostedTests.Frame

def prefixOf (n : Nat) : List UInt8 :=
  if n < 128 then [n.toUInt8] else (n % 128 + 128).toUInt8 :: prefixOf (n / 128)
termination_by n
decreasing_by omega

def lengthBound : Nat := 0x100000000

def encode (text : String) : Except ChannelFault (List UInt8) :=
  let body := Text.Utf8.encode text.toList
  if body.length < lengthBound then .ok (prefixOf body.length ++ body)
  else .error (.frameTooLarge body.length (lengthBound - 1))

inductive Ending where
  | closed
  | broken (system : String)
  deriving DecidableEq, Repr

structure Source where
  octets : List UInt8
  ending : Ending
  deriving DecidableEq, Repr

namespace Source

def fault (s : Source) : ChannelFault :=
  match s.ending with
  | .closed => .receive "failed to fill whole buffer"
  | .broken system => .receive system

def after (s : Source) (rest : List UInt8) : Source := { s with octets := rest }

end Source

inductive Prefix where
  | length (n : UInt32) (rest : List UInt8)
  | overflow (rest : List UInt8)
  | cut (octets : Nat)

def longestPrefix : Nat := 5

/-- The word with the group of an octet put in front of its `index` groups. -/
def withGroup (index : Nat) (n : UInt32) (b : UInt8) : UInt32 :=
  n ||| (b &&& 0x7F).toUInt32 <<< (7 * index).toUInt32

def readPrefix (index : Nat) (n : UInt32) : List UInt8 → Prefix
  | [] => .cut index
  | b :: rest =>
    -- A fifth group has room for four bits.
    if index + 1 = longestPrefix ∧ (b &&& 0x80 ≠ 0 ∨ 0x0F < b &&& 0x7F) then .overflow rest
    else if b &&& 0x80 = 0 then .length (withGroup index n b) rest
    else readPrefix (index + 1) (withGroup index n b) rest

def bodyText (body : List UInt8) : Except ChannelFault (Option String) :=
  match Text.Utf8.decode body with
  | .ok cs => .ok (some (String.ofList cs))
  | .error f => .error (.invalidFrame ("frame is not UTF-8: " ++ f.message))

/-- The next text of at most `most` octets, none at the end of the stream, and what is left. -/
def read (most : Nat) (s : Source) : Except ChannelFault (Option String) × Source :=
  match readPrefix 0 0 s.octets with
  | .cut 0 =>
    match s.ending with
    | .closed => (.ok none, s)
    | .broken _ => (.error s.fault, s)
  | .cut _ => (.error s.fault, s.after [])
  | .overflow rest => (.error (.invalidFrame "length prefix overflows u32"), s.after rest)
  | .length length rest =>
    let n := length.toNat
    if most < n then (.error (.frameTooLarge n most), s.after rest)
    else
      let body := rest.take n
      if body.length < n then (.error s.fault, s.after [])
      else (bodyText body, s.after (rest.drop n))

def settled : Except ChannelFault (Option String) → Bool
  | .ok none | .error (.receive _) => false
  | _ => true

/-- A read of these octets has to wait for more of them, or for the end of the stream. -/
def awaits (most : Nat) (octets : List UInt8) : Bool := !settled (read most ⟨octets, .closed⟩).1

theorem readPrefix_shorter {index : Nat} {n m : UInt32} {octets rest : List UInt8}
    (h : readPrefix index n octets = .length m rest) : rest.length < octets.length := by
  induction octets generalizing index n with
  | nil => simp [readPrefix] at h
  | cons b tail ih =>
    simp only [readPrefix] at h
    split at h
    · simp at h
    · split at h
      · simp only [Prefix.length.injEq] at h
        simp [← h.2]
      · have := ih h
        simp only [List.length_cons]
        omega

theorem read_shorter {most : Nat} {s : Source} {text : String}
    (h : (read most s).1 = .ok (some text)) :
    (read most s).2.octets.length < s.octets.length := by
  simp only [read] at h ⊢
  split at h <;> try (simp at h; done)
  · split at h <;> simp at h
  · rename_i n rest hp
    have := readPrefix_shorter hp
    split at h
    · simp at h
    · split at h
      · simp at h
      · rename_i h1 h2
        simp only [h1, h2, if_false, Source.after, List.length_drop]
        omega

structure Streamed where
  texts : List String
  fault : Option ChannelFault
  rest : Source

def readAllFrom (most : Nat) (done : List String) (s : Source) : Streamed :=
  match h : (read most s).1 with
  | .ok (some text) =>
    have := read_shorter h
    readAllFrom most (text :: done) (read most s).2
  | .ok none => ⟨done.reverse, none, (read most s).2⟩
  | .error f => ⟨done.reverse, some f, (read most s).2⟩
termination_by s.octets.length

def readAll (most : Nat) (s : Source) : Streamed := readAllFrom most [] s

end HostedTests.Frame
