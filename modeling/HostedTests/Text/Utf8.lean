namespace HostedTests.Text.Utf8

def encode (cs : List Char) : List UInt8 := cs.flatMap String.utf8EncodeChar

def size (cs : List Char) : Nat := cs.foldl (fun n c => n + c.utf8Size) 0

structure Fault where
  start : Nat
  -- How many octets after those are wrong; none when the text ends inside a character.
  wrong : Option Nat
  deriving DecidableEq, Repr

def Fault.message (f : Fault) : String :=
  match f.wrong with
  | some n => s!"invalid utf-8 sequence of {n} bytes from index {f.start}"
  | none => s!"incomplete utf-8 byte sequence from index {f.start}"

def lead (a : UInt8) : Option (Nat × UInt8 × UInt8) :=
  if 0xC2 ≤ a ∧ a ≤ 0xDF then some (1, 0x80, 0xBF)
  else if a = 0xE0 then some (2, 0xA0, 0xBF)
  else if a = 0xED then some (2, 0x80, 0x9F)
  else if 0xE1 ≤ a ∧ a ≤ 0xEF then some (2, 0x80, 0xBF)
  else if a = 0xF0 then some (3, 0x90, 0xBF)
  else if 0xF1 ≤ a ∧ a ≤ 0xF3 then some (3, 0x80, 0xBF)
  else if a = 0xF4 then some (3, 0x80, 0x8F)
  else none

def within (low high b : UInt8) : Bool := low ≤ b && b ≤ high

def isTail (b : UInt8) : Bool := within 0x80 0xBF b

def tailBits (b : UInt8) : Nat := b.toNat % 64

inductive Piece where
  | char (c : Char) (octets : Nat) (rest : List UInt8)
  | wrong (octets : Nat) (rest : List UInt8)
  | cut

def piece (a : UInt8) (rest : List UInt8) : Piece :=
  if a < 0x80 then .char (Char.ofNat a.toNat) 1 rest
  else
    match lead a with
    | none => .wrong 1 rest
    | some (1, _, _) =>
      match rest with
      | [] => .cut
      | b :: rest₁ =>
        if isTail b then .char (Char.ofNat (a.toNat % 32 * 64 + tailBits b)) 2 rest₁
        else .wrong 1 rest
    | some (2, low, high) =>
      match rest with
      | [] => .cut
      | b :: rest₁ =>
        if !within low high b then .wrong 1 rest
        else
          match rest₁ with
          | [] => .cut
          | c :: rest₂ =>
            if isTail c then
              .char (Char.ofNat ((a.toNat % 16 * 64 + tailBits b) * 64 + tailBits c)) 3 rest₂
            else .wrong 2 rest₁
    | some (_, low, high) =>
      match rest with
      | [] => .cut
      | b :: rest₁ =>
        if !within low high b then .wrong 1 rest
        else
          match rest₁ with
          | [] => .cut
          | c :: rest₂ =>
            if !isTail c then .wrong 2 rest₁
            else
              match rest₂ with
              | [] => .cut
              | d :: rest₃ =>
                if isTail d then
                  .char (Char.ofNat
                    (((a.toNat % 8 * 64 + tailBits b) * 64 + tailBits c) * 64 + tailBits d)) 4 rest₃
                else .wrong 3 rest₂

def Piece.rest : Piece → List UInt8
  | .char _ _ rest => rest
  | .wrong _ rest => rest
  | .cut => []

theorem rest_piece_le (a : UInt8) (rest : List UInt8) :
    (piece a rest).rest.length ≤ rest.length := by
  unfold piece
  repeat' split
  all_goals simp_all [Piece.rest]
  all_goals omega

def decodeFrom (start : Nat) (done : List Char) (octets : List UInt8) : Except Fault (List Char) :=
  match octets with
  | [] => .ok done.reverse
  | a :: rest =>
    have bound := rest_piece_le a rest
    match h : piece a rest with
    | .char c n rest' =>
      have fits : rest'.length ≤ rest.length := by
        rw [h] at bound
        exact bound
      decodeFrom (start + n) (c :: done) rest'
    | .wrong n _ => .error ⟨start, some n⟩
    | .cut => .error ⟨start, none⟩
termination_by octets.length
decreasing_by all_goals exact Nat.lt_succ_of_le fits

def decode (octets : List UInt8) : Except Fault (List Char) := decodeFrom 0 [] octets

def replacement : Char := '\uFFFD'

def repairFrom (done : List Char) (octets : List UInt8) : List Char :=
  match octets with
  | [] => done.reverse
  | a :: rest =>
    have bound := rest_piece_le a rest
    match h : piece a rest with
    | .char c _ rest' =>
      have fits : rest'.length ≤ rest.length := by
        rw [h] at bound
        exact bound
      repairFrom (c :: done) rest'
    | .wrong _ rest' =>
      have fits : rest'.length ≤ rest.length := by
        rw [h] at bound
        exact bound
      repairFrom (replacement :: done) rest'
    | .cut => (replacement :: done).reverse
termination_by octets.length
decreasing_by all_goals exact Nat.lt_succ_of_le fits

def repair (octets : List UInt8) : String := String.ofList (repairFrom [] octets)

end HostedTests.Text.Utf8
