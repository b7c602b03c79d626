namespace HostedTests

namespace Chunks

def fill {α : Type} (most room : Nat) (chunk : List α) : List α → List (List α)
  | [] => if chunk.isEmpty then [] else [chunk.reverse]
  | a :: rest =>
    match room with
    | 0 => chunk.reverse :: fill most (most - 1) [a] rest
    | room + 1 => fill most room (a :: chunk) rest

end Chunks

def chunks {α : Type} (most : Nat) (items : List α) : List (List α) :=
  Chunks.fill (max 1 most) (max 1 most) [] items

def chunkSize (frequency : Int64) : Nat := max 1 frequency.toInt.toNat

end HostedTests
