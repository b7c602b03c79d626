import HostedTests.Host.Process
import HostedTests.Proofs.Chunks

namespace HostedTests

namespace Capture

def captured (limit : Nat) (seen : List UInt8) : Capture := ⟨seen.take limit, seen.length - limit⟩

@[simp] theorem captured_nil (limit : Nat) : captured limit [] = empty := by
  simp [captured, empty]

theorem take_captured (limit : Nat) (seen octets : List UInt8) :
    (captured limit seen).take limit octets = captured limit (seen ++ octets) := by
  have hkept : (captured limit seen).kept.length = min limit seen.length := List.length_take
  have hlength : (seen ++ octets).length = seen.length + octets.length := List.length_append
  rw [take]
  dsimp only
  rw [hkept]
  by_cases hfull : limit ≤ seen.length
  · rw [if_pos (by omega)]
    simp only [captured, mk.injEq]
    constructor
    · rw [List.take_append_of_le_length hfull]
    · omega
  · have hall : seen.take limit = seen := List.take_of_length_le (by omega)
    rw [if_neg (by omega)]
    simp only [captured, mk.injEq]
    constructor
    · -- As many are taken as there is room for, or all that there are.
      rw [List.take_append, hall, List.take_eq_take_min (i := limit - seen.length)]
      congr 2
      omega
    · omega

theorem drain_reads (limit : Nat) {parts : List (List UInt8)} (h : [] ∉ parts)
    (seen : List UInt8) (later : List Read) :
    drain limit (captured limit seen) (parts.map .ok ++ .ok [] :: later) =
      .ok (captured limit (seen ++ parts.flatten), later) := by
  induction parts generalizing seen with
  | nil => simp [drain]
  | cons part parts ih =>
    obtain ⟨hpart, hparts⟩ := not_or.mp (mt List.mem_cons.mpr h)
    obtain ⟨octet, octets, rfl⟩ := List.exists_cons_of_ne_nil (Ne.symm hpart)
    rw [List.map_cons, List.cons_append, drain, take_captured, ih hparts, List.flatten_cons,
      List.append_assoc]
    simp

theorem ofStream_eq (limit : Nat) (octets : List UInt8) :
    ofStream limit octets = captured limit octets := by
  have hparts : [] ∉ chunks mostPerRead octets := by
    intro hmem
    exact Nat.lt_irrefl 0 (length_of_mem_chunks hmem).1
  have hdrain := drain_reads limit hparts [] []
  rw [captured_nil, List.nil_append, flatten_chunks] at hdrain
  rw [ofStream, ofReads, reads, hdrain]

theorem captured_however_read (limit : Nat) (octets : List UInt8) (parts : List (List UInt8))
    (later : List Read) (hparts : [] ∉ parts) (hoctets : parts.flatten = octets) :
    let kept := min limit octets.length
    drain limit empty (parts.map .ok ++ .ok [] :: later) =
        .ok (⟨octets.take kept, octets.length - kept⟩, later) ∧
      ∀ e : Exit, e.stderr = octets → e.report limit =
        ⟨e.termination, Text.Utf8.repair (octets.take kept), octets.length - kept⟩ := by
  intro kept
  have hcaptured : captured limit octets = ⟨octets.take kept, octets.length - kept⟩ := by
    simp only [captured, mk.injEq]
    exact ⟨List.take_eq_take_min, by omega⟩
  constructor
  · have hdrain := drain_reads limit hparts [] later
    rwa [captured_nil, List.nil_append, hoctets, hcaptured] at hdrain
  · rintro e rfl
    rw [Exit.report, ofStream_eq, hcaptured]

theorem captured_however_read_straddling :
    drain 4 empty [.ok [97, 98], .ok [99, 100, 101], .ok [102], .ok [], .ok [103]] =
        .ok (⟨[97, 98, 99, 100], 2⟩, [.ok [103]]) ∧
      (⟨.code 0, [97, 98, 99, 100, 101, 102]⟩ : Exit).report 4 = ⟨.code 0, "abcd", 2⟩ := by
  have hread := captured_however_read 4 [97, 98, 99, 100, 101, 102]
    [[97, 98], [99, 100, 101], [102]] [.ok [103]] (by decide) rfl
  have hrepair : Text.Utf8.repair [97, 98, 99, 100] = "abcd" := by decide +kernel
  refine ⟨hread.1, (hread.2 ⟨.code 0, _⟩ rfl).trans ?_⟩
  exact congrArg (ProcessReport.mk (.code 0) · 2) hrepair

end Capture

end HostedTests
