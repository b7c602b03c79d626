import HostedTests.Proofs.Toml.Document
import HostedTests.Settings.Document
import HostedTests.Settings.Printer

namespace HostedTests

open Toml

theorem toList_quotedText (s : String) : (quotedText s).toList = Quoted.write s.toList := by
  simp [quotedText]

variable {root root' : Members} {path : List String} {key : List Char}

theorem reads_items (texts items : List String) :
    Reads (items.flatMap fun s => [' ', ' ', ' ', ' '] ++ Quoted.write s.toList ++ [','] ++ ['\n'])
      (inList root path key texts .value)
      (inList root path key (items.reverse ++ texts) .value) := by
  induction items generalizing texts with
  | nil => exact ⟨[], fun _ => rfl, rfl⟩
  | cons s items ih =>
    have hitem : Reads _ (inList root path key texts .value)
        (inList root path key (String.ofList s.toList :: texts) .value) :=
      reads_item texts s.toList
    rw [String.ofList_toList] at hitem
    have hrest := hitem.append (ih (s :: texts))
    rw [List.flatMap_cons, List.reverse_cons, List.append_assoc items.reverse]
    exact hrest

theorem reads_list (hkey : IsKey key) (items : List String)
    (hput : Puts path key (.list false (items.map .text)) root root') :
    Reads (key ++ [' ', '=', ' '] ++ (textOfList items).toList ++ ['\n'])
      ⟨root, path, [], .lineStart⟩ ⟨root', path, [], .lineStart⟩ := by
  have hopen : Reads (key ++ [' ', '=', ' '] ++ ['[']) ⟨root, path, [], .lineStart⟩
      (inList root path key [] .value) := reads_open hkey
  have hrest : ∃ cs, (textOfList items).toList = '[' :: cs ∧
      Reads cs (inList root path key [] .value) ⟨root', path, [], .lineEnd⟩ := by
    match items with
    | [] => exact ⟨[']'], rfl, reads_close hput⟩
    | [s] =>
      refine ⟨Quoted.write s.toList ++ [']'], ?_, reads_only ?_⟩
      · simp [textOfList, toList_quotedText]
      · rwa [String.ofList_toList]
    | s :: s' :: items =>
      have hitems : Reads _ (inList root path key [] .value)
          (inList root path key ((s :: s' :: items).reverse ++ []) .value) :=
        (reads_newline_inList []).append (reads_items [] (s :: s' :: items))
      refine ⟨_, ?_, hitems.append (reads_close ?_)⟩
      · simp [textOfList, toList_quotedText, String.toList_join, List.flatMap_map]
      · rwa [List.append_nil, List.reverse_reverse]
  obtain ⟨cs, htext, hread⟩ := hrest
  have hall := (hopen.append hread).append reads_newline_end
  simpa [htext] using hall

namespace Settings

theorem toList_text (s : Settings) :
    s.text.toList =
      ("connection_timeout_secs = ".toList ++ Text.decimal s.connectionTimeout.toNat ++ ['\n']) ++
        ("max_frame_bytes = ".toList ++ Text.decimal s.mostFrameOctets.toNat ++ ['\n']) ++
        ("stderr_limit_bytes = ".toList ++ Text.decimal s.stderrLimit.toNat ++ ['\n']) ++
        ['\n'] ++ "[testhost]\n".toList ++
        ("command = ".toList ++ (textOfList s.host.command).toList ++ ['\n']) ++
        ("adapter_pattern = ".toList ++ Quoted.write s.host.adapterPattern.toList ++ ['\n']) ++
        ['\n'] := by
  have hnumber (n : Nat) : (toString n).toList = Text.decimal n := by
    rw [Nat.toString_eq_repr, Nat.toList_repr, Text.decimal]
  have hline : "\n".toList = ['\n'] := rfl
  have hself (s : String) : toString s = s := rfl
  unfold text HostSettings.text
  rw [← hnumber, ← hnumber, ← hnumber, ← toList_quotedText, ← hline]
  -- What stands between the fixed parts does not matter, and is in the way of the rewriting.
  generalize textOfList s.host.command = command
  generalize quotedText s.host.adapterPattern = pattern
  generalize toString s.connectionTimeout.toNat = connection
  generalize toString s.mostFrameOctets.toNat = frames
  generalize toString s.stderrLimit.toNat = stderr
  simp only [String.toList_append, hself, List.append_assoc]

def members (s : Settings) : Members :=
  [("connection_timeout_secs", .integer s.connectionTimeout.toNat),
    ("max_frame_bytes", .integer s.mostFrameOctets.toNat),
    ("stderr_limit_bytes", .integer s.stderrLimit.toNat),
    ("testhost", .table .header [("command", .list false (s.host.command.map .text)),
      ("adapter_pattern", .text s.host.adapterPattern)])]

def underway (s : Settings) (count : Nat) : Members :=
  s.members.take 3 ++ [("testhost", .table .header ([("command",
    .list false (s.host.command.map .text)), ("adapter_pattern", .text s.host.adapterPattern)].take
      count))]

theorem reads_document (s : Settings) :
    Reads s.text.toList .start ⟨s.members, ["testhost"], [], .lineStart⟩ := by
  have hconnection : Reads _ ⟨[], [], [], .lineStart⟩ ⟨s.members.take 1, [], [], .lineStart⟩ :=
    reads_integer (by decide : IsKey "connection_timeout_secs".toList)
      s.connectionTimeout.toNat_lt rfl
  have hframes : Reads _ ⟨s.members.take 1, [], [], .lineStart⟩
      ⟨s.members.take 2, [], [], .lineStart⟩ :=
    reads_integer (by decide : IsKey "max_frame_bytes".toList)
      s.mostFrameOctets.toNat_lt rfl
  have hstderr : Reads _ ⟨s.members.take 2, [], [], .lineStart⟩
      ⟨s.members.take 3, [], [], .lineStart⟩ :=
    reads_integer (by decide : IsKey "stderr_limit_bytes".toList)
      s.stderrLimit.toNat_lt rfl
  have hheader : Reads _ ⟨s.members.take 3, [], [], .lineStart⟩
      ⟨s.underway 0, ["testhost"], [], .lineStart⟩ :=
    reads_header (by decide : IsKey "testhost".toList) rfl
  have hcommand : Reads _ ⟨s.underway 0, ["testhost"], [], .lineStart⟩
      ⟨s.underway 1, ["testhost"], [], .lineStart⟩ :=
    reads_list (by decide : IsKey "command".toList) s.host.command rfl
  have hpattern : Reads _ ⟨s.underway 1, ["testhost"], [], .lineStart⟩
      ⟨s.members, ["testhost"], [], .lineStart⟩ :=
    reads_text (by decide : IsKey "adapter_pattern".toList)
      (by rw [String.ofList_toList]; rfl)
  rw [toList_text]
  exact ((((((hconnection.append hframes).append hstderr).append reads_newline).append
    hheader).append hcommand).append hpattern).append reads_newline

theorem parse_text (s : Settings) : Toml.parse s.text = some s.members := by
  have hfinish : Reading.finish ⟨s.members, ["testhost"], [], .lineStart⟩ = some s.members := rfl
  have hmark : s.text.toList.head? ≠ some '\ufeff' := by
    rw [toList_text]
    simp only [List.append_assoc]
    rw [List.head?_append_of_ne_nil _ (by decide)]
    decide
  have hparse := parse_of_reads (reads_document s) hfinish hmark
  rwa [String.ofList_toList] at hparse

end Settings

end HostedTests
