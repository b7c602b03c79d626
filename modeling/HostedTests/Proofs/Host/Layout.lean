import HostedTests.Host.Source
import HostedTests.Proofs.Text.Trim

namespace HostedTests

open Text (Blanks Trimmed trim trimEnd)

namespace SourceLine

structure Fits (content : String) : Prop where
  trimmed : Trimmed content.toList
  unbroken : '\n' ∉ content.toList

structure Unmarked (name : String) : Prop where
  nonempty : name.toList ≠ []
  uncommented : ¬[commentMark] <+: name.toList
  unfailed : ¬[failedMark] <+: name.toList
  unskipped : ¬[skippedMark] <+: name.toList
  uncrashed : ¬crashMark <+: name.toList

inductive Writable : SourceLine → Prop where
  | passed {name : String} : Fits name → Unmarked name → Writable (.test name .passed)
  | failed {name : String} : Fits name → Writable (.test name .failed)
  | skipped {name : String} : Fits name → Writable (.test name .skipped)
  | crash {text : String} : Fits text → Writable (.crash text)

theorem Writable.fits {line : SourceLine} (h : line.Writable) : Fits line.content := by
  cases h <;> assumption

structure Margin where
  chars : List Char
  blank : Blanks chars
  unbroken : '\n' ∉ chars

namespace Margin

def empty : Margin := ⟨[], Text.blanks_nil, List.not_mem_nil⟩

def append (m n : Margin) : Margin :=
  ⟨m.chars ++ n.chars, m.blank.append n.blank, List.not_mem_append m.unbroken n.unbroken⟩

end Margin

inductive Row where
  | blank
  | comment (text : List Char) (unbroken : '\n' ∉ text)
  | item (line : SourceLine) (writable : line.Writable) (gap : Margin)

namespace Row

def text : Row → List Char
  | blank => []
  | comment text _ => commentMark :: text
  | item line _ gap => line.mark ++ gap.chars ++ line.content.toList

def item? : Row → Option SourceLine
  | item line _ _ => some line
  | _ => none

theorem unbroken_mark (line : SourceLine) : '\n' ∉ line.mark := by
  cases line with
  | crash text => exact (by decide : '\n' ∉ crashMark)
  | test name outcome => cases outcome <;> simp [mark, failedMark, skippedMark]

theorem unbroken (r : Row) : '\n' ∉ r.text := by
  cases r with
  | blank => exact List.not_mem_nil
  | comment text unbroken => exact List.not_mem_cons_of_ne_of_not_mem (by decide) unbroken
  | item line writable gap =>
    exact List.not_mem_append (List.not_mem_append (unbroken_mark line) gap.unbroken)
      writable.fits.unbroken

theorem writable_of_item? {r : Row} {line : SourceLine} (h : r.item? = some line) :
    line.Writable := by
  cases r with
  | item line writable gap =>
    cases h
    exact writable
  | blank => cases h
  | comment text unbroken => cases h

end Row

structure Placed where
  before : Margin
  row : Row
  after : Margin

namespace Placed

def text (p : Placed) : List Char := p.before.chars ++ p.row.text ++ p.after.chars

theorem unbroken (p : Placed) : '\n' ∉ p.text :=
  List.not_mem_append (List.not_mem_append p.before.unbroken p.row.unbroken) p.after.unbroken

end Placed

inductive LineEnd where
  | lf
  | crlf

def LineEnd.rest : LineEnd → List Char
  | lf => []
  | crlf => ['\r']

structure Layout where
  ended : List (Placed × LineEnd)
  last : Option Placed

namespace Layout

def text (d : Layout) : List Char :=
  d.ended.flatMap (fun p => p.1.text ++ p.2.rest ++ ['\n']) ++ d.last.toList.flatMap Placed.text

def items (d : Layout) : List SourceLine :=
  (d.ended.map Prod.fst ++ d.last.toList).filterMap fun p => p.row.item?

end Layout

theorem crashMark_cons : crashMark = 'c' :: "rash:".toList := by decide

theorem crashMark_isPrefixOf?_eq_none {cs : List Char} (h : ¬crashMark <+: cs) :
    crashMark.isPrefixOf? cs = none := by
  cases hprefix : crashMark.isPrefixOf? cs with
  | none => rfl
  | some rest => exact absurd ⟨rest, List.isPrefixOf?_eq_some_iff_append_eq.mp hprefix⟩ h

theorem ofTrimmed?_comment (cs : List Char) : ofTrimmed? (commentMark :: cs) = none := by
  rw [ofTrimmed?, if_pos rfl]

theorem ofTrimmed?_crash (cs : List Char) :
    ofTrimmed? (crashMark ++ cs) = some (.crash (trimmed cs)) := by
  have hprefix : crashMark.isPrefixOf? (crashMark ++ cs) = some cs :=
    List.isPrefixOf?_eq_some_iff_append_eq.mpr rfl
  have hcons : crashMark ++ cs = 'c' :: ("rash:".toList ++ cs) := by
    rw [crashMark_cons, List.cons_append]
  rw [hcons] at hprefix ⊢
  rw [ofTrimmed?, if_neg (by decide), hprefix]

theorem ofTrimmed?_other {c : Char} {cs : List Char} (hcomment : c ≠ commentMark)
    (hcrash : ¬crashMark <+: c :: cs) :
    ofTrimmed? (c :: cs) =
      if c = failedMark then some (.test (trimmed cs) .failed)
      else if c = skippedMark then some (.test (trimmed cs) .skipped)
      else some (.test (String.ofList (c :: cs)) .passed) := by
  rw [ofTrimmed?, if_neg hcomment, crashMark_isPrefixOf?_eq_none hcrash]

theorem crashMark_not_begins {c : Char} (h : c ≠ 'c') (cs : List Char) :
    ¬crashMark <+: c :: cs := by
  rw [crashMark_cons, List.cons_prefix_cons]
  exact fun hprefix => h hprefix.1.symm

theorem ofTrimmed?_failed (cs : List Char) :
    ofTrimmed? ([failedMark] ++ cs) = some (.test (trimmed cs) .failed) := by
  rw [List.singleton_append, ofTrimmed?_other (by decide) (crashMark_not_begins (by decide) cs),
    if_pos rfl]

theorem ofTrimmed?_skipped (cs : List Char) :
    ofTrimmed? ([skippedMark] ++ cs) = some (.test (trimmed cs) .skipped) := by
  rw [List.singleton_append, ofTrimmed?_other (by decide) (crashMark_not_begins (by decide) cs),
    if_neg (by decide), if_pos rfl]

theorem begins_iff {c d : Char} {cs : List Char} : [c] <+: d :: cs ↔ d = c := by
  rw [List.cons_prefix_cons, eq_comm]
  exact and_iff_left (List.nil_prefix)

theorem ofTrimmed?_unmarked {name : String} (h : Unmarked name) :
    ofTrimmed? name.toList = some (.test name .passed) := by
  obtain ⟨c, cs, hname⟩ := List.exists_cons_of_ne_nil h.nonempty
  obtain ⟨-, hcomment, hfailed, hskipped, hcrash⟩ := h
  rw [hname] at hcomment hfailed hskipped hcrash
  rw [hname, ofTrimmed?_other (mt begins_iff.mpr hcomment) hcrash,
    if_neg (mt begins_iff.mpr hfailed), if_neg (mt begins_iff.mpr hskipped), ← hname,
    String.ofList_toList]

theorem read_marked (line : String → SourceLine) {mark : List Char} (hmark : Text.Solid mark)
    (hread : ∀ cs, ofTrimmed? (mark ++ cs) = some (line (trimmed cs))) {content : String}
    (h : Fits content) (gap : Margin) :
    ofTrimmed? (trim (mark ++ gap.chars ++ content.toList)) = some (line content) := by
  have hwritten : trimmed (trimEnd (gap.chars ++ content.toList)) = content := by
    rw [trimmed, Text.trim_trimEnd, Text.trim_append_left gap.blank, h.trimmed,
      String.ofList_toList]
  rw [List.append_assoc, Text.trim_word_append hmark, hread, hwritten]

theorem read_row (r : Row) : ofTrimmed? (trim r.text) = r.item? := by
  cases r with
  | blank => rfl
  | comment text unbroken =>
    have htrim : trim (commentMark :: text) = commentMark :: trimEnd text :=
      Text.trim_word_append (by decide : Text.Solid [commentMark]) text
    rw [Row.text, htrim, ofTrimmed?_comment]
    rfl
  | item line writable gap =>
    cases writable with
    | @passed name hfits hname =>
      have htrim : trim (gap.chars ++ name.toList) = name.toList := by
        rw [Text.trim_append_left gap.blank, hfits.trimmed]
      exact (congrArg ofTrimmed? htrim).trans (ofTrimmed?_unmarked hname)
    | failed hfits => exact read_marked (.test · .failed) (by decide) ofTrimmed?_failed hfits gap
    | skipped hfits => exact read_marked (.test · .skipped) (by decide) ofTrimmed?_skipped hfits gap
    | crash hfits => exact read_marked .crash (by decide) ofTrimmed?_crash hfits gap

theorem read_placed (p : Placed) (e : LineEnd) :
    ofTrimmed? (trim (p.text ++ e.rest)) = p.row.item? := by
  have hrest : Blanks e.rest := by
    cases e with
    | lf => exact Text.blanks_nil
    | crlf => exact List.forall_mem_singleton.mpr (by decide)
  rw [Text.trim_append_right hrest, Placed.text, Text.trim_around p.before.blank p.after.blank,
    read_row]

theorem lines_append {cs : List Char} (h : '\n' ∉ cs) (line rest : List Char) :
    lines line (cs ++ rest) = lines (cs.reverse ++ line) rest := by
  induction cs generalizing line with
  | nil => rfl
  | cons c cs ih =>
    obtain ⟨hc, hcs⟩ := not_or.mp (mt List.mem_cons.mpr h)
    rw [List.cons_append, lines, if_neg (Ne.symm hc), ih hcs, List.reverse_cons, List.append_assoc,
      List.singleton_append]

theorem lines_ended {line : List Char} (h : '\n' ∉ line) (rest : List Char) :
    lines [] (line ++ '\n' :: rest) = line :: lines [] rest := by
  rw [lines_append h, lines, if_pos rfl, List.append_nil, List.reverse_reverse]

theorem lines_last {line : List Char} (h : '\n' ∉ line) : lines [] line = [line] := by
  have happend := lines_append h [] []
  rwa [List.append_nil, List.append_nil, lines, List.reverse_reverse] at happend

theorem read_layout (d : Layout) :
    (lines [] d.text).filterMap (fun cs => ofTrimmed? (trim cs)) = d.items := by
  obtain ⟨ended, last⟩ := d
  induction ended with
  | nil =>
    cases last with
    | none => rfl
    | some p =>
      have hread := read_placed p .lf
      have htext : Layout.text ⟨[], some p⟩ = p.text := by simp [Layout.text]
      rw [LineEnd.rest, List.append_nil] at hread
      rw [htext, lines_last p.unbroken, List.filterMap_cons, hread]
      rfl
  | cons p ended ih =>
    obtain ⟨p, e⟩ := p
    have hline : '\n' ∉ p.text ++ e.rest := by
      refine List.not_mem_append p.unbroken ?_
      cases e <;> decide
    have htext : Layout.text ⟨(p, e) :: ended, last⟩ =
        (p.text ++ e.rest) ++ '\n' :: Layout.text ⟨ended, last⟩ := by
      simp [Layout.text]
    have hitems : Layout.items ⟨(p, e) :: ended, last⟩ =
        p.row.item?.toList ++ Layout.items ⟨ended, last⟩ := by
      cases hitem : p.row.item? <;> simp [Layout.items, hitem]
    rw [htext, lines_ended hline, hitems, ← ih, List.filterMap_cons, read_placed]
    cases p.row.item? <;> rfl

theorem exists_item {mark : List Char} {line : String → SourceLine}
    (hwritable : ∀ {s}, Fits s → (line s).Writable) (hmark : ∀ s, (line s).mark = mark)
    (hcontent : ∀ s, (line s).content = s) {cs : List Char} (h : '\n' ∉ cs) :
    ∃ (r : Row) (after : Margin), mark ++ cs = r.text ++ after.chars := by
  obtain ⟨before, after, hbefore, hafter, hcs⟩ := Text.exists_trim cs
  rw [hcs, List.mem_append, List.mem_append, not_or, not_or] at h
  obtain ⟨⟨hbreak, hcontents⟩, hbreak'⟩ := h
  have hfits : Fits (String.ofList (trim cs)) := by
    constructor <;> rw [String.toList_ofList]
    · exact Text.trimmed_trim cs
    · exact hcontents
  refine ⟨.item (line _) (hwritable hfits) ⟨before, hbefore, hbreak⟩, ⟨after, hafter, hbreak'⟩, ?_⟩
  conv_lhs => rw [hcs]
  rw [Row.text, hmark, hcontent, String.toList_ofList]
  simp only [List.append_assoc]

theorem exists_row {cs : List Char} (h : '\n' ∉ cs) (htrimmed : Trimmed cs) :
    ∃ (r : Row) (after : Margin), cs = r.text ++ after.chars := by
  by_cases hnil : cs = []
  · exact ⟨.blank, .empty, hnil⟩
  by_cases hcomment : [commentMark] <+: cs
  · obtain ⟨text, rfl⟩ := hcomment
    exact ⟨.comment text (mt (List.mem_append_right _) h), .empty, (List.append_nil _).symm⟩
  by_cases hcrash : crashMark <+: cs
  · obtain ⟨rest, rfl⟩ := hcrash
    exact exists_item .crash (fun _ => rfl) (fun _ => rfl) (mt (List.mem_append_right _) h)
  by_cases hfailed : [failedMark] <+: cs
  · obtain ⟨rest, rfl⟩ := hfailed
    exact exists_item .failed (fun _ => rfl) (fun _ => rfl) (mt (List.mem_append_right _) h)
  by_cases hskipped : [skippedMark] <+: cs
  · obtain ⟨rest, rfl⟩ := hskipped
    exact exists_item .skipped (fun _ => rfl) (fun _ => rfl) (mt (List.mem_append_right _) h)
  · have hname : (String.ofList cs).toList = cs := String.toList_ofList
    have hfits : Fits (String.ofList cs) := ⟨by rwa [hname], by rwa [hname]⟩
    have hunmarked : Unmarked (String.ofList cs) := by
      constructor <;> rwa [hname]
    refine ⟨.item _ (.passed hfits hunmarked) .empty, .empty, ?_⟩
    exact (hname.symm.trans (List.append_nil _).symm)

theorem exists_placed {cs : List Char} (h : '\n' ∉ cs) : ∃ p : Placed, p.text = cs := by
  obtain ⟨before, after, hbefore, hafter, hcs⟩ := Text.exists_trim cs
  rw [hcs, List.mem_append, List.mem_append, not_or, not_or] at h
  obtain ⟨⟨hbreak, hmiddle⟩, hbreak'⟩ := h
  obtain ⟨r, rest, hr⟩ := exists_row hmiddle (Text.trimmed_trim cs)
  refine ⟨⟨⟨before, hbefore, hbreak⟩, r, rest.append ⟨after, hafter, hbreak'⟩⟩, ?_⟩
  rw [hcs, hr]
  simp only [Placed.text, Margin.append, List.append_assoc]

theorem exists_layout (cs : List Char) : ∃ d : Layout, d.text = cs := by
  induction hn : cs.length using Nat.strongRecOn generalizing cs with
  | ind n ih =>
    by_cases hbreak : '\n' ∈ cs
    · obtain ⟨line, rest, rfl, hline⟩ := List.eq_append_cons_of_mem hbreak
      obtain ⟨p, hp⟩ := exists_placed hline
      obtain ⟨d, hd⟩ := ih rest.length (by simp at hn; omega) rest rfl
      refine ⟨⟨(p, .lf) :: d.ended, d.last⟩, ?_⟩
      simp [Layout.text, ← hd, hp, LineEnd.rest]
    · obtain ⟨p, hp⟩ := exists_placed hbreak
      exact ⟨⟨[], some p⟩, by simp [Layout.text, hp]⟩

theorem exists_rows {items : List SourceLine} (h : ∀ line ∈ items, line.Writable) :
    ∃ rows : List Row, rows.filterMap Row.item? = items := by
  induction items with
  | nil => exact ⟨[], rfl⟩
  | cons line items ih =>
    obtain ⟨hline, hitems⟩ := List.forall_mem_cons.mp h
    obtain ⟨rows, hrows⟩ := ih hitems
    exact ⟨.item line hline .empty :: rows, by rw [List.filterMap_cons, Row.item?, hrows]⟩

theorem exists_layout_iff (items : List SourceLine) :
    (∃ d : Layout, d.items = items) ↔ ∀ line ∈ items, line.Writable := by
  constructor
  · rintro ⟨d, rfl⟩ line hline
    obtain ⟨p, -, hp⟩ := List.mem_filterMap.mp hline
    exact Row.writable_of_item? hp
  · intro h
    obtain ⟨rows, hrows⟩ := exists_rows h
    refine ⟨⟨rows.map fun r => (⟨.empty, r, .empty⟩, .lf), none⟩, ?_⟩
    rw [← hrows]
    simp [Layout.items, List.filterMap_map, Function.comp_def]

/-- Lines can be laid out in a text if each of them fits on a line and can be told by its mark, and
then a text is read as them, in order, just if it is one of their layouts. -/
theorem parse_eq_iff_layout (items : List SourceLine) :
    ((∃ d : Layout, d.items = items) ↔ ∀ line ∈ items, line.Writable) ∧
      ∀ text, parse text = items ↔ ∃ d : Layout, d.items = items ∧ d.text = text.toList := by
  refine ⟨exists_layout_iff items, fun text => ?_⟩
  constructor
  · intro hparse
    obtain ⟨d, hd⟩ := exists_layout text.toList
    refine ⟨d, ?_, hd⟩
    rw [← read_layout, hd]
    exact hparse
  · rintro ⟨d, rfl, hd⟩
    rw [parse, ← hd, read_layout]

example : parse "  # a note\r\n\n!#x\r\n ~  crash:y \n\tcrash:  \r\na b" =
    [.test "#x" .failed, .test "crash:y" .skipped, .crash "", .test "a b" .passed] := by
  decide +kernel

end SourceLine

end HostedTests
