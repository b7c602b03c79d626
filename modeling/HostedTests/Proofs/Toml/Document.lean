import HostedTests.Proofs.Toml.Quoted
import HostedTests.Toml.Document
import Mathlib.Data.List.TakeWhile

namespace HostedTests.Toml

open Token (Scan)
open Token.Scan

def Reads (cs : List Char) (r r' : Reading) : Prop :=
  ∃ tokens : List Token, (∀ ts, feed? ⟨.between, ts⟩ cs = some ⟨.between, tokens.reverse ++ ts⟩) ∧
    tokens.foldlM Reading.step r = some r'

theorem Reads.append {cs ds : List Char} {r r' r'' : Reading} (h : Reads cs r r')
    (h' : Reads ds r' r'') : Reads (cs ++ ds) r r'' := by
  obtain ⟨tokens, hscan, hread⟩ := h
  obtain ⟨tokens', hscan', hread'⟩ := h'
  refine ⟨tokens ++ tokens', fun ts => ?_, ?_⟩
  · rw [feed?_append, hscan, Option.bind_some, hscan', List.reverse_append, List.append_assoc]
  · rw [List.foldlM_append, hread]
    exact hread'

theorem parse_of_reads {cs : List Char} {r : Reading} {ms : Members} (h : Reads cs .start r)
    (hfinish : r.finish = some ms) (hmark : cs.head? ≠ some '\ufeff') :
    parse (String.ofList cs) = some ms := by
  obtain ⟨tokens, hscan, hread⟩ := h
  have htokens : Token.scan cs = some tokens := by
    have hstart := hscan []
    rw [List.append_nil] at hstart
    change (feed? ⟨.between, []⟩ cs).bind finish = _
    rw [hstart]
    simp [finish]
  have hrest : (Token.scan cs).bind (fun tokens =>
      (tokens.foldlM Reading.step .start).bind Reading.finish) = some ms := by
    rw [htokens, Option.bind_some, hread]
    exact hfinish
  unfold parse
  rw [String.toList_ofList]
  dsimp only
  split
  · simp at hmark
  · exact hrest

def InAtom (c : Char) : Prop :=
  c ∉ Token.marks ∧ c ∉ ['\n', '\r', ' ', '\t', '#', '"', '\''] ∧ isControl c = false

instance (c : Char) : Decidable (InAtom c) := inferInstanceAs (Decidable (_ ∧ _ ∧ _))

theorem between_atom (s : Scan) {c : Char} (hc : InAtom c) :
    s.between c = some ⟨.atom [c], s.tokens⟩ := by
  obtain ⟨hmarks, hstops, hcontrol⟩ := hc
  simp only [List.mem_cons, List.not_mem_nil, or_false, not_or] at hstops
  simp [between, hmarks, hstops, hcontrol, go]

theorem feed?_atom (ts : List Token) (acc : List Char) {cs : List Char} (hcs : ∀ c ∈ cs, InAtom c) :
    feed? ⟨.atom acc, ts⟩ cs = some ⟨.atom (cs.reverse ++ acc), ts⟩ := by
  induction cs generalizing acc with
  | nil => rfl
  | cons c cs ih =>
    obtain ⟨⟨hmarks, hstops, hcontrol⟩, hrest⟩ := List.forall_mem_cons.mp hcs
    have hstep : step ⟨.atom acc, ts⟩ c = some ⟨.atom (c :: acc), ts⟩ := by
      simp only [step]
      rw [if_neg (not_or.mpr ⟨hmarks, hstops⟩), if_neg (by simp [hcontrol])]
      rfl
    rw [feed?_cons, hstep, Option.bind_some, ih _ hrest]
    simp

theorem feed?_word (ts : List Token) {cs : List Char} (hne : cs ≠ []) (hcs : ∀ c ∈ cs, InAtom c)
    {c : Char} (hc : c ∈ Token.marks ∨ c ∈ ['\n', '\r', ' ', '\t', '#', '"', '\'']) :
    feed? ⟨.between, ts⟩ (cs ++ [c]) = between ⟨.between, .atom cs :: ts⟩ c := by
  cases cs with
  | nil => exact absurd rfl hne
  | cons d cs =>
    obtain ⟨hd, hrest⟩ := List.forall_mem_cons.mp hcs
    have hfirst : step ⟨.between, ts⟩ d = some ⟨.atom [d], ts⟩ := between_atom _ hd
    have hend : step ⟨.atom (cs.reverse ++ [d]), ts⟩ c =
        between ⟨.between, .atom (d :: cs) :: ts⟩ c := by
      simp only [step]
      rw [if_pos hc]
      simp [add]
    rw [List.cons_append, feed?_cons, hfirst, Option.bind_some, feed?_append,
      feed?_atom ts [d] hrest, Option.bind_some, feed?_singleton, hend]

def keyTokens (key : List Char) : List Token := [.atom key, .blank true, .mark '=', .blank true]

theorem feed?_key (ts : List Token) {key : List Char} (hne : key ≠ [])
    (hkey : ∀ c ∈ key, InAtom c) {c : Char} (hc : c ≠ ' ' ∧ c ≠ '\t') (cs : List Char) :
    feed? ⟨.between, ts⟩ (key ++ [' ', '=', ' '] ++ c :: cs) =
      feed? ⟨.between, (keyTokens key).reverse ++ ts⟩ (c :: cs) := by
  have hword : feed? ⟨.between, ts⟩ (key ++ [' ']) = some ⟨.blank true, .atom key :: ts⟩ :=
    feed?_word ts hne hkey (by simp)
  have hblank : step ⟨.blank true, .mark '=' :: .blank true :: .atom key :: ts⟩ c =
      step ⟨.between, (keyTokens key).reverse ++ ts⟩ c := by
    simp only [step]
    rw [if_neg (not_or.mpr hc)]
    rfl
  have hsplit : key ++ [' ', '=', ' '] ++ c :: cs = (key ++ [' ']) ++ ['=', ' '] ++ c :: cs := by
    simp
  rw [hsplit, feed?_append, feed?_append, hword, Option.bind_some]
  change (feed? ⟨.blank true, .mark '=' :: .blank true :: .atom key :: ts⟩ (c :: cs)) = _
  rw [feed?_cons, feed?_cons, hblank]

variable {root root' : Members} {path : List String} {key : List Char}

theorem read_key (hkey : Reading.isBareKey key) :
    (keyTokens key).foldlM Reading.step ⟨root, path, [], .lineStart⟩ =
      some ⟨root, path, [.line [String.ofList key]], .value⟩ := by
  have hatom : Reading.step ⟨root, path, [], .lineStart⟩ (.atom key) =
      some ⟨root, path, [], .keyEnd .line [String.ofList key]⟩ := if_pos hkey
  rw [keyTokens, List.foldlM_cons, hatom]
  rfl

structure IsKey (key : List Char) : Prop where
  nonempty : key ≠ []
  atoms : ∀ c ∈ key, InAtom c
  bare : Reading.isBareKey key

theorem isKey_iff : IsKey key ↔
    key ≠ [] ∧ key.all (fun c => InAtom c) = true ∧ Reading.isBareKey key = true := by
  constructor
  · rintro ⟨hne, hatoms, hbare⟩
    exact ⟨hne, by simpa using hatoms, hbare⟩
  · rintro ⟨hne, hatoms, hbare⟩
    exact ⟨hne, by simpa using hatoms, hbare⟩

instance (key : List Char) : Decidable (IsKey key) := decidable_of_iff _ isKey_iff.symm

def Puts (path : List String) (key : List Char) (v : Value) (root root' : Members) : Prop :=
  Members.within (Members.put v true [String.ofList key]) path root = some root'

theorem write_head (cs : List Char) :
    ∃ c rest, Quoted.write cs = c :: rest ∧ c ≠ ' ' ∧ c ≠ '\t' := by
  unfold Quoted.write
  cases Quoted.style cs
  · exact ⟨'"', _, rfl, by decide, by decide⟩
  · exact ⟨'\'', _, rfl, by decide, by decide⟩
  · exact ⟨'"', _, rfl, by decide, by decide⟩
  · exact ⟨'\'', _, rfl, by decide, by decide⟩

theorem give_line {v : Value} (hput : Puts path key v root root') (p : Position) :
    Reading.give ⟨root, path, [.line [String.ofList key]], p⟩ v =
      some ⟨root', path, [], .lineEnd⟩ := by
  unfold Puts at hput
  simp [Reading.give, hput]

theorem reads_text (hkey : IsKey key) {cs : List Char}
    (hput : Puts path key (.text (String.ofList cs)) root root') :
    Reads (key ++ [' ', '=', ' '] ++ Quoted.write cs ++ ['\n']) ⟨root, path, [], .lineStart⟩
      ⟨root', path, [], .lineStart⟩ := by
  obtain ⟨lines, hended⟩ := ended_write cs
  obtain ⟨c, rest, hwrite, hc⟩ := write_head cs
  refine ⟨keyTokens key ++ [.text (String.ofList cs) lines, .newline], fun ts => ?_, ?_⟩
  · rw [List.append_assoc, hwrite, List.cons_append, feed?_key ts hkey.nonempty hkey.atoms hc,
      ← List.cons_append, ← hwrite, hended _ _ (by decide) (by decide)]
    simp [between, add]
  · rw [List.foldlM_append, read_key hkey.bare]
    simp [Reading.step, Reading.atValue, give_line hput, Reading.atLineEnd, Reading.go]

theorem inAtom_of_isDigit {c : Char} (h : Text.isDigit c) : InAtom c := by
  have hrange := Text.toNat_of_isDigit h
  have hne (d : Char) (hd : d.toNat < 48 ∨ 57 < d.toNat) : c ≠ d := by
    rintro rfl
    omega
  refine ⟨?_, ?_, ?_⟩
  · simp [Token.marks, hne]
  · simp [hne]
  · simp [isControl]
    omega

section Numerals

variable {cs : List Char} (hcs : ∀ c ∈ cs, Text.isDigit c)

include hcs

theorem not_mem_of_digits {c : Char} (hc : Text.isDigit c = false) : c ∉ cs := by
  intro hmem
  rw [hcs c hmem] at hc
  cases hc

theorem after?_digits {c : Char} (hc : Text.isDigit c = false) : Scalar.after? c cs = none := by
  cases cs with
  | nil => rfl
  | cons d cs =>
    rw [Scalar.after?, if_neg]
    rintro rfl
    exact not_mem_of_digits hcs hc List.mem_cons_self

theorem not_isMoment : Scalar.isMoment cs = false := by
  have hdrop (n : Nat) : ∀ c ∈ cs.drop n, Text.isDigit c := fun c hc =>
    hcs c (List.mem_of_mem_drop hc)
  have hdate : Scalar.date? cs = none := by
    unfold Scalar.date? Scalar.fixed?
    dsimp only
    split
    · simp [after?_digits (hdrop 4) (c := '-') (by decide)]
    · rfl
  have htime : Scalar.time? cs = none := by
    unfold Scalar.time? Scalar.fixed?
    dsimp only
    split
    · simp [after?_digits (hdrop 2) (c := ':') (by decide)]
    · rfl
  simp [Scalar.isMoment, hdate, htime]

theorem digits?_digits (hne : cs ≠ []) : Scalar.digits? Text.isDigit cs = some cs := by
  induction cs with
  | nil => exact absurd rfl hne
  | cons c cs ih =>
    obtain ⟨hc, hrest⟩ := List.forall_mem_cons.mp hcs
    unfold Scalar.digits?
    split
    next h => cases h
    next h =>
      cases h
      rw [if_pos hc]
    next h =>
      cases h
      exact absurd List.mem_cons_self (not_mem_of_digits hrest (by decide))
    next hcs' _ h =>
      cases h
      have hne : cs ≠ [] := by
        rintro rfl
        exact hcs' rfl
      rw [if_pos hc, ih hrest hne]
      rfl

theorem takeWhile_ne {p : Char → Bool} (hp : ∀ c, p c = false → Text.isDigit c = false) :
    cs.takeWhile p = cs := by
  rw [List.takeWhile_eq_self_iff]
  intro c hc
  by_contra hstop
  exact not_mem_of_digits hcs (hp c (by simpa using hstop)) hc

theorem sign_digits : Scalar.sign cs = (false, cs) := by
  unfold Scalar.sign
  split
  · exact absurd List.mem_cons_self (not_mem_of_digits hcs (by decide))
  · exact absurd List.mem_cons_self (not_mem_of_digits hcs (by decide))
  · rfl

end Numerals

theorem whole?_decimal (n : Nat) : Scalar.whole? (Text.decimal n) = some (Text.decimal n) := by
  obtain ⟨c, cs, hdecimal, -, hzero⟩ := Text.decimal_head n
  unfold Scalar.whole?
  rw [digits?_digits Text.isDigit_of_mem_decimal (by simp [hdecimal]), hdecimal]
  split
  next h =>
    simp only [Option.some.injEq, List.cons.injEq] at h
    obtain ⟨rfl, rfl⟩ := h
    cases (hzero (by decide)).2
  next => rfl

theorem decimal_ne {n : Nat} {c : Char} (hc : Text.isDigit c = false) {cs : List Char}
    (hmem : c ∈ cs) : Text.decimal n ≠ cs := by
  rintro rfl
  exact not_mem_of_digits Text.isDigit_of_mem_decimal hc hmem

theorem isRepresentable_natural {n : Nat} (hn : n < 0x10000000000000000) :
    Scalar.isRepresentable n = true := by
  simp [Scalar.isRepresentable]
  omega

theorem number?_decimal {n : Nat} (hn : n < 0x10000000000000000) :
    Scalar.number? (Text.decimal n) = some (.integer n) := by
  have hdigits : ∀ c ∈ Text.decimal n, Text.isDigit c := Text.isDigit_of_mem_decimal
  have hmantissa : (Text.decimal n).takeWhile (fun c => c ≠ 'e' ∧ c ≠ 'E') = Text.decimal n := by
    apply takeWhile_ne hdigits
    intro c hc
    simp only [ne_eq, decide_eq_false_iff_not, not_and_or, not_not] at hc
    rcases hc with rfl | rfl <;> decide
  have hwhole : (Text.decimal n).takeWhile (· ≠ '.') = Text.decimal n := by
    apply takeWhile_ne hdigits
    intro c hc
    simp only [ne_eq, decide_eq_false_iff_not, not_not] at hc
    subst hc
    decide
  unfold Scalar.number?
  rw [sign_digits hdigits]
  dsimp only
  rw [if_neg]
  · rw [hmantissa, hwhole, List.drop_length, whole?_decimal]
    rw [if_pos ⟨rfl, rfl⟩, Option.bind_some, if_neg Bool.false_ne_true, Text.ofDigits_decimal,
      if_pos (isRepresentable_natural hn)]
  · rintro (hinf | hnan)
    · exact decimal_ne (c := 'n') (by decide) (by decide) hinf
    · exact decimal_ne (c := 'n') (by decide) (by decide) hnan

theorem parse_decimal {n : Nat} (hn : n < 0x10000000000000000) :
    Scalar.parse (Text.decimal n) = some (.integer n) := by
  unfold Scalar.parse
  split
  next h => exact absurd h (decimal_ne (c := 'x') (by decide) (by simp))
  next h => exact absurd h (decimal_ne (c := 'o') (by decide) (by simp))
  next h => exact absurd h (decimal_ne (c := 'b') (by decide) (by simp))
  next =>
    rw [if_neg (decimal_ne (c := 't') (by decide) (by decide)),
      if_neg (decimal_ne (c := 'f') (by decide) (by decide)),
      not_isMoment Text.isDigit_of_mem_decimal, if_neg Bool.false_ne_true, number?_decimal hn]

theorem reads_integer (hkey : IsKey key) {n : Nat} (hn : n < 0x10000000000000000)
    (hput : Puts path key (.integer n) root root') :
    Reads (key ++ [' ', '=', ' '] ++ Text.decimal n ++ ['\n']) ⟨root, path, [], .lineStart⟩
      ⟨root', path, [], .lineStart⟩ := by
  obtain ⟨c, rest, hdecimal, hdigit, -⟩ := Text.decimal_head n
  have hatoms : ∀ c ∈ Text.decimal n, InAtom c := fun c hc =>
    inAtom_of_isDigit (Text.isDigit_of_mem_decimal c hc)
  have hblank : c ≠ ' ' ∧ c ≠ '\t' := by
    constructor <;> rintro rfl <;> revert hdigit <;> decide
  refine ⟨keyTokens key ++ [.atom (Text.decimal n), .newline], fun ts => ?_, ?_⟩
  · rw [List.append_assoc, hdecimal, List.cons_append, feed?_key ts hkey.nonempty hkey.atoms hblank,
      ← List.cons_append, ← hdecimal, feed?_word _ (by simp [hdecimal]) hatoms (by simp)]
    simp [between, add]
  · rw [List.foldlM_append, read_key hkey.bare]
    simp [Reading.step, Reading.atValue, Reading.endScalar, parse_decimal hn, give_line hput,
      Reading.afterValue, Reading.atLineEnd, Reading.go]

def inList (root : Members) (path : List String) (key : List Char) (texts : List String)
    (p : Position) : Reading :=
  ⟨root, path, [.list (texts.map .text), .line [String.ofList key]], p⟩

theorem reads_open (hkey : IsKey key) :
    Reads (key ++ [' ', '=', ' '] ++ ['[']) ⟨root, path, [], .lineStart⟩
      (inList root path key [] .value) := by
  refine ⟨keyTokens key ++ [.mark '['], fun ts => ?_, ?_⟩
  · rw [feed?_key ts hkey.nonempty hkey.atoms (by decide)]
    simp [feed?, step, between, Token.marks, add]
  · rw [List.foldlM_append, read_key hkey.bare]
    rfl

theorem reads_item (texts : List String) (cs : List Char) :
    Reads ([' ', ' ', ' ', ' '] ++ Quoted.write cs ++ [','] ++ ['\n'])
      (inList root path key texts .value)
      (inList root path key (String.ofList cs :: texts) .value) := by
  obtain ⟨lines, hended⟩ := ended_write cs
  obtain ⟨c, rest, hwrite, hspace, htab⟩ := write_head cs
  refine ⟨[.blank false, .text (String.ofList cs) lines, .mark ',', .newline], fun ts => ?_, ?_⟩
  · have hblank : step ⟨.blank false, ts⟩ c = step ⟨.between, .blank false :: ts⟩ c := by
      simp [step, hspace, htab, add]
    have hindent : feed? ⟨.between, ts⟩ ([' ', ' ', ' ', ' '] ++ (Quoted.write cs ++ [','])) =
        feed? ⟨.between, .blank false :: ts⟩ (Quoted.write cs ++ [',']) := by
      rw [feed?_append, hwrite]
      exact congrArg (Option.bind · _) hblank
    rw [feed?_append, List.append_assoc, hindent, hended _ _ (by decide) (by decide)]
    rfl
  · rfl

theorem reads_newline_inList (texts : List String) :
    Reads ['\n'] (inList root path key texts .value) (inList root path key texts .value) :=
  ⟨[.newline], fun _ => rfl, rfl⟩

theorem reads_newline : Reads ['\n'] ⟨root, path, [], .lineStart⟩ ⟨root, path, [], .lineStart⟩ :=
  ⟨[.newline], fun _ => rfl, rfl⟩

theorem reads_newline_end : Reads ['\n'] ⟨root, path, [], .lineEnd⟩ ⟨root, path, [], .lineStart⟩ :=
  ⟨[.newline], fun _ => rfl, rfl⟩

theorem reads_close {texts : List String}
    (hput : Puts path key (.list false (texts.reverse.map .text)) root root') :
    Reads [']'] (inList root path key texts .value) ⟨root', path, [], .lineEnd⟩ := by
  refine ⟨[.mark ']'], fun _ => rfl, ?_⟩
  have hgive := give_line hput .value
  rw [List.map_reverse] at hgive
  simpa [inList, Reading.step, Reading.atValue, Reading.inList, Reading.close] using hgive

theorem reads_only {cs : List Char}
    (hput : Puts path key (.list false [.text (String.ofList cs)]) root root') :
    Reads (Quoted.write cs ++ [']']) (inList root path key [] .value)
      ⟨root', path, [], .lineEnd⟩ := by
  obtain ⟨lines, hended⟩ := ended_write cs
  refine ⟨[.text (String.ofList cs) lines, .mark ']'], fun ts => ?_, ?_⟩
  · rw [hended _ _ (by decide) (by decide)]
    rfl
  · have hgive := give_line hput .valueEnd
    simpa [inList, Reading.step, Reading.atValue, Reading.give, Reading.atValueEnd, Reading.close]
      using hgive

theorem reads_header (hkey : IsKey key)
    (hopen : Members.openTable (String.ofList key) root = some root') :
    Reads (['['] ++ key ++ [']'] ++ ['\n']) ⟨root, path, [], .lineStart⟩
      ⟨root', [String.ofList key], [], .lineStart⟩ := by
  refine ⟨[.mark '[', .atom key, .mark ']', .newline], fun ts => ?_, ?_⟩
  · have hopening : feed? ⟨.between, ts⟩ ['['] = some ⟨.between, .mark '[' :: ts⟩ := rfl
    rw [List.append_assoc, List.append_assoc, feed?_append, hopening, Option.bind_some,
      ← List.append_assoc, feed?_append, feed?_word _ hkey.nonempty hkey.atoms (.inl (by decide))]
    rfl
  · have hatom : Reading.step ⟨root, path, [], .bracket⟩ (.atom key) =
        some ⟨root, path, [], .keyEnd (.header false) [String.ofList key]⟩ := if_pos hkey.bare
    have hclose : Reading.step ⟨root, path, [], .keyEnd (.header false) [String.ofList key]⟩
        (.mark ']') = some ⟨root', [String.ofList key], [], .lineEnd⟩ := by
      change (Members.openTable (String.ofList key) root).bind _ = _
      rw [hopen]
      rfl
    change (Reading.step ⟨root, path, [], .bracket⟩ (.atom key)).bind _ = _
    rw [hatom, Option.bind_some, List.foldlM_cons, hclose]
    rfl

end HostedTests.Toml
