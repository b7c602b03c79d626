import HostedTests.Proofs.Text.Digits
import HostedTests.Toml.Quoted
import HostedTests.Toml.Token

namespace HostedTests.Toml.Token.Scan

open Quoted

def feed? (s : Scan) (cs : List Char) : Option Scan := cs.foldlM step s

theorem feed?_cons (s : Scan) (c : Char) (cs : List Char) :
    s.feed? (c :: cs) = (s.step c).bind fun s => s.feed? cs := rfl

theorem feed?_singleton (s : Scan) (c : Char) : s.feed? [c] = s.step c := by
  simp [feed?]

theorem feed?_append (s : Scan) (cs ds : List Char) :
    s.feed? (cs ++ ds) = (s.feed? cs).bind fun s => s.feed? ds := List.foldlM_append

variable (ts : List Token) (q : Quote) (acc : List Char)

theorem isControl_eq {c : Char} (hescape : needsEscape c = false) (hline : c ≠ '\n') :
    isControl c = false := by
  simp only [needsEscape, isControl] at hescape ⊢
  simp_all

theorem inSingle_plain (s : Scan) {c : Char} (hquote : c ≠ q.char) (hescape : q = .basic → c ≠ '\\')
    (hcontrol : isControl c = false) :
    s.inSingle q acc c = some ⟨.single q (c :: acc), s.tokens⟩ := by
  unfold inSingle
  rw [if_neg hquote, if_neg (fun h => hescape h.1 h.2), if_neg (by simp [hcontrol])]
  rfl

theorem step_single (c : Char) :
    step ⟨.single q acc, ts⟩ c = inSingle ⟨.single q acc, ts⟩ q acc c := rfl

theorem fourDigits_eq : ∀ n < 128, fourDigits n =
    ['0', '0', (Nat.digitChar (n / 16)).toUpper, (Nat.digitChar (n % 16)).toUpper] := by
  decide +kernel

theorem hexValue?_upper : ∀ d < 16, Json.hexValue? (Nat.digitChar d).toUpper = some d := by
  decide

theorem feed?_code (lines : Bool) {c : Char} (hc : c.toNat < 128) :
    feed? ⟨.escape lines acc, ts⟩ ('u' :: fourDigits c.toNat) =
      some (unescaped ⟨.between, ts⟩ lines (c :: acc)) := by
  have hh := hexValue?_upper (c.toNat / 16) (by omega)
  have hl := hexValue?_upper (c.toNat % 16) (by omega)
  have hz : Json.hexValue? '0' = some 0 := by decide
  have hvalue : 16 * (c.toNat / 16) + c.toNat % 16 = c.toNat := by omega
  have hchar : char? c.toNat = some c := by
    have hvalid : c.toNat.isValidChar := c.valid
    rw [char?, dif_pos hvalid]
    exact congrArg some (Char.toNat_inj.mp rfl)
  rw [fourDigits_eq _ hc]
  simp [feed?, step, go, hz, hh, hl, hvalue, hchar, unescaped]

theorem escaped_cases (lines : Bool) (k : Nat) (c : Char) :
    (∃ rest, escaped lines k c = '\\' :: rest ∧ ∀ ts acc,
      feed? ⟨.escape lines acc, ts⟩ rest =
        some (unescaped ⟨.escape lines acc, ts⟩ lines (c :: acc))) ∨
      escaped lines k c = [c] ∧
        (c ≠ '"' ∧ c ≠ '\\' ∧ isControl c = false ∨
          lines = true ∧ (c = '\n' ∨ c = '"' ∧ k < 2)) := by
  by_cases hquote : c = '"'
  · subst hquote
    by_cases hraw : lines = true ∧ k < 2
    · have hcount : ¬(if lines = true then 2 else 0) ≤ k := by
        rw [if_pos hraw.1]
        omega
      exact .inr ⟨by rw [escaped, if_pos rfl, if_neg hcount], .inr ⟨hraw.1, .inr ⟨rfl, hraw.2⟩⟩⟩
    · have hcount : (if lines = true then 2 else 0) ≤ k := by
        split
        next hlines => exact Nat.not_lt.mp fun hk => hraw ⟨hlines, hk⟩
        next => exact Nat.zero_le k
      exact .inl ⟨_, by rw [escaped, if_pos rfl, if_pos hcount], fun _ _ => rfl⟩
  by_cases hline : c = '\n'
  · subst hline
    cases lines with
    | false => exact .inl ⟨_, rfl, fun _ _ => rfl⟩
    | true => exact .inr ⟨rfl, .inr ⟨rfl, .inl rfl⟩⟩
  by_cases hlisted : c ∈ ['\x08', '\t', '\x0c', '\r', '\\']
  · simp only [List.mem_cons, List.not_mem_nil, or_false] at hlisted
    rcases hlisted with rfl | rfl | rfl | rfl | rfl <;> exact .inl ⟨_, rfl, fun _ _ => rfl⟩
  simp only [List.mem_cons, List.not_mem_nil, or_false, not_or] at hlisted
  have hwritten : escaped lines k c =
      if needsEscape c then '\\' :: 'u' :: fourDigits c.toNat else [c] := by
    simp [escaped, hquote, hline, hlisted]
  rw [hwritten]
  split
  next hneeds =>
    have hc : c.toNat < 128 := by
      simp only [needsEscape, Bool.or_eq_true, Bool.and_eq_true, decide_eq_true_eq] at hneeds
      omega
    exact .inl ⟨_, rfl, fun ts acc => feed?_code ts acc lines hc⟩
  next hneeds =>
    exact .inr ⟨rfl, .inl ⟨hquote, hlisted.2.2.2.2, isControl_eq (by simpa using hneeds) hline⟩⟩

theorem feed?_escaped (k : Nat) (c : Char) :
    feed? ⟨.single .basic acc, ts⟩ (escaped false k c) =
      some ⟨.single .basic (c :: acc), ts⟩ := by
  rcases escaped_cases false k c with ⟨rest, hwritten, hread⟩ | ⟨hwritten, hplain⟩
  · rw [hwritten, feed?_cons]
    exact hread ts acc
  · simp only [Bool.false_eq_true, false_and, or_false] at hplain
    obtain ⟨hquote, hbackslash, hcontrol⟩ := hplain
    rw [hwritten, feed?_cons, step_single, inSingle_plain .basic _ _ hquote (fun _ => hbackslash)
      hcontrol]
    rfl

theorem feed?_escapes (k : Nat) (cs : List Char) :
    feed? ⟨.single .basic acc, ts⟩ (escapeAll false k cs) =
      some ⟨.single .basic (cs.reverse ++ acc), ts⟩ := by
  induction cs generalizing k acc with
  | nil => rfl
  | cons c cs ih =>
    rw [escapeAll, feed?_append, feed?_escaped, Option.bind_some, ih]
    simp

theorem feed?_plain {cs : List Char} (hcs : ∀ c ∈ cs, c ≠ '\'' ∧ isControl c = false) :
    feed? ⟨.single .literal acc, ts⟩ cs = some ⟨.single .literal (cs.reverse ++ acc), ts⟩ := by
  induction cs generalizing acc with
  | nil => rfl
  | cons c cs ih =>
    obtain ⟨⟨hquote, hcontrol⟩, hrest⟩ := List.forall_mem_cons.mp hcs
    rw [feed?_cons, step_single, inSingle_plain .literal _ _ hquote Quote.noConfusion hcontrol,
      Option.bind_some, ih _ hrest]
    simp

/-- The text of many lines up to here, last first. The last quotes may be those that end it. -/
def pending (n : Nat) : List Char := List.replicate n q.char ++ acc

theorem step_many {n : Nat} (hn : n ≤ 2) {c : Char} (hc : c ≠ q.char) :
    step ⟨.many q acc n, ts⟩ c = inMany ⟨.many q acc n, ts⟩ q (pending q acc n) c := by
  by_cases hzero : n = 0
  · subst hzero
    rfl
  · have hthree : ¬3 ≤ n := by omega
    simp [step, hzero, hc, hthree, pending]

theorem step_quote {n : Nat} (hn : n < 5) :
    step ⟨.many q acc n, ts⟩ q.char = some ⟨.many q acc (n + 1), ts⟩ := by
  by_cases hzero : n = 0
  · subst hzero
    simp [step, inMany, go]
  · simp [step, hzero, hn, go]

theorem inMany_plain (s : Scan) {c : Char} (hquote : c ≠ q.char) (hescape : q = .basic → c ≠ '\\')
    (hcontrol : isControl c = false ∨ c = '\n') :
    s.inMany q acc c = some ⟨.many q (c :: acc) 0, s.tokens⟩ := by
  have hreturn : c ≠ '\r' := by
    rintro rfl
    revert hcontrol
    decide
  unfold inMany
  rw [if_neg hquote, if_neg (fun h => hescape h.1 h.2), if_neg hreturn]
  split
  · rfl
  next hline =>
    rw [if_neg (by simpa [hline] using hcontrol)]
    rfl

def ReadsOn (written cs : List Char) (acc : List Char) (n : Nat) : Prop :=
  ∃ acc' n', n' ≤ 2 ∧ pending q acc' n' = cs.reverse ++ pending q acc n ∧
    feed? ⟨.many q acc n, ts⟩ written = some ⟨.many q acc' n', ts⟩

theorem readsOn_plain {n : Nat} (hn : n ≤ 2) {c : Char} (hquote : c ≠ q.char)
    (hescape : q = .basic → c ≠ '\\') (hcontrol : isControl c = false ∨ c = '\n') :
    feed? ⟨.many q acc n, ts⟩ [c] = some ⟨.many q (c :: pending q acc n) 0, ts⟩ := by
  rw [feed?_cons, step_many ts q acc hn hquote, inMany_plain q _ _ hquote hescape hcontrol]
  rfl

theorem feed?_escaped_many {n : Nat} (hn : n ≤ 2) (c : Char) :
    ∃ acc' n', n' = (if escaped true n c = ['"'] then n + 1 else 0) ∧ n' ≤ 2 ∧
      pending .basic acc' n' = c :: pending .basic acc n ∧
      feed? ⟨.many .basic acc n, ts⟩ (escaped true n c) = some ⟨.many .basic acc' n', ts⟩ := by
  rcases escaped_cases true n c with ⟨rest, hwritten, hread⟩ | ⟨hwritten, hraw⟩
  · refine ⟨c :: pending .basic acc n, 0, ?_, Nat.zero_le 2, rfl, ?_⟩
    · rw [hwritten, if_neg (by simp)]
    · rw [hwritten, feed?_cons, step_many ts .basic acc hn (by decide)]
      exact hread ts (pending .basic acc n)
  · rw [hwritten]
    by_cases hquote : c = '"'
    · subst hquote
      have hlt : n < 2 := by simpa using hraw
      refine ⟨acc, n + 1, by rw [if_pos rfl], by omega, rfl, ?_⟩
      rw [feed?_cons]
      exact congrArg (Option.bind · _) (step_quote ts .basic acc (by omega))
    · refine ⟨c :: pending .basic acc n, 0, ?_, Nat.zero_le 2, rfl, ?_⟩
      · rw [if_neg (by simpa using hquote)]
      · apply readsOn_plain ts .basic acc hn hquote
        · rintro - rfl
          simp at hraw
        · rcases hraw with ⟨-, -, hcontrol⟩ | ⟨-, hline | ⟨heq, -⟩⟩
          · exact .inl hcontrol
          · exact .inr hline
          · exact absurd heq hquote

theorem readsOn_escapes {n : Nat} (hn : n ≤ 2) (cs : List Char) :
    ReadsOn ts .basic (escapeAll true n cs) cs acc n := by
  induction cs generalizing n acc with
  | nil => exact ⟨acc, n, hn, rfl, rfl⟩
  | cons c cs ih =>
    obtain ⟨acc₁, n₁, hcount, hn₁, hpending₁, hfeed₁⟩ := feed?_escaped_many ts acc hn c
    obtain ⟨acc₂, n₂, hn₂, hpending₂, hfeed₂⟩ := ih acc₁ hn₁
    refine ⟨acc₂, n₂, hn₂, ?_, ?_⟩
    · rw [hpending₂, hpending₁, List.reverse_cons, List.append_assoc]
      rfl
    · rw [escapeAll, feed?_append, hfeed₁, ← hcount]
      exact hfeed₂

theorem le_longestRun (c : Char) (now most : Nat) (cs : List Char) :
    most ≤ longestRun c now most cs := by
  induction cs generalizing now most with
  | nil => exact Nat.le_refl most
  | cons d cs ih =>
    rw [longestRun]
    split
    · exact Nat.le_trans (Nat.le_max_left _ _) (ih _ _)
    · exact ih _ _

theorem readsOn_plain_run {n most : Nat} (hn : n ≤ 2) {cs : List Char}
    (hescape : ∀ c ∈ cs, needsEscape c = false) (hrun : longestRun '\'' n most cs ≤ 2) :
    ReadsOn ts .literal cs cs acc n := by
  induction cs generalizing n most acc with
  | nil => exact ⟨acc, n, hn, rfl, rfl⟩
  | cons c cs ih =>
    obtain ⟨hc, hrest⟩ := List.forall_mem_cons.mp hescape
    rw [longestRun] at hrun
    split at hrun
    next hquote =>
      subst hquote
      have hlt : n + 1 ≤ 2 := by
        have hmost := le_longestRun '\'' (n + 1) (max most (n + 1)) cs
        omega
      obtain ⟨acc', n', hn', hpending, hfeed⟩ := ih acc hlt hrest hrun
      refine ⟨acc', n', hn', ?_, ?_⟩
      · rw [hpending, List.reverse_cons, List.append_assoc]
        rfl
      · rw [feed?_cons]
        exact (congrArg (Option.bind · _) (step_quote ts .literal acc (by omega))).trans hfeed
    next hquote =>
      have hcontrol : isControl c = false ∨ c = '\n' := by
        by_cases hline : c = '\n'
        · exact .inr hline
        · exact .inl (isControl_eq hc hline)
      obtain ⟨acc', n', hn', hpending, hfeed⟩ :=
        ih (c :: pending .literal acc n) (Nat.zero_le 2) hrest hrun
      refine ⟨acc', n', hn', ?_, ?_⟩
      · rw [hpending, List.reverse_cons, List.append_assoc]
        rfl
      · have hfirst := readsOn_plain ts .literal acc hn hquote Quote.noConfusion hcontrol
        rw [← List.singleton_append, feed?_append, hfirst]
        exact hfeed

theorem char_ne {c : Char} (hdouble : c ≠ '"') (hsingle : c ≠ '\'') : c ≠ q.char := by
  cases q
  · exact hdouble
  · exact hsingle

theorem feed?_closing {n : Nat} (hn : n ≤ 2) {c : Char} (hc : c ≠ q.char) :
    feed? ⟨.many q acc n, ts⟩ ([q.char, q.char, q.char] ++ [c]) =
      between ⟨.between, .text (String.ofList (pending q acc n).reverse) true :: ts⟩ c := by
  have hquotes : feed? ⟨.many q acc n, ts⟩ [q.char, q.char, q.char] =
      some ⟨.many q acc (n + 3), ts⟩ := by
    rw [feed?_cons, step_quote ts q acc (by omega), Option.bind_some, feed?_cons,
      step_quote ts q acc (by omega), Option.bind_some, feed?_cons,
      step_quote ts q acc (by omega)]
    rfl
  have hend : step ⟨.many q acc (n + 3), ts⟩ c =
      between ⟨.between, .text (String.ofList (pending q acc n).reverse) true :: ts⟩ c := by
    simp [step, hc, endMany, add, pending]
  rw [feed?_append, hquotes, Option.bind_some, feed?_singleton, hend]

theorem feed?_opening (alone : Bool) {cs : List Char}
    (hfirst : alone = false → ∃ x xs, cs = x :: xs ∧ x ≠ '\n' ∧ x ≠ '\r') :
    feed? ⟨.between, ts⟩ ([q.char, q.char, q.char] ++ (if alone then ['\n'] else []) ++ cs) =
      feed? ⟨.many q [] 0, ts⟩ cs := by
  have hopen : feed? ⟨.between, ts⟩ [q.char, q.char, q.char] = some ⟨.manyStart q false, ts⟩ := by
    cases q <;> rfl
  rw [List.append_assoc, feed?_append, hopen, Option.bind_some]
  cases alone with
  | true => rfl
  | false =>
    obtain ⟨x, xs, rfl, hline, hreturn⟩ := hfirst rfl
    have hstep : step ⟨.manyStart q false, ts⟩ x = step ⟨.many q [] 0, ts⟩ x := by
      simp [step, hline, hreturn, inMany, go]
    exact congrArg (Option.bind · _) hstep

def Ended (written cs : List Char) : Prop :=
  ∃ lines, ∀ ts c, c ≠ '"' → c ≠ '\'' → feed? ⟨.between, ts⟩ (written ++ [c]) =
    between ⟨.between, .text (String.ofList cs) lines :: ts⟩ c

theorem ended_many {written cs : List Char} (hread : ∀ ts, ReadsOn ts q written cs [] 0)
    (hfirst : '\n' ∉ cs → ∀ x ∈ written.head?, x ≠ '\n' ∧ x ≠ '\r') :
    Ended ([q.char, q.char, q.char] ++ (if '\n' ∈ cs then ['\n'] else []) ++ written ++
      [q.char, q.char, q.char]) cs := by
  refine ⟨true, fun ts c hdouble hsingle => ?_⟩
  obtain ⟨acc, n, hn, hpending, hfeed⟩ := hread ts
  have hnil : pending q [] 0 = [] := rfl
  rw [hnil, List.append_nil] at hpending
  have halone : decide ('\n' ∈ cs) = false → ∃ x xs,
      written ++ ([q.char, q.char, q.char] ++ [c]) = x :: xs ∧ x ≠ '\n' ∧ x ≠ '\r' := by
    intro halone
    have hline : '\n' ∉ cs := by simpa using halone
    cases written with
    | nil => exact ⟨q.char, _, rfl, by cases q <;> decide, by cases q <;> decide⟩
    | cons x xs => exact ⟨x, _, rfl, hfirst hline x rfl⟩
  have hopening := feed?_opening ts q (decide ('\n' ∈ cs)) halone
  simp only [decide_eq_true_eq] at hopening
  rw [List.append_assoc, List.append_assoc, hopening, feed?_append, hfeed, Option.bind_some,
    feed?_closing ts q acc hn (char_ne q hdouble hsingle), hpending, List.reverse_reverse]

theorem ended_single {written cs : List Char}
    (hread : ∀ ts, feed? ⟨.single q [], ts⟩ written = some ⟨.single q cs.reverse, ts⟩)
    (hfirst : ∀ x ∈ written.head?, x ≠ q.char) : Ended ([q.char] ++ written ++ [q.char]) cs := by
  refine ⟨false, fun ts c hdouble hsingle => ?_⟩
  have hread := hread ts
  have hc := char_ne q hdouble hsingle
  have hopen : feed? ⟨.between, ts⟩ [q.char] = some ⟨.quotes q 1, ts⟩ := by
    cases q <;> rfl
  rw [List.append_assoc, List.append_assoc, feed?_append, hopen, Option.bind_some]
  cases written with
  | nil =>
    have hcs : cs = [] := by simpa [feed?] using hread
    subst hcs
    simp [feed?, step, go, add, hc]
  | cons x xs =>
    have hx : x ≠ q.char := hfirst x rfl
    have hstep : step ⟨.quotes q 1, ts⟩ x = step ⟨.single q [], ts⟩ x := by
      simp [step, hx, inSingle, go]
    have hbody : feed? ⟨.quotes q 1, ts⟩ (x :: xs) = some ⟨.single q cs.reverse, ts⟩ :=
      (congrArg (Option.bind · _) hstep).trans hread
    have hend : step ⟨.single q cs.reverse, ts⟩ q.char =
        some ⟨.between, .text (String.ofList cs) false :: ts⟩ := by
      simp [step, inSingle, add]
    rw [feed?_append, hbody, Option.bind_some, feed?_append, feed?_singleton, hend,
      Option.bind_some, feed?_singleton]
    rfl

theorem head?_escapeAll {lines : Bool} {cs : List Char} {x : Char}
    (hx : x ∈ (escapeAll lines 0 cs).head?) :
    x = '\\' ∨ x ∈ cs ∧ (x ≠ '"' ∧ isControl x = false ∨ lines = true ∧ (x = '\n' ∨ x = '"')) := by
  cases cs with
  | nil => cases hx
  | cons c cs =>
    rw [escapeAll] at hx
    rcases escaped_cases lines 0 c with ⟨rest, hwritten, -⟩ | ⟨hwritten, hraw⟩
    · simp only [hwritten, List.cons_append, List.head?_cons, Option.mem_some_iff] at hx
      exact .inl hx.symm
    · simp only [hwritten, List.cons_append, List.head?_cons, Option.mem_some_iff] at hx
      subst hx
      refine .inr ⟨List.mem_cons_self, hraw.imp (fun h => ⟨h.1, h.2.2⟩) fun h => ⟨h.1, ?_⟩⟩
      exact h.2.imp_right And.left

theorem not_mem_of_longestRun {c : Char} {now most : Nat} {cs : List Char}
    (h : longestRun c now most cs = 0) : c ∉ cs := by
  induction cs generalizing now most with
  | nil => exact List.not_mem_nil
  | cons d cs ih =>
    rw [longestRun] at h
    split at h
    next =>
      have hmost := le_longestRun c (now + 1) (max most (now + 1)) cs
      omega
    next hne =>
      rw [List.mem_cons, not_or]
      exact ⟨Ne.symm hne, ih h⟩

theorem style_literal {cs : List Char} (h : style cs = .literal) :
    ∀ c ∈ cs, c ≠ '\'' ∧ isControl c = false := by
  unfold style at h
  dsimp only at h
  split_ifs at h with _ hliteral
  obtain ⟨hescape, hrun, hline⟩ := hliteral
  simp only [Bool.not_eq_true', List.any_eq_false, Bool.not_eq_true] at hescape
  simp only [Bool.not_eq_true', decide_eq_false_iff_not] at hline
  intro c hc
  refine ⟨?_, isControl_eq (hescape c hc) fun heq => hline (heq ▸ hc)⟩
  rintro rfl
  exact not_mem_of_longestRun hrun hc

theorem style_literalLines {cs : List Char} (h : style cs = .literalLines) :
    (∀ c ∈ cs, needsEscape c = false) ∧ longestRun '\'' 0 0 cs ≤ 2 := by
  unfold style at h
  dsimp only at h
  split_ifs at h with _ _ _ hlines
  obtain ⟨hescape, hrun⟩ := hlines
  simp only [Bool.not_eq_true', List.any_eq_false, Bool.not_eq_true] at hescape
  exact ⟨hescape, hrun⟩

theorem ended_write (cs : List Char) : Ended (write cs) cs := by
  unfold write
  cases hstyle : style cs with
  | basic =>
    apply ended_single .basic
    · intro ts
      rw [feed?_escapes, List.append_nil]
    · intro x hx
      rcases head?_escapeAll hx with rfl | ⟨-, hplain | ⟨hlines, -⟩⟩
      · decide
      · exact hplain.1
      · cases hlines
  | literal =>
    apply ended_single .literal
    · intro ts
      rw [feed?_plain ts [] (style_literal hstyle), List.append_nil]
    · intro x hx
      exact (style_literal hstyle x (List.mem_of_head? hx)).1
  | basicLines =>
    apply ended_many .basic fun ts => readsOn_escapes ts [] (Nat.zero_le 2) cs
    intro hline x hx
    rcases head?_escapeAll hx with rfl | ⟨hmem, ⟨-, hcontrol⟩ | ⟨-, rfl | rfl⟩⟩
    · decide
    · constructor <;> rintro rfl <;> simp [isControl] at hcontrol
    · exact absurd hmem hline
    · decide
  | literalLines =>
    obtain ⟨hescape, hrun⟩ := style_literalLines hstyle
    apply ended_many .literal fun ts => readsOn_plain_run ts [] (Nat.zero_le 2) hescape hrun
    intro hline x hx
    have hmem := List.mem_of_head? hx
    refine ⟨fun heq => hline (heq ▸ hmem), ?_⟩
    rintro rfl
    have hreturn := hescape _ hmem
    revert hreturn
    decide

end HostedTests.Toml.Token.Scan
