import HostedTests.Proofs.Channel.Frame
import Mathlib.Data.Nat.Digits.Defs

namespace HostedTests.Frame

def value (octets : List UInt8) : ℕ := Nat.ofDigits 128 (octets.map fun b => b.toNat % 128)

/-- One to five octets, of which only the last has no high bit. A fifth has four bits at most. -/
structure IsHead (init : List UInt8) (last : UInt8) : Prop where
  more : ∀ b ∈ init, 128 ≤ b.toNat
  ends : last.toNat < 128
  length : init.length ≤ 4
  fifth : init.length = 4 → last.toNat ≤ 15

/-- A stream, what one read of it comes to, and what is left of the stream. -/
inductive Parses (most : ℕ) : Source → Except ChannelFault (Option String) → Source → Prop where
  | ended : Parses most ⟨[], .closed⟩ (.ok none) ⟨[], .closed⟩
  | broken (system : String) :
    Parses most ⟨[], .broken system⟩ (.error (.receive system)) ⟨[], .broken system⟩
  | cutHead (octets : List UInt8) (ending : Ending) :
    octets ≠ [] → octets.length < 5 → (∀ b ∈ octets, 128 ≤ b.toNat) →
    Parses most ⟨octets, ending⟩ (.error (Source.fault ⟨octets, ending⟩)) ⟨[], ending⟩
  | overflow (init : List UInt8) (last : UInt8) (rest : List UInt8) (ending : Ending) :
    init.length = 4 → (∀ b ∈ init, 128 ≤ b.toNat) → 15 < last.toNat →
    Parses most ⟨init ++ last :: rest, ending⟩
      (.error (.invalidFrame "length prefix overflows u32")) ⟨rest, ending⟩
  | tooLarge (init : List UInt8) (last : UInt8) (rest : List UInt8) (ending : Ending) :
    IsHead init last → most < value (init ++ [last]) →
    Parses most ⟨init ++ last :: rest, ending⟩
      (.error (.frameTooLarge (value (init ++ [last])) most)) ⟨rest, ending⟩
  | cutBody (init : List UInt8) (last : UInt8) (rest : List UInt8) (ending : Ending) :
    IsHead init last → value (init ++ [last]) ≤ most → rest.length < value (init ++ [last]) →
    Parses most ⟨init ++ last :: rest, ending⟩
      (.error (Source.fault ⟨init ++ last :: rest, ending⟩)) ⟨[], ending⟩
  | malformed (init : List UInt8) (last : UInt8) (body rest : List UInt8) (ending : Ending)
    (f : Text.Utf8.Fault) :
    IsHead init last → value (init ++ [last]) = body.length → body.length ≤ most →
    (∀ text : String, Text.Utf8.encode text.toList ≠ body) → Text.Utf8.decode body = .error f →
    Parses most ⟨init ++ last :: (body ++ rest), ending⟩
      (.error (.invalidFrame ("frame is not UTF-8: " ++ f.message))) ⟨rest, ending⟩
  | text (init : List UInt8) (last : UInt8) (text : String) (rest : List UInt8) (ending : Ending) :
    IsHead init last → value (init ++ [last]) = (Text.Utf8.encode text.toList).length →
    (Text.Utf8.encode text.toList).length ≤ most →
    Parses most ⟨init ++ last :: (Text.Utf8.encode text.toList ++ rest), ending⟩
      (.ok (some text)) ⟨rest, ending⟩

inductive ReadsOn (most : ℕ) : Source → List String → Source → Prop where
  | nil (s : Source) : ReadsOn most s [] s
  | cons {s t u : Source} {text : String} {texts : List String} :
    Parses most s (.ok (some text)) t → ReadsOn most t texts u → ReadsOn most s (text :: texts) u

def lastRead : Option ChannelFault → Except ChannelFault (Option String)
  | none => .ok none
  | some f => .error f

theorem value_cons (b : UInt8) (octets : List UInt8) :
    value (b :: octets) = b.toNat % 128 + 128 * value octets := by
  rw [value, List.map_cons, Nat.ofDigits_cons]
  rfl

theorem value_concat (init : List UInt8) (last : UInt8) :
    value (init ++ [last]) = value init + last.toNat % 128 * 2 ^ (7 * init.length) := by
  rw [value, List.map_append, Nat.ofDigits_append, List.length_map, List.map_singleton,
    Nat.ofDigits_singleton, Nat.pow_mul, Nat.mul_comm]
  rfl

theorem readPrefix_more (index : ℕ) (n : UInt32) (init rest : List UInt8)
    (hinit : ∀ b ∈ init, 128 ≤ b.toNat) (hlength : index + init.length < longestPrefix)
    (hn : n.toNat < 2 ^ (7 * index)) :
    ∃ m : UInt32, readPrefix index n (init ++ rest) = readPrefix (index + init.length) m rest ∧
      m.toNat = n.toNat + value init * 2 ^ (7 * index) ∧
      m.toNat < 2 ^ (7 * (index + init.length)) := by
  induction init generalizing index n with
  | nil =>
    refine ⟨n, rfl, ?_, hn⟩
    rw [value, List.map_nil, Nat.ofDigits_nil, Nat.zero_mul, Nat.add_zero]
  | cons b init ih =>
    obtain ⟨hb, hinit⟩ := List.forall_mem_cons.mp hinit
    rw [List.length_cons] at hlength
    have hindex : index < longestPrefix := by omega
    have hfits : ¬(index + 1 = longestPrefix ∧ 15 < b.toNat) := by omega
    have hpow : (2 : ℕ) ^ (7 * (index + 1)) = 128 * 2 ^ (7 * index) := by
      rw [Nat.mul_succ, Nat.pow_add, Nat.mul_comm]
    obtain ⟨m, hread, hvalue, hbound⟩ :=
      ih (index + 1) (withGroup index n b) hinit (by omega) (withGroup_lt hindex hn hfits)
    have hnext : index + (b :: init).length = index + 1 + init.length := by
      rw [List.length_cons, Nat.add_comm init.length, Nat.add_assoc]
    refine ⟨m, ?_, ?_, ?_⟩
    · rw [List.cons_append, readPrefix_cons, if_neg hfits, if_neg (Nat.not_lt.mpr hb), hread, hnext]
    · rw [hvalue, toNat_withGroup hindex hn hfits, value_cons, hpow, Nat.add_mul, Nat.add_assoc,
        Nat.mul_left_comm, ← Nat.mul_assoc]
    · rw [hnext]
      exact hbound

theorem readPrefix_head {init : List UInt8} {last : UInt8} (h : IsHead init last)
    (rest : List UInt8) :
    ∃ length, readPrefix 0 0 (init ++ last :: rest) = .length length rest ∧
      length.toNat = value (init ++ [last]) := by
  have hlength := h.length
  obtain ⟨m, hread, hvalue, hbound⟩ := readPrefix_more 0 0 init (last :: rest)
    h.more (by rw [longestPrefix]; omega) (by decide)
  rw [Nat.zero_add] at hread hbound
  have hindex : init.length < longestPrefix := Nat.lt_succ_of_le hlength
  have hfits : ¬(init.length + 1 = longestPrefix ∧ 15 < last.toNat) := by
    rintro ⟨hi, hlast⟩
    exact Nat.not_le.mpr hlast (h.fifth (Nat.succ.inj hi))
  refine ⟨withGroup init.length m last, ?_, ?_⟩
  · rw [hread, readPrefix_cons, if_neg hfits, if_pos h.ends]
  · rw [toNat_withGroup hindex hbound hfits, hvalue, value_concat, UInt32.toNat_zero, Nat.zero_add,
      Nat.mul_zero, Nat.pow_zero, Nat.mul_one]

theorem readPrefix_overflow {init : List UInt8} {last : UInt8} (hlength : init.length = 4)
    (hinit : ∀ b ∈ init, 128 ≤ b.toNat) (hlast : 15 < last.toNat) (rest : List UInt8) :
    readPrefix 0 0 (init ++ last :: rest) = .overflow rest := by
  obtain ⟨m, hread, -, -⟩ := readPrefix_more 0 0 init (last :: rest) hinit
    (by rw [longestPrefix]; omega) (by decide)
  rw [hread, Nat.zero_add, hlength, readPrefix_cons, if_pos ⟨rfl, hlast⟩]

theorem readPrefix_cut {octets : List UInt8} (hlength : octets.length < 5)
    (hoctets : ∀ b ∈ octets, 128 ≤ b.toNat) : readPrefix 0 0 octets = .cut octets.length := by
  obtain ⟨m, hread, -, -⟩ := readPrefix_more 0 0 octets [] hoctets
    (by rw [longestPrefix]; omega) (by decide)
  rw [List.append_nil, Nat.zero_add] at hread
  rw [hread, readPrefix]

theorem read_of_parses {most : ℕ} {s t : Source} {r : Except ChannelFault (Option String)}
    (h : Parses most s r t) : read most s = (r, t) := by
  cases h with
  | ended => rfl
  | broken system => rfl
  | cutHead octets ending hne hlength hoctets =>
    obtain ⟨b, octets, rfl⟩ := List.exists_cons_of_ne_nil hne
    rw [read, readPrefix_cut hlength hoctets]
    rfl
  | overflow init last rest ending hlength hinit hlast =>
    rw [read, readPrefix_overflow hlength hinit hlast]
    rfl
  | tooLarge init last rest ending hhead hmost =>
    obtain ⟨length, hread, hvalue⟩ := readPrefix_head hhead rest
    rw [read, hread]
    simp only [hvalue, if_pos hmost, Source.after]
  | cutBody init last rest ending hhead hmost hshort =>
    obtain ⟨length, hread, hvalue⟩ := readPrefix_head hhead rest
    have htake : (rest.take length.toNat).length < length.toNat := by
      rw [List.length_take, hvalue]
      omega
    rw [hvalue] at htake
    rw [read, hread]
    simp only [hvalue, if_neg (Nat.not_lt.mpr hmost), if_pos htake, Source.after]
  | malformed init last body rest ending f hhead hsize hmost _ hdecode =>
    obtain ⟨length, hread, hvalue⟩ := readPrefix_head hhead (body ++ rest)
    rw [hsize] at hvalue
    rw [read, hread]
    simp only [hvalue, if_neg (Nat.not_lt.mpr hmost), List.take_left, if_neg (Nat.lt_irrefl _),
      List.drop_left, bodyText, hdecode, Source.after]
  | text init last text rest ending hhead hsize hmost =>
    obtain ⟨length, hread, hvalue⟩ :=
      readPrefix_head hhead (Text.Utf8.encode text.toList ++ rest)
    rw [hsize] at hvalue
    rw [read, hread]
    simp only [hvalue, if_neg (Nat.not_lt.mpr hmost), List.take_left, if_neg (Nat.lt_irrefl _),
      List.drop_left, bodyText, Text.Utf8.decode_encode, String.ofList_toList, Source.after]

theorem split_head (k : ℕ) (octets : List UInt8) :
    (octets.length ≤ k ∧ ∀ b ∈ octets, 128 ≤ b.toNat) ∨
    ∃ init last rest, octets = init ++ last :: rest ∧ (∀ b ∈ init, 128 ≤ b.toNat) ∧
      init.length ≤ k ∧ (last.toNat < 128 ∨ init.length = k) := by
  induction k generalizing octets with
  | zero =>
    cases octets with
    | nil => exact Or.inl ⟨Nat.le_refl 0, nofun⟩
    | cons b octets => exact Or.inr ⟨[], b, octets, rfl, nofun, Nat.le_refl 0, Or.inr rfl⟩
  | succ k ih =>
    cases octets with
    | nil => exact Or.inl ⟨Nat.zero_le _, nofun⟩
    | cons b octets =>
      rcases Nat.lt_or_ge b.toNat 128 with hb | hb
      · exact Or.inr ⟨[], b, octets, rfl, nofun, Nat.zero_le _, Or.inl hb⟩
      · rcases ih octets with ⟨hlength, hhigh⟩ | ⟨init, last, rest, rfl, hinit, hlength, hlast⟩
        · exact Or.inl ⟨Nat.succ_le_succ hlength, List.forall_mem_cons.mpr ⟨hb, hhigh⟩⟩
        · refine Or.inr ⟨b :: init, last, rest, rfl, List.forall_mem_cons.mpr ⟨hb, hinit⟩,
            Nat.succ_le_succ hlength, ?_⟩
          exact hlast.imp_right (congrArg Nat.succ)

theorem head_cases (octets : List UInt8) :
    (octets.length < 5 ∧ ∀ b ∈ octets, 128 ≤ b.toNat) ∨
    (∃ init last rest, octets = init ++ last :: rest ∧ init.length = 4 ∧
      (∀ b ∈ init, 128 ≤ b.toNat) ∧ 15 < last.toNat) ∨
    ∃ init last rest, octets = init ++ last :: rest ∧ IsHead init last := by
  rcases split_head 4 octets with ⟨hlength, hhigh⟩ | ⟨init, last, rest, rfl, hinit, hlength, hlast⟩
  · exact Or.inl ⟨Nat.lt_succ_of_le hlength, hhigh⟩
  · by_cases hover : init.length = 4 ∧ 15 < last.toNat
    · exact Or.inr (Or.inl ⟨init, last, rest, rfl, hover.1, hinit, hover.2⟩)
    · refine Or.inr (Or.inr ⟨init, last, rest, rfl, hinit, ?_, hlength, ?_⟩)
      · omega
      · omega

theorem parses_body (most : ℕ) {init : List UInt8} {last : UInt8} (hhead : IsHead init last)
    (rest : List UInt8) (ending : Ending) :
    ∃ r t, Parses most ⟨init ++ last :: rest, ending⟩ r t := by
  rcases Nat.lt_or_ge most (value (init ++ [last])) with hlarge | hmost
  · exact ⟨_, _, .tooLarge init last rest ending hhead hlarge⟩
  rcases Nat.lt_or_ge rest.length (value (init ++ [last])) with hshort | hfull
  · exact ⟨_, _, .cutBody init last rest ending hhead hmost hshort⟩
  obtain ⟨body, left, rfl, hsize⟩ :
      ∃ body left, rest = body ++ left ∧ value (init ++ [last]) = body.length :=
    ⟨_, _, (List.take_append_drop _ rest).symm, (List.length_take_of_le hfull).symm⟩
  rw [hsize] at hmost
  cases hdecode : Text.Utf8.decode body with
  | ok cs =>
    obtain rfl := (Text.Utf8.decode_eq_ok_iff body cs).mp hdecode
    have htext := @Parses.text most init last (String.ofList cs) left ending hhead
    rw [String.toList_ofList] at htext
    exact ⟨_, _, htext hsize hmost⟩
  | error f =>
    refine ⟨_, _, .malformed init last body left ending f hhead hsize hmost ?_ hdecode⟩
    rintro text rfl
    rw [Text.Utf8.decode_encode] at hdecode
    cases hdecode

theorem parses_total (most : ℕ) (s : Source) : ∃ r t, Parses most s r t := by
  obtain ⟨octets, ending⟩ := s
  rcases head_cases octets with ⟨hlength, hhigh⟩ |
    ⟨init, last, rest, rfl, hlength, hinit, hlast⟩ | ⟨init, last, rest, rfl, hhead⟩
  · cases octets with
    | nil =>
      cases ending with
      | closed => exact ⟨_, _, .ended⟩
      | broken system => exact ⟨_, _, .broken system⟩
    | cons b octets =>
      exact ⟨_, _, .cutHead (b :: octets) ending (List.cons_ne_nil b octets) hlength hhigh⟩
  · exact ⟨_, _, .overflow init last rest ending hlength hinit hlast⟩
  · exact parses_body most hhead rest ending

theorem read_eq_iff_parses (most : ℕ) (s : Source) (r : Except ChannelFault (Option String))
    (t : Source) : read most s = (r, t) ↔ Parses most s r t := by
  constructor
  · intro h
    obtain ⟨r', t', hparses⟩ := parses_total most s
    cases h.symm.trans (read_of_parses hparses)
    exact hparses
  · exact read_of_parses

theorem readsOn_length {most : ℕ} {s t : Source} {texts : List String}
    (h : ReadsOn most s texts t) : texts.length + t.octets.length ≤ s.octets.length := by
  induction h with
  | nil s => exact Nat.le_of_eq (Nat.zero_add _)
  | @cons s t u text texts hparses _ ih =>
    have hread := read_of_parses hparses
    have hshorter := read_shorter (congrArg Prod.fst hread)
    rw [hread] at hshorter
    change t.octets.length < s.octets.length at hshorter
    rw [List.length_cons]
    omega

theorem readsOn_readAllFrom (most : ℕ) (done : List String) (s : Source) :
    ∃ texts t fault rest, ReadsOn most s texts t ∧ Parses most t (lastRead fault) rest ∧
      readAllFrom most done s = ⟨done.reverse ++ texts, fault, rest⟩ := by
  fun_induction readAllFrom most done s with
  | case1 done s text h _ ih =>
    obtain ⟨texts, t, fault, rest, hreads, hlast, hall⟩ := ih
    have hparses : Parses most s (.ok (some text)) (read most s).2 :=
      (read_eq_iff_parses most s _ _).mp (Prod.ext h rfl)
    refine ⟨text :: texts, t, fault, rest, .cons hparses hreads, hlast, ?_⟩
    rw [hall, List.reverse_cons, List.append_assoc]
    rfl
  | case2 done s h =>
    refine ⟨[], s, none, (read most s).2, .nil s, ?_, ?_⟩
    · exact (read_eq_iff_parses most s _ _).mp (Prod.ext h rfl)
    · rw [List.append_nil]
  | case3 done s f h =>
    refine ⟨[], s, some f, (read most s).2, .nil s, ?_, ?_⟩
    · exact (read_eq_iff_parses most s _ _).mp (Prod.ext h rfl)
    · rw [List.append_nil]

/-- On every stream a read comes to what the rules of a frame say and leaves what they say. Reading
on ends: there are no more texts than octets, and after the last one comes the end or a fault. -/
theorem reads_follow_rules (most : ℕ) (s : Source) :
    (∀ r t, read most s = (r, t) ↔ Parses most s r t) ∧
      (∀ texts t, ReadsOn most s texts t → texts.length ≤ s.octets.length) ∧
      ∃ texts t fault rest, ReadsOn most s texts t ∧ Parses most t (lastRead fault) rest ∧
        readAll most s = ⟨texts, fault, rest⟩ := by
  refine ⟨read_eq_iff_parses most s, ?_, readsOn_readAllFrom most [] s⟩
  intro texts t h
  have := readsOn_length h
  omega

end HostedTests.Frame
