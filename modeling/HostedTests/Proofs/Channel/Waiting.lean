import HostedTests.Proofs.Channel.Parsing

namespace HostedTests.Frame

theorem settled_fault (s : Source) : settled (.error s.fault) = false := by
  obtain ⟨octets, ending⟩ := s
  cases ending <;> rfl

theorem Parses.append {most : ℕ} {s t : Source} {r : Except ChannelFault (Option String)}
    (h : Parses most s r t) (hr : settled r = true) (more : List UInt8) (ending : Ending) :
    Parses most ⟨s.octets ++ more, ending⟩ r ⟨t.octets ++ more, ending⟩ := by
  cases h with
  | ended => cases hr
  | broken system => cases hr
  | cutHead octets ending' hne hlength hoctets =>
    rw [settled_fault] at hr
    cases hr
  | cutBody init last rest ending' hhead hmost hshort =>
    rw [settled_fault] at hr
    cases hr
  | overflow init last rest ending' hlength hinit hlast =>
    rw [List.append_assoc, List.cons_append]
    exact .overflow init last (rest ++ more) ending hlength hinit hlast
  | tooLarge init last rest ending' hhead hmost =>
    rw [List.append_assoc, List.cons_append]
    exact .tooLarge init last (rest ++ more) ending hhead hmost
  | malformed init last body rest ending' f hhead hsize hmost htext hdecode =>
    rw [List.append_assoc, List.cons_append, List.append_assoc]
    exact .malformed init last body (rest ++ more) ending f hhead hsize hmost htext hdecode
  | text init last text rest ending' hhead hsize hmost =>
    rw [List.append_assoc, List.cons_append, List.append_assoc]
    exact .text init last text (rest ++ more) ending hhead hsize hmost

theorem read_of_settled {most : ℕ} {s : Source} (h : settled (read most s).1 = true)
    (more : List UInt8) (ending : Ending) :
    read most ⟨s.octets ++ more, ending⟩ =
      ((read most s).1, ⟨(read most s).2.octets ++ more, ending⟩) :=
  read_of_parses (((read_eq_iff_parses most s _ _).mp rfl).append h more ending)

theorem settled_read (most : ℕ) (octets : List UInt8) (ending ending' : Ending) :
    settled (read most ⟨octets, ending⟩).1 = settled (read most ⟨octets, ending'⟩).1 := by
  have hsettled (e e' : Ending) (h : settled (read most ⟨octets, e⟩).1 = true) :
      settled (read most ⟨octets, e'⟩).1 = true := by
    have hread := read_of_settled h [] e'
    rw [List.append_nil] at hread
    rw [hread]
    exact h
  rw [Bool.eq_iff_iff]
  exact ⟨hsettled ending ending', hsettled ending' ending⟩

theorem awaits_eq_false_iff (most : ℕ) (octets : List UInt8) (ending : Ending) :
    awaits most octets = false ↔ settled (read most ⟨octets, ending⟩).1 = true := by
  rw [awaits, Bool.not_eq_false', settled_read most octets .closed ending]

theorem ReadsOn.append {most : ℕ} {s t : Source} {texts : List String} (h : ReadsOn most s texts t)
    (more : List UInt8) (ending : Ending) :
    ReadsOn most ⟨s.octets ++ more, ending⟩ texts ⟨t.octets ++ more, ending⟩ := by
  induction h with
  | nil s => exact .nil _
  | cons hparses _ ih => exact .cons (hparses.append rfl more ending) ih

theorem ReadsOn.ending_eq {most : ℕ} {s t : Source} {texts : List String}
    (h : ReadsOn most s texts t) : t.ending = s.ending := by
  induction h with
  | nil s => rfl
  | cons hparses _ ih =>
    rw [ih]
    cases hparses
    rfl

theorem ReadsOn.trans {most : ℕ} {s t u : Source} {texts more : List String}
    (h : ReadsOn most s texts t) (k : ReadsOn most t more u) :
    ReadsOn most s (texts ++ more) u := by
  induction h with
  | nil s => exact k
  | cons hparses _ ih => exact .cons hparses (ih k)

theorem readAllFrom_readsOn {most : ℕ} {s t : Source} {texts : List String}
    (h : ReadsOn most s texts t) (done : List String) :
    readAllFrom most done s = readAllFrom most (texts.reverse ++ done) t := by
  induction h generalizing done with
  | nil s => rfl
  | cons hparses _ ih =>
    rw [readAllFrom_text done (read_of_parses hparses), ih, List.reverse_cons, List.append_assoc]
    rfl

theorem readAllFrom_last {most : ℕ} {s t : Source} {fault : Option ChannelFault}
    (h : read most s = (lastRead fault, t)) (done : List String) :
    readAllFrom most done s = ⟨done.reverse, fault, t⟩ := by
  rw [readAllFrom]
  split
  · rename_i hfound
    rw [h] at hfound
    cases fault <;> cases hfound
  · rename_i hnone
    rw [h] at hnone ⊢
    cases fault
    · rfl
    · cases hnone
  · rename_i hfault
    rw [h] at hfault ⊢
    cases fault <;> cases hfault
    rfl

theorem readAll_eq {most : ℕ} {s t u : Source} {texts : List String} {fault : Option ChannelFault}
    (h : ReadsOn most s texts t) (hlast : read most t = (lastRead fault, u)) :
    readAll most s = ⟨texts, fault, u⟩ := by
  rw [readAll, readAllFrom_readsOn h, readAllFrom_last hlast, List.append_nil, List.reverse_reverse]

theorem readAll_readsOn {most : ℕ} {s t : Source} {texts : List String}
    (h : ReadsOn most s texts t) :
    (readAll most s).texts = texts ++ (readAll most t).texts ∧
      (readAll most s).fault = (readAll most t).fault := by
  obtain ⟨more, u, fault, rest, hmore, hlast, hall⟩ := readsOn_readAllFrom most [] t
  rw [readAll_eq (h.trans hmore) (read_of_parses hlast), readAll, hall]
  exact ⟨rfl, rfl⟩

end HostedTests.Frame
