import HostedTests.Proofs.Host.Ending

namespace HostedTests

namespace RunCriteria

theorem firstSeen_concat (items : List String) (s : String) :
    firstSeen (items ++ [s]) =
      if s ∈ firstSeen items then firstSeen items else firstSeen items ++ [s] := by
  rw [firstSeen, List.foldl_append]
  rfl

theorem firstSeen_ordered (items : List String) :
    (firstSeen items).Pairwise fun s t => items.idxOf s < items.idxOf t := by
  induction items using List.reverseRecOn with
  | nil => exact .nil
  | append_singleton items item ih =>
    have hplace {s : String} (hs : s ∈ firstSeen items) :
        (items ++ [item]).idxOf s = items.idxOf s :=
      List.idxOf_append_of_mem ((mem_firstSeen items s).mp hs)
    have hkept : (firstSeen items).Pairwise fun s t =>
        (items ++ [item]).idxOf s < (items ++ [item]).idxOf t := by
      apply ih.imp_of_mem
      intro s t hs ht hlt
      rwa [hplace hs, hplace ht]
    rw [firstSeen_concat]
    split
    · exact hkept
    · rename_i hnew
      refine List.pairwise_append.mpr ⟨hkept, List.pairwise_singleton .., ?_⟩
      intro s hs t ht
      obtain rfl := List.mem_singleton.mp ht
      rw [hplace hs, List.idxOf_append_of_notMem (mt (mem_firstSeen items t).mpr hnew)]
      exact Nat.lt_add_right _ (List.idxOf_lt_length_of_mem ((mem_firstSeen items s).mp hs))

theorem firstSeen_nodup (items : List String) : (firstSeen items).Nodup := by
  apply (firstSeen_ordered items).imp
  rintro s t hlt rfl
  exact Nat.lt_irrefl _ hlt

theorem firstSeen_eq_nil_iff (items : List String) : firstSeen items = [] ↔ items = [] := by
  simp only [List.eq_nil_iff_forall_not_mem, mem_firstSeen]

theorem fault?_eq_none_iff (c : RunCriteria) : c.fault? = none ↔ c.touched ≠ [] := by
  rw [touched, Ne, firstSeen_eq_nil_iff]
  cases c with
  | sources c =>
    simp only [fault?, mentioned, List.all_eq_true, List.isEmpty_iff, List.flatten_eq_nil_iff,
      ite_eq_right_iff, reduceCtorEq, imp_false]
  | tests c =>
    simp only [fault?, mentioned, List.isEmpty_iff, List.map_eq_nil_iff, ite_eq_right_iff,
      reduceCtorEq, imp_false]

end RunCriteria

namespace Session

variable (react : Reaction) (s : Session)

theorem startOperation_ne_invalidCriteria (kind : OperationKind) (party : Nat) (request : Message)
    (f : CriteriaFault) :
    (s.startOperation react kind party request).1 ≠ .error (.invalidCriteria f) := by
  unfold startOperation
  split
  · rename_i f' hline
    rintro ⟨⟩
    unfold line? at hline
    split at hline
    · cases hline
    · split at hline <;> cases hline
  · split
    · rintro ⟨⟩
    · dsimp only
      split <;> rintro ⟨⟩

theorem run_invalidCriteria_iff (c : RunCriteria) (party : Nat) :
    (∃ f, (s.run react c party).1 = .error (.invalidCriteria f)) ↔
      s.closed = false ∧ c.touched = [] := by
  rw [run]
  cases s.closed with
  | true =>
    rw [if_pos rfl]
    constructor
    · rintro ⟨f, ⟨⟩⟩
    · rintro ⟨⟨⟩, -⟩
  | false =>
    rw [if_neg Bool.false_ne_true, and_iff_right rfl]
    have hfault := c.fault?_eq_none_iff
    cases hf : c.fault? with
    | some f =>
      rw [hf] at hfault
      exact iff_of_true ⟨f, rfl⟩ (of_not_not fun hne => nomatch hfault.mpr hne)
    | none =>
      refine iff_of_false ?_ (hfault.mp hf)
      rintro ⟨f, hstart⟩
      exact startOperation_ne_invalidCriteria react s _ _ _ f hstart

end Session

def Surroundings.Reaches (w : Surroundings) (sources read : List String) : Option String → Prop
  | none => w.CrashFree sources ∧ read = sources
  | some text => ∃ before source after, sources = before ++ source :: after ∧
      read = before ++ [source] ∧ w.CrashFree before ∧
      (w.lines source).findSome? SourceLine.crash? = some text

theorem Surroundings.Reaches.cons {w : Surroundings} {source : String} {sources read : List String}
    {crash : Option String} (hfree : w.CrashFree [source]) (h : w.Reaches sources read crash) :
    w.Reaches (source :: sources) (source :: read) crash := by
  have hcons {before : List String} (hbefore : w.CrashFree before) :
      w.CrashFree (source :: before) :=
    List.forall_mem_cons.mpr ⟨List.forall_mem_singleton.mp hfree, hbefore⟩
  cases crash with
  | none => exact ⟨hcons h.1, congrArg (source :: ·) h.2⟩
  | some text =>
    obtain ⟨before, crashing, after, rfl, rfl, hbefore, hcrash⟩ := h
    exact ⟨source :: before, crashing, after, rfl, rfl, hcons hbefore, hcrash⟩

namespace ReferenceHost

variable (w : Surroundings)

def reads (l : Loaded) : List String → List String
  | [] => []
  | source :: rest =>
    if l.crash.isSome then [] else source :: reads (loadSource w l source) rest

def readsFor (h : ReferenceHost) (c : SourcesCriteria) : List String :=
  reads w ⟨[], [], none, h.nextId⟩ (newTo .empty c.adapterSources.values.flatten)

def afterReading (h : ReferenceHost) (c : SourcesCriteria) (nextId : Nat) (read : List String) :
    Option String → List Message × ReferenceHost
  | some text => (read.filterMap w.warning?, { h with nextId }.finish (.crashed text))
  | none =>
    let ran := { h with nextId }.run w (w.testsOf h.nextId read) c.context
    (read.filterMap w.warning? ++ ran.1, ran.2)

theorem reads_crashed {l : Loaded} (h : l.crash.isSome) (sources : List String) :
    reads w l sources = [] := by
  cases sources with
  | nil => rfl
  | cons source rest => rw [reads, if_pos h]

theorem reaches_reads (sources : List String) {l : Loaded} (h : l.crash = none) :
    ∃ crash, w.Reaches sources (reads w l sources) crash := by
  induction sources generalizing l with
  | nil => exact ⟨none, List.forall_mem_nil _, rfl⟩
  | cons source rest ih =>
    have hgoes : ¬l.crash.isSome = true := by simp [h]
    obtain ⟨hcrash, -⟩ := loadSource_crash w source h
    rw [reads, if_neg hgoes]
    cases hlines : (w.lines source).findSome? SourceLine.crash? with
    | none =>
      have hfree : w.CrashFree [source] := by
        rw [w.crashFree_iff, List.flatMap_singleton, hlines]
      obtain ⟨crash, hreaches⟩ := ih (hcrash.trans hlines)
      exact ⟨crash, hreaches.cons hfree⟩
    | some text =>
      have hcrashed : (loadSource w l source).crash.isSome := by simp [hcrash, hlines]
      rw [reads_crashed w hcrashed]
      exact ⟨some text, [], source, rest, rfl, rfl, List.forall_mem_nil _, hlines⟩

theorem load_reached (first : Nat) {sources read : List String} {text : String}
    (h : w.Reaches sources read (some text)) :
    (load w first sources).crash = some text ∧
      (load w first sources).sent = read.filterMap w.warning? := by
  obtain ⟨before, source, after, rfl, rfl, hfree, hlines⟩ := h
  have hbefore := load_crashFree w first hfree
  obtain ⟨hcrash, hsent⟩ := loadSource_crash w source (l := load w first before) (by rw [hbefore])
  have hstays : load w first (before ++ source :: after) =
      loadSource w (load w first before) source := by
    rw [load, List.foldl_append, List.foldl_cons]
    apply foldl_loadSource_crashed
    change (loadSource w (load w first before) source).crash.isSome
    rw [hcrash, hlines]
    rfl
  rw [hstays, hcrash, hsent, hbefore, List.filterMap_append]
  refine ⟨hlines, ?_⟩
  cases hwarning : w.warning? source <;> simp [hwarning]

theorem runSources_reached (h : ReferenceHost) (c : SourcesCriteria) {read : List String}
    {crash : Option String} (hreaches : w.Reaches (RunCriteria.sources c).touched read crash) :
    ∃ n, h.runSources w c = h.afterReading w c n read crash := by
  rw [runSources_eq]
  cases crash with
  | none =>
    obtain ⟨hfree, rfl⟩ := hreaches
    refine ⟨h.nextId + (w.scripted (RunCriteria.sources c).touched).length, ?_⟩
    rw [load_crashFree w h.nextId hfree]
    rfl
  | some text =>
    obtain ⟨hcrash, hsent⟩ := load_reached w h.nextId hreaches
    refine ⟨(load w h.nextId (RunCriteria.sources c).touched).nextId, ?_⟩
    dsimp only
    rw [afterLoad, hcrash, hsent]
    rfl

theorem reaches_readsFor (h : ReferenceHost) (c : SourcesCriteria) :
    ∃ crash, w.Reaches (RunCriteria.sources c).touched (h.readsFor w c) crash := by
  have hreaches := reaches_reads w (RunCriteria.sources c).touched
    (l := ⟨[], [], none, h.nextId⟩) rfl
  rwa [readsFor, newTo_empty]

theorem touched_sources_read_once (c : RunCriteria) :
    c.touched.Nodup ∧ (∀ source, source ∈ c.touched ↔ source ∈ c.mentioned) ∧
      (c.touched.Pairwise fun s t => c.mentioned.idxOf s < c.mentioned.idxOf t) ∧
      (∀ (react : Reaction) (s : Session) (party : Nat),
        (∃ f, (s.run react c party).1 = .error (.invalidCriteria f)) ↔
          s.closed = false ∧ c.touched = []) ∧
      ∀ sources : SourcesCriteria, c = .sources sources →
        c.mentioned = sources.adapterSources.entries.flatMap Prod.snd ∧
        Ascending sources.adapterSources.entries ∧
        ∀ (w : Surroundings) (h : ReferenceHost), h.phase = .serving →
          ∃ crash n, w.Reaches c.touched (h.readsFor w sources) crash ∧
            h.receive w (.text c.request.text) =
              h.afterReading w sources n (h.readsFor w sources) crash := by
  refine ⟨RunCriteria.firstSeen_nodup _, RunCriteria.mem_firstSeen _,
    RunCriteria.firstSeen_ordered _, fun react s party => s.run_invalidCriteria_iff react c party,
    ?_⟩
  rintro sources rfl
  refine ⟨List.flatMap_def.symm, sources.adapterSources.ascending, fun w h hserving => ?_⟩
  obtain ⟨crash, hreaches⟩ := reaches_readsFor w h sources
  obtain ⟨n, hanswer⟩ := runSources_reached w h sources hreaches
  have hreceive := receive_start (w := w) hserving (.execution (.sources sources))
  exact ⟨crash, n, hreaches, hreceive.trans hanswer⟩

theorem touched_sources_read_once_repeated :
    let w : Surroundings := ⟨fun _ => .ok "t", Uuid.numbered, fun _ => .epoch, "testhost"⟩
    let c : SourcesCriteria :=
      ⟨.ofList [("x", ["b", "a", "b"]), ("_none_", ["a", "a"]), ("y", [])], "", .default⟩
    (RunCriteria.sources c).touched = ["a", "b"] ∧ fresh.phase = .serving ∧
      fresh.readsFor w c = ["a", "b"] ∧
      ∃ n, fresh.receive w (.text (RunCriteria.sources c).request.text) =
        fresh.afterReading w c n ["a", "b"] none := by
  intro w c
  have htouched : (RunCriteria.sources c).touched = ["a", "b"] := by decide +kernel
  have hlines (source : String) : w.lines source = [.test "t" .passed] :=
    (by decide +kernel : SourceLine.parse "t" = [.test "t" .passed])
  obtain ⟨-, -, -, -, hsources⟩ := touched_sources_read_once (.sources c)
  obtain ⟨-, -, hhost⟩ := hsources c rfl
  obtain ⟨crash, n, hreaches, hanswer⟩ := hhost w fresh rfl
  cases crash with
  | none =>
    obtain ⟨-, hread⟩ := hreaches
    rw [htouched] at hread
    exact ⟨htouched, rfl, hread, n, hread ▸ hanswer⟩
  | some text =>
    obtain ⟨-, source, -, -, -, -, hcrash⟩ := hreaches
    rw [hlines] at hcrash
    cases hcrash

/-- What stands behind a source that makes the host crash is not read, nor is anything while the
host waits for a debugger. A session that is closed does not look at the criteria. -/
theorem source_after_crash_unread :
    let w : Surroundings :=
      ⟨fun source => if source = "a" then .ok "crash: boom" else .error "gone", Uuid.numbered,
        fun _ => .epoch, "testhost"⟩
    let c : SourcesCriteria := ⟨.ofList [("_none_", ["a", "b"])], "", .default⟩
    let run : Arrival := .text (RunCriteria.sources c).request.text
    let attaching : ReferenceHost := { fresh with phase := .attaching [] .default }
    let closed : Session :=
      (Session.fresh (.fresh "4000" none false true) .idle none .elsewhere 0).close
    (RunCriteria.sources c).touched = ["a", "b"] ∧ fresh.readsFor w c = ["a"] ∧
      fresh.receive w run = ([], { fresh with phase := .ended (.crashed "boom") }) ∧
      attaching.receive w run = ([], attaching) ∧
      (RunCriteria.ofSources []).touched = [] ∧
      (closed.run .quiet (.ofSources []) 0).1 = .error .disposed := by
  intro w c run attaching closed
  have hparse : SourceLine.parse "crash: boom" = [.crash "boom"] := by decide +kernel
  have htouched : (RunCriteria.sources c).touched = ["a", "b"] := by decide +kernel
  have hread : w.read "a" = .ok "crash: boom" := rfl
  have hload : loadSource w ⟨[], [], none, 0⟩ "a" = ⟨[], [], some "boom", 0⟩ := by
    simp only [loadSource, hread, hparse]
    rfl
  have hreads : fresh.readsFor w c = ["a"] := by
    have hasked : newTo .empty c.adapterSources.values.flatten = ["a", "b"] :=
      (newTo_empty _).trans htouched
    rw [readsFor, hasked, reads, if_neg (by simp)]
    exact congrArg ("a" :: ·) (reads_crashed w (congrArg (·.crash.isSome) hload) ["b"])
  have hran : fresh.runSources w c = ([], { fresh with phase := .ended (.crashed "boom") }) := by
    have hloaded : load w 0 ["a", "b"] = ⟨[], [], some "boom", 0⟩ := by
      rw [load, List.foldl_cons, hload, foldl_loadSource_crashed w ["b"] rfl]
    rw [runSources_eq, htouched, show fresh.nextId = 0 from rfl, hloaded]
    rfl
  refine ⟨htouched, hreads, ?_, ?_, rfl, rfl⟩
  · exact (receive_start rfl (.execution (.sources c))).trans hran
  · exact receive_attaching rfl (StartRequest.hasKind_message (.execution (.sources c))) (by decide)

end ReferenceHost

end HostedTests
