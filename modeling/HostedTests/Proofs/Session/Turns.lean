import HostedTests.Proofs.Channel.Waiting
import HostedTests.Session.Listener

namespace HostedTests.Listener

open HostedTests.Frame

inductive Leave where
  | stopped
  | lost (ending : Ending)

def incoming (c : ℕ) : List Event → List UInt8 × Option Leave
  | [] => ([], none)
  | .stop :: _ => ([], some .stopped)
  | .arrives d octets :: rest =>
    if d = c then (octets ++ (incoming c rest).1, (incoming c rest).2) else incoming c rest
  | .ends d :: rest => if d = c then ([], some (.lost .closed)) else incoming c rest
  | .fails d system :: rest =>
    if d = c then ([], some (.lost (.broken system))) else incoming c rest
  | _ :: rest => incoming c rest

def reading (most : ℕ) (octets : List UInt8) :
    Option Leave → List String × Option (Option ChannelFault)
  | some (.lost ending) =>
    let r := readAll most ⟨octets, ending⟩
    (r.texts, some (some (r.fault.getD .peerClosed)))
  | leave =>
    let r := readAll most ⟨octets, .closed⟩
    -- What is no frame ends the connection at once, and what ends it later is not reported.
    (r.texts, if settled (lastRead r.fault) then some r.fault else leave.map fun _ => none)

def heard (subscribes : Bool) (texts : List String) : List Report :=
  if subscribes then texts.map .received else []

/-- The reports of a turn, told by what happens after its start, and whether it is over. -/
def story (most : ℕ) (subscribes : Bool) : List Event → List Report × Bool
  | [] => ([], false)
  | .stop :: _ => ([], true)
  | .acceptFails system :: _ => ([.disconnected (some (.listen system))], true)
  | .client c :: rest =>
    let (octets, leave) := incoming c rest
    let (texts, last) := reading most octets leave
    (.connected :: (heard subscribes texts ++ (last.map .disconnected).toList), last.isSome)
  | _ :: rest => story most subscribes rest

theorem heard_nil (subscribes : Bool) : heard subscribes [] = [] := by
  cases subscribes <;> rfl

theorem heard_append (subscribes : Bool) (texts more : List String) :
    heard subscribes (texts ++ more) = heard subscribes texts ++ heard subscribes more := by
  cases subscribes
  · rfl
  · exact List.map_append

theorem reading_append {most : ℕ} {octets rest : List UInt8} {texts : List String}
    (h : ReadsOn most ⟨octets, .closed⟩ texts ⟨rest, .closed⟩) (more : List UInt8)
    (leave : Option Leave) :
    reading most (octets ++ more) leave =
      (texts ++ (reading most (rest ++ more) leave).1, (reading most (rest ++ more) leave).2) := by
  have hall (ending : Ending) := readAll_readsOn (h.append more ending)
  cases leave with
  | none => simp only [reading, hall]
  | some leave => cases leave <;> simp only [reading, hall]

theorem reading_broken {most : ℕ} {octets : List UInt8} {texts : List String} {t : Source}
    {fault : Option ChannelFault} (h : ReadsOn most ⟨octets, .closed⟩ texts t)
    (hlast : (read most t).1 = lastRead fault) (hsettled : settled (lastRead fault) = true)
    (more : List UInt8) (leave : Option Leave) :
    reading most (octets ++ more) leave = (texts, some fault) := by
  rw [← hlast] at hsettled
  have hall (ending : Ending) : readAll most ⟨octets ++ more, ending⟩ =
      ⟨texts, fault, ⟨(read most t).2.octets ++ more, ending⟩⟩ := by
    refine readAll_eq (h.append more ending) ?_
    rw [read_of_settled hsettled, hlast]
  rw [hlast] at hsettled
  obtain _ | f := fault
  · cases hsettled
  cases leave with
  | none => simp only [reading, hall, hsettled, if_true]
  | some leave => cases leave <;> simp only [reading, hall, hsettled, if_true, Option.getD_some]

theorem lastRead_of_awaits {most : ℕ} {octets : List UInt8} (h : awaits most octets = true) :
    ∃ fault, (read most ⟨octets, .closed⟩).1 = lastRead fault ∧
      settled (lastRead fault) = false := by
  rw [awaits, Bool.not_eq_true'] at h
  generalize (read most ⟨octets, .closed⟩).1 = r at h
  obtain f | _ | text := r
  · exact ⟨some f, rfl, h⟩
  · exact ⟨none, rfl, rfl⟩
  · cases h

theorem reading_awaits {most : ℕ} {octets : List UInt8} (h : awaits most octets = true) :
    reading most octets none = ([], none) ∧
      reading most octets (some .stopped) = ([], some none) := by
  obtain ⟨fault, hlast, hsettled⟩ := lastRead_of_awaits h
  have hall := readAll_eq (.nil ⟨octets, .closed⟩) (Prod.ext hlast rfl)
  constructor <;> simp only [reading, hall, hsettled] <;> rfl

namespace Turn

def channelOver (most : ℕ) (subscribes : Bool) (source : Source) : Channel Unit :=
  (Channel.fresh source .willing most).subscribe (if subscribes then some () else none)

theorem notify_channelOver {most : ℕ} (subscribes : Bool) {s t : Source}
    {r : Except ChannelFault (Option String)} (h : read most s = (r, t)) :
    (channelOver most subscribes s).notify =
      (match r with
        | .ok (some text) => .ok ((if subscribes then some () else none).map fun u => (u, text))
        | .ok none => .error .peerClosed
        | .error f => .error f, channelOver most subscribes t) := by
  let channel := channelOver most subscribes s
  have hread : read channel.mostOctets channel.source = (r, t) := h
  rw [Channel.notify, Channel.receive, if_neg (show ¬(channelOver most subscribes s).disposed = true
    from Bool.false_ne_true), hread]
  obtain _ | _ | _ := r <;> rfl

theorem waits_channelOver (most c : ℕ) (subscribes ended : Bool) (s : Source) :
    (Connection.mk c (channelOver most subscribes s) ended).waits =
      (!ended && awaits most s.octets) := by
  cases ended <;> rfl

theorem serve_waiting (t : Turn) {k : Connection} (h : k.waits = true) :
    t.serve k = { t with connection := some k } := by
  rw [serve, if_pos h]

theorem serve_read (t : Turn) {k : Connection} {receipt : Option (Unit × String)}
    {channel : Channel Unit} (h : k.waits = false)
    (hread : k.channel.notify = (.ok receipt, channel)) :
    t.serve k =
      (t.report (receipt.map fun r => Report.received r.2).toList).serve { k with channel } := by
  rw [serve, if_neg (ne_true_of_eq_false h)]
  split
  · rename_i heq
    cases heq.symm.trans hread
    rfl
  · rename_i heq
    cases heq.symm.trans hread

theorem serve_failed (t : Turn) {k : Connection} {f : ChannelFault} {channel : Channel Unit}
    (h : k.waits = false) (hread : k.channel.notify = (.error f, channel)) :
    (t.serve k).reports = t.reports ++ [.disconnected (if t.stopped then none else some f)] ∧
      (t.serve k).finished = true := by
  rw [serve, if_neg (ne_true_of_eq_false h)]
  split
  · rename_i heq
    cases heq.symm.trans hread
  · rename_i heq
    cases heq.symm.trans hread
    exact ⟨rfl, rfl⟩

theorem serve_last (t : Turn) {most c : ℕ} {ended : Bool} {s u : Source}
    {fault : Option ChannelFault} (hstopped : t.stopped = false)
    (h : (Connection.mk c (channelOver most t.subscribes s) ended).waits = false)
    (hread : read most s = (lastRead fault, u)) :
    (t.serve ⟨c, channelOver most t.subscribes s, ended⟩).reports =
        t.reports ++ heard t.subscribes [] ++ [.disconnected (some (fault.getD .peerClosed))] ∧
      (t.serve ⟨c, channelOver most t.subscribes s, ended⟩).finished = true := by
  have hnotify := notify_channelOver t.subscribes hread
  rw [heard_nil, List.append_nil]
  cases fault with
  | none =>
    obtain ⟨hreports, hfinished⟩ := t.serve_failed h hnotify
    rw [hstopped] at hreports
    exact ⟨hreports, hfinished⟩
  | some f =>
    obtain ⟨hreports, hfinished⟩ := t.serve_failed h hnotify
    rw [hstopped] at hreports
    exact ⟨hreports, hfinished⟩

theorem report_receipt (t : Turn) (text : String) :
    t.report (((if t.subscribes then some () else none).map fun u => (u, text)).map
      fun r => Report.received r.2).toList = t.report (heard t.subscribes [text]) := by
  cases h : t.subscribes <;> rfl

def serving (subscribes : Bool) (most c : ℕ) (told : List Report) (octets : List UInt8) : Turn :=
  ⟨subscribes, false, false, some ⟨c, channelOver most subscribes ⟨octets, .closed⟩, false⟩, told⟩

theorem serve_cases (most c : ℕ) (ended : Bool) (t : Turn) (s : Source)
    (hstopped : t.stopped = false) :
    ∃ texts u, ReadsOn most s texts u ∧
      ((ended = false ∧ awaits most u.octets = true ∧
          t.serve ⟨c, channelOver most t.subscribes s, ended⟩ =
            { t.report (heard t.subscribes texts) with
              connection := some ⟨c, channelOver most t.subscribes u, ended⟩ }) ∨
        ((ended = true ∨ awaits most u.octets = false) ∧
          ∃ fault, (read most u).1 = lastRead fault ∧
            (t.serve ⟨c, channelOver most t.subscribes s, ended⟩).reports =
              t.reports ++ heard t.subscribes texts ++
                [.disconnected (some (fault.getD .peerClosed))] ∧
            (t.serve ⟨c, channelOver most t.subscribes s, ended⟩).finished = true)) := by
  induction hlength : s.octets.length using Nat.strong_induction_on generalizing t s with
  | _ length ih =>
    have hwaits := waits_channelOver most c t.subscribes ended s
    cases hready : (!ended && awaits most s.octets) with
    | true =>
      obtain ⟨hended, hawaits⟩ := Bool.and_eq_true_iff.mp hready
      rw [Bool.not_eq_true'] at hended
      refine ⟨[], s, .nil s, Or.inl ⟨hended, hawaits, ?_⟩⟩
      rw [t.serve_waiting (hwaits.trans hready), heard_nil, report, List.append_nil]
    | false =>
      have hreads : ended = true ∨ awaits most s.octets = false := by
        rw [Bool.and_eq_false_iff, Bool.not_eq_false'] at hready
        exact hready
      replace hready := hwaits.trans hready
      cases hread : read most s with
      | mk r u =>
        have hfault : (read most s).1 = r := congrArg Prod.fst hread
        have hlast (fault : Option ChannelFault) (hr : r = lastRead fault) :=
          t.serve_last hstopped hready (hr ▸ hread)
        obtain f | _ | text := r
        · exact ⟨[], s, .nil s, Or.inr ⟨hreads, some f, hfault, hlast (some f) rfl⟩⟩
        · exact ⟨[], s, .nil s, Or.inr ⟨hreads, none, hfault, hlast none rfl⟩⟩
        · have hshorter := read_shorter hfault
          rw [hread] at hshorter
          have hparses := (read_eq_iff_parses most s _ u).mp hread
          have hserve := t.serve_read hready (notify_channelOver t.subscribes hread)
          rw [t.report_receipt text] at hserve
          have hheard (texts : List String) : t.reports ++ heard t.subscribes [text] ++
              heard t.subscribes texts = t.reports ++ heard t.subscribes (text :: texts) := by
            rw [List.append_assoc, ← heard_append]
            rfl
          obtain ⟨texts, v, hon, hcases⟩ := ih u.octets.length (hlength ▸ hshorter)
            (t.report (heard t.subscribes [text])) u hstopped rfl
          refine ⟨text :: texts, v, .cons hparses hon, ?_⟩
          rw [hserve]
          rcases hcases with ⟨hended, hawaits, heq⟩ | ⟨hends, fault, hlast, hreports, hfinished⟩
          · refine Or.inl ⟨hended, hawaits, heq.trans ?_⟩
            simp only [report, hheard]
          · refine Or.inr ⟨hends, fault, hlast, hreports.trans ?_, hfinished⟩
            rw [← hheard]
            rfl

theorem finished_meet {t : Turn} (h : t.finished = true) (most : ℕ) (e : Event) :
    t.meet most e = t := by
  have hdeaf : t.isListening = false := by rw [isListening, h]; rfl
  have hhear (c : ℕ) (f : Connection → Connection) : t.hear c f = t := by
    unfold hear
    split
    · rfl
    · rw [if_neg]
      rintro ⟨-, hnot, -⟩
      rw [h] at hnot
      cases hnot
  cases e
  case client c => exact if_neg (ne_true_of_eq_false hdeaf)
  case acceptFails system => exact if_neg (ne_true_of_eq_false hdeaf)
  case arrives c octets => exact hhear c _
  case ends c => exact hhear c _
  case fails c system => exact hhear c _
  all_goals rfl

theorem finished_shutdown {t : Turn} (h : t.finished = true) :
    t.shutdown.finished = true ∧ t.shutdown.reports = t.reports := by
  rw [shutdown, settle, if_pos h]
  exact ⟨h, rfl⟩

def react (t : Turn) (most : ℕ) : Event → Turn
  | .stop => t.shutdown
  | e => t.meet most e

def after (t : Turn) (most : ℕ) (events : List Event) : Turn :=
  events.foldl (fun t e => t.react most e) t

theorem finished_react {t : Turn} (h : t.finished = true) (most : ℕ) (e : Event) :
    (t.react most e).finished = true ∧ (t.react most e).reports = t.reports := by
  cases e
  case stop => exact finished_shutdown h
  all_goals
    rw [react, finished_meet h]
    · exact ⟨h, rfl⟩
    · exact nofun

theorem finished_after {t : Turn} (h : t.finished = true) (most : ℕ) (events : List Event) :
    (t.after most events).finished = true ∧ (t.after most events).reports = t.reports := by
  induction events generalizing t with
  | nil => exact ⟨h, rfl⟩
  | cons e events ih =>
    obtain ⟨hfinished, hreports⟩ := finished_react h most e
    obtain ⟨hfinished', hreports'⟩ := ih hfinished
    exact ⟨hfinished', hreports'.trans hreports⟩

theorem hear_serving (subscribes : Bool) (most c : ℕ) (told : List Report) (octets : List UInt8)
    (d : ℕ) (f : Connection → Connection) :
    (serving subscribes most c told octets).hear d f =
      if d = c then
        { serving subscribes most c told octets with
          connection := some (f ⟨c, channelOver most subscribes ⟨octets, .closed⟩, false⟩) }.settle
      else serving subscribes most c told octets := by
  by_cases h : c = d
  · rw [if_pos h.symm]
    exact if_pos ⟨h, rfl, rfl⟩
  · rw [if_neg fun hd => h hd.symm]
    exact if_neg fun hd => h hd.1

theorem shutdown_serving (subscribes : Bool) (most c : ℕ) (told : List Report)
    (octets : List UInt8) :
    let t := (serving subscribes most c told octets).react most .stop
    t.finished = true ∧ t.reports = told ++ [.disconnected none] := by
  let t : Turn := ⟨subscribes, true, false, none, told⟩
  let k : Connection := ⟨c, (channelOver most subscribes ⟨octets, .closed⟩).dispose, true⟩
  have hread : k.channel.notify = (.error .disposed, k.channel) := rfl
  obtain ⟨hreports, hfinished⟩ := ({ t with connection := some k } : Turn).serve_failed rfl hread
  exact ⟨hfinished, hreports⟩

theorem lost_serving (subscribes : Bool) (most c : ℕ) (told : List Report) (octets : List UInt8)
    (ending : Ending) :
    let t := (serving subscribes most c told octets).hear c fun k => k.close ending
    let read := reading most octets (some (.lost ending))
    t.finished = true ∧ read.2.isSome = true ∧
      t.reports = told ++ heard subscribes read.1 ++ (read.2.map .disconnected).toList := by
  intro t read
  let k : Connection := ⟨c, channelOver most subscribes ⟨octets, ending⟩, true⟩
  have ht : t = { serving subscribes most c told octets with connection := some k }.settle :=
    (hear_serving subscribes most c told octets c _).trans (if_pos rfl)
  rw [ht]
  obtain ⟨texts, u, hon, ⟨hended, -⟩ | ⟨-, fault, hlast, hreports, hfinished⟩⟩ :=
    serve_cases most c true { serving subscribes most c told octets with connection := some k }
      ⟨octets, ending⟩ rfl
  · cases hended
  · have hread : read = (texts, some (some (fault.getD .peerClosed))) := by
      simp only [read, reading, readAll_eq hon (Prod.ext hlast rfl)]
    rw [hread]
    exact ⟨hfinished, rfl, hreports⟩

theorem extend_serving (subscribes : Bool) (most c : ℕ) (told : List Report)
    (octets more : List UInt8) :
    let t := (serving subscribes most c told octets).react most (.arrives c more)
    (∃ texts rest, awaits most rest = true ∧
        ReadsOn most ⟨octets ++ more, .closed⟩ texts ⟨rest, .closed⟩ ∧
        t = serving subscribes most c (told ++ heard subscribes texts) rest) ∨
      ∃ texts fault, t.finished = true ∧
        t.reports = told ++ heard subscribes texts ++ [.disconnected fault] ∧
        ∀ later leave, reading most (octets ++ more ++ later) leave = (texts, some fault) := by
  intro t
  let k : Connection := ⟨c, channelOver most subscribes ⟨octets ++ more, .closed⟩, false⟩
  have ht : t = { serving subscribes most c told octets with connection := some k }.settle :=
    (hear_serving subscribes most c told octets c fun k => k.extend more).trans (if_pos rfl)
  rw [ht]
  obtain ⟨texts, u, hon, hcases⟩ :=
    serve_cases most c false { serving subscribes most c told octets with connection := some k }
      ⟨octets ++ more, .closed⟩ rfl
  obtain ⟨rest, ending⟩ := u
  obtain rfl : ending = .closed := hon.ending_eq
  rcases hcases with ⟨-, hawaits, hserve⟩ | ⟨hended | hready, fault, hlast, hreports, hfinished⟩
  · exact Or.inl ⟨texts, rest, hawaits, hon, hserve⟩
  · cases hended
  · have hsettled := (awaits_eq_false_iff most rest .closed).mp hready
    rw [hlast] at hsettled
    obtain _ | f := fault
    · cases hsettled
    · exact Or.inr ⟨texts, some f, hfinished, hreports, reading_broken hon hlast hsettled⟩

def Comes (subscribes : Bool) (most c : ℕ) (told : List Report) (octets : List UInt8)
    (events : List Event) (t : Turn) : Prop :=
  let arrived := incoming c events
  let read := reading most (octets ++ arrived.1) arrived.2
  t.reports = told ++ heard subscribes read.1 ++ (read.2.map .disconnected).toList ∧
    t.finished = read.2.isSome

theorem comes_after (subscribes : Bool) (most c : ℕ) (events : List Event) (told : List Report)
    (octets : List UInt8) (hawaits : awaits most octets = true) :
    Comes subscribes most c told octets events
      ((serving subscribes most c told octets).after most events) := by
  induction events generalizing told octets with
  | nil =>
    simp only [Comes, incoming, List.append_nil, (reading_awaits hawaits).1, heard_nil]
    exact ⟨(List.append_nil _).symm, rfl⟩
  | cons e events ih =>
    let t := serving subscribes most c told octets
    -- An event that does not concern the connection.
    have hsame (hreact : t.react most e = t) (hincoming : incoming c (e :: events) =
        incoming c events) : Comes subscribes most c told octets (e :: events)
          (t.after most (e :: events)) := by
      rw [Comes, hincoming, after, List.foldl_cons, hreact]
      exact ih told octets hawaits
    -- An event that ends the turn.
    have hover (hfinished : (t.react most e).finished = true)
        (hcomes : Comes subscribes most c told octets (e :: events) (t.react most e)) :
        Comes subscribes most c told octets (e :: events) (t.after most (e :: events)) := by
      obtain ⟨hfinished', hreports⟩ := finished_after hfinished most events
      exact ⟨hreports.trans hcomes.1, (hfinished'.trans hfinished.symm).trans hcomes.2⟩
    have hother {d : ℕ} (f : Connection → Connection) (hd : d ≠ c) : t.hear d f = t :=
      (hear_serving subscribes most c told octets d f).trans (if_neg hd)
    have hlost (ending : Ending) (hreact : t.react most e = t.hear c fun k => k.close ending)
        (hincoming : incoming c (e :: events) = ([], some (.lost ending))) :
        Comes subscribes most c told octets (e :: events) (t.after most (e :: events)) := by
      obtain ⟨hfinished, hsome, hreports⟩ := lost_serving subscribes most c told octets ending
      rw [← hreact] at hfinished hreports
      refine hover hfinished ?_
      rw [Comes, hincoming, List.append_nil]
      exact ⟨hreports, hfinished.trans hsome.symm⟩
    cases e
    case start => exact hsame rfl rfl
    case client => exact hsame rfl rfl
    case acceptFails => exact hsame rfl rfl
    case stop =>
      obtain ⟨hfinished, hreports⟩ := shutdown_serving subscribes most c told octets
      refine hover hfinished ?_
      simp only [Comes, incoming, List.append_nil, (reading_awaits hawaits).2, heard_nil]
      exact ⟨hreports, hfinished⟩
    case ends d =>
      by_cases hd : d = c
      · subst hd
        exact hlost .closed rfl (if_pos rfl)
      · exact hsame (hother (fun k => k.close .closed) hd) (if_neg hd)
    case fails d system =>
      by_cases hd : d = c
      · subst hd
        exact hlost (.broken system) rfl (if_pos rfl)
      · exact hsame (hother (fun k => k.close (.broken system)) hd) (if_neg hd)
    case arrives d more =>
      by_cases hd : d = c
      · subst hd
        have hincoming : incoming d (.arrives d more :: events) =
          (more ++ (incoming d events).1, (incoming d events).2) := if_pos rfl
        rcases extend_serving subscribes most d told octets more with
          ⟨texts, rest, hrest, hon, hnext⟩ | ⟨texts, fault, hfinished, hreports, hbroken⟩
        · obtain ⟨hreports, hfinished⟩ := ih (told ++ heard subscribes texts) rest hrest
          rw [Comes, hincoming, ← List.append_assoc, after, List.foldl_cons, hnext,
            reading_append hon, heard_append, ← List.append_assoc told]
          exact ⟨hreports, hfinished⟩
        · refine hover hfinished ?_
          rw [Comes, hincoming, ← List.append_assoc, hbroken]
          exact ⟨hreports, hfinished⟩
      · exact hsame (hother (fun k => k.extend more) hd) (if_neg hd)

theorem accept_fresh (subscribes : Bool) (most c : ℕ) :
    (fresh subscribes).accept most c = serving subscribes most c [.connected] [] := by
  have hwaits : (Connection.mk c (channelOver most subscribes ⟨[], .closed⟩) false).waits = true :=
    waits_channelOver most c subscribes false ⟨[], .closed⟩
  exact serve_waiting _ hwaits

theorem story_after (subscribes : Bool) (most : ℕ) (events : List Event) :
    let t := (fresh subscribes).after most events
    (t.reports, t.finished) = story most subscribes events := by
  induction events with
  | nil => rfl
  | cons e events ih =>
    have hover (hfinished : ((fresh subscribes).react most e).finished = true) :
        let t := (fresh subscribes).after most (e :: events)
        (t.reports, t.finished) = (((fresh subscribes).react most e).reports, true) := by
      obtain ⟨hfinished', hreports⟩ := finished_after hfinished most events
      exact Prod.ext hreports hfinished'
    cases e
    case stop => exact hover rfl
    case acceptFails system => exact hover rfl
    case client c =>
      have hcomes := comes_after subscribes most c events [.connected] [] rfl
      rw [← accept_fresh] at hcomes
      exact Prod.ext hcomes.1 hcomes.2
    all_goals exact ih

theorem count_connected_story (most : ℕ) (subscribes : Bool) (events : List Event) :
    (story most subscribes events).1.count .connected ≤ 1 := by
  have hheard (texts : List String) : Report.connected ∉ heard subscribes texts := by
    cases subscribes <;> simp [heard]
  induction events with
  | nil => exact Nat.zero_le _
  | cons e events ih =>
    cases e
    case stop => exact Nat.zero_le _
    case acceptFails system => exact Nat.zero_le _
    case client c =>
      simp only [story, List.count_cons_self, List.count_append,
        List.count_eq_zero_of_not_mem (hheard _)]
      cases (reading most (incoming c events).1 (incoming c events).2).2 <;> simp
    all_goals exact ih

theorem finished_serve (t : Turn) (k : Connection) :
    (t.serve k).stopped = t.stopped ∧ (k.ended = true → k.channel.disposed = true →
      (t.serve k).finished = true) := by
  fun_induction serve t k with
  | case1 t k hwaits =>
    refine ⟨rfl, fun hended => ?_⟩
    rw [Connection.waits, hended] at hwaits
    cases hwaits
  | case2 t k hwaits receipt channel hread ih =>
    refine ⟨ih.1, fun _ hdisposed => ?_⟩
    rw [Channel.notify, Channel.receive, if_pos hdisposed] at hread
    cases hread
  | case3 t k hwaits f channel hread => exact ⟨rfl, fun _ _ => rfl⟩

theorem stopped_settle (t : Turn) : t.settle.stopped = t.stopped := by
  unfold settle
  split
  · rfl
  · split
    · rfl
    · exact (t.finished_serve _).1

theorem stopped_meet (t : Turn) (most : ℕ) (e : Event) : (t.meet most e).stopped = t.stopped := by
  have hhear (c : ℕ) (f : Connection → Connection) : (t.hear c f).stopped = t.stopped := by
    unfold hear
    split
    · rfl
    · split
      · exact stopped_settle _
      · rfl
  cases e
  case client c =>
    change (t.accept most c).stopped = t.stopped
    unfold accept
    split
    · exact stopped_settle _
    · rfl
  case acceptFails system =>
    change (t.failAccept system).stopped = t.stopped
    unfold failAccept
    split <;> rfl
  case arrives c octets => exact hhear c _
  case ends c => exact hhear c _
  case fails c system => exact hhear c _
  all_goals rfl

theorem shutdown_finished (t : Turn) : t.shutdown.finished = true := by
  unfold shutdown settle
  split
  · assumption
  · split
    · rfl
    · rename_i k hk
      obtain ⟨k', -, rfl⟩ := Option.map_eq_some_iff.mp hk
      refine (finished_serve _ _).2 rfl ?_
      change k'.channel.dispose.disposed = true
      unfold Channel.dispose
      split
      · assumption
      · rfl

def Alike (t u : Turn) : Prop :=
  t = u ∨ t.finished = true ∧ u.finished = true ∧ t.reports = u.reports

theorem Alike.trans {t u v : Turn} (h : t.Alike u) (k : u.Alike v) : t.Alike v := by
  obtain rfl | ⟨ht, hu, hreports⟩ := h
  · exact k
  · obtain rfl | ⟨_, hv, hreports'⟩ := k
    · exact Or.inr ⟨ht, hu, hreports⟩
    · exact Or.inr ⟨ht, hv, hreports.trans hreports'⟩

theorem Alike.symm {t u : Turn} (h : t.Alike u) : u.Alike t := by
  obtain rfl | ⟨ht, hu, hreports⟩ := h
  · exact Or.inl rfl
  · exact Or.inr ⟨hu, ht, hreports.symm⟩

theorem Alike.finished {t u : Turn} (h : t.Alike u) : t.finished = u.finished := by
  obtain rfl | ⟨ht, hu, -⟩ := h
  · rfl
  · rw [ht, hu]

theorem Alike.reports {t u : Turn} (h : t.Alike u) : t.reports = u.reports := by
  obtain rfl | ⟨-, -, hreports⟩ := h
  · rfl
  · exact hreports

theorem Alike.react {t u : Turn} (h : t.Alike u) (most : ℕ) (e : Event) :
    (t.react most e).Alike (u.react most e) := by
  obtain rfl | ⟨ht, hu, hreports⟩ := h
  · exact Or.inl rfl
  · obtain ⟨ht', htold⟩ := finished_react ht most e
    obtain ⟨hu', hutold⟩ := finished_react hu most e
    exact Or.inr ⟨ht', hu', by rw [htold, hutold, hreports]⟩

theorem alike_react_finished {t : Turn} (h : t.finished = true) (most : ℕ) (e : Event) :
    t.Alike (t.react most e) := by
  obtain ⟨hfinished, hreports⟩ := finished_react h most e
  exact Or.inr ⟨h, hfinished, hreports.symm⟩

end Turn

end HostedTests.Listener
