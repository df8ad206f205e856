import LocalTopology.Readiness.Poll
import Mathlib.Data.List.Basic

/-!
# What the readiness gate decides

If the URL of a check is not known, the first such check decides, and nothing is polled. Otherwise
the gate takes up events in the order in which they come. At any time it knows of each check how
polling it ended, as far as the events taken up so far tell (`GateState.Reflects`). Whenever the
wait ends, the checks that have not passed by then are the ones it names
(`ReadinessGate.verdict_eq`), and it ends once it is cancelled, time is up or polling has ended for
every check (`GateState.Reflects.isSome_run_iff`). Polling one target ends with the first answer
that passes its check (`PollTarget.poll_eq_some_iff`).
-/

namespace LocalTopology

/-- How polling the check of an index ended, as the first event tells that does. -/
def endOf? (i : Nat) : List GateEvent → Option PollEnd
  | [] => none
  | .ended j result :: es => if j = i then some result else endOf? i es
  | _ :: es => endOf? i es

theorem endOf?_append (i : Nat) (fs : List GateEvent) :
    ∀ es : List GateEvent, endOf? i (es ++ fs) = (endOf? i es <|> endOf? i fs)
  | [] => by simp [endOf?]
  | .cancelled :: es => by simpa [endOf?] using endOf?_append i fs es
  | .deadline :: es => by simpa [endOf?] using endOf?_append i fs es
  | .ended j result :: es => by
    have ih := endOf?_append i fs es
    by_cases h : j = i
    · simp [endOf?, h]
    · simpa [endOf?, h] using ih

theorem endOf?_concat (i : Nat) (es : List GateEvent) (j : Nat) (result : PollEnd) :
    endOf? i (es ++ [.ended j result]) = (endOf? i es <|> if j = i then some result else none) := by
  rw [endOf?_append]
  rfl

/-- An event that tells how polling a check ended. -/
def GateEvent.TellsEnd (e : GateEvent) : Prop := ∃ i result, e = .ended i result

/-! ## Taking up events -/

namespace GateState

/-- What the gate knows of a number of checks is what the events tell that it has taken up. -/
structure Reflects (s : GateState) (count : Nat) (taken : List GateEvent) : Prop where
  nodup : s.polled.Nodup
  polled : ∀ i, i ∈ s.polled ↔ i < count ∧ endOf? i taken = none
  passed : s.passed = (List.range count).map fun i => decide (endOf? i taken = some .healthy)

variable {s s' : GateState} {count : Nat} {taken events : List GateEvent} {o : GateEnd}

theorem reflects_start (count : Nat) : (start count).Reflects count [] where
  nodup := List.nodup_range
  polled i := by simp [start, endOf?]
  passed := by simp [start, endOf?, List.map_const']

theorem Reflects.polled_eq_nil_iff (h : s.Reflects count taken) :
    s.polled = [] ↔ ∀ i < count, endOf? i taken ≠ none := by
  rw [List.eq_nil_iff_forall_not_mem]
  constructor
  · intro hnone i hi hend
    exact hnone i ((h.polled i).2 ⟨hi, hend⟩)
  · intro hall i hi
    obtain ⟨hlt, hend⟩ := (h.polled i).1 hi
    exact hall i hlt hend

theorem Reflects.note (h : s.Reflects count taken) (index : Nat) (result : PollEnd) :
    (s.note index result).Reflects count (taken ++ [.ended index result]) := by
  unfold GateState.note
  by_cases hp : index ∈ s.polled
  · obtain ⟨hlt, hend⟩ := (h.polled index).1 hp
    rw [if_pos (by simpa using hp)]
    refine ⟨h.nodup.erase _, fun i => ?_, ?_⟩
    · rw [List.Nodup.mem_erase_iff h.nodup, h.polled, endOf?_concat]
      by_cases hi : index = i
      · subst hi
        simp [hend]
      · simp [hi, Ne.symm hi]
    · apply List.ext_getElem
      · split_ifs <;> simp [h.passed]
      · intro i hi _
        have hset : (if result = .healthy then s.passed.set index true else s.passed)[i] =
            if index = i ∧ result = .healthy then true
            else decide (endOf? i taken = some .healthy) := by
          split_ifs <;> simp_all [h.passed, List.getElem_set]
        rw [hset, List.getElem_map, List.getElem_range, endOf?_concat]
        by_cases hc : index = i
        · subst hc
          cases result <;> simp [hend]
        · simp [hc]
  · -- A check that is not polled has ended before, or there is none of that index.
    rw [if_neg (by simpa using hp)]
    have hsame : ∀ i < count, endOf? i (taken ++ [.ended index result]) = endOf? i taken := by
      intro i hi
      rw [endOf?_concat]
      by_cases hc : index = i
      · subst hc
        rcases hend : endOf? index taken with _ | r
        · exact absurd ((h.polled index).2 ⟨hi, hend⟩) hp
        · rfl
      · simp [hc]
    refine ⟨h.nodup, fun i => ?_, ?_⟩
    · rw [h.polled]
      exact and_congr_right fun hi => by rw [hsame i hi]
    · rw [h.passed]
      refine List.map_congr_left fun i hi => ?_
      rw [hsame i (List.mem_range.1 hi)]

/-- Whatever ends the wait, the events before it were taken up, and each tells how polling a check
ended. -/
theorem Reflects.run (h : s.Reflects count taken) (hrun : s.run events = some (o, s')) :
    ∃ more rest, events = more ++ rest ∧ (∀ e ∈ more, e.TellsEnd) ∧
      s'.Reflects count (taken ++ more) ∧
        ((o = .cancelled ∧ rest.head? = some .cancelled) ∨
          (o = .timedOut ∧ rest.head? = some .deadline) ∨
            (o = .finished ∧ rest.head? ≠ some .cancelled ∧ s'.polled = [])) := by
  induction events generalizing s taken with
  | nil =>
    simp only [GateState.run] at hrun
    split_ifs at hrun with hp
    cases hrun
    exact ⟨[], [], rfl, by simp, by simpa using h, .inr (.inr ⟨rfl, nofun, by simpa using hp⟩)⟩
  | cons e events ih =>
    cases e with
    | cancelled =>
      cases hrun
      exact ⟨[], _, rfl, by simp, by simpa using h, .inl ⟨rfl, rfl⟩⟩
    | deadline =>
      cases hrun
      exact ⟨[], _, rfl, by simp, by simpa using h, .inr (.inl ⟨rfl, rfl⟩)⟩
    | ended index result =>
      simp only [GateState.run] at hrun
      split_ifs at hrun with hp
      · cases hrun
        exact ⟨[], _, rfl, by simp, by simpa using h, .inr (.inr ⟨rfl, nofun, by simpa using hp⟩)⟩
      · obtain ⟨more, rest, rfl, htell, hreflects, hend⟩ := ih (h.note index result) hrun
        refine ⟨.ended index result :: more, rest, rfl, ?_, by simpa using hreflects, hend⟩
        exact List.forall_mem_cons.2 ⟨⟨index, result, rfl⟩, htell⟩

/-- The wait ends when it is cancelled, when time is up, or when polling has ended for every
check. -/
theorem Reflects.isSome_run_iff (h : s.Reflects count taken) : (s.run events).isSome ↔
    .cancelled ∈ events ∨ .deadline ∈ events ∨
      ∀ i < count, endOf? i (taken ++ events) ≠ none := by
  induction events generalizing s taken with
  | nil =>
    rw [List.append_nil, ← h.polled_eq_nil_iff]
    cases hp : s.polled <;> simp [GateState.run, hp]
  | cons e events ih =>
    cases e with
    | cancelled => simp [GateState.run]
    | deadline => simp [GateState.run]
    | ended index result =>
      simp only [GateState.run, List.mem_cons, reduceCtorEq, false_or]
      by_cases hp : s.polled = []
      · have hall := h.polled_eq_nil_iff.1 hp
        have hmore : ∀ i < count, endOf? i (taken ++ .ended index result :: events) ≠ none := by
          intro i hi hnone
          rw [endOf?_append] at hnone
          rcases hend : endOf? i taken with _ | r
          · exact hall i hi hend
          · simp [hend] at hnone
        refine iff_of_true (by simp [hp]) (.inr (.inr hmore))
      · rw [if_neg (by simpa using hp), ih (h.note index result), List.append_assoc,
          List.singleton_append]

end GateState

/-! ## The verdict -/

namespace HealthCheck

/-- The URL of a check is known, and it is one of the web. -/
def IsUsable (c : HealthCheck) (b : AddressBook) : Prop :=
  ∃ url u, c.resolve b = .ok url ∧ checkUrl url = .ok u

/-- The URL of a check is not known, or it is none of the web. -/
def FailsWith (c : HealthCheck) (b : AddressBook) (e : Error) : Prop :=
  c.resolve b = .error e ∨ ∃ url, c.resolve b = .ok url ∧ checkUrl url = .error e

variable {c : HealthCheck} {b : AddressBook}

theorem IsUsable.target (h : c.IsUsable b) : ∃ t, c.target b = .ok t ∧ t.name = c.name := by
  obtain ⟨url, u, hurl, hu⟩ := h
  refine ⟨⟨c.name, u, c.anyResponse⟩, ?_, rfl⟩
  simp [HealthCheck.target, hurl, hu, bind, Except.bind, pure, Except.pure]

theorem FailsWith.target {e : Error} (h : c.FailsWith b e) : c.target b = .error e := by
  rcases h with h | ⟨url, hurl, h⟩
  · simp [HealthCheck.target, h, bind, Except.bind]
  · simp [HealthCheck.target, hurl, h, bind, Except.bind]

end HealthCheck

namespace ReadinessGate

variable {g : ReadinessGate} {b : AddressBook}

/-- The names of the checks that no event tells to have passed, in order. -/
def unpassed (g : ReadinessGate) (taken : List GateEvent) : List String :=
  (g.checks.zipIdx.filter fun (_, i) => endOf? i taken ≠ some .healthy).map (·.1.name)

theorem unpassed_eq_nil_iff {taken : List GateEvent} :
    g.unpassed taken = [] ↔ ∀ i < g.checks.length, endOf? i taken = some .healthy := by
  simp only [unpassed, List.map_eq_nil_iff, List.filter_eq_nil_iff, Prod.forall,
    List.mem_zipIdx_iff_getElem?, decide_not, Bool.not_eq_true, Bool.not_eq_false',
    decide_eq_true_eq]
  constructor
  · intro h i hi
    exact h _ i (List.getElem?_eq_getElem hi)
  · intro h c i hi
    exact h i (List.getElem?_eq_some_iff.1 hi).1

theorem failing_eq_unpassed (taken : List GateEvent) :
    failing (g.checks.map (·.name)) ((List.range g.checks.length).map fun i =>
      decide (endOf? i taken = some .healthy)) = g.unpassed taken := by
  have hfilter : ∀ l : List (HealthCheck × Nat),
      (l.filterMap fun (c, i) => if endOf? i taken = some .healthy then none else some c.name) =
        (l.filter fun (_, i) => endOf? i taken ≠ some .healthy).map (·.1.name) := by
    intro l
    induction l with
    | nil => rfl
    | cons e l ih =>
      by_cases h : endOf? e.2 taken = some .healthy <;> simp [h, ih]
  rw [unpassed, ← hfilter, failing, List.zipIdx_eq_zip_range', List.zip_map, List.filterMap_map,
    List.range_eq_range']
  refine List.filterMap_congr fun e _ => ?_
  simp [Prod.map]

theorem targets_eq_ok (h : ∀ c ∈ g.checks, c.IsUsable b) :
    ∃ ts, g.targets b = .ok ts ∧ ts.map (·.name) = g.checks.map (·.name) := by
  unfold targets
  generalize g.checks = checks at h ⊢
  induction checks with
  | nil => exact ⟨[], rfl, rfl⟩
  | cons c cs ih =>
    obtain ⟨t, ht, hname⟩ := (h c List.mem_cons_self).target
    obtain ⟨ts, hts, hnames⟩ := ih fun d hd => h d (List.mem_cons_of_mem _ hd)
    refine ⟨t :: ts, ?_, by simp [hname, hnames]⟩
    simp [List.mapM_cons, ht, hts, bind, Except.bind, pure, Except.pure]

theorem targets_eq_error {before after : List HealthCheck} {c : HealthCheck} {e : Error}
    (hchecks : g.checks = before ++ c :: after) (hbefore : ∀ d ∈ before, d.IsUsable b)
    (hc : c.FailsWith b e) : g.targets b = .error e := by
  rw [targets, hchecks]
  clear hchecks
  induction before with
  | nil => simp [List.mapM_cons, hc.target, bind, Except.bind]
  | cons d before ih =>
    obtain ⟨t, ht, -⟩ := (hbefore d List.mem_cons_self).target
    have hrest := ih fun c hc => hbefore c (List.mem_cons_of_mem _ hc)
    simp [List.mapM_cons, ht, hrest, bind, Except.bind]

theorem verdict_eq {names : List String} {s : GateState} {taken : List GateEvent} {o : GateEnd}
    (hnames : names = g.checks.map (·.name)) (h : s.Reflects g.checks.length taken)
    (ho : o ≠ .cancelled) :
    ((∀ i < g.checks.length, endOf? i taken = some .healthy) ∧
        g.verdict names (o, s) = .ok ()) ∨
      (g.unpassed taken ≠ [] ∧
        g.verdict names (o, s) = .error (.notReady (g.unpassed taken) g.timeout)) := by
  have hfailing : failing names s.passed = g.unpassed taken := by
    rw [h.passed, hnames, failing_eq_unpassed]
  rcases hu : g.unpassed taken with _ | ⟨name, rest⟩ <;> rw [hu] at hfailing
  · refine .inl ⟨unpassed_eq_nil_iff.1 hu, ?_⟩
    cases o with
    | cancelled => exact absurd rfl ho
    | _ => simp only [verdict, hfailing]
  · refine .inr ⟨List.cons_ne_nil _ _, ?_⟩
    cases o with
    | cancelled => exact absurd rfl ho
    | _ => simp only [verdict, hfailing]

/-- The first check whose URL is not known decides before anything is polled. If all are known, the
wait ends when it is cancelled, when time is up or when polling has ended for every check. Of the
events taken up by then, it is cancelled only on cancelling, ready only if they tell every check to
have passed, and otherwise out of time for the checks, in order, that they do not tell to have
passed. -/
theorem wait_cases (g : ReadinessGate) (hg : g.checks ≠ []) (b : AddressBook) :
    (∀ before c after e, g.checks = before ++ c :: after → (∀ d ∈ before, d.IsUsable b) →
      c.FailsWith b e → g.targets b = .error e ∧ ∀ events, g.wait b events = some (.error e)) ∧
    ((∀ c ∈ g.checks, c.IsUsable b) → ∀ events,
      ((g.wait b events).isSome ↔ .cancelled ∈ events ∨ .deadline ∈ events ∨
        ∀ i < g.checks.length, endOf? i events ≠ none) ∧
      ∀ r, g.wait b events = some r → ∃ taken rest, events = taken ++ rest ∧
        (∀ e ∈ taken, e.TellsEnd) ∧
        ((rest.head? = some .cancelled ∧ r = .error (.cancelled "waiting for health checks")) ∨
          (rest.head? ≠ some .cancelled ∧
            (rest.head? = some .deadline ∨ ∀ i < g.checks.length, endOf? i taken ≠ none) ∧
            (((∀ i < g.checks.length, endOf? i taken = some .healthy) ∧ r = .ok ()) ∨
              (g.unpassed taken ≠ [] ∧
                r = .error (.notReady (g.unpassed taken) g.timeout)))))) := by
  have hempty : g.checks.isEmpty = false := by simpa using hg
  refine ⟨fun before c after e hchecks hbefore hc => ?_, fun husable events => ?_⟩
  · have htargets := targets_eq_error hchecks hbefore hc
    exact ⟨htargets, fun events => by simp [wait, hempty, htargets]⟩
  · obtain ⟨ts, htargets, hnames⟩ := targets_eq_ok husable
    have hlength : ts.length = g.checks.length := by
      simpa using congrArg List.length hnames
    have hwait : g.wait b events =
        ((GateState.start g.checks.length).run events).map (g.verdict (ts.map (·.name))) := by
      simp [wait, hempty, htargets, hlength]
    have hstart := GateState.reflects_start g.checks.length
    rw [hwait]
    refine ⟨by simpa using hstart.isSome_run_iff, fun r hr => ?_⟩
    obtain ⟨⟨o, s⟩, hrun, rfl⟩ := Option.map_eq_some_iff.1 hr
    obtain ⟨taken, rest, rfl, htell, hreflects, hend⟩ := hstart.run hrun
    refine ⟨taken, rest, rfl, htell, ?_⟩
    rcases hend with ⟨rfl, hrest⟩ | ⟨rfl, hrest⟩ | ⟨rfl, hrest, hnone⟩
    · exact .inl ⟨hrest, rfl⟩
    · exact .inr ⟨by simp [hrest], .inl hrest, verdict_eq hnames hreflects (by decide)⟩
    · exact .inr ⟨hrest, .inr (hreflects.polled_eq_nil_iff.1 hnone),
        verdict_eq hnames hreflects (by decide)⟩

/-- Two checks of one name, one that crashed and one that would have passed too late. -/
theorem wait_cases_late :
    let g : ReadinessGate :=
      { checks := [.ofUrl "api" "http://[::1]:81/", .ofUrl "web" "http://[::1]:82/",
          .ofUrl "api" "http://[::1]:83/"] }
    let events : List GateEvent :=
      [.ended 1 .healthy, .ended 0 .crashed, .deadline, .ended 2 .healthy]
    g.wait default events = some (.error (.notReady ["api", "api"] g.timeout)) ∧
      ∃ taken rest, events = taken ++ rest ∧ ["api", "api"] = g.unpassed taken := by
  intro g events
  obtain ⟨a, ha⟩ : ∃ u, checkUrl "http://[::1]:81/" = .ok u := ⟨_, rfl⟩
  obtain ⟨b, hb⟩ : ∃ u, checkUrl "http://[::1]:82/" = .ok u := ⟨_, rfl⟩
  obtain ⟨c, hc⟩ : ∃ u, checkUrl "http://[::1]:83/" = .ok u := ⟨_, rfl⟩
  have husable : ∀ c ∈ g.checks, c.IsUsable default := by
    intro check hcheck
    simp only [g, List.mem_cons, List.not_mem_nil, or_false] at hcheck
    rcases hcheck with rfl | rfl | rfl
    · exact ⟨_, a, rfl, ha⟩
    · exact ⟨_, b, rfl, hb⟩
    · exact ⟨_, c, rfl, hc⟩
  have htargets : g.targets default =
      .ok [⟨"api", a, false⟩, ⟨"web", b, false⟩, ⟨"api", c, false⟩] := by
    simp [targets, g, HealthCheck.target, HealthCheck.ofUrl, ha, hb, hc, bind, Except.bind, pure,
      Except.pure]
  have hwait : g.wait default events = some (.error (.notReady ["api", "api"] g.timeout)) := by
    simp only [wait, htargets]
    rfl
  obtain ⟨-, hrun⟩ := wait_cases g (by simp [g]) default
  obtain ⟨-, hr⟩ := hrun husable events
  obtain ⟨taken, rest, hevents, -, hcases⟩ := hr _ hwait
  rcases hcases with ⟨-, ⟨⟩⟩ | ⟨-, -, ⟨-, ⟨⟩⟩ | ⟨-, he⟩⟩
  obtain ⟨hnames, -⟩ := Error.notReady.inj (Except.error.inj he)
  exact ⟨hwait, taken, rest, hevents, hnames⟩

end ReadinessGate

/-! ## Polling one target -/

namespace PollTarget

variable (t : PollTarget)

theorem pollFrom_attempt_of_any {status? : Option Nat} (h : status?.any t.accepts = true)
    (made : Nat) (attempts : List Attempt) :
    pollFrom made (t.attempt status? :: attempts) = some ⟨true, made + 1⟩ := by
  rw [pollFrom, if_pos (by rw [attempt, h])]

theorem pollFrom_attempt_of_not_any {status? : Option Nat} (h : status?.any t.accepts = false)
    (made : Nat) (attempts : List Attempt) :
    pollFrom made (t.attempt status? :: attempts) = pollFrom (made + 1) attempts := by
  rw [pollFrom, if_neg (by simp [attempt, h]), if_neg (by simp [attempt])]

theorem pollFrom_eq_some_iff {o : PollOutcome} : ∀ {answers : List (Option Nat)} {made : Nat},
    pollFrom made (answers.map t.attempt) = some o ↔
      ∃ before status after, answers = before ++ some status :: after ∧
        (∀ answer ∈ before, answer.any t.accepts = false) ∧ t.accepts status = true ∧
          o = ⟨true, made + before.length + 1⟩
  | [], made => by simp [pollFrom]
  | answer :: answers, made => by
    have ih := @pollFrom_eq_some_iff o answers (made + 1)
    rw [List.map_cons]
    rcases h : answer.any t.accepts with _ | _
    · rw [t.pollFrom_attempt_of_not_any h, ih]
      constructor
      · rintro ⟨before, status, after, rfl, hbefore, hstatus, rfl⟩
        refine ⟨answer :: before, status, after, rfl, ?_, hstatus, ?_⟩
        · simpa [h] using hbefore
        · simp only [List.length_cons, PollOutcome.mk.injEq, true_and]
          omega
      · rintro ⟨_ | ⟨first, before⟩, status, after, he, hbefore, hstatus, rfl⟩
        · obtain rfl : answer = some status := (List.cons.inj he).1
          simp [hstatus] at h
        · refine ⟨before, status, after, (List.cons.inj he).2,
            fun a ha => hbefore a (List.mem_cons_of_mem _ ha), hstatus, ?_⟩
          simp only [List.length_cons, PollOutcome.mk.injEq, true_and]
          omega
    · rw [t.pollFrom_attempt_of_any h]
      constructor
      · rintro ⟨⟩
        rcases answer with _ | status
        · cases h
        · exact ⟨[], status, answers, rfl, by simp, h, rfl⟩
      · rintro ⟨_ | ⟨first, before⟩, status, after, he, hbefore, hstatus, rfl⟩
        · rfl
        · obtain rfl : answer = first := (List.cons.inj he).1
          rw [hbefore _ List.mem_cons_self] at h
          cases h

/-- A target that nobody stops polling is found healthy by the first answer that passes its check,
and by nothing else. -/
theorem poll_eq_some_iff {answers : List (Option Nat)} {o : PollOutcome} :
    poll (answers.map t.attempt) = some o ↔
      ∃ before status after, answers = before ++ some status :: after ∧
        (∀ answer ∈ before, answer.any t.accepts = false) ∧ t.accepts status = true ∧
          o = ⟨true, before.length + 1⟩ := by
  simp only [poll, pollFrom_eq_some_iff, Nat.zero_add]

end PollTarget

end LocalTopology
