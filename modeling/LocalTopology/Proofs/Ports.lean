import LocalTopology.Network.Ledger
import Mathlib.Data.List.Basic

/-!
# Who owns which port

A service that obtains a port owns it from then on, and every other port keeps its owner or its
want of one (`obtain_eq_ok`); the port is held if the service declares none (`mem_held_obtain`). No
call takes a port from its owner (`Performs.keeps`), so what several services obtain one after the
other they own together, and what is said of one call holds through all that follow it
(`ownership_run`).
-/

namespace LocalTopology.PortLedger

variable {l l' l'' : PortLedger} {p q : Port} {service : String}

/-- Every port that has an owner keeps it. -/
def Keeps (l l' : PortLedger) : Prop :=
  ∀ p owner, l.owner? p = some owner → l'.owner? p = some owner

theorem Keeps.refl (l : PortLedger) : l.Keeps l := fun _ _ h => h

theorem Keeps.trans (h : l.Keeps l') (h' : l'.Keeps l'') : l.Keeps l'' :=
  fun p owner hp => h' p owner (h p owner hp)

theorem owner?_own (h : l.owner? p = none) (q : Port) :
    (l.own p service).owner? q = if q = p then some service else l.owner? q := by
  unfold owner? own at *
  rw [List.lookup_append]
  by_cases hq : q = p
  · rw [hq, h, if_pos rfl]
    simp
  · have hn : [(p, service)].lookup q = none := by
      rw [List.lookup_eq_none_iff]
      simpa using hq
    rw [hn, if_neg hq, Option.or_none]

theorem owner?_eq_ite (h : l.owner? p = some service) (q : Port) :
    l.owner? q = if q = p then some service else l.owner? q := by
  split_ifs with hq
  · rw [hq, h]
  · rfl

theorem nodup_own (hn : (l.owners.map Prod.fst).Nodup) (h : l.owner? p = none) :
    ((l.own p service).owners.map Prod.fst).Nodup := by
  have hfree : ∀ q owner, (q, owner) ∈ l.owners → q ≠ p := fun q owner he hq => by
    have hnot := List.lookup_eq_none_iff.1 h _ he
    simp [hq] at hnot
  simpa [own, List.nodup_append, hn] using hfree

/-- A claim succeeds on a port of the service or of nobody, which is then the service's. -/
theorem claim_eq_ok (h : l.claim service p = .ok l') :
    p ≠ 0 ∧ (∀ owner, l.owner? p = some owner → owner = service) ∧
      ∀ q, l'.owner? q = if q = p then some service else l.owner? q := by
  unfold claim at h
  split_ifs at h with h0
  rcases ho : l.owner? p with _ | owner <;> rw [ho] at h
  · cases h
    exact ⟨h0, by simp, owner?_own ho⟩
  · simp only at h
    split_ifs at h with hs
    cases h
    exact ⟨h0, by simp [hs], owner?_eq_ite (hs ▸ ho)⟩

/-- A claim fails on port zero and on the port of another service. -/
theorem claim_eq_error {fault : PortFault} (h : l.claim service p = .error fault) :
    p = 0 ∨ ∃ owner, l.owner? p = some owner ∧ owner ≠ service := by
  unfold claim at h
  split_ifs at h with h0
  · exact .inl h0
  · rcases ho : l.owner? p with _ | owner <;> rw [ho] at h
    · cases h
    · simp only at h
      split_ifs at h with hs
      exact .inr ⟨owner, rfl, hs⟩

/-- The first port without an owner stands behind ports that all have one. -/
theorem firstFree?_eq_some : ∀ {offers rest : List Port}, l.firstFree? offers = some (p, rest) →
    l.owner? p = none ∧
      ∃ skipped, offers = skipped ++ p :: rest ∧ ∀ q ∈ skipped, l.owner? q ≠ none
  | o :: os, rest, h => by
    unfold firstFree? at h
    split_ifs at h with ho
    · obtain ⟨hp, skipped, rfl, hs⟩ := firstFree?_eq_some h
      refine ⟨hp, o :: skipped, rfl, List.forall_mem_cons.2 ⟨?_, hs⟩⟩
      simpa [Option.isSome_iff_ne_none] using ho
    · cases h
      exact ⟨by simpa using ho, [], rfl, by simp⟩

theorem firstFree?_eq_none : ∀ {offers : List Port}, l.firstFree? offers = none →
    ∀ q ∈ offers, l.owner? q ≠ none
  | [], _ => by simp
  | o :: os, h => by
    unfold firstFree? at h
    split_ifs at h with ho
    refine List.forall_mem_cons.2 ⟨?_, firstFree?_eq_none h⟩
    simpa [Option.isSome_iff_ne_none] using ho

theorem allocate_eq_ok (h : l.allocate service = .ok (p, l')) :
    l.owner? p = none ∧ ∀ q, l'.owner? q = if q = p then some service else l.owner? q := by
  unfold allocate at h
  rcases hf : l.firstFree? l.offers with _ | ⟨o, rest⟩ <;> rw [hf] at h
  · cases h
  · cases h
    have hfree := (firstFree?_eq_some hf).1
    exact ⟨hfree, owner?_own hfree⟩

/-- A service obtains the port that it declares, if it declares one, and never that of another. -/
theorem obtain_eq_ok {declared : Option Port} (h : l.obtain service declared = .ok (p, l')) :
    (∀ d, declared = some d → p = d) ∧ (∀ owner, l.owner? p = some owner → owner = service) ∧
      ∀ q, l'.owner? q = if q = p then some service else l.owner? q := by
  rcases declared with _ | d
  · obtain ⟨hfree, howner⟩ := allocate_eq_ok h
    exact ⟨by simp, by simp [hfree], howner⟩
  · rcases hc : l.claim service d with fault | lc <;> simp only [obtain, hc] at h <;> cases h
    obtain ⟨-, hown, howner⟩ := claim_eq_ok hc
    exact ⟨by simp, hown, howner⟩

theorem obtain_some_eq_ok {d : Port} (h : l.obtain service (some d) = .ok (p, l')) :
    p = d ∧ l.claim service d = .ok l' := by
  rcases hc : l.claim service d with fault | lc <;> simp only [obtain, hc] at h <;> cases h
  exact ⟨rfl, rfl⟩

/-- To claim a port once more changes nothing. -/
theorem claim_eq_self (h0 : p ≠ 0) (h : l.owner? p = some service) :
    l.claim service p = .ok l := by
  simp only [claim, h0, h, if_false, if_true]

/-- A service obtains no port when the system has none left, or when it cannot claim its own. -/
theorem obtain_eq_error {declared : Option Port} {fault : PortFault}
    (h : l.obtain service declared = .error fault) :
    (declared = none ∧ ∃ f, fault = .noneFree f) ∨
      ∃ d, declared = some d ∧ (d = 0 ∨ ∃ owner, l.owner? d = some owner ∧ owner ≠ service) := by
  rcases declared with _ | d
  · unfold obtain allocate at h
    rcases hf : l.firstFree? l.offers with _ | ⟨p, rest⟩ <;> rw [hf] at h <;> cases h
    exact .inl ⟨rfl, _, rfl⟩
  · rcases hc : l.claim service d with f | l' <;> simp only [obtain, hc] at h <;> cases h
    exact .inr ⟨d, rfl, claim_eq_error hc⟩

theorem keeps_of_owner? (hown : ∀ owner, l.owner? p = some owner → owner = service)
    (h : ∀ q, l'.owner? q = if q = p then some service else l.owner? q) : l.Keeps l' := by
  intro q owner hq
  rw [h]
  split_ifs with hp
  · rw [hown owner (hp ▸ hq)]
  · exact hq

/-! ## Held ports -/

theorem held_claim (h : l.claim service p = .ok l') : l'.held = l.held := by
  unfold claim at h
  split_ifs at h
  rcases ho : l.owner? p with _ | owner <;> rw [ho] at h
  · cases h
    rfl
  · simp only at h
    split_ifs at h
    cases h
    rfl

theorem mem_held_allocate (h : l.allocate service = .ok (p, l')) :
    q ∈ l'.held ↔ q ∈ l.held ∨ q = p := by
  unfold allocate at h
  rcases hf : l.firstFree? l.offers with _ | ⟨o, rest⟩ <;> rw [hf] at h <;> cases h
  rw [List.mem_append, List.mem_singleton]

/-- A service that obtains a port makes it held if it declares none. -/
theorem mem_held_obtain {declared : Option Port} (h : l.obtain service declared = .ok (p, l')) :
    q ∈ l'.held ↔ q ∈ l.held ∨ (declared = none ∧ q = p) := by
  rcases declared with _ | d
  · rw [mem_held_allocate h, eq_self, true_and]
  · rw [held_claim (obtain_some_eq_ok h).2]
    simp

/-! ## Calls -/

/-- What a call can do to a ledger. -/
inductive Performs (l : PortLedger) :
    PortCall → Except PortFault (Option Port) → PortLedger → Prop
  | zero {service : String} : Performs l (.claim service 0) (.error (.zero service)) l
  | contested {service owner : String} {p : Port} (nonzero : p ≠ 0)
      (owned : l.owner? p = some owner) (other : owner ≠ service) :
      Performs l (.claim service p) (.error (.contested p owner service)) l
  | renewed {service : String} {p : Port} (nonzero : p ≠ 0)
      (owned : l.owner? p = some service) : Performs l (.claim service p) (.ok (some p)) l
  | claimed {service : String} {p : Port} (nonzero : p ≠ 0) (free : l.owner? p = none) :
      Performs l (.claim service p) (.ok (some p)) (l.own p service)
  | exhausted {service : String} {offered : List Port}
      (owned : ∀ q ∈ offered, l.owner? q ≠ none) :
      Performs l (.allocate service offered) (.error (.noneFree ⟨24⟩)) l
  | allocated {service : String} {skipped rest : List Port} {p : Port}
      (owned : ∀ q ∈ skipped, l.owner? q ≠ none) (free : l.owner? p = none) :
      Performs l (.allocate service (skipped ++ p :: rest)) (.ok (some p))
        { l.own p service with held := l.held ++ [p], offers := rest }
  | released : Performs l .release (.ok none) l.release

theorem performs_of_perform {c : PortCall} {answer : Except PortFault (Option Port)}
    (h : l.perform c = (answer, l')) : l.Performs c answer l' := by
  rcases c with ⟨service, p⟩ | ⟨service, offered⟩ | _
  · simp only [perform, claim] at h
    by_cases h0 : p = 0
    · subst h0
      cases h
      exact .zero
    rcases ho : l.owner? p with _ | owner <;> simp only [h0, if_false, ho] at h
    · cases h
      exact .claimed h0 ho
    · by_cases hs : owner = service <;> simp only [hs, if_true, if_false] at h <;> cases h
      · exact .renewed h0 (hs ▸ ho)
      · exact .contested h0 ho hs
  · simp only [perform, allocate] at h
    rcases hf : { l with offers := offered }.firstFree? offered with _ | ⟨p, rest⟩ <;>
      simp only [hf] at h <;> cases h
    · have hall := firstFree?_eq_none hf
      exact .exhausted hall
    · obtain ⟨hfree, skipped, rfl, hs⟩ := firstFree?_eq_some hf
      exact .allocated hs hfree
  · cases h
    exact .released

section Step

variable {c : PortCall} {answer : Except PortFault (Option Port)} (h : l.Performs c answer l')
include h

/-- No call takes a port from its owner. -/
theorem Performs.keeps : l.Keeps l' := by
  cases h with
  | zero | contested | renewed | exhausted => exact .refl l
  | claimed _ free => exact keeps_of_owner? (by simp [free]) (owner?_own free)
  | allocated _ free => exact keeps_of_owner? (by simp [free]) (owner?_own free)
  | released => exact fun _ _ ho => ho

/-- A port that has an owner is held on to until all are let go of, and nothing takes hold of it. -/
theorem Performs.isTakable_iff (ho : l.owner? p ≠ none) :
    l'.isTakable p = true ↔ c = .release ∨ l.isTakable p = true := by
  cases h with
  | zero | contested | renewed | exhausted => simp
  | claimed => simp [isTakable, own]
  | @allocated _ _ _ q _ free =>
    have hne : p ≠ q := fun hq => ho (hq ▸ free)
    simp [isTakable, hne]
  | released => simp [isTakable, release]

/-- Port zero is owned only if the system offers it. -/
theorem Performs.owner?_zero (hc : ∀ service offered, c = .allocate service offered → 0 ∉ offered)
    (h0 : l.owner? 0 = none) : l'.owner? 0 = none := by
  cases h with
  | zero | contested | renewed | exhausted => exact h0
  | claimed nonzero free => rw [owner?_own free, if_neg nonzero.symm, h0]
  | @allocated _ skipped rest q _ free =>
    have hne : (0 : Port) ≠ q := fun hq => hc _ _ rfl (by simp [hq])
    exact (owner?_own free 0).trans (by rw [if_neg hne, h0])
  | released => exact h0

theorem Performs.nodup (hn : (l.owners.map Prod.fst).Nodup) : (l'.owners.map Prod.fst).Nodup := by
  cases h with
  | zero | contested | renewed | exhausted | released => exact hn
  | claimed _ free => exact nodup_own hn free
  | allocated _ free => exact nodup_own hn free

end Step

/-! ## Runs -/

theorem run_cons (l : PortLedger) (c : PortCall) (calls : List PortCall) :
    l.run (c :: calls) = (l.perform c).2.run calls := rfl

theorem performs_perform (l : PortLedger) (c : PortCall) :
    l.Performs c (l.perform c).1 (l.perform c).2 :=
  performs_of_perform rfl

theorem keeps_run (calls : List PortCall) (l : PortLedger) : l.Keeps (l.run calls) := by
  induction calls generalizing l with
  | nil => exact .refl l
  | cons c calls ih => exact (l.performs_perform c).keeps.trans (ih _)

theorem nodup_run (calls : List PortCall) {l : PortLedger} (h : (l.owners.map Prod.fst).Nodup) :
    ((l.run calls).owners.map Prod.fst).Nodup := by
  induction calls generalizing l with
  | nil => exact h
  | cons c calls ih => exact ih ((l.performs_perform c).nodup h)

theorem owner?_zero_run (calls : List PortCall) {l : PortLedger}
    (hc : ∀ service offered, .allocate service offered ∈ calls → 0 ∉ offered)
    (h0 : l.owner? 0 = none) : (l.run calls).owner? 0 = none := by
  induction calls generalizing l with
  | nil => exact h0
  | cons c calls ih =>
    refine ih (fun service offered hm => hc service offered (List.mem_cons_of_mem c hm)) ?_
    refine (l.performs_perform c).owner?_zero (fun service offered he => ?_) h0
    exact hc service offered (he ▸ List.mem_cons_self)

/-- Through all calls an owned port can be taken only once the held ports are let go of. -/
theorem isTakable_run_iff (calls : List PortCall) {l : PortLedger} (ho : l.owner? p ≠ none) :
    (l.run calls).isTakable p = true ↔ .release ∈ calls ∨ l.isTakable p = true := by
  induction calls generalizing l with
  | nil => simp [run]
  | cons c calls ih =>
    have hstep := l.performs_perform c
    have ho' : (l.perform c).2.owner? p ≠ none := by
      obtain ⟨owner, hp⟩ := Option.ne_none_iff_exists'.1 ho
      rw [hstep.keeps p owner hp]
      exact Option.some_ne_none _
    rw [run_cons, ih ho', hstep.isTakable_iff ho, List.mem_cons]
    tauto

theorem eq_of_perform_eq_error {c : PortCall} {fault : PortFault}
    (h : l.perform c = (.error fault, l')) : l' = l := by
  cases performs_of_perform h <;> rfl

theorem isError_claim_iff {answer : Except PortFault (Option Port)}
    (h : l.perform (.claim service p) = (answer, l')) :
    (∃ fault, answer = .error fault) ↔
      p = 0 ∨ ∃ owner, l.owner? p = some owner ∧ owner ≠ service := by
  cases performs_of_perform h with
  | zero => simp
  | contested nonzero owned other => simp [owned, other]
  | renewed nonzero owned => simp [nonzero, owned]
  | claimed nonzero free => simp [nonzero, free]

theorem perform_claim_eq_ok {given : Option Port}
    (h : l.perform (.claim service p) = (.ok given, l')) :
    given = some p ∧ ∀ q, l'.owner? q = if q = p then some service else l.owner? q := by
  cases performs_of_perform h with
  | renewed _ owned => exact ⟨rfl, owner?_eq_ite owned⟩
  | claimed _ free => exact ⟨rfl, owner?_own free⟩

theorem isError_allocate_iff {offered : List Port} {answer : Except PortFault (Option Port)}
    (h : l.perform (.allocate service offered) = (answer, l')) :
    (∃ fault, answer = .error fault) ↔ ∀ q ∈ offered, l.owner? q ≠ none := by
  cases performs_of_perform h with
  | exhausted owned => exact iff_of_true ⟨_, rfl⟩ owned
  | allocated _ free => exact iff_of_false (by simp) fun hall => hall _ (by simp) free

theorem perform_allocate_eq_ok {offered : List Port} {given : Option Port}
    (h : l.perform (.allocate service offered) = (.ok given, l')) :
    ∃ p skipped rest, given = some p ∧ offered = skipped ++ p :: rest ∧ l.owner? p = none ∧
      (∀ q ∈ skipped, l.owner? q ≠ none) ∧
      (∀ q, l'.owner? q = if q = p then some service else l.owner? q) ∧
      l'.held = l.held ++ [p] := by
  cases performs_of_perform h with
  | allocated owned free => exact ⟨_, _, _, rfl, rfl, free, owned, owner?_own free, rfl⟩

/-- Whatever has been called for, a port has one owner and keeps it through all further calls,
nobody owns port zero unless the system has offered it, and a call that fails changes nothing. A
claim fails if and only if the port is zero or that of another service; else the port is the
service's. An allocation fails if and only if all offers have owners; else the service is given a
port that had none and that can be taken only once the held ports are let go of, and the offers
that were passed over keep their owners and are held as often as before. -/
theorem ownership_run (calls : List PortCall) :
    let l := run {} calls
    (l.owners.map Prod.fst).Nodup ∧
      (∀ p owner, l.owner? p = some owner → ∀ more, (l.run more).owner? p = some owner) ∧
      ((∀ service offered, .allocate service offered ∈ calls → 0 ∉ offered) →
        l.owner? 0 = none) ∧
      (∀ c fault l', l.perform c = (.error fault, l') → l' = l) ∧
      (∀ service p answer l', l.perform (.claim service p) = (answer, l') →
        ((∃ fault, answer = .error fault) ↔
          p = 0 ∨ ∃ owner, l.owner? p = some owner ∧ owner ≠ service) ∧
        ∀ given, answer = .ok given → given = some p ∧
          ∀ k, l'.owner? k = if k = p then some service else l.owner? k) ∧
      ∀ service offered answer l', l.perform (.allocate service offered) = (answer, l') →
        ((∃ fault, answer = .error fault) ↔ ∀ q ∈ offered, l.owner? q ≠ none) ∧
        ∀ given, answer = .ok given → ∃ p skipped rest,
          given = some p ∧ offered = skipped ++ p :: rest ∧ l.owner? p = none ∧
          (∀ k, l'.owner? k = if k = p then some service else l.owner? k) ∧
          (∀ more, (l'.run more).isTakable p = true ↔ .release ∈ more) ∧
          ∀ q ∈ skipped, l'.owner? q = l.owner? q ∧ l'.held.count q = l.held.count q := by
  intro l
  refine ⟨nodup_run calls (by simp), fun p owner hp more => keeps_run more l p owner hp,
    fun hc => owner?_zero_run calls hc rfl, fun c fault l' h => eq_of_perform_eq_error h,
    fun service p answer l' h => ⟨isError_claim_iff h, ?_⟩,
    fun service offered answer l' h => ⟨isError_allocate_iff h, ?_⟩⟩
  · rintro given rfl
    exact perform_claim_eq_ok h
  · rintro given rfl
    obtain ⟨p, skipped, rest, rfl, rfl, free, owned, howner, hheld⟩ := perform_allocate_eq_ok h
    have ho : l'.owner? p ≠ none := by simp [howner]
    refine ⟨p, skipped, rest, rfl, rfl, free, howner, fun more => ?_, fun q hq => ?_⟩
    · rw [isTakable_run_iff more ho]
      simp [isTakable, hheld]
    · have hne : q ≠ p := fun he => owned q hq (he ▸ free)
      rw [howner, if_neg hne, hheld, List.count_append]
      simp [hne.symm]

end LocalTopology.PortLedger
