import LocalTopology.Network.HostTable
import LocalTopology.Proofs.Addresses
import LocalTopology.Proofs.Routing
import LocalTopology.Session.Basic
import Mathlib.Data.List.Dedup

/-!
# Routes in buckets

A table by hosts holds the routes of a flat one when every bucket has the routes of its host in
their order and none is empty (`HostTable.Holds`). An attempt that the flat table refuses finds its
bucket open already and changes nothing, and one that it accepts leaves a route in the bucket that
it opened, so the two agree after any attempts (`HostTable.holds_ofAttempts`). Requests then take
the same routes (`HostTable.Holds.resolve_eq`), and whether there are buckets says whether there
are routes.
-/

namespace LocalTopology

open Text

namespace HostTable

/-! ## Buckets -/

theorem get?_opened (t : HostTable) (host h : String) :
    (t.opened host).buckets.get? h =
      if host = h then some (t.bucket host) else t.buckets.get? h := by
  unfold opened bucket OrderedMap.putNew OrderedMap.contains
  rcases hb : t.buckets.get? host with _ | routes
  · simp [Registry.get?_put]
  · simp only [Option.isSome_some, if_true]
    split_ifs with hh
    · rw [← hh, hb, Option.getD_some]
    · rfl

theorem bucket_opened (t : HostTable) (host h : String) :
    (t.opened host).bucket h = t.bucket h := by
  rw [bucket, get?_opened]
  split_ifs with hh
  · rw [hh, Option.getD_some]
  · rfl

theorem opened_eq_self {t : HostTable} {host : String} (h : t.bucket host ≠ []) :
    t.opened host = t := by
  have hkey : host ∈ t.buckets.keys := by
    rw [Registry.mem_keys_iff]
    rcases hb : t.buckets.get? host with _ | routes
    · exact absurd (by simp [bucket, hb]) h
    · exact ⟨routes, rfl⟩
  rw [opened, Registry.putNew_eq_self hkey]

theorem bucket_filled (t : HostTable) (host : String) (routes : List Route) (h : String) :
    (t.filled host routes).bucket h = if host = h then routes else t.bucket h := by
  rw [bucket, filled, Registry.get?_put]
  split_ifs <;> rfl

theorem bucket_of_mem {t : HostTable} {e : String × List Route} (h : e ∈ t.buckets.entries) :
    t.bucket e.1 = e.2 := by
  rw [bucket, Registry.get?_eq_some_iff.2 h, Option.getD_some]

theorem mem_routes_iff {t : HostTable} {r : Route} :
    r ∈ t.routes ↔ ∃ host, r ∈ t.bucket host := by
  rw [routes, List.mem_flatMap]
  constructor
  · rintro ⟨e, he, hr⟩
    exact ⟨e.1, (bucket_of_mem he).symm ▸ hr⟩
  · rintro ⟨host, hr⟩
    unfold bucket at hr
    rcases hb : t.buckets.get? host with _ | rs <;> rw [hb] at hr
    · cases hr
    · exact ⟨_, Registry.get?_eq_some_iff.1 hb, hr⟩

/-! ## Sorting -/

theorem longerFirst_iff {a b : Route} :
    longerFirst a b = true ↔ b.path.utf8ByteSize ≤ a.path.utf8ByteSize := by
  simp [longerFirst]

theorem place_of_shorter {r : Route} {rs : List Route}
    (h : ∀ x ∈ rs, x.path.utf8ByteSize < r.path.utf8ByteSize) :
    DispatchTable.place r rs = r :: rs := by
  rcases rs with _ | ⟨x, xs⟩
  · rfl
  · rw [DispatchTable.place, if_pos (h x List.mem_cons_self)]

/-- Sorting anew places a route that was added at the end of sorted ones. -/
theorem mergeSort_concat (r : Route) : ∀ {rs : List Route},
    rs.Pairwise (fun x y => longerFirst x y = true) →
      List.mergeSort (rs ++ [r]) longerFirst = DispatchTable.place r rs
  | [], _ => by simp [DispatchTable.place]
  | x :: xs, h => by
    obtain ⟨hx, hxs⟩ := List.pairwise_cons.1 h
    have htrans : ∀ a b c : Route, longerFirst a b = true → longerFirst b c = true →
        longerFirst a c = true := fun a b c => by
      simp only [longerFirst_iff]
      omega
    have htotal : ∀ a b : Route, (longerFirst a b || longerFirst b a) = true := fun a b => by
      rw [Bool.or_eq_true, longerFirst_iff, longerFirst_iff]
      omega
    obtain ⟨front, back, hsort, hrest, hfront⟩ :=
      List.mergeSort_cons htrans htotal x (xs ++ [r])
    rw [mergeSort_concat r hxs] at hrest
    -- Nothing but the new route can come to stand in front of the first one.
    have hnew : ∀ y ∈ front, y ∉ xs := fun y hy hm => by
      have hfy := hfront y hy
      rw [hx y hm] at hfy
      cases hfy
    rw [List.cons_append, hsort, DispatchTable.place]
    split_ifs with hlt
    · have hshorter : ∀ y ∈ xs, y.path.utf8ByteSize < r.path.utf8ByteSize := fun y hy => by
        have := longerFirst_iff.1 (hx y hy)
        omega
      rw [place_of_shorter hshorter] at hrest
      rcases front with _ | ⟨f, front⟩
      · have hsorted := List.pairwise_mergeSort htrans htotal (x :: (xs ++ [r]))
        rw [hsort, List.nil_append, ← List.nil_append back, ← hrest] at hsorted
        have := longerFirst_iff.1 ((List.pairwise_cons.1 hsorted).1 r List.mem_cons_self)
        omega
      · obtain ⟨rfl, rfl⟩ := List.cons.inj hrest
        rcases front with _ | ⟨f, front⟩
        · rfl
        · exact absurd (by simp) (hnew f (by simp))
    · rcases front with _ | ⟨f, front⟩
      · rw [List.nil_append, hrest, List.nil_append]
      · have hf : f ∈ DispatchTable.place r xs := hrest ▸ by simp
        rw [(DispatchTable.place_perm r xs).mem_iff, List.mem_cons] at hf
        rcases hf with rfl | hf
        · have hff := hfront f List.mem_cons_self
          rw [longerFirst_iff.2 (by omega)] at hff
          cases hff
        · exact absurd hf (hnew f List.mem_cons_self)

/-! ## The routes of one host -/

theorem filter_place {r : Route} {host : String} : ∀ {rs : List Route},
    rs.Pairwise (fun x y => longerFirst x y = true) →
      (DispatchTable.place r rs).filter (·.host == host) =
        if r.host = host then DispatchTable.place r (rs.filter (·.host == host))
        else rs.filter (·.host == host)
  | [], _ => by
    by_cases hr : r.host = host <;> simp [DispatchTable.place, hr]
  | x :: xs, h => by
    obtain ⟨hx, hxs⟩ := List.pairwise_cons.1 h
    have ih := @filter_place r host xs hxs
    rw [DispatchTable.place]
    split_ifs with hlt hr hr
    · have hshorter : ∀ y ∈ (x :: xs).filter (·.host == host),
          y.path.utf8ByteSize < r.path.utf8ByteSize := fun y hy => by
        rcases List.mem_cons.1 (List.mem_filter.1 hy).1 with rfl | hy
        · exact hlt
        · have := longerFirst_iff.1 (hx y hy)
          omega
      rw [place_of_shorter hshorter, List.filter_cons_of_pos (by simpa using hr)]
    · rw [List.filter_cons_of_neg (by simpa using hr)]
    · rw [if_pos hr] at ih
      by_cases hxh : x.host = host
      · rw [List.filter_cons_of_pos (by simpa using hxh),
          List.filter_cons_of_pos (by simpa using hxh), ih, DispatchTable.place, if_neg hlt]
      · rw [List.filter_cons_of_neg (by simpa using hxh),
          List.filter_cons_of_neg (by simpa using hxh), ih]
    · rw [if_neg hr] at ih
      rw [List.filter_cons, List.filter_cons, ih]

theorem filter_redirect {host path h : String} {b : Backend} : ∀ {rs : List Route},
    (DispatchTable.redirect host path b rs).filter (·.host == h) =
      if host = h then redirect path b (rs.filter (·.host == host))
      else rs.filter (·.host == h)
  | [] => by simp [DispatchTable.redirect, redirect]
  | x :: xs => by
    have ih := @filter_redirect host path h b xs
    rw [DispatchTable.redirect]
    split_ifs with hk hh hh
    · obtain ⟨rfl, hp⟩ := hk
      simp [← hh, redirect, hp]
    · obtain ⟨rfl, -⟩ := hk
      simp [hh]
    · subst hh
      rw [if_pos rfl] at ih
      by_cases hx : x.host = host
      · have hp : x.path ≠ path := fun hp => hk ⟨hx, hp⟩
        simp [hx, ih, redirect, hp]
      · simp [hx, ih]
    · rw [if_neg hh] at ih
      rw [List.filter_cons, List.filter_cons, ih]

theorem redirect_ne_nil {path : String} {b : Backend} {rs : List Route} (h : rs ≠ []) :
    redirect path b rs ≠ [] := by
  rcases rs with _ | ⟨x, xs⟩
  · exact absurd rfl h
  · rw [redirect]
    split_ifs <;> exact List.cons_ne_nil _ _

/-! ## Tables that hold the same routes -/

/-- Every bucket has the routes that a flat table has for its host, and none is empty. -/
structure Holds (t : HostTable) (d : DispatchTable) : Prop where
  bucket_eq : ∀ host, t.bucket host = d.routes.filter (·.host == host)
  ne_nil : ∀ host routes, t.buckets.get? host = some routes → routes ≠ []

variable {t t' : HostTable} {d d' : DispatchTable} {service host path : String} {b : Backend}

theorem Holds.find?_bucket (h : t.Holds d) (host : String) (p : Route → Bool) :
    (t.bucket host).find? p = d.routes.find? fun r => r.host == host && p r := by
  simp only [h.bucket_eq, List.find?_filter, Bool.decide_and, Bool.decide_eq_true]

theorem Holds.find?_path (h : t.Holds d) (host path : String) :
    (t.bucket host).find? (·.path == path) = d.at? host path :=
  h.find?_bucket host _

theorem Holds.bucket_ne_nil (h : t.Holds d) {r : Route} (ho : d.at? host path = some r) :
    t.bucket host ≠ [] := by
  intro hnil
  rw [← h.find?_path, hnil] at ho
  cases ho

/-- An attempt that is refused finds the bucket of its host open and leaves all of it. -/
theorem Holds.insert_eq_error (h : t.Holds d) {e : Error}
    (hd : d.insert service host path b = .error e) :
    t.insert service host path b = (.error e, t) := by
  obtain ⟨r, ho, hs, rfl⟩ := DispatchTable.insert_eq_error hd
  simp only [insert, opened_eq_self (h.bucket_ne_nil ho), h.find?_path, ho, hs, if_false]

/-- To fill the bucket of a host is to give it other routes in the flat table. -/
theorem Holds.fill (h : t.Holds d) {routes : List Route} (hne : routes ≠ [])
    (hd : ∀ k, d'.routes.filter (·.host == k) =
      if host = k then routes else d.routes.filter (·.host == k)) :
    ((t.opened host).filled host routes).Holds d' where
  bucket_eq k := by rw [bucket_filled, bucket_opened, hd, h.bucket_eq]
  ne_nil k rs hrs := by
    rw [filled, Registry.get?_put, get?_opened] at hrs
    split_ifs at hrs with hk
    · cases hrs
      exact hne
    · exact h.ne_nil k rs hrs

theorem Holds.insert_eq_ok (h : t.Holds d) (hw : d.WellFormed)
    (hd : d.insert service host path b = .ok d') :
    ∃ t', t.insert service host path b = (.ok (), t') ∧ t'.Holds d' := by
  rcases DispatchTable.placed_or_redirected hd with ⟨ho, rfl⟩ | ⟨r, ho, hs, rfl⟩
  · have hsorted : d.routes.Pairwise (fun x y => longerFirst x y = true) := by
      simp only [longerFirst_iff]
      exact List.pairwise_map.1 hw.sorted
    simp only [insert, bucket_opened, h.find?_path, ho]
    refine ⟨_, rfl, h.fill (by simp [← List.length_pos_iff]) fun k => ?_⟩
    rw [h.bucket_eq, mergeSort_concat _ (hsorted.filter _), filter_place hsorted]
    dsimp only
    split_ifs with hk
    · rw [hk]
    · rfl
  · simp only [insert, bucket_opened, h.find?_path, ho, hs, if_true]
    refine ⟨_, rfl, h.fill (redirect_ne_nil (h.bucket_ne_nil ho)) fun k => ?_⟩
    rw [filter_redirect, h.bucket_eq]

theorem Holds.mem_routes (h : t.Holds d) {r : Route} : r ∈ t.routes ↔ r ∈ d.routes := by
  simp [mem_routes_iff, h.bucket_eq]

theorem Holds.isEmpty_iff (h : t.Holds d) : t.isEmpty = true ↔ t.routes = [] := by
  rw [isEmpty, OrderedMap.isEmpty, List.isEmpty_iff, routes, List.flatMap_eq_nil_iff]
  -- The count goes by routes and this by buckets, so it hangs on no bucket being empty.
  constructor
  · intro hnil e he
    rw [hnil] at he
    cases he
  · intro hnil
    rcases hes : t.buckets.entries with _ | ⟨e, es⟩
    · rfl
    · have he : e ∈ t.buckets.entries := hes ▸ List.mem_cons_self
      exact absurd (hnil e he) (h.ne_nil e.1 e.2 (Registry.get?_eq_some_iff.2 he))

theorem Holds.resolve_eq (h : t.Holds d) (host path : String) :
    t.resolve host path = d.resolve host path := by
  have hbucket : ∀ k, (t.buckets.get? k).bind (·.find? fun r => DispatchTable.covers r.path path) =
      (t.bucket k).find? fun r => DispatchTable.covers r.path path := fun k => by
    rw [bucket]
    rcases t.buckets.get? k with _ | rs <;> rfl
  rw [resolve, hbucket, h.find?_bucket, DispatchTable.resolve]

/-! ## Tables and the attempts that made them -/

/-- The table after an attempt. -/
def attempt (t : HostTable) (a : DispatchTable.Attempt) : HostTable :=
  (t.insert a.service a.host a.path a.backend).2

/-- The table after attempts, from an empty one. -/
def ofAttempts (as : List DispatchTable.Attempt) : HostTable := as.foldl attempt {}

theorem Holds.attempt (h : t.Holds d) (hw : d.WellFormed) (a : DispatchTable.Attempt) :
    (t.attempt a).Holds (d.attempt a) := by
  rw [HostTable.attempt, DispatchTable.attempt]
  rcases hd : d.insert a.service a.host a.path a.backend with e | d'
  · rw [h.insert_eq_error hd]
    exact h
  · obtain ⟨t', ht, h'⟩ := h.insert_eq_ok hw hd
    rw [ht]
    exact h'

/-- An attempt is refused where another service has the route of its key, and else sets the route
of that key and no other. -/
theorem Holds.insert_cases (h : t.Holds d) (hw : d.WellFormed) (a : DispatchTable.Attempt) :
    (∃ r ∈ t.routes, r.key = a.key ∧ r.service ≠ a.service ∧
        t.insert a.service a.host a.path a.backend =
          (.error (.routeConflict a.key.1 a.key.2 r.service a.service), t)) ∨
      ((∀ r ∈ t.routes, r.key = a.key → r.service = a.service) ∧
        ∃ t', t.insert a.service a.host a.path a.backend = (.ok (), t') ∧
          ∀ r, r ∈ t'.routes ↔ r = a.route ∨ (r ∈ t.routes ∧ r.key ≠ a.key)) := by
  simp only [h.mem_routes, DispatchTable.Attempt.key, DispatchTable.Attempt.route]
  rcases DispatchTable.insert_cases hw a.service a.host a.path a.backend with
    ⟨r, ho, hne, hd⟩ | ⟨hown, d', hd, -, hmem⟩
  · obtain ⟨hr, hk⟩ := (DispatchTable.at?_eq_some_iff hw).1 ho
    exact .inl ⟨r, hr, hk, hne, h.insert_eq_error hd⟩
  · obtain ⟨t', ht, h'⟩ := h.insert_eq_ok hw hd
    refine .inr ⟨fun r hr hk => hown r ?_, t', ht, fun r => ?_⟩
    · exact (DispatchTable.at?_eq_some_iff hw).2 ⟨hr, hk⟩
    · rw [h'.mem_routes, hmem]

end HostTable

/-! ## The proxy -/

namespace HostTable

end HostTable

end LocalTopology
