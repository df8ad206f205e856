import LocalTopology.Network.Dispatch
import LocalTopology.Proofs.Text
import Mathlib.Data.List.Nodup

/-!
# Requests take the longest route

However a dispatch table came about, its routes have distinct keys, their paths are in normal form,
and longer paths stand in front of shorter ones (`wellFormed_ofAttempts`). Two paths that are whole
beginnings of the same path are equal or differ in length (`size_ne_of_begins`), so the first route
that fits a request is the longest one that does (`resolve_eq_some_iff`). What a key leads to hangs
only on the attempts made for that key (`at?_ofAttempts`), and so does every answer.
-/

namespace LocalTopology

open Text

/-! ## What a request asks for -/

/-- The name that the host of a request addresses: the digits behind its last colon are no part of
it, unless nothing stands in front of them. -/
def Addresses (host name : String) : Prop :=
  (∃ port : List Char, name ≠ "" ∧ (∀ c ∈ port, c.isDigit = true) ∧
      host.toList = name.toList ++ ':' :: port) ∨
    (name = host ∧ ∀ before port : List Char, host.toList = before ++ ':' :: port →
      before = [] ∨ ∃ c ∈ port, c.isDigit = false)

/-- A path is a whole beginning of another: nothing follows it there, or a slash, or a query. -/
def Begins (path requested : String) : Prop :=
  path = "/" ∨ ∃ rest : List Char, requested.toList = path.toList ++ rest ∧
    (rest = [] ∨ rest.head? = some '/' ∨ rest.head? = some '?')

/-- A route fits a request that addresses its host and whose path begins with its own. -/
structure Route.Fits (r : Route) (host path : String) : Prop where
  host : ∃ name, Addresses host name ∧ r.host = foldCase name
  path : Begins r.path path

/-- A path in normal form is a slash, or starts with one and ends with none. -/
def IsNormalPath (path : String) : Prop :=
  path = "/" ∨ (path.toList.head? = some '/' ∧ path.toList.getLast? ≠ some '/')

/-- The host and the path of a route. -/
def Route.key (r : Route) : String × String := (r.host, r.path)

theorem Route.key_mk (service host path : String) (b : Backend) :
    (Route.mk service host path b).key = (host, path) := rfl

namespace DispatchTable

theorem not_mem_of_all_digits {port : List Char} (h : ∀ c ∈ port, c.isDigit = true) :
    ':' ∉ port := by
  intro hm
  have := h ':' hm
  simp [Char.isDigit] at this

theorem stripPort_eq_iff {host name : String} : stripPort host = name ↔ Addresses host name := by
  unfold stripPort Addresses
  rcases hc : cutLast? ':' host.toList with _ | ⟨before, port⟩
  · have hn := cutLast?_eq_none_iff.1 hc
    simp only
    constructor
    · rintro rfl
      refine Or.inr ⟨rfl, fun b p e => absurd ?_ hn⟩
      simp [e]
    · rintro (⟨port, -, -, e⟩ | ⟨rfl, -⟩)
      · exact absurd (by simp [e]) hn
      · rfl
  · obtain ⟨e, hp⟩ := cutLast?_eq_some_iff.1 hc
    -- There is only one cut behind which no further colon stands.
    have huniq : ∀ b p, host.toList = b ++ ':' :: p → ':' ∉ p → b = before ∧ p = port := by
      intro b p hb hn
      have := cutLast?_eq_some_iff.2 ⟨hb, hn⟩
      rw [hc, Option.some.injEq, Prod.mk.injEq] at this
      exact ⟨this.1.symm, this.2.symm⟩
    simp only [Bool.and_eq_true, Bool.not_eq_true', List.all_eq_true]
    split_ifs with hd
    · obtain ⟨hb, hall⟩ := hd
      rw [List.isEmpty_eq_false_iff] at hb
      constructor
      · rintro rfl
        refine Or.inl ⟨port, fun he => hb ?_, hall, by simpa using e⟩
        simpa using congrArg String.toList he
      · rintro (⟨p, -, hpd, hh⟩ | ⟨rfl, hno⟩)
        · rw [← (huniq _ _ hh (not_mem_of_all_digits hpd)).1, String.ofList_toList]
        · rcases hno _ _ e with h | ⟨c, hcm, hcd⟩
          · exact absurd h hb
          · rw [hall c hcm] at hcd
            simp at hcd
    · constructor
      · rintro rfl
        refine Or.inr ⟨rfl, fun b p hh => ?_⟩
        by_contra hcon
        push Not at hcon
        have hall : ∀ c ∈ p, c.isDigit = true := fun c hcm => by simpa using hcon.2 c hcm
        obtain ⟨rfl, rfl⟩ := huniq b p hh (not_mem_of_all_digits hall)
        exact hd ⟨by simpa using hcon.1, hall⟩
      · rintro (⟨p, hne, hpd, hh⟩ | ⟨rfl, -⟩)
        · obtain ⟨rfl, rfl⟩ := huniq _ _ hh (not_mem_of_all_digits hpd)
          refine absurd ⟨?_, hpd⟩ hd
          simpa using hne
        · rfl

theorem covers_iff {path requested : String} :
    covers path requested = true ↔ Begins path requested := by
  unfold covers Begins
  rw [Bool.or_eq_true, beq_iff_eq]
  refine or_congr Iff.rfl ?_
  rcases hd : path.toList.isPrefixOf? requested.toList with _ | rest
  · simp only [Bool.false_eq_true, false_iff]
    rintro ⟨rest, e, -⟩
    rw [List.isPrefixOf?_eq_some_iff_append_eq.2 e.symm] at hd
    simp at hd
  · have e := (List.isPrefixOf?_eq_some_iff_append_eq.1 hd).symm
    constructor
    · intro h
      refine ⟨rest, e, ?_⟩
      rcases rest with _ | ⟨c, cs⟩
      · exact Or.inl rfl
      · simpa using h
    · rintro ⟨rest', e', h⟩
      obtain rfl : rest = rest' := by simpa [e] using e'
      rcases h with rfl | h | h <;> simp_all

theorem fits_iff {r : Route} {host path : String} :
    (r.host == foldCase (stripPort host) && covers r.path path) = true ↔ r.Fits host path := by
  rw [Bool.and_eq_true, beq_iff_eq, covers_iff]
  constructor
  · rintro ⟨h, hp⟩
    exact ⟨⟨_, stripPort_eq_iff.1 rfl, h⟩, hp⟩
  · rintro ⟨⟨name, ha, h⟩, hp⟩
    rw [stripPort_eq_iff.2 ha]
    exact ⟨h, hp⟩

theorem normalizePath_isNormal (path : String) : IsNormalPath (normalizePath path) := by
  have hlast := getLast?_trimEndSlashes path
  unfold normalizePath IsNormalPath
  simp only
  split_ifs with he hs
  · exact Or.inl rfl
  · obtain ⟨rest, hr⟩ := startsWith_iff.1 hs
    refine Or.inr ⟨?_, hlast⟩
    rw [← hr]
    rfl
  · refine Or.inr ⟨by simp, ?_⟩
    have hne : (trimEndSlashes path).toList ≠ [] := by simpa using he
    rw [String.toList_append, List.getLast?_append_of_ne_nil _ hne]
    exact hlast

theorem size_lt_of_isPrefix {a b : String} (h : a.toList <+: b.toList) (hne : a ≠ b) :
    a.utf8ByteSize < b.utf8ByteSize := by
  obtain ⟨rest, hr⟩ := h
  have hb : b = a ++ String.ofList rest := String.toList_inj.1 (by simp [hr])
  have hrest : (String.ofList rest).utf8ByteSize ≠ 0 := by
    intro hz
    rw [String.utf8ByteSize_eq_zero_iff] at hz
    exact hne (by simp [hb, hz])
  rw [hb, String.utf8ByteSize_append]
  omega

theorem root_isPrefix {path : String} (h : IsNormalPath path) : "/".toList <+: path.toList := by
  rcases h with rfl | ⟨h, -⟩
  · exact List.prefix_refl _
  · obtain ⟨cs, hcs⟩ := List.head?_eq_some_iff.1 h
    exact ⟨cs, hcs.symm⟩

/-- Two paths in normal form that begin the same path are equal, or one is longer. -/
theorem size_ne_of_begins {a b requested : String} (ha : IsNormalPath a) (hb : IsNormalPath b)
    (hab : Begins a requested) (hbb : Begins b requested) (hne : a ≠ b) :
    a.utf8ByteSize ≠ b.utf8ByteSize := by
  have hlt : ∀ {x y : String}, x.toList <+: y.toList → x ≠ y → x.utf8ByteSize ≠ y.utf8ByteSize :=
    fun h hxy => (size_lt_of_isPrefix h hxy).ne
  rcases hab with rfl | ⟨ra, ea, -⟩
  · exact hlt (root_isPrefix hb) hne
  rcases hbb with rfl | ⟨rb, eb, -⟩
  · exact (hlt (root_isPrefix ha) hne.symm).symm
  · rcases List.prefix_or_prefix_of_prefix ⟨ra, ea.symm⟩ ⟨rb, eb.symm⟩ with h | h
    · exact hlt h hne
    · exact (hlt h hne.symm).symm

/-! ## Well-formed tables -/

/-- The keys of the routes, in order. -/
def keys (t : DispatchTable) : List (String × String) := t.routes.map Route.key

/-- Each key has one route, paths are in normal form, and longer ones stand in front. -/
structure WellFormed (t : DispatchTable) : Prop where
  nodup : t.keys.Nodup
  sorted : t.keys.Pairwise fun j k => k.2.utf8ByteSize ≤ j.2.utf8ByteSize
  normal : ∀ k ∈ t.keys, IsNormalPath k.2

theorem wellFormed_empty : WellFormed {} where
  nodup := by simp [keys]
  sorted := by simp [keys]
  normal := by simp [keys]

theorem place_perm (r : Route) : ∀ rs : List Route, (place r rs).Perm (r :: rs)
  | [] => List.Perm.refl _
  | x :: xs => by
    unfold place
    split_ifs
    · exact List.Perm.refl _
    · exact ((place_perm r xs).cons x).trans (List.Perm.swap r x xs)

theorem sorted_place (r : Route) : ∀ {rs : List Route},
    (rs.map Route.key).Pairwise (fun j k => k.2.utf8ByteSize ≤ j.2.utf8ByteSize) →
    ((place r rs).map Route.key).Pairwise (fun j k => k.2.utf8ByteSize ≤ j.2.utf8ByteSize)
  | [], _ => by simp [place]
  | x :: xs, h => by
    rw [List.map_cons, List.pairwise_cons] at h
    obtain ⟨hx, hxs⟩ := h
    unfold place
    split_ifs with hlt
    · refine List.pairwise_cons.2 ⟨?_, List.pairwise_cons.2 ⟨hx, hxs⟩⟩
      have hlt' : x.key.2.utf8ByteSize < r.key.2.utf8ByteSize := hlt
      intro k hk
      rcases List.mem_cons.1 hk with rfl | hk
      · omega
      · have := hx k hk
        omega
    · have hle : r.key.2.utf8ByteSize ≤ x.key.2.utf8ByteSize := Nat.not_lt.1 hlt
      refine List.pairwise_cons.2 ⟨?_, sorted_place r hxs⟩
      intro k hk
      rw [((place_perm r xs).map Route.key).mem_iff, List.map_cons, List.mem_cons] at hk
      rcases hk with rfl | hk
      · exact hle
      · exact hx k hk

theorem keys_redirect (host path : String) (b : Backend) : ∀ rs : List Route,
    (redirect host path b rs).map Route.key = rs.map Route.key
  | [] => rfl
  | r :: rs => by
    unfold redirect
    split_ifs
    · rfl
    · rw [List.map_cons, keys_redirect host path b rs, List.map_cons]

theorem at?_eq_none_iff {t : DispatchTable} {host path : String} :
    t.at? host path = none ↔ ∀ r ∈ t.routes, r.key ≠ (host, path) := by
  simp [at?, Route.key]

theorem at?_eq_some_iff {t : DispatchTable} (hw : t.WellFormed) {host path : String} {r : Route} :
    t.at? host path = some r ↔ r ∈ t.routes ∧ r.key = (host, path) := by
  have hfound : ∀ {x : Route}, t.at? host path = some x → x ∈ t.routes ∧ x.key = (host, path) := by
    intro x h
    have hx := List.find?_some h
    exact ⟨List.mem_of_find?_eq_some h, by simpa [Route.key] using hx⟩
  constructor
  · exact hfound
  · rintro ⟨hr, hk⟩
    rcases h : t.at? host path with _ | x
    · exact absurd hk (at?_eq_none_iff.1 h r hr)
    · obtain ⟨hx, hxk⟩ := hfound h
      rw [List.inj_on_of_nodup_map hw.nodup hx hr (hxk.trans hk.symm)]

theorem mem_routes_iff_at? {t : DispatchTable} (hw : t.WellFormed) {r : Route} :
    r ∈ t.routes ↔ t.at? r.host r.path = some r := by
  simp only [at?_eq_some_iff hw, Route.key, and_true]

/-- A route that is placed among others is found where none of them is. -/
theorem find?_place {p : Route → Bool} {r : Route} (hr : p r = true) : ∀ {rs : List Route},
    (∀ x ∈ rs, p x = false) → (place r rs).find? p = some r
  | [], _ => by simp [place, hr]
  | x :: xs, h => by
    obtain ⟨hx, hxs⟩ := List.forall_mem_cons.1 h
    unfold place
    split_ifs
    · rw [List.find?_cons_of_pos hr]
    · rw [List.find?_cons_of_neg (by simp [hx])]
      exact find?_place hr hxs

theorem find?_place_of_neg {p : Route → Bool} {r : Route} (hr : p r = false) :
    ∀ rs : List Route, (place r rs).find? p = rs.find? p
  | [] => by simp [place, hr]
  | x :: xs => by
    unfold place
    split_ifs
    · rw [List.find?_cons_of_neg (by simp [hr])]
    · rw [List.find?_cons, List.find?_cons, find?_place_of_neg hr xs]

theorem at?_place {t : DispatchTable} {r : Route} {host path : String} (hr : r.key = (host, path))
    (ho : t.at? host path = none) (k p : String) : at? ⟨place r t.routes⟩ k p =
      if k = host ∧ p = path then some r else t.at? k p := by
  cases hr
  split_ifs with hk
  · obtain ⟨rfl, rfl⟩ := hk
    refine find?_place (by simp) fun x hx => ?_
    simpa [Route.key] using at?_eq_none_iff.1 ho x hx
  · refine find?_place_of_neg ?_ _
    rw [Bool.eq_false_iff, ne_eq, Bool.and_eq_true, beq_iff_eq, beq_iff_eq]
    exact fun hr => hk ⟨hr.1.symm, hr.2.symm⟩

theorem WellFormed.place {t : DispatchTable} (hw : t.WellFormed) {r : Route} {host path : String}
    (hr : r.key = (host, path)) (ho : t.at? host path = none) (hn : IsNormalPath path) :
    WellFormed ⟨DispatchTable.place r t.routes⟩ := by
  cases hr
  have hkeys := (place_perm r t.routes).map Route.key
  rw [List.map_cons] at hkeys
  refine ⟨?_, sorted_place r hw.sorted, fun k hk => ?_⟩
  · refine hkeys.nodup_iff.2 (List.nodup_cons.2 ⟨fun hm => ?_, hw.nodup⟩)
    obtain ⟨y, hy, hyk⟩ := List.mem_map.1 hm
    exact at?_eq_none_iff.1 ho y hy hyk
  · rw [keys, hkeys.mem_iff, List.mem_cons] at hk
    rcases hk with rfl | hk
    · exact hn
    · exact hw.normal k hk

/-- Only the route of the key is redirected, and it stays where it is. -/
theorem at?_redirect (t : DispatchTable) (host path : String) (b : Backend) (h p : String) :
    at? ⟨redirect host path b t.routes⟩ h p =
      if h = host ∧ p = path then (t.at? host path).map fun r => { r with backend := b }
      else t.at? h p := by
  obtain ⟨rs⟩ := t
  simp only [at?]
  induction rs with
  | nil => simp [redirect]
  | cons r rs ih =>
    unfold redirect
    by_cases hr : r.host = host ∧ r.path = path
    · rw [if_pos hr]
      obtain ⟨rfl, rfl⟩ := hr
      by_cases hk : h = r.host ∧ p = r.path
      · obtain ⟨rfl, rfl⟩ := hk
        simp
      · have hne : (r.host == h && r.path == p) = false := by
          rw [Bool.eq_false_iff, ne_eq, Bool.and_eq_true, beq_iff_eq, beq_iff_eq]
          exact fun hr => hk ⟨hr.1.symm, hr.2.symm⟩
        simp only [if_neg hk, List.find?_cons, hne]
    · rw [if_neg hr, List.find?_cons, ih]
      have hne : (r.host == host && r.path == path) = false := by simpa using hr
      by_cases hk : h = host ∧ p = path
      · obtain ⟨rfl, rfl⟩ := hk
        simp [hne]
      · rw [if_neg hk, if_neg hk, List.find?_cons]

theorem WellFormed.redirect {t : DispatchTable} (hw : t.WellFormed) (host path : String)
    (b : Backend) : WellFormed ⟨DispatchTable.redirect host path b t.routes⟩ := by
  have hkeys : keys ⟨DispatchTable.redirect host path b t.routes⟩ = t.keys :=
    keys_redirect host path b t.routes
  constructor <;> rw [hkeys]
  exacts [hw.nodup, hw.sorted, hw.normal]

theorem redirect_eq_self {host path : String} {b : Backend} {r : Route} : ∀ {rs : List Route},
    rs.find? (fun x => x.host == host && x.path == path) = some r → r.backend = b →
      redirect host path b rs = rs
  | [], h, _ => by cases h
  | x :: xs, h, hb => by
    unfold redirect
    by_cases hx : x.host = host ∧ x.path = path
    · rw [List.find?_cons_of_pos (by simpa using hx)] at h
      cases h
      rw [if_pos hx, ← hb]
    · rw [List.find?_cons_of_neg (by simpa using hx)] at h
      rw [if_neg hx, redirect_eq_self h hb]

/-- A key that had no route gets one placed, and the route of the same service is redirected. -/
theorem placed_or_redirected {t t' : DispatchTable} {service host path : String} {b : Backend}
    (h : t.insert service host path b = .ok t') :
    (t.at? (foldCase host) (normalizePath path) = none ∧
        t' = ⟨place ⟨service, foldCase host, normalizePath path, b⟩ t.routes⟩) ∨
      ∃ r, t.at? (foldCase host) (normalizePath path) = some r ∧ r.service = service ∧
        t' = ⟨redirect (foldCase host) (normalizePath path) b t.routes⟩ := by
  unfold insert at h
  simp only at h
  rcases ho : t.at? (foldCase host) (normalizePath path) with _ | r <;> simp only [ho] at h
  · cases h
    exact .inl ⟨rfl, rfl⟩
  · split_ifs at h with hs
    cases h
    exact .inr ⟨r, rfl, hs, rfl⟩

/-- A key that is routed had no route or one of the same service, and leads to the new backend; all
other keys lead where they did. -/
theorem insert_eq_ok {t t' : DispatchTable} {service host path : String} {b : Backend}
    (h : t.insert service host path b = .ok t') :
    (∀ r, t.at? (foldCase host) (normalizePath path) = some r → r.service = service) ∧
      ∀ k p, t'.at? k p =
        if k = foldCase host ∧ p = normalizePath path then
          some ⟨service, foldCase host, normalizePath path, b⟩
        else t.at? k p := by
  rcases placed_or_redirected h with ⟨ho, rfl⟩ | ⟨r, ho, hs, rfl⟩
  · exact ⟨by simp [ho], at?_place (Route.key_mk _ _ _ _) ho⟩
  · refine ⟨by simp [ho, hs], fun k p => ?_⟩
    rw [at?_redirect, ho]
    have hr := List.find?_some ho
    simp only [Bool.and_eq_true, beq_iff_eq] at hr
    simp [← hs, ← hr.1, ← hr.2]

theorem wellFormed_of_insert {t t' : DispatchTable} (hw : t.WellFormed) {service host path : String}
    {b : Backend} (h : t.insert service host path b = .ok t') : t'.WellFormed := by
  rcases placed_or_redirected h with ⟨ho, rfl⟩ | ⟨r, -, -, rfl⟩
  · exact hw.place (Route.key_mk _ _ _ _) ho (normalizePath_isNormal path)
  · exact hw.redirect _ _ b

theorem insert_eq_error {t : DispatchTable} {service host path : String} {b : Backend} {e : Error}
    (h : t.insert service host path b = .error e) :
    ∃ r, t.at? (foldCase host) (normalizePath path) = some r ∧ r.service ≠ service ∧
      e = .routeConflict (foldCase host) (normalizePath path) r.service service := by
  unfold insert at h
  simp only at h
  rcases ho : t.at? (foldCase host) (normalizePath path) with _ | r <;> simp only [ho] at h
  · cases h
  · split_ifs at h with hs
    cases h
    exact ⟨r, rfl, hs, rfl⟩

/-- Routing a host and a path fails only on the route of another service, and else sets the route
of that key and no other. -/
theorem insert_cases {t : DispatchTable} (hw : t.WellFormed) (service host path : String)
    (b : Backend) :
    (∃ r, t.at? (foldCase host) (normalizePath path) = some r ∧ r.service ≠ service ∧
        t.insert service host path b =
          .error (.routeConflict (foldCase host) (normalizePath path) r.service service)) ∨
      ((∀ r, t.at? (foldCase host) (normalizePath path) = some r → r.service = service) ∧
        ∃ t', t.insert service host path b = .ok t' ∧ t'.WellFormed ∧
          ∀ r, r ∈ t'.routes ↔ r = ⟨service, foldCase host, normalizePath path, b⟩ ∨
            (r ∈ t.routes ∧ r.key ≠ (foldCase host, normalizePath path))) := by
  rcases h : t.insert service host path b with e | t'
  · obtain ⟨r, ho, hs, rfl⟩ := insert_eq_error h
    exact .inl ⟨r, ho, hs, rfl⟩
  · obtain ⟨hown, hat⟩ := insert_eq_ok h
    have hw' := wellFormed_of_insert hw h
    refine .inr ⟨hown, t', rfl, hw', fun r => ?_⟩
    have hkey : r.key = (foldCase host, normalizePath path) ↔
        r.host = foldCase host ∧ r.path = normalizePath path := by
      rw [Route.key, Prod.mk.injEq]
    rw [mem_routes_iff_at? hw', hat, mem_routes_iff_at? hw, ne_eq, hkey]
    split_ifs with hk
    · rw [Option.some.injEq, eq_comm]
      exact (or_iff_left fun hr => hr.2 hk).symm
    · refine ⟨fun hr => .inr ⟨hr, hk⟩, ?_⟩
      rintro (rfl | ⟨hr, -⟩)
      · simp at hk
      · exact hr

/-- To route a key once more to where it leads changes nothing. -/
theorem insert_eq_self {t : DispatchTable} {service host path : String} {b : Backend}
    (h : t.at? (foldCase host) (normalizePath path) =
      some ⟨service, foldCase host, normalizePath path, b⟩) :
    t.insert service host path b = .ok t := by
  simp only [insert, h, if_true]
  rw [redirect_eq_self h rfl]

/-! ## The longest route -/

/-- Among entries in falling order of size, of which no two that pass have the same size, the first
that passes is the largest. -/
theorem find?_eq_some_iff_largest {α : Type} {p : α → Bool} {size : α → Nat} {l : List α} {a : α}
    (hs : l.Pairwise fun x y => size y ≤ size x)
    (hd : ∀ x ∈ l, ∀ y ∈ l, p x = true → p y = true → x ≠ y → size x ≠ size y) :
    l.find? p = some a ↔
      a ∈ l ∧ p a = true ∧ ∀ x ∈ l, p x = true → x ≠ a → size x < size a := by
  have hfirst : ∀ {b}, l.find? p = some b → ∀ x ∈ l, p x = true → x ≠ b → size x < size b := by
    intro b hb x hx hpx hne
    have hbl := List.mem_of_find?_eq_some hb
    obtain ⟨hpb, before, after, rfl, hbefore⟩ := List.find?_eq_some_iff_append.1 hb
    have hxa : x ∈ after := by
      rcases List.mem_append.1 hx with h | h
      · simpa [hpx] using hbefore x h
      · exact (List.mem_cons.1 h).resolve_left hne
    have hle := (List.pairwise_cons.1 (List.pairwise_append.1 hs).2.1).1 x hxa
    have := hd x hx b hbl hpx hpb hne
    omega
  constructor
  · intro h
    exact ⟨List.mem_of_find?_eq_some h, List.find?_some h, hfirst h⟩
  · rintro ⟨ha, hpa, hmax⟩
    rcases h : l.find? p with _ | b
    · exact absurd hpa (by simpa using List.find?_eq_none.1 h a ha)
    · by_contra hne
      have hab : a ≠ b := fun e => hne (by rw [e])
      have h₁ := hfirst h a ha hpa hab
      have h₂ := hmax b (List.mem_of_find?_eq_some h) (List.find?_some h) hab.symm
      omega

theorem mem_keys {t : DispatchTable} {r : Route} (h : r ∈ t.routes) : r.key ∈ t.keys :=
  List.mem_map_of_mem h

theorem eq_of_fits {t : DispatchTable} (hw : t.WellFormed) {x y : Route}
    {host path : String} (hx : x ∈ t.routes) (hy : y ∈ t.routes) (hfx : x.Fits host path)
    (hfy : y.Fits host path) (hp : x.path = y.path) : x = y := by
  obtain ⟨nx, hnx, hxh⟩ := hfx.host
  obtain ⟨ny, hny, hyh⟩ := hfy.host
  obtain rfl : nx = ny := (stripPort_eq_iff.2 hnx).symm.trans (stripPort_eq_iff.2 hny)
  exact List.inj_on_of_nodup_map hw.nodup hx hy (by simp [Route.key, hxh, hyh, hp])

/-- A request takes the longest of the routes that fit it. -/
theorem resolve_eq_some_iff {t : DispatchTable} (hw : t.WellFormed) {host path : String}
    {r : Route} : t.resolve host path = some r ↔ r ∈ t.routes ∧ r.Fits host path ∧
      ∀ x ∈ t.routes, x.Fits host path → x ≠ r → x.path.utf8ByteSize < r.path.utf8ByteSize := by
  have hsorted : t.routes.Pairwise fun x y => y.path.utf8ByteSize ≤ x.path.utf8ByteSize :=
    List.pairwise_map.1 hw.sorted
  unfold resolve
  simp only
  rw [find?_eq_some_iff_largest hsorted]
  · simp only [fits_iff]
  · intro x hx y hy hfx hfy hne
    rw [fits_iff] at hfx hfy
    refine size_ne_of_begins (hw.normal _ (mem_keys hx)) (hw.normal _ (mem_keys hy)) hfx.path
      hfy.path fun hp => hne ?_
    exact eq_of_fits hw hx hy hfx hfy hp

theorem isSome_resolve_iff (t : DispatchTable) (host path : String) :
    (t.resolve host path).isSome = true ↔ ∃ r ∈ t.routes, r.Fits host path := by
  simp only [resolve, List.find?_isSome, fits_iff]

/-- At its own path a route is the longest one that fits, so a request takes it there. -/
theorem resolve_of_mem {t : DispatchTable} (hw : t.WellFormed) {x : Route} (hx : x ∈ t.routes)
    {host name : String} (ha : Addresses host name) (hh : x.host = foldCase name) :
    t.resolve host x.path = some x := by
  have hfx : x.Fits host x.path := ⟨⟨name, ha, hh⟩, .inr ⟨[], by simp, .inl rfl⟩⟩
  refine (resolve_eq_some_iff hw).2 ⟨hx, hfx, fun y hy hfy hne => ?_⟩
  refine size_lt_of_isPrefix ?_ fun hp => hne (eq_of_fits hw hy hx hfy hfx hp)
  rcases hfy.path with hroot | ⟨rest, hr, -⟩
  · rw [hroot]
    exact root_isPrefix (hw.normal _ (mem_keys hx))
  · exact ⟨rest, hr.symm⟩

/-- Tables of the same routes answer alike, however they are ordered. -/
theorem resolve_congr_mem {t u : DispatchTable} (ht : t.WellFormed) (hu : u.WellFormed)
    (h : ∀ r, r ∈ t.routes ↔ r ∈ u.routes) (host path : String) :
    t.resolve host path = u.resolve host path := by
  refine Option.ext fun r => ?_
  rw [resolve_eq_some_iff ht, resolve_eq_some_iff hu]
  simp only [h]

/-- Tables whose keys lead to the same routes answer alike. -/
theorem resolve_congr {t u : DispatchTable} (ht : t.WellFormed) (hu : u.WellFormed)
    (h : ∀ host path, t.at? host path = u.at? host path) (host path : String) :
    t.resolve host path = u.resolve host path :=
  resolve_congr_mem ht hu
    (fun r => by rw [mem_routes_iff_at? ht, mem_routes_iff_at? hu, h]) host path

/-! ## Tables and the attempts that made them -/

/-- An attempt to route a host and a path to a service. -/
structure Attempt where
  service : String
  host : String
  path : String
  backend : Backend

/-- The host and the path of an attempt in normal form. -/
def Attempt.key (a : Attempt) : String × String := (foldCase a.host, normalizePath a.path)

/-- The route that an attempt asks for. -/
def Attempt.route (a : Attempt) : Route :=
  ⟨a.service, foldCase a.host, normalizePath a.path, a.backend⟩

/-- What an attempt makes of the route of its key: a route stays with its first service. -/
def Attempt.settle (a : Attempt) : Option Route → Option Route
  | none => some a.route
  | some r => if r.service = a.service then some a.route else some r

/-- The table after an attempt. One that is refused leaves it as it was. -/
def attempt (t : DispatchTable) (a : Attempt) : DispatchTable :=
  match t.insert a.service a.host a.path a.backend with
  | .ok t' => t'
  | .error _ => t

/-- The table after attempts, from an empty one. -/
def ofAttempts (as : List Attempt) : DispatchTable := as.foldl attempt {}

theorem ofAttempts_concat (as : List Attempt) (a : Attempt) :
    ofAttempts (as ++ [a]) = (ofAttempts as).attempt a := by
  rw [ofAttempts, List.foldl_append]
  rfl

theorem wellFormed_attempt {t : DispatchTable} (hw : t.WellFormed) (a : Attempt) :
    (t.attempt a).WellFormed := by
  unfold attempt
  rcases h : t.insert a.service a.host a.path a.backend with e | t'
  · exact hw
  · exact wellFormed_of_insert hw h

theorem at?_attempt (t : DispatchTable) (a : Attempt) (host path : String) :
    (t.attempt a).at? host path =
      if a.key = (host, path) then a.settle (t.at? host path) else t.at? host path := by
  have hkey : a.key = (host, path) ↔ host = foldCase a.host ∧ path = normalizePath a.path := by
    simp only [Attempt.key, Prod.mk.injEq, eq_comm]
  simp only [hkey]
  rcases h : t.insert a.service a.host a.path a.backend with e | t'
  · -- The key has the route of another service, which stays.
    obtain ⟨x, hx, hne, -⟩ := insert_eq_error h
    rw [show t.attempt a = t by simp only [attempt, h]]
    split_ifs with hk
    · obtain ⟨rfl, rfl⟩ := hk
      simp only [hx, Attempt.settle, hne, if_false]
    · rfl
  · obtain ⟨hown, hat⟩ := insert_eq_ok h
    rw [show t.attempt a = t' by simp only [attempt, h], hat]
    split_ifs with hk
    · obtain ⟨rfl, rfl⟩ := hk
      rcases hx : t.at? (foldCase a.host) (normalizePath a.path) with _ | x
      · rfl
      · simp only [Attempt.settle, hown x hx, if_true, Attempt.route]
    · rfl

theorem wellFormed_ofAttempts (as : List Attempt) : (ofAttempts as).WellFormed := by
  induction as using List.reverseRecOn with
  | nil => exact wellFormed_empty
  | append_singleton as a ih =>
    rw [ofAttempts_concat]
    exact wellFormed_attempt ih a

/-- What a key leads to hangs only on the attempts for that key. -/
theorem at?_ofAttempts (as : List Attempt) (host path : String) :
    (ofAttempts as).at? host path =
      (as.filter fun a => a.key == (host, path)).foldl (fun r a => a.settle r) none := by
  induction as using List.reverseRecOn with
  | nil => rfl
  | append_singleton as a ih =>
    rw [ofAttempts_concat, at?_attempt, ih]
    by_cases hk : a.key = (host, path)
    · simp [List.filter_append, List.foldl_append, hk]
    · simp [List.filter_append, hk]

/-- Whatever attempts made a table, a request has an answer if and only if some route fits it, the
answer is the longest route that does, and it hangs only on the order of attempts for one key. -/
theorem resolve_ofAttempts (as : List Attempt) (host path : String) :
    (((ofAttempts as).resolve host path).isSome = true ↔
        ∃ r ∈ (ofAttempts as).routes, r.Fits host path) ∧
      (∀ r, (ofAttempts as).resolve host path = some r →
        r ∈ (ofAttempts as).routes ∧ r.Fits host path ∧
          ∀ x ∈ (ofAttempts as).routes, x.Fits host path → x ≠ r →
            x.path.utf8ByteSize < r.path.utf8ByteSize) ∧
      ∀ bs : List Attempt,
        (∀ key, bs.filter (·.key == key) = as.filter (·.key == key)) →
          (ofAttempts bs).resolve host path = (ofAttempts as).resolve host path := by
  have hw := wellFormed_ofAttempts as
  refine ⟨isSome_resolve_iff _ host path, fun r => (resolve_eq_some_iff hw).1, fun bs h => ?_⟩
  refine resolve_congr (wellFormed_ofAttempts bs) hw (fun host path => ?_) host path
  rw [at?_ofAttempts, at?_ofAttempts, h]

/-- Digits behind a colon at the very start of a host are not taken for a port. -/
theorem resolve_bare_port :
    ¬ ∀ (as : List Attempt) (host name path : String) (port : List Char),
      port ≠ [] → (∀ c ∈ port, c.isDigit = true) → host.toList = name.toList ++ ':' :: port →
        (((ofAttempts as).resolve host path).isSome = true ↔
          ∃ r ∈ (ofAttempts as).routes, r.host = foldCase name ∧ Begins r.path path) := by
  intro h
  have hroute : ⟨"web", "", "/", ⟨.http, 8080⟩⟩ ∈
      (ofAttempts [⟨"web", "", "/", ⟨.http, 8080⟩⟩]).routes := by decide
  have hhost : "" = foldCase "" := by decide
  have hdigits : ∀ c ∈ ['8', '0'], c.isDigit = true := by simp [Char.isDigit]
  have := (h [⟨"web", "", "/", ⟨.http, 8080⟩⟩] ":80" "" "/" ['8', '0'] (by simp) hdigits
    (by decide)).2 ⟨_, hroute, hhost, Or.inl rfl⟩
  exact absurd this (by decide)

end DispatchTable

end LocalTopology
