import LocalTopology.Proofs.Addresses
import LocalTopology.Proofs.Hosts

/-!
# Services are reached at their own URLs

The URL of a service through the proxy is made of the host and the path of its ingress, and the
route of the service was made of them too (`Coherent.route_of_find`). Nothing in an accepted host is
taken for a port or a path (`Ingress.addresses_authority`), and the path is that of the route
(`Ingress.path_key`), so a request for the URL takes the route of the service, whatever other routes
there are on its host (`resolve_proxyUrl`).
-/

namespace LocalTopology

open Text

/-! ## Accepted ingresses -/

/-- An ingress has an accepted host and a path that starts with a slash. -/
structure Ingress.IsAccepted (i : Ingress) : Prop where
  host : Hostname.isAccepted i.host = true
  path : startsWith "/" i.path = true

theorem Graph.isAccepted_of_ofFragments {fs : List Fragment} {g : Graph}
    (h : Graph.ofFragments fs = .ok g) {name : String} {s : Service}
    (hs : g.services.get? name = some s) {i : Ingress} (hi : s.ingress = some i) :
    i.IsAccepted := by
  obtain ⟨-, hservices, -⟩ := Fragment.complete_eq_ok_iff.1 h
  obtain ⟨d, -, hc⟩ := Registry.get?_traverse hservices hs
  obtain ⟨-, hrel, -⟩ := ServiceFragment.complete_eq_ok_iff.1 hc
  rw [hi] at hrel
  rcases hf : d.ingress with _ | f <;> rw [hf] at hrel <;> cases hrel
  next hcomplete =>
    obtain ⟨-, hhost, -, hpath⟩ := IngressFragment.complete_eq_ok_iff.1 hcomplete
    exact ⟨hhost, hpath⟩

/-- The service of a dependency has no ingress. -/
theorem Graph.Serves.isAccepted {fs : List Fragment} {g : Graph}
    (h : Graph.ofFragments fs = .ok g) {name : String} {s : Service} (hs : g.Serves name s)
    {i : Ingress} (hi : s.ingress = some i) : i.IsAccepted := by
  rcases hs with hs | ⟨d, -, -, rfl⟩
  · exact isAccepted_of_ofFragments h hs hi
  · cases hi

namespace Ingress

/-- The host under which an ingress is proxied. -/
def authority (i : Ingress) (p : Port) : String :=
  foldCase i.host ++ ":" ++ toString p

theorem isDigit_of_mem_port {p : Port} {c : Char} (h : c ∈ (toString p).toList) :
    c.isDigit = true := by
  have h' : c ∈ (Nat.repr p.toNat).toList := h
  rw [Nat.toList_repr] at h'
  exact Nat.isDigit_of_mem_toDigits (by decide) (by decide) h'

theorem addresses_authority {i : Ingress} (h : i.IsAccepted) (p : Port) :
    Addresses (i.authority p) (foldCase i.host) := by
  refine .inl ⟨(toString p).toList, fun he => ?_, fun c => isDigit_of_mem_port, ?_⟩
  · have hnil := congrArg String.toList he
    simp only [foldCase, String.toList_ofList, String.toList_empty, List.map_eq_nil_iff,
      String.toList_eq_nil_iff] at hnil
    exact Hostname.ne_empty_of_isAccepted h.host hnil
  · simp [authority]

theorem slash_not_mem_host {i : Ingress} (h : i.IsAccepted) :
    '/' ∉ (foldCase i.host).toList := by
  rw [foldCase, String.toList_ofList, List.mem_map]
  rintro ⟨c, hc, hslash⟩
  rw [toLower_eq_iff (by decide)] at hslash
  exact Hostname.slash_not_mem_of_isAccepted h.host (hslash ▸ hc)

theorem trimmed_path {i : Ingress} (h : i.IsAccepted) :
    trimEndSlashes i.path = "" ∨ (trimEndSlashes i.path).toList.head? = some '/' := by
  obtain ⟨cs, hcs⟩ := startsWith_iff.1 h.path
  have hp := trimEndSlashes_isPrefix i.path
  rw [← hcs] at hp
  rcases ht : (trimEndSlashes i.path).toList with _ | ⟨c, ds⟩
  · exact .inl (String.toList_eq_nil_iff.1 ht)
  · rw [ht] at hp
    exact .inr (congrArg some (List.cons_prefix_cons.1 hp).1)

/-- The path of a route is that of its URL, where the URL has one. -/
theorem path_key {i : Ingress} (h : i.IsAccepted) :
    i.key.2 = if trimEndSlashes i.path = "" then "/" else trimEndSlashes i.path := by
  unfold key DispatchTable.normalizePath
  simp only [String.isEmpty_iff]
  rcases trimmed_path h with he | hslash
  · simp [he]
  · obtain ⟨cs, hcs⟩ := List.head?_eq_some_iff.1 hslash
    have hs : startsWith "/" (trimEndSlashes i.path) = true :=
      startsWith_iff.2 ⟨cs, hcs.symm⟩
    simp [hs]

end Ingress

/-! ## Routes behind URLs -/

theorem AddressBook.proxyUrl_eq_ok {b : AddressBook} {n u : String} (h : b.proxyUrl n = .ok u) :
    ∃ e i, b.find n = .ok (e, some i) ∧
      u = "http://" ++ i.authority b.proxyPort ++ trimEndSlashes i.path := by
  unfold proxyUrl at h
  rcases hf : b.find n with e | ⟨e, _ | i⟩ <;> rw [hf] at h <;> cases h
  refine ⟨e, i, rfl, ?_⟩
  simp only [proxied, Ingress.authority, String.append_assoc]
  rfl

/-- A service that is found with an ingress has a route, made of that ingress and the backend of
its endpoint. -/
theorem BuildState.Coherent.route_of_find {st : BuildState} {c : Context} (hc : st.Coherent c)
    {p : Port} {n : String} {e : Endpoint} {i : Ingress}
    (h : (AddressBook.ofState st p).find n = .ok (e, some i)) :
    ∃ s x scheme, st.services.get? n = some s ∧ s.ingress = some i ∧ x ∈ st.routes.routes ∧
      x.service = n ∧ x.key = i.key ∧ e = .onWorkstation x.backend scheme := by
  obtain ⟨s, hs, he, hi⟩ := AddressBook.find_ofState_eq_ok h
  obtain ⟨hi, hrouted⟩ := Option.filter_eq_some_iff.1 hi.symm
  rw [DispatchTable.routeOf?, List.find?_isSome] at hrouted
  obtain ⟨x, hx, hn⟩ := hrouted
  rw [beq_iff_eq] at hn
  obtain ⟨s', i', scheme, hs', hi', hk, he'⟩ := hc.routed x hx
  rw [hn] at hs' he'
  cases hs.symm.trans hs'
  cases hi.symm.trans hi'
  exact ⟨s, x, scheme, hs, hi, hx, hn, hk, Option.some.inj (he.symm.trans he')⟩

/-- A request for the URL of a service through the proxy takes a route to the backend of that
service. -/
theorem resolve_proxyUrl {fs : List Fragment} {g : Graph} {c : Context} {offers : List Port}
    {t : FileTree} {topology : Topology} (hg : Graph.ofFragments fs = .ok g)
    (h : (g.compile c offers t).1 = .ok topology) {n u : String}
    (hu : topology.addresses.proxyUrl n = .ok u) :
    ∃ host path : String, u = "http://" ++ (host ++ ":" ++ toString c.proxyPort) ++ path ∧
      '/' ∉ host.toList ∧ (path = "" ∨ path.toList.head? = some '/') ∧
        ∃ r scheme i, topology.routes.resolve (host ++ ":" ++ toString c.proxyPort)
            (if path = "" then "/" else path) = some r ∧ r.service = n ∧
          topology.addresses.find n = .ok (.onWorkstation r.backend scheme, some i) := by
  have hdeclared : ∀ n s, g.services.get? n = some s → s.origin = .declared :=
    fun n s hs => (Service.unites_of_ofFragments hg hs).origin
  obtain ⟨st, rfl, hc, hservices⟩ := Graph.compile_eq_ok hdeclared h
  obtain ⟨e, i, hfind, rfl⟩ := AddressBook.proxyUrl_eq_ok hu
  obtain ⟨s, x, scheme, hs, hi, hx, hn, hk, rfl⟩ := hc.route_of_find hfind
  have ha := ((hservices n s).1.1 hs).isAccepted hg hi
  have hkey := Prod.ext_iff.1 hk
  refine ⟨foldCase i.host, trimEndSlashes i.path, rfl, i.slash_not_mem_host ha, i.trimmed_path ha,
    x, scheme, i, ?_, hn, hfind⟩
  rw [← i.path_key ha, ← hkey.2]
  refine DispatchTable.resolve_of_mem hc.wellFormed hx (i.addresses_authority ha c.proxyPort) ?_
  rw [foldCase_foldCase]
  exact hkey.1

/-- Three services share a host, which is written with capitals, and their paths are nested. -/
theorem resolve_proxyUrl_nested :
    let fs : List Fragment :=
      [{ name := some "shop",
         services := .ofList
           [("api", { ingress := some { host := some "Shop.WorkLeap.localhost",
                                        path := some "/api/" },
                      runners := [.project { project := "api", port := some 5000 }] }),
             ("web", { ingress := some { host := some "shop.workleap.localhost" },
                       runners := [.project { project := "web" }] }),
             ("orders", { ingress := some { host := some "SHOP.workleap.localhost",
                                            path := some "/api/orders" },
                          runners := [.mock { specification := "orders.yml" }] })] }]
    let c : Context := { workDirectory := "/work", home := ⟨"/home"⟩, proxyPort := 1347 }
    ∃ g topology, Graph.ofFragments fs = .ok g ∧ (g.compile c [5001, 5002] {}).1 = .ok topology ∧
      topology.addresses.proxyUrl "api" = .ok "http://shop.workleap.localhost:1347/api" ∧
        ∃ host path : String, "http://shop.workleap.localhost:1347/api" =
            "http://" ++ (host ++ ":" ++ toString c.proxyPort) ++ path ∧
          ∃ r, topology.routes.resolve (host ++ ":" ++ toString c.proxyPort)
            (if path = "" then "/" else path) = some r ∧ r.service = "api" := by
  intro fs c
  obtain ⟨g, hg⟩ : ∃ g, Graph.ofFragments fs = .ok g := ⟨_, rfl⟩
  obtain ⟨topology, h, hu⟩ : ∃ topology, (g.compile c [5001, 5002] {}).1 = .ok topology ∧
      topology.addresses.proxyUrl "api" = .ok "http://shop.workleap.localhost:1347/api" := by
    cases hg
    exact ⟨_, rfl, congrArg Except.ok (by decide)⟩
  obtain ⟨host, path, hurl, -, -, r, -, -, hr, hn, -⟩ := resolve_proxyUrl hg h hu
  exact ⟨g, topology, hg, h, hu, host, path, hurl, r, hr, hn⟩

end LocalTopology
