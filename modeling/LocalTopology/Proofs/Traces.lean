import LocalTopology.Proofs.Building

/-!
# What a build leaves of each service

The active runner of a service makes it stand on the workstation, elsewhere or nowhere (`Stands`),
and once all services are compiled each has the entries, the endpoint or the reason, the port and
the route of one that stands that way and nothing else (`Coherent.leaves`). A port is the declared
one or that of an endpoint (`PortsTold`), and a volume is named by a mount of a container
(`VolumesTold`), so the state accounts for its services and for nothing besides
(`accounts_of_build`).
-/

namespace LocalTopology

open Text

/-! ## Classes of services -/

/-- How a service stands by its active runner. -/
inductive Stands (mode : Mode) (name : String) (s : Service) : Standing → Prop
  | here {r : Runner} (active : activeRunner mode name s = .ok r) (isLocal : r.isRemote = false) :
    Stands mode name s (.here r)
  | elsewhere {r : RemoteRunner} {url : String}
    (active : activeRunner mode name s = .ok (.remote r))
    (mapped : r.address mode name = .ok url) : Stands mode name s (.elsewhere url)
  | unmapped {r : RemoteRunner} {why : Unresolved}
    (active : activeRunner mode name s = .ok (.remote r))
    (unmapped : r.address mode name = .error (.unresolved why)) : Stands mode name s (.nowhere why)
  | remoteOnly {why : Unresolved} (inactive : activeRunner mode name s = .error (.unresolved why)) :
    Stands mode name s (.nowhere why)

theorem Stands.of_standing {mode : Mode} {name : String} {s : Service} {x : Standing}
    (h : s.standing name mode = some x) : Stands mode name s x := by
  rcases activeRunner_cases mode name s with ⟨r, ha, hr, hs⟩ | ⟨r, url, ha, hu, hs⟩ |
    ⟨r, why, ha, hu, hs⟩ | ⟨why, ha, hs⟩ | ⟨fault, ha, hs⟩ <;> rw [hs] at h <;> cases h
  · exact .here ha hr
  · exact .elsewhere ha hu
  · exact .unmapped ha hu
  · exact .remoteOnly ha

theorem Stands.eq {mode : Mode} {name : String} {s : Service} {x y : Standing}
    (hx : Stands mode name s x) (hy : Stands mode name s y) : x = y := by
  rcases hx with ⟨ha, hr⟩ | ⟨ha, hu⟩ | ⟨ha, hu⟩ | ⟨ha⟩ <;>
    rcases hy with ⟨ha', hr'⟩ | ⟨ha', hu'⟩ | ⟨ha', hu'⟩ | ⟨ha'⟩ <;> cases ha.symm.trans ha'
  all_goals grind [Runner.isRemote]

/-! ## Named volumes -/

/-- A mount declares the volume in front of its first colon, unless a path stands there. -/
structure DeclaresVolume (mount volume : String) : Prop where
  cut : ∃ target, mount.toList = volume.toList ++ ':' :: target
  colon : ':' ∉ volume.toList
  nonempty : volume ≠ ""
  slash : '/' ∉ volume.toList
  dot : volume.toList.head? ≠ some '.'
  tilde : volume.toList.head? ≠ some '~'

theorem namedVolume?_eq_some_iff {mount volume : String} :
    namedVolume? mount = some volume ↔ DeclaresVolume mount volume := by
  unfold namedVolume?
  rcases hc : cutFirst? ':' mount.toList with _ | ⟨source, target⟩
  · refine iff_of_false (by simp) ?_
    rintro ⟨⟨target, ht⟩, hcolon, -⟩
    rw [cutFirst?_eq_some_iff.2 ⟨ht, hcolon⟩] at hc
    cases hc
  · obtain ⟨hm, hcolon⟩ := cutFirst?_eq_some_iff.1 hc
    have hpath : (source.isEmpty || source.head?.any (fun c => c == '.' || c == '~') ||
        source.contains '/') = true ↔ source = [] ∨ source.head? = some '.' ∨
          source.head? = some '~' ∨ '/' ∈ source := by
      rcases source with _ | ⟨c, cs⟩ <;> simp [or_assoc]
    simp only
    split_ifs with h <;> rw [hpath] at h
    · refine iff_of_false (by simp) ?_
      rintro ⟨⟨target', ht⟩, hcolon', hne, hslash, hdot, htilde⟩
      rw [cutFirst?_eq_some_iff.2 ⟨ht, hcolon'⟩] at hc
      obtain ⟨rfl, rfl⟩ : volume.toList = source ∧ target' = target := by simpa using hc
      rcases h with h | h | h | h
      · exact hne (String.toList_eq_nil_iff.1 h)
      · exact hdot h
      · exact htilde h
      · exact hslash h
    · rw [Option.some.injEq]
      simp only [not_or] at h
      constructor
      · rintro rfl
        refine ⟨⟨target, by simpa using hm⟩, ?_, ?_, ?_, ?_, ?_⟩ <;> simp_all
      · rintro ⟨⟨target', ht⟩, hcolon', -⟩
        rw [cutFirst?_eq_some_iff.2 ⟨ht, hcolon'⟩] at hc
        obtain ⟨rfl, -⟩ : volume.toList = source ∧ target' = target := by simpa using hc
        exact String.ofList_toList

namespace BuildState

variable {services : Registry Service} {st a a' : BuildState} {c : Context} {name : String}
  {s : Service}

/-! ## Ports -/

/-- Every port with an owner is declared by it or is that of its endpoint, and services that are
still to be compiled have no endpoint. -/
structure PortsTold (a : BuildState) (services : Registry Service) (mode : Mode)
    (rest : List (String × Service)) : Prop where
  nodup : (rest.map (·.1)).Nodup
  fresh : ∀ e ∈ rest, a.endpoints.get? e.1 = none
  owned : ∀ p n, a.ports.owner? p = some n →
    (∃ s r, Hosts services mode n s r ∧ r.declaredPort = some p) ∨
      ∃ b scheme, a.endpoints.get? n = some (.onWorkstation b scheme) ∧ b.port = p

/-- A service that is compiled obtains an endpoint, and at most the port of that endpoint. -/
theorem PortsTold.put {mode : Mode} {rest : List (String × Service)}
    (h : a.PortsTold services mode ((name, s) :: rest)) {e : Endpoint}
    (he : a'.endpoints = a.endpoints.put name e)
    (ho : ∀ p n, a'.ports.owner? p = some n → a.ports.owner? p = some n ∨
      (n = name ∧ ∃ b scheme, e = .onWorkstation b scheme ∧ b.port = p)) :
    a'.PortsTold services mode rest := by
  obtain ⟨hname, hnodup⟩ := List.nodup_cons.1 h.nodup
  refine ⟨hnodup, fun d hd => ?_, fun p n hp => ?_⟩
  · rw [he, Registry.get?_put, if_neg]
    · exact h.fresh d (List.mem_cons_of_mem _ hd)
    · rintro rfl
      exact hname (List.mem_map.2 ⟨d, hd, rfl⟩)
  · rw [he]
    rcases ho p n hp with hp | ⟨rfl, b, scheme, rfl, hb⟩
    · rcases h.owned p n hp with hd | ⟨b, scheme, hb, hp⟩
      · exact .inl hd
      · refine .inr ⟨b, scheme, ?_, hp⟩
        rw [Registry.get?_put, if_neg, hb]
        rintro rfl
        cases (h.fresh _ List.mem_cons_self).symm.trans hb
    · exact .inr ⟨b, scheme, by rw [Registry.get?_put, if_pos rfl], hb⟩

theorem PortsTold.compileService {rest : List (String × Service)}
    (h : a.PortsTold services c.mode ((name, s) :: rest))
    (hc : LocalTopology.compileService c a name s = .ok a') :
    a'.PortsTold services c.mode rest := by
  rcases compileService_cases hc with ⟨why, -, rfl⟩ | ⟨url, -, rfl⟩ |
    ⟨r, p, ports, routes, -, ho, -, rfl⟩
  · refine ⟨(List.nodup_cons.1 h.nodup).2, fun e he => ?_, h.owned⟩
    exact h.fresh e (List.mem_cons_of_mem _ he)
  · exact h.put rfl fun p n hp => .inl hp
  · obtain ⟨-, -, howner⟩ := PortLedger.obtain_eq_ok ho
    refine h.put rfl fun q n hq => ?_
    simp only [Runner.ports_enter, howner] at hq
    split_ifs at hq with hp
    · cases hq
      exact .inr ⟨rfl, _, _, rfl, hp.symm⟩
    · exact .inl hq

/-- Where nothing has been compiled before, a port that is claimed is declared by its owner. -/
theorem portsTold_of_claims {ports : PortLedger} (hports : ∀ p, st.ports.owner? p = none)
    (hendpoints : ∀ n, st.endpoints.get? n = none)
    (h : st.services.entries.foldlM (fun l e => claimDeclared c.mode l e.1 e.2) st.ports =
      .ok ports) :
    PortsTold { st with ports } st.services c.mode st.services.entries := by
  have hclaimed : ∀ p n, ports.owner? p = some n →
      ∃ s r, Hosts st.services c.mode n s r ∧ r.declaredPort = some p := by
    refine foldlM_induction (P := fun l => ∀ p n, l.owner? p = some n →
      ∃ s r, Hosts st.services c.mode n s r ∧ r.declaredPort = some p) ?_ ?_ h
    · intro p n ho
      rw [hports] at ho
      cases ho
    · rintro ⟨name, s⟩ he l l' hl hstep p n ho
      rcases (claimDeclared_eq_ok hstep).2 p n ho with ho | ⟨rfl, r, hr, hd⟩
      · exact hl p n ho
      · exact ⟨s, r, ⟨Registry.get?_eq_some_iff.2 he, hr⟩, hd⟩
  exact ⟨st.services.nodup, fun e _ => hendpoints e.1, fun p n ho => .inl (hclaimed p n ho)⟩

/-- Where nothing has been compiled before, a port with an owner is declared by it or is that of its
endpoint. -/
theorem portsTold_compileRunners (hports : ∀ p, st.ports.owner? p = none)
    (hendpoints : ∀ n, st.endpoints.get? n = none) (h : st.compileRunners c = .ok a) :
    a.PortsTold st.services c.mode [] := by
  obtain ⟨ports, hp, hc⟩ := compileRunners_eq_ok h
  exact foldlM_remaining (P := fun rest a => a.PortsTold st.services c.mode rest)
    (fun _ _ _ _ ha => ha.compileService) (portsTold_of_claims hports hendpoints hp) hc

/-! ## Volumes -/

/-- Every container mounts what its runner declares, and the volumes are those that are named by the
mounts of containers. -/
structure VolumesTold (a : BuildState) (services : Registry Service) (mode : Mode) : Prop where
  mounts : ∀ n e, a.compose.services.get? n = some e →
    ∃ s r, Hosts services mode n s (.container r) ∧ e.volumes = r.volumes
  named : ∀ v, v ∈ a.compose.volumes.keys ↔ ∃ n e, a.compose.services.get? n = some e ∧
    ∃ mount ∈ e.volumes, namedVolume? mount = some v

/-- The entry of a container comes with the volumes that it mounts. -/
theorem VolumesTold.enter {r : Runner} (h : a.VolumesTold services c.mode)
    (hh : Hosts services c.mode name s r) (origin : Origin) (p : Port) :
    (r.enter c name origin p a).VolumesTold services c.mode := by
  rcases hr : r.isContainer with _ | _
  · refine ⟨fun n e he => ?_, fun v => ?_⟩
    · rw [Runner.container_enter_of_eq_false _ _ _ _ _ _ hr] at he
      exact h.mounts n e he
    · rw [Runner.container_enter_of_eq_false _ _ _ _ _ _ hr]
      exact h.named v
  obtain ⟨r, rfl⟩ := Runner.isContainer_iff.1 hr
  have hservices : ∀ n e, ((Runner.container r).enter c name origin p a).compose.services.get? n =
      some e ↔ (name = n ∧ r.entry origin p = e) ∨
        (name ≠ n ∧ a.compose.services.get? n = some e) := by
    intro n e
    simp only [Runner.enter, ComposeManifest.addService, Registry.get?_put,
      ComposeManifest.services_foldl_addVolume]
    by_cases hn : name = n <;> simp [hn]
  refine ⟨fun n e he => ?_, fun v => ?_⟩
  · rcases (hservices n e).1 he with ⟨rfl, rfl⟩ | ⟨-, he⟩
    · exact ⟨s, r, hh, rfl⟩
    · exact h.mounts n e he
  have hvolumes : v ∈ ((Runner.container r).enter c name origin p a).compose.volumes.keys ↔
      v ∈ a.compose.volumes.keys ∨ v ∈ r.volumes.filterMap namedVolume? :=
    ComposeManifest.mem_volumes_foldl_addVolume _ _
  simp only [hvolumes, hservices]
  constructor
  · rintro (hv | hv)
    · obtain ⟨n, e, he, mount, hm, hv⟩ := (h.named v).1 hv
      by_cases hn : name = n
      · -- An earlier entry of this service mounts the same.
        subst hn
        obtain ⟨s', r', hh', hr'⟩ := h.mounts name e he
        cases hh.service.symm.trans hh'.service
        cases hh.stands.symm.trans hh'.stands
        rw [hr'] at hm
        exact ⟨name, _, .inl ⟨rfl, rfl⟩, mount, hm, hv⟩
      · exact ⟨n, e, .inr ⟨hn, he⟩, mount, hm, hv⟩
    · obtain ⟨mount, hm, hv⟩ := List.mem_filterMap.1 hv
      exact ⟨name, _, .inl ⟨rfl, rfl⟩, mount, hm, hv⟩
  · rintro ⟨n, e, ⟨rfl, rfl⟩ | ⟨-, he⟩, mount, hm, hv⟩
    · exact .inr (List.mem_filterMap.2 ⟨mount, hm, hv⟩)
    · exact .inl ((h.named v).2 ⟨n, e, he, mount, hm, hv⟩)

theorem VolumesTold.compileService (h : a.VolumesTold services c.mode)
    (hs : services.get? name = some s) (hc : LocalTopology.compileService c a name s = .ok a') :
    a'.VolumesTold services c.mode := by
  rcases compileService_cases hc with ⟨why, -, rfl⟩ | ⟨url, -, rfl⟩ |
    ⟨r, p, ports, routes, hstands, -, -, rfl⟩
  · exact ⟨h.mounts, h.named⟩
  · exact ⟨h.mounts, h.named⟩
  · have hports : VolumesTold { a with ports } services c.mode := ⟨h.mounts, h.named⟩
    have henter := hports.enter ⟨hs, hstands⟩ s.origin p
    exact ⟨henter.mounts, henter.named⟩

theorem volumesTold_compileRunners (hcompose : st.compose = .empty)
    (h : st.compileRunners c = .ok a) : a.VolumesTold st.services c.mode := by
  obtain ⟨ports, -, hc⟩ := compileRunners_eq_ok h
  have hstart : VolumesTold { st with ports } st.services c.mode := by
    refine ⟨fun n e he => ?_, fun v => iff_of_false ?_ ?_⟩
    · rw [hcompose] at he
      cases he
    · rw [hcompose]
      rintro ⟨⟩
    · rw [hcompose]
      rintro ⟨n, e, ⟨⟩, -⟩
  exact foldlM_induction (P := fun a => a.VolumesTold st.services c.mode) hstart
    (fun x hx a a' ha hstep => ha.compileService (Registry.get?_eq_some_iff.2 hx) hstep) hc

/-! ## The mock server -/

/-- The mock server is required as soon as a service that it runs is compiled. -/
def MockTold (a : BuildState) (services : Registry Service) (mode : Mode) : Prop :=
  a.requiresMockServer = true ↔ ∃ n s r, Hosts services mode n s (.mock r) ∧ n ∈ a.endpoints.keys

theorem MockTold.compileService (h : a.MockTold services c.mode)
    (hs : services.get? name = some s) (hc : LocalTopology.compileService c a name s = .ok a') :
    a'.MockTold services c.mode := by
  rcases compileService_cases hc with ⟨why, -, rfl⟩ | ⟨url, hstands, rfl⟩ |
    ⟨r, p, ports, routes, hstands, -, -, rfl⟩
  · exact h
  · unfold MockTold
    simp only [Registry.mem_keys_put]
    refine h.trans ⟨?_, ?_⟩
    · rintro ⟨n, s', q, hh, hn⟩
      exact ⟨n, s', q, hh, .inl hn⟩
    · rintro ⟨n, s', q, hh, hn | rfl⟩
      · exact ⟨n, s', q, hh, hn⟩
      · cases hs.symm.trans hh.service
        cases hstands.symm.trans hh.stands
  · unfold MockTold
    simp only [Runner.requiresMockServer_enter, Bool.or_eq_true, Registry.mem_keys_put]
    constructor
    · rintro (hm | hm)
      · obtain ⟨n, s', q, hh, hn⟩ := h.1 hm
        exact ⟨n, s', q, hh, .inl hn⟩
      · obtain ⟨q, rfl⟩ := Runner.isMock_iff.1 hm
        exact ⟨name, s, q, ⟨hs, hstands⟩, .inr rfl⟩
    · rintro ⟨n, s', q, hh, hn | rfl⟩
      · exact .inl (h.2 ⟨n, s', q, hh, hn⟩)
      · cases hs.symm.trans hh.service
        cases hstands.symm.trans hh.stands
        exact .inr rfl

theorem mockTold_compileRunners (hmock : st.requiresMockServer = false)
    (hendpoints : st.endpoints = ∅) (h : st.compileRunners c = .ok a) :
    a.MockTold st.services c.mode := by
  obtain ⟨ports, -, hc⟩ := compileRunners_eq_ok h
  have hstart : MockTold { st with ports } st.services c.mode := by
    refine iff_of_false (by simp [hmock]) ?_
    rintro ⟨n, s, q, -, hn⟩
    rw [hendpoints] at hn
    cases hn
  exact foldlM_induction (P := fun a => a.MockTold st.services c.mode) hstart
    (fun x hx a a' ha hstep => ha.compileService (Registry.get?_eq_some_iff.2 hx) hstep) hc

/-! ## Traces -/

/-- What a state holds under the name of a service, by how the service stands. -/
structure Leaves (st : BuildState) (name : String) (s : Service) (x : Standing) : Prop where
  container : name ∈ st.compose.services.keys ↔ ∃ r, x = .here (.container r)
  process : name ∈ st.supervisor.processes.keys ↔ ∃ r, x = .here r ∧ r.isContainer = false
  here : (∃ b scheme, st.endpoints.get? name = some (.onWorkstation b scheme)) ↔ ∃ r, x = .here r
  elsewhere : ∀ url, st.endpoints.get? name = some (.remote url) ↔ x = .elsewhere url
  nowhere : ∀ why, st.failures.get? name = some why ↔ x = .nowhere why
  port : ∀ p, st.ports.owner? p = some name ↔
    ∃ b scheme, st.endpoints.get? name = some (.onWorkstation b scheme) ∧ b.port = p
  routes : st.routes.routes.filter (·.service == name) =
    match s.ingress, st.endpoints.get? name with
    | some i, some (.onWorkstation b _) => [i.route name b]
    | _, _ => []

/-- A runner on the workstation enters one manifest. -/
theorem keys_of_publishedOn {r : Runner} {b : Backend} (h : r.PublishedOn c st name b) :
    if r.isContainer then name ∈ st.compose.services.keys
    else name ∈ st.supervisor.processes.keys := by
  cases r with
  | remote r => cases h
  | _ =>
    obtain ⟨e, he, -⟩ := h
    exact Registry.mem_keys_iff.2 ⟨e, he⟩

/-- The routes of a service are made of its ingress and the backend of its endpoint. -/
theorem Coherent.eq_route_of_mem (h : st.Coherent c) (hs : st.services.get? name = some s)
    {x : Route} (hx : x ∈ st.routes.routes.filter (·.service == name)) : ∃ i b scheme,
      s.ingress = some i ∧ st.endpoints.get? name = some (.onWorkstation b scheme) ∧
        x = i.route name b := by
  obtain ⟨hmem, hn⟩ := List.mem_filter.1 hx
  obtain rfl := beq_iff_eq.1 hn
  obtain ⟨s', i, scheme, hs', hi, hk, he⟩ := h.routed x hmem
  cases hs.symm.trans hs'
  refine ⟨i, x.backend, scheme, hi, he, ?_⟩
  rw [Ingress.route, ← hk]
  rfl

/-- A service has one route if it has an ingress and runs on the workstation, and none else. -/
theorem Coherent.routes_eq (h : st.Coherent c) (hs : st.services.get? name = some s) :
    st.routes.routes.filter (·.service == name) =
      match s.ingress, st.endpoints.get? name with
      | some i, some (.onWorkstation b _) => [i.route name b]
      | _, _ => [] := by
  split
  next i b scheme hi he =>
    have hall : ∀ x ∈ st.routes.routes.filter (·.service == name), x = i.route name b := by
      intro x hx
      obtain ⟨i', b', scheme', hi', he', rfl⟩ := h.eq_route_of_mem hs hx
      cases hi.symm.trans hi'
      cases he.symm.trans he'
      rfl
    obtain ⟨r, -, -, hb⟩ := h.here_of_endpoint hs he
    obtain ⟨x, hx, hn, -⟩ := hb.routed i hi
    have hmem : x ∈ st.routes.routes.filter (·.service == name) :=
      List.mem_filter.2 ⟨hx, beq_iff_eq.2 hn⟩
    have hnodup : (st.routes.routes.filter (·.service == name)).Nodup :=
      (List.Nodup.of_map _ h.wellFormed.nodup).filter _
    refine List.perm_singleton.1
      ((List.perm_ext_iff_of_nodup hnodup (List.nodup_singleton _)).2 fun z => ?_)
    rw [List.mem_singleton]
    exact ⟨hall z, fun hz => hz.trans (hall x hmem).symm ▸ hmem⟩
  next hnone =>
    refine List.eq_nil_iff_forall_not_mem.2 fun x hx => ?_
    obtain ⟨i, b, scheme, hi, he, -⟩ := h.eq_route_of_mem hs hx
    exact hnone i b scheme hi he

theorem Coherent.leaves (h : st.Coherent c) (hp : st.PortsTold st.services c.mode [])
    (hs : st.services.get? name = some s) (ht : st.Tells name) {x : Standing}
    (hx : s.standing name c.mode = some x) : st.Leaves name s x where
  container := by
    rw [Registry.mem_keys_iff]
    constructor
    · rintro ⟨e, he⟩
      obtain ⟨s', r, hh, hr⟩ := h.contained name e he
      cases hs.symm.trans hh.service
      cases hx.symm.trans hh.stands
      obtain ⟨q, rfl⟩ := Runner.isContainer_iff.1 hr
      exact ⟨q, rfl⟩
    · rintro ⟨r, rfl⟩
      obtain ⟨-, b, hb, -⟩ := h.endpoint_of_here hs ht hx
      exact Registry.mem_keys_iff.1 (keys_of_publishedOn hb.published)
  process := by
    rw [Registry.mem_keys_iff]
    constructor
    · rintro ⟨e, he⟩
      obtain ⟨s', r, hh, hr⟩ := h.supervised name e he
      cases hs.symm.trans hh.service
      cases hx.symm.trans hh.stands
      exact ⟨r, rfl, hr⟩
    · rintro ⟨r, rfl, hr⟩
      obtain ⟨-, b, hb, -⟩ := h.endpoint_of_here hs ht hx
      have hkeys := keys_of_publishedOn hb.published
      rw [if_neg (by simp [hr])] at hkeys
      exact Registry.mem_keys_iff.1 hkeys
  here := by
    constructor
    · rintro ⟨b, scheme, he⟩
      obtain ⟨r, hstands, -⟩ := h.here_of_endpoint hs he
      exact ⟨r, Option.some.inj (hx.symm.trans hstands)⟩
    · rintro ⟨r, rfl⟩
      obtain ⟨-, b, -, he⟩ := h.endpoint_of_here hs ht hx
      exact ⟨b, _, he⟩
  elsewhere url := by
    constructor
    · intro he
      exact Option.some.inj (hx.symm.trans (h.elsewhere_of_endpoint hs he))
    · rintro rfl
      exact (h.endpoint_of_elsewhere hs ht hx).2
  nowhere why := by
    constructor
    · intro hf
      exact Option.some.inj (hx.symm.trans (h.nowhere_of_failure hs hf))
    · rintro rfl
      exact (h.failure_of_nowhere hs ht hx).1
  port p := by
    constructor
    · intro ho
      rcases hp.owned p name ho with ⟨s', r, hh, hd⟩ | he
      · cases hs.symm.trans hh.service
        obtain ⟨-, b, hb, he⟩ := h.endpoint_of_here hs ht hh.stands
        exact ⟨b, _, he, hb.declared p hd⟩
      · exact he
    · rintro ⟨b, scheme, he, rfl⟩
      obtain ⟨r, -, -, hb⟩ := h.here_of_endpoint hs he
      exact hb.owner
  routes := h.routes_eq hs

/-- A name occurs in what a build has made. -/
def Mentions (st : BuildState) (name : String) : Prop :=
  name ∈ st.compose.services.keys ∨ name ∈ st.supervisor.processes.keys ∨
    name ∈ st.endpoints.keys ∨ name ∈ st.failures.keys ∨
      (∃ x ∈ st.routes.routes, x.service = name) ∨ ∃ p, st.ports.owner? p = some name

theorem Coherent.mem_services (h : st.Coherent c) (hm : st.Mentions name) :
    name ∈ st.services.keys := by
  simp only [Mentions, Registry.mem_keys_iff] at hm ⊢
  rcases hm with ⟨e, he⟩ | ⟨e, he⟩ | ⟨⟨b, scheme⟩ | url, he⟩ | ⟨why, hf⟩ | ⟨x, hx, rfl⟩ | ⟨p, ho⟩
  · obtain ⟨s, r, hh, -⟩ := h.contained name e he
    exact ⟨s, hh.service⟩
  · obtain ⟨s, r, hh, -⟩ := h.supervised name e he
    exact ⟨s, hh.service⟩
  · obtain ⟨s, r, hh, -⟩ := h.placed name b scheme he
    exact ⟨s, hh.service⟩
  · obtain ⟨s, hs, -⟩ := h.deployed name url he
    exact ⟨s, hs⟩
  · obtain ⟨s, hs, -⟩ := h.skipped name why hf
    exact ⟨s, hs⟩
  · obtain ⟨s, i, scheme, hs, -⟩ := h.routed x hx
    exact ⟨s, hs⟩
  · obtain ⟨s, r, hh⟩ := h.owned p name ho
    exact ⟨s, hh.service⟩

/-- What a build has made accounts for its services, and for nothing else. -/
structure Accounts (st : BuildState) (mode : Mode) : Prop where
  traces : ∀ name s, st.services.get? name = some s →
    ∃ x, Stands mode name s x ∧ (∀ y, Stands mode name s y → y = x) ∧ st.Leaves name s x
  known : ∀ name, st.Mentions name → name ∈ st.services.keys
  mock : st.requiresMockServer = true ↔ ∃ name s r, st.services.get? name = some s ∧
    activeRunner mode name s = .ok (.mock r)
  mounts : ∀ name e, st.compose.services.get? name = some e →
    ∃ s r, st.services.get? name = some s ∧ activeRunner mode name s = .ok (.container r) ∧
      e.volumes = r.volumes
  volumes : ∀ v, v ∈ st.compose.volumes.keys ↔ ∃ name e,
    st.compose.services.get? name = some e ∧ ∃ mount ∈ e.volumes, DeclaresVolume mount v

end BuildState

/-- Once the dependencies of a graph are expanded and all services are compiled, each service has
left what belongs to one of its class, the volumes are those of the containers, and there is nothing
else. -/
theorem accounts_of_build {c : Context} {g : Graph} {offers : List Port} {t : FileTree}
    {st : BuildState} (h : (build c g offers
      [.expandDependencies, .validateIngress, .compileRunners] t).state = .ok st) :
    st.Accounts c.mode := by
  have hc := coherent_build h
  obtain ⟨services, compiled, t', -, hcompiled, rfl, hend⟩ := BuildState.compiled_of_build h
  cases hend
  have hports := BuildState.portsTold_compileRunners (fun _ => rfl) (fun _ => rfl) hcompiled
  have hvolumes := BuildState.volumesTold_compileRunners rfl hcompiled
  have hmock := BuildState.mockTold_compileRunners rfl rfl hcompiled
  have htells : ∀ n s, st.services.get? n = some s → st.Tells n :=
    fun _ _ hs => BuildState.tells_compileRunners hcompiled hs
  refine ⟨fun n s hs => ?_, fun n => hc.mem_services, ?_, fun n e he => ?_, fun v => ?_⟩
  · obtain ⟨x, hx⟩ := hc.exists_standing hs (htells n s hs)
    have hstands := Stands.of_standing hx
    exact ⟨x, hstands, fun y hy => hy.eq hstands, hc.leaves hports hs (htells n s hs) hx⟩
  · refine hmock.trans ⟨?_, ?_⟩
    · rintro ⟨n, s, r, hh, -⟩
      exact ⟨n, s, r, hh.service, (activeRunner_of_standing hh.stands).1⟩
    · rintro ⟨n, s, r, hs, ha⟩
      have hstands := standing_of_activeRunner ha rfl
      obtain ⟨-, b, -, he⟩ := hc.endpoint_of_here hs (htells n s hs) hstands
      exact ⟨n, s, r, ⟨hs, hstands⟩, Registry.mem_keys_iff.2 ⟨_, he⟩⟩
  · obtain ⟨s, r, hh, hr⟩ := hvolumes.mounts n e he
    exact ⟨s, r, hh.service, (activeRunner_of_standing hh.stands).1, hr⟩
  · simp only [hvolumes.named, namedVolume?_eq_some_iff]

/-- Services of every class, in a named environment. -/
theorem accounts_of_build_mixed :
    let c : Context :=
      { mode := .remote "dev", workDirectory := "/work", home := ⟨"/home"⟩, proxyPort := 1347 }
    let g : Graph :=
      { name := "shop",
        dependencies := [.redis],
        services := .ofList
          [("db", { runners := [.container { image := "db", containerPort := 5432,
                                             volumes := ["data:/data", "./init:/init"] }] }),
            ("api", { ingress := some ⟨"api.workleap.localhost", "/"⟩,
                      runners := [.project { project := "api" }] }),
            ("docs", { runners := [.mock { specification := "docs.yml", port := some 4000 }] }),
            ("crm", { runners :=
              [.remote { environments := .ofList [("dev", "https://crm.dev/")] }] }),
            ("old", { runners :=
              [.remote { environments := .ofList [("prod", "https://old.prod/")] }] })] }
    ∃ st, (build c g [5001, 5002] [.expandDependencies, .validateIngress, .compileRunners]
        {}).state = .ok st ∧
      st.endpoints.keys = ["db", "api", "docs", "crm", "redis"] ∧ st.failures.keys = ["old"] ∧
        st.compose.volumes.keys = ["data", "devstack_redis_data"] ∧ st.Accounts c.mode := by
  intro c g
  obtain ⟨st, h, hendpoints, hfailures, hvolumes⟩ : ∃ st, (build c g [5001, 5002]
      [.expandDependencies, .validateIngress, .compileRunners] {}).state = .ok st ∧
        st.endpoints.keys = ["db", "api", "docs", "crm", "redis"] ∧ st.failures.keys = ["old"] ∧
          st.compose.volumes.keys = ["data", "devstack_redis_data"] :=
    ⟨_, rfl, by decide, by decide, by decide⟩
  exact ⟨st, h, hendpoints, hfailures, hvolumes, accounts_of_build h⟩

end LocalTopology
