import LocalTopology.Proofs.Headers

/-!
# What is left of the headers of a request and its answer

The headers that concern the connection of a request are those of a fixed list and the valid names
that its `connection` lines list (`mem_namedHopByHop_iff_concerns`). The backend gets none of them,
besides the two by which the proxy asks for a change of protocol itself, and it does ask exactly if
the client did and named one (`upgradeProtocol?_eq_some_iff`). Every other header reaches it as the
client sent it, and three are the proxy's own (`isFiltered_of_decide`). The answer comes back
without the headers that concern its connection (`BackendReply.values_passOn`), or is the proxy's
own.
-/

namespace LocalTopology

open Text

namespace Headers

/-- A name concerns the connection that a message comes by. -/
def Concerns (h : Headers) (name : String) : Prop :=
  name ∈ hopByHop ∨ (headerName? name.toList = some name ∧ h.Lists name)

/-- The name that a text is is a name itself, in lower case already. -/
theorem headerName?_of_eq_some {cs : List Char} {name : String} (h : headerName? cs = some name) :
    headerName? name.toList = some name := by
  rw [toList_of_headerName? h, headerName?_map_toLower, h]

theorem mem_namedHopByHop_iff_concerns {h : Headers} {name : String} :
    name ∈ h.namedHopByHop ∨ name ∈ hopByHop ↔ h.Concerns name := by
  unfold Concerns
  by_cases hname : headerName? name.toList = some name
  · rw [mem_namedHopByHop_iff hname, or_comm, and_iff_right hname]
  · have hnot : name ∉ h.namedHopByHop := by
      intro hm
      obtain ⟨token, -, htoken⟩ := List.mem_filterMap.1 hm
      exact hname (headerName?_of_eq_some htoken)
    simp only [hnot, hname, false_and, false_or, or_false]

variable {h : Headers} {name : String}

theorem values_strip_of_concerns (hc : h.Concerns name) : h.strip.values name = [] := by
  rw [values_strip, if_pos (mem_namedHopByHop_iff_concerns.2 hc)]

theorem values_strip_of_not_concerns (hc : ¬ h.Concerns name) :
    h.strip.values name = h.values name := by
  rw [values_strip, if_neg fun hm => hc (mem_namedHopByHop_iff_concerns.1 hm)]

/-! ## Changes of protocol -/

theorem any_connectionTokens_iff : (h.connectionTokens.any fun token =>
    token.map Char.toLower == name.toList) = true ↔ h.Lists name := by
  simp only [List.any_eq_true, beq_iff_eq, lists_iff]

/-- A protocol is asked for if `upgrade` is listed and has a value: the first one counts. -/
theorem upgradeProtocol?_eq_some_iff {protocol : HeaderValue} :
    h.upgradeProtocol? = some protocol ↔
      h.Lists "upgrade" ∧ h.first? "upgrade" = some protocol := by
  unfold upgradeProtocol?
  by_cases hl : h.Lists "upgrade"
  · rw [if_pos (any_connectionTokens_iff.2 hl), and_iff_right hl]
  · rw [if_neg fun ha => hl (any_connectionTokens_iff.1 ha)]
    simp [hl]

/-- Both headers of a change of protocol are there with one value each, or neither is. -/
theorem values_withUpgrade_of_upgrade (h : Headers) (protocol : HeaderValue) :
    (h.withUpgrade (some protocol)).values "connection" = [.ofText "upgrade"] ∧
      (h.withUpgrade (some protocol)).values "upgrade" = [protocol] := by
  simp [withUpgrade, values_put]

/-! ## The headers that the backend gets -/

/-- What is to reach the backend of the headers of a request for a host. -/
structure IsFiltered (h : Headers) (host client : String) (sent : Headers) : Prop where
  kept : ∀ name, ¬ h.Concerns name → name ∉ forwardedNames → sent.values name = h.values name
  dropped : ∀ name, h.Concerns name → name ∉ forwardedNames → name ≠ "connection" →
    name ≠ "upgrade" → sent.values name = []
  upgraded : ∀ protocol, h.Lists "upgrade" → h.first? "upgrade" = some protocol →
    sent.values "connection" = [.ofText "upgrade"] ∧ sent.values "upgrade" = [protocol]
  notUpgraded : ¬ (h.Lists "upgrade" ∧ ∃ protocol, h.first? "upgrade" = some protocol) →
    sent.values "connection" = [] ∧ sent.values "upgrade" = []
  host : sent.values "x-forwarded-host" = [.ofText host]
  scheme : sent.values "x-forwarded-proto" = [.ofText "http"]
  chain : ∃ v, sent.values "x-forwarded-for" = [v] ∧
    (h.Lists "x-forwarded-for" → v = .ofText client)

theorem values_withForwarded_of_forwarded (h : Headers) (host client : String) :
    (h.withForwarded host client).values "x-forwarded-host" = [.ofText host] ∧
      (h.withForwarded host client).values "x-forwarded-proto" = [.ofText "http"] ∧
        (h.withForwarded host client).values "x-forwarded-for" =
          [.ofText (h.forwardedFor client)] := by
  simp [withForwarded, values_put, forwardedFor, first?]

/-- Without a chain of addresses to go on from, the client is the only one of it. -/
theorem forwardedFor_of_values_eq_nil {client : String} (hv : h.values "x-forwarded-for" = []) :
    h.forwardedFor client = client := by
  simp [forwardedFor, first?, hv]

end Headers

open Headers

namespace ProxyRequest

variable {r : ProxyRequest}

theorem isFiltered_forwardedHeaders (r : ProxyRequest) (host client : String) :
    r.headers.IsFiltered host client (r.forwardedHeaders host client) := by
  -- The two headers of a change of protocol concern the connection, so nothing of the client's own
  -- is left of them when the proxy writes them.
  have hpair : ∀ name ∈ ["connection", "upgrade"],
      (r.forwardedHeaders host client).values name =
        (r.headers.strip.withUpgrade r.headers.upgradeProtocol?).values name ∧
      r.headers.strip.values name = [] := by
    intro name hname
    have hfixed : name ∈ hopByHop := by
      revert name
      decide
    have hnew : name ∉ forwardedNames := by
      revert name
      decide
    exact ⟨values_withForwarded _ _ _ hnew, values_strip_of_concerns (.inl hfixed)⟩
  obtain ⟨hconnection, hnoConnection⟩ := hpair "connection" (by simp)
  obtain ⟨hupgrade, hnoUpgrade⟩ := hpair "upgrade" (by simp)
  obtain ⟨hhost, hscheme, hchain⟩ := values_withForwarded_of_forwarded
    (r.headers.strip.withUpgrade r.headers.upgradeProtocol?) host client
  refine ⟨fun name hc hnew => ?_, fun name hc hnew hnc hnu => ?_, fun protocol hl hp => ?_,
    fun hnone => ?_, hhost, hscheme, _, hchain, fun hl => ?_⟩
  · have hnot : name ∉ hopByHop := fun hm => hc (.inl hm)
    rw [forwardedHeaders, values_withForwarded _ _ _ hnew, values_withUpgrade _ _ hnot,
      values_strip_of_not_concerns hc]
  · rw [forwardedHeaders, values_withForwarded _ _ _ hnew, values_withUpgrade_of_ne _ _ hnc hnu,
      values_strip_of_concerns hc]
  · rw [hconnection, hupgrade, upgradeProtocol?_eq_some_iff.2 ⟨hl, hp⟩]
    exact values_withUpgrade_of_upgrade _ _
  · have hp : r.headers.upgradeProtocol? = none := by
      rw [Option.eq_none_iff_forall_ne_some]
      intro protocol hp
      obtain ⟨hl, hfirst⟩ := upgradeProtocol?_eq_some_iff.1 hp
      exact hnone ⟨hl, protocol, hfirst⟩
    rw [hconnection, hupgrade, hp]
    exact ⟨hnoConnection, hnoUpgrade⟩
  · refine congrArg HeaderValue.ofText (forwardedFor_of_values_eq_nil ?_)
    rw [values_withUpgrade_of_ne _ _ (by decide) (by decide)]
    exact values_strip_of_concerns (.inr ⟨by decide, hl⟩)

/-- Of the headers of a request that is passed on, none that concerns its connection reaches the
backend, and all others do, besides those that the proxy writes itself. -/
theorem isFiltered_of_decide {t : DispatchTable} {u : Upstream} {client url : String}
    {route : Route} {sent : Headers} (h : r.decide t u client = .forward route url sent) :
    ∃ host, r.host? = some host ∧ r.headers.IsFiltered host client sent := by
  obtain ⟨host, hhost, -, -, -, rfl⟩ := decide_eq_forward_iff.1 h
  exact ⟨host, hhost, r.isFiltered_forwardedHeaders host client⟩

/-- Two lines list names in different spellings, and two protocols are named. -/
theorem isFiltered_of_decide_upgrade :
    let r : ProxyRequest :=
      { path := "/"
        headers := ⟨[("host", .ofText "app.localhost"), ("connection", .ofText "X-Trace, , a b"),
          ("x-trace", .ofText "1"), ("connection", .ofText "keep-alive ,UPGRADE,X-Forwarded-For"),
          ("upgrade", .ofText "websocket"), ("upgrade", .ofText "h2c"),
          ("x-forwarded-for", .ofText "10.0.0.1"), ("accept", .ofText "text/html"),
          ("accept", .ofText "*/*")]⟩ }
    let t : DispatchTable := ⟨[⟨"app", "app.localhost", "/", ⟨.http, 5080⟩⟩]⟩
    ∃ route url sent, r.decide t .silent "127.0.0.1" = .forward route url sent ∧
      sent.values "x-trace" = [] ∧
        sent.values "accept" = [.ofText "text/html", .ofText "*/*"] ∧
          sent.values "connection" = [.ofText "upgrade"] ∧
            sent.values "upgrade" = [.ofText "websocket"] ∧
              sent.values "x-forwarded-for" = [.ofText "127.0.0.1"] := by
  intro r t
  have hhost : r.host? = some "app.localhost" := by decide +kernel
  have hroute : t.resolve "app.localhost" r.path =
      some ⟨"app", "app.localhost", "/", ⟨.http, 5080⟩⟩ := by decide +kernel
  have hlisted : ∀ name ∈ ["x-trace", "upgrade", "x-forwarded-for"], r.headers.Lists name := by
    intro name hname
    refine any_connectionTokens_iff.1 ?_
    revert name
    decide +kernel
  have haccept : ¬ r.headers.Concerns "accept" :=
    mem_namedHopByHop_iff_concerns.not.1 (by decide +kernel)
  have h : r.decide t .silent "127.0.0.1" = .forward _ _ _ :=
    decide_eq_forward_iff.2 ⟨_, hhost, hroute, rfl, by decide +kernel, rfl⟩
  obtain ⟨host, -, hfiltered⟩ := isFiltered_of_decide h
  obtain ⟨hconnection, hupgrade⟩ := hfiltered.upgraded (.ofText "websocket")
    (hlisted _ (by simp)) (by decide +kernel)
  obtain ⟨v, hchain, hclient⟩ := hfiltered.chain
  refine ⟨_, _, _, h, ?_, hfiltered.kept _ haccept (by decide), hconnection, hupgrade, ?_⟩
  · exact hfiltered.dropped _ (.inr ⟨by decide, hlisted _ (by simp)⟩) (by decide) (by decide)
      (by decide)
  · rw [hchain, hclient (hlisted _ (by simp))]

end ProxyRequest

/-! ## The answer that the client gets -/

/-- What is passed back of the headers of a backend's answer: those that do not concern its
connection, or all of them where the protocol is changed. -/
theorem BackendReply.values_passOn (b : BackendReply) :
    b.passOn.status = b.status ∧ (b.status = 101 → b.passOn.headers = b.headers) ∧
      (b.status ≠ 101 → ∀ name,
        (b.headers.Concerns name → b.passOn.headers.values name = []) ∧
        (¬ b.headers.Concerns name → b.passOn.headers.values name = b.headers.values name)) := by
  unfold BackendReply.passOn
  split_ifs with hstatus
  · exact ⟨rfl, fun _ => rfl, fun hne => absurd hstatus hne⟩
  · exact ⟨rfl, fun he => absurd he hstatus,
      fun _ _ => ⟨values_strip_of_concerns, values_strip_of_not_concerns⟩⟩

/-- What a client gets from a backend is the answer to its own request, asked for at the route that
it takes. -/
theorem ProxyRequest.exists_ask_of_handle {r : ProxyRequest} {t : DispatchTable} {u : Upstream}
    {client : String} {reply : BackendReply} (h : r.handle t u client = .passedOn reply) :
    ∃ host route sent answer, r.host? = some host ∧ t.resolve host r.path = some route ∧
      r.headers.IsFiltered host client sent ∧
        u.ask (route.backend.baseUrl ++ r.target) sent = some answer ∧ reply = answer.passOn := by
  unfold handle at h
  split at h
  · cases h
  next route url sent hforward =>
  split at h
  · cases h
  next answer hanswer =>
  cases h
  obtain ⟨host, hhost, hroute, rfl, -, rfl⟩ := decide_eq_forward_iff.1 hforward
  exact ⟨host, route, _, answer, hhost, hroute, r.isFiltered_forwardedHeaders host client, hanswer,
    rfl⟩

theorem ProxyRequest.status_of_decide {r : ProxyRequest} {t : DispatchTable} {u : Upstream}
    {client : String} {reply : OwnReply} (h : r.decide t u client = .answer reply) :
    reply.status = 502 ↔
      ∃ host route, r.host? = some host ∧ t.resolve host r.path = some route := by
  unfold decide at h
  rcases hhost : r.host? with _ | host <;> simp only [hhost] at h
  · cases h
    simp
  rcases hroute : t.resolve host r.path with _ | route <;> simp only [hroute] at h
  · cases h
    simp [hroute]
  split at h
  · cases h
    exact iff_of_true rfl ⟨host, route, rfl, hroute⟩
  · cases h

/-- The proxy answers itself that a gateway is bad exactly to requests that take a route. -/
theorem ProxyRequest.status_of_handle {r : ProxyRequest} {t : DispatchTable} {u : Upstream}
    {client : String} {reply : OwnReply} (h : r.handle t u client = .own reply) :
    reply.status = 502 ↔
      ∃ host route, r.host? = some host ∧ t.resolve host r.path = some route := by
  unfold handle at h
  split at h
  next answer hanswer =>
    cases h
    exact status_of_decide hanswer
  next route url sent hforward =>
    obtain ⟨host, hhost, hroute, -⟩ := decide_eq_forward_iff.1 hforward
    split at h <;> cases h
    exact iff_of_true rfl ⟨host, route, hhost, hroute⟩

end LocalTopology
