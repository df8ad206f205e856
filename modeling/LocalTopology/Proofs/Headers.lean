import LocalTopology.Ingress.Proxy
import LocalTopology.Proofs.Text

/-!
# Headers that are passed on

A text whose characters are visible is read back from a header as it is (`visible?_ofText`). Of the
headers of a request all values of a name go on to the backend or none of them: none if the name
belongs to one connection, or if the request itself lists it in a `connection` header
(`values_forwardedHeaders`). That holds of `host` as of any other name (`values_host_of_decide`).
The chain of addresses that a request has come from is read from its first line only, so the
addresses of further lines are lost (`addresses_forwardedHeaders`).
-/

namespace LocalTopology

open Text

/-! ## Text in headers -/

theorem toList_loop (bs : ByteArray) (i : Nat) (r : List UInt8) :
    ByteArray.toList.loop bs i r = r.reverse ++ bs.data.toList.drop i := by
  fun_induction ByteArray.toList.loop bs i r with
  | case1 i r hi ih =>
    have hlen : i < bs.data.toList.length := by simpa using hi
    rw [ih, List.drop_eq_getElem_cons hlen]
    simp [ByteArray.get!, hi]
  | case2 i r hi =>
    rw [List.drop_eq_nil_of_le (by simpa using hi)]
    simp

/-- A value is made of the characters of its text, one behind the other. -/
theorem HeaderValue.ofText_eq (s : String) :
    HeaderValue.ofText s = s.toList.flatMap String.utf8EncodeChar := by
  have hbytes : s.toUTF8 = (s.toList.flatMap String.utf8EncodeChar).toByteArray :=
    String.utf8Encode_toList.symm
  rw [HeaderValue.ofText, hbytes, ByteArray.toList, toList_loop, List.toList_data_toByteArray]
  simp

theorem utf8EncodeChar_of_ascii {c : Char} (h : c.toNat < 128) :
    String.utf8EncodeChar c = [UInt8.ofNat c.toNat] := by
  have hle : c.val.toNat ≤ 127 := Nat.le_of_lt_succ h
  unfold String.utf8EncodeChar
  simp only [hle, if_true]
  rfl

/-- The first byte of a character outside ASCII is not visible. -/
theorem head_utf8EncodeChar {c : Char} (h : ¬ c.toNat < 128) :
    ∃ b bs, String.utf8EncodeChar c = b :: bs ∧ isVisibleByte b = false := by
  have hbyte : ∀ k n : Nat, n < 64 → 192 ≤ k → k + n < 256 →
      isVisibleByte (UInt8.ofNat (n + k)) = false := by
    intro k n hn hk hkn
    have hlt : n + k < 256 := by omega
    have hv : (UInt8.ofNat (n + k)).toNat = n + k := UInt8.toNat_ofNat_of_lt' hlt
    simp only [isVisibleByte, Bool.or_eq_false_iff, Bool.and_eq_false_iff, decide_eq_false_iff_not,
      beq_eq_false_iff_ne, ne_eq, ← UInt8.toNat_inj, UInt8.le_iff_toNat_le, UInt8.lt_iff_toNat_lt,
      hv]
    simp
    omega
  have hlt : ¬ c.val.toNat ≤ 127 := fun hle => h (Nat.lt_succ_of_le hle)
  unfold String.utf8EncodeChar
  simp only [hlt, if_false]
  split_ifs
  · exact ⟨_, _, rfl, hbyte 192 _ (by omega) (by omega) (by omega)⟩
  · exact ⟨_, _, rfl, hbyte 224 _ (by omega) (by omega) (by omega)⟩
  · exact ⟨_, _, rfl, hbyte 240 _ (by omega) (by omega) (by omega)⟩

/-- A visible character of ASCII, a space or a tab. -/
def IsVisible (c : Char) : Prop :=
  c.toNat = 9 ∨ 32 ≤ c.toNat ∧ c.toNat < 127

theorem isVisibleByte_ofNat {c : Char} (h : c.toNat < 128) :
    isVisibleByte (UInt8.ofNat c.toNat) = true ↔ IsVisible c := by
  have hnat : (UInt8.ofNat c.toNat).toNat = c.toNat :=
    UInt8.toNat_ofNat_of_lt' (show c.toNat < 256 by omega)
  simp only [isVisibleByte, IsVisible, Bool.or_eq_true, Bool.and_eq_true, decide_eq_true_eq,
    beq_iff_eq, ← UInt8.toNat_inj, UInt8.le_iff_toNat_le, UInt8.lt_iff_toNat_lt, hnat]
  rfl

/-- A visible text is read back from a header. -/
theorem visible?_ofText {s : String} (h : ∀ c ∈ s.toList, IsVisible c) :
    (HeaderValue.ofText s).visible? = some s.toList := by
  have hascii : ∀ c ∈ s.toList, c.toNat < 128 := by
    intro c hc
    rcases h c hc with hc | hc <;> omega
  have hbytes : HeaderValue.ofText s = s.toList.map fun c => UInt8.ofNat c.toNat := by
    rw [HeaderValue.ofText_eq, List.map_eq_flatMap]
    exact List.flatMap_congr fun c hc => utf8EncodeChar_of_ascii (hascii c hc)
  have hvisible : ∀ c ∈ s.toList, isVisibleByte (UInt8.ofNat c.toNat) = true :=
    fun c hc => (isVisibleByte_ofNat (hascii c hc)).2 (h c hc)
  have hback : ∀ c ∈ s.toList, Char.ofNat (UInt8.ofNat c.toNat).toNat = c := by
    intro c hc
    have := hascii c hc
    rw [UInt8.toNat_ofNat_of_lt' (show c.toNat < 256 by omega), Char.ofNat_toNat]
  unfold HeaderValue.visible?
  rw [hbytes, if_pos (by simpa using hvisible), List.map_map]
  congr 1
  exact (List.map_congr_left hback).trans (List.map_id _)

/-- What is read from a header is visible. -/
theorem isVisible_of_visible? {v : HeaderValue} {cs : List Char} (h : v.visible? = some cs) :
    ∀ c ∈ cs, IsVisible c := by
  unfold HeaderValue.visible? at h
  split_ifs at h with hall
  obtain rfl := Option.some.inj h
  intro c hc
  obtain ⟨b, hb, rfl⟩ := List.mem_map.1 hc
  have hvisible := List.all_eq_true.1 hall b hb
  have hlt : b.toNat < 128 := by
    simp only [isVisibleByte, Bool.or_eq_true, Bool.and_eq_true, decide_eq_true_eq, beq_iff_eq,
      ← UInt8.toNat_inj, UInt8.le_iff_toNat_le, UInt8.lt_iff_toNat_lt] at hvisible
    simp at hvisible
    omega
  have hascii : ∀ n < 128, (Char.ofNat n).toNat = n := by decide
  have hnat := hascii b.toNat hlt
  rw [← isVisibleByte_ofNat (by rw [hnat]; exact hlt), hnat, UInt8.ofNat_toNat]
  exact hvisible

/-- A text with a character outside ASCII is not read from a header. -/
theorem visible?_ofText_eq_none {s : String} {c : Char} (hc : c ∈ s.toList)
    (h : ¬ c.toNat < 128) : (HeaderValue.ofText s).visible? = none := by
  obtain ⟨b, bs, hb, hinvisible⟩ := head_utf8EncodeChar h
  have hmem : b ∈ HeaderValue.ofText s := by
    rw [HeaderValue.ofText_eq, List.mem_flatMap]
    exact ⟨c, hc, by simp [hb]⟩
  unfold HeaderValue.visible?
  refine if_neg fun hall => ?_
  rw [List.all_eq_true.1 hall b hmem] at hinvisible
  cases hinvisible

/-! ## The values of a name -/

namespace Headers

theorem values_remove (h : Headers) (name other : String) :
    (h.remove other).values name = if name = other then [] else h.values name := by
  obtain ⟨es⟩ := h
  simp only [remove, values, List.filterMap_filter]
  split_ifs with hname
  · rw [List.filterMap_eq_nil_iff]
    rintro ⟨n, v⟩ -
    by_cases hn : n = other <;> simp [hn, hname]
  · refine List.filterMap_congr ?_
    rintro ⟨n, v⟩ -
    by_cases hn : n = other
    · simp [hn, Ne.symm hname]
    · simp [hn]

theorem values_put (h : Headers) (name other : String) (v : HeaderValue) :
    (h.put other v).values name = if name = other then [v] else h.values name := by
  -- What is put comes behind what is left without its name.
  have happend : (h.put other v).values name =
      (h.remove other).values name ++ if other = name then [v] else [] := by
    simp only [put, values, List.filterMap_append]
    by_cases hname : other = name <;> simp [hname]
  rw [happend, values_remove]
  by_cases hname : name = other
  · simp [hname]
  · simp [hname, Ne.symm hname]

theorem values_removeAll (name : String) : ∀ (names : List String) (h : Headers),
    (names.foldl remove h).values name = if name ∈ names then [] else h.values name
  | [], h => by simp
  | other :: names, h => by
    rw [List.foldl_cons, values_removeAll name names, values_remove]
    by_cases hname : name = other <;> simp [hname]

theorem values_strip (h : Headers) (name : String) : h.strip.values name =
    if name ∈ h.namedHopByHop ∨ name ∈ hopByHop then [] else h.values name := by
  rw [strip, values_removeAll]
  simp only [List.mem_append]

theorem values_withUpgrade_of_ne (h : Headers) (protocol : Option HeaderValue) {name : String}
    (hconnection : name ≠ "connection") (hupgrade : name ≠ "upgrade") :
    (h.withUpgrade protocol).values name = h.values name := by
  rcases protocol with _ | protocol
  · rfl
  · rw [withUpgrade, values_put, if_neg hupgrade, values_put, if_neg hconnection]

theorem values_withUpgrade (h : Headers) (protocol : Option HeaderValue) {name : String}
    (hname : name ∉ hopByHop) : (h.withUpgrade protocol).values name = h.values name :=
  values_withUpgrade_of_ne h protocol (fun he => hname (he ▸ by decide)) fun he =>
    hname (he ▸ by decide)

/-- The headers that tell the backend how the request came. -/
def forwardedNames : List String :=
  ["x-forwarded-host", "x-forwarded-proto", "x-forwarded-for"]

theorem values_withForwarded (h : Headers) (host client : String) {name : String}
    (hname : name ∉ forwardedNames) :
    (h.withForwarded host client).values name = h.values name := by
  simp only [forwardedNames, List.mem_cons, List.not_mem_nil, or_false, not_or] at hname
  obtain ⟨hhost, hproto, hfor⟩ := hname
  simp only [withForwarded, values_put, hhost, hproto, hfor, if_false]

/-! ## Names that a request lists -/

/-- The request lists a name as one that concerns its connection: a part between commas of one of
its `connection` headers is the name, the blanks around it and the case of its letters aside. -/
def Lists (h : Headers) (name : String) : Prop :=
  ∃ v ∈ h.values "connection", ∃ cs, v.visible? = some cs ∧
    ∃ token ∈ cs.splitOn ',', (trim token).map Char.toLower = name.toList

theorem isHeaderNameChar_toLower (c : Char) : isHeaderNameChar c.toLower = isHeaderNameChar c := by
  -- Only the capital letters change, and these are few enough to try each.
  by_cases hu : 65 ≤ c.val ∧ c.val ≤ 90
  · have hletters : ∀ n < 91, 65 ≤ n →
        isHeaderNameChar (Char.ofNat n).toLower = isHeaderNameChar (Char.ofNat n) := by decide
    have hletter := hletters c.toNat (Nat.lt_succ_of_le hu.2) hu.1
    rwa [Char.ofNat_toNat] at hletter
  · rw [toLower_eq_self hu]

theorem toList_of_headerName? {cs : List Char} {name : String} (h : headerName? cs = some name) :
    name.toList = cs.map Char.toLower := by
  unfold headerName? at h
  split_ifs at h
  rw [← Option.some.inj h, foldCase, String.toList_ofList, String.toList_ofList]

theorem headerName?_map_toLower (cs : List Char) :
    headerName? (cs.map Char.toLower) = headerName? cs := by
  have hall : (cs.map Char.toLower).all isHeaderNameChar = cs.all isHeaderNameChar := by
    rw [List.all_map]
    exact congrArg cs.all (funext isHeaderNameChar_toLower)
  have hfold : foldCase (String.ofList (cs.map Char.toLower)) = foldCase (String.ofList cs) := by
    rw [← foldCase_foldCase (String.ofList cs)]
    simp [foldCase]
  rw [headerName?, headerName?, List.isEmpty_map, List.length_map, hall, hfold]

/-- A text is a known name if it is that name in lower case. -/
theorem headerName?_eq_some_iff {cs : List Char} {name : String}
    (hname : headerName? name.toList = some name) :
    headerName? cs = some name ↔ cs.map Char.toLower = name.toList := by
  refine ⟨fun h => (toList_of_headerName? h).symm, fun h => ?_⟩
  rw [← headerName?_map_toLower, h, hname]

theorem lists_iff {h : Headers} {name : String} :
    h.Lists name ↔ ∃ token ∈ h.connectionTokens, token.map Char.toLower = name.toList := by
  simp only [connectionTokens, List.mem_flatMap, List.mem_filterMap, List.mem_map, Lists]
  constructor
  · rintro ⟨v, hv, cs, hcs, token, htoken, hlower⟩
    exact ⟨_, ⟨cs, ⟨v, hv, hcs⟩, token, htoken, rfl⟩, hlower⟩
  · rintro ⟨_, ⟨cs, ⟨v, hv, hcs⟩, token, htoken, rfl⟩, hlower⟩
    exact ⟨v, hv, cs, hcs, token, htoken, hlower⟩

theorem mem_namedHopByHop_iff {h : Headers} {name : String}
    (hname : headerName? name.toList = some name) : name ∈ h.namedHopByHop ↔ h.Lists name := by
  simp only [namedHopByHop, List.mem_filterMap, headerName?_eq_some_iff hname, lists_iff]

theorem values_strip_of_not_lists {h : Headers} {name : String}
    (hname : headerName? name.toList = some name) (hfixed : name ∉ hopByHop)
    (hlisted : ¬ h.Lists name) : h.strip.values name = h.values name := by
  rw [values_strip, if_neg]
  rintro (hm | hm)
  · exact hlisted ((mem_namedHopByHop_iff hname).1 hm)
  · exact hfixed hm

theorem values_strip_of_lists {h : Headers} {name : String}
    (hname : headerName? name.toList = some name) (hlisted : h.Lists name) :
    h.strip.values name = [] := by
  rw [values_strip, if_pos (Or.inl ((mem_namedHopByHop_iff hname).2 hlisted))]

end Headers

/-! ## Requests that are passed on -/

/-- What is found where texts of up to 65534 bytes are URLs and no backend runs. -/
def Upstream.silent : Upstream where
  urlFault? url := if 65534 < url.utf8ByteSize then some "uri too long" else none
  ask _ _ := none

namespace ProxyRequest

/-- A header that is neither fixed to a connection nor written anew goes on to the backend with all
its values, unless the request lists it. -/
theorem values_forwardedHeaders (r : ProxyRequest) (host client : String) {name : String}
    (hname : headerName? name.toList = some name) (hfixed : name ∉ Headers.hopByHop)
    (hnew : name ∉ Headers.forwardedNames) :
    (¬ r.headers.Lists name →
      (r.forwardedHeaders host client).values name = r.headers.values name) ∧
    (r.headers.Lists name → (r.forwardedHeaders host client).values name = []) := by
  rw [forwardedHeaders, Headers.values_withForwarded _ _ _ hnew,
    Headers.values_withUpgrade _ _ hfixed]
  exact ⟨Headers.values_strip_of_not_lists hname hfixed, Headers.values_strip_of_lists hname⟩

/-- A request is passed on exactly if it takes a route whose backend can be asked for it. -/
theorem decide_eq_forward_iff {r : ProxyRequest} {t : DispatchTable} {u : Upstream}
    {client url : String} {route : Route} {headers : Headers} :
    r.decide t u client = .forward route url headers ↔
      ∃ host, r.host? = some host ∧ t.resolve host r.path = some route ∧
        url = route.backend.baseUrl ++ r.target ∧ u.urlFault? url = none ∧
          headers = r.forwardedHeaders host client := by
  unfold decide
  rcases r.host? with _ | host
  · simp
  rcases hroute : t.resolve host r.path with _ | taken
  · simp [hroute]
  simp only [Option.some.injEq, exists_eq_left', hroute]
  split
  next fault hfault =>
    simp only [reduceCtorEq, false_iff]
    rintro ⟨rfl, rfl, hnone, -⟩
    rw [hfault] at hnone
    cases hnone
  next hnone =>
    simp only [ProxyDecision.forward.injEq]
    constructor
    · rintro ⟨rfl, rfl, rfl⟩
      exact ⟨rfl, rfl, hnone, rfl⟩
    · rintro ⟨rfl, rfl, -, rfl⟩
      exact ⟨rfl, rfl, rfl⟩

/-- A request that is passed on has its host still, unless it lists `host` in a `connection` header:
then no host is passed on. -/
theorem values_host_of_decide {r : ProxyRequest} {t : DispatchTable} {u : Upstream}
    {client url : String} {route : Route} {headers : Headers}
    (h : r.decide t u client = .forward route url headers) :
    (¬ r.headers.Lists "host" → headers.values "host" = r.headers.values "host") ∧
      (r.headers.Lists "host" → headers.values "host" = []) := by
  obtain ⟨host, -, -, -, -, rfl⟩ := decide_eq_forward_iff.1 h
  exact r.values_forwardedHeaders host client (by decide) (by decide) (by decide)

/-- A request that lists one of its own headers. -/
theorem values_host_of_decide_trace :
    let r : ProxyRequest :=
      { path := "/"
        headers := ⟨[("host", .ofText "app.localhost:1347"),
          ("connection", .ofText "keep-alive, X-Trace"), ("x-trace", .ofText "1")]⟩ }
    let t : DispatchTable := ⟨[⟨"app", "app.localhost", "/", ⟨.http, 5080⟩⟩]⟩
    ∃ route url headers, r.decide t .silent "127.0.0.1" = .forward route url headers ∧
      ¬ r.headers.Lists "host" ∧ headers.values "host" = [.ofText "app.localhost:1347"] := by
  intro r t
  have hhost : r.host? = some "app.localhost:1347" := by decide +kernel
  have hroute : t.resolve "app.localhost:1347" r.path =
      some ⟨"app", "app.localhost", "/", ⟨.http, 5080⟩⟩ := by decide +kernel
  have hlisted : ¬ r.headers.Lists "host" :=
    (Headers.mem_namedHopByHop_iff (by decide)).not.1 (by decide +kernel)
  have h : r.decide t .silent "127.0.0.1" = .forward _ _ _ :=
    decide_eq_forward_iff.2 ⟨_, hhost, hroute, rfl, by decide +kernel, rfl⟩
  exact ⟨_, _, _, h, hlisted, (values_host_of_decide h).1 hlisted⟩

/-- A request that lists its `host` reaches the backend without one. -/
theorem exists_decide_without_host :
    ¬ ∀ (r : ProxyRequest) (t : DispatchTable) (u : Upstream) (client : String) (route : Route)
        (url : String) (headers : Headers) (v : HeaderValue),
          r.decide t u client = .forward route url headers → r.headers.first? "host" = some v →
            headers.first? "host" = some v := by
  intro hall
  let r : ProxyRequest :=
    { path := "/"
      headers := ⟨[("host", .ofText "app.localhost"), ("connection", .ofText "host")]⟩ }
  let t : DispatchTable := ⟨[⟨"app", "app.localhost", "/", ⟨.http, 5080⟩⟩]⟩
  have hhost : r.host? = some "app.localhost" := by decide +kernel
  have hroute : t.resolve "app.localhost" r.path =
      some ⟨"app", "app.localhost", "/", ⟨.http, 5080⟩⟩ := by decide +kernel
  have hlisted : r.headers.Lists "host" :=
    (Headers.mem_namedHopByHop_iff (by decide)).1 (by decide +kernel)
  have h : r.decide t .silent "127.0.0.1" = .forward _ _ _ :=
    decide_eq_forward_iff.2 ⟨_, hhost, hroute, rfl, by decide +kernel, rfl⟩
  have hkept := hall r t .silent "127.0.0.1" _ _ _ _ h rfl
  have hnone := (r.values_forwardedHeaders "app.localhost" "127.0.0.1" (by decide) (by decide)
    (by decide)).2 hlisted
  rw [Headers.first?, hnone] at hkept
  cases hkept

end ProxyRequest

/-! ## The chain of addresses -/

/-- The text of an address: visible, and without blanks and commas. -/
def IsAddress (s : String) : Prop :=
  s ≠ "" ∧ ∀ c ∈ s.toList, 32 < c.toNat ∧ c.toNat < 127 ∧ c ≠ ','

theorem isAddress_loopback : IsAddress "127.0.0.1" := by
  simp [IsAddress]

/-- The addresses of a line, which stand between commas. -/
def HeaderValue.addresses (v : HeaderValue) : List String :=
  (((((v.visible?.getD []).splitOn ',').map trim).filter (!·.isEmpty)).map String.ofList)

/-- The addresses that a message has come from, line by line. -/
def Headers.addresses (h : Headers) : List String :=
  (h.values "x-forwarded-for").flatMap (·.addresses)

theorem IsAddress.isBlank_eq_false {s : String} (h : IsAddress s) :
    ∀ c ∈ s.toList, isBlank c = false := by
  intro c hc
  obtain ⟨hlow, hhigh, -⟩ := h.2 c hc
  simp only [isBlank, Bool.or_eq_false_iff, Bool.and_eq_false_iff, decide_eq_false_iff_not,
    beq_eq_false_iff_ne]
  omega

theorem IsAddress.isVisible {s : String} (h : IsAddress s) : ∀ c ∈ s.toList, IsVisible c := by
  intro c hc
  obtain ⟨hlow, hhigh, -⟩ := h.2 c hc
  exact .inr ⟨hlow.le, hhigh⟩

namespace HeaderValue

theorem addresses_of_visible? {v : HeaderValue} {cs : List Char} (h : v.visible? = some cs) :
    v.addresses = (((cs.splitOn ',').map trim).filter (!·.isEmpty)).map String.ofList := by
  rw [addresses, h, Option.getD_some]

variable {client : String}

theorem addresses_ofText (hclient : IsAddress client) : (ofText client).addresses = [client] := by
  have hcomma : ',' ∉ client.toList := fun hm => (hclient.2 _ hm).2.2 rfl
  have hne : client.toList ≠ [] := fun he => hclient.1 (String.toList_eq_nil_iff.1 he)
  rw [addresses_of_visible? (visible?_ofText hclient.isVisible), List.splitOn_eq_singleton hcomma]
  simp [trim_eq_self hclient.isBlank_eq_false, hne]

/-- An address behind those of a line is the last one of the longer line. -/
theorem addresses_append {v : HeaderValue} {cs : List Char} (h : v.visible? = some cs)
    (hclient : IsAddress client) :
    (ofText (String.ofList cs ++ ", " ++ client)).addresses = v.addresses ++ [client] := by
  have hchars :
      (String.ofList cs ++ ", " ++ client).toList = cs ++ ',' :: ' ' :: client.toList := by
    simp
  have hread : (ofText (String.ofList cs ++ ", " ++ client)).visible? =
      some (cs ++ ',' :: ' ' :: client.toList) := by
    rw [visible?_ofText, hchars]
    rw [hchars]
    intro c hc
    simp only [List.mem_append, List.mem_cons] at hc
    rcases hc with hc | rfl | rfl | hc
    · exact isVisible_of_visible? h c hc
    · exact .inr (by decide)
    · exact .inr (by decide)
    · exact hclient.isVisible c hc
  -- The comma ends the last part of the line, and the blank behind it is trimmed.
  have hcomma : ',' ∉ ' ' :: client.toList := by
    rw [List.mem_cons, not_or]
    exact ⟨by decide, fun hm => (hclient.2 _ hm).2.2 rfl⟩
  have htrim : trim (' ' :: client.toList) = client.toList :=
    trim_eq_self hclient.isBlank_eq_false
  have hne : client.toList ≠ [] := fun he => hclient.1 (String.toList_eq_nil_iff.1 he)
  rw [addresses_of_visible? hread, addresses_of_visible? h, List.splitOn_append_cons_self,
    List.splitOn_eq_singleton hcomma]
  simp [htrim, hne]

end HeaderValue

/-- The addresses of the first line, if there is one, and the client. -/
theorem Headers.addresses_withForwarded {h : Headers} {client : String} (hclient : IsAddress client)
    (hvisible : ∀ v ∈ h.values "x-forwarded-for", v.visible? ≠ none) (host : String) :
    (h.withForwarded host client).addresses =
      ((h.values "x-forwarded-for").take 1).flatMap (·.addresses) ++ [client] := by
  have hline : (h.withForwarded host client).values "x-forwarded-for" =
      [.ofText (h.forwardedFor client)] := by
    simp [withForwarded, values_put, forwardedFor, first?]
  rw [addresses, hline, forwardedFor, first?]
  rcases hvalues : h.values "x-forwarded-for" with _ | ⟨v, vs⟩
  · simp [HeaderValue.addresses_ofText hclient]
  · obtain ⟨cs, hcs⟩ := Option.ne_none_iff_exists'.1 (hvisible v (by simp [hvalues]))
    simp [hcs, HeaderValue.addresses_append hcs hclient]

/-- The chain of addresses goes on from its first line: the addresses of further lines are left
out, so the chain is whole exactly if these have none. -/
theorem ProxyRequest.addresses_forwardedHeaders {r : ProxyRequest} {client : String}
    (hclient : IsAddress client)
    (hvisible : ∀ v ∈ r.headers.values "x-forwarded-for", v.visible? ≠ none)
    (hlisted : ¬ r.headers.Lists "x-forwarded-for") (host : String) :
    (r.forwardedHeaders host client).addresses =
        ((r.headers.values "x-forwarded-for").take 1).flatMap (·.addresses) ++ [client] ∧
      ((r.forwardedHeaders host client).addresses = r.headers.addresses ++ [client] ↔
        ∀ v ∈ (r.headers.values "x-forwarded-for").drop 1, v.addresses = []) := by
  have hkept : (r.headers.strip.withUpgrade r.headers.upgradeProtocol?).values "x-forwarded-for" =
      r.headers.values "x-forwarded-for" := by
    rw [Headers.values_withUpgrade _ _ (by decide),
      Headers.values_strip_of_not_lists (by decide) (by decide) hlisted]
  have hchain : (r.forwardedHeaders host client).addresses =
      ((r.headers.values "x-forwarded-for").take 1).flatMap (·.addresses) ++ [client] := by
    rw [forwardedHeaders, Headers.addresses_withForwarded hclient (by rwa [hkept]), hkept]
  refine ⟨hchain, ?_⟩
  rw [hchain, Headers.addresses, List.append_left_inj]
  conv_lhs => rhs; rw [← List.take_append_drop 1 (r.headers.values "x-forwarded-for")]
  rw [List.flatMap_append, List.self_eq_append_right, List.flatMap_eq_nil_iff]

/-- One line with two addresses, and one with none. -/
theorem ProxyRequest.addresses_forwardedHeaders_empty :
    let r : ProxyRequest :=
      { path := "/"
        headers := ⟨[("host", .ofText "app.localhost"),
          ("x-forwarded-for", .ofText "10.0.0.1,10.0.0.2"), ("x-forwarded-for", .ofText " ")]⟩ }
    IsAddress "127.0.0.1" ∧ ¬ r.headers.Lists "x-forwarded-for" ∧
      (∀ v ∈ r.headers.values "x-forwarded-for", v.visible? ≠ none) ∧
        (r.forwardedHeaders "app.localhost" "127.0.0.1").addresses =
          r.headers.addresses ++ ["127.0.0.1"] := by
  intro r
  have hlisted : ¬ r.headers.Lists "x-forwarded-for" :=
    (Headers.mem_namedHopByHop_iff (by decide)).not.1 (by decide +kernel)
  have hvisible : ∀ v ∈ r.headers.values "x-forwarded-for", v.visible? ≠ none := by decide +kernel
  have hchain := ProxyRequest.addresses_forwardedHeaders isAddress_loopback hvisible hlisted
  exact ⟨isAddress_loopback, hlisted, hvisible, (hchain _).2.2 (by decide +kernel)⟩

/-- Of two lines with an address each the second one is lost. -/
theorem ProxyRequest.exists_addresses_lost :
    ¬ ∀ (r : ProxyRequest) (host client : String), IsAddress client →
        (∀ v ∈ r.headers.values "x-forwarded-for", v.visible? ≠ none) →
          ¬ r.headers.Lists "x-forwarded-for" →
            (r.forwardedHeaders host client).addresses = r.headers.addresses ++ [client] := by
  intro hall
  let r : ProxyRequest :=
    { path := "/"
      headers := ⟨[("host", .ofText "app.localhost"), ("x-forwarded-for", .ofText "1.1.1.1"),
        ("x-forwarded-for", .ofText "2.2.2.2")]⟩ }
  have hlisted : ¬ r.headers.Lists "x-forwarded-for" :=
    (Headers.mem_namedHopByHop_iff (by decide)).not.1 (by decide +kernel)
  have hchain := hall r "app.localhost" "127.0.0.1" isAddress_loopback (by decide +kernel) hlisted
  have hcut : (r.forwardedHeaders "app.localhost" "127.0.0.1").addresses ≠
      r.headers.addresses ++ ["127.0.0.1"] := by decide +kernel
  exact hcut hchain

end LocalTopology
