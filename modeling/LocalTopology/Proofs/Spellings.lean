import LocalTopology.Build.Topology
import LocalTopology.Proofs.Headers
import LocalTopology.Proofs.Hosts
import LocalTopology.Proofs.Routing

/-!
# Spellings of accepted hosts

The policy folds more characters than the dispatch table: besides the capitals of ASCII the long s
and the Kelvin sign, which are the only characters of an accepted host outside its grammar
(`isHostChar_or_isForeign`). Two spellings of a name are one host of the table exactly if these two
stand at the same places in both (`foldCase_eq_iff`), and a host is read back from a header exactly
if it has none of them (`host?_of_header`).
-/

namespace LocalTopology

open Text

namespace Hostname

/-! ## Characters of accepted hosts -/

/-- An ASCII letter or digit, a hyphen or a dot. -/
def IsHostChar (c : Char) : Prop :=
  c.isAlphanum = true ∨ c = '-' ∨ c = '.'

/-- The long s and the Kelvin sign, which equal letters of ASCII when case is folded. -/
def isForeign (c : Char) : Bool :=
  c == '\u017f' || c == '\u212a'

theorem IsHostChar.bounds {c : Char} (h : IsHostChar c) : 32 ≤ c.toNat ∧ c.toNat < 127 := by
  rcases h with h | rfl | rfl
  · have hlower : c.isLower = true ↔ 97 ≤ c.val ∧ c.val ≤ 122 :=
      Bool.and_eq_true_iff.trans (and_congr decide_eq_true_iff decide_eq_true_iff)
    have hdigit : c.isDigit = true ↔ 48 ≤ c.val ∧ c.val ≤ 57 :=
      Bool.and_eq_true_iff.trans (and_congr decide_eq_true_iff decide_eq_true_iff)
    have hv : c.toNat = c.val.toNat := rfl
    rw [isAlphanum_eq_true_iff, isAlphanumeric, Bool.or_eq_true, hlower, hdigit] at h
    simp only [UInt32.le_iff_toNat_le, UInt32.reduceToNat] at h
    omega
  · decide
  · decide

theorem isForeign_iff {c : Char} : isForeign c = true ↔ c = '\u017f' ∨ c = '\u212a' := by
  simp [isForeign]

theorem not_ascii_of_isForeign {c : Char} (h : isForeign c = true) : ¬ c.toNat < 128 := by
  rcases isForeign_iff.1 h with rfl | rfl <;> decide

/-- A character that the policy takes for one of a host is one, or folds to a letter. -/
theorem isHostChar_or_of_foldChar {c : Char} (h : isAlphanumeric (foldChar c) = true ∨
    foldChar c = '-' ∨ foldChar c = '.') : IsHostChar c ∨ isForeign c = true := by
  unfold foldChar at h
  split_ifs at h with hs hk
  · exact .inr (isForeign_iff.2 (.inl hs))
  · exact .inr (isForeign_iff.2 (.inr hk))
  · refine .inl ?_
    by_cases hu : 65 ≤ c.val ∧ c.val ≤ 90
    · exact .inl (isAlphanum_eq_true_iff.2 (.inl hu))
    · rw [toLower_eq_self hu] at h
      exact h.imp_left fun hc => isAlphanum_eq_true_iff.2 (.inr hc)

theorem foldChar_of_toLower {c d : Char} (h : c.toLower = d) (hd : d.val < 128) :
    foldChar c = d := by
  unfold foldChar
  split_ifs with hs hk
  · rw [← h, hs] at hd
    exact absurd hd (by decide)
  · rw [← h, hk] at hd
    exact absurd hd (by decide)
  · exact h

/-- The characters of an accepted host are letters and digits, hyphens or dots in folded case. -/
theorem foldChar_of_isAccepted {host : String} (h : isAccepted host = true) {c : Char}
    (hc : c ∈ host.toList) :
    isAlphanumeric (foldChar c) = true ∨ foldChar c = '-' ∨ foldChar c = '.' := by
  unfold isAccepted at h
  rw [Bool.or_eq_true, List.any_eq_true] at h
  rcases h with ⟨fixed, hf, h⟩ | h
  · rw [sameFolded, beq_iff_eq] at h
    have hchars : ∀ fixed ∈ fixedHosts, ((foldCase fixed).toList.all fun d =>
        d.val < 128 ∧ (isAlphanumeric d = true ∨ d = '-' ∨ d = '.')) = true := by decide
    have hmem : c.toLower ∈ (foldCase fixed).toList := by
      rw [h, foldCase, String.toList_ofList]
      exact List.mem_map_of_mem hc
    obtain ⟨hascii, hd⟩ := of_decide_eq_true (List.all_eq_true.1 (hchars fixed hf) _ hmem)
    rwa [foldChar_of_toLower rfl hascii]
  · obtain ⟨-, -, -, -, h⟩ := isWildcardHost_eq_true_iff.1 h
    obtain ⟨l, hl, family, hf, domain, hd, h⟩ := describes_wildcard_iff.1 h
    have hfamily : ∀ family ∈ productFamilies, (family.toList.all fun d =>
        isAlphanumeric d = true ∨ d = '-' ∨ d = '.') = true := by decide
    have hdomain : ∀ domain ∈ [".localhost", "-dev.localhost"] ++ ["-dev.com", "-local.com"],
        (domain.toList.all fun d => isAlphanumeric d = true ∨ d = '-' ∨ d = '.') = true := by
      decide
    have hmem : foldChar c ∈ l ++ '.' :: (family.toList ++ domain.toList) := by
      rw [← h]
      exact List.mem_map_of_mem hc
    rw [List.mem_append, List.mem_cons, List.mem_append] at hmem
    rcases hmem with hm | hm | hm | hm
    · exact ((describes_label_iff.1 hl).2.1 _ hm).imp_right .inl
    · exact .inr (.inr hm)
    · exact of_decide_eq_true (List.all_eq_true.1 (hfamily family hf) _ hm)
    · exact of_decide_eq_true (List.all_eq_true.1 (hdomain domain hd) _ hm)

theorem isHostChar_or_isForeign {host : String} (h : isAccepted host = true) :
    ∀ c ∈ host.toList, IsHostChar c ∨ isForeign c = true :=
  fun _ hc => isHostChar_or_of_foldChar (foldChar_of_isAccepted h hc)

/-! ## Spellings of a name -/

/-- Two spellings of a name are equal when the policy folds their case. -/
def SameName (a b : String) : Prop :=
  a.toList.map foldChar = b.toList.map foldChar

instance (a b : String) : Decidable (SameName a b) :=
  inferInstanceAs (Decidable (a.toList.map foldChar = b.toList.map foldChar))

theorem toLower_of_isForeign {c : Char} (h : isForeign c = true) : c.toLower = c := by
  rcases isForeign_iff.1 h with rfl | rfl <;> rfl

theorem foldChar_of_isForeign_eq_false {c : Char} (h : isForeign c = false) :
    foldChar c = c.toLower := by
  have hne : ¬ (c = '\u017f' ∨ c = '\u212a') := by
    rw [← isForeign_iff, h]
    exact Bool.false_ne_true
  rw [not_or] at hne
  rw [foldChar, if_neg hne.1, if_neg hne.2]

/-- Characters that the policy takes for one are one in lower case, unless only one is foreign. -/
theorem toLower_eq_toLower_iff {c d : Char} (h : foldChar c = foldChar d) :
    c.toLower = d.toLower ↔ isForeign c = isForeign d := by
  have hfold : ∀ {x y : Char}, foldChar x = foldChar y → isForeign x = true →
      isForeign y = false → x.toLower ≠ y.toLower := by
    intro x y hxy hx hy he
    rw [foldChar_of_isForeign_eq_false hy, ← he, toLower_of_isForeign hx] at hxy
    rcases isForeign_iff.1 hx with rfl | rfl <;> exact absurd hxy (by decide)
  rcases hc : isForeign c with _ | _ <;> rcases hd : isForeign d with _ | _
  · rw [foldChar_of_isForeign_eq_false hc, foldChar_of_isForeign_eq_false hd] at h
    exact iff_of_true h rfl
  · exact iff_of_false (fun he => hfold h.symm hd hc he.symm) (by simp)
  · exact iff_of_false (hfold h hc hd) (by simp)
  · refine iff_of_true ?_ rfl
    rcases isForeign_iff.1 hc with rfl | rfl <;> rcases isForeign_iff.1 hd with rfl | rfl <;>
      first | rfl | exact absurd h (by decide)

theorem map_toLower_eq_iff : ∀ {cs ds : List Char}, cs.map foldChar = ds.map foldChar →
    (cs.map Char.toLower = ds.map Char.toLower ↔ cs.map isForeign = ds.map isForeign)
  | [], [], _ => by simp
  | [], _ :: _, h => by cases h
  | _ :: _, [], h => by cases h
  | c :: cs, d :: ds, h => by
    obtain ⟨hc, hcs⟩ := List.cons.inj h
    simp only [List.map_cons, List.cons.injEq, toLower_eq_toLower_iff hc, map_toLower_eq_iff hcs]

/-- Two spellings of a name are equal in lower case if foreign characters stand at the same
places. -/
theorem foldCase_eq_iff {a b : String} (h : SameName a b) :
    foldCase a = foldCase b ↔ a.toList.map isForeign = b.toList.map isForeign := by
  rw [← map_toLower_eq_iff h, foldCase, foldCase, String.ofList_inj]

theorem isWildcardHost_congr {a b : String} (h : SameName a b) :
    isWildcardHost a = isWildcardHost b := by
  rw [Bool.eq_iff_iff, isWildcardHost_iff, isWildcardHost_iff, h]

/-! ## Spellings in routes -/

/-- Two hosts are one wherever hosts are compared: in routes that are added, in requests and in
URLs. -/
structure RoutedAlike (a b : String) : Prop where
  insert : ∀ (t : DispatchTable) (service path : String) (backend : Backend),
    t.insert service a path backend = t.insert service b path backend
  resolve : ∀ (t : DispatchTable) (path : String), t.resolve a path = t.resolve b path
  proxied : ∀ (book : AddressBook) (path : String),
    book.proxied ⟨a, path⟩ = book.proxied ⟨b, path⟩

theorem stripPort_of_isAccepted {host : String} (h : isAccepted host = true) :
    DispatchTable.stripPort host = host := by
  have hcolon : ':' ∉ host.toList := by
    intro hm
    rcases foldChar_of_isAccepted h hm with h | h | h <;> exact absurd h (by decide)
  rw [DispatchTable.stripPort, cutLast?_eq_none_iff.2 hcolon]

theorem routedAlike_iff {a b : String} (ha : isAccepted a = true) (hb : isAccepted b = true) :
    RoutedAlike a b ↔ foldCase a = foldCase b := by
  constructor
  · intro h
    have hinsert := h.insert {} "" "" ⟨.http, 0⟩
    simpa [DispatchTable.insert, DispatchTable.at?, DispatchTable.place] using hinsert
  · intro h
    refine ⟨fun t service path backend => ?_, fun t path => ?_, fun book path => ?_⟩
    · simp only [DispatchTable.insert, h]
    · simp only [DispatchTable.resolve, stripPort_of_isAccepted ha, stripPort_of_isAccepted hb, h]
    · simp only [AddressBook.proxied, h]

/-- The host of a request is read from its header if it has no foreign character. -/
theorem host?_of_header {host : String} (h : isAccepted host = true) {r : ProxyRequest}
    (hr : r.headers.first? "host" = some (.ofText host)) :
    r.host? = if host.toList.any isForeign then r.authority.filter (!·.isEmpty)
      else some host := by
  split_ifs with hf
  · obtain ⟨c, hc, hforeign⟩ := List.any_eq_true.1 hf
    have hnone := visible?_ofText_eq_none hc (not_ascii_of_isForeign hforeign)
    simp [ProxyRequest.host?, hr, hnone]
  · have hchars : ∀ c ∈ host.toList, IsVisible c := fun c hc =>
      .inr ((isHostChar_or_isForeign h c hc).resolve_right fun hforeign =>
        hf (List.any_eq_true.2 ⟨c, hc, hforeign⟩)).bounds
    simp [ProxyRequest.host?, hr, visible?_ofText hchars, ne_empty_of_isAccepted h]

/-- The policy accepts the long s and the Kelvin sign for letters, and no other character outside
its grammar. A host with one of them is not read from a header, and is another host of the dispatch
table than the same name without it; hosts without them are read back, and their spellings are one
host of the table. -/
theorem spelling_of_isAccepted {host : String} (h : isAccepted host = true) :
    (∀ c ∈ host.toList, IsHostChar c ∨ isForeign c = true) ∧
      (∀ r : ProxyRequest, r.headers.first? "host" = some (.ofText host) →
        r.host? = if host.toList.any isForeign then r.authority.filter (!·.isEmpty)
          else some host) ∧
      (∀ other, SameName host other → isWildcardHost host = isWildcardHost other) ∧
      ∀ other, isAccepted other = true → SameName host other →
        (RoutedAlike host other ↔ host.toList.map isForeign = other.toList.map isForeign) :=
  ⟨isHostChar_or_isForeign h, fun _ => host?_of_header h, fun _ => isWildcardHost_congr,
    fun _ ho hs => (routedAlike_iff h ho).trans (foldCase_eq_iff hs)⟩

/-- Capitals of ASCII make no difference to the table. -/
theorem spelling_of_isAccepted_capitals :
    isAccepted "App.WorkLeap.localhost" = true ∧
      RoutedAlike "App.WorkLeap.localhost" "app.workleap.LOCALHOST" := by
  have h : isAccepted "App.WorkLeap.localhost" = true := by decide
  obtain ⟨-, -, -, halike⟩ := spelling_of_isAccepted h
  exact ⟨h, (halike "app.workleap.LOCALHOST" (by decide) (by decide)).2 (by decide)⟩

/-- An accepted host that ends in a long s is not in ASCII, is another host than the same name with
an s, and is not read from a header. -/
theorem exists_isAccepted_not_isHostChar :
    (¬ ∀ host, isAccepted host = true → ∀ c ∈ host.toList, IsHostChar c) ∧
      (¬ ∀ a b, isAccepted a = true → isAccepted b = true → SameName a b → RoutedAlike a b) ∧
      ¬ ∀ (host : String) (r : ProxyRequest), isAccepted host = true →
        r.headers.first? "host" = some (.ofText host) → r.host? = some host := by
  have hplain : isAccepted "app.workleap.localhost" = true := by decide
  have hlong : isAccepted "app.workleap.localho\u017ft" = true := by decide
  have hmem : '\u017f' ∈ "app.workleap.localho\u017ft".toList := by decide
  refine ⟨fun hall => ?_, fun hall => ?_, fun hall => ?_⟩
  · have hbounds := (hall _ hlong '\u017f' hmem).bounds
    exact absurd hbounds.2 (by decide)
  · have hsame := (routedAlike_iff hplain hlong).1 (hall _ _ hplain hlong (by decide))
    exact absurd hsame (by decide)
  · have hread := hall _ { path := "/", headers := ⟨[("host", .ofText _)]⟩ } hlong rfl
    rw [host?_of_header hlong rfl, if_pos (List.any_eq_true.2 ⟨_, hmem, rfl⟩)] at hread
    cases hread

end Hostname

end LocalTopology
