import LocalTopology.Hostname
import LocalTopology.Proofs.Text

/-!
# The grammar of accepted hosts

A pattern matches exactly the texts that it describes (`Pattern.isMatch_iff`): what it leaves of a
text are the ends of it behind a described beginning. So the two patterns, with the search for
hyphens in front of the first dot, accept a label, a family and a domain, one behind the other and
nothing else (`isWildcardHost_iff`). That holds of hosts whose case is folded, and folding the case
of an ASCII host is putting its capitals in lower case.
-/

namespace LocalTopology

namespace Text

namespace Pattern

/-- The texts that a pattern describes. -/
def Describes : Pattern → List Char → Prop
  | one p, cs => ∃ c, p c = true ∧ cs = [c]
  | many p, cs => ∀ c ∈ cs, p c = true
  | oneOf texts, cs => ∃ t ∈ texts, cs = t.toList
  | optional a, cs => cs = [] ∨ a.Describes cs
  | followedBy a b, cs => ∃ x y, cs = x ++ y ∧ a.Describes x ∧ b.Describes y

theorem mem_restsOfMany {p : Char → Bool} {r : List Char} : ∀ {cs : List Char},
    r ∈ restsOfMany p cs ↔ ∃ x, cs = x ++ r ∧ ∀ c ∈ x, p c = true
  | [] => by
    simp only [restsOfMany, List.mem_singleton, List.nil_eq_append_iff]
    constructor
    · rintro rfl
      exact ⟨[], ⟨rfl, rfl⟩, by simp⟩
    · rintro ⟨x, ⟨-, hr⟩, -⟩
      exact hr
  | c :: cs => by
    have ih := @mem_restsOfMany p r cs
    unfold restsOfMany
    rw [List.mem_cons]
    constructor
    · rintro (rfl | hr)
      · exact ⟨[], rfl, by simp⟩
      · split_ifs at hr with hc
        · obtain ⟨x, rfl, hx⟩ := ih.1 hr
          refine ⟨c :: x, rfl, fun d hd => ?_⟩
          rcases List.mem_cons.1 hd with rfl | hd
          · exact hc
          · exact hx d hd
        · cases hr
    · rintro ⟨x, h, hx⟩
      rcases x with _ | ⟨d, x⟩
      · exact .inl h.symm
      · obtain ⟨rfl, rfl⟩ := List.cons.inj h
        rw [if_pos (hx c (by simp))]
        exact .inr (ih.2 ⟨x, rfl, fun e he => hx e (by simp [he])⟩)

/-- What a pattern may leave of a text is what stands behind a beginning that it describes. -/
theorem mem_rests {a : Pattern} : ∀ {cs r : List Char},
    r ∈ a.rests cs ↔ ∃ x, cs = x ++ r ∧ a.Describes x := by
  induction a with
  | one p =>
    intro cs r
    rcases cs with _ | ⟨c, cs⟩
    · simp only [rests, List.not_mem_nil, false_iff]
      rintro ⟨x, h, c, -, rfl⟩
      cases h
    · simp only [rests]
      constructor
      · intro hr
        split_ifs at hr with hc
        · obtain rfl := List.mem_singleton.1 hr
          exact ⟨[c], rfl, c, hc, rfl⟩
        · cases hr
      · rintro ⟨x, h, d, hd, rfl⟩
        obtain ⟨rfl, rfl⟩ := List.cons.inj h
        simp [hd]
  | many p => exact mem_restsOfMany
  | oneOf texts =>
    intro cs r
    simp only [rests, List.mem_filterMap, List.isPrefixOf?_eq_some_iff_append_eq, Describes]
    constructor
    · rintro ⟨t, ht, h⟩
      exact ⟨_, h.symm, t, ht, rfl⟩
    · rintro ⟨x, h, t, ht, rfl⟩
      exact ⟨t, ht, h.symm⟩
  | optional a ih =>
    intro cs r
    simp only [rests, List.mem_cons, Describes]
    constructor
    · rintro (rfl | hr)
      · exact ⟨[], rfl, .inl rfl⟩
      · obtain ⟨x, h, hx⟩ := ih.1 hr
        exact ⟨x, h, .inr hx⟩
    · rintro ⟨x, h, rfl | hx⟩
      · exact .inl h.symm
      · exact .inr (ih.2 ⟨x, h, hx⟩)
  | followedBy a b iha ihb =>
    intro cs r
    simp only [rests, List.mem_flatMap, Describes]
    constructor
    · rintro ⟨s, hs, hr⟩
      obtain ⟨x, rfl, hx⟩ := iha.1 hs
      obtain ⟨y, rfl, hy⟩ := ihb.1 hr
      exact ⟨x ++ y, by simp, x, y, rfl, hx, hy⟩
    · rintro ⟨z, h, x, y, rfl, hx, hy⟩
      rw [List.append_assoc] at h
      exact ⟨y ++ r, iha.2 ⟨x, h, hx⟩, ihb.2 ⟨y, rfl, hy⟩⟩

theorem isMatch_iff {a : Pattern} {cs : List Char} : a.isMatch cs = true ↔ a.Describes cs := by
  unfold isMatch
  rw [List.any_eq_true]
  constructor
  · rintro ⟨r, hr, he⟩
    obtain ⟨x, rfl, hx⟩ := mem_rests.1 hr
    obtain rfl := List.isEmpty_iff.1 he
    rwa [List.append_nil]
  · intro h
    exact ⟨[], mem_rests.2 ⟨cs, by simp, h⟩, rfl⟩

end Pattern

end Text

namespace Hostname

open Text

/-! ## Characters -/

theorem foldChar_eq_iff {c d : Char} (hd : d.val < 65) : foldChar c = d ↔ c = d := by
  have hs : ¬ 's' = d := by
    rintro rfl
    exact absurd hd (by decide)
  have hk : ¬ 'k' = d := by
    rintro rfl
    exact absurd hd (by decide)
  unfold foldChar
  split_ifs with h₁ h₂
  · have : ¬ c = d := by
      rintro rfl
      rw [h₁] at hd
      exact absurd hd (by decide)
    simp [hs, this]
  · have : ¬ c = d := by
      rintro rfl
      rw [h₂] at hd
      exact absurd hd (by decide)
    simp [hk, this]
  · exact toLower_eq_iff hd

theorem foldChar_of_ascii {c : Char} (h : c.val < 128) : foldChar c = c.toLower := by
  unfold foldChar
  split_ifs with h₁ h₂
  · rw [h₁] at h
    exact absurd h (by decide)
  · rw [h₂] at h
    exact absurd h (by decide)
  · rfl

theorem toLower_foldChar (c : Char) : (foldChar c).toLower = foldChar c := by
  unfold foldChar
  split_ifs
  · rfl
  · rfl
  · exact toLower_toLower c

/-! ## Hyphens -/

theorem hasDoubleHyphen_iff {cs : List Char} :
    hasDoubleHyphen cs = true ↔ ['-', '-'] <:+: cs := by
  fun_induction hasDoubleHyphen cs with
  | case1 cs => exact iff_of_true rfl ⟨[], cs, rfl⟩
  | case2 c cs hne ih =>
    rw [ih, List.infix_cons_iff]
    refine (or_iff_right ?_).symm
    rintro ⟨rest, h⟩
    obtain ⟨rfl, h⟩ := List.cons.inj h
    exact hne rest rfl (List.cons.inj h.symm).2
  | case3 => simp

theorem hasDoubleHyphen_map {f : Char → Char} (hf : ∀ c, f c = '-' ↔ c = '-') (cs : List Char) :
    hasDoubleHyphen (cs.map f) = hasDoubleHyphen cs := by
  rw [Bool.eq_iff_iff, hasDoubleHyphen_iff, hasDoubleHyphen_iff]
  constructor
  · rintro ⟨before, after, h⟩
    obtain ⟨x, z, rfl, hx, rfl⟩ := List.map_eq_append_iff.1 h.symm
    obtain ⟨before', y, rfl, rfl, hy⟩ := List.map_eq_append_iff.1 hx
    obtain ⟨a, b, rfl⟩ : ∃ a b, y = [a, b] :=
      List.length_eq_two.1 (by simpa using congrArg List.length hy)
    simp only [List.map_cons, List.map_nil, List.cons.injEq, hf, and_true] at hy
    exact ⟨before', z, by simp [hy]⟩
  · rintro ⟨before, after, rfl⟩
    exact ⟨before.map f, after.map f, by simp [(hf '-').2 rfl]⟩

/-! ## Labels -/

/-- A label is made of letters, digits and hyphens, with a hyphen neither at its start nor at its
end and no two of them next to each other. -/
structure IsLabel (cs : List Char) : Prop where
  nonempty : cs ≠ []
  chars : ∀ c ∈ cs, c.isAlphanum = true ∨ c = '-'
  head : cs.head? ≠ some '-'
  last : cs.getLast? ≠ some '-'
  single : ¬ ['-', '-'] <:+: cs

theorem describes_label_iff {cs : List Char} : label.Describes cs ↔ cs ≠ [] ∧
    (∀ c ∈ cs, isAlphanumeric c = true ∨ c = '-') ∧ cs.head? ≠ some '-' ∧
      cs.getLast? ≠ some '-' := by
  have hne : ∀ {c}, isAlphanumeric c = true → c ≠ '-' := by
    rintro c hc rfl
    exact absurd hc (by decide)
  simp only [label, Pattern.Describes, Bool.or_eq_true, beq_iff_eq]
  constructor
  · rintro ⟨-, z, rfl, ⟨c, hc, rfl⟩, rfl | ⟨y, -, rfl, hy, d, hd, rfl⟩⟩
    · exact ⟨by simp, by simp [hc], by simpa using hne hc, by simpa using hne hc⟩
    · refine ⟨by simp, fun e he => ?_, by simpa using hne hc, ?_⟩
      · simp only [List.singleton_append, List.mem_cons, List.mem_append] at he
        rcases he with rfl | he | rfl | he
        · exact .inl hc
        · exact hy e he
        · exact .inl hd
        · cases he
      · rw [← List.append_assoc, List.getLast?_concat]
        simpa using hne hd
  · rintro ⟨hnil, hall, hhead, hlast⟩
    obtain ⟨c, rest, rfl⟩ := List.exists_cons_of_ne_nil hnil
    have hc : isAlphanumeric c = true := (hall c (by simp)).resolve_right (by simpa using hhead)
    refine ⟨[c], rest, rfl, ⟨c, hc, rfl⟩, ?_⟩
    rcases List.eq_nil_or_concat rest with rfl | ⟨y, d, rfl⟩
    · exact .inl rfl
    · rw [List.concat_eq_append] at hall hlast ⊢
      have hd : isAlphanumeric d = true :=
        (hall d (by simp)).resolve_right (by simpa [List.getLast?_cons] using hlast)
      exact .inr ⟨y, [d], rfl, fun e he => hall e (by simp [he]), d, hd, rfl⟩

theorem isAlphanum_eq_true_iff {c : Char} :
    c.isAlphanum = true ↔ (65 ≤ c.val ∧ c.val ≤ 90) ∨ isAlphanumeric c = true := by
  have hupper : c.isUpper = true ↔ 65 ≤ c.val ∧ c.val ≤ 90 := decide_eq_true_iff
  rw [isAlphanumeric, Bool.or_eq_true, ← hupper, or_comm (a := c.isDigit = true), ← or_assoc,
    ← Bool.or_eq_true, ← Bool.or_eq_true]
  rfl

theorem toLower_of_isAlphanum {c : Char} (h : c.isAlphanum = true) :
    isAlphanumeric c.toLower = true := by
  by_cases hu : 65 ≤ c.val ∧ c.val ≤ 90
  · have hv : c.toLower.val = c.val + 32 := congrArg Char.val (dif_pos hu)
    have hbounds : 97 ≤ c.toLower.val ∧ c.toLower.val ≤ 122 := by
      simp only [hv, UInt32.le_iff_toNat_le, UInt32.toNat_add] at hu ⊢
      simp at hu ⊢
      omega
    have hlower : c.toLower.isLower = true :=
      (Bool.and_eq_true _ _).mpr (hbounds.imp decide_eq_true decide_eq_true)
    rw [isAlphanumeric, hlower, Bool.or_true]
  · rw [toLower_eq_self hu]
    exact (isAlphanum_eq_true_iff.1 h).resolve_left hu

/-- A text in lower case is a label if the pattern describes it and no two hyphens are next to each
other in it. -/
theorem IsLabel.of_describes {cs : List Char} (h : label.Describes cs)
    (hyphens : hasDoubleHyphen cs = false) : IsLabel cs := by
  obtain ⟨hnil, hall, hhead, hlast⟩ := describes_label_iff.1 h
  refine ⟨hnil, fun c hc => (hall c hc).imp (isAlphanum_eq_true_iff.2 ∘ .inr) id, hhead, hlast, ?_⟩
  rw [← hasDoubleHyphen_iff, hyphens]
  exact Bool.false_ne_true

theorem IsLabel.map_toLower {cs : List Char} (h : IsLabel cs) :
    label.Describes (cs.map Char.toLower) ∧ hasDoubleHyphen (cs.map Char.toLower) = false := by
  have hyphen : ∀ c : Char, c.toLower = '-' ↔ c = '-' := fun c => toLower_eq_iff (by decide)
  constructor
  · refine describes_label_iff.2 ⟨by simpa using h.nonempty, fun c hc => ?_, ?_, ?_⟩
    · obtain ⟨d, hd, rfl⟩ := List.mem_map.1 hc
      exact (h.chars d hd).imp toLower_of_isAlphanum (hyphen d).2
    · simpa [List.head?_map, hyphen] using h.head
    · simpa [List.getLast?_map, hyphen] using h.last
  · rw [hasDoubleHyphen_map hyphen, ← Bool.not_eq_true, hasDoubleHyphen_iff]
    exact h.single

/-! ## Hosts -/

theorem describes_underFamily_iff {domain : Pattern} {cs : List Char} :
    (underFamily domain).Describes cs ↔ ∃ l, label.Describes l ∧ ∃ family ∈ productFamilies,
      ∃ rest, domain.Describes rest ∧ cs = l ++ '.' :: (family.toList ++ rest) := by
  simp only [underFamily, Pattern.Describes, List.mem_singleton]
  constructor
  · rintro ⟨l, -, rfl, hl, -, -, rfl, ⟨-, rfl, rfl⟩, -, rest, rfl, ⟨family, hf, rfl⟩, hr⟩
    exact ⟨l, hl, family, hf, rest, hr, rfl⟩
  · rintro ⟨l, hl, family, hf, rest, hr, rfl⟩
    exact ⟨l, _, rfl, hl, _, _, rfl, ⟨_, rfl, rfl⟩, _, rest, rfl, ⟨family, hf, rfl⟩, hr⟩

theorem describes_localDomain_iff {cs : List Char} :
    (Pattern.followedBy (.optional (.oneOf ["-dev"])) (.oneOf [".localhost"])).Describes cs ↔
      ∃ domain ∈ [".localhost", "-dev.localhost"], cs = domain.toList := by
  simp only [Pattern.Describes, exists_eq_left, List.mem_cons, List.not_mem_nil, or_false,
    exists_eq_or_imp]
  constructor
  · rintro ⟨-, -, rfl, rfl | rfl, rfl⟩
    · exact .inl rfl
    · exact .inr (by decide)
  · rintro (rfl | rfl)
    · exact ⟨[], _, rfl, .inl rfl, rfl⟩
    · exact ⟨_, _, by decide, .inr rfl, rfl⟩

theorem describes_cloudDomain_iff {cs : List Char} :
    (Pattern.followedBy (.oneOf ["-"])
      (.followedBy (.oneOf ["dev", "local"]) (.oneOf [".com"]))).Describes cs ↔
        ∃ domain ∈ ["-dev.com", "-local.com"], cs = domain.toList := by
  simp only [Pattern.Describes, exists_eq_left, List.mem_cons, List.not_mem_nil, or_false,
    exists_eq_or_imp]
  constructor
  · rintro ⟨-, -, rfl, rfl, -, -, rfl, rfl | rfl, rfl⟩
    · exact .inl (by decide)
    · exact .inr (by decide)
  · rintro (rfl | rfl)
    · exact ⟨_, _, rfl, rfl, _, _, rfl, .inl rfl, rfl⟩
    · exact ⟨_, _, rfl, rfl, _, _, rfl, .inr rfl, rfl⟩

/-- Both patterns together describe a label, a dot, a family and one of four domains. -/
theorem describes_wildcard_iff {cs : List Char} :
    localWildcard.Describes cs ∨ cloudWildcard.Describes cs ↔
      ∃ l, label.Describes l ∧ ∃ family ∈ productFamilies,
        ∃ domain ∈ [".localhost", "-dev.localhost"] ++ ["-dev.com", "-local.com"],
          cs = l ++ '.' :: (family.toList ++ domain.toList) := by
  simp only [localWildcard, cloudWildcard, describes_underFamily_iff, describes_localDomain_iff,
    describes_cloudDomain_iff]
  constructor
  · rintro (⟨l, hl, family, hf, _, ⟨domain, hd, rfl⟩, h⟩ |
      ⟨l, hl, family, hf, _, ⟨domain, hd, rfl⟩, h⟩)
    · exact ⟨l, hl, family, hf, domain, List.mem_append_left _ hd, h⟩
    · exact ⟨l, hl, family, hf, domain, List.mem_append_right _ hd, h⟩
  · rintro ⟨l, hl, family, hf, domain, hd, h⟩
    rcases List.mem_append.1 hd with hd | hd
    · exact .inl ⟨l, hl, family, hf, _, ⟨domain, hd, rfl⟩, h⟩
    · exact .inr ⟨l, hl, family, hf, _, ⟨domain, hd, rfl⟩, h⟩

/-- But for the case of its letters, a host is a label, a dot, a family and a domain. -/
def IsFamilyHost (host : String) : Prop :=
  ∃ label : String, IsLabel label.toList ∧ ∃ family ∈ ["officevibe", "sharegate", "workleap"],
    ∃ domain ∈ [".localhost", "-dev.localhost", "-dev.com", "-local.com"],
      foldCase host = foldCase (label ++ "." ++ family ++ domain)

theorem isWildcardHost_eq_true_iff {host : String} : isWildcardHost host = true ↔
    ∃ l rest, cutFirst? '.' (host.toList.map foldChar) = some (l, rest) ∧
      hasDoubleHyphen l = false ∧ (localWildcard.Describes (host.toList.map foldChar) ∨
        cloudWildcard.Describes (host.toList.map foldChar)) := by
  unfold isWildcardHost
  rw [cutFirst?_map fun c => foldChar_eq_iff (by decide)]
  rcases cutFirst? '.' host.toList with _ | ⟨l, rest⟩
  · simp
  · simp [hasDoubleHyphen_map fun c => foldChar_eq_iff (c := c) (d := '-') (by decide),
      Pattern.isMatch_iff]

theorem not_mem_of_describes {l : List Char} (h : label.Describes l) : '.' ∉ l := by
  intro hm
  rcases (describes_label_iff.1 h).2.1 '.' hm with h | h
  · exact absurd h (by decide)
  · exact absurd h (by decide)

/-- The policy accepts a host by its letters in folded case. -/
theorem isWildcardHost_iff {host : String} : isWildcardHost host = true ↔
    IsFamilyHost (String.ofList (host.toList.map foldChar)) := by
  have hlower : (host.toList.map foldChar).map Char.toLower = host.toList.map foldChar := by
    simp [toLower_foldChar]
  rw [isWildcardHost_eq_true_iff, describes_wildcard_iff]
  generalize host.toList.map foldChar = cs at hlower
  constructor
  · rintro ⟨before, rest, hcut, hyphens, l, hl, family, hf, domain, hd, rfl⟩
    obtain ⟨rfl, rfl⟩ : l = before ∧ _ = rest := by
      simpa [cutFirst?_eq_some_iff.2 ⟨rfl, not_mem_of_describes hl⟩] using hcut
    refine ⟨String.ofList l, ?_, family, hf, domain, hd, ?_⟩
    · rw [String.toList_ofList]
      exact .of_describes hl hyphens
    · congr 1
      exact String.toList_inj.1 (by simp)
  · rintro ⟨l, hl, family, hf, domain, hd, h⟩
    have hcs : cs = l.toList.map Char.toLower ++ '.' :: (family.toList ++ domain.toList) := by
      have h := congrArg String.toList h
      simp only [foldCase, String.toList_ofList, hlower, String.toList_append, List.map_append] at h
      have hfamily : ∀ s ∈ ["officevibe", "sharegate", "workleap"],
          s.toList.map Char.toLower = s.toList := by decide
      have hdomain : ∀ s ∈ [".localhost", "-dev.localhost", "-dev.com", "-local.com"],
          s.toList.map Char.toLower = s.toList := by decide
      rw [h, hfamily family hf, hdomain domain hd]
      simp
    obtain ⟨hdescribes, hyphens⟩ := hl.map_toLower
    refine ⟨_, family.toList ++ domain.toList, ?_, hyphens, _, hdescribes, family, hf, domain, hd,
      hcs⟩
    rw [hcs]
    exact cutFirst?_eq_some_iff.2 ⟨rfl, not_mem_of_describes hdescribes⟩

theorem ne_empty_of_isAccepted {host : String} (h : isAccepted host = true) : host ≠ "" := by
  rintro rfl
  exact absurd h (by decide)

/-- No slash stands in an accepted host, as none equals a letter, digit, hyphen or dot when case is
folded. -/
theorem slash_not_mem_of_isAccepted {host : String} (h : isAccepted host = true) :
    '/' ∉ host.toList := by
  intro hm
  unfold isAccepted at h
  rw [Bool.or_eq_true, List.any_eq_true] at h
  rcases h with ⟨fixed, hf, h⟩ | h
  · rw [sameFolded, beq_iff_eq] at h
    have hfolded : '/' ∈ (foldCase fixed).toList := by
      rw [h, foldCase, String.toList_ofList]
      exact List.mem_map.2 ⟨'/', hm, rfl⟩
    have hnone : ∀ fixed ∈ fixedHosts, '/' ∉ (foldCase fixed).toList := by decide
    exact hnone fixed hf hfolded
  · obtain ⟨-, -, -, -, h⟩ := isWildcardHost_eq_true_iff.1 h
    obtain ⟨l, hl, family, hf, domain, hd, h⟩ := describes_wildcard_iff.1 h
    have hfolded : '/' ∈ l ++ '.' :: (family.toList ++ domain.toList) := by
      rw [← h]
      exact List.mem_map.2 ⟨'/', hm, by decide⟩
    have hfamily : ∀ family ∈ productFamilies, '/' ∉ family.toList := by decide
    have hdomain : ∀ domain ∈ [".localhost", "-dev.localhost"] ++ ["-dev.com", "-local.com"],
        '/' ∉ domain.toList := by decide
    rw [List.mem_append, List.mem_cons, List.mem_append] at hfolded
    rcases hfolded with hm | hm | hm | hm
    · rcases (describes_label_iff.1 hl).2.1 '/' hm with h | h <;> exact absurd h (by decide)
    · exact absurd hm (by decide)
    · exact hfamily family hf hm
    · exact hdomain domain hd hm

theorem foldCase_eq_of_ascii {host : String} (h : ∀ c ∈ host.toList, c.val < 128) :
    String.ofList (host.toList.map foldChar) = foldCase host := by
  unfold foldCase
  congr 1
  exact List.map_congr_left fun c hc => foldChar_of_ascii (h c hc)

/-- An ASCII host is accepted if, but for the case of its letters, it is one of the fixed names or a
label, a dot, a family and a domain, and is a wildcard host in the latter case. -/
theorem isAccepted_iff {host : String} (h : ∀ c ∈ host.toList, c.val < 128) :
    (isAccepted host = true ↔ (∃ fixed ∈ ["host.docker.internal", "gateway.docker.internal",
      "host.containers.internal"], foldCase host = foldCase fixed) ∨ IsFamilyHost host) ∧
        (isWildcardHost host = true ↔ IsFamilyHost host) := by
  have hwild : isWildcardHost host = true ↔ IsFamilyHost host := by
    rw [isWildcardHost_iff, foldCase_eq_of_ascii h, IsFamilyHost, foldCase_foldCase, IsFamilyHost]
  refine ⟨?_, hwild⟩
  unfold isAccepted
  rw [Bool.or_eq_true, hwild, List.any_eq_true]
  refine or_congr_left (exists_congr fun fixed => and_congr_right fun _ => ?_)
  rw [sameFolded, beq_iff_eq, eq_comm]

/-- Capitals and single hyphens do no harm, two hyphens next to each other do. -/
theorem isAccepted_iff_workleap :
    (∀ c ∈ "My-App2.WorkLeap-Dev.com".toList, c.val < 128) ∧
      IsFamilyHost "My-App2.WorkLeap-Dev.com" ∧
        (∀ c ∈ "my--app.workleap.localhost".toList, c.val < 128) ∧
          ¬ IsFamilyHost "my--app.workleap.localhost" := by
  have hcapitals : ∀ c ∈ "My-App2.WorkLeap-Dev.com".toList, c.val < 128 :=
    List.forall_iff_forall_mem.1 (by decide)
  have hhyphens : ∀ c ∈ "my--app.workleap.localhost".toList, c.val < 128 :=
    List.forall_iff_forall_mem.1 (by decide)
  refine ⟨hcapitals, (isAccepted_iff hcapitals).2.1 ?_, hhyphens, fun h => ?_⟩
  · decide
  · have := (isAccepted_iff hhyphens).2.2 h
    exact absurd this (by decide)

end Hostname

end LocalTopology
