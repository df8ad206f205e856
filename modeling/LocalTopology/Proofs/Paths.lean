import LocalTopology.Paths.Home
import LocalTopology.Proofs.Text

/-!
# Where joined paths lead

A path extended by a relative one leads through all that both lead through (`components_join`), and
a resolved path is put together from just that (`resolve_eq_ofParts`). A path extended by a name has
a parent, which leads where the path itself does (`exists_parent?_join`), so another extension gives
a path to another name at the same place (`exists_withExtension_join`). Any path that has a parent
is that with a name behind it, or with a step upwards or on the spot (`components_of_parent?`).
-/

namespace LocalTopology

namespace Path

open Text

/-- A name of a directory or a file, in one piece. -/
structure IsName (name : List Char) : Prop where
  nonempty : name ≠ []
  slash : '/' ∉ name
  dot : name ≠ ['.']
  dots : name ≠ ['.', '.']

instance (name : List Char) : Decidable (IsName name) :=
  decidable_of_iff (name ≠ [] ∧ '/' ∉ name ∧ name ≠ ['.'] ∧ name ≠ ['.', '.'])
    ⟨fun ⟨hne, hs, hd, hds⟩ => ⟨hne, hs, hd, hds⟩, fun h => ⟨h.nonempty, h.slash, h.dot, h.dots⟩⟩

theorem IsName.isIdle_eq_false {name : List Char} (h : IsName name) : isIdle name = false := by
  simp [isIdle, h.nonempty, h.dot]

theorem components_eq_filter (path : String) :
    components path = (path.toList.splitOn '/').filter fun p => !isIdle p := by
  unfold components
  congr 1
  funext p
  simp [isIdle, bne]

theorem IsName.isAbsolute_eq_false {name : String} (h : IsName name.toList) :
    isAbsolute name = false := by
  rw [isAbsolute, beq_eq_false_iff_ne]
  exact fun he => h.slash (List.mem_of_mem_head? he)

theorem suffix_join (path : String) {name : String} (h : IsName name.toList) :
    name.toList <:+ (join path name).toList := by
  unfold join
  rw [if_neg (by simp [h.isAbsolute_eq_false])]
  split_ifs
  · exact ⟨path.toList, by simp⟩
  · exact ⟨path.toList ++ ['/'], by simp⟩

theorem IsName.components_eq {name : String} (h : IsName name.toList) :
    components name = [name.toList] := by
  rw [components_eq_filter, List.splitOn_eq_singleton h.slash]
  simp [h.isIdle_eq_false]

/-- The pieces of an extended path are those that it is extended by, behind pieces that lead where
the path does. -/
theorem pieces_join (path : String) {more : String} (h : isAbsolute more = false) :
    ∃ before, (join path more).toList.splitOn '/' = before ++ more.toList.splitOn '/' ∧
      before.filter (fun p => !isIdle p) = components path := by
  unfold join
  rw [h, components_eq_filter, if_neg Bool.false_ne_true]
  rcases List.eq_nil_or_concat path.toList with hp | ⟨cs, c, hp⟩
  · obtain rfl : path = "" := by simpa using hp
    exact ⟨[], by simp, rfl⟩
  · rw [List.concat_eq_append] at hp
    have hne : path.isEmpty = false := by
      rw [← Bool.not_eq_true, String.isEmpty_iff]
      rintro rfl
      simp at hp
    by_cases hc : c = '/'
    · subst hc
      refine ⟨cs.splitOn '/', ?_, ?_⟩
      · simp [hp, List.splitOn_append_cons_self]
      · simp [hp, List.splitOn_append_cons_self, isIdle]
    · refine ⟨path.toList.splitOn '/', ?_, rfl⟩
      have hlast : path.toList.getLast? ≠ some '/' := by
        rw [hp, List.getLast?_concat, Ne, Option.some.injEq]
        exact hc
      simp [hne, hlast, List.splitOn_append_cons_self]

theorem components_join (path : String) {more : String} (h : isAbsolute more = false) :
    components (join path more) = components path ++ components more := by
  obtain ⟨before, hpieces, hbefore⟩ := pieces_join path h
  rw [components_eq_filter, hpieces, List.filter_append, hbefore, ← components_eq_filter]

/-- The pieces behind the root of a path extended by a name are the name behind those of the path.
-/
theorem parts_join (path : String) {name : String} (h : IsName name.toList) :
    ∃ before, parts (join path name) = before ++ [name.toList] ∧
      before.filter (fun p => !isIdle p) = components path ∧ ∀ p ∈ before, '/' ∉ p := by
  obtain ⟨before, hpieces, hbefore⟩ := pieces_join path h.isAbsolute_eq_false
  rw [List.splitOn_eq_singleton h.slash] at hpieces
  have hslash : ∀ p ∈ before, '/' ∉ p := fun p hp =>
    not_mem_of_mem_splitOn (hpieces ▸ List.mem_append_left _ hp)
  unfold parts
  rw [hpieces]
  by_cases ha : isAbsolute (join path name) = true
  · rw [if_pos ha]
    -- The first piece of an absolute path is empty, so it is not the name.
    obtain ⟨cs, hcs⟩ : ∃ cs, (join path name).toList = '/' :: cs := by
      rw [isAbsolute, beq_iff_eq] at ha
      exact List.head?_eq_some_iff.1 ha
    rw [hcs, splitOn_cons_self] at hpieces
    rcases before with _ | ⟨first, before⟩
    · exact absurd (List.cons.inj hpieces).1.symm h.nonempty
    · obtain rfl := (List.cons.inj hpieces).1
      exact ⟨before, rfl, by simpa [isIdle] using hbefore, fun p hp => hslash p (by simp [hp])⟩
  · rw [if_neg ha]
    exact ⟨before, rfl, hbefore, hslash⟩

theorem dropIdle_concat {isAbs : Bool} {name : List Char} (h : isIdle name = false)
    (before : List (List Char)) : dropIdle isAbs (before ++ [name]) = before ++ [name] := by
  rcases before with _ | ⟨first, before⟩
  · have hne : name ≠ [] := by
      rintro rfl
      simp [isIdle] at h
    simp [dropIdle, h, hne]
  · simp [dropIdle, h]

theorem filter_dropWhile_isIdle : ∀ ps : List (List Char),
    (ps.dropWhile isIdle).filter (fun p => !isIdle p) = ps.filter fun p => !isIdle p
  | [] => rfl
  | p :: ps => by
    by_cases hp : isIdle p = true
    · simp [hp, filter_dropWhile_isIdle ps]
    · simp [hp]

theorem filter_dropIdle (isAbs : Bool) (ps : List (List Char)) :
    (dropIdle isAbs ps).filter (fun p => !isIdle p) = ps.filter fun p => !isIdle p := by
  rcases ps with _ | ⟨first, rest⟩
  · rfl
  · have hkept : (rest.reverse.dropWhile isIdle).reverse.filter (fun p => !isIdle p) =
        rest.filter fun p => !isIdle p := by
      rw [List.filter_reverse, filter_dropWhile_isIdle, List.filter_reverse, List.reverse_reverse]
    simp only [dropIdle]
    split_ifs with h
    · -- What is dropped besides the end is a first part that is passed over itself.
      simp only [Bool.and_eq_true, Bool.or_eq_true, beq_iff_eq, List.isEmpty_iff] at h
      have hfirst : isIdle first = true := by
        rcases h.2 with hf | ⟨-, hf⟩
        · simp [isIdle, hf]
        · exact hf
      rw [h.1] at hkept
      simp [hfirst, ← hkept]
    · rw [List.filter_cons, List.filter_cons, hkept]

theorem dropIdle_isPrefix (isAbs : Bool) (ps : List (List Char)) : dropIdle isAbs ps <+: ps := by
  rcases ps with _ | ⟨first, rest⟩
  · exact List.nil_prefix
  · simp only [dropIdle]
    split_ifs
    · exact List.nil_prefix
    · exact (List.prefix_cons_inj first).2 (List.rdropWhile_prefix isIdle rest)

theorem mem_of_mem_dropIdle {isAbs : Bool} {ps : List (List Char)} {p : List Char}
    (h : p ∈ dropIdle isAbs ps) : p ∈ ps :=
  (dropIdle_isPrefix isAbs ps).mem h

theorem ofParts_parts (path : String) : ofParts (isAbsolute path) (parts path) = path := by
  apply String.toList_injective
  rw [ofParts, parts, String.toList_ofList]
  by_cases h : isAbsolute path = true
  · simp only [h, if_true]
    rw [isAbsolute, beq_iff_eq] at h
    obtain ⟨cs, hcs⟩ := List.head?_eq_some_iff.1 h
    rw [hcs, splitOn_cons_self, List.tail_cons, List.intercalate_splitOn]
  · simp only [Bool.eq_false_iff.2 h, Bool.false_eq_true, if_false, List.intercalate_splitOn]

theorem components_ofParts {isAbs : Bool} {ps : List (List Char)} (h : ∀ p ∈ ps, '/' ∉ p) :
    components (ofParts isAbs ps) = ps.filter fun p => !isIdle p := by
  have hjoined : ((['/'].intercalate ps).splitOn '/').filter (fun p => !isIdle p) =
      ps.filter fun p => !isIdle p := by
    by_cases hps : ps = []
    · subst hps
      rfl
    · rw [List.splitOn_intercalate '/' h hps]
  rw [components_eq_filter, ofParts, String.toList_ofList]
  cases isAbs
  · exact hjoined
  · rw [if_pos rfl, splitOn_cons_self, List.filter_cons]
    exact hjoined

/-! ## Absolute paths -/

theorem isAbsolute_join (path more : String) :
    isAbsolute (join path more) = (isAbsolute more || isAbsolute path) := by
  unfold join
  by_cases hm : isAbsolute more = true
  · rw [if_pos hm, hm, Bool.true_or]
  · rw [if_neg hm, Bool.eq_false_iff.2 hm, Bool.false_or]
    rcases hp : path.toList with _ | ⟨c, cs⟩
    · obtain rfl : path = "" := by simpa using hp
      have hempty : isAbsolute "" = false := rfl
      simpa [hempty] using hm
    · split_ifs <;> simp [isAbsolute, hp]

theorem isAbsolute_ofParts {isAbs : Bool} {ps : List (List Char)}
    (hne : isAbs = false → ps.head? ≠ some []) (h : ∀ p ∈ ps, '/' ∉ p) :
    isAbsolute (ofParts isAbs ps) = isAbs := by
  rw [isAbsolute, ofParts, String.toList_ofList]
  cases isAbs with
  | true => rfl
  | false => simpa using head?_intercalate_ne (hne rfl) h

/-- The components that a path leads through, from a directory if it is relative. -/
def componentsFrom (directory path : String) : List (List Char) :=
  if isAbsolute path then components path else components directory ++ components path

theorem mem_componentsFrom {directory path : String} {p : List Char}
    (h : p ∈ componentsFrom directory path) : isIdle p = false ∧ '/' ∉ p := by
  have hkept : ∀ {path : String}, p ∈ components path → isIdle p = false ∧ '/' ∉ p := by
    intro path hp
    rw [components_eq_filter, List.mem_filter, Bool.not_eq_true'] at hp
    exact ⟨hp.2, not_mem_of_mem_splitOn hp.1⟩
  unfold componentsFrom at h
  split_ifs at h
  · exact hkept h
  · rcases List.mem_append.1 h with h | h <;> exact hkept h

theorem resolve_eq_ofParts (directory path : String) :
    resolve directory path =
      ofParts (isAbsolute path || isAbsolute directory) (componentsFrom directory path) := by
  by_cases hp : isAbsolute path = true
  · simp only [resolve, componentsFrom, hp, if_true, Bool.true_or, ofParts]
  · have hrel := Bool.eq_false_iff.2 hp
    simp only [resolve, componentsFrom, hrel, Bool.false_eq_true, if_false, isAbsolute_join,
      Bool.false_or, components_join directory hrel, ofParts]

theorem isAbsolute_resolve (directory path : String) :
    isAbsolute (resolve directory path) = (isAbsolute path || isAbsolute directory) := by
  rw [resolve_eq_ofParts]
  refine isAbsolute_ofParts (fun _ hhead => ?_) fun p hp => (mem_componentsFrom hp).2
  have hidle := (mem_componentsFrom (List.mem_of_mem_head? hhead)).1
  simp [isIdle] at hidle

/-- The parts that are kept start with the first one. -/
theorem head?_dropIdle {isAbs : Bool} {ps : List (List Char)} {p : List Char}
    (h : (dropIdle isAbs ps).head? = some p) : ps.head? = some p := by
  obtain ⟨more, hmore⟩ := dropIdle_isPrefix isAbs ps
  rw [← hmore, List.head?_append, h]
  rfl

theorem slash_not_mem_parts {path : String} {p : List Char} (h : p ∈ parts path) : '/' ∉ p := by
  unfold parts at h
  extract_lets pieces at h
  split_ifs at h
  · exact not_mem_of_mem_splitOn (List.mem_of_mem_tail h)
  · exact not_mem_of_mem_splitOn h

/-- A path that has a parent is the parts of its parent, and a last one. -/
theorem parent?_eq_some {path parent : String} (h : parent? path = some parent) :
    ∃ before last, dropIdle (isAbsolute path) (parts path) = before ++ [last] ∧
      parent = ofParts (isAbsolute path) (dropIdle (isAbsolute path) before) := by
  unfold parent? at h
  extract_lets isAbs at h
  rcases hr : (dropIdle isAbs (parts path)).reverse with _ | ⟨last, before⟩ <;> rw [hr] at h <;>
    cases h
  exact ⟨before.reverse, last, by rw [← List.reverse_cons, ← hr, List.reverse_reverse], rfl⟩

/-- The first part of a relative path is empty only if the path is. -/
theorem eq_empty_of_head?_parts {path : String} (hrel : isAbsolute path = false)
    (h : (parts path).head? = some []) : path = "" := by
  rcases hp : path.toList with _ | ⟨c, cs⟩
  · simpa using hp
  · have hc : c ≠ '/' := fun he => by simp [isAbsolute, hp, he] at hrel
    rw [parts, if_neg (by simp [hrel]), hp] at h
    rcases hs : cs.splitOn '/' with _ | ⟨piece, pieces⟩ <;>
      simp [List.splitOn_cons_eq_if_modifyHead, hc, hs] at h

theorem isAbsolute_of_parent? {path parent : String} (h : parent? path = some parent) :
    isAbsolute parent = isAbsolute path := by
  obtain ⟨before, last, hkept, rfl⟩ := parent?_eq_some h
  have hmem : ∀ p ∈ dropIdle (isAbsolute path) before, p ∈ parts path := fun p hp =>
    mem_of_mem_dropIdle (hkept ▸ List.mem_append_left _ (mem_of_mem_dropIdle hp))
  refine isAbsolute_ofParts (fun hrel hhead => ?_) fun p hp => slash_not_mem_parts (hmem p hp)
  have hfirst : (dropIdle (isAbsolute path) (parts path)).head? = some [] := by
    rw [hkept, List.head?_append, head?_dropIdle hhead]
    rfl
  -- The empty path has no parent.
  obtain rfl := eq_empty_of_head?_parts hrel (head?_dropIdle hfirst)
  cases h

theorem components_eq_filter_parts (path : String) :
    components path = (parts path).filter fun p => !isIdle p := by
  rw [components_eq_filter, parts]
  split_ifs with h
  · rw [isAbsolute, beq_iff_eq] at h
    obtain ⟨cs, hcs⟩ := List.head?_eq_some_iff.1 h
    simp [hcs, splitOn_cons_self, isIdle]
  · rfl

/-- The part that is kept as the last one leads somewhere, unless it is the only one. -/
theorem last_of_dropIdle {isAbs : Bool} {ps before : List (List Char)} {last : List Char}
    (h : dropIdle isAbs ps = before ++ [last]) :
    last ≠ [] ∧ (isIdle last = true → before = []) := by
  rcases ps with _ | ⟨first, rest⟩
  · simp [dropIdle] at h
  simp only [dropIdle] at h
  rcases hkept : rest.reverse.dropWhile isIdle with _ | ⟨p, kept⟩
  · rw [hkept] at h
    split_ifs at h with hc
    · simp at h
    · obtain ⟨hbefore, hlast⟩ : [] = before ∧ [first] = [last] := List.append_inj' h rfl
      obtain rfl := List.singleton_inj.1 hlast
      simp at hc
      exact ⟨hc.1, fun _ => hbefore.symm⟩
  · have hp : isIdle p = false := by
      have := List.head?_dropWhile_not isIdle rest.reverse
      simpa [hkept] using this
    rw [hkept, if_neg (by simp), List.reverse_cons, ← List.cons_append] at h
    obtain ⟨-, hlast⟩ := List.append_inj' h rfl
    obtain rfl := List.singleton_inj.1 hlast
    refine ⟨?_, fun hidle => ?_⟩
    · rintro rfl
      simp [isIdle] at hp
    · rw [hp] at hidle
      cases hidle

/-- Going up makes a path shorter. -/
theorem length_lt_of_parent? {path parent : String} (h : parent? path = some parent) :
    parent.length < path.length := by
  obtain ⟨before, last, hkept, hparent⟩ := parent?_eq_some h
  obtain ⟨more, hmore⟩ := hkept ▸ dropIdle_isPrefix (isAbsolute path) (parts path)
  obtain ⟨idle, hidle⟩ := dropIdle_isPrefix (isAbsolute path) before
  have hparts : parts path = dropIdle (isAbsolute path) before ++ (idle ++ last :: more) := by
    rw [← hmore, ← List.append_assoc, hidle, List.append_assoc, List.singleton_append]
  have hne : idle ++ last :: more ≠ [] := by simp
  have hlength : ∀ ps, (ofParts (isAbsolute path) ps).length =
      (['/'].intercalate ps).length + if isAbsolute path then 1 else 0 := by
    intro ps
    rw [ofParts, String.length_ofList]
    split_ifs <;> rfl
  have hpath := hlength (parts path)
  rw [ofParts_parts, hparts] at hpath
  rw [hparent, hlength, hpath, Nat.add_lt_add_iff_right]
  rcases dropIdle (isAbsolute path) before with _ | ⟨first, kept⟩
  · rw [List.intercalate_nil, List.length_nil, List.length_pos_iff, Ne, intercalate_eq_nil_iff,
      not_or]
    refine ⟨by simp, fun hsingle => (last_of_dropIdle hkept).1 ?_⟩
    rcases idle with _ | ⟨p, idle⟩ <;> simp at hsingle
    exact hsingle.1
  · rw [intercalate_append hne (List.cons_ne_nil first kept), List.length_append,
      List.length_append, List.length_singleton]
    omega

/-- Only an absolute path that leads nowhere, or the empty one, has no parent. -/
theorem of_parent?_eq_none {path : String} (h : parent? path = none) :
    if isAbsolute path then components path = [] else path = "" := by
  have hnil : dropIdle (isAbsolute path) (parts path) = [] := by
    unfold parent? at h
    extract_lets isAbs at h
    rcases hr : (dropIdle isAbs (parts path)).reverse with _ | ⟨last, before⟩ <;> rw [hr] at h
    · exact List.reverse_eq_nil_iff.1 hr
    · cases h
  split_ifs with habs
  · rw [components_eq_filter_parts, ← filter_dropIdle (isAbsolute path), hnil, List.filter_nil]
  · have hrel := Bool.eq_false_iff.2 habs
    refine eq_empty_of_head?_parts hrel ?_
    rcases hparts : parts path with _ | ⟨first, rest⟩
    · rw [parts, if_neg habs] at hparts
      exact absurd hparts (List.splitOn_ne_nil _ _)
    · rw [hparts, hrel] at hnil
      simp only [dropIdle, Bool.false_and, Bool.or_false] at hnil
      split_ifs at hnil with hfirst
      rw [Bool.and_eq_true, beq_iff_eq] at hfirst
      rw [List.head?_cons, hfirst.2]

/-- The last part of a path that has a parent is its name, unless it is a step. -/
theorem components_of_parent? {path parent : String} (h : parent? path = some parent) :
    (∃ name, fileName? path = some name ∧ IsName name.toList ∧
        components path = components parent ++ [name.toList]) ∨
      fileName? path = none ∧ (components path = components parent ++ [['.', '.']] ∨
        components path = [] ∧ components parent = []) := by
  obtain ⟨before, last, hkept, rfl⟩ := parent?_eq_some h
  obtain ⟨hne, honly⟩ := last_of_dropIdle hkept
  have hslash : ∀ p ∈ before ++ [last], '/' ∉ p := fun p hp =>
    slash_not_mem_parts (mem_of_mem_dropIdle (hkept ▸ hp))
  have hparent : components (ofParts (isAbsolute path) (dropIdle (isAbsolute path) before)) =
      before.filter fun p => !isIdle p := by
    rw [components_ofParts fun p hp => hslash p (List.mem_append_left _ (mem_of_mem_dropIdle hp)),
      filter_dropIdle]
  have hpath : components path = before.filter (fun p => !isIdle p) ++
      [last].filter fun p => !isIdle p := by
    rw [components_eq_filter_parts, ← filter_dropIdle (isAbsolute path), hkept, List.filter_append]
  have hname : fileName? path =
      if last == ['.'] || last == ['.', '.'] then none else some (String.ofList last) := by
    rw [fileName?, hkept, List.getLast?_concat]
  rw [hparent, hpath, hname]
  by_cases hdot : last = ['.']
  · obtain rfl := honly (by simp [hdot, isIdle])
    exact .inr ⟨by simp [hdot], .inr ⟨by simp [hdot, isIdle], rfl⟩⟩
  have hidle : isIdle last = false := by simp [isIdle, hne, hdot]
  by_cases hdots : last = ['.', '.']
  · exact .inr ⟨by simp [hdots], .inl (by simp [hdots, isIdle])⟩
  · refine .inl ⟨String.ofList last, by simp [hdot, hdots], ?_, by simp [hidle]⟩
    rw [String.toList_ofList]
    exact ⟨hne, hslash last (by simp), hdot, hdots⟩

/-- A path extended by a name has a parent, which leads where the path does. -/
theorem exists_parent?_join (path : String) {name : String} (h : IsName name.toList) :
    ∃ q, parent? (join path name) = some q ∧ components q = components path := by
  obtain ⟨before, hparts, hbefore, hslash⟩ := parts_join path h
  refine ⟨ofParts (isAbsolute (join path name)) (dropIdle (isAbsolute (join path name)) before),
    ?_, ?_⟩
  · unfold parent?
    simp only [hparts, dropIdle_concat h.isIdle_eq_false, List.reverse_append,
      List.reverse_singleton, List.singleton_append, List.reverse_reverse]
  · rw [components_ofParts fun p hp => hslash p (mem_of_mem_dropIdle hp), filter_dropIdle, hbefore]

theorem fileName?_join (path : String) {name : String} (h : IsName name.toList) :
    fileName? (join path name) = some name := by
  obtain ⟨before, hparts, -, -⟩ := parts_join path h
  unfold fileName?
  simp [hparts, dropIdle_concat h.isIdle_eq_false, h.dot, h.dots]

/-- Another extension gives another name at the same place. -/
theorem exists_withExtension_join (path extension : String) {name : String}
    (h : IsName name.toList) : ∃ q,
      withExtension (join path name) extension = join q (stem name ++ "." ++ extension) ∧
        components q = components path := by
  obtain ⟨q, hq, hcomponents⟩ := exists_parent?_join path h
  refine ⟨q, ?_, hcomponents⟩
  unfold withExtension withFileName
  simp only [fileName?_join path h, hq, Option.getD_some]

end Path

end LocalTopology
