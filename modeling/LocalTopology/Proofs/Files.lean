import LocalTopology.Proofs.Maps
import LocalTopology.Proofs.Paths
import LocalTopology.System.FileTree

/-!
# What actions do to files

Where directories stand all along the way, a path leads to its place, whatever else is in the tree
(`locate_of_passes`). There writing, removing and renaming touch the places of their paths and no
other, unless a directory stands in the way (`write_of_passes`, `rename_of_passes`) or the path is
not that of a file (`rename_eq_error`), and creating missing directories adds directories and
nothing else (`makeDirectories_eq_ok`). Where only directories hold anything, moving a file moves
nothing besides (`IsTree.get?_move`).
-/

namespace LocalTopology

namespace FileTree

/-! ## What stands at a place -/

section Lookups

variable {α : Type} {k l : Location}

theorem lookup_filter_ne (es : List (Location × α)) :
    (es.filter (·.1 != l)).lookup k = if k = l then none else es.lookup k := by
  induction es with
  | nil => simp
  | cons e es ih =>
    rw [Entries.lookup_cons_eq_ite k e es]
    by_cases he : e.1 = l
    · rw [List.filter_cons, if_neg (by simp [he]), ih, he]
      split_ifs <;> rfl
    · rw [List.filter_cons, if_pos (by simp [he]), Entries.lookup_cons_eq_ite, ih]
      by_cases hk : k = e.1
      · rw [if_pos hk, if_pos hk, if_neg (fun h => he (hk.symm.trans h))]
      · rw [if_neg hk, if_neg hk]

theorem lookup_map_of_iff {f : Location → Location} : ∀ {es : List (Location × α)},
    (∀ e ∈ es, f e.1 = k ↔ e.1 = l) → (es.map fun e => (f e.1, e.2)).lookup k = es.lookup l
  | [], _ => rfl
  | e :: es, h => by
    have ih : (es.map fun e => (f e.1, e.2)).lookup k = es.lookup l :=
      lookup_map_of_iff fun d hd => h d (List.mem_cons_of_mem _ hd)
    have he := h e List.mem_cons_self
    rw [List.map_cons, Entries.lookup_cons_eq_ite, Entries.lookup_cons_eq_ite, ih]
    by_cases hl : e.1 = l
    · rw [if_pos hl.symm, if_pos (he.2 hl).symm]
    · rw [if_neg (Ne.symm hl), if_neg fun hk => hl (he.1 hk.symm)]

end Lookups

variable {t t' : FileTree} {k l : Location}

theorem get?_of_ne (h : l ≠ []) : t.get? l = t.entries.lookup l := by
  rw [get?, if_neg (by simpa using h)]

theorem get?_set (e : Entry) (hl : l ≠ []) :
    (t.set l e).get? k = if k = l then some e else t.get? k := by
  by_cases hk : k = []
  · subst hk
    simp [get?, Ne.symm hl]
  · rw [get?_of_ne hk, get?_of_ne hk, set, List.lookup_append, lookup_filter_ne]
    split_ifs with h
    · simp [h]
    · have hn : [(l, e)].lookup k = none := by simpa [List.lookup_eq_none_iff] using h
      rw [hn, Option.or_none]

theorem get?_erase (hl : l ≠ []) :
    (t.erase l).get? k = if k = l then none else t.get? k := by
  by_cases hk : k = []
  · subst hk
    simp [get?, Ne.symm hl]
  · rw [get?_of_ne hk, get?_of_ne hk, erase, lookup_filter_ne]

theorem behind?_eq_some_iff : ∀ {l k more : Location}, behind? l k = some more ↔ k = l ++ more
  | [], k, more => by simp [behind?]
  | a :: l, [], more => by simp [behind?]
  | a :: l, b :: k, more => by
    by_cases h : a = b
    · simp [behind?, h, @behind?_eq_some_iff l k more]
    · simp [behind?, h, Ne.symm h]

/-- Where something that stands at a place is after a move. -/
def moved (source target l : Location) : Location :=
  match behind? source l with
  | some more => target ++ more
  | none => l

theorem entries_move (t : FileTree) (source target : Location) :
    (t.move source target).entries =
      (t.erase target).entries.map fun e => (moved source target e.1, e.2) := by
  refine List.map_congr_left fun ⟨l, e⟩ _ => ?_
  simp only [moved]
  cases behind? source l <;> rfl

theorem moved_cases (source target l : Location) :
    (∃ more, l = source ++ more ∧ moved source target l = target ++ more) ∨
      (¬ source <+: l ∧ moved source target l = l) := by
  unfold moved
  rcases h : behind? source l with _ | more
  · refine .inr ⟨?_, rfl⟩
    rintro ⟨more, rfl⟩
    rw [behind?_eq_some_iff.2 rfl] at h
    cases h
  · exact .inl ⟨more, behind?_eq_some_iff.1 h, rfl⟩

section Moving

variable {source target : Location}

theorem get?_move_target (hs : source ≠ []) (ht : target ≠ []) (hst : source ≠ target) :
    (t.move source target).get? target = t.get? source := by
  have hlookup : (t.move source target).entries.lookup target =
      (t.erase target).entries.lookup source := by
    rw [entries_move]
    refine lookup_map_of_iff fun e he => ?_
    have hne : e.1 ≠ target := by simpa using (List.mem_filter.1 he).2
    rcases moved_cases source target e.1 with ⟨more, hl, hm⟩ | ⟨hl, hm⟩
    · rw [hm, hl]
      simp
    · rw [hm]
      refine iff_of_false hne ?_
      rintro rfl
      exact hl (List.prefix_refl _)
  rw [get?_of_ne ht, hlookup, ← get?_of_ne hs, get?_erase ht, if_neg hst]

theorem get?_move_source (hs : source ≠ []) (hts : ¬ target <+: source) :
    (t.move source target).get? source = none := by
  rw [get?_of_ne hs, entries_move, List.lookup_eq_none_iff]
  intro e he
  obtain ⟨d, -, rfl⟩ := List.mem_map.1 he
  rw [bne_iff_ne]
  rcases moved_cases source target d.1 with ⟨more, -, hm⟩ | ⟨hl, hm⟩ <;> rw [hm]
  · exact fun h => hts ⟨more, h.symm⟩
  · rintro rfl
    exact hl (List.prefix_refl _)

/-- What is behind neither end of a move stays as it is. -/
theorem get?_move_of_not_isPrefix (ht : target ≠ []) (hsk : ¬ source <+: k)
    (htk : ¬ target <+: k) : (t.move source target).get? k = t.get? k := by
  by_cases hk : k = []
  · simp [get?, hk]
  have hne : k ≠ target := by
    rintro rfl
    exact htk (List.prefix_refl _)
  have hlookup : (t.move source target).entries.lookup k = (t.erase target).entries.lookup k := by
    rw [entries_move]
    refine lookup_map_of_iff fun e _ => ?_
    rcases moved_cases source target e.1 with ⟨more, hl, hm⟩ | ⟨-, hm⟩
    · rw [hm, hl]
      refine iff_of_false ?_ ?_
      · exact fun h => htk ⟨more, h⟩
      · exact fun h => hsk ⟨more, h⟩
    · rw [hm]
  rw [get?_of_ne hk, hlookup, ← get?_of_ne hk, get?_erase ht, if_neg hne]

end Moving

theorem get?_ne_none_of_mem {e : Location × Entry} (h : e ∈ t.entries) (hne : e.1 ≠ []) :
    t.get? e.1 ≠ none := by
  rw [get?_of_ne hne, Ne, List.lookup_eq_none_iff]
  intro hall
  simpa using hall e h

/-- Only directories hold anything. -/
def IsTree (t : FileTree) : Prop :=
  ∀ l name e, t.get? (l ++ [name]) = some e → t.get? l = some .directory

theorem isTree_of_entries (h : ∀ e ∈ t.entries, t.get? e.1.dropLast = some .directory) :
    t.IsTree := by
  intro l name e he
  rw [get?_of_ne (by simp)] at he
  obtain ⟨before, after, hentries, -⟩ := List.lookup_eq_some_iff.1 he
  have hdir := h (l ++ [name], e) (by simp [hentries])
  simpa using hdir

/-- What stands anywhere behind a place makes that a directory. -/
theorem IsTree.get?_eq_directory (h : t.IsTree) (hlk : l <+: k) (hne : l ≠ k)
    (hk : t.get? k ≠ none) : t.get? l = some .directory := by
  induction k using List.reverseRecOn with
  | nil => exact absurd (List.prefix_nil.1 hlk) hne
  | append_singleton k name ih =>
    obtain ⟨e, he⟩ := Option.ne_none_iff_exists'.1 hk
    have hdir := h k name e he
    rcases List.prefix_concat_iff.1 hlk with rfl | hlk
    · exact absurd rfl hne
    · by_cases hl : l = k
      · rwa [hl]
      · exact ih hlk hl (by simp [hdir])

theorem IsTree.set (h : t.IsTree) {name : String} (hl : t.get? l = some .directory)
    (hfree : t.get? (l ++ [name]) ≠ some .directory) (e : Entry) :
    (t.set (l ++ [name]) e).IsTree := by
  intro k n e' hk
  rw [get?_set e (by simp)] at hk ⊢
  have hdir : t.get? k = some .directory := by
    split_ifs at hk with heq
    · rwa [(List.append_inj' heq rfl).1]
    · exact h k n e' hk
  rw [if_neg, hdir]
  rintro rfl
  exact hfree hdir

section Moving

variable {source target : Location} {content : ByteArray} {x : Bool}

/-- A file that is moved holds nothing, and neither does what it replaces. -/
theorem IsTree.get?_move (h : t.IsTree) (hs : source ≠ []) (ht : target ≠ [])
    (hst : ¬ source <+: target) (hts : ¬ target <+: source)
    (hsource : t.get? source = some (.file content x))
    (htarget : t.get? target ≠ some .directory) :
    (t.move source target).get? k =
      if k = target then some (.file content x) else if k = source then none else t.get? k := by
  have hne : source ≠ target := fun he => hst (he ▸ List.prefix_refl _)
  by_cases hk : k = target
  · rw [if_pos hk, hk, get?_move_target hs ht hne, hsource]
  by_cases hk' : k = source
  · rw [if_neg hk, if_pos hk', hk', get?_move_source hs hts]
  rw [if_neg hk, if_neg hk']
  by_cases hbehind : source <+: k ∨ target <+: k
  · have hnone : ∀ j, j ≠ source → j ≠ target → source <+: j ∨ target <+: j → t.get? j = none := by
      intro j hjs hjt hj
      by_contra hsome
      rcases hj with hj | hj
      · rw [h.get?_eq_directory hj (Ne.symm hjs) hsome] at hsource
        cases hsource
      · exact htarget (h.get?_eq_directory hj (Ne.symm hjt) hsome)
    have hknil : k ≠ [] := by
      rintro rfl
      rcases hbehind with hb | hb
      · exact hs (List.prefix_nil.1 hb)
      · exact ht (List.prefix_nil.1 hb)
    rw [hnone k hk' hk hbehind, get?_of_ne hknil, entries_move, List.lookup_eq_none_iff]
    intro e he
    obtain ⟨d, hd, rfl⟩ := List.mem_map.1 he
    have hd := (List.mem_filter.1 hd).1
    rw [bne_iff_ne]
    rcases moved_cases source target d.1 with ⟨more, hl, hm⟩ | ⟨-, hm⟩ <;> rw [hm]
    · rintro rfl
      have hmore : more ≠ [] := by
        rintro rfl
        exact hk (List.append_nil _)
      refine get?_ne_none_of_mem hd (by simp [hl, hs]) (hnone _ ?_ ?_ (.inl ⟨more, hl.symm⟩))
      · rw [hl]
        simpa using hmore
      · exact fun he => hst ⟨more, hl.symm.trans he⟩
    · rintro rfl
      exact get?_ne_none_of_mem hd hknil (hnone _ hk' hk hbehind)
  · rw [not_or] at hbehind
    exact get?_move_of_not_isPrefix ht hbehind.1 hbehind.2

theorem IsTree.move (h : t.IsTree) (hs : source ≠ []) (ht : target ≠ [])
    (hst : ¬ source <+: target) (hts : ¬ target <+: source)
    (hsource : t.get? source = some (.file content x))
    (htarget : t.get? target ≠ some .directory)
    (hin : ∀ l name, target = l ++ [name] → t.get? l = some .directory) :
    (t.move source target).IsTree := by
  intro k n e hk
  rw [h.get?_move hs ht hst hts hsource htarget] at hk ⊢
  have hdir : t.get? k = some .directory := by
    split_ifs at hk with heq
    · exact hin k n heq.symm
    · exact h k n e hk
  rw [if_neg, if_neg, hdir]
  · rintro rfl
    rw [hsource] at hdir
    cases hdir
  · rintro rfl
    exact htarget hdir

end Moving

/-! ## Where paths lead -/

/-- Where names lead from a location. -/
def follow (l : Location) (names : List String) : Location :=
  names.foldl (fun l name => if name = ".." then l.dropLast else l ++ [name]) l

/-- The place of a path. -/
def place (path : String) : Location := follow [] (names path)

theorem follow_concat (l : Location) (names : List String) {name : String} (h : name ≠ "..") :
    follow l (names ++ [name]) = follow l names ++ [name] := by
  simp [follow, List.foldl_append, h]

/-- Directories stand all along the way of names from a location, and at all places that lead to
those on the way. -/
def Passes (t : FileTree) (l : Location) (names : List String) : Prop :=
  ∀ before, before <+: names → ∀ k, k <+: follow l before → t.get? k = some .directory

theorem Passes.head {names : List String} (h : t.Passes l names) : t.get? l = some .directory :=
  h [] List.nil_prefix l (List.prefix_refl _)

theorem Passes.tail {name : String} {names : List String} (h : t.Passes l (name :: names)) :
    t.Passes (if name = ".." then l.dropLast else l ++ [name]) names :=
  fun before hb => h (name :: before) (List.cons_prefix_cons.2 ⟨rfl, hb⟩)

theorem Passes.mono {names : List String} (h : t.Passes l names)
    (hkeep : ∀ k, (∀ j, j <+: k → t.get? j = some .directory) → t'.get? k = some .directory) :
    t'.Passes l names :=
  fun before hb k hk => hkeep k fun j hj => h before hb j (hj.trans hk)

theorem Passes.upwards {names : List String} (h : t.Passes l names) :
    t.Passes l (names ++ [".."]) := by
  intro before hb k hk
  rcases List.prefix_concat_iff.1 hb with rfl | hb
  · refine h names (List.prefix_refl _) k (hk.trans ?_)
    simpa [follow, List.foldl_append] using List.dropLast_prefix _
  · exact h before hb k hk

theorem walk_of_passes {name : String} (hname : name ≠ "..") : ∀ {names : List String}
    {l : Location}, t.Passes l names → t.walk l (names ++ [name]) = .ok (follow l names ++ [name])
  | [], l, h => by
    simp only [List.nil_append, walk, h.head, hname, if_false]
    rfl
  | n :: names, l, h => by
    have ih := walk_of_passes hname h.tail
    simp only [List.cons_append, walk, h.head]
    by_cases hn : n = ".."
    · simpa only [hn, if_true, follow, List.foldl_cons] using ih
    · simpa only [hn, if_false, follow, List.foldl_cons] using ih

/-- A path that leads to a name behind other names. -/
structure IsIn (path : String) (directory : List String) (name : String) : Prop where
  names : FileTree.names path = directory ++ [name]
  ne : name ≠ ".."
  isFile : meansDirectory path = false

theorem meansDirectory_join (path : String) {name : String} (h : Path.IsName name.toList) :
    meansDirectory (Path.join path name) = false := by
  obtain ⟨before, hb⟩ := Path.suffix_join path h
  unfold meansDirectory
  rw [← hb]
  rcases List.eq_nil_or_concat name.toList with hn | ⟨cs, c, hn⟩
  · exact absurd hn h.nonempty
  · have hslash := h.slash
    have hdot := h.dot
    rw [hn, List.concat_eq_append] at hslash hdot
    rw [hn, List.concat_eq_append, ← List.append_assoc, List.reverse_concat]
    -- The last character is not a slash, nor is the one before it if the last is a dot.
    split
    · next heq =>
      obtain ⟨rfl, -⟩ := List.cons.inj heq
      simp at hslash
    · next heq =>
      obtain ⟨rfl, hrest⟩ := List.cons.inj heq
      rcases List.eq_nil_or_concat cs with rfl | ⟨ds, d, rfl⟩
      · simp at hdot
      · rw [List.concat_eq_append, ← List.append_assoc, List.reverse_concat] at hrest
        obtain ⟨rfl, -⟩ := List.cons.inj hrest
        simp at hslash
    · rfl

theorem isIn_join (path : String) {name : String} (h : Path.IsName name.toList) :
    IsIn (Path.join path name) (names path) name := by
  refine ⟨?_, ?_, ?_⟩
  · rw [FileTree.names, Path.components_join path h.isAbsolute_eq_false, h.components_eq,
      List.map_append, FileTree.names]
    simp
  · rintro rfl
    exact h.dots rfl
  · exact meansDirectory_join path h

theorem IsIn.place {path name : String} {directory : List String} (h : IsIn path directory name) :
    place path = follow [] directory ++ [name] := by
  rw [FileTree.place, h.names, follow_concat _ _ h.ne]

theorem IsIn.place_ne_nil {path name : String} {directory : List String}
    (h : IsIn path directory name) : FileTree.place path ≠ [] := by
  rw [h.place]
  simp

theorem getLast?_of_meansDirectory {path : String} (h : meansDirectory path = false) :
    path.toList.getLast? ≠ some '/' := by
  intro hlast
  obtain ⟨before, hpath⟩ := List.getLast?_eq_some_iff.1 hlast
  simp [meansDirectory, hpath] at h

theorem IsIn.endsInName {path name : String} {directory : List String}
    (h : IsIn path directory name) : FileTree.endsInName path = true := by
  rw [FileTree.endsInName, Text.trimEndSlashes_eq_self (getLast?_of_meansDirectory h.isFile),
    h.isFile, h.names]
  simp [h.ne]

/-- Neither of two names in a directory leads to the other. -/
theorem IsIn.not_isPrefix {path path' name name' : String} {directory : List String}
    (h : IsIn path directory name) (h' : IsIn path' directory name') (hne : name ≠ name') :
    ¬ FileTree.place path <+: FileTree.place path' := by
  rw [h.place, h'.place]
  intro hp
  have := List.IsPrefix.eq_of_length hp (by simp)
  simp [hne] at this

theorem IsIn.place_ne {path path' name name' : String} {directory : List String}
    (h : IsIn path directory name) (h' : IsIn path' directory name') (hne : name ≠ name') :
    FileTree.place path ≠ FileTree.place path' := by
  rw [h.place, h'.place]
  simpa using hne

section Actions

variable {path name : String} {directory : List String}

theorem locate_of_passes (hp : IsIn path directory name) (h : t.Passes [] directory) :
    t.locate path = .ok (place path) := by
  unfold locate
  rw [hp.names, walk_of_passes hp.ne h, hp.place]
  simp only [bind, Except.bind, hp.isFile]
  split <;> rfl

theorem write_of_passes (hp : IsIn path directory name) (h : t.Passes [] directory)
    (content : ByteArray) :
    (t.get? (place path) = some .directory ∧ t.write path content = .error .isDirectory) ∨
      (t.get? (place path) ≠ some .directory ∧
        ∃ x, t.write path content = .ok (t.set (place path) (.file content x))) := by
  unfold write
  rw [locate_of_passes hp h]
  simp only [bind, Except.bind, hp.isFile]
  rcases t.get? (place path) with _ | ⟨old, x⟩ | _
  · exact .inr ⟨by simp, false, rfl⟩
  · exact .inr ⟨by simp, x, rfl⟩
  · exact .inl ⟨rfl, rfl⟩

theorem remove_of_passes (hp : IsIn path directory name) (h : t.Passes [] directory)
    {content : ByteArray} {x : Bool} (hf : t.get? (place path) = some (.file content x)) :
    t.remove path = .ok (t.erase (place path)) := by
  unfold remove
  rw [locate_of_passes hp h]
  simp only [bind, Except.bind, hf]
  rfl

/-- What cannot be written cannot be removed either. -/
theorem remove_of_write_eq_error {content : ByteArray} {fault : SystemFault}
    (h : t.write path content = .error fault) : ∃ fault', t.remove path = .error fault' := by
  unfold write at h
  unfold remove
  rcases hl : t.locate path with e | l
  · exact ⟨e, rfl⟩
  · rw [hl] at h
    simp only [bind, Except.bind] at h ⊢
    rcases hg : t.get? l with _ | ⟨old, x⟩ | _
    · exact ⟨_, rfl⟩
    · rw [hg] at h
      cases h
    · exact ⟨_, rfl⟩

theorem rename_of_passes {source target a b : String} (hs : IsIn source directory a)
    (ht : IsIn target directory b) (hab : a ≠ b) (h : t.Passes [] directory) {content : ByteArray}
    {x : Bool} (hf : t.get? (place source) = some (.file content x)) :
    (t.get? (place target) = some .directory ∧ t.rename source target = .error .isDirectory) ∨
      (t.get? (place target) ≠ some .directory ∧
        t.rename source target = .ok (t.move (place source) (place target))) := by
  unfold rename
  rw [locate_of_passes hs h, locate_of_passes ht h]
  simp only [bind, Except.bind, hf, ht.endsInName, ht.isFile, if_neg (hs.place_ne ht hab)]
  rcases t.get? (place target) with _ | ⟨old, y⟩ | _
  · exact .inr ⟨by simp, rfl⟩
  · exact .inr ⟨by simp, rfl⟩
  · exact .inl ⟨rfl, rfl⟩

theorem locate_eq_ok_of_meansDirectory (h : t.locate path = .ok l)
    (hm : meansDirectory path = true) (content : ByteArray) (x : Bool) :
    t.get? l ≠ some (.file content x) := by
  intro hf
  unfold locate at h
  rcases hw : t.walk [] (FileTree.names path) with fault | l' <;> rw [hw] at h
  · cases h
  · simp only [bind, Except.bind, hm, if_true] at h
    split at h
    · cases h
    · next hno =>
      cases h
      exact hno _ _ hf

/-- A file cannot be moved to a path that is not that of a file. -/
theorem rename_eq_error {source target : String} {s : Location} (hs : t.locate source = .ok s)
    {content : ByteArray} {x : Bool} (hf : t.get? s = some (.file content x))
    (hno : ¬ (endsInName target = true ∧ meansDirectory target = false)) :
    ∃ fault, t.rename source target = .error fault := by
  unfold rename
  rw [hs]
  simp only [bind, Except.bind, hf]
  rcases hd : t.locate target with fault | d
  · exact ⟨fault, rfl⟩
  by_cases hends : endsInName target = true
  · have hm : meansDirectory target = true := by
      rw [← Bool.not_eq_false]
      exact fun hm => hno ⟨hends, hm⟩
    have hne : s ≠ d := by
      rintro rfl
      exact locate_eq_ok_of_meansDirectory hd hm _ _ hf
    exact ⟨.notDirectory, by simp [hends, hm, hne]⟩
  · exact ⟨_, by simp [hends]; rfl⟩

end Actions

/-! ## Missing directories -/

/-- A tree holds what another holds, and directories where that holds nothing. -/
def Extends (t' t : FileTree) : Prop :=
  ∀ k, t'.get? k = t.get? k ∨ (t.get? k = none ∧ t'.get? k = some .directory)

theorem Extends.refl (t : FileTree) : t.Extends t := fun _ => .inl rfl

theorem Extends.trans {t'' : FileTree} (h' : t''.Extends t') (h : t'.Extends t) :
    t''.Extends t := by
  intro k
  rcases h k with hk | ⟨hn, hk⟩
  · rw [← hk]
    exact h' k
  · rcases h' k with hk' | ⟨hn', -⟩
    · exact .inr ⟨hn, hk'.trans hk⟩
    · rw [hn'] at hk
      cases hk

theorem Extends.keeps (h : t'.Extends t) (hk : t.get? k = some .directory) :
    t'.get? k = some .directory := by
  rcases h k with h | ⟨hn, -⟩
  · exact h.trans hk
  · rw [hn] at hk
    cases hk

/-- One name on, directories lead to the next location in a tree that extends this one. -/
theorem makeMissing_cons_eq_ok {name : String} {names : List String}
    (hl : ∀ k, k <+: l → t.get? k = some .directory)
    (h : t.makeMissing l (name :: names) = .ok t') : ∃ (next : Location) (u : FileTree),
      next = (if name = ".." then l.dropLast else l ++ [name]) ∧ u.Extends t ∧
        (∀ k, k ≠ next → u.get? k = t.get? k) ∧
        (∀ k, k <+: next → u.get? k = some .directory) ∧ u.makeMissing next names = .ok t' := by
  unfold makeMissing at h
  by_cases hn : name = ".."
  · rw [if_pos hn] at h
    exact ⟨_, t, by rw [if_pos hn], .refl t, fun _ _ => rfl,
      fun k hk => hl k (hk.trans (List.dropLast_prefix l)), h⟩
  have hall : ∀ u : FileTree, u.Extends t → u.get? (l ++ [name]) = some .directory →
      ∀ k, k <+: l ++ [name] → u.get? k = some .directory := by
    intro u hu hlast k hk
    rcases List.prefix_concat_iff.1 hk with rfl | hk
    · simpa using hlast
    · exact hu.keeps (hl k hk)
  rw [if_neg hn] at h
  refine ⟨l ++ [name], ?_⟩
  simp only at h
  rcases hg : t.get? (l ++ [name]) with _ | ⟨content, x⟩ | _ <;> rw [hg] at h
  · have hset := fun k => get?_set (t := t) (k := k) .directory (l := l ++ [name]) (by simp)
    have hext : (t.set (l ++ [name]) .directory).Extends t := by
      intro k
      rw [hset]
      split_ifs with hk
      · exact .inr ⟨hk ▸ hg, rfl⟩
      · exact .inl rfl
    exact ⟨_, by rw [if_neg hn], hext, fun k hk => by rw [hset, if_neg hk],
      hall _ hext (by rw [hset, if_pos rfl]), h⟩
  · cases h
  · exact ⟨t, by rw [if_neg hn], .refl t, fun _ _ => rfl, hall t (.refl t) hg, h⟩

/-- Names lead through a location. -/
def LeadsThrough (l : Location) (names : List String) (k : Location) : Prop :=
  ∃ before, before <+: names ∧ k = follow l before

theorem LeadsThrough.cons {name : String} {names : List String}
    (h : LeadsThrough (if name = ".." then l.dropLast else l ++ [name]) names k) :
    LeadsThrough l (name :: names) k := by
  obtain ⟨before, hb, rfl⟩ := h
  exact ⟨name :: before, List.cons_prefix_cons.2 ⟨rfl, hb⟩, rfl⟩

/-- Only what the names lead through is created. -/
theorem makeMissing_eq_ok : ∀ {names : List String} {l : Location} {t : FileTree},
    (∀ k, k <+: l → t.get? k = some .directory) → t.makeMissing l names = .ok t' →
      t'.Extends t ∧ t'.Passes l names ∧ ∀ k, ¬ LeadsThrough l names k → t'.get? k = t.get? k
  | [], l, t, hl, h => by
    cases h
    refine ⟨.refl _, fun before hb => ?_, fun _ _ => rfl⟩
    rw [List.prefix_nil.1 hb]
    exact hl
  | name :: names, l, t, hl, h => by
    obtain ⟨next, u, hnext, hext, hsame, hall, hrest⟩ := makeMissing_cons_eq_ok hl h
    obtain ⟨hext', hpasses, hsame'⟩ := makeMissing_eq_ok hall hrest
    refine ⟨hext'.trans hext, fun before hb => ?_, fun k hk => ?_⟩
    · rcases before with _ | ⟨n, before⟩
      · exact fun k hk => hext'.keeps (hext.keeps (hl k hk))
      · obtain ⟨rfl, hbefore⟩ := List.cons_prefix_cons.1 hb
        have := hpasses before hbefore
        rw [hnext] at this
        exact this
    · have hnot : ¬ LeadsThrough next names k := fun hthrough => hk (.cons (hnext ▸ hthrough))
      rw [hsame' k hnot, hsame k]
      rintro rfl
      exact hnot ⟨[], List.nil_prefix, rfl⟩

/-- Creating missing directories adds directories only, all along the way of the path. -/
theorem makeDirectories_eq_ok {path : String} (h : t.makeDirectories path = .ok t') :
    t'.Extends t ∧ t'.Passes [] (names path) ∧
      ∀ k, ¬ LeadsThrough [] (names path) k → t'.get? k = t.get? k := by
  refine makeMissing_eq_ok (fun k hk => ?_) h
  rw [List.prefix_nil.1 hk]
  rfl

/-! ## Actions in sequence -/

section Sequences

variable {ε α β : Type} {x : ExceptT ε (StateM FileTree) α} {f : α → ExceptT ε (StateM FileTree) β}

theorem bind_of_eq_ok {a : α} (h : x t = (.ok a, t')) : (x >>= f) t = f a t' := by
  change ExceptT.bindCont f (x t).1 (x t).2 = _
  rw [h]
  rfl

theorem bind_of_eq_error {fault : ε} (h : x t = (.error fault, t')) :
    (x >>= f) t = (.error fault, t') := by
  change ExceptT.bindCont f (x t).1 (x t).2 = _
  rw [h]
  rfl

end Sequences

end FileTree

end LocalTopology
