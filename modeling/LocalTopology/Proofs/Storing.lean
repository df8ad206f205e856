import LocalTopology.Manifest.Store
import LocalTopology.Proofs.Files
import Mathlib.Data.Prod.Basic

/-!
# What a write of the manifests leaves

A manifest that cannot be staged leaves no file behind (`StagedManifest.stage_cases`), and a write
that fails there changes neither manifest. A staged manifest cannot be put in its place if a
directory stands there (`StagedManifest.commit_cases`), and then nothing is taken back: what is
staged stays, and so does a manifest that is in its place already (`Manifests.write_eq_error`). A
write that succeeds leaves both manifests in their places (`Manifests.write_eq_ok`).
-/

namespace LocalTopology

namespace FileTree

variable {t t' t'' : FileTree} {path : String} {directory : List String}

/-- The content of the file at the place of a path. -/
def content? (t : FileTree) (path : String) : Option ByteArray :=
  match t.get? (place path) with
  | some (.file content _) => some content
  | _ => none

theorem content?_eq_some_iff {content : ByteArray} :
    t.content? path = some content ↔ ∃ x, t.get? (place path) = some (.file content x) := by
  unfold content?
  rcases t.get? (place path) with _ | ⟨c, x⟩ | _ <;> simp

theorem content?_congr (h : t'.get? (place path) = t.get? (place path)) :
    t'.content? path = t.content? path := by
  unfold content?
  rw [h]

theorem Extends.content? (h : t'.Extends t) (path : String) :
    t'.content? path = t.content? path := by
  rcases h (place path) with hk | ⟨hn, hd⟩
  · exact content?_congr hk
  · unfold FileTree.content?
    rw [hn, hd]

/-- Two trees hold the same files in a directory, whatever they hold under some names. -/
def SameBut (directory others : List String) (t' t : FileTree) : Prop :=
  ∀ path name, IsIn path directory name → name ∉ others → t'.content? path = t.content? path

theorem Extends.sameBut (h : t'.Extends t) : SameBut directory [] t' t :=
  fun path _ _ _ => h.content? path

theorem SameBut.trans {others others' : List String} (h' : SameBut directory others' t'' t')
    (h : SameBut directory others t' t) : SameBut directory (others ++ others') t'' t := by
  intro path name hp hname
  rw [List.mem_append, not_or] at hname
  exact (h' path name hp hname.2).trans (h path name hp hname.1)

/-- A way is kept by whatever keeps the directories that directories lead to. -/
theorem Extends.passes (h : t'.Extends t) (hp : t.Passes [] directory) : t'.Passes [] directory :=
  hp.mono fun k hk => h.keeps (hk k (List.prefix_refl k))

theorem Passes.set (h : t.Passes [] directory) {l : Location} (e : Entry) (hl : l ≠ [])
    (hne : t.get? l ≠ some .directory) : (t.set l e).Passes [] directory := by
  refine h.mono fun k hk => ?_
  have hdir := hk k (List.prefix_refl k)
  rw [get?_set e hl, if_neg, hdir]
  rintro rfl
  exact hne hdir

/-- A tree in which only directories hold anything has changed at some places only, besides new
directories on the way of another. -/
def ChangesOnly (places : List Location) (directory : List String) (t' t : FileTree) : Prop :=
  t.IsTree → t'.IsTree ∧ ∀ k, k ∉ places → t'.get? k = t.get? k ∨
    (t.get? k = none ∧ t'.get? k = some .directory ∧ LeadsThrough [] directory k)

theorem ChangesOnly.trans {places places' : List Location}
    (h' : ChangesOnly places' directory t'' t') (h : ChangesOnly places directory t' t) :
    ChangesOnly (places ++ places') directory t'' t := by
  intro ht
  obtain ⟨ht', hsame⟩ := h ht
  obtain ⟨ht'', hsame'⟩ := h' ht'
  refine ⟨ht'', fun k hk => ?_⟩
  rw [List.mem_append, not_or] at hk
  rcases hsame k hk.1 with heq | ⟨hnone, hdir, hway⟩
  · rw [← heq]
    exact hsame' k hk.2
  · rcases hsame' k hk.2 with heq' | ⟨hnone', -, -⟩
    · exact .inr ⟨hnone, heq'.trans hdir, hway⟩
    · cases hdir.symm.trans hnone'

theorem ChangesOnly.mono {places places' : List Location} (h : ChangesOnly places directory t' t)
    (hsub : places ⊆ places') : ChangesOnly places' directory t' t :=
  fun ht => (h ht).imp_right fun hsame k hk => hsame k fun hmem => hk (hsub hmem)

theorem changesOnly_makeDirectories (h : t.makeDirectories path = .ok t') :
    ChangesOnly [] (names path) t' t := by
  intro ht
  obtain ⟨hext, hpasses, hsame⟩ := makeDirectories_eq_ok h
  refine ⟨fun l name e he => ?_, fun k _ => ?_⟩
  · by_cases hway : LeadsThrough [] (names path) (l ++ [name])
    · obtain ⟨before, hb, hbefore⟩ := hway
      exact hpasses before hb l (hbefore ▸ List.prefix_append l [name])
    · rw [hsame _ hway] at he
      exact hext.keeps (ht l name e he)
  · by_cases hway : LeadsThrough [] (names path) k
    · exact (hext k).imp_right fun ⟨hnone, hdir⟩ => ⟨hnone, hdir, hway⟩
    · exact .inl (hsame k hway)

theorem Passes.get?_follow (h : t.Passes [] directory) :
    t.get? (follow [] directory) = some .directory :=
  h directory (List.prefix_refl _) _ (List.prefix_refl _)

theorem changesOnly_set {name : String} (hp : IsIn path directory name)
    (h : t.Passes [] directory) (hfree : t.get? (place path) ≠ some .directory) (e : Entry) :
    ChangesOnly [place path] directory (t.set (place path) e) t := by
  intro ht
  refine ⟨?_, fun k hk => .inl ?_⟩
  · rw [hp.place] at hfree ⊢
    exact ht.set h.get?_follow hfree e
  · rw [get?_set e hp.place_ne_nil, if_neg (by simpa using hk)]

theorem changesOnly_move {source target a b : String} (hs : IsIn source directory a)
    (ht : IsIn target directory b) (hab : a ≠ b) (h : t.Passes [] directory) {content : ByteArray}
    {x : Bool} (hfile : t.get? (place source) = some (.file content x))
    (hfree : t.get? (place target) ≠ some .directory) :
    ChangesOnly [place target, place source] directory (t.move (place source) (place target))
      t := by
  intro htree
  have hst := hs.not_isPrefix ht hab
  have hts := ht.not_isPrefix hs hab.symm
  refine ⟨?_, fun k hk => .inl ?_⟩
  · refine htree.move hs.place_ne_nil ht.place_ne_nil hst hts hfile hfree fun l name hl => ?_
    rw [ht.place] at hl
    rw [← (List.append_inj' hl rfl).1]
    exact h.get?_follow
  · rw [List.mem_pair, not_or] at hk
    rw [htree.get?_move hs.place_ne_nil ht.place_ne_nil hst hts hfile hfree, if_neg hk.1,
      if_neg hk.2]

/-! The places of paths that lead through directories are those at which the system looks. -/

theorem read_of_passes {name : String} (hp : IsIn path directory name)
    (h : t.Passes [] directory) {content : ByteArray} (hc : t.content? path = some content) :
    t.read path = .ok content := by
  obtain ⟨x, hfile⟩ := content?_eq_some_iff.1 hc
  unfold read
  rw [locate_of_passes hp h]
  simp only [bind, Except.bind, hfile]
  rfl

theorem isFile_of_passes {name : String} (hp : IsIn path directory name)
    (h : t.Passes [] directory) (hc : t.content? path = none) : t.isFile path = false := by
  unfold isFile find?
  rw [locate_of_passes hp h]
  simp only
  unfold content? at hc
  rcases hg : t.get? (place path) with _ | ⟨content, x⟩ | _ <;> simp [hg] at hc ⊢

end FileTree

open FileTree

/-! ## Staging and putting in place -/

/-- A path to a name in a directory, where it is staged under another name. -/
structure IsStagedAs (path : String) (directory : List String) (name staging : String) : Prop where
  destination : IsIn path directory name
  staged : IsIn (stagingPath path) directory staging
  parent : ∃ q, Path.parent? path = some q ∧ names q = directory
  ne : staging ≠ name

theorem isStagedAs_join (directory : String) {name : String} (h : Path.IsName name.toList)
    (h' : Path.IsName (Path.stem name ++ "." ++ "yml.tmp").toList)
    (hne : Path.stem name ++ "." ++ "yml.tmp" ≠ name) :
    IsStagedAs (Path.join directory name) (names directory) name
      (Path.stem name ++ "." ++ "yml.tmp") := by
  obtain ⟨q, hq, hqc⟩ := Path.exists_withExtension_join directory "yml.tmp" h
  obtain ⟨p, hp, hpc⟩ := Path.exists_parent?_join directory h
  refine ⟨isIn_join directory h, ?_, ⟨p, hp, by rw [names, hpc, names]⟩, hne⟩
  have hin := isIn_join q h'
  rw [names, hqc] at hin
  rw [stagingPath, hq]
  exact hin

namespace StagedManifest

variable {t : FileTree} {path name staging : String} {directory : List String}

/-- Staging leaves one file in the directory, and nothing but directories if it fails. -/
theorem stage_cases (hp : IsStagedAs path directory name staging) (tool text : String)
    (t : FileTree) :
    (∃ fault u, stage tool path text t = (.error fault, u) ∧ u.Extends t) ∨
      ∃ u, stage tool path text t = (.ok ⟨tool, path, stagingPath path⟩, u) ∧
        u.Passes [] directory ∧ u.content? (stagingPath path) = some text.toUTF8 ∧
        SameBut directory [staging] u t ∧
        ChangesOnly [place (stagingPath path)] directory u t := by
  obtain ⟨q, hq, hnames⟩ := hp.parent
  unfold stage
  simp only [hq]
  rcases hmake : t.makeDirectories q with fault | u
  · refine .inl ⟨fault, t, ?_, .refl t⟩
    exact bind_of_eq_error (by simp only [FileAction.perform, hmake])
  have hperform : FileAction.perform (·.makeDirectories q) t = (.ok (), u) := by
    simp only [FileAction.perform, hmake]
  obtain ⟨hext, hpasses, -⟩ := makeDirectories_eq_ok hmake
  have hchanges := changesOnly_makeDirectories hmake
  rw [hnames] at hpasses hchanges
  rw [bind_of_eq_ok hperform]
  have hne := hp.staged.place_ne_nil
  rcases write_of_passes hp.staged hpasses text.toUTF8 with ⟨-, hw⟩ | ⟨hfree, x, hw⟩
  · obtain ⟨fault', hr⟩ := remove_of_write_eq_error hw
    refine .inl ⟨.isDirectory, u, ?_, hext⟩
    simp only [hw, hr]
  · refine .inr ⟨_, by simp only [hw]; rfl, hpasses.set _ hne hfree, ?_, ?_,
      (changesOnly_set hp.staged hpasses hfree _).trans hchanges⟩
    · exact content?_eq_some_iff.2 ⟨x, by rw [get?_set _ hne, if_pos rfl]⟩
    · intro path' name' hp' hname'
      refine (content?_congr ?_).trans (hext.content? path')
      rw [get?_set _ hne, if_neg (hp'.place_ne hp.staged (by simpa using hname'))]

/-- A staged manifest takes the place of the file that is there, unless that is a directory. -/
theorem commit_cases (hp : IsStagedAs path directory name staging) (tool : String)
    (h : t.Passes [] directory) {content : ByteArray}
    (hc : t.content? (stagingPath path) = some content) :
    (t.get? (place path) = some .directory ∧
        commit ⟨tool, path, stagingPath path⟩ t = (.error .isDirectory, t)) ∨
      ∃ u, commit ⟨tool, path, stagingPath path⟩ t = (.ok ⟨tool, path⟩, u) ∧
        u.Passes [] directory ∧ u.content? path = some content ∧
        u.content? (stagingPath path) = none ∧ SameBut directory [name, staging] u t ∧
        ChangesOnly [place path, place (stagingPath path)] directory u t := by
  obtain ⟨x, hfile⟩ := content?_eq_some_iff.1 hc
  have htarget := get?_move_target (t := t) hp.staged.place_ne_nil hp.destination.place_ne_nil
    (hp.staged.place_ne hp.destination hp.ne)
  have hsource := get?_move_source (t := t) hp.staged.place_ne_nil
    (hp.destination.not_isPrefix hp.staged hp.ne.symm)
  have hrest : ∀ k, ¬ place (stagingPath path) <+: k → ¬ place path <+: k →
      (t.move (place (stagingPath path)) (place path)).get? k = t.get? k :=
    fun k => get?_move_of_not_isPrefix hp.destination.place_ne_nil
  rcases rename_of_passes hp.staged hp.destination hp.ne h hfile with ⟨hd, hr⟩ | ⟨hd, hr⟩
  · refine .inl ⟨hd, ?_⟩
    exact bind_of_eq_error (by simp only [FileAction.perform, hr])
  · refine .inr ⟨t.move (place (stagingPath path)) (place path), ?_, ?_, ?_, ?_, ?_,
      changesOnly_move hp.staged hp.destination hp.ne h hfile hd⟩
    · have hmove : FileAction.perform (·.rename (stagingPath path) path) t =
          (.ok (), t.move (place (stagingPath path)) (place path)) := by
        simp only [FileAction.perform, hr]
      exact bind_of_eq_ok hmove
    · -- Neither end of the move is a directory, so no directory is behind them on the way.
      refine h.mono fun k hk => ?_
      rw [hrest k, hk k (List.prefix_refl k)]
      · intro hs
        rw [hk _ hs] at hfile
        cases hfile
      · exact fun ht => hd (hk _ ht)
    · exact content?_eq_some_iff.2 ⟨x, htarget.trans hfile⟩
    · unfold content?
      rw [hsource]
    · intro path' name' hp' hname'
      rw [List.mem_cons, List.mem_singleton, not_or] at hname'
      exact content?_congr (hrest _ (hp.staged.not_isPrefix hp' (Ne.symm hname'.2))
        (hp.destination.not_isPrefix hp' (Ne.symm hname'.1)))

/-- A discarded manifest leaves no file at its staging place. -/
theorem discard_of_passes (hp : IsStagedAs path directory name staging) (tool : String)
    (h : t.Passes [] directory) {content : ByteArray}
    (hc : t.content? (stagingPath path) = some content) :
    ((discard ⟨tool, path, stagingPath path⟩ t).2).content? (stagingPath path) = none ∧
      SameBut directory [staging] (discard ⟨tool, path, stagingPath path⟩ t).2 t := by
  obtain ⟨x, hfile⟩ := content?_eq_some_iff.1 hc
  have hne := hp.staged.place_ne_nil
  have heq : (discard ⟨tool, path, stagingPath path⟩ t).2 = t.erase (place (stagingPath path)) := by
    unfold discard FileAction.attempt
    simp only [remove_of_passes hp.staged h hfile]
  rw [heq]
  refine ⟨?_, fun path' name' hp' hname' => content?_congr ?_⟩
  · unfold content?
    rw [get?_erase hne, if_pos rfl]
  · rw [get?_erase hne, if_neg (hp'.place_ne hp.staged (by simpa using hname'))]

end StagedManifest

/-! ## Both manifests -/

theorem Home.composeManifest_isStagedAs (h : Home) : IsStagedAs h.composeManifest
    (names h.generated) "docker-compose.yml" "docker-compose.yml.tmp" := by
  exact isStagedAs_join h.generated (by decide +kernel) (by decide +kernel) (by decide +kernel)

theorem Home.supervisorManifest_isStagedAs (h : Home) : IsStagedAs h.supervisorManifest
    (names h.generated) "process-compose.yml" "process-compose.yml.tmp" := by
  exact isStagedAs_join h.generated (by decide +kernel) (by decide +kernel) (by decide +kernel)

namespace Manifests

/-- Both manifests are as they were, and no file is staged that was not there before. -/
def Untouched (h : Home) (t t' : FileTree) : Prop :=
  ∀ path ∈ [h.composeManifest, h.supervisorManifest],
    t'.content? path = t.content? path ∧
      (t'.content? (stagingPath path) = none ∨
        t'.content? (stagingPath path) = t.content? (stagingPath path))

/-- Both manifests are as they were and stay staged, since a directory stands in the place of the
first. -/
structure LeftStaged (m : Manifests) (h : Home) (t t' : FileTree) : Prop where
  blocked : t'.get? (place h.composeManifest) = some .directory
  compose : t'.content? h.composeManifest = t.content? h.composeManifest
  supervisor : t'.content? h.supervisorManifest = t.content? h.supervisorManifest
  composeStaged : t'.content? (stagingPath h.composeManifest) = some m.composeText.toUTF8
  supervisorStaged : t'.content? (stagingPath h.supervisorManifest) = some m.supervisorText.toUTF8

/-- The first manifest is in its place and the second stays staged, since a directory stands in its
place. -/
structure HalfWritten (m : Manifests) (h : Home) (t t' : FileTree) : Prop where
  blocked : t'.get? (place h.supervisorManifest) = some .directory
  compose : t'.content? h.composeManifest = some m.composeText.toUTF8
  supervisor : t'.content? h.supervisorManifest = t.content? h.supervisorManifest
  composeStaged : t'.content? (stagingPath h.composeManifest) = none
  supervisorStaged : t'.content? (stagingPath h.supervisorManifest) = some m.supervisorText.toUTF8

/-- Both manifests are in their places and nothing is staged. -/
structure Written (m : Manifests) (h : Home) (t' : FileTree) : Prop where
  compose : t'.content? h.composeManifest = some m.composeText.toUTF8
  supervisor : t'.content? h.supervisorManifest = some m.supervisorText.toUTF8
  composeStaged : t'.content? (stagingPath h.composeManifest) = none
  supervisorStaged : t'.content? (stagingPath h.supervisorManifest) = none

/-- Both manifests are staged and nothing else has changed. -/
structure Staged (m : Manifests) (h : Home) (t t' : FileTree) : Prop where
  passes : t'.Passes [] (names h.generated)
  compose : t'.content? (stagingPath h.composeManifest) = some m.composeText.toUTF8
  supervisor : t'.content? (stagingPath h.supervisorManifest) = some m.supervisorText.toUTF8
  same : SameBut (names h.generated) ["docker-compose.yml.tmp", "process-compose.yml.tmp"] t' t
  changes : ChangesOnly [place (stagingPath h.composeManifest),
    place (stagingPath h.supervisorManifest)] (names h.generated) t' t

/-- What is returned as proof of a write: a manifest without entries is none. -/
def receipts (m : Manifests) (h : Home) : WrittenManifests where
  compose := if m.compose.isEmpty then none else some ⟨Tool.compose.name, h.composeManifest⟩
  supervisor :=
    if m.supervisor.isEmpty then none else some ⟨Tool.supervisor.name, h.supervisorManifest⟩

/-- The places at which a write may change files. -/
def places (h : Home) : List Location :=
  [h.composeManifest, h.supervisorManifest, stagingPath h.composeManifest,
    stagingPath h.supervisorManifest].map place

/-- The part of a write that puts both staged manifests in their places. -/
def commitBoth (m : Manifests) (h : Home) : FileAction WrittenManifests := do
  let compose ← StagedManifest.commit
    ⟨Tool.compose.name, h.composeManifest, stagingPath h.composeManifest⟩
  let supervisor ← StagedManifest.commit
    ⟨Tool.supervisor.name, h.supervisorManifest, stagingPath h.supervisorManifest⟩
  return {
    compose := if m.compose.isEmpty then none else some compose
    supervisor := if m.supervisor.isEmpty then none else some supervisor }

/-- What is staged is taken back when the second manifest cannot be staged. -/
theorem write_cases_stage (m : Manifests) (h : Home) (t : FileTree) :
    (∃ fault u, m.write h t = (.error fault, u) ∧ Untouched h t u) ∨
      ∃ u, m.write h t = m.commitBoth h u ∧ m.Staged h t u := by
  have hc := h.composeManifest_isStagedAs
  have hs := h.supervisorManifest_isStagedAs
  unfold write
  rcases StagedManifest.stage_cases hc Tool.compose.name m.composeText t with
    ⟨fault, u, hstage, hext⟩ | ⟨t₁, hstage, hpasses, hstaged, hsame, hchanges⟩
  · refine .inl ⟨fault, u, bind_of_eq_error hstage, fun path _ => ?_⟩
    exact ⟨hext.content? _, .inr (hext.content? _)⟩
  rw [bind_of_eq_ok hstage]
  rcases StagedManifest.stage_cases hs Tool.supervisor.name m.supervisorText t₁ with
    ⟨fault, u, hstage₂, hext⟩ | ⟨t₂, hstage₂, hpasses₂, hstaged₂, hsame₂, hchanges₂⟩
  · -- The first manifest is discarded from the tree that the second staging left.
    obtain ⟨hnone, hdiscard⟩ := StagedManifest.discard_of_passes hc Tool.compose.name
      (hext.passes hpasses) ((hext.content? _).trans hstaged)
    refine .inl ⟨fault, _, bind_of_eq_error (by simp only [hstage₂]; rfl), ?_⟩
    have hall := hdiscard.trans (hext.sameBut.trans hsame)
    intro path hpath
    rcases List.mem_pair.1 hpath with rfl | rfl
    · exact ⟨hall _ _ hc.destination (by decide), .inl hnone⟩
    · exact ⟨hall _ _ hs.destination (by decide), .inr (hall _ _ hs.staged (by decide))⟩
  · have hkept := (hsame₂ _ _ hc.staged (by decide)).trans hstaged
    exact .inr ⟨t₂, bind_of_eq_ok (by simp only [hstage₂]),
      hpasses₂, hkept, hstaged₂, hsame₂.trans hsame, hchanges₂.trans hchanges⟩

/-- Nothing is taken back when a staged manifest cannot be put in its place. -/
theorem commitBoth_cases {m : Manifests} {h : Home} {t t' : FileTree} (hstaged : m.Staged h t t') :
    (∃ u, m.commitBoth h t' = (.error .isDirectory, u) ∧
        (m.LeftStaged h t u ∨ m.HalfWritten h t u)) ∨
      ∃ u, m.commitBoth h t' = (.ok (m.receipts h), u) ∧ m.Written h u ∧
        u.Passes [] (names h.generated) ∧ ChangesOnly (places h) (names h.generated) u t := by
  have hc := h.composeManifest_isStagedAs
  have hs := h.supervisorManifest_isStagedAs
  have hsame := hstaged.same
  unfold commitBoth
  rcases StagedManifest.commit_cases hc Tool.compose.name hstaged.passes hstaged.compose with
    ⟨hblocked, hcommit⟩ | ⟨t₁, hcommit, hpasses₁, hplaced, hgone, hsame₁, hchanges₁⟩
  · refine .inl ⟨t', bind_of_eq_error hcommit, .inl ⟨hblocked, ?_, ?_,
      hstaged.compose, hstaged.supervisor⟩⟩
    · exact hsame _ _ hc.destination (by decide)
    · exact hsame _ _ hs.destination (by decide)
  rw [bind_of_eq_ok hcommit]
  have hwaits := (hsame₁ _ _ hs.staged (by decide)).trans hstaged.supervisor
  rcases StagedManifest.commit_cases hs Tool.supervisor.name hpasses₁ hwaits with
    ⟨hblocked, hcommit₂⟩ | ⟨t₂, hcommit₂, hpasses₂, hplaced₂, hgone₂, hsame₂, hchanges₂⟩
  · have hkept := (hsame₁.trans hsame) _ _ hs.destination (by decide)
    exact .inl ⟨t₁, bind_of_eq_error hcommit₂,
      .inr ⟨hblocked, hplaced, hkept, hgone, hwaits⟩⟩
  · have hchanges := hchanges₂.trans (hchanges₁.trans hstaged.changes)
    refine .inr ⟨t₂, bind_of_eq_ok hcommit₂, ⟨?_, hplaced₂, ?_, hgone₂⟩, hpasses₂,
      hchanges.mono ?_⟩
    · exact (hsame₂ _ _ hc.destination (by decide)).trans hplaced
    · exact (hsame₂ _ _ hc.staged (by decide)).trans hgone
    · simp [places]

/-- A write that succeeds leaves both manifests in their places and changes nothing besides. -/
theorem write_eq_ok {m : Manifests} {h : Home} {t t' : FileTree} {w : WrittenManifests}
    (hw : m.write h t = (.ok w, t')) : w = m.receipts h ∧ m.Written h t' ∧
      t'.Passes [] (names h.generated) ∧ ChangesOnly (places h) (names h.generated) t' t := by
  rcases m.write_cases_stage h t with ⟨fault, u, he, -⟩ | ⟨u, hcommit, hstaged⟩
  · cases (Prod.mk.inj (he.symm.trans hw)).1
  rw [hcommit] at hw
  rcases commitBoth_cases hstaged with ⟨u', he, -⟩ | ⟨u', he, hu⟩
  · cases (Prod.mk.inj (he.symm.trans hw)).1
  · obtain ⟨hreceipts, rfl⟩ := Prod.mk.inj (he.symm.trans hw)
    exact ⟨(Except.ok.inj hreceipts).symm, hu⟩

/-- A failed write changes nothing, unless a directory stands in the place of a manifest. -/
theorem write_eq_error {m : Manifests} {h : Home} {t t' : FileTree} {fault : SystemFault}
    (hw : m.write h t = (.error fault, t')) :
    Untouched h t t' ∨ fault = .isDirectory ∧ (m.LeftStaged h t t' ∨ m.HalfWritten h t t') := by
  rcases m.write_cases_stage h t with ⟨fault', u, he, hu⟩ | ⟨u, hcommit, hstaged⟩
  · obtain ⟨-, rfl⟩ := Prod.mk.inj (he.symm.trans hw)
    exact .inl hu
  rw [hcommit] at hw
  rcases commitBoth_cases hstaged with ⟨u', he, hu⟩ | ⟨u', he, -⟩
  · obtain ⟨hfault, rfl⟩ := Prod.mk.inj (he.symm.trans hw)
    exact .inr ⟨(Except.error.inj hfault).symm, hu⟩
  · cases (Prod.mk.inj (he.symm.trans hw)).1

/-- The first manifest of an earlier run, and a directory in the place of the second. -/
def blockedTree : FileTree :=
  ⟨[(["h"], .directory), (["h", "generated"], .directory),
    (["h", "generated", "docker-compose.yml"], .file "name: earlier".toUTF8 false),
    (["h", "generated", "process-compose.yml"], .directory)]⟩

theorem write_blockedTree : (write ⟨default, default, "name: later", "processes:"⟩ ⟨"/h"⟩
    blockedTree).1 = .error .isDirectory := by
  decide +kernel

theorem write_eq_error_blocked :
    let m : Manifests := ⟨default, default, "name: later", "processes:"⟩
    let t' := (m.write ⟨"/h"⟩ blockedTree).2
    m.write ⟨"/h"⟩ blockedTree = (.error .isDirectory, t') ∧
      (Untouched ⟨"/h"⟩ blockedTree t' ∨ SystemFault.isDirectory = .isDirectory ∧
        (m.LeftStaged ⟨"/h"⟩ blockedTree t' ∨ m.HalfWritten ⟨"/h"⟩ blockedTree t')) := by
  intro m t'
  have hw : m.write ⟨"/h"⟩ blockedTree = (.error .isDirectory, t') :=
    Prod.fst_eq_iff.1 write_blockedTree
  exact ⟨hw, write_eq_error hw⟩

/-- A failed write may replace the first manifest. -/
theorem exists_write_not_untouched : ∃ (m : Manifests) (h : Home) (t t' : FileTree)
    (fault : SystemFault), m.write h t = (.error fault, t') ∧ ¬ Untouched h t t' := by
  let m : Manifests := ⟨default, default, "name: later", "processes:"⟩
  refine ⟨m, ⟨"/h"⟩, blockedTree, (m.write ⟨"/h"⟩ blockedTree).2, .isDirectory,
    Prod.fst_eq_iff.1 write_blockedTree, fun h => ?_⟩
  have hkept := (h (Home.composeManifest ⟨"/h"⟩) List.mem_cons_self).1
  revert hkept
  decide +kernel

end Manifests

end LocalTopology
