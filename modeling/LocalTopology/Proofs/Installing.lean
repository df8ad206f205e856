import LocalTopology.Proofs.Storing
import LocalTopology.Tools.Install

/-!
# What an install leaves

Fetching a release touches nothing but the partial file (`WorksOn`), and takes that away again if it
fails (`Release.fetchOrRemove_cases`). The move at the end is not followed by a removal, so where a
directory stands at the destination the partial file stays behind (`Release.install_ends`).
-/

namespace LocalTopology

open FileTree

namespace FileTree

variable {t u v : FileTree} {path name : String} {directory : List String}

/-! ## Work on one file -/

/-- What is done to one file in a directory leaves the way there, and everything else. -/
structure WorksOn (path : String) (directory : List String) (u t : FileTree) : Prop where
  passes : u.Passes [] directory
  same : ∀ k, k ≠ place path → u.get? k = t.get? k

theorem WorksOn.refl (h : t.Passes [] directory) : WorksOn path directory t t :=
  ⟨h, fun _ _ => rfl⟩

theorem WorksOn.trans (h' : WorksOn path directory v u) (h : WorksOn path directory u t) :
    WorksOn path directory v t :=
  ⟨h'.passes, fun k hk => (h'.same k hk).trans (h.same k hk)⟩

theorem worksOn_set (hp : IsIn path directory name) (h : t.Passes [] directory)
    (hfree : t.get? (place path) ≠ some .directory) (content : ByteArray) (x : Bool) :
    WorksOn path directory (t.set (place path) (.file content x)) t :=
  ⟨h.set _ hp.place_ne_nil hfree, fun k hk => by rw [get?_set _ hp.place_ne_nil, if_neg hk]⟩

theorem worksOn_erase (hp : IsIn path directory name) (h : t.Passes [] directory)
    (hfree : t.get? (place path) ≠ some .directory) :
    WorksOn path directory (t.erase (place path)) t := by
  refine ⟨h.mono fun k hk => ?_, fun k hk => by rw [get?_erase hp.place_ne_nil, if_neg hk]⟩
  have hdir := hk k (List.prefix_refl k)
  rw [get?_erase hp.place_ne_nil, if_neg, hdir]
  rintro rfl
  exact hfree hdir

/-- Whether or not it can be removed, no file is left. -/
theorem worksOn_remove (hp : IsIn path directory name) (h : t.Passes [] directory) :
    WorksOn path directory ((t.remove path).toOption.getD t) t ∧
      ((t.remove path).toOption.getD t).content? path = none ∧
        (t.get? (place path) = some .directory →
          ((t.remove path).toOption.getD t).get? (place path) = some .directory) := by
  have hstays : ∀ fault, t.remove path = .error fault → (t.remove path).toOption.getD t = t := by
    intro fault hr
    rw [hr]
    rfl
  rcases hplace : t.get? (place path) with _ | ⟨content, x⟩ | _
  · have hremove : t.remove path = .error .notFound := by
      simp only [remove, locate_of_passes hp h, bind, Except.bind, hplace]
    rw [hstays _ hremove]
    exact ⟨.refl h, by simp [content?, hplace], by simp⟩
  · have hremove : t.remove path = .ok (t.erase (place path)) := by
      simp only [remove, locate_of_passes hp h, bind, Except.bind, hplace]
      rfl
    have herase : (t.remove path).toOption.getD t = t.erase (place path) := by
      rw [hremove]
      rfl
    rw [herase]
    refine ⟨worksOn_erase hp h (by simp [hplace]), ?_, by simp⟩
    simp [content?, get?_erase hp.place_ne_nil]
  · have hremove : t.remove path = .error .isDirectory := by
      simp only [remove, locate_of_passes hp h, bind, Except.bind, hplace]
    rw [hstays _ hremove]
    exact ⟨.refl h, by simp [content?, hplace], fun _ => hplace⟩

/-- A tree holds what another holds, and directories where that holds nothing, one place apart. -/
def ExtendsBut (l : Location) (u t : FileTree) : Prop :=
  ∀ k, k ≠ l → u.get? k = t.get? k ∨ (t.get? k = none ∧ u.get? k = some .directory)

theorem WorksOn.extendsBut (h' : WorksOn path directory v u) (h : u.Extends t) :
    ExtendsBut (place path) v t := by
  intro k hk
  rw [h'.same k hk]
  exact h k

end FileTree

namespace InstallAction

variable {t u : FileTree} {fault : SystemFault → AcquisitionFault}
  {act : FileTree → Except SystemFault FileTree} {path name : String} {directory : List String}

theorem perform_of_eq_ok (h : act t = .ok u) : perform fault act t = (.ok (), u) := by
  simp only [perform, h]

theorem perform_of_eq_error {f : SystemFault} (h : act t = .error f) :
    perform fault act t = (.error (fault f), t) := by
  simp only [perform, h]

theorem write_cases (hp : IsIn path directory name) (h : t.Passes [] directory)
    (content : ByteArray) :
    (t.get? (place path) = some .directory ∧
        perform .notWritten (·.write path content) t = (.error (.notWritten .isDirectory), t)) ∨
      ∃ u x, perform .notWritten (·.write path content) t = (.ok (), u) ∧
        WorksOn path directory u t ∧ u.get? (place path) = some (.file content x) := by
  rcases write_of_passes hp h content with ⟨hd, hw⟩ | ⟨hfree, x, hw⟩
  · exact .inl ⟨hd, perform_of_eq_error hw⟩
  · refine .inr ⟨_, x, perform_of_eq_ok hw, worksOn_set hp h hfree content x, ?_⟩
    rw [get?_set _ hp.place_ne_nil, if_pos rfl]

theorem makeExecutable_of_passes (hp : IsIn path directory name) (h : t.Passes [] directory)
    {content : ByteArray} {x : Bool} (hfile : t.get? (place path) = some (.file content x)) :
    ∃ u, perform .notWritten (·.makeExecutable path) t = (.ok (), u) ∧
      WorksOn path directory u t ∧ u.get? (place path) = some (.file content true) := by
  have hmake : t.makeExecutable path = .ok (t.set (place path) (.file content true)) := by
    unfold makeExecutable
    rw [locate_of_passes hp h]
    simp only [bind, Except.bind, hfile]
    rfl
  refine ⟨_, perform_of_eq_ok hmake, worksOn_set hp h (by simp [hfile]) content true, ?_⟩
  rw [get?_set _ hp.place_ne_nil, if_pos rfl]

end InstallAction

/-! ## Fetching -/

/-- An entry is a regular file of a certain name, in whatever directory of the archive. -/
structure ArchiveEntry.IsMember (e : ArchiveEntry) (member : String) : Prop where
  isRegular : e.isRegular = true
  fileName : Path.fileName? e.path = some member

theorem ArchiveEntry.isMember_iff {e : ArchiveEntry} {member : String} :
    e.isMember member = true ↔ e.IsMember member := by
  rw [isMember, Bool.and_eq_true, beq_iff_eq]
  exact ⟨fun ⟨h, h'⟩ => ⟨h, h'⟩, fun ⟨h, h'⟩ => ⟨h, h'⟩⟩

namespace Release

/-- A payload is whole and holds the binary of a release: it is that, or it is an archive whose
first regular file of a certain name is that. -/
inductive Holds (r : Release) (payload : Payload) : List UInt8 → Prop
  | bare (hpacking : r.packing = .bare) (hwhole : payload.isWhole = true) :
      Holds r payload payload.pieces.flatten
  | archive {member : String} {before after : List ArchiveEntry} {e : ArchiveEntry}
      (hpacking : r.packing = .archive member) (hwhole : payload.isWhole = true)
      (hentries : payload.entries = before ++ e :: after) (hmember : e.IsMember member)
      (hfirst : ∀ x ∈ before, ¬ x.IsMember member) : Holds r payload e.content

theorem Holds.isWhole {r : Release} {payload : Payload} {binary : List UInt8}
    (h : r.Holds payload binary) : payload.isWhole = true := by
  cases h <;> assumption

/-- The server does not refuse, and sends the binary of a release. -/
inductive Yields (r : Release) : Download → List UInt8 → Prop
  | answered {status : Nat} {phrase : String} {payload : Payload} {binary : List UInt8}
      (hstatus : ¬ (400 ≤ status ∧ status < 600)) (hholds : r.Holds payload binary) :
      Yields r (.answered status phrase payload) binary

variable {r : Release} {t : FileTree} {path name : String} {directory : List String}

theorem member_cases (payload : Payload) (member : String) :
    (∃ fault, payload.member member = .error fault ∧ (∀ f, fault ≠ .notMoved f) ∧
        ∀ e ∈ payload.entries, ¬ e.IsMember member) ∨
      ∃ before e after, payload.member member = .ok e.content ∧
        payload.entries = before ++ e :: after ∧ e.IsMember member ∧
        ∀ x ∈ before, ¬ x.IsMember member := by
  rcases hfind : payload.entries.find? (·.isMember member) with _ | e
  · have hnone : ∀ e ∈ payload.entries, ¬ e.IsMember member := fun e he hm =>
      List.find?_eq_none.1 hfind e he (ArchiveEntry.isMember_iff.2 hm)
    rcases hdamage : payload.damage with _ | text
    · exact .inl ⟨.noMember member, by simp only [Payload.member, hfind, hdamage], by simp, hnone⟩
    · exact .inl ⟨.noArchive text, by simp only [Payload.member, hfind, hdamage], by simp, hnone⟩
  · obtain ⟨he, before, after, hentries, hfirst⟩ := List.find?_eq_some_iff_append.1 hfind
    refine .inr ⟨before, e, after, by simp only [Payload.member, hfind], hentries,
      ArchiveEntry.isMember_iff.1 he, fun x hx hm => ?_⟩
    have hnot := hfirst x hx
    rw [ArchiveEntry.isMember_iff.2 hm] at hnot
    cases hnot

/-- Why nothing is fetched, other than that the file could not be moved: a directory stands in the
place of the partial file, or there is no binary to be had. -/
def Lacks (path : String) (has : List UInt8 → Prop) (t : FileTree) : Prop :=
  t.get? (FileTree.place path) = some .directory ∨ ∀ binary, ¬ has binary

theorem unpack_cases (hp : IsIn path directory name) (h : t.Passes [] directory)
    (payload : Payload) :
    (∃ fault u, r.unpack payload path t = (.error fault, u) ∧ (∀ f, fault ≠ .notMoved f) ∧
        WorksOn path directory u t ∧ Lacks path (r.Holds payload) u) ∨
      ∃ binary u x, r.unpack payload path t = (.ok (), u) ∧ r.Holds payload binary ∧
        WorksOn path directory u t ∧
        u.get? (FileTree.place path) = some (.file ⟨binary.toArray⟩ x) := by
  unfold unpack
  rcases hpacking : r.packing with _ | member
  · simp only
    rcases InstallAction.write_cases hp h ByteArray.empty with ⟨hd, hw⟩ | ⟨u, x, hw, hworks, -⟩
    · exact .inl ⟨_, t, bind_of_eq_error hw, by simp, .refl h, .inl hd⟩
    rw [bind_of_eq_ok hw]
    rcases InstallAction.write_cases hp hworks.passes ⟨payload.pieces.flatten.toArray⟩ with
      ⟨hd, hw'⟩ | ⟨u', x', hw', hworks', hfile⟩
    · exact .inl ⟨_, u, bind_of_eq_error hw', by simp, hworks, .inl hd⟩
    rw [bind_of_eq_ok hw']
    rcases hwhole : payload.isWhole with _ | _
    · refine .inl ⟨.cutOff, u', rfl, by simp, hworks'.trans hworks, .inr fun binary hb => ?_⟩
      cases hwhole.symm.trans hb.isWhole
    · exact .inr ⟨_, u', x', rfl, .bare hpacking hwhole, hworks'.trans hworks, hfile⟩
  · simp only
    rcases hwhole : payload.isWhole with _ | _
    · refine .inl ⟨.cutOff, t, rfl, by simp, .refl h, .inr fun binary hb => ?_⟩
      cases hwhole.symm.trans hb.isWhole
    simp only [Bool.not_true, Bool.false_eq_true, if_false]
    rcases member_cases payload member with
      ⟨fault, hm, hfault, hnone⟩ | ⟨before, e, after, hm, hentries, hmember, hfirst⟩
    · refine .inl ⟨fault, t, ?_, hfault, .refl h, .inr ?_⟩
      · exact bind_of_eq_error (by rw [hm]; rfl)
      · rintro binary (⟨hbare, -⟩ | ⟨hpacking', -, hentries, hmember, -⟩)
        · cases hpacking.symm.trans hbare
        · cases hpacking.symm.trans hpacking'
          exact hnone _ (by simp [hentries]) hmember
    rw [bind_of_eq_ok (a := e.content) (by rw [hm]; rfl)]
    rcases InstallAction.write_cases hp h ⟨e.content.toArray⟩ with
      ⟨hd, hw⟩ | ⟨u, x, hw, hworks, hfile⟩
    · exact .inl ⟨_, t, hw, by simp, .refl h, .inl hd⟩
    · exact .inr ⟨_, u, x, hw, .archive hpacking hwhole hentries hmember hfirst, hworks, hfile⟩

theorem fetch_cases (hp : IsIn path directory name) (h : t.Passes [] directory) (d : Download) :
    (∃ fault u, r.fetch d path t = (.error fault, u) ∧ (∀ f, fault ≠ .notMoved f) ∧
        WorksOn path directory u t ∧ Lacks path (r.Yields d) u) ∨
      ∃ binary u, r.fetch d path t = (.ok (), u) ∧ r.Yields d binary ∧
        WorksOn path directory u t ∧
        u.get? (FileTree.place path) = some (.file ⟨binary.toArray⟩ true) := by
  unfold fetch
  rcases d with _ | ⟨status, phrase, payload⟩
  · refine .inl ⟨.unreachable r.url, t, bind_of_eq_error rfl, by simp, .refl h, .inr ?_⟩
    rintro binary ⟨⟩
  by_cases hstatus : 400 ≤ status ∧ status < 600
  · refine .inl ⟨.refusedByServer status phrase r.url, t, bind_of_eq_error ?_, by simp, .refl h,
      .inr ?_⟩
    · rw [accept, if_pos hstatus]
      rfl
    · rintro binary ⟨hnot, -⟩
      exact hnot hstatus
  have haccept : r.accept (.answered status phrase payload) = .ok payload := by
    rw [accept, if_neg hstatus]
  rw [bind_of_eq_ok (a := payload) (by rw [haccept]; rfl)]
  rcases r.unpack_cases hp h payload with
    ⟨fault, u, hu, hfault, hworks, hlacks⟩ | ⟨binary, u, x, hu, hholds, hworks, hfile⟩
  · refine .inl ⟨fault, u, bind_of_eq_error hu, hfault, hworks, hlacks.imp_right ?_⟩
    rintro hno binary ⟨-, hholds⟩
    exact hno binary hholds
  · rw [bind_of_eq_ok hu]
    obtain ⟨v, hv, hworks', hfile'⟩ := InstallAction.makeExecutable_of_passes hp hworks.passes hfile
    exact .inr ⟨binary, v, hv, .answered hstatus hholds, hworks'.trans hworks, hfile'⟩

/-- What could not be fetched leaves no partial file, not even one that was there before. -/
theorem fetchOrRemove_cases (hp : IsIn path directory name) (h : t.Passes [] directory)
    (d : Download) :
    (∃ fault u, r.fetchOrRemove d path t = (.error fault, u) ∧ (∀ f, fault ≠ .notMoved f) ∧
        WorksOn path directory u t ∧ u.content? path = none ∧ Lacks path (r.Yields d) u) ∨
      ∃ binary u, r.fetchOrRemove d path t = (.ok (), u) ∧ r.Yields d binary ∧
        WorksOn path directory u t ∧
        u.get? (FileTree.place path) = some (.file ⟨binary.toArray⟩ true) := by
  rcases r.fetch_cases hp h d with
    ⟨fault, u, hu, hfault, hworks, hlacks⟩ | ⟨binary, u, hu, hyields, hworks, hfile⟩
  · obtain ⟨hremoved, hnone, hstays⟩ := worksOn_remove hp hworks.passes
    exact .inl ⟨fault, _, by simp only [fetchOrRemove, hu], hfault, hremoved.trans hworks, hnone,
      hlacks.imp_left hstays⟩
  · exact .inr ⟨binary, u, by simp only [fetchOrRemove, hu], hyields, hworks, hfile⟩

end Release

/-! ## Moving into place -/

section Moving

variable {destination parent : String} {t u : FileTree}

theorem isName_download {name : String} (h : Path.IsName name.toList) :
    Path.IsName (name ++ ".download").toList := by
  refine ⟨by simp [h.nonempty], ?_, fun he => ?_, fun he => ?_⟩
  · simpa using h.slash
  · have := congrArg List.length he
    simp at this
  · have := congrArg List.length he
    simp at this

/-- The partial file of a destination is beside it, or in it if that is a step upwards or on the
spot, to which no file can be moved. -/
structure IsDownloadedTo (destination parent : String) (directory : List String) (file : String) :
    Prop where
  isIn : IsIn (partialPath destination) directory file
  passes : ∀ u : FileTree, u.Passes [] (names parent) → u.Passes [] directory
  place_ne : place destination ≠ place (partialPath destination)
  beside : endsInName destination = true →
    ∃ name, names destination = directory ++ [name] ∧ name ≠ ".." ∧ file ≠ name

theorem exists_isDownloadedTo (h : Path.parent? destination = some parent) :
    ∃ directory file, IsDownloadedTo destination parent directory file := by
  rcases Path.components_of_parent? h with ⟨name, hfile, hname, hcomponents⟩ | ⟨hfile, hcomponents⟩
  · have hnames : names destination = names parent ++ [name] := by simp [names, hcomponents]
    have hdots : name ≠ ".." := by
      rintro rfl
      exact hname.dots rfl
    have hne : name ++ ".download" ≠ name := fun he => by
      have := congrArg String.length he
      simp at this
    have hpartial : partialPath destination = Path.join parent (name ++ ".download") := by
      simp [partialPath, Path.withFileName, hfile, h]
    have hin := isIn_join parent (isName_download hname)
    rw [← hpartial] at hin
    refine ⟨names parent, name ++ ".download", hin, fun u hu => hu, ?_,
      fun _ => ⟨name, hnames, hdots, hne⟩⟩
    rw [hin.place, place, hnames, follow_concat _ _ hdots]
    simpa using hne.symm
  · have hpartial : partialPath destination = Path.join destination ".download" := by
      simp [partialPath, Path.withFileName, hfile]
    have hin : IsIn (Path.join destination ".download") (names destination) ".download" :=
      isIn_join destination (by decide +kernel)
    rw [← hpartial] at hin
    refine ⟨names destination, ".download", hin, fun u hu => ?_, ?_, fun hends => ?_⟩
    · rcases hcomponents with hcomponents | ⟨hcomponents, hparent⟩
      · have hnames : names destination = names parent ++ [".."] := by simp [names, hcomponents]
        exact hnames ▸ hu.upwards
      · have hnames : names destination = names parent := by simp [names, hcomponents, hparent]
        exact hnames ▸ hu
    · rw [hin.place, place]
      simp
    · rcases hcomponents with hcomponents | ⟨hcomponents, -⟩ <;>
        simp [endsInName, names, hcomponents] at hends

/-- No file can be moved to a destination: a directory stands there, or the path is not that of a
file. -/
def Blocks (t : FileTree) (destination : String) : Prop :=
  t.get? (place destination) = some .directory ∨
    ∀ directory name, ¬ IsIn destination directory name

theorem rename_cases {directory : List String} {file : String}
    (hd : IsDownloadedTo destination parent directory file) (h : t.Passes [] directory)
    {content : ByteArray} {x : Bool}
    (hfile : t.get? (place (partialPath destination)) = some (.file content x)) :
    (∃ fault, t.rename (partialPath destination) destination = .error fault ∧
        Blocks t destination) ∨
      t.get? (place destination) ≠ some .directory ∧ ∃ name, IsIn destination directory name ∧
        file ≠ name ∧ t.rename (partialPath destination) destination =
          .ok (t.move (place (partialPath destination)) (place destination)) := by
  by_cases hends : endsInName destination = true ∧ meansDirectory destination = false
  · obtain ⟨name, hnames, hdots, hne⟩ := hd.beside hends.1
    have hin : IsIn destination directory name := ⟨hnames, hdots, hends.2⟩
    rcases rename_of_passes hd.isIn hin hne h hfile with ⟨hdir, hr⟩ | ⟨hfree, hr⟩
    · exact .inl ⟨_, hr, .inl hdir⟩
    · exact .inr ⟨hfree, name, hin, hne, hr⟩
  · refine .inl ?_
    obtain ⟨fault, hr⟩ := rename_eq_error (locate_of_passes hd.isIn h) hfile hends
    exact ⟨fault, hr, .inr fun _ _ hin => hends ⟨hin.endsInName, hin.isFile⟩⟩

end Moving

/-! ## Installing -/

/-- What was at the destination is still there, and so is everything else, the partial file and new
directories apart. -/
structure Spares (destination : String) (u t : FileTree) : Prop where
  entry : ∀ e, t.get? (place destination) = some e → u.get? (place destination) = some e
  content : u.content? destination = t.content? destination
  others : ExtendsBut (place (partialPath destination)) u t

theorem Spares.of_extendsBut {destination : String} {t u : FileTree}
    (h : ExtendsBut (place (partialPath destination)) u t)
    (hne : place destination ≠ place (partialPath destination)) : Spares destination u t where
  entry e he := by
    rcases h _ hne with hsame | ⟨hnone, -⟩
    · exact hsame.trans he
    · cases hnone.symm.trans he
  content := by
    rcases h _ hne with hsame | ⟨hnone, hdir⟩
    · exact content?_congr hsame
    · unfold content?
      rw [hnone, hdir]
  others := h

/-- Nothing is fetched: the destination has no parent, or that cannot be created, or a directory
stands in the place of the partial file, or the server does not send the binary. -/
inductive Hindered (r : Release) (d : Download) (destination : String) (t u : FileTree) : Prop
  | noPlace (h : Path.parent? destination = none)
  | noDirectory {parent : String} {fault : SystemFault} (h : Path.parent? destination = some parent)
      (hfault : t.makeDirectories parent = .error fault)
  | inTheWay (h : u.get? (place (partialPath destination)) = some .directory)
  | noBinary (h : ∀ binary, ¬ r.Yields d binary)

/-- How an install ends, and what it leaves. -/
inductive InstallEnd (r : Release) (d : Download) (destination : String) (t : FileTree) :
    Except Error Unit → FileTree → Prop
  /-- Nothing was fetched, and no partial file is left. -/
  | undone {fault : AcquisitionFault} {u : FileTree} (hfault : ∀ f, fault ≠ .notMoved f)
      (hspares : Spares destination u t)
      (hgone : u = t ∨ u.content? (partialPath destination) = none)
      (hhindered : Hindered r d destination t u) :
      InstallEnd r d destination t (.error (.acquisition s!"{r.tool} {r.version}" fault)) u
  /-- The binary was fetched and could not be moved, and the partial file is left. -/
  | unmoved {fault : SystemFault} {binary : List UInt8} {u : FileTree}
      (hyields : r.Yields d binary) (hspares : Spares destination u t)
      (hblocks : Blocks u destination)
      (hleft : u.get? (place (partialPath destination)) = some (.file ⟨binary.toArray⟩ true)) :
      InstallEnd r d destination t
        (.error (.acquisition s!"{r.tool} {r.version}" (.notMoved fault))) u
  | installed {binary : List UInt8} {u : FileTree} (hyields : r.Yields d binary)
      (hplaced : u.get? (place destination) = some (.file ⟨binary.toArray⟩ true))
      (hgone : u.get? (place (partialPath destination)) = none)
      (hothers : ∀ k, ¬ place destination <+: k → ¬ place (partialPath destination) <+: k →
        u.get? k = t.get? k ∨ (t.get? k = none ∧ u.get? k = some .directory)) :
      InstallEnd r d destination t (.ok ()) u

theorem Release.install_of_place_eq_error {r : Release} {d : Download} {destination : String}
    {t u : FileTree} {fault : AcquisitionFault} (h : r.place d destination t = (.error fault, u)) :
    r.install d destination t = (.error (.acquisition s!"{r.tool} {r.version}" fault), u) := by
  simp only [install, h]

theorem Release.install_ends (r : Release) (d : Download) (destination : String) (t : FileTree) :
    InstallEnd r d destination t (r.install d destination t).1 (r.install d destination t).2 := by
  have hrefl : Spares destination t t := ⟨fun _ he => he, rfl, fun _ _ => .inl rfl⟩
  rcases hparent : Path.parent? destination with _ | parent
  · have hplace : r.place d destination t = (.error .noPlace, t) := by
      simp only [place, hparent]
      rfl
    rw [install_of_place_eq_error hplace]
    exact .undone (by simp) hrefl (.inl rfl) (.noPlace hparent)
  rcases hmake : t.makeDirectories parent with fault | t₁
  · have hplace : r.place d destination t = (.error (.noDirectory parent fault), t) := by
      simp only [place, hparent]
      exact bind_of_eq_error (InstallAction.perform_of_eq_error hmake)
    rw [install_of_place_eq_error hplace]
    exact .undone (by simp) hrefl (.inl rfl) (.noDirectory hparent hmake)
  obtain ⟨directory, file, hd⟩ := exists_isDownloadedTo hparent
  obtain ⟨hext, hpasses, -⟩ := makeDirectories_eq_ok hmake
  have hplace : r.place d destination t =
      (r.fetchOrRemove d (partialPath destination) >>= fun _ =>
        InstallAction.perform .notMoved (·.rename (partialPath destination) destination)) t₁ := by
    simp only [place, hparent]
    exact bind_of_eq_ok (InstallAction.perform_of_eq_ok hmake)
  rcases r.fetchOrRemove_cases hd.isIn (hd.passes _ hpasses) d with
    ⟨fault, u, hu, hfault, hworks, hgone, hlacks⟩ | ⟨binary, u, hu, hyields, hworks, hfile⟩
  · rw [install_of_place_eq_error (hplace.trans (bind_of_eq_error hu))]
    refine .undone hfault (.of_extendsBut (hworks.extendsBut hext) hd.place_ne) (.inr hgone) ?_
    rcases hlacks with hdir | hno
    · exact .inTheWay hdir
    · exact .noBinary hno
  rw [bind_of_eq_ok hu] at hplace
  have hspares := Spares.of_extendsBut (hworks.extendsBut hext) hd.place_ne
  rcases rename_cases hd hworks.passes hfile with
    ⟨fault, hr, hblocks⟩ | ⟨hfree, name, hin, hne, hr⟩
  · rw [install_of_place_eq_error (hplace.trans (InstallAction.perform_of_eq_error hr))]
    exact .unmoved hyields hspares hblocks hfile
  · have hok : r.install d destination t =
        (.ok (),
          u.move (FileTree.place (partialPath destination)) (FileTree.place destination)) := by
      simp only [install, hplace.trans (InstallAction.perform_of_eq_ok hr)]
    rw [hok]
    refine .installed hyields ?_ ?_ fun k hkd hkp => ?_
    · rw [get?_move_target hd.isIn.place_ne_nil hin.place_ne_nil hd.place_ne.symm, hfile]
    · exact get?_move_source hd.isIn.place_ne_nil (hin.not_isPrefix hd.isIn hne.symm)
    · rw [get?_move_of_not_isPrefix hin.place_ne_nil hkp hkd]
      refine hspares.others k ?_
      rintro rfl
      exact hkp (List.prefix_refl _)

example : ((Release.install ⟨"prism", "5.12.0", "http://127.0.0.1/prism", .bare⟩
    (.answered 200 "OK" { pieces := [[35], [33, 10]] }) "/w/prism" {}).2.content? "/w/prism") =
      some ⟨#[35, 33, 10]⟩ := by
  decide +kernel

/-- A directory at the destination, and an answer that is the binary. -/
theorem Release.exists_install_left : ∃ (r : Release) (d : Download) (destination : String)
    (t u : FileTree) (e : Error), r.install d destination t = (.error e, u) ∧
      t.content? (partialPath destination) = none ∧
      u.content? (partialPath destination) = some "#!/bin/sh\necho hi\n".toUTF8 := by
  let r : Release := ⟨"docker-compose", "2.29.7", "http://127.0.0.1/dc", .bare⟩
  let d : Download := .answered 200 "OK" { pieces := ["#!/bin/sh\necho hi\n".toUTF8.toList] }
  let destination := "/w/tools/docker-compose"
  let t : FileTree := ⟨[(["w"], .directory), (["w", "tools"], .directory),
    (["w", "tools", "docker-compose"], .directory)]⟩
  have hplace : (r.place d destination t).1 = .error (.notMoved .isDirectory) := by decide +kernel
  exact ⟨r, d, destination, t, (r.place d destination t).2, _,
    install_of_place_eq_error (Prod.fst_eq_iff.1 hplace), by decide +kernel, by decide +kernel⟩

end LocalTopology
