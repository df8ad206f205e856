import LocalTopology.Proofs.Addresses
import LocalTopology.Proofs.Storing

/-!
# Compiling without files shows what compiling with files writes

Whether manifests are written to files makes no difference up to the last step of a build
(`Graph.state_build_withPersists`), and what is shown of a state that was never put into words is
what the last step would have written (`Graph.compile_withoutFiles_eq`). So a compilation that
writes its manifests ends with the topology of one that does not, together with the proof of the
write, and leaves files that hold the texts of that topology and nothing else
(`writtenTo_of_compile`).
-/

namespace LocalTopology

open FileTree

namespace Topology

/-- What a topology shows has been written: both texts are in their places, nothing is staged, there
is proof of each manifest that has entries, and no other place has changed, except that directories
lead to these. -/
structure WrittenTo (dry : Topology) (h : Home) (w : WrittenManifests) (t t' : FileTree) :
    Prop where
  compose : t'.read h.composeManifest = .ok dry.manifests.composeText.toUTF8
  supervisor : t'.read h.supervisorManifest = .ok dry.manifests.supervisorText.toUTF8
  composeStaged : t'.isFile (stagingPath h.composeManifest) = false
  supervisorStaged : t'.isFile (stagingPath h.supervisorManifest) = false
  composeProof : w.compose.isSome = true ↔ dry.manifests.compose.services.keys ≠ []
  supervisorProof : w.supervisor.isSome = true ↔ dry.manifests.supervisor.processes.keys ≠ []
  elsewhere : t.IsTree → t'.IsTree ∧ ∀ k, k ∉ Manifests.places h → t'.get? k = t.get? k ∨
    (t.get? k = none ∧ t'.get? k = some .directory ∧ LeadsThrough [] (names h.generated) k)

end Topology

namespace Manifests

theorem isSome_compose_receipts (m : Manifests) (h : Home) :
    (m.receipts h).compose.isSome = true ↔ m.compose.services.keys ≠ [] := by
  rcases hm : m.compose.services.entries with _ | ⟨e, es⟩ <;>
    simp [receipts, ComposeManifest.isEmpty, OrderedMap.isEmpty, OrderedMap.keys, hm]

theorem isSome_supervisor_receipts (m : Manifests) (h : Home) :
    (m.receipts h).supervisor.isSome = true ↔ m.supervisor.processes.keys ≠ [] := by
  rcases hm : m.supervisor.processes.entries with _ | ⟨e, es⟩ <;>
    simp [receipts, SupervisorManifest.isEmpty, OrderedMap.isEmpty, OrderedMap.keys, hm]

end Manifests

variable {g : Graph} {c : Context} {offers : List Port} {t t' : FileTree}

namespace Graph

theorem state_build_withPersists (g : Graph) (c : Context) (offers : List Port) (t : FileTree)
    (persists : Bool) :
    (build { c with persists } g offers [.expandDependencies, .validateIngress, .compileRunners]
      t).state =
    (build c g offers [.expandDependencies, .validateIngress, .compileRunners] t).state :=
  congrArg Prod.fst
    (BuildState.reached_runSteps_of_needsFiles_eq_false persists t t _ (by decide))

/-- Without files, a graph is compiled to what is built of it. -/
theorem compile_withoutFiles_eq (g : Graph) (c : Context) (offers : List Port) (t : FileTree) :
    g.compile { c with persists := false } offers t =
      ((build c g offers [.expandDependencies, .validateIngress, .compileRunners] t).state.map
        (.ofState c g), t) := by
  rw [Graph.compile_eq, state_build_withPersists]
  rcases (build c g offers [.expandDependencies, .validateIngress, .compileRunners] t).state
    with e | st <;> rfl

/-- With files, it is written after that. -/
theorem compile_withFiles_eq (g : Graph) (c : Context) (offers : List Port) (t : FileTree) :
    g.compile { c with persists := true } offers t =
      match (build c g offers [.expandDependencies, .validateIngress, .compileRunners] t).state with
      | .error e => (.error e, t)
      | .ok st =>
        match st.writeManifests c t with
        | (.error e, t) => (.error (.inStep Step.writeManifests.name e), t)
        | (.ok st, t) => (.ok (.ofState c g st), t) := by
  rw [Graph.compile_eq, state_build_withPersists g c offers t true]
  rfl

end Graph

/-- A compilation without files leaves all files as they are and no proof of a write. One with files
that succeeds ends with the same topology, and has written what that shows. -/
theorem writtenTo_of_compile (g : Graph) (c : Context) (offers : List Port) (t : FileTree) :
    (g.compile { c with persists := false } offers t).2 = t ∧
    (∀ dry, (g.compile { c with persists := false } offers t).1 = .ok dry →
      dry.written = none) ∧
    ∀ topology t', g.compile { c with persists := true } offers t = (.ok topology, t') →
      ∃ dry w, g.compile { c with persists := false } offers t = (.ok dry, t) ∧
        topology = { dry with written := some w } ∧ dry.WrittenTo c.home w t t' := by
  rw [Graph.compile_withoutFiles_eq, Graph.compile_withFiles_eq]
  rcases hb : (build c g offers [.expandDependencies, .validateIngress, .compileRunners] t).state
    with e | st
  · refine ⟨rfl, ?_, ?_⟩
    · rintro dry ⟨⟩
    · rintro topology t' ⟨⟩
  obtain ⟨hmanifests, hwritten⟩ := BuildState.unwritten_of_build hb
  refine ⟨rfl, ?_, fun topology t' h => ?_⟩
  · rintro dry ⟨⟩
    exact hwritten
  simp only at h
  rcases hw : st.writeManifests c t with ⟨e | st', t₁⟩ <;>
    rw [hw] at h <;> cases h
  obtain ⟨w, hwrite, rfl⟩ := BuildState.writeManifests_eq_ok hw
  obtain ⟨rfl, hleft, hpasses, hchanges⟩ := Manifests.write_eq_ok hwrite
  have hc := c.home.composeManifest_isStagedAs
  have hs := c.home.supervisorManifest_isStagedAs
  have hshown : (Topology.ofState c g st).manifests = .render st.compose st.supervisor := by
    rw [Topology.ofState, hmanifests]
    rfl
  refine ⟨.ofState c g st, (Manifests.render st.compose st.supervisor).receipts c.home, rfl, ?_,
    ?_⟩
  · rw [Topology.ofState, Topology.ofState, hmanifests]
    rfl
  · refine ⟨?_, ?_, ?_, ?_, ?_, ?_, hchanges⟩ <;> try rw [hshown]
    · exact read_of_passes hc.destination hpasses hleft.compose
    · exact read_of_passes hs.destination hpasses hleft.supervisor
    · exact isFile_of_passes hc.staged hpasses hleft.composeStaged
    · exact isFile_of_passes hs.staged hpasses hleft.supervisorStaged
    · exact Manifests.isSome_compose_receipts _ _
    · exact Manifests.isSome_supervisor_receipts _ _

/-- The manifest of containers is written over an earlier one, next to a file that stays. -/
theorem writtenTo_of_compile_again :
    let c : Context := { workDirectory := "/work", home := ⟨"/h"⟩, proxyPort := 1347 }
    let g : Graph :=
      { name := "shop",
        services := .ofList
          [("db", { runners := [.container { image := "db", containerPort := 5432 }] })] }
    let t : FileTree :=
      ⟨[(["h"], .directory), (["h", "notes"], .file "keep".toUTF8 false),
        (["h", "generated"], .directory),
        (["h", "generated", "docker-compose.yml"], .file "name: earlier".toUTF8 false)]⟩
    ∃ topology dry w t', g.compile { c with persists := true } [5001] t = (.ok topology, t') ∧
      g.compile { c with persists := false } [5001] t = (.ok dry, t) ∧
      topology = { dry with written := some w } ∧ dry.WrittenTo c.home w t t' ∧
      t'.get? ["h", "notes"] = some (.file "keep".toUTF8 false) := by
  intro c g t
  have hok : (g.compile { c with persists := true } [5001] t).1.toOption.isSome = true := by
    decide +kernel
  obtain ⟨topology, hsome⟩ := Option.isSome_iff_exists.1 hok
  have hfiles := Prod.fst_eq_iff.1 (eq_ok_of_toOption hsome)
  obtain ⟨dry, w, hdry, htopology, hleft⟩ :=
    (writtenTo_of_compile g c [5001] t).2.2 topology _ hfiles
  have htree : t.IsTree := isTree_of_entries (by simp [t, get?, List.lookup_cons])
  refine ⟨topology, dry, w, _, hfiles, hdry, htopology, hleft, ?_⟩
  rcases (hleft.elsewhere htree).2 ["h", "notes"] (by decide +kernel) with heq | ⟨hnone, -⟩
  · exact heq
  · cases hnone

end LocalTopology
