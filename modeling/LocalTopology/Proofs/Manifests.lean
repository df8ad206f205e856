import LocalTopology.Config
import LocalTopology.Manifest.Store
import LocalTopology.Proofs.Records
import LocalTopology.Proofs.Respelling

/-!
# Reading manifests that were written

Every part of a manifest reads as itself, whichever of its fields are left out: a field is left out
only where its reader starts from the value that it has then (`reads_readCompose`,
`reads_readSupervisor`). Readers of manifests do not tell how texts are written, so a manifest is
also read from its text wherever that is read as its tree (`Manifests.read_render`).
-/

namespace LocalTopology

namespace Document

open Yaml

variable {height : Nat}

/-! ## The manifest of containers -/

theorem reads_retries {α : Type} (put : UInt32 → α) (n : UInt32) : Reads
    (fun p node => do return put (.ofNat (← readNat (Nat.pow 2 32 - 1) "u32" p node))) height
    (.ofPlain (toString n.toNat)) (put n) := by
  have hn : n.toNat ≤ Nat.pow 2 32 - 1 := Nat.le_pred_of_lt n.toNat_lt
  have hnat : Reads (readNat (Nat.pow 2 32 - 1) "u32") height (.ofPlain (toString n.toNat))
      n.toNat := reads_readNat "u32" (by decide) hn
  have hread := hnat.map fun i => put (.ofNat i)
  rwa [UInt32.ofNat_toNat] at hread

theorem reads_readContainerCheck : ∀ c : ContainerCheck,
    Reads readContainerCheck (height + 2) (containerCheckNode c) c
  | ⟨test, interval, timeout, retries, startPeriod⟩ => by
    refine Takes.reads_readRecord _ ?_ (by decide) (by decide)
    refine .take ((reads_texts _ test).map (ContainerCheck.mk · "" "" 0 "")) ?_
    refine .take ((reads_readText _ interval).map (ContainerCheck.mk test · "" 0 "")) ?_
    refine .take ((reads_readText _ timeout).map (ContainerCheck.mk test interval · 0 "")) ?_
    refine .take (reads_retries (ContainerCheck.mk test interval timeout · "") retries) ?_
    exact takes_field ((reads_readText _ startPeriod).map
      (ContainerCheck.mk test interval timeout retries))

theorem reads_readComposeService : ∀ s : ComposeService,
    Reads readComposeService (height + 3) (composeServiceNode s) s
  | ⟨image, ports, environment, volumes, command, extraHosts, healthcheck⟩ => by
    refine Takes.reads_readRecord _ ?_ (by decide) (by decide)
    simp only [List.append_assoc, List.cons_append, List.nil_append]
    refine .take ((reads_readText _ image).map (ComposeService.mk · [] ∅ [] [] [] none)) ?_
    refine .append (takes_texts (ComposeService.mk image · ∅ [] [] [] none) (by decide)
      (fun ps => (reads_texts _ ps).map _) ports) ?_
    refine .append (takes_unlessEmpty (by decide)
      (fun he => by rw [OrderedMap.eq_empty_of_isEmpty he])
      (reads_registry (reads_readText _) (ComposeService.mk image ports · [] [] [] none)
        environment)) ?_
    refine .append (takes_texts (ComposeService.mk image ports environment · [] [] none)
      (by decide) (fun vs => (reads_texts _ vs).map _) volumes) ?_
    refine .append (takes_texts (ComposeService.mk image ports environment volumes · [] none)
      (by decide) (fun c => (reads_texts _ c).map _) command) ?_
    refine .append (takes_texts (ComposeService.mk image ports environment volumes command · none)
      (by decide) (fun hs => (reads_texts _ hs).map _) extraHosts) ?_
    exact takes_optional (ComposeService.mk image ports environment volumes command extraHosts)
      (by decide) (fun c => ((reads_readContainerCheck c).option nofun nofun).map _) healthcheck

theorem reads_readVolume (u : Unit) : Reads readVolume (height + 1) (.mapping none []) u :=
  Takes.reads_readRecord _ .nil (by decide) (by decide)

theorem reads_readCompose : ∀ m : ComposeManifest,
    Reads readCompose (height + 5) (composeNode m) m
  | ⟨name, services, volumes⟩ => by
    refine Takes.reads_readRecord _ ?_ (by decide) (by decide)
    simp only [List.cons_append, List.nil_append]
    refine .take ((reads_readText _ name).map (ComposeManifest.mk · ∅ ∅)) ?_
    refine .take (reads_registry reads_readComposeService (ComposeManifest.mk name · ∅) services) ?_
    exact takes_unlessEmpty (by decide) (fun he => by rw [OrderedMap.eq_empty_of_isEmpty he])
      (reads_registry reads_readVolume (ComposeManifest.mk name services) volumes)

/-! ## The manifest of processes -/

theorem reads_readBool (b : Bool) : Reads readBool height (boolNode b) b := by
  intro p _
  cases b <;> rfl

theorem reads_readLogSettings : ∀ s : LogSettings,
    Reads readLogSettings (height + 1) (logSettingsNode s) s
  | ⟨noColor, flushEachLine, disableJson⟩ => by
    refine Takes.reads_readRecord _ ?_ (by decide) (by decide)
    refine .take ((reads_readBool noColor).map (LogSettings.mk · true false)) ?_
    refine .take ((reads_readBool flushEachLine).map (LogSettings.mk noColor · false)) ?_
    exact takes_field ((reads_readBool disableJson).map (LogSettings.mk noColor flushEachLine))

theorem reads_readAvailability (restart : String) :
    Reads readAvailability (height + 1) (.ofEntries [("restart", .ofText restart)]) restart :=
  Takes.reads_readRecord _ (takes_field (reads_readText _ restart)) (by decide) (by decide)

theorem reads_readProcess : ∀ p : SupervisedProcess,
    Reads readProcess (height + 2) (processNode p) p
  | ⟨command, workingDirectory, environment, restart⟩ => by
    refine Takes.reads_readRecord _ ?_ (by decide) (by decide)
    simp only [List.append_assoc, List.cons_append, List.nil_append]
    refine .take ((reads_readText _ command).map
      (SupervisedProcess.mk · none [] "on_failure")) ?_
    refine .append (takes_optional (SupervisedProcess.mk command · [] "on_failure") (by decide)
      (fun d => ((reads_readText _ d).option nofun nofun).map _) workingDirectory) ?_
    refine .append (takes_texts (SupervisedProcess.mk command workingDirectory · "on_failure")
      (by decide) (fun vs => (reads_texts _ vs).map _) environment) ?_
    exact takes_field ((reads_readAvailability restart).map
      (SupervisedProcess.mk command workingDirectory environment))

theorem reads_readSupervisor : ∀ m : SupervisorManifest,
    Reads readSupervisor (height + 4) (supervisorNode m) m
  | ⟨version, isStrict, logLevel, logSettings, processes⟩ => by
    refine Takes.reads_readRecord _ ?_ (by decide) (by decide)
    refine .take ((reads_readText _ version).map (SupervisorManifest.mk · true "info" {} ∅)) ?_
    refine .take ((reads_readBool isStrict).map (SupervisorManifest.mk version · "info" {} ∅)) ?_
    refine .take ((reads_readText _ logLevel).map
      (SupervisorManifest.mk version isStrict · {} ∅)) ?_
    refine .take ((reads_readLogSettings logSettings).map
      (SupervisorManifest.mk version isStrict logLevel · ∅)) ?_
    exact takes_field (reads_registry reads_readProcess
      (SupervisorManifest.mk version isStrict logLevel logSettings) processes)

/-! ## The texts of both -/

theorem ignoresSpelling_readContainerCheck : IgnoresSpelling readContainerCheck := by
  refine ignoresSpelling_readRecord _ _ _ _ fun c name p n m h => ?_
  split
  · exact (ignoresSpelling_readText _).readList.map _ p n m h
  · exact (ignoresSpelling_readText _).map _ p n m h
  · exact (ignoresSpelling_readText _).map _ p n m h
  · exact (ignoresSpelling_readNat _ _).map _ p n m h
  · exact (ignoresSpelling_readText _).map _ p n m h

theorem ignoresSpelling_readComposeService : IgnoresSpelling readComposeService := by
  refine ignoresSpelling_readRecord _ _ _ _ fun s name p n m h => ?_
  split
  · exact (ignoresSpelling_readText _).map _ p n m h
  · exact (ignoresSpelling_readText _).readList.map _ p n m h
  · exact (ignoresSpelling_readText _).readMapping.map _ p n m h
  · exact (ignoresSpelling_readText _).readList.map _ p n m h
  · exact (ignoresSpelling_readText _).readList.map _ p n m h
  · exact (ignoresSpelling_readText _).readList.map _ p n m h
  · exact ignoresSpelling_readContainerCheck.readOption.map _ p n m h

theorem ignoresSpelling_readVolume : IgnoresSpelling readVolume :=
  ignoresSpelling_readRecord _ _ _ _ fun _ _ _ _ _ _ => rfl

theorem ignoresSpelling_readCompose : IgnoresSpelling readCompose := by
  refine ignoresSpelling_readRecord _ _ _ _ fun c name p n m h => ?_
  split
  · exact (ignoresSpelling_readText _).map _ p n m h
  · exact ignoresSpelling_readComposeService.readMapping.map _ p n m h
  · exact ignoresSpelling_readVolume.readMapping.map _ p n m h

theorem ignoresSpelling_readLogSettings : IgnoresSpelling readLogSettings := by
  refine ignoresSpelling_readRecord _ _ _ _ fun s name p n m h => ?_
  split <;> exact ignoresSpelling_readBool.map _ p n m h

theorem ignoresSpelling_readAvailability : IgnoresSpelling readAvailability :=
  ignoresSpelling_readRecord _ _ _ _ fun _ _ => ignoresSpelling_readText _

theorem ignoresSpelling_readProcess : IgnoresSpelling readProcess := by
  refine ignoresSpelling_readRecord _ _ _ _ fun s name p n m h => ?_
  split
  · exact (ignoresSpelling_readText _).map _ p n m h
  · exact (ignoresSpelling_readText _).readOption.map _ p n m h
  · exact (ignoresSpelling_readText _).readList.map _ p n m h
  · exact ignoresSpelling_readAvailability.map _ p n m h

theorem ignoresSpelling_readSupervisor : IgnoresSpelling readSupervisor := by
  refine ignoresSpelling_readRecord _ _ _ _ fun c name p n m h => ?_
  split
  · exact (ignoresSpelling_readText _).map _ p n m h
  · exact ignoresSpelling_readBool.map _ p n m h
  · exact (ignoresSpelling_readText _).map _ p n m h
  · exact ignoresSpelling_readLogSettings.map _ p n m h
  · exact ignoresSpelling_readProcess.readMapping.map _ p n m h

end Document

/-- What a tree reads as is read from its text too, wherever that is read as the tree. -/
theorem readDocument_render {α : Type} {read : Yaml.Reader α} (h : Yaml.IgnoresSpelling read)
    {n : Yaml.Node} {a : α} (hread : read .root n = .ok a) (hn : n.ReadsBack) :
    readDocument read n.render.toUTF8 = .ok a := by
  obtain ⟨m, hm, hspells⟩ := hn
  simp only [readDocument, hm, h .root m n hspells, hread]

/-- Both manifests survive being put into a tree and read again, and being put into words and read
again where the words are read as the tree. -/
theorem Manifests.read_render (compose : ComposeManifest) (supervisor : SupervisorManifest) :
    let composeTree := Document.composeNode compose
    let supervisorTree := Document.supervisorNode supervisor
    let m := render compose supervisor
    Document.readCompose .root composeTree = .ok compose ∧
      Document.readSupervisor .root supervisorTree = .ok supervisor ∧
      (composeTree.ReadsBack →
        readDocument Document.readCompose m.composeText.toUTF8 = .ok compose) ∧
      (supervisorTree.ReadsBack →
        readDocument Document.readSupervisor m.supervisorText.toUTF8 = .ok supervisor) := by
  have hcompose : Document.readCompose .root (Document.composeNode compose) = .ok compose :=
    Document.reads_readCompose compose .root (by decide : 0 + (0 + 5) ≤ Yaml.depthLimit)
  have hsupervisor :
      Document.readSupervisor .root (Document.supervisorNode supervisor) = .ok supervisor :=
    Document.reads_readSupervisor supervisor .root (by decide : 0 + (0 + 4) ≤ Yaml.depthLimit)
  exact ⟨hcompose, hsupervisor,
    readDocument_render Document.ignoresSpelling_readCompose hcompose,
    readDocument_render Document.ignoresSpelling_readSupervisor hsupervisor⟩

/-- The manifest of a container and its volume, and that of a process. -/
theorem Manifests.read_render_one :
    let compose := (ComposeManifest.empty.addService "db"
      { image := "mongo:6", volumes := ["data:/data"] }).addVolume "data"
    let supervisor := SupervisorManifest.empty.addProcess "api" { command := "true" }
    let m := render compose supervisor
    (Document.composeNode compose).ReadsBack ∧ (Document.supervisorNode supervisor).ReadsBack ∧
      readDocument Document.readCompose m.composeText.toUTF8 = .ok compose ∧
      readDocument Document.readSupervisor m.supervisorText.toUTF8 = .ok supervisor := by
  intro compose supervisor
  have hcompose : (Document.composeNode compose).ReadsBack :=
    Yaml.Node.readsBack_iff.2 (by decide +kernel)
  have hsupervisor : (Document.supervisorNode supervisor).ReadsBack :=
    Yaml.Node.readsBack_iff.2 (by decide +kernel)
  obtain ⟨-, -, hreadCompose, hreadSupervisor⟩ := read_render compose supervisor
  exact ⟨hcompose, hsupervisor, hreadCompose hcompose, hreadSupervisor hsupervisor⟩

end LocalTopology
