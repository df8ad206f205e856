import LocalTopology.Proofs.Overlaying
import LocalTopology.Runner.Basic
import Mathlib.Data.List.Basic

/-!
# What several declarations of one target amount to

Two runners declare the same target when they are of one kind and run the same thing
(`Runner.sameTarget_iff`). A runner unites the declarations of its target when every field holds
what the rule of that field makes of them: the last one set, the last list with items, `https` if
any says so, environments on top of one another, and for each environment of a deployed instance
the last URL. One declaration unites itself (`Runner.unites_singleton`), and a runner that absorbs
another unites the declarations of both (`Runner.Unites.absorb`).
-/

namespace LocalTopology

/-! ## The rules of fields -/

section Rules

variable {α β : Type}

/-- The last value that is set. -/
def lastSet (xs : List (Option α)) : Option α := (xs.filterMap id).getLast?

/-- The last list that has items, or none. -/
def lastFilled (ls : List (List α)) : List α := ((ls.filter (!·.isEmpty)).getLast?).getD []

/-- Environments, each on top of those before it. -/
def stacked (es : List Environment) : Environment := es.foldl OrderedMap.overlay ∅

@[simp]
theorem lastSet_singleton (x : Option α) : lastSet [x] = x := by
  cases x <;> rfl

theorem lastSet_append (xs ys : List (Option α)) :
    lastSet (xs ++ ys) = (lastSet ys <|> lastSet xs) := by
  rw [lastSet, List.filterMap_append, List.getLast?_append]
  exact Option.or_eq_orElse

@[simp]
theorem lastSet_concat (xs : List (Option α)) (x : Option α) :
    lastSet (xs ++ [x]) = (x <|> lastSet xs) := by
  rw [lastSet_append, lastSet_singleton]

theorem mem_of_lastSet {xs : List (Option α)} {a : α} (h : lastSet xs = some a) : some a ∈ xs := by
  obtain ⟨x, hx, rfl⟩ := List.mem_filterMap.1 (List.mem_of_getLast? h)
  exact hx

@[simp]
theorem lastFilled_singleton (l : List α) : lastFilled [l] = l := by
  cases l <;> rfl

theorem lastFilled_append (ls ms : List (List α)) :
    lastFilled (ls ++ ms) = absorbList (lastFilled ls) (lastFilled ms) := by
  unfold lastFilled absorbList
  rw [List.filter_append, List.getLast?_append]
  generalize hm : (ms.filter fun l => !l.isEmpty).getLast? = last
  rcases last with _ | l
  · rfl
  · have hl : l.isEmpty = false := by
      simpa using (List.mem_filter.1 (List.mem_of_getLast? hm)).2
    simp only [Option.some_or, Option.getD_some, hl, Bool.false_eq_true, if_false]

@[simp]
theorem stacked_concat (es : List Environment) (e : Environment) :
    stacked (es ++ [e]) = (stacked es).overlay e := by
  simp [stacked, List.foldl_append]

@[simp]
theorem stacked_singleton (e : Environment) : stacked [e] = e := by
  simp [stacked]

theorem stacked_append (es ds : List Environment) :
    stacked (es ++ ds) = (stacked es).overlay (stacked ds) := by
  induction ds using List.reverseRecOn with
  | nil => rw [List.append_nil]; rfl
  | append_singleton ds d ih =>
    rw [← List.append_assoc, stacked_concat, ih, stacked_concat, OrderedMap.overlay_assoc]

theorem Protocol.absorb_eq_https_iff {old incoming : Protocol} :
    old.absorb incoming = .https ↔ old = .https ∨ incoming = .https := by
  cases old <;> cases incoming <;> decide

theorem RemoteRunner.get?_absorb (old incoming : RemoteRunner) (environment : String) :
    (old.absorb incoming).environments.get? environment =
      (incoming.environments.get? environment <|> old.environments.get? environment) := by
  rw [absorb, SortedMap.get?_putAll _ _ _ (Entries.nodup_of_sorted incoming.environments.sorted)]
  rfl

end Rules

/-! ## Targets -/

namespace Runner

/-- The kind of a runner and what it runs; all deployed instances are one target. -/
def target : Runner → String × String
  | r@(container c) => (r.kind, c.image)
  | r@(project p) => (r.kind, p.project)
  | r@(executable e) => (r.kind, e.command)
  | r@(remote _) => (r.kind, "")
  | r@(mock m) => (r.kind, m.specification)

theorem sameTarget_iff {a b : Runner} : a.sameTarget b = true ↔ a.target = b.target := by
  cases a <;> cases b <;> simp [sameTarget, target, kind]

theorem sameTarget_congr {a b : Runner} (h : a.target = b.target) (r : Runner) :
    a.sameTarget r = b.sameTarget r := by
  rw [Bool.eq_iff_iff, sameTarget_iff, sameTarget_iff, h]

@[simp]
theorem target_absorb (a b : Runner) : (a.absorb b).target = a.target := by
  cases a <;> cases b <;> rfl

end Runner

/-! ## Declarations of one target, united -/

/-- A container that unites its declarations. -/
structure ContainerRunner.Unites (m : ContainerRunner) (cs : List ContainerRunner) : Prop where
  image : ∀ c ∈ cs, c.image = m.image
  containerPort : (cs.map (·.containerPort)).getLast? = some m.containerPort
  hostPort : m.hostPort = lastSet (cs.map (·.hostPort))
  protocol : m.protocol = .https ↔ ∃ c ∈ cs, c.protocol = .https
  environment : m.environment = stacked (cs.map (·.environment))
  volumes : m.volumes = lastFilled (cs.map (·.volumes))
  command : m.command = lastFilled (cs.map (·.command))

/-- A project that unites its declarations. -/
structure ProjectRunner.Unites (m : ProjectRunner) (ps : List ProjectRunner) : Prop where
  project : ∀ p ∈ ps, p.project = m.project
  port : m.port = lastSet (ps.map (·.port))
  protocol : m.protocol = .https ↔ ∃ p ∈ ps, p.protocol = .https
  workingDirectory : m.workingDirectory = lastSet (ps.map (·.workingDirectory))
  environment : m.environment = stacked (ps.map (·.environment))

/-- An executable that unites its declarations. -/
structure ExecutableRunner.Unites (m : ExecutableRunner) (es : List ExecutableRunner) : Prop where
  command : ∀ e ∈ es, e.command = m.command
  arguments : m.arguments = lastFilled (es.map (·.arguments))
  port : m.port = lastSet (es.map (·.port))
  protocol : m.protocol = .https ↔ ∃ e ∈ es, e.protocol = .https
  workingDirectory : m.workingDirectory = lastSet (es.map (·.workingDirectory))
  environment : m.environment = stacked (es.map (·.environment))

/-- A deployed instance that unites its declarations. -/
def RemoteRunner.Unites (m : RemoteRunner) (rs : List RemoteRunner) : Prop :=
  ∀ environment, m.environments.get? environment =
    lastSet (rs.map (·.environments.get? environment))

/-- A mock server that unites its declarations. -/
structure MockRunner.Unites (m : MockRunner) (ms : List MockRunner) : Prop where
  specification : ∀ o ∈ ms, o.specification = m.specification
  port : m.port = lastSet (ms.map (·.port))
  environment : m.environment = stacked (ms.map (·.environment))

/-- A runner that unites declarations, all of its kind. -/
def Runner.Unites (m : Runner) (rs : List Runner) : Prop :=
  match m with
  | .container m => ∃ cs, rs = cs.map .container ∧ m.Unites cs
  | .project m => ∃ ps, rs = ps.map .project ∧ m.Unites ps
  | .executable m => ∃ es, rs = es.map .executable ∧ m.Unites es
  | .remote m => ∃ os, rs = os.map .remote ∧ m.Unites os
  | .mock m => ∃ ms, rs = ms.map .mock ∧ m.Unites ms

theorem ContainerRunner.unites_singleton (c : ContainerRunner) : c.Unites [c] where
  image := by simp
  containerPort := by simp
  hostPort := by simp
  protocol := by simp
  environment := by simp
  volumes := by simp
  command := by simp

theorem ContainerRunner.Unites.absorb {m n : ContainerRunner} {cs ds : List ContainerRunner}
    (h : m.Unites cs) (h' : n.Unites ds) (hi : m.image = n.image) :
    (m.absorb n).Unites (cs ++ ds) where
  image := by
    intro x hx
    rcases List.mem_append.1 hx with hx | hx
    · exact h.image x hx
    · exact (h'.image x hx).trans hi.symm
  containerPort := by simp [ContainerRunner.absorb, h'.containerPort]
  hostPort := by simp [ContainerRunner.absorb, lastSet_append, h.hostPort, h'.hostPort]
  protocol := by
    simp [ContainerRunner.absorb, Protocol.absorb_eq_https_iff, h.protocol, h'.protocol,
      or_and_right, exists_or]
  environment := by
    simp [ContainerRunner.absorb, stacked_append, h.environment, h'.environment]
  volumes := by simp [ContainerRunner.absorb, lastFilled_append, h.volumes, h'.volumes]
  command := by simp [ContainerRunner.absorb, lastFilled_append, h.command, h'.command]

theorem ProjectRunner.unites_singleton (p : ProjectRunner) : p.Unites [p] where
  project := by simp
  port := by simp
  protocol := by simp
  workingDirectory := by simp
  environment := by simp

theorem ProjectRunner.Unites.absorb {m n : ProjectRunner} {ps qs : List ProjectRunner}
    (h : m.Unites ps) (h' : n.Unites qs) (hp : m.project = n.project) :
    (m.absorb n).Unites (ps ++ qs) where
  project := by
    intro x hx
    rcases List.mem_append.1 hx with hx | hx
    · exact h.project x hx
    · exact (h'.project x hx).trans hp.symm
  port := by simp [ProjectRunner.absorb, lastSet_append, h.port, h'.port]
  protocol := by
    simp [ProjectRunner.absorb, Protocol.absorb_eq_https_iff, h.protocol, h'.protocol,
      or_and_right, exists_or]
  workingDirectory := by
    simp [ProjectRunner.absorb, lastSet_append, h.workingDirectory, h'.workingDirectory]
  environment := by
    simp [ProjectRunner.absorb, stacked_append, h.environment, h'.environment]

theorem ExecutableRunner.unites_singleton (e : ExecutableRunner) : e.Unites [e] where
  command := by simp
  arguments := by simp
  port := by simp
  protocol := by simp
  workingDirectory := by simp
  environment := by simp

theorem ExecutableRunner.Unites.absorb {m n : ExecutableRunner} {es ds : List ExecutableRunner}
    (h : m.Unites es) (h' : n.Unites ds) (hc : m.command = n.command) :
    (m.absorb n).Unites (es ++ ds) where
  command := by
    intro x hx
    rcases List.mem_append.1 hx with hx | hx
    · exact h.command x hx
    · exact (h'.command x hx).trans hc.symm
  arguments := by simp [ExecutableRunner.absorb, lastFilled_append, h.arguments, h'.arguments]
  port := by simp [ExecutableRunner.absorb, lastSet_append, h.port, h'.port]
  protocol := by
    simp [ExecutableRunner.absorb, Protocol.absorb_eq_https_iff, h.protocol, h'.protocol,
      or_and_right, exists_or]
  workingDirectory := by
    simp [ExecutableRunner.absorb, lastSet_append, h.workingDirectory, h'.workingDirectory]
  environment := by
    simp [ExecutableRunner.absorb, stacked_append, h.environment, h'.environment]

theorem RemoteRunner.Unites.absorb {m n : RemoteRunner} {os ps : List RemoteRunner}
    (h : m.Unites os) (h' : n.Unites ps) : (m.absorb n).Unites (os ++ ps) := by
  intro environment
  rw [get?_absorb, h environment, h' environment, List.map_append, lastSet_append]

theorem MockRunner.unites_singleton (o : MockRunner) : o.Unites [o] where
  specification := by simp
  port := by simp
  environment := by simp

theorem MockRunner.Unites.absorb {m n : MockRunner} {ms os : List MockRunner} (h : m.Unites ms)
    (h' : n.Unites os) (hs : m.specification = n.specification) :
    (m.absorb n).Unites (ms ++ os) where
  specification := by
    intro x hx
    rcases List.mem_append.1 hx with hx | hx
    · exact h.specification x hx
    · exact (h'.specification x hx).trans hs.symm
  port := by simp [MockRunner.absorb, lastSet_append, h.port, h'.port]
  environment := by simp [MockRunner.absorb, stacked_append, h.environment, h'.environment]

namespace Runner

theorem unites_singleton (r : Runner) : r.Unites [r] := by
  cases r with
  | container c => exact ⟨[c], rfl, c.unites_singleton⟩
  | project p => exact ⟨[p], rfl, p.unites_singleton⟩
  | executable e => exact ⟨[e], rfl, e.unites_singleton⟩
  | remote o => exact ⟨[o], rfl, fun _ => by simp⟩
  | mock m => exact ⟨[m], rfl, m.unites_singleton⟩

/-- A runner that absorbs another one of its target unites the declarations of both. -/
theorem Unites.absorb {m n : Runner} {rs ss : List Runner} (h : m.Unites rs) (h' : n.Unites ss)
    (ht : m.sameTarget n = true) : (m.absorb n).Unites (rs ++ ss) := by
  cases m with
  | container m =>
    cases n with
    | container n =>
      obtain ⟨cs, rfl, hm⟩ := h
      obtain ⟨ds, rfl, hn⟩ := h'
      exact ⟨cs ++ ds, List.map_append.symm, hm.absorb hn (by simpa [sameTarget] using ht)⟩
    | _ => simp [sameTarget] at ht
  | project m =>
    cases n with
    | project n =>
      obtain ⟨ps, rfl, hm⟩ := h
      obtain ⟨qs, rfl, hn⟩ := h'
      exact ⟨ps ++ qs, List.map_append.symm, hm.absorb hn (by simpa [sameTarget] using ht)⟩
    | _ => simp [sameTarget] at ht
  | executable m =>
    cases n with
    | executable n =>
      obtain ⟨es, rfl, hm⟩ := h
      obtain ⟨ds, rfl, hn⟩ := h'
      exact ⟨es ++ ds, List.map_append.symm, hm.absorb hn (by simpa [sameTarget] using ht)⟩
    | _ => simp [sameTarget] at ht
  | remote m =>
    cases n with
    | remote n =>
      obtain ⟨os, rfl, hm⟩ := h
      obtain ⟨ps, rfl, hn⟩ := h'
      exact ⟨os ++ ps, List.map_append.symm, hm.absorb hn⟩
    | _ => simp [sameTarget] at ht
  | mock m =>
    cases n with
    | mock n =>
      obtain ⟨ms, rfl, hm⟩ := h
      obtain ⟨os, rfl, hn⟩ := h'
      exact ⟨ms ++ os, List.map_append.symm, hm.absorb hn (by simpa [sameTarget] using ht)⟩
    | _ => simp [sameTarget] at ht

end Runner

end LocalTopology
