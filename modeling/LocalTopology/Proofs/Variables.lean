import LocalTopology.Document.Environment
import LocalTopology.Proofs.Overlaying

/-!
# Environments, by what is written into them

Whichever way an environment comes about, by writing or defaulting a variable, on top of another
one, from a list or from a document, it is what collecting all that was written leaves
(`Environment.Written.eq_ofList`): of the names that differ only in case there is one, where the
first of them was written and as the last of them was written.
-/

namespace LocalTopology

/-! ## Documents -/

namespace Document

open Yaml

/-- The variables of a mapping: a name that is written twice keeps its first place and its last
value, and the values are taken as text. -/
def variablesOf : Result (List (String × Value)) → List (String × String)
  | .ok values => (OrderedMap.ofList values : Registry Value).entries.filterMap fun e =>
      e.2.scalarText?.map fun text => (e.1, text)
  | .error _ => []

theorem environmentOf_eq_ok : ∀ {es : List (String × Value)} {env result : Environment},
    environmentOf env es = .ok result →
      result = env.putAll (es.filterMap fun e => e.2.scalarText?.map fun text => (e.1, text))
  | [], env, result, h => by
    cases h
    rfl
  | (name, value) :: es, env, result, h => by
    unfold environmentOf at h
    rcases hv : value.scalarText? with _ | text <;> simp only [hv] at h
    · cases h
    · rw [environmentOf_eq_ok h, List.filterMap_cons_some (by rw [hv]; rfl)]
      rfl

theorem collectEnvironment_eq_ok {values : Result (List (String × Value))} {env : Environment}
    (h : values.bind collectEnvironment = .ok env) : env = .ofList (variablesOf values) := by
  rcases values with fault | values
  · cases h
  · exact environmentOf_eq_ok h

end Document

/-! ## Writings -/

namespace Environment

open Yaml

/-- The environments that can come about, each with what was written into it, in order. A default is
written only where no name before it is the same but for its case. -/
inductive Written : Environment → List (String × String) → Prop
  | new : Written ∅ []
  | insert {env : Environment} {ps : List (String × String)} (h : Written env ps)
      (name value : String) : Written (env.put name value) (ps ++ [(name, value)])
  | keep {env : Environment} {ps : List (String × String)} (h : Written env ps)
      (name value : String) (hold : ∃ p ∈ ps, Text.sameFolded p.1 name = true) :
      Written (env.putNew name value) ps
  | default {env : Environment} {ps : List (String × String)} (h : Written env ps)
      (name value : String) (hnew : ∀ p ∈ ps, Text.sameFolded p.1 name = false) :
      Written (env.putNew name value) (ps ++ [(name, value)])
  | overlay {env top : Environment} {ps qs : List (String × String)} (h : Written env ps)
      (htop : Written top qs) : Written (env.overlay top) (ps ++ qs)
  | collect (ps : List (String × String)) : Written (.ofList ps) ps
  | read {p : Place} {n : Node} {env : Environment} (h : Document.readEnvironment p n = .ok env) :
      Written env (Document.variablesOf (readMapping (readValue .final) p n))
  | reread {v : Value} {env : Environment} (h : Document.environment v = .ok env) :
      Written env (Document.variablesOf
        (Document.pairs (fun v => do Document.checkKeys v; return v) v))

theorem contains_ofList (ps : List (String × String)) (name : String) :
    (OrderedMap.ofList ps : Environment).contains name = true ↔
      ∃ p ∈ ps, Text.sameFolded p.1 name = true := by
  rw [OrderedMap.contains, Option.isSome_iff_ne_none, Ne, OrderedMap.get?_eq_none_iff, not_not,
    OrderedMap.forms_ofList, List.mem_eraseDups, List.mem_map]
  simp only [Text.sameFolded, beq_iff_eq]

/-- An environment is what collecting all that was written into it leaves. -/
theorem Written.eq_ofList {env : Environment} {ps : List (String × String)}
    (h : Written env ps) : env = .ofList ps := by
  induction h with
  | new => rfl
  | insert _ name value ih =>
    rw [ih, OrderedMap.ofList_append]
    rfl
  | keep _ name value hold ih =>
    rw [ih, OrderedMap.putNew, if_pos ((contains_ofList _ _).2 hold)]
  | @default _ ps _ name value hnew ih =>
    have hno : ¬ (OrderedMap.ofList ps : Environment).contains name = true := by
      rw [contains_ofList]
      rintro ⟨p, hp, hsame⟩
      rw [hnew p hp] at hsame
      cases hsame
    rw [ih, OrderedMap.putNew, if_neg hno, OrderedMap.ofList_append]
    rfl
  | overlay _ _ ih ihtop =>
    rw [ih, ihtop, OrderedMap.overlay_ofList, OrderedMap.ofList_append]
  | collect ps => rfl
  | read h => exact Document.collectEnvironment_eq_ok h
  | reread h => exact Document.collectEnvironment_eq_ok h

/-- No two names are the same but for their case. -/
theorem pairwise_sameFolded (env : Environment) :
    env.entries.Pairwise fun d e => Text.sameFolded d.1 e.1 = false := by
  refine (List.pairwise_map.1 env.nodup).imp fun hne => ?_
  rw [Text.sameFolded, beq_eq_false_iff_ne]
  exact hne

/-- An environment that comes about has one variable for each name without regard to case, where it
was first written and as it was last written; overlaying answers with the upper environment wherever
it can, in whatever groups, and neither a second time nor with an empty one does it change
anything. -/
theorem entries_laws :
    (∀ env ps, Written env ps →
      env.entries = Entries.latest Text.foldCase ps ∧
        env.entries.Pairwise fun d e => Text.sameFolded d.1 e.1 = false) ∧
    (∀ ps, (.ofList ps : Environment).entries = Entries.latest Text.foldCase ps) ∧
    (∀ (a b : Environment) name, (a.overlay b).get? name = (b.get? name).or (a.get? name)) ∧
    (∀ a b c : Environment,
      ((a.overlay b).overlay c).entries = (a.overlay (b.overlay c)).entries) ∧
    (∀ a : Environment, (a.overlay a).entries = a.entries) ∧
    (∀ a : Environment, (OrderedMap.overlay ∅ a).entries = a.entries) ∧
    ∀ a : Environment, (a.overlay ∅).entries = a.entries := by
  refine ⟨fun env ps h => ⟨?_, pairwise_sameFolded env⟩, OrderedMap.entries_ofList_eq_latest,
    OrderedMap.get?_overlay, fun a b c => ?_, fun a => ?_, fun a => ?_, fun a => ?_⟩
  · rw [h.eq_ofList, OrderedMap.entries_ofList_eq_latest]
  · rw [OrderedMap.overlay_assoc]
  · rw [OrderedMap.overlay_self]
  · rw [OrderedMap.empty_overlay]
  · rw [OrderedMap.overlay_empty]

/-- A variable that is written in two spellings, with a default that comes too late. -/
theorem entries_laws_spelled :
    ∃ env : Environment, Written env [("Path", "/bin"), ("HOME", "/root"), ("PATH", "/usr/bin")] ∧
      env.entries = [("PATH", "/usr/bin"), ("HOME", "/root")] := by
  have hpath := Written.new.insert "Path" "/bin"
  have hhome := hpath.default "HOME" "/root" (by decide)
  have hkept := hhome.keep "path" "/sbin" (by decide)
  have hagain := hkept.overlay (.collect [("PATH", "/usr/bin")])
  exact ⟨_, hagain, (entries_laws.1 _ _ hagain).1.trans (by decide)⟩

end Environment

end LocalTopology
