import LocalTopology.Proofs.Replaying

/-!
# Absorbing in groups

A runner that absorbs others unites their declarations, and the declarations of a target leave no
choice. So it makes no difference which of three declarations are put together first
(`Runner.absorb_assoc`), and a runner that absorbs itself is unchanged (`Runner.absorb_self`).
-/

namespace LocalTopology

namespace Runner

theorem sameTarget_equivalence : Equivalence fun a b : Runner => a.sameTarget b = true where
  refl _ := sameTarget_iff.2 rfl
  symm h := sameTarget_iff.2 (sameTarget_iff.1 h).symm
  trans h h' := sameTarget_iff.2 ((sameTarget_iff.1 h).trans (sameTarget_iff.1 h'))

theorem absorb_assoc {a b c : Runner} (hab : a.sameTarget b = true)
    (hbc : b.sameTarget c = true) : (a.absorb b).absorb c = a.absorb (b.absorb c) := by
  have hfirst : (a.absorb b).sameTarget c = true :=
    (sameTarget_congr (target_absorb a b) c).trans (sameTarget_equivalence.trans hab hbc)
  have hlast : a.sameTarget (b.absorb c) = true := by
    rw [sameTarget_iff, target_absorb]
    exact sameTarget_iff.1 hab
  have hleft : ((a.absorb b).absorb c).Unites ([a] ++ [b] ++ [c]) :=
    (a.unites_singleton.absorb b.unites_singleton hab).absorb c.unites_singleton hfirst
  have hright : (a.absorb (b.absorb c)).Unites ([a] ++ ([b] ++ [c])) :=
    a.unites_singleton.absorb (b.unites_singleton.absorb c.unites_singleton hbc) hlast
  rw [← List.append_assoc] at hright
  refine hleft.unique hright ?_
  rw [target_absorb, target_absorb, target_absorb]

theorem absorb_self (a : Runner) : a.absorb a = a := by
  have hself : (a.absorb a).Unites ([] ++ [a] ++ [a]) :=
    a.unites_singleton.absorb a.unites_singleton (sameTarget_equivalence.refl a)
  exact hself.of_replayed.unique a.unites_singleton (target_absorb a a)

theorem absorb_of_kind_ne {a b : Runner} (h : a.kind ≠ b.kind) : a.absorb b = a := by
  cases a <;> cases b <;> first | rfl | exact absurd rfl h

/-- Declarations of one target are told apart from all others, may be absorbed in any groups, and
change nothing a second time; what absorbs another keeps its target, and another kind changes
nothing. -/
theorem absorb_laws :
    (Equivalence fun a b : Runner => a.sameTarget b = true) ∧
    (∀ a b c : Runner, a.sameTarget b = true → b.sameTarget c = true → a.sameTarget c = true →
      (a.absorb b).absorb c = a.absorb (b.absorb c)) ∧
    (∀ a : Runner, a.absorb a = a) ∧
    (∀ a b : Runner, (a.absorb b).sameTarget a = true) ∧
    ∀ a b : Runner, a.kind ≠ b.kind → a.absorb b = a := by
  refine ⟨sameTarget_equivalence, fun a b c hab hbc _ => absorb_assoc hab hbc, absorb_self,
    fun a b => ?_, fun a b => absorb_of_kind_ne⟩
  rw [sameTarget_iff, target_absorb]

end Runner

end LocalTopology
