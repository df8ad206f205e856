import Mathlib.Data.List.Basic

/-!
# Loops that may fail

A loop over a list threads a state through its turns and ends at the first failure. What every turn
keeps holds at the end (`foldlM_induction`), what a turn makes of its element and the others keep
holds of all elements (`foldlM_forall`), and a loop that fails does so in one of its turns
(`foldlM_eq_error`).
-/

namespace LocalTopology

variable {α σ ε : Type} {f : σ → α → Except ε σ}

theorem foldlM_concat (f : σ → α → Except ε σ) (xs : List α) (x : α) (a : σ) :
    (xs ++ [x]).foldlM f a = (xs.foldlM f a).bind fun b => f b x := by
  rw [List.foldlM_append]
  rcases xs.foldlM f a with e | b
  · rfl
  · rw [Except.bind, ← bind_pure (f b x)]
    rfl

/-- What every turn of a loop keeps holds at its end. -/
theorem foldlM_induction {P : σ → Prop} : ∀ {xs : List α} {a b : σ}, P a →
    (∀ x ∈ xs, ∀ a a', P a → f a x = .ok a' → P a') → xs.foldlM f a = .ok b → P b
  | [], _, _, ha, _, h => by
    cases h
    exact ha
  | x :: xs, a, b, ha, hstep, h => by
    rw [List.foldlM_cons] at h
    rcases hx : f a x with e | a' <;> rw [hx] at h
    · cases h
    · exact foldlM_induction (hstep x (by simp) a a' ha hx)
        (fun y hy => hstep y (by simp [hy])) h

/-- What a turn of a loop makes of its element and every other turn keeps holds of all elements at
its end. -/
theorem foldlM_forall {Q : α → σ → Prop} : ∀ {xs : List α} {a b : σ},
    (∀ x ∈ xs, ∀ a a', f a x = .ok a' → Q x a') →
    (∀ x ∈ xs, ∀ y ∈ xs, ∀ a a', Q y a → f a x = .ok a' → Q y a') →
      xs.foldlM f a = .ok b → ∀ x ∈ xs, Q x b
  | [], _, _, _, _, _ => by simp
  | x :: xs, a, b, hmake, hkeep, h => by
    rw [List.foldlM_cons] at h
    rcases hx : f a x with e | a' <;> rw [hx] at h
    · cases h
    · intro y hy
      rcases List.mem_cons.1 hy with rfl | hy
      · exact foldlM_induction (hmake y (by simp) a a' hx)
          (fun x hx a a' hq => hkeep x (by simp [hx]) y (by simp) a a' hq) h
      · exact foldlM_forall (fun z hz => hmake z (by simp [hz]))
          (fun z hz w hw => hkeep z (by simp [hz]) w (by simp [hw])) h y hy

/-- What is kept while the elements before a loop get fewer holds at its end, where there are
none. -/
theorem foldlM_remaining {P : List α → σ → Prop}
    (hstep : ∀ x xs a a', P (x :: xs) a → f a x = .ok a' → P xs a') :
    ∀ {xs : List α} {a b : σ}, P xs a → xs.foldlM f a = .ok b → P [] b
  | [], _, _, ha, h => by
    cases h
    exact ha
  | x :: xs, a, b, ha, h => by
    rw [List.foldlM_cons] at h
    rcases hx : f a x with e | a' <;> rw [hx] at h
    · cases h
    · exact foldlM_remaining hstep (hstep x xs a a' ha hx) h

/-- A loop whose turns all leave its state as it is ends in that state. -/
theorem foldlM_eq_self {a : σ} : ∀ {xs : List α}, (∀ x ∈ xs, f a x = .ok a) →
    xs.foldlM f a = .ok a
  | [], _ => rfl
  | x :: xs, h => by
    rw [List.foldlM_cons, h x List.mem_cons_self]
    exact foldlM_eq_self fun y hy => h y (List.mem_cons_of_mem _ hy)

/-- A loop that fails does so in one of its turns, until which every turn has kept what it keeps. -/
theorem foldlM_eq_error {P : σ → Prop} {e : ε} : ∀ {xs : List α} {a : σ}, P a →
    (∀ x ∈ xs, ∀ a a', P a → f a x = .ok a' → P a') → xs.foldlM f a = .error e →
      ∃ x ∈ xs, ∃ b, P b ∧ f b x = .error e
  | [], _, _, _, h => by cases h
  | x :: xs, a, ha, hstep, h => by
    rw [List.foldlM_cons] at h
    rcases hx : f a x with e' | a' <;> rw [hx] at h
    · cases h
      exact ⟨x, List.mem_cons_self, a, ha, hx⟩
    · obtain ⟨y, hy, hrest⟩ := foldlM_eq_error (hstep x (by simp) a a' ha hx)
        (fun y hy => hstep y (by simp [hy])) h
      exact ⟨y, List.mem_cons_of_mem _ hy, hrest⟩

/-- Checks of several things all pass exactly if each passes. -/
theorem forM_eq_ok_iff {check : α → Except ε Unit} :
    ∀ {xs : List α}, xs.forM check = .ok () ↔ ∀ x ∈ xs, check x = .ok ()
  | [] => by simp [pure, Except.pure]
  | x :: xs => by
    rw [List.forall_mem_cons, ← forM_eq_ok_iff, List.forM_eq_forM, List.forM_cons]
    rcases check x with e | u
    · exact iff_of_false (by rintro ⟨⟩) (by rintro ⟨⟨⟩, -⟩)
    · exact (and_iff_right rfl).symm

end LocalTopology
