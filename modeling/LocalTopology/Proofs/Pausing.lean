import LocalTopology.Readiness.Backoff
import Mathlib.Algebra.Group.Nat.Defs

/-!
# How the pauses grow

A pause is doubled and cut at the cap before it is doubled again. As no cap lies beyond the longest
duration, doubling may stop there without a loss (`nanoseconds_next`), and as a pause that was cut
is cut again, the cuts come to a single one after all doublings (`nanoseconds_delay_succ`).
-/

namespace LocalTopology

theorem Duration.nanoseconds_double (d : Duration) :
    d.double.nanoseconds = min (2 * d.nanoseconds) greatest :=
  rfl

theorem Duration.nanoseconds_shorter (d e : Duration) :
    (d.shorter e).nanoseconds = min d.nanoseconds e.nanoseconds := by
  unfold shorter
  split <;> omega

theorem Duration.eq_of_nanoseconds {d e : Duration} (h : d.nanoseconds = e.nanoseconds) :
    d = e := by
  cases d
  cases e
  cases h
  rfl

namespace Backoff

variable (b : Backoff)

theorem nanoseconds_next (d : Duration) :
    (b.next d).nanoseconds = min (2 * d.nanoseconds) b.cap.nanoseconds := by
  have hcap := b.cap.le_greatest
  rw [next, Duration.nanoseconds_shorter, Duration.nanoseconds_double]
  omega

theorem nanoseconds_delay_succ (n : Nat) : (b.delay (n + 1)).nanoseconds =
    min (b.initial.nanoseconds * 2 ^ (n + 1)) b.cap.nanoseconds := by
  induction n with
  | zero =>
    rw [delay, nanoseconds_next, delay]
    omega
  | succ n ih =>
    -- A pause that was cut is beyond the cap again when it is doubled.
    rw [delay, nanoseconds_next, ih, Nat.pow_succ 2 (n + 1), ← Nat.mul_assoc]
    omega

theorem delaysFrom_eq (n k : Nat) :
    b.delaysFrom (b.delay n) k = (List.range' n k).map b.delay := by
  induction k generalizing n with
  | zero => rfl
  | succ k ih =>
    have hrest : b.delaysFrom (b.next (b.delay n)) k = (List.range' (n + 1) k).map b.delay :=
      ih (n + 1)
    rw [delaysFrom, hrest, List.range'_succ, List.map_cons]

theorem delays_eq (k : Nat) : b.delays k = (List.range k).map b.delay := by
  rw [List.range_eq_range']
  exact b.delaysFrom_eq 0 k

theorem tail_delays_succ (k : Nat) : (b.delays (k + 1)).tail = (List.range' 1 k).map b.delay :=
  b.delaysFrom_eq 1 k

theorem nanoseconds_delay_le {m n : Nat} (hm : 1 ≤ m) (hmn : m ≤ n) :
    (b.delay m).nanoseconds ≤ (b.delay n).nanoseconds := by
  obtain ⟨m, rfl⟩ := Nat.exists_eq_add_of_le' hm
  obtain ⟨n, rfl⟩ := Nat.exists_eq_add_of_le' (Nat.le_trans hm hmn)
  have hpow : b.initial.nanoseconds * 2 ^ (m + 1) ≤ b.initial.nanoseconds * 2 ^ (n + 1) :=
    Nat.mul_le_mul_left _ (Nat.pow_le_pow_right (by decide) hmn)
  rw [nanoseconds_delay_succ, nanoseconds_delay_succ]
  omega

theorem next_cap : b.next b.cap = b.cap := by
  refine Duration.eq_of_nanoseconds ?_
  rw [nanoseconds_next]
  omega

theorem delay_eq_cap {m n : Nat} (hmn : m ≤ n) (hm : b.delay m = b.cap) : b.delay n = b.cap := by
  induction hmn with
  | refl => exact hm
  | step _ ih => rw [delay, ih, next_cap]

/-- The nanoseconds of the pause of index `n`: the first pause as it is, and every other one by all
of its doublings at once and a single cut. -/
def exactNanos (n : Nat) : Nat :=
  if n = 0 then b.initial.nanoseconds else min (b.initial.nanoseconds * 2 ^ n) b.cap.nanoseconds

theorem nanoseconds_delay (n : Nat) : (b.delay n).nanoseconds = b.exactNanos n := by
  cases n with
  | zero => rfl
  | succ n => exact b.nanoseconds_delay_succ n

/-- However many pauses are made, each is the first one doubled and cut without a loss. From the
second one on they never get shorter, and none leaves the cap once a pause before it was there. -/
theorem delays_grow (k : Nat) :
    (b.delays k).map (·.nanoseconds) = (List.range k).map b.exactNanos ∧
      (b.delays k).tail.Pairwise (fun d e => d.nanoseconds ≤ e.nanoseconds) ∧
      (b.delays k).Pairwise (fun d e => d = b.cap → e = b.cap) := by
  refine ⟨?_, ?_, ?_⟩
  · rw [delays_eq, List.map_map]
    exact List.map_congr_left fun n _ => b.nanoseconds_delay n
  · cases k with
    | zero => exact List.Pairwise.nil
    | succ k =>
      rw [tail_delays_succ, List.pairwise_map]
      refine (List.pairwise_lt_range' 1).imp_of_mem fun hm _ hmn => ?_
      have hpos := (List.mem_range'_1.1 hm).1
      exact b.nanoseconds_delay_le hpos (Nat.le_of_lt hmn)
  · rw [delays_eq, List.pairwise_map]
    exact List.pairwise_lt_range.imp fun hmn hm => b.delay_eq_cap (Nat.le_of_lt hmn) hm

/-- Twice the first pause is longer than any duration. -/
example : (delays ⟨.ofSeconds (2 ^ 63 + 1), .ofNanos Duration.greatest⟩ 3).map (·.nanoseconds) =
    [(2 ^ 63 + 1) * nanosPerSecond, Duration.greatest, Duration.greatest] := by
  decide

end Backoff

end LocalTopology
