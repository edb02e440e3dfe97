import Mathlib

/-!
# A sliding window with one attempt under way

A limiter keeps the times of failures and admits an attempt while fewer than `N` of them are less than `W` old. An
attempt that is admitted fails some time later, and its failure is recorded later still.

* `since`, `within`: the number of times from `c` on, and in the window of length `W` from `w` on;
* `recent`: the times that a clock still sees; **`within_concat_le`**: one more when there is room for it;
* `Ledger W N clock recorded failed live pending`: what holds between the recorded and the real failures, with
  `live` attempts under way of which `pending` have failed;
* its operations: **`Ledger.enter`**, `Ledger.fail`, `Ledger.record`, `Ledger.leave`, `Ledger.forgive`,
  `Ledger.clear`, `Ledger.prune`, `Ledger.tick`.
-/

set_option autoImplicit false

namespace Window

/-- The number of times from `c` on. -/
def since (c : ℕ) (l : List ℕ) : ℕ := l.countP fun t => decide (c ≤ t)

/-- The number of times in the window from `w` on. -/
def within (W w : ℕ) (l : List ℕ) : ℕ := l.countP fun t => decide (w ≤ t ∧ t < w + W)

/-- The times less than `W` before `now`. -/
def recent (W now : ℕ) (l : List ℕ) : List ℕ := l.filter fun t => decide (now - t < W)

/-- The recorded failures cover the real ones up to those that are pending, and leave room for the attempts under
way. Only what a window that has not ended can see counts. -/
structure Ledger (W N clock : ℕ) (recorded failed : List ℕ) (live pending : ℕ) : Prop where
  covered : ∀ c, clock < c + W → since c failed ≤ since c recorded + pending
  room : ∀ c, clock < c + W → since c recorded + live ≤ N
  pending_le : pending ≤ live
  past : ∀ t ∈ failed, t ≤ clock
  windows : ∀ w, within W w failed ≤ N

section

variable {W N clock now c w : ℕ} {recorded failed l : List ℕ} {live pending : ℕ}

@[simp] theorem since_nil (c : ℕ) : since c [] = 0 := rfl

theorem since_cons (c t : ℕ) (l : List ℕ) : since c (t :: l) = since c l + if c ≤ t then 1 else 0 := by
  simp [since, List.countP_cons]

theorem since_concat (c t : ℕ) (l : List ℕ) : since c (l ++ [t]) = since c l + if c ≤ t then 1 else 0 := by
  simp [since, List.countP_append, List.countP_cons]

theorem since_eq_zero (h : ∀ t ∈ l, t < c) : since c l = 0 := by
  refine List.countP_eq_zero.mpr fun t ht => ?_
  have := h t ht
  simp only [decide_eq_true_eq]
  omega

theorem within_le_since (W w : ℕ) (l : List ℕ) : within W w l ≤ since w l := by
  refine List.countP_mono_left fun t _ ht => ?_
  rw [decide_eq_true_eq] at ht ⊢
  exact ht.1

theorem within_cons_of_le {t : ℕ} (h : w + W ≤ t) (l : List ℕ) : within W w (t :: l) = within W w l := by
  rw [within, within, List.countP_cons_of_neg]
  simp only [decide_eq_true_eq]
  omega

/-- What a clock sees, a clock before it has seen. -/
theorem recent_recent (h : clock ≤ now) (l : List ℕ) : recent W now (recent W clock l) = recent W now l := by
  rw [recent, recent, List.filter_filter]
  refine List.filter_congr fun t _ => ?_
  rw [Bool.eq_iff_iff]
  simp only [Bool.and_eq_true, decide_eq_true_eq]
  omega

theorem recent_concat (hW : 0 < W) (now : ℕ) (l : List ℕ) : recent W now (l ++ [now]) = recent W now l ++ [now] := by
  have hself : decide (now - now < W) = true := by simpa using hW
  rw [recent, List.filter_append, List.filter_singleton, hself]
  rfl

/-- **One more time** fits into every window if the clock sees fewer than `N` before it. -/
theorem within_concat_le {N : ℕ} (hpast : ∀ t ∈ l, t ≤ now) (hroom : (recent W now l).length < N)
    (hwindow : within W w l ≤ N) : within W w (l ++ [now]) ≤ N := by
  rw [within, List.countP_append, List.countP_singleton]
  split_ifs with hnow
  · have hsee : within W w l ≤ (recent W now l).length := by
      rw [recent, ← List.countP_eq_length_filter]
      refine List.countP_mono_left fun t ht hw => ?_
      have := hpast t ht
      simp only [decide_eq_true_eq] at hw hnow ⊢
      omega
    exact (Nat.add_le_add_right hsee 1).trans hroom
  · exact hwindow

/-- What a window sees of the times is not pruned. -/
theorem since_prune (hW : 0 < W) (h : clock < c + W) (l : List ℕ) :
    since c (l.filter fun t => decide (clock - t < W)) = since c l := by
  rw [since, since, List.countP_filter]
  refine List.countP_congr fun t _ => ?_
  simp only [Bool.and_eq_true, decide_eq_true_eq]
  omega

theorem since_le_length (c : ℕ) (l : List ℕ) : since c l ≤ l.length := List.countP_le_length

/-- Nothing has happened yet. -/
theorem Ledger.nil (W N clock : ℕ) : Ledger W N clock [] [] 0 0 :=
  ⟨fun _ _ => le_rfl, fun _ _ => Nat.zero_le _, le_rfl, nofun, fun _ => Nat.zero_le _⟩

theorem Ledger.tick (h : Ledger W N clock recorded failed live pending) (hnow : clock ≤ now) :
    Ledger W N now recorded failed live pending :=
  ⟨fun c hc => h.covered c (by omega), fun c hc => h.room c (by omega), h.pending_le,
    fun t ht => (h.past t ht).trans hnow, h.windows⟩

/-- Old times are dropped from the records. -/
theorem Ledger.prune (hW : 0 < W) (h : Ledger W N clock recorded failed live pending) :
    Ledger W N clock (recorded.filter fun t => decide (clock - t < W)) failed live pending := by
  refine ⟨fun c hc => ?_, fun c hc => ?_, h.pending_le, h.past, h.windows⟩
  · rw [since_prune hW hc]
    exact h.covered c hc
  · rw [since_prune hW hc]
    exact h.room c hc

/-- **An attempt is admitted** while none is under way and fewer than `N` failures are left. -/
theorem Ledger.enter (hW : 0 < W) (h : Ledger W N clock recorded failed 0 pending)
    (hlen : (recorded.filter fun t => decide (clock - t < W)).length < N) :
    Ledger W N clock (recorded.filter fun t => decide (clock - t < W)) failed 1 pending := by
  refine ⟨(h.prune hW).covered, fun c _ => ?_, h.pending_le.trans (Nat.zero_le 1), h.past, h.windows⟩
  have := since_le_length c (recorded.filter fun t => decide (clock - t < W))
  omega

/-- An attempt under way fails. -/
theorem Ledger.fail (h : Ledger W N clock recorded failed live pending) (hlive : pending < live) :
    Ledger W N clock recorded (clock :: failed) live (pending + 1) := by
  have hcovered : ∀ c, clock < c + W → since c (clock :: failed) ≤ since c recorded + (pending + 1) := by
    intro c hc
    have := h.covered c hc
    rw [since_cons]
    split_ifs
    · omega
    · omega
  refine ⟨hcovered, h.room, hlive, ?_, fun w => ?_⟩
  · intro t ht
    obtain rfl | ht := List.mem_cons.mp ht
    · exact le_rfl
    · exact h.past t ht
  · -- the window has not ended yet, or does not see this failure
    rcases Nat.lt_or_ge clock (w + W) with hw | hw
    · have := within_le_since W w (clock :: failed)
      have := hcovered w hw
      have := h.room w hw
      omega
    · rw [within_cons_of_le hw]
      exact h.windows w

/-- The failure of an attempt is recorded, and the attempt is over. -/
theorem Ledger.record (h : Ledger W N clock recorded failed (live + 1) (pending + 1)) :
    Ledger W N clock (recorded ++ [clock]) failed live pending := by
  have hpending := h.pending_le
  refine ⟨fun c hc => ?_, fun c hc => ?_, by omega, h.past, h.windows⟩
  · rw [since_concat]
    split_ifs with hcc
    · have := h.covered c hc
      omega
    · rw [since_eq_zero fun t ht => (h.past t ht).trans_lt (not_le.mp hcc)]
      exact Nat.zero_le _
  · have := h.room c hc
    rw [since_concat]
    split_ifs
    · omega
    · omega

/-- An attempt ends and has not failed. -/
theorem Ledger.leave (h : Ledger W N clock recorded failed (live + 1) pending) (hlive : pending ≤ live) :
    Ledger W N clock recorded failed live pending := by
  refine ⟨h.covered, fun c hc => ?_, hlive, h.past, h.windows⟩
  have := h.room c hc
  omega

/-- The failures so far do not count any more. -/
theorem Ledger.forgive (h : Ledger W N clock recorded failed live pending) :
    Ledger W N clock recorded [] live pending :=
  ⟨fun _ _ => Nat.zero_le _, h.room, h.pending_le, nofun, fun _ => Nat.zero_le _⟩

/-- The records are cleared when no failure counts. -/
theorem Ledger.clear (h : Ledger W N clock recorded [] live pending) : Ledger W N clock [] [] live pending := by
  refine ⟨fun _ _ => Nat.zero_le _, fun c hc => ?_, h.pending_le, nofun, h.windows⟩
  have := h.room c hc
  rw [since_nil]
  omega

end

end Window
