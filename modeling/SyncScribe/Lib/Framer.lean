import Mathlib.Data.List.Basic

/-!
Incremental framers.

A framer looks at the bytes at the head of a receive buffer and waits for
more, skips one byte, or emits a frame. When its skips and emissions are
prefix stable (more bytes never change them), scanning a stream piece by piece
with the unfinished rest carried over gives the frames of the stream scanned
at once: `scan_append`, and for a whole list of pieces `feed_eq_scan`.

A framer may rewrite the unfinished bytes it leaves behind (`settle`); the
stated conditions say that it cannot tell the rewritten bytes from the others.
-/

namespace Lib

/-- What is decided about the bytes at the head of a buffer. -/
inductive Look (φ : Type)
  | wait
  | skip
  | emit (n : Nat) (f : φ)

structure Framer (β φ : Type) where
  look : List β → Look φ
  settle : List β → List β
  skip_ne_nil : ∀ {x}, look x = .skip → x ≠ []
  skip_stable : ∀ {x} y, look x = .skip → look (x ++ y) = .skip
  emit_stable : ∀ {x n f} y, look x = .emit n f → look (x ++ y) = .emit n f
  emit_size : ∀ {x n f}, look x = .emit n f → 0 < n ∧ n ≤ x.length
  settle_look : ∀ {x} y, look x = .wait → look (settle x ++ y) = look (x ++ y)
  settle_skip : ∀ {x y}, look x = .wait → look (x ++ y) = .skip → settle x = x
  settle_emit : ∀ {x y n f}, look x = .wait → look (x ++ y) = .emit n f →
    (settle x ++ y).drop n = (x ++ y).drop n
  settle_wait : ∀ {x y}, look x = .wait → look (x ++ y) = .wait →
    settle (settle x ++ y) = settle (x ++ y)
  settle_length : ∀ x, (settle x).length = x.length

namespace Framer

variable {β φ : Type} (F : Framer β φ)

/-- The frames found in `x` and the bytes left over; every round consumes a
byte, so a budget of `x.length` rounds is enough. -/
def scanLoop : Nat → List β → List φ × List β
  | 0, x => ([], F.settle x)
  | k + 1, x =>
    match F.look x with
    | .wait => ([], F.settle x)
    | .skip => scanLoop k (x.drop 1)
    | .emit n f => (f :: (scanLoop k (x.drop n)).1, (scanLoop k (x.drop n)).2)

def scan (x : List β) : List φ × List β := F.scanLoop x.length x

variable {F}

theorem look_nil : F.look [] = .wait := by
  cases h : F.look [] with
  | wait => rfl
  | skip => exact absurd rfl (F.skip_ne_nil h)
  | emit n f =>
    have := F.emit_size h
    simp at this
    omega

/-- A larger budget changes nothing. -/
theorem scanLoop_eq_scan {k : Nat} {x : List β} (h : x.length ≤ k) : F.scanLoop k x = F.scan x := by
  suffices H : ∀ m k x, x.length ≤ m → m ≤ k → F.scanLoop k x = F.scanLoop m x from
    H x.length k x (Nat.le_refl _) h
  intro m
  induction m with
  | zero =>
    intro k x hx _
    have hnil : x = [] := List.length_eq_zero_iff.mp (by omega)
    subst hnil
    cases k with
    | zero => rfl
    | succ k => simp [scanLoop, look_nil]
  | succ m ih =>
    intro k x hx hk
    cases k with
    | zero => omega
    | succ k =>
      cases hl : F.look x with
      | wait => simp [scanLoop, hl]
      | skip =>
        have hne := List.length_pos_iff.mpr (F.skip_ne_nil hl)
        simp only [scanLoop, hl]
        exact ih k _ (by simp; omega) (by omega)
      | emit n f =>
        have hn := F.emit_size hl
        simp only [scanLoop, hl]
        rw [ih k _ (by simp; omega) (by omega)]

theorem scan_wait {x : List β} (h : F.look x = .wait) : F.scan x = ([], F.settle x) := by
  unfold scan
  cases x.length <;> simp [scanLoop, h]

theorem scan_skip {x : List β} (h : F.look x = .skip) : F.scan x = F.scan (x.drop 1) := by
  have hne := List.length_pos_iff.mpr (F.skip_ne_nil h)
  rw [scan, show x.length = (x.length - 1) + 1 by omega, scanLoop, h]
  exact scanLoop_eq_scan (by simp)

theorem scan_emit {x : List β} {n : Nat} {f : φ} (h : F.look x = .emit n f) :
    F.scan x = (f :: (F.scan (x.drop n)).1, (F.scan (x.drop n)).2) := by
  have hn := F.emit_size h
  rw [scan, show x.length = (x.length - 1) + 1 by omega, scanLoop, h]
  simp only [scanLoop_eq_scan (F := F) (k := x.length - 1) (x := x.drop n) (by simp; omega)]

/-- The bytes left over are scanned on as the bytes they came from. -/
theorem scan_settle {x : List β} (y : List β) (h : F.look x = .wait) :
    F.scan (F.settle x ++ y) = F.scan (x ++ y) := by
  have hl := F.settle_look y h
  cases hxy : F.look (x ++ y) with
  | wait => rw [scan_wait hxy, scan_wait (hl.trans hxy), F.settle_wait h hxy]
  | skip => rw [F.settle_skip h hxy]
  | emit n f => rw [scan_emit hxy, scan_emit (hl.trans hxy), F.settle_emit h hxy]

/-- **Scanning does not depend on where the stream is cut.** -/
theorem scan_append (x y : List β) :
    F.scan (x ++ y) =
      ((F.scan x).1 ++ (F.scan ((F.scan x).2 ++ y)).1, (F.scan ((F.scan x).2 ++ y)).2) := by
  induction hk : x.length using Nat.strongRecOn generalizing x with
  | ind k ih =>
    cases hl : F.look x with
    | wait => simp [scan_wait hl, scan_settle y hl]
    | skip =>
      have hne := List.length_pos_iff.mpr (F.skip_ne_nil hl)
      rw [scan_skip (F.skip_stable y hl), scan_skip hl, List.drop_append_of_le_length (by omega)]
      exact ih _ (by simp; omega) _ rfl
    | emit n f =>
      have hn := F.emit_size hl
      rw [scan_emit (F.emit_stable y hl), scan_emit hl, List.drop_append_of_le_length (by omega),
        ih _ (by simp; omega) (x.drop n) rfl]
      simp

/-- Pieces fed one after the other, each behind what the last one left. -/
def feed (F : Framer β φ) : List β → List (List β) → List φ × List β
  | r, [] => ([], r)
  | r, c :: cs =>
    ((F.scan (r ++ c)).1 ++ (feed F (F.scan (r ++ c)).2 cs).1, (feed F (F.scan (r ++ c)).2 cs).2)

/-- **Feeding is scanning**: the frames of the pieces are those of the stream. -/
theorem feed_eq_scan (r : List β) (c : List β) (cs : List (List β)) :
    F.feed r (c :: cs) = F.scan (r ++ (c :: cs).flatten) := by
  induction cs generalizing r c with
  | nil => simp [feed]
  | cons d ds ih =>
    rw [feed, ih, List.flatten_cons (l := c), ← List.append_assoc r c, scan_append (r ++ c)]

theorem feed_frames (cs : List (List β)) : (F.feed [] cs).1 = (F.scan cs.flatten).1 := by
  cases cs with
  | nil => simp [feed, scan_wait look_nil]
  | cons c cs => rw [feed_eq_scan, List.nil_append]

/-- What is left over is an unfinished frame: the framer waits on it. -/
theorem look_rest (x : List β) : F.look (F.scan x).2 = .wait := by
  induction hk : x.length using Nat.strongRecOn generalizing x with
  | ind k ih =>
    cases hl : F.look x with
    | wait =>
      have := F.settle_look [] hl
      rw [scan_wait hl]
      simpa [hl] using this
    | skip =>
      have hne := List.length_pos_iff.mpr (F.skip_ne_nil hl)
      rw [scan_skip hl]
      exact ih _ (by simp; omega) _ rfl
    | emit n f =>
      have hn := F.emit_size hl
      rw [scan_emit hl]
      exact ih _ (by simp; omega) _ rfl

/-- Every frame found was emitted at some suffix of the buffer. -/
theorem exists_emit_of_mem {x : List β} {f : φ} (h : f ∈ (F.scan x).1) :
    ∃ k n, F.look (x.drop k) = .emit n f := by
  induction hk : x.length using Nat.strongRecOn generalizing x with
  | ind k ih =>
    cases hl : F.look x with
    | wait => simp [scan_wait hl] at h
    | skip =>
      have hne := List.length_pos_iff.mpr (F.skip_ne_nil hl)
      rw [scan_skip hl] at h
      obtain ⟨j, n, hj⟩ := ih _ (by simp; omega) h rfl
      exact ⟨1 + j, n, by rwa [List.drop_drop] at hj⟩
    | emit n g =>
      have hn := F.emit_size hl
      rw [scan_emit hl, List.mem_cons] at h
      rcases h with rfl | h
      · exact ⟨0, n, by simpa using hl⟩
      · obtain ⟨j, m, hj⟩ := ih _ (by simp; omega) h rfl
        exact ⟨n + j, m, by rwa [List.drop_drop] at hj⟩

end Framer

end Lib
