import SyncScribe.Server.Effects

/-!
The times of synchronised events: the time the server puts in a header
(`syncs_sync_calculate`) and the loop in which a client waits for it
(`syncs_wait_sync`). Both normalise after a comparison that wants normalised
values. The server carries at most one second, and none at exactly one second;
the client compares whole seconds before it borrows, so that a second's difference
decides whether it waits where the nanoseconds should.
-/

namespace SyncScribe
open Lib.Bytes Lib.Slots

/-- The nanoseconds since the epoch. -/
def Timespec.nanos (t : Timespec) : Int := t.sec * 1000000000 + t.nsec

/-- The nanoseconds are less than a second, as in a reading of a clock. -/
def Timespec.Normal (t : Timespec) : Prop := 0 ≤ t.nsec ∧ t.nsec < 1000000000

instance (t : Timespec) : Decidable t.Normal := inferInstanceAs (Decidable (_ ∧ _))

/-- The time a header carries, as `syncs_wait_sync` reads it. -/
def Syncdata.time (d : Syncdata) : Timespec := ⟨d.data0.toNat, d.data1.toNat⟩

/-! ## The time in the header -/

theorem toNat_ofInt32 (x : Int) : ((UInt32.ofInt x).toNat : Int) = x % 4294967296 := by
  have h : 0 ≤ x % 4294967296 := Int.emod_nonneg _ (by decide)
  have hlt : x % 4294967296 < 4294967296 := Int.emod_lt_of_pos _ (by decide)
  rw [UInt32.ofInt, UInt32.toNat_ofNat', Nat.mod_eq_of_lt]
  · simpa using h
  · simp only [Nat.reducePow]
    omega

theorem syncCalculate_carry {now : Timespec} {offsetS offsetMs : Int}
    (h : now.nsec + offsetMs * 1000000 > 1000000000) :
    (syncCalculate now offsetS offsetMs).time =
      ⟨(now.sec + offsetS + 1) % 4294967296, (now.nsec + offsetMs * 1000000 - 1000000000) % 4294967296⟩ := by
  simp only [syncCalculate, if_pos h, Syncdata.time, toNat_ofInt32]

theorem syncCalculate_plain {now : Timespec} {offsetS offsetMs : Int}
    (h : ¬ now.nsec + offsetMs * 1000000 > 1000000000) :
    (syncCalculate now offsetS offsetMs).time =
      ⟨(now.sec + offsetS) % 4294967296, (now.nsec + offsetMs * 1000000) % 4294967296⟩ := by
  simp only [syncCalculate, if_neg h, Syncdata.time, toNat_ofInt32]

/-- With at most one carry to make, and not at exactly a second, the time is the clock plus the offset. -/
theorem syncCalculate_exact {now : Timespec} {offset : Int} (hnow : now.Normal)
    (hsec : now.sec < 4294967296 - 10000000) (hoff : 0 ≤ offset)
    (hcarry : now.nsec + offset * 1000000 ≠ 1000000000) (hsmall : now.nsec + offset * 1000000 < 2000000000)
    (hepoch : 0 ≤ now.nanos + offset * 1000000) :
    (syncCalculate now 0 offset).time.Normal ∧
      (syncCalculate now 0 offset).time.nanos = now.nanos + offset * 1000000 := by
  obtain ⟨hlow, hhigh⟩ := hnow
  by_cases h : now.nsec + offset * 1000000 > 1000000000
  · rw [syncCalculate_carry h]
    simp only [Timespec.Normal, Timespec.nanos] at *
    omega
  · rw [syncCalculate_plain h]
    simp only [Timespec.Normal, Timespec.nanos] at *
    omega

/-- **The time in the header is the clock plus the offset** unless the nanoseconds come to
exactly one second, or to two seconds or more, or the sum lies before the epoch. -/
theorem syncCalculate_exact_iff (now : Timespec) (offset : Int) (hnow : now.Normal)
    (hsec : now.sec < 4294967296 - 10000000) (hoff : 0 ≤ offset) (hint : offset ≤ 2147483647) :
    ((syncCalculate now 0 offset).time.Normal ∧
        (syncCalculate now 0 offset).time.nanos = now.nanos + offset * 1000000) ↔
      now.nsec + offset * 1000000 ≠ 1000000000 ∧ now.nsec + offset * 1000000 < 2000000000 ∧
        0 ≤ now.nanos + offset * 1000000 := by
  constructor
  · obtain ⟨hlow, hhigh⟩ := hnow
    by_cases h : now.nsec + offset * 1000000 > 1000000000
    · rw [syncCalculate_carry h]
      simp only [Timespec.Normal, Timespec.nanos]
      omega
    · rw [syncCalculate_plain h]
      simp only [Timespec.Normal, Timespec.nanos]
      omega
  · rintro ⟨hcarry, hsmall, hepoch⟩
    exact syncCalculate_exact hnow hsec hoff hcarry hsmall hepoch

theorem syncCalculate_exact_at_noon :
    let now : Timespec := ⟨43200, 800000000⟩
    ((syncCalculate now 0 300).time.Normal ∧ (syncCalculate now 0 300).time.nanos = now.nanos + 300 * 1000000) ↔
      now.nsec + 300 * 1000000 ≠ 1000000000 ∧ now.nsec + 300 * 1000000 < 2000000000 ∧
        0 ≤ now.nanos + 300 * 1000000 :=
  syncCalculate_exact_iff ⟨43200, 800000000⟩ 300 (by decide) (by decide) (by decide) (by decide)

/-- With the offset a server starts with, a clock at seven tenths of a second gives a header
with a whole second of nanoseconds. -/
theorem syncCalculate_whole_second :
    ¬ ∀ (now : Timespec) (offset : Int), now.Normal → now.sec < 4294967296 - 10000000 →
      0 ≤ offset → offset ≤ 2147483647 →
      (syncCalculate now 0 offset).time.Normal ∧
        (syncCalculate now 0 offset).time.nanos = now.nanos + offset * 1000000 := by
  intro h
  exact absurd (h ⟨43200, 700000000⟩ defaultSyncOffsetMs (by decide) (by decide) (by decide) (by decide)).1
    (by decide)

/-! ## Waiting -/

/-- What an iteration of `syncs_wait_sync` does: it leaves the loop, sleeps for a time, or
reads the clock again at once. -/
inductive Waiting
  | stop
  | sleep (diff : Timespec)
  | again
  deriving DecidableEq

/-- One iteration of `syncs_wait_sync` with the clock at `systemTime`. -/
def waitSync (syncTime systemTime : Timespec) : Waiting :=
  let diff : Timespec := ⟨syncTime.sec - systemTime.sec, syncTime.nsec - systemTime.nsec⟩
  if diff.sec < 0 ∨ (diff.sec = 0 ∧ diff.nsec < 0) ∨ diff.sec > 1 then .stop
  else
    let diff := if diff.nsec < 0 then ⟨diff.sec - 1, diff.nsec + 1000000000⟩ else diff
    if diff.sec > 0 ∨ diff.nsec > 1000000 then .sleep diff else .again

theorem waitSync_stop_iff (syncTime systemTime : Timespec) :
    waitSync syncTime systemTime = .stop ↔
      syncTime.sec - systemTime.sec < 0 ∨
        (syncTime.sec - systemTime.sec = 0 ∧ syncTime.nsec - systemTime.nsec < 0) ∨
        syncTime.sec - systemTime.sec > 1 := by
  unfold waitSync
  by_cases h : syncTime.sec - systemTime.sec < 0 ∨
      (syncTime.sec - systemTime.sec = 0 ∧ syncTime.nsec - systemTime.nsec < 0) ∨
      syncTime.sec - systemTime.sec > 1
  · simp only [h, ↓reduceIte]
  · simp only [h, ↓reduceIte, iff_false]
    intro hstop
    split at hstop <;> split at hstop <;> cases hstop

/-- The loop of `syncs_wait_sync` ends with the `k`-th reading of the clock. -/
def WaitEnds (syncTime : Timespec) (clock : Nat → Timespec) (k : Nat) : Prop :=
  waitSync syncTime (clock k) = .stop ∧ ∀ j < k, waitSync syncTime (clock j) ≠ .stop

/-- The `k`-th reading of the clock is the first one past the target. -/
def FirstPast (syncTime : Timespec) (clock : Nat → Timespec) (k : Nat) : Prop :=
  syncTime.nanos < (clock k).nanos ∧ ∀ j < k, (clock j).nanos ≤ syncTime.nanos

/-- The readings of a clock that is never set back. -/
structure Readings (clock : Nat → Timespec) : Prop where
  normal : ∀ k, (clock k).Normal
  mono : ∀ j k, j ≤ k → (clock j).nanos ≤ (clock k).nanos

/-- A clock read once a second. -/
def secondsFrom (t : Timespec) (k : Nat) : Timespec := ⟨t.sec + k, t.nsec⟩

theorem readings_secondsFrom {t : Timespec} (h : t.Normal) : Readings (secondsFrom t) where
  normal := fun _ => h
  mono := by
    intro j k hle
    simp only [secondsFrom, Timespec.nanos]
    omega

/-- The second before the waiting ends that counts as too far: the target is two seconds ahead by
the seconds alone, and less than that by the nanoseconds. -/
def BorrowedSecond (syncTime systemTime : Timespec) : Prop :=
  syncTime.sec - systemTime.sec = 2 ∧ syncTime.nsec < systemTime.nsec

instance (a b : Timespec) : Decidable (BorrowedSecond a b) := inferInstanceAs (Decidable (_ ∧ _))

/-- With a threshold of two seconds an iteration decides by the time that remains, but for the
borrowed second. -/
theorem waitSync_stop_remaining_iff {syncTime systemTime : Timespec} (hs : syncTime.Normal)
    (hn : systemTime.Normal) :
    (waitSync syncTime systemTime = .stop ↔
        syncTime.nanos - systemTime.nanos < 0 ∨ 2000000000 ≤ syncTime.nanos - systemTime.nanos) ↔
      ¬ BorrowedSecond syncTime systemTime := by
  obtain ⟨hs0, hs1⟩ := hs
  obtain ⟨hn0, hn1⟩ := hn
  rw [waitSync_stop_iff]
  simp only [Timespec.nanos, BorrowedSecond]
  omega

/-- From less than two seconds before the target the borrowed second is not entered. -/
theorem not_borrowed_later {syncTime now later : Timespec} (hs : syncTime.Normal) (hn : now.Normal)
    (hl : later.Normal) (hle : now.nanos ≤ later.nanos) (hnear : syncTime.nanos - now.nanos < 2000000000)
    (h : ¬ BorrowedSecond syncTime now) : ¬ BorrowedSecond syncTime later := by
  obtain ⟨hs0, hs1⟩ := hs
  obtain ⟨hn0, hn1⟩ := hn
  obtain ⟨hl0, hl1⟩ := hl
  simp only [Timespec.nanos, BorrowedSecond] at *
  omega

/-- A client that starts to wait less than two seconds before the target waits until its clock has
passed it, unless it starts in the borrowed second. -/
theorem waitEnds_iff_firstPast {syncTime : Timespec} {clock : Nat → Timespec} (hs : syncTime.Normal)
    (hc : Readings clock) (hahead : (clock 0).nanos ≤ syncTime.nanos)
    (hnear : syncTime.nanos - (clock 0).nanos < 2000000000) :
    (∀ k, WaitEnds syncTime clock k ↔ FirstPast syncTime clock k) ↔ ¬ BorrowedSecond syncTime (clock 0) := by
  constructor
  · intro h hb
    have hstop : waitSync syncTime (clock 0) = .stop :=
      (waitSync_stop_iff _ _).mpr (Or.inr (Or.inr (by rw [hb.1]; decide)))
    have hpast := ((h 0).mp ⟨hstop, fun j hj => absurd hj (Nat.not_lt_zero j)⟩).1
    omega
  · intro hb k
    have hstops : ∀ j, waitSync syncTime (clock j) = .stop ↔ syncTime.nanos < (clock j).nanos := by
      intro j
      have hle := hc.mono 0 j (Nat.zero_le j)
      have hj := not_borrowed_later hs (hc.normal 0) (hc.normal j) hle hnear hb
      rw [(waitSync_stop_remaining_iff hs (hc.normal j)).mpr hj]
      omega
    simp only [WaitEnds, FirstPast, hstops, ne_eq, Int.not_lt]

/-- **A client waits by the remaining time alone** exactly outside the borrowed second, with a threshold
of two seconds; and two clients with less than that to go both start at the first reading of
their clocks past the target exactly when neither of them starts to wait in it. -/
theorem waitSync_threshold_iff (target : Syncdata) (htarget : target.time.Normal) :
    (∀ now : Timespec, now.Normal →
      ((waitSync target.time now = .stop ↔
          target.time.nanos - now.nanos < 0 ∨ 2000000000 ≤ target.time.nanos - now.nanos) ↔
        ¬ BorrowedSecond target.time now)) ∧
    ∀ c₁ c₂ : Nat → Timespec, Readings c₁ → Readings c₂ →
      (c₁ 0).nanos ≤ target.time.nanos → target.time.nanos - (c₁ 0).nanos < 2000000000 →
      (c₂ 0).nanos ≤ target.time.nanos → target.time.nanos - (c₂ 0).nanos < 2000000000 →
      (((∀ k, WaitEnds target.time c₁ k ↔ FirstPast target.time c₁ k) ∧
          ∀ k, WaitEnds target.time c₂ k ↔ FirstPast target.time c₂ k) ↔
        ¬ BorrowedSecond target.time (c₁ 0) ∧ ¬ BorrowedSecond target.time (c₂ 0)) := by
  constructor
  · intro now hnow
    exact waitSync_stop_remaining_iff htarget hnow
  · intro c₁ c₂ h₁ h₂ ha₁ hn₁ ha₂ hn₂
    rw [waitEnds_iff_firstPast htarget h₁ ha₁ hn₁, waitEnds_iff_firstPast htarget h₂ ha₂ hn₂]

theorem waitSync_threshold_at_noon :
    let target : Syncdata := ⟨43200, 5⟩
    ((waitSync target.time ⟨43199, 0⟩ = .stop ↔
        target.time.nanos - (⟨43199, 0⟩ : Timespec).nanos < 0 ∨
          2000000000 ≤ target.time.nanos - (⟨43199, 0⟩ : Timespec).nanos) ↔
      ¬ BorrowedSecond target.time ⟨43199, 0⟩) ∧
    (((∀ k, WaitEnds target.time (secondsFrom ⟨43199, 0⟩) k ↔ FirstPast target.time (secondsFrom ⟨43199, 0⟩) k) ∧
        ∀ k, WaitEnds target.time (secondsFrom ⟨43198, 7⟩) k ↔ FirstPast target.time (secondsFrom ⟨43198, 7⟩) k) ↔
      ¬ BorrowedSecond target.time (secondsFrom ⟨43199, 0⟩ 0) ∧
        ¬ BorrowedSecond target.time (secondsFrom ⟨43198, 7⟩ 0)) :=
  ⟨(waitSync_threshold_iff ⟨43200, 5⟩ (by decide)).1 ⟨43199, 0⟩ (by decide),
    (waitSync_threshold_iff ⟨43200, 5⟩ (by decide)).2 _ _ (readings_secondsFrom (by decide))
      (readings_secondsFrom (by decide)) (by decide) (by decide) (by decide) (by decide)⟩

/-- No threshold decides: a client leaves the loop a second and a nanosecond before the target, and
another one waits with almost two seconds to go. -/
theorem waitSync_no_threshold :
    ¬ ∃ threshold : Int, ∀ (target : Syncdata) (now : Timespec), target.time.Normal → now.Normal →
      (waitSync target.time now = .stop ↔
        target.time.nanos - now.nanos < 0 ∨ threshold ≤ target.time.nanos - now.nanos) := by
  rintro ⟨threshold, h⟩
  have hstop := (h ⟨43202, 0⟩ ⟨43200, 999999999⟩ (by decide) (by decide)).mp (by decide)
  have hwait := mt (h ⟨43201, 999999999⟩ ⟨43200, 0⟩ (by decide) (by decide)).mpr (by decide)
  have h₁ : (⟨43202, 0⟩ : Syncdata).time.nanos - (⟨43200, 999999999⟩ : Timespec).nanos = 1000000001 := by decide
  have h₂ : (⟨43201, 999999999⟩ : Syncdata).time.nanos - (⟨43200, 0⟩ : Timespec).nanos = 1999999999 := by decide
  rw [h₁] at hstop
  rw [h₂] at hwait
  omega

end SyncScribe
