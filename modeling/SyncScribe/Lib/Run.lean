import Mathlib.Data.List.Basic

/-!
Runs of a deterministic machine with outputs, and the rules by which step
facts become facts about whole runs.
-/

namespace Lib

variable {σ α ο : Type}

/-- The state after a list of actions, and everything put out on the way. -/
def run (step : σ → α → σ × List ο) : σ → List α → σ × List ο
  | s, [] => (s, [])
  | s, a :: as => ((run step (step s a).1 as).1, (step s a).2 ++ (run step (step s a).1 as).2)

variable {step : σ → α → σ × List ο}

theorem run_append (s : σ) (as bs : List α) :
    run step s (as ++ bs) =
      ((run step (run step s as).1 bs).1, (run step s as).2 ++ (run step (run step s as).1 bs).2) := by
  induction as generalizing s with
  | nil => rfl
  | cons a as ih => simp [run, ih]

theorem run_concat (s : σ) (as : List α) (a : α) :
    run step s (as ++ [a]) =
      ((step (run step s as).1 a).1, (run step s as).2 ++ (step (run step s as).1 a).2) := by
  simp [run_append, run]

/-- Every action of a run is taken in a state in which `P` allows it. -/
def Along (step : σ → α → σ × List ο) (P : σ → α → Prop) : σ → List α → Prop
  | _, [] => True
  | s, a :: as => P s a ∧ Along step P (step s a).1 as

instance decidableAlong {P : σ → α → Prop} [∀ s a, Decidable (P s a)] :
    ∀ s as, Decidable (Along step P s as)
  | _, [] => inferInstanceAs (Decidable True)
  | s, a :: as =>
    have := decidableAlong (P := P) (step s a).1 as
    inferInstanceAs (Decidable (P s a ∧ Along step P (step s a).1 as))

theorem along_append {P : σ → α → Prop} (s : σ) (as bs : List α) :
    Along step P s (as ++ bs) ↔ Along step P s as ∧ Along step P (run step s as).1 bs := by
  induction as generalizing s with
  | nil => simp [Along, run]
  | cons a as ih => simp [Along, run, ih, and_assoc]

theorem along_of_forall {P : σ → α → Prop} (h : ∀ s a, P s a) (s : σ) (as : List α) : Along step P s as := by
  induction as generalizing s with
  | nil => trivial
  | cons a as ih => exact ⟨h s a, ih (step s a).1⟩

theorem along_mono {P Q : σ → α → Prop} (h : ∀ s a, P s a → Q s a) (s : σ) (as : List α) (hal : Along step P s as) :
    Along step Q s as := by
  induction as generalizing s with
  | nil => trivial
  | cons a as ih => exact ⟨h s a hal.1, ih (step s a).1 hal.2⟩

/-- **Invariant rule.** What holds at the start and is kept by every allowed step
holds after every run of such steps. -/
theorem run_invariant {Inv : σ → Prop} {P : σ → α → Prop}
    (hstep : ∀ s a, Inv s → P s a → Inv (step s a).1) (as : List α) (s : σ) (hs : Inv s)
    (hal : Along step P s as) : Inv (run step s as).1 := by
  induction as generalizing s with
  | nil => exact hs
  | cons a as ih => exact ih (step s a).1 (hstep s a hs hal.1) hal.2

/-- `P` holds in every state of a run. -/
def Throughout (step : σ → α → σ × List ο) (P : σ → Prop) (s : σ) (as : List α) : Prop :=
  ∀ pre post, as = pre ++ post → P (run step s pre).1

theorem Throughout.left {P : σ → Prop} {s : σ} {as bs : List α} (h : Throughout step P s (as ++ bs)) :
    Throughout step P s as := by
  rintro pre post rfl
  exact h pre (post ++ bs) (List.append_assoc pre post bs)

/-- The invariant rule for all the states of a run. -/
theorem throughout_of_invariant {Inv Q : σ → Prop} {P : σ → α → Prop}
    (hstep : ∀ s a, Inv s → P s a → Inv (step s a).1) (hgives : ∀ s, Inv s → Q s) (as : List α) (s : σ) (hs : Inv s)
    (hal : Along step P s as) : Throughout step Q s as := by
  rintro pre post rfl
  exact hgives _ (run_invariant hstep pre s hs ((along_append s pre post).mp hal).1)

/-- What an invariant and the condition on a step give of it holds of every step of the run. -/
theorem along_of_invariant {Inv : σ → Prop} {P Q : σ → α → Prop}
    (hstep : ∀ s a, Inv s → P s a → Inv (step s a).1) (hgives : ∀ s a, Inv s → P s a → Q s a) (as : List α) (s : σ)
    (hs : Inv s) (hal : Along step P s as) : Along step Q s as := by
  induction as generalizing s with
  | nil => trivial
  | cons a as ih => exact ⟨hgives s a hs hal.1, ih (step s a).1 (hstep s a hs hal.1) hal.2⟩

/-- Where an invariant of all steps makes two conditions on a step the same, they are the same along a run. -/
theorem along_iff_of_invariant {Inv : σ → Prop} {P Q : σ → α → Prop} (hstep : ∀ s a, Inv s → Inv (step s a).1)
    (hiff : ∀ s a, Inv s → (P s a ↔ Q s a)) (as : List α) (s : σ) (hs : Inv s) :
    Along step P s as ↔ Along step Q s as := by
  induction as generalizing s with
  | nil => exact Iff.rfl
  | cons a as ih => exact and_congr (hiff s a hs) (ih (step s a).1 (hstep s a hs))

theorem throughout_cons {P : σ → Prop} (s : σ) (a : α) (as : List α) :
    Throughout step P s (a :: as) ↔ P s ∧ Throughout step P (step s a).1 as := by
  constructor
  · intro h
    refine ⟨h [] (a :: as) rfl, ?_⟩
    rintro pre post rfl
    exact h (a :: pre) post rfl
  · rintro ⟨hs, h⟩ pre post hsplit
    cases pre with
    | nil => exact hs
    | cons b pre =>
      rw [List.cons_append, List.cons.injEq] at hsplit
      obtain ⟨rfl, hsplit⟩ := hsplit
      exact h pre post hsplit

/-- **Exact conditions.** Where the condition on a step is just what keeps `P`, it holds of all steps of a
run exactly when `P` holds in all its states. -/
theorem throughout_iff_along {Inv P : σ → Prop} {Q : σ → α → Prop} (hstep : ∀ s a, Inv s → Inv (step s a).1)
    (hiff : ∀ s a, Inv s → P s → (P (step s a).1 ↔ Q s a)) (as : List α) (s : σ) (hs : Inv s) (hp : P s) :
    Throughout step P s as ↔ Along step Q s as := by
  induction as generalizing s with
  | nil => exact iff_of_true (fun pre post h => by rw [(List.append_eq_nil_iff.mp h.symm).1]; exact hp) trivial
  | cons a as ih =>
    rw [throughout_cons, Along, and_iff_right hp, ← hiff s a hs hp]
    constructor
    · intro h
      have hnext : P (step s a).1 := h [] as rfl
      exact ⟨hnext, (ih (step s a).1 (hstep s a hs) hnext).mp h⟩
    · rintro ⟨hnext, h⟩
      exact (ih (step s a).1 (hstep s a hs) hnext).mpr h

/-- The invariant rule with what was put out before: the invariant is about the state and all outputs so far. -/
theorem run_history {Inv : List ο → σ → Prop} {P : σ → α → Prop}
    (hstep : ∀ os s a, Inv os s → P s a → Inv (os ++ (step s a).2) (step s a).1) (as : List α) (s : σ) (os : List ο)
    (hs : Inv os s) (hal : Along step P s as) : Inv (os ++ (run step s as).2) (run step s as).1 := by
  induction as generalizing s os with
  | nil =>
    rw [run, List.append_nil]
    exact hs
  | cons a as ih =>
    rw [run, ← List.append_assoc]
    exact ih (step s a).1 (os ++ (step s a).2) (hstep os s a hs hal.1) hal.2

/-- What holds of the outputs of every step holds of the outputs of the run. -/
theorem forall_mem_run {R : ο → Prop} {as : List α} {s : σ}
    (h : Along step (fun s a => ∀ o ∈ (step s a).2, R o) s as) : ∀ o ∈ (run step s as).2, R o := by
  induction as generalizing s with
  | nil => simp [run]
  | cons a as ih =>
    intro o ho
    rcases List.mem_append.mp ho with ho | ho
    · exact h.1 o ho
    · exact ih h.2 o ho

/-- The invariant rule when every step is allowed. -/
theorem run_inductive {Inv : σ → Prop} (hstep : ∀ s a, Inv s → Inv (step s a).1)
    (as : List α) (s : σ) (hs : Inv s) : Inv (run step s as).1 := by
  induction as generalizing s with
  | nil => exact hs
  | cons a as ih => exact ih (step s a).1 (hstep s a hs)

/-! ## What a run spends -/

/-- What a step puts out of a kind is paid for by what it takes of `f`; so is what a run puts out. -/
theorem run_spends {Inv : σ → Prop} {P : σ → α → Prop} {f : σ → Nat} {p : ο → Bool}
    (hkeep : ∀ s a, Inv s → P s a → Inv (step s a).1)
    (hpays : ∀ s a, Inv s → P s a → f (step s a).1 + (step s a).2.countP p ≤ f s) (as : List α) (s : σ) (hs : Inv s)
    (hal : Along step P s as) : f (run step s as).1 + (run step s as).2.countP p ≤ f s := by
  induction as generalizing s with
  | nil => simp [run]
  | cons a as ih =>
    have hhead := hpays s a hs hal.1
    have htail := ih (step s a).1 (hkeep s a hs hal.1) hal.2
    simp only [run, List.countP_append]
    omega

/-- If the actions of a kind lower `f` and the others do not raise it, a run lowers it by the number of those. -/
theorem run_lowers {Inv : σ → Prop} {f : σ → Nat} {q : α → Bool} (hkeep : ∀ s a, Inv s → Inv (step s a).1)
    (hlowers : ∀ s a, Inv s → f (step s a).1 ≤ f s - if q a then 1 else 0) (as : List α) (s : σ) (hs : Inv s) :
    f (run step s as).1 ≤ f s - as.countP q := by
  induction as generalizing s with
  | nil => simp [run]
  | cons a as ih =>
    have hhead := hlowers s a hs
    have htail := ih (step s a).1 (hkeep s a hs)
    rw [List.countP_cons]
    simp only [run]
    omega

end Lib
