import Mathlib.Data.List.Induction

/-!
The temporal operator *since* over a finite log: some entry starts something,
and no later entry stops it. And logs in which every entry is borne out by what
stands before it.
-/

namespace Lib

variable {α : Type} {start stop : α → Prop}

/-- An entry of the log starts, and none after it stops. -/
def Since (start stop : α → Prop) (log : List α) : Prop :=
  ∃ pre a post, log = pre ++ a :: post ∧ start a ∧ ∀ b ∈ post, ¬ stop b

theorem not_since_nil : ¬ Since start stop ([] : List α) := by
  rintro ⟨pre, a, post, h, _⟩
  simp at h

/-- How the last entry decides. -/
theorem since_concat (log : List α) (b : α) :
    Since start stop (log ++ [b]) ↔ start b ∨ (Since start stop log ∧ ¬ stop b) := by
  constructor
  · rintro ⟨pre, a, post, h, ha, hpost⟩
    rcases List.eq_nil_or_concat post with rfl | ⟨post', c, rfl⟩
    · have hb := (List.append_inj' h (by simp)).2
      rw [List.singleton_inj] at hb
      exact Or.inl (hb ▸ ha)
    · rw [List.concat_eq_append] at h hpost
      rw [← List.cons_append, ← List.append_assoc] at h
      obtain ⟨hlog, hb⟩ := List.append_inj' h (by simp)
      rw [List.singleton_inj] at hb
      subst hb
      refine Or.inr ⟨⟨pre, a, post', hlog, ha, ?_⟩, hpost b (by simp)⟩
      intro d hd
      exact hpost d (by simp [hd])
  · rintro (hb | ⟨⟨pre, a, post, rfl, ha, hpost⟩, hb⟩)
    · exact ⟨log, b, [], rfl, hb, by simp⟩
    · refine ⟨pre, a, post ++ [b], by simp, ha, ?_⟩
      intro d hd
      rw [List.mem_append, List.mem_singleton] at hd
      rcases hd with hd | rfl
      · exact hpost d hd
      · exact hb

/-- A weaker start and fewer stops. -/
theorem Since.mono {start' stop' : α → Prop} {log : List α} (h : Since start stop log)
    (hstart : ∀ a, start a → start' a) (hstop : ∀ a, stop' a → stop a) : Since start' stop' log := by
  obtain ⟨pre, a, post, rfl, ha, hpost⟩ := h
  exact ⟨pre, a, post, rfl, hstart a ha, fun b hb hs => hpost b hb (hstop b hs)⟩

/-- Entries that do not stop. -/
theorem Since.append_right {log : List α} (h : Since start stop log) {after : List α} (hafter : ∀ b ∈ after, ¬ stop b) :
    Since start stop (log ++ after) := by
  obtain ⟨pre, a, post, rfl, ha, hpost⟩ := h
  refine ⟨pre, a, post ++ after, by simp, ha, ?_⟩
  intro b hb
  rcases List.mem_append.mp hb with hb | hb
  · exact hpost b hb
  · exact hafter b hb

/-- What happened in the later part of a log happened in the log. -/
theorem Since.append_left {log : List α} (h : Since start stop log) (before : List α) :
    Since start stop (before ++ log) := by
  obtain ⟨pre, a, post, rfl, ha, hpost⟩ := h
  exact ⟨before ++ pre, a, post, by simp, ha, hpost⟩

/-- The last entry with a property is where it is. -/
theorem last_unique {p : α → Prop} {pre pre' post post' : List α} {a a' : α}
    (h : pre ++ a :: post = pre' ++ a' :: post') (ha : p a) (ha' : p a')
    (hpost : ∀ b ∈ post, ¬ p b) (hpost' : ∀ b ∈ post', ¬ p b) : pre = pre' := by
  rcases List.append_eq_append_iff.mp h with ⟨as, hpre, hrest⟩ | ⟨as, hpre, hrest⟩
  · cases as with
    | nil => simp [hpre]
    | cons b as =>
      rw [List.cons_append, List.cons.injEq] at hrest
      exact absurd ha' (hpost a' (by rw [hrest.2]; simp))
  · cases as with
    | nil => simp [hpre]
    | cons b as =>
      rw [List.cons_append, List.cons.injEq] at hrest
      exact absurd ha (hpost' a (by rw [hrest.2]; simp))

theorem since_iff_foldl [DecidablePred start] [DecidablePred stop] (log : List α) :
    (log.foldl (fun on a => decide (start a) || (on && !decide (stop a))) false) = true ↔
      Since start stop log := by
  induction log using List.reverseRecOn with
  | nil => simp [not_since_nil]
  | append_singleton log a ih =>
    rw [List.foldl_append, since_concat, ← ih]
    simp

instance [DecidablePred start] [DecidablePred stop] (log : List α) : Decidable (Since start stop log) :=
  decidable_of_iff _ (since_iff_foldl log)

/-! ## Entries borne out by the log before them -/

/-- `R` holds of every entry and the log before it. -/
def BorneOut (R : List α → α → Prop) (log : List α) : Prop := ∀ pre a post, log = pre ++ a :: post → R pre a

variable {R : List α → α → Prop}

theorem borneOut_nil : BorneOut R [] := by
  intro pre a post h
  simp at h

/-- One entry more. -/
theorem BorneOut.concat {log : List α} {a : α} (h : BorneOut R log) (ha : R log a) : BorneOut R (log ++ [a]) := by
  intro pre b post hsplit
  rcases List.eq_nil_or_concat post with rfl | ⟨post', c, rfl⟩
  · obtain ⟨rfl, hab⟩ := List.append_inj' hsplit rfl
    rw [List.singleton_inj] at hab
    exact hab ▸ ha
  · rw [List.concat_eq_append, ← List.cons_append, ← List.append_assoc] at hsplit
    exact h pre b post' (List.append_inj' hsplit rfl).1

/-- Entries that need nothing before them. -/
theorem BorneOut.append {log new : List α} (h : BorneOut R log) (hnew : ∀ a ∈ new, ∀ pre, R pre a) :
    BorneOut R (log ++ new) := by
  induction new generalizing log with
  | nil =>
    rw [List.append_nil]
    exact h
  | cons a new ih =>
    rw [List.append_cons]
    exact ih (h.concat (hnew a List.mem_cons_self log)) fun b hb => hnew b (List.mem_cons_of_mem a hb)

end Lib
