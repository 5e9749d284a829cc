import SyncScribe.Lib.Run

/-!
Simulations between two machines with outputs. A step of the one is matched by any
number of steps of the other, none included: they are allowed, they end in a related
state, and what they put out looks the same. Matches are put one behind the other,
and so every run of the one machine is matched by a run of the other. Where only the
outputs matter, the other machine is an acceptor of them.
-/

namespace Lib

section Simulation

variable {σ α ο τ β ω : Type} {step : σ → α → σ × List ο} {P : σ → α → Prop} {step' : τ → β → τ × List ω}
  {P' : τ → β → Prop} {R : σ → τ → Prop} {V : List ο → List ω → Prop}

/-- The steps `bs` from `t` match what ends in `s` and puts out `os`. -/
structure Matches (step' : τ → β → τ × List ω) (P' : τ → β → Prop) (R : σ → τ → Prop) (V : List ο → List ω → Prop)
    (t : τ) (s : σ) (os : List ο) (bs : List β) : Prop where
  allowed : Along step' P' t bs
  related : R s (run step' t bs).1
  alike : V os (run step' t bs).2

/-- Nothing is matched by nothing. -/
theorem Matches.nil {s : σ} {t : τ} (hR : R s t) (hV : V [] []) : Matches step' P' R V t s [] [] :=
  ⟨trivial, hR, hV⟩

/-- One match behind another. -/
theorem Matches.append {s s' : σ} {t : τ} {os os' : List ο} {bs bs' : List β}
    (hV : ∀ {os os' ws ws'}, V os ws → V os' ws' → V (os ++ os') (ws ++ ws'))
    (h : Matches step' P' R V t s os bs) (h' : Matches step' P' R V (run step' t bs).1 s' os' bs') :
    Matches step' P' R V t s' (os ++ os') (bs ++ bs') := by
  refine ⟨(along_append t bs bs').mpr ⟨h.allowed, h'.allowed⟩, ?_, ?_⟩
  · rw [run_append]
    exact h'.related
  · rw [run_append]
    exact hV h.alike h'.alike

/-- **Simulation rule.** If every allowed step from related states is matched, every allowed run is. -/
theorem run_matches (hnil : V [] []) (hV : ∀ {os os' ws ws'}, V os ws → V os' ws' → V (os ++ os') (ws ++ ws'))
    (hstep : ∀ s t a, R s t → P s a → ∃ bs, Matches step' P' R V t (step s a).1 (step s a).2 bs) (s : σ) (t : τ)
    (hR : R s t) (as : List α) (hal : Along step P s as) :
    ∃ bs, Matches step' P' R V t (run step s as).1 (run step s as).2 bs := by
  induction as generalizing s t with
  | nil => exact ⟨[], .nil hR hnil⟩
  | cons a as ih =>
    obtain ⟨bs, hhead⟩ := hstep s t a hR hal.1
    obtain ⟨bs', htail⟩ := ih (step s a).1 (run step' t bs).1 hhead.related hal.2
    exact ⟨bs ++ bs', hhead.append hV htail⟩

end Simulation

/-! ## Outputs that follow a protocol -/

section Accepts

variable {σ α ο κ : Type} {step : σ → α → σ × List ο} {Inv : σ → Prop} {phase : σ → κ} {accept : κ → ο → Option κ}

/-- **Acceptance rule.** If an acceptor takes what every step puts out from the phase before to the phase after it, it
takes what a run puts out. -/
theorem run_accepted (hkeep : ∀ s a, Inv s → Inv (step s a).1)
    (hstep : ∀ s a, Inv s → (step s a).2.foldlM accept (phase s) = some (phase (step s a).1)) (as : List α) (s : σ)
    (hs : Inv s) : (run step s as).2.foldlM accept (phase s) = some (phase (run step s as).1) := by
  induction as generalizing s with
  | nil => rfl
  | cons a as ih =>
    simp only [run, List.foldlM_append, hstep s a hs]
    exact ih (step s a).1 (hkeep s a hs)

end Accepts

end Lib
