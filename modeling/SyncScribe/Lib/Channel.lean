import Mathlib.Data.List.Induction
import SyncScribe.Lib.Run

/-!
Channels that deliver in order, along a run. `queue` is what is under way in a
state, and `taken` what the outputs say has arrived; a step may lose messages but
never reorders them. The rules turn what one step puts on the channel into a fact
about all that arrives: each message is a snapshot of the state at some moment, at
moments that never go back, and what arrives is in the order of a log. A network
(`net`) also reorders and repeats: what it carries was true at some moment.
-/

namespace Lib

section Snapshots

variable {α β : Type} {R S : Nat → α → Prop} {n m : Nat} {xs ys : List α}

/-- Each of the observations holds at a moment up to `n`, and the moments never go back. -/
def Snapshots (R : Nat → α → Prop) (n : Nat) (xs : List α) : Prop :=
  ∃ ps : List (Nat × α), ps.map Prod.snd = xs ∧ ps.Pairwise (fun p q => p.1 ≤ q.1) ∧
    ∀ p ∈ ps, p.1 ≤ n ∧ R p.1 p.2

theorem snapshots_nil (R : Nat → α → Prop) (n : Nat) : Snapshots R n [] :=
  ⟨[], rfl, List.Pairwise.nil, fun _ hp => absurd hp List.not_mem_nil⟩

theorem Snapshots.mono (h : Snapshots R n xs) (hnm : n ≤ m) (hR : ∀ t ≤ n, ∀ x, R t x → S t x) :
    Snapshots S m xs := by
  obtain ⟨ps, hmap, hsorted, hps⟩ := h
  refine ⟨ps, hmap, hsorted, ?_⟩
  intro p hp
  obtain ⟨hle, hr⟩ := hps p hp
  exact ⟨Nat.le_trans hle hnm, hR p.1 hle p.2 hr⟩

/-- What holds now may be observed next. -/
theorem Snapshots.append_now (h : Snapshots R n xs) (hy : ∀ y ∈ ys, R n y) : Snapshots R n (xs ++ ys) := by
  obtain ⟨ps, rfl, hsorted, hps⟩ := h
  refine ⟨ps ++ ys.map fun y => (n, y), by simp [Function.comp_def], ?_, ?_⟩
  · rw [List.pairwise_append]
    refine ⟨hsorted, List.Pairwise.map _ (fun _ _ _ => Nat.le_refl n) (List.pairwise_of_forall fun _ _ => trivial), ?_⟩
    intro p hp q hq
    obtain ⟨y, _, rfl⟩ := List.mem_map.mp hq
    exact (hps p hp).1
  · intro p hp
    rcases List.mem_append.mp hp with hp | hp
    · exact hps p hp
    · obtain ⟨y, hmem, rfl⟩ := List.mem_map.mp hp
      exact ⟨Nat.le_refl n, hy y hmem⟩

theorem Snapshots.sublist (h : Snapshots R n xs) (hs : ys.Sublist xs) : Snapshots R n ys := by
  obtain ⟨ps, rfl, hsorted, hps⟩ := h
  obtain ⟨qs, hqs, rfl⟩ := List.sublist_map_iff.mp hs
  exact ⟨qs, rfl, hsorted.sublist hqs, fun p hp => hps p (hqs.subset hp)⟩

/-- Observations of part of what is observed. -/
theorem Snapshots.filterMap {f : α → Option β} {T : Nat → β → Prop} (h : Snapshots R n xs)
    (hf : ∀ t x y, R t x → f x = some y → T t y) : Snapshots T n (xs.filterMap f) := by
  obtain ⟨ps, rfl, hsorted, hps⟩ := h
  refine ⟨ps.filterMap fun p => (f p.2).map fun y => (p.1, y), ?_, ?_, ?_⟩
  · rw [List.map_filterMap, List.filterMap_map]
    congr 1
    funext p
    cases hfp : f p.2 <;> simp [hfp]
  · refine hsorted.filterMap _ ?_
    intro p q hpq p' hp' q' hq'
    obtain ⟨y, _, rfl⟩ := Option.map_eq_some_iff.mp hp'
    obtain ⟨z, _, rfl⟩ := Option.map_eq_some_iff.mp hq'
    exact hpq
  · intro q hq
    obtain ⟨p, hp, hpq⟩ := List.mem_filterMap.mp hq
    obtain ⟨y, hy, rfl⟩ := Option.map_eq_some_iff.mp hpq
    obtain ⟨hle, hr⟩ := hps p hp
    exact ⟨hle, hf p.1 p.2 y hr hy⟩

end Snapshots

section Runs

variable {σ α ο μ δ : Type} {step : σ → α → σ × List ο} {Inv : σ → Prop} {P : σ → α → Prop}
  {queue : σ → List μ} {taken : List ο → List μ}

/-- A step takes from the front of the channel, or loses what is on it, and puts `new` behind. -/
def Passes (step : σ → α → σ × List ο) (queue : σ → List μ) (taken : List ο → List μ) (s : σ) (a : α)
    (new : List μ) : Prop :=
  (taken (step s a).2 ++ queue (step s a).1).Sublist (queue s ++ new)

/-- What every step puts out of one kind is some of what it puts out of another. -/
theorem run_sublist {f g : List ο → List δ} (hf : ∀ os os', f (os ++ os') = f os ++ f os')
    (hg : ∀ os os', g (os ++ os') = g os ++ g os') (hnil : f [] = [])
    (hstep : ∀ s a, (f (step s a).2).Sublist (g (step s a).2)) (as : List α) (s : σ) :
    (f (run step s as).2).Sublist (g (run step s as).2) := by
  induction as generalizing s with
  | nil =>
    rw [run, hnil]
    exact List.nil_sublist _
  | cons a as ih =>
    rw [run, hf, hg]
    exact (hstep s a).append (ih (step s a).1)

/-- **Snapshot rule.** If what a step puts on the channel is true of the state after it, then all that
arrives was true at some moment of the run, at moments that never go back. -/
theorem run_snapshots {R : σ → μ → Prop} (htaken : ∀ os os', taken (os ++ os') = taken os ++ taken os')
    (hstep : ∀ s a, Inv s → P s a → Inv (step s a).1)
    (hnew : ∀ s a, Inv s → P s a → ∃ new, Passes step queue taken s a new ∧ ∀ x ∈ new, R (step s a).1 x)
    (s : σ) (hs : Inv s) (hq : queue s = []) (hnil : taken [] = []) (as : List α) (hal : Along step P s as) :
    Snapshots (fun t x => R (run step s (as.take t)).1 x) as.length
      (taken (run step s as).2 ++ queue (run step s as).1) := by
  induction as using List.reverseRecOn with
  | nil =>
    rw [run, hnil, hq]
    exact snapshots_nil _ _
  | append_singleton as a ih =>
    obtain ⟨hal, hlast, _⟩ := (along_append s as [a]).mp hal
    have hinv : Inv (run step s as).1 := run_invariant hstep as s hs hal
    obtain ⟨new, hpass, hR⟩ := hnew _ a hinv hlast
    -- the moments up to now stay what they were
    have hold : Snapshots (fun t x => R (run step s ((as ++ [a]).take t)).1 x) (as ++ [a]).length
        (taken (run step s as).2 ++ queue (run step s as).1) := by
      apply (ih hal).mono (by simp)
      intro t ht x hx
      rwa [List.take_append_of_le_length ht]
    have hnow : ∀ x ∈ new, R (run step s ((as ++ [a]).take (as ++ [a]).length)).1 x := by
      intro x hx
      rw [List.take_length, run_concat]
      exact hR x hx
    apply (hold.append_now hnow).sublist
    rw [run_concat, htaken, List.append_assoc, List.append_assoc]
    exact List.Sublist.append_left hpass _

/-- **Order rule.** If what a step puts on the channel it also writes to a log, in order, then what
arrives is in the order of the log. -/
theorem run_in_order {f : μ → Option δ} {logged : List ο → List δ}
    (htaken : ∀ os os', taken (os ++ os') = taken os ++ taken os')
    (hlogged : ∀ os os', logged (os ++ os') = logged os ++ logged os')
    (hstep : ∀ s a, Inv s → P s a → Inv (step s a).1)
    (hnew : ∀ s a, Inv s → P s a → ∃ new, Passes step queue taken s a new ∧
      (new.filterMap f).Sublist (logged (step s a).2))
    (s : σ) (hs : Inv s) (hq : queue s = []) (hnil : taken [] = []) (as : List α) (hal : Along step P s as) :
    ((taken (run step s as).2 ++ queue (run step s as).1).filterMap f).Sublist (logged (run step s as).2) := by
  induction as using List.reverseRecOn with
  | nil =>
    rw [run, hnil, hq]
    exact List.nil_sublist _
  | append_singleton as a ih =>
    obtain ⟨hal, hlast, _⟩ := (along_append s as [a]).mp hal
    have hinv : Inv (run step s as).1 := run_invariant hstep as s hs hal
    obtain ⟨new, hpass, hlog⟩ := hnew _ a hinv hlast
    rw [run_concat, htaken, hlogged, List.append_assoc]
    have hmore : (taken (run step s as).2 ++
        (taken (step (run step s as).1 a).2 ++ queue (step (run step s as).1 a).1)).Sublist
        ((taken (run step s as).2 ++ queue (run step s as).1) ++ new) := by
      rw [List.append_assoc]
      exact List.Sublist.append_left hpass _
    apply (hmore.filterMap f).trans
    rw [List.filterMap_append]
    exact (ih hal).append hlog

/-- A step loses nothing: it takes from the front of the channel and puts `new` behind. -/
def Conveys (step : σ → α → σ × List ο) (queue : σ → List μ) (taken : List ο → List μ) (s : σ) (a : α)
    (new : List μ) : Prop :=
  taken (step s a).2 ++ queue (step s a).1 = queue s ++ new

theorem Conveys.passes {s : σ} {a : α} {new : List μ} (h : Conveys step queue taken s a new) :
    Passes step queue taken s a new := by
  rw [Passes, h]

/-- What the steps of a run have to give, one after the other. -/
def gather (step : σ → α → σ × List ο) (give : σ → α → List μ) : σ → List α → List μ
  | _, [] => []
  | s, a :: as => give s a ++ gather step give (step s a).1 as

/-- What the outputs have to give is gathered from the outputs of the run. -/
theorem gather_outputs {sent : List ο → List μ} (hsent : ∀ os os', sent (os ++ os') = sent os ++ sent os')
    (hnil : sent [] = []) (s : σ) (as : List α) :
    gather step (fun s a => sent (step s a).2) s as = sent (run step s as).2 := by
  induction as generalizing s with
  | nil => rw [gather, run, hnil]
  | cons a as ih => rw [gather, run, hsent, ih]

/-- **Delivery rule.** If no step loses anything, then what was on the channel and what is put on it is what
arrives and what is still on it. -/
theorem run_conveys {give : σ → α → List μ} (htaken : ∀ os os', taken (os ++ os') = taken os ++ taken os')
    (hnil : taken [] = []) (hstep : ∀ s a, Inv s → P s a → Inv (step s a).1)
    (hgive : ∀ s a, Inv s → P s a → Conveys step queue taken s a (give s a)) (s : σ) (hs : Inv s) (as : List α)
    (hal : Along step P s as) :
    taken (run step s as).2 ++ queue (run step s as).1 = queue s ++ gather step give s as := by
  induction as generalizing s with
  | nil => simp [run, gather, hnil]
  | cons a as ih =>
    have hhead := hgive s a hs hal.1
    have htail := ih (step s a).1 (hstep s a hs hal.1) hal.2
    rw [Conveys] at hhead
    rw [run, gather, htaken, List.append_assoc, htail, ← List.append_assoc, hhead, List.append_assoc]

end Runs

section Networks

variable {σ α ο μ ν : Type} {step : σ → α → σ × List ο} {Inv : σ → Prop} {P : σ → α → Prop} {net : σ → List μ}
  {taken : List ο → List ν} {R : σ × List ο → μ → Prop} {s : σ} {as : List α} {x : μ}

/-- `R` holds of `x` at some moment of a run, in the state and after the outputs of that moment. -/
def AtSomeMoment (step : σ → α → σ × List ο) (R : σ × List ο → μ → Prop) (s : σ) (as : List α) (x : μ) : Prop :=
  ∃ t ≤ as.length, R (run step s (as.take t)) x

theorem AtSomeMoment.append (h : AtSomeMoment step R s as x) (bs : List α) : AtSomeMoment step R s (as ++ bs) x := by
  obtain ⟨t, ht, hr⟩ := h
  refine ⟨t, by rw [List.length_append]; omega, ?_⟩
  rwa [List.take_append_of_le_length ht]

theorem atSomeMoment_last (h : R (run step s as) x) : AtSomeMoment step R s as x :=
  ⟨as.length, Nat.le_refl _, by rwa [List.take_length]⟩

/-- What a step adds to the network, `R` holds of it then. -/
def Spreads (step : σ → α → σ × List ο) (net : σ → List μ) (R : σ × List ο → μ → Prop) (s : σ) (a : α) : Prop :=
  ∀ x ∈ net (step s a).1, x ∈ net s ∨ ∀ os, R ((step s a).1, os ++ (step s a).2) x

/-- **Network rule.** Of all that the network carries, `R` held at some moment of the run. -/
theorem run_carried (hstep : ∀ s a, Inv s → P s a → Inv (step s a).1)
    (hnew : ∀ s a, Inv s → P s a → Spreads step net R s a) (hs : Inv s) (hnet : net s = []) (as : List α)
    (hal : Along step P s as) : ∀ x ∈ net (run step s as).1, AtSomeMoment step R s as x := by
  induction as using List.reverseRecOn with
  | nil =>
    intro x hx
    rw [run, hnet] at hx
    exact absurd hx List.not_mem_nil
  | append_singleton as a ih =>
    obtain ⟨hal, hlast, _⟩ := (along_append s as [a]).mp hal
    have hinv : Inv (run step s as).1 := run_invariant hstep as s hs hal
    intro x hx
    have hx' : x ∈ net (step (run step s as).1 a).1 := by rwa [run_concat] at hx
    rcases hnew _ a hinv hlast x hx' with hold | hr
    · exact (ih hal x hold).append [a]
    · apply atSomeMoment_last
      rw [run_concat]
      exact hr _

/-- And so of all that is taken from it. -/
theorem run_taken {f : ν → μ → Prop} (htaken : ∀ os os', taken (os ++ os') = taken os ++ taken os')
    (hnil : taken [] = []) (hstep : ∀ s a, Inv s → P s a → Inv (step s a).1)
    (hnew : ∀ s a, Inv s → P s a → Spreads step net R s a)
    (htake : ∀ s a, Inv s → P s a → ∀ y ∈ taken (step s a).2, ∃ x ∈ net s, f y x)
    (hs : Inv s) (hnet : net s = []) (as : List α) (hal : Along step P s as) :
    ∀ y ∈ taken (run step s as).2, ∃ x, f y x ∧ AtSomeMoment step R s as x := by
  induction as using List.reverseRecOn with
  | nil =>
    intro y hy
    rw [run, hnil] at hy
    exact absurd hy List.not_mem_nil
  | append_singleton as a ih =>
    obtain ⟨hal, hlast, _⟩ := (along_append s as [a]).mp hal
    have hinv : Inv (run step s as).1 := run_invariant hstep as s hs hal
    intro y hy
    rw [run_concat, htaken, List.mem_append] at hy
    rcases hy with hy | hy
    · obtain ⟨x, hf, hx⟩ := ih hal y hy
      exact ⟨x, hf, hx.append [a]⟩
    · obtain ⟨x, hx, hf⟩ := htake _ a hinv hlast y hy
      exact ⟨x, hf, (run_carried hstep hnew hs hnet as hal x hx).append [a]⟩

end Networks

end Lib
