import Mathlib.Data.Fintype.Basic
import SyncScribe.Lib.Run

/-!
Threads with monitors, a monitor being a mutex and the condition that goes with it.
Each thread stands at a point of its program, and the program has one instruction
for the point. A step is one instruction of one thread; which thread goes on, whom a
signal wakes, wakeups without a signal and timeouts are choices. From the way a
program brackets its critical sections it follows that no two threads are in one,
and from the way it signals, that nobody sleeps through what he waits for.
-/

namespace Lib

/-! ## The machine -/

/-- What a thread does at a point of its program. -/
inductive Instr (μ σ π ο : Type)
  /-- one step on the memory -/
  | act (f : σ → σ × π × List ο)
  | lock (m : μ) (next : π)
  | unlock (m : μ) (next : π)
  | signal (m : μ) (next : π)
  /-- lets go of the mutex, and has it again when the wait is over -/
  | wait (m : μ) (woken expired : π)
  /-- nothing, until the next call -/
  | idle

inductive Mode (μ : Type)
  | running
  | asleep (m : μ)
  /-- the wait is over but for the mutex -/
  | waking (m : μ) (expired : Bool)
  deriving DecidableEq

/-- The thread is in a wait, without the mutex. -/
def Mode.away {μ : Type} (m : μ) : Mode μ → Prop
  | .running => False
  | .asleep n => n = m
  | .waking n _ => n = m

structure Threads (τ μ σ π : Type) where
  memory : σ
  owner : μ → Option τ
  point : τ → π
  mode : τ → Mode μ

inductive Choice (τ π : Type)
  | run (t : τ)
  /-- `t` signals, and `u` is woken -/
  | wake (t u : τ)
  /-- a wakeup without a signal -/
  | stir (t : τ)
  | expire (t : τ)
  /-- `t` has the mutex again -/
  | resume (t : τ)
  | call (t : τ) (p : π)

section Machine

variable {τ μ σ π ο : Type} [DecidableEq τ] [DecidableEq μ]

def threadStep (program : τ → π → Instr μ σ π ο) (w : Threads τ μ σ π) : Choice τ π → Threads τ μ σ π × List ο
  | .run t =>
    match w.mode t, program t (w.point t) with
    | .running, .act f =>
      ({ w with memory := (f w.memory).1, point := Function.update w.point t (f w.memory).2.1 }, (f w.memory).2.2)
    | .running, .lock m p =>
      if w.owner m = none then
        ({ w with owner := Function.update w.owner m (some t), point := Function.update w.point t p }, [])
      else (w, [])
    | .running, .unlock m p =>
      ({ w with owner := Function.update w.owner m none, point := Function.update w.point t p }, [])
    | .running, .signal _ p => ({ w with point := Function.update w.point t p }, [])
    | .running, .wait m _ _ =>
      ({ w with owner := Function.update w.owner m none, mode := Function.update w.mode t (.asleep m) }, [])
    | _, _ => (w, [])
  | .wake t u =>
    match w.mode t, program t (w.point t) with
    | .running, .signal m p =>
      if w.mode u = .asleep m then
        ({ w with point := Function.update w.point t p, mode := Function.update w.mode u (.waking m false) }, [])
      else (w, [])
    | _, _ => (w, [])
  | .stir t =>
    match w.mode t with
    | .asleep m => ({ w with mode := Function.update w.mode t (.waking m false) }, [])
    | _ => (w, [])
  | .expire t =>
    match w.mode t with
    | .asleep m => ({ w with mode := Function.update w.mode t (.waking m true) }, [])
    | _ => (w, [])
  | .resume t =>
    match w.mode t, program t (w.point t) with
    | .waking m late, .wait _ p q =>
      if w.owner m = none then
        ({ w with
          owner := Function.update w.owner m (some t)
          point := Function.update w.point t (if late then q else p)
          mode := Function.update w.mode t .running }, [])
      else (w, [])
    | _, _ => (w, [])
  | .call t p =>
    match program t (w.point t) with
    | .idle => ({ w with point := Function.update w.point t p }, [])
    | _ => (w, [])

/-- A signal wakes somebody if anybody sleeps, and a call begins where its thread may begin. -/
def Threads.allows (program : τ → π → Instr μ σ π ο) (entry : τ → π → Prop) (w : Threads τ μ σ π) :
    Choice τ π → Prop
  | .run t =>
    match program t (w.point t) with
    | .signal m _ => ∀ u, w.mode u ≠ .asleep m
    | _ => True
  | .call t p => entry t p
  | _ => True

instance (program : τ → π → Instr μ σ π ο) (entry : τ → π → Prop) [Fintype τ] [∀ t p, Decidable (entry t p)]
    (w : Threads τ μ σ π) (c : Choice τ π) : Decidable (w.allows program entry c) :=
  match c with
  | .run t =>
    match h : program t (w.point t) with
    | .signal m _ => decidable_of_iff (∀ u, w.mode u ≠ .asleep m) (by simp only [Threads.allows, h])
    | .act _ | .lock _ _ | .unlock _ _ | .wait _ _ _ | .idle => isTrue (by simp only [Threads.allows, h])
  | .call t p => inferInstanceAs (Decidable (entry t p))
  | .wake _ _ | .stir _ | .expire _ | .resume _ => isTrue trivial

/-- What an allowed step does. -/
inductive Move (program : τ → π → Instr μ σ π ο) (entry : τ → π → Prop) (w : Threads τ μ σ π) :
    Threads τ μ σ π → List ο → Prop
  | stay : Move program entry w w []
  | act {t : τ} {f : σ → σ × π × List ο} (hmode : w.mode t = .running) (hinstr : program t (w.point t) = .act f) :
      Move program entry w
        { w with memory := (f w.memory).1, point := Function.update w.point t (f w.memory).2.1 } (f w.memory).2.2
  | lock {t : τ} {m : μ} {p : π} (hmode : w.mode t = .running) (hinstr : program t (w.point t) = .lock m p)
      (hfree : w.owner m = none) :
      Move program entry w
        { w with owner := Function.update w.owner m (some t), point := Function.update w.point t p } []
  | unlock {t : τ} {m : μ} {p : π} (hmode : w.mode t = .running) (hinstr : program t (w.point t) = .unlock m p) :
      Move program entry w
        { w with owner := Function.update w.owner m none, point := Function.update w.point t p } []
  | signal {t : τ} {m : μ} {p : π} (hmode : w.mode t = .running) (hinstr : program t (w.point t) = .signal m p)
      (hnobody : ∀ u, w.mode u ≠ .asleep m) :
      Move program entry w { w with point := Function.update w.point t p } []
  | wait {t : τ} {m : μ} {p q : π} (hmode : w.mode t = .running) (hinstr : program t (w.point t) = .wait m p q) :
      Move program entry w
        { w with owner := Function.update w.owner m none, mode := Function.update w.mode t (.asleep m) } []
  | wake {t u : τ} {m : μ} {p : π} (hmode : w.mode t = .running) (hinstr : program t (w.point t) = .signal m p)
      (hasleep : w.mode u = .asleep m) :
      Move program entry w
        { w with point := Function.update w.point t p, mode := Function.update w.mode u (.waking m false) } []
  | leave {t : τ} {m : μ} {late : Bool} (hasleep : w.mode t = .asleep m) :
      Move program entry w { w with mode := Function.update w.mode t (.waking m late) } []
  | resume {t : τ} {m n : μ} {late : Bool} {p q : π} (hmode : w.mode t = .waking m late)
      (hinstr : program t (w.point t) = .wait n p q) (hfree : w.owner m = none) :
      Move program entry w
        { w with
          owner := Function.update w.owner m (some t)
          point := Function.update w.point t (if late then q else p)
          mode := Function.update w.mode t .running } []
  | call {t : τ} {p : π} (hinstr : program t (w.point t) = .idle) (hentry : entry t p) :
      Move program entry w { w with point := Function.update w.point t p } []

variable {program : τ → π → Instr μ σ π ο} {entry : τ → π → Prop} {w w' : Threads τ μ σ π} {os : List ο}

theorem threadStep_move {c : Choice τ π} (h : w.allows program entry c) :
    Move program entry w (threadStep program w c).1 (threadStep program w c).2 := by
  cases c with
  | run t =>
    simp only [threadStep]
    split
    · exact .act ‹_› ‹_›
    · split
      · exact .lock ‹_› ‹_› ‹_›
      · exact .stay
    · exact .unlock ‹_› ‹_›
    · rename_i hmode hinstr
      simp only [Threads.allows, hinstr] at h
      exact .signal hmode hinstr h
    · exact .wait ‹_› ‹_›
    · exact .stay
  | wake t u =>
    simp only [threadStep]
    split
    · split
      · exact .wake ‹_› ‹_› ‹_›
      · exact .stay
    · exact .stay
  | stir t =>
    simp only [threadStep]
    split
    · exact .leave ‹_›
    · exact .stay
  | expire t =>
    simp only [threadStep]
    split
    · exact .leave ‹_›
    · exact .stay
  | resume t =>
    simp only [threadStep]
    split
    · split
      · exact .resume ‹_› ‹_› ‹_›
      · exact .stay
    · exact .stay
  | call t p =>
    simp only [threadStep]
    split
    · exact .call ‹_› h
    · exact .stay

/-! ## Critical sections -/

/-- Each point has the mutexes that `held` says: they are taken by `lock` and given back by `unlock`. -/
structure Bracketed (program : τ → π → Instr μ σ π ο) (entry : τ → π → Prop) (held : τ → π → μ → Prop) : Prop where
  act : ∀ t p f s m, program t p = .act f → (held t (f s).2.1 m ↔ held t p m)
  lock : ∀ t p m q n, program t p = .lock m q → (held t q n ↔ n = m ∨ held t p n)
  unlock : ∀ t p m q n, program t p = .unlock m q → held t p m ∧ (held t q n ↔ n ≠ m ∧ held t p n)
  signal : ∀ t p m q n, program t p = .signal m q → (held t q n ↔ held t p n)
  wait : ∀ t p m q r n, program t p = .wait m q r →
    held t p m ∧ (held t q n ↔ held t p n) ∧ (held t r n ↔ held t p n)
  call : ∀ t p q m, program t p = .idle → entry t q → ¬ held t p m ∧ ¬ held t q m

/-- The owner of a mutex is the thread whose point has it, unless it is in the wait. -/
structure Threads.Guarded (program : τ → π → Instr μ σ π ο) (held : τ → π → μ → Prop) (w : Threads τ μ σ π) :
    Prop where
  owner : ∀ t m, w.owner m = some t ↔ held t (w.point t) m ∧ ¬ (w.mode t).away m
  waits : ∀ t m, (w.mode t).away m → ∃ p q, program t (w.point t) = .wait m p q

end Machine

section Guarded

variable {τ μ σ π ο : Type} {program : τ → π → Instr μ σ π ο} {entry : τ → π → Prop} {held : τ → π → μ → Prop}
  {w w' : Threads τ μ σ π} {os : List ο}

/-- A thread that is not at a wait is running. -/
theorem Threads.Guarded.running (h : w.Guarded program held) {t : τ}
    (hinstr : ∀ m p q, program t (w.point t) ≠ .wait m p q) : w.mode t = .running := by
  cases hmode : w.mode t with
  | running => rfl
  | asleep m =>
    obtain ⟨p, q, hwait⟩ := h.waits t m (by rw [hmode]; rfl)
    exact absurd hwait (hinstr m p q)
  | waking m late =>
    obtain ⟨p, q, hwait⟩ := h.waits t m (by rw [hmode]; rfl)
    exact absurd hwait (hinstr m p q)

/-- **No two threads are in a critical section.** -/
theorem Threads.Guarded.exclusive (h : w.Guarded program held) {t u : τ} {m : μ} (ht : held t (w.point t) m)
    (hta : ¬ (w.mode t).away m) (hu : held u (w.point u) m) (hua : ¬ (w.mode u).away m) : t = u := by
  have hownt := (h.owner t m).mpr ⟨ht, hta⟩
  have hownu := (h.owner u m).mpr ⟨hu, hua⟩
  exact Option.some.inj (hownt.symm.trans hownu)

/-- One thread goes on, and the others have what they had. -/
theorem Threads.Guarded.advance (h : w.Guarded program held) (t : τ)
    (hpoint : ∀ u, u ≠ t → w'.point u = w.point u) (haway : ∀ u, u ≠ t → ∀ n, (w'.mode u).away n ↔ (w.mode u).away n)
    (howner : ∀ u, u ≠ t → ∀ n, w'.owner n = some u ↔ w.owner n = some u)
    (hself : ∀ n, w'.owner n = some t ↔ held t (w'.point t) n ∧ ¬ (w'.mode t).away n)
    (hwaits : ∀ n, (w'.mode t).away n → ∃ p q, program t (w'.point t) = .wait n p q) : w'.Guarded program held := by
  refine ⟨?_, ?_⟩
  · intro u n
    by_cases hu : u = t
    · subst hu
      exact hself n
    · rw [howner u hu n, hpoint u hu, haway u hu n]
      exact h.owner u n
  · intro u n ha
    by_cases hu : u = t
    · subst hu
      exact hwaits n ha
    · rw [hpoint u hu]
      exact h.waits u n ((haway u hu n).mp ha)

variable [DecidableEq τ] [DecidableEq μ]

theorem Threads.Guarded.move (hb : Bracketed program entry held) (h : w.Guarded program held)
    (hmove : Move program entry w w' os) : w'.Guarded program held := by
  have hrunning : ∀ {t}, w.mode t = .running → ∀ n, ¬ (w.mode t).away n := by
    intro t hmode n
    rw [hmode]
    exact id
  have hother : ∀ {t u : τ} {p : π}, u ≠ t → Function.update w.point t p u = w.point u :=
    fun hu => Function.update_of_ne hu _ _
  cases hmove with
  | stay => exact h
  | @act t f hmode hinstr =>
    refine h.advance t (fun u hu => hother hu) (fun u hu n => Iff.rfl) (fun u hu n => Iff.rfl) ?_ ?_
    · intro n
      simp only [Function.update_self]
      rw [hb.act t _ f w.memory n hinstr]
      exact h.owner t n
    · exact fun n ha => absurd ha (hrunning hmode n)
  | @lock t m p hmode hinstr hfree =>
    refine h.advance t (fun u hu => hother hu) (fun u hu n => Iff.rfl) ?_ ?_ ?_
    · intro u hu n
      by_cases hn : n = m
      · subst hn
        simp only [Function.update_self, hfree, Option.some.injEq, reduceCtorEq, iff_false]
        exact fun heq => hu heq.symm
      · simp only [Function.update_of_ne hn]
    · intro n
      simp only [Function.update_self, hb.lock t _ m p n hinstr, hrunning hmode n, not_false_eq_true, and_true]
      by_cases hn : n = m
      · simp [hn]
      · rw [Function.update_of_ne hn, h.owner t n]
        simp [hn, hrunning hmode n]
    · exact fun n ha => absurd ha (hrunning hmode n)
  | @unlock t m p hmode hinstr =>
    have hheld : w.owner m = some t := (h.owner t m).mpr ⟨(hb.unlock t _ m p m hinstr).1, hrunning hmode m⟩
    refine h.advance t (fun u hu => hother hu) (fun u hu n => Iff.rfl) ?_ ?_ ?_
    · intro u hu n
      by_cases hn : n = m
      · subst hn
        simp only [Function.update_self, hheld, Option.some.injEq, reduceCtorEq, false_iff]
        exact fun heq => hu heq.symm
      · simp only [Function.update_of_ne hn]
    · intro n
      simp only [Function.update_self, (hb.unlock t _ m p n hinstr).2, hrunning hmode n, not_false_eq_true, and_true]
      by_cases hn : n = m
      · simp [hn]
      · rw [Function.update_of_ne hn, h.owner t n]
        simp [hn, hrunning hmode n]
    · exact fun n ha => absurd ha (hrunning hmode n)
  | @signal t m p hmode hinstr hnobody =>
    refine h.advance t (fun u hu => hother hu) (fun u hu n => Iff.rfl) (fun u hu n => Iff.rfl) ?_ ?_
    · intro n
      simp only [Function.update_self]
      rw [hb.signal t _ m p n hinstr]
      exact h.owner t n
    · exact fun n ha => absurd ha (hrunning hmode n)
  | @wait t m p q hmode hinstr =>
    have hheld : w.owner m = some t := (h.owner t m).mpr ⟨(hb.wait t _ m p q m hinstr).1, hrunning hmode m⟩
    refine h.advance t (fun u hu => rfl) ?_ ?_ ?_ ?_
    · intro u hu n
      simp only [Function.update_of_ne hu]
    · intro u hu n
      by_cases hn : n = m
      · subst hn
        simp only [Function.update_self, hheld, Option.some.injEq, reduceCtorEq, false_iff]
        exact fun heq => hu heq.symm
      · simp only [Function.update_of_ne hn]
    · intro n
      simp only [Function.update_self, Mode.away]
      by_cases hn : n = m
      · simp [hn]
      · rw [Function.update_of_ne hn, h.owner t n]
        simp [Ne.symm hn, hrunning hmode n]
    · intro n ha
      simp only [Function.update_self, Mode.away] at ha
      subst ha
      exact ⟨p, q, hinstr⟩
  | @wake t u m p hmode hinstr hasleep =>
    have hut : u ≠ t := by
      rintro rfl
      rw [hmode] at hasleep
      cases hasleep
    refine h.advance t (fun u hu => hother hu) ?_ (fun u hu n => Iff.rfl) ?_ ?_
    · intro v hv n
      by_cases hvu : v = u
      · subst hvu
        simp only [Function.update_self, hasleep, Mode.away]
      · simp only [Function.update_of_ne hvu]
    · intro n
      simp only [Function.update_self, Function.update_of_ne hut.symm]
      rw [hb.signal t _ m p n hinstr]
      exact h.owner t n
    · intro n ha
      simp only [Function.update_of_ne hut.symm] at ha
      exact absurd ha (hrunning hmode n)
  | @leave t m late hasleep =>
    refine h.advance t (fun u hu => rfl) ?_ (fun u hu n => Iff.rfl) ?_ ?_
    · intro u hu n
      simp only [Function.update_of_ne hu]
    · intro n
      have hown := h.owner t n
      rw [hasleep] at hown
      simpa only [Function.update_self, Mode.away] using hown
    · intro n ha
      simp only [Function.update_self, Mode.away] at ha
      subst ha
      exact h.waits t m (by rw [hasleep]; rfl)
  | @resume t m n late p q hmode hinstr hfree =>
    have hn : n = m := by
      obtain ⟨p', q', hwait⟩ := h.waits t m (by rw [hmode]; rfl)
      rw [hinstr] at hwait
      cases hwait
      rfl
    subst hn
    refine h.advance t (fun u hu => hother hu) ?_ ?_ ?_ ?_
    · intro u hu k
      simp only [Function.update_of_ne hu]
    · intro u hu k
      by_cases hk : k = n
      · subst hk
        simp only [Function.update_self, hfree, Option.some.injEq, reduceCtorEq, iff_false]
        exact fun heq => hu heq.symm
      · simp only [Function.update_of_ne hk]
    · intro k
      have hheld : held t (if late then q else p) k ↔ held t (w.point t) k := by
        cases late with
        | false => exact (hb.wait t _ n p q k hinstr).2.1
        | true => exact (hb.wait t _ n p q k hinstr).2.2
      simp only [Function.update_self, hheld, Mode.away, not_false_eq_true, and_true]
      by_cases hk : k = n
      · subst hk
        simp [(hb.wait t _ k p q k hinstr).1]
      · rw [Function.update_of_ne hk, h.owner t k, hmode]
        simp [Mode.away, Ne.symm hk]
    · intro k ha
      simp only [Function.update_self, Mode.away] at ha
  | @call t p hinstr hentry =>
    have hmode : w.mode t = .running := h.running (fun m p q heq => by rw [hinstr] at heq; cases heq)
    refine h.advance t (fun u hu => hother hu) (fun u hu n => Iff.rfl) (fun u hu n => Iff.rfl) ?_ ?_
    · intro n
      obtain ⟨hidle, hstart⟩ := hb.call t _ p n hinstr hentry
      simp only [Function.update_self, hstart, false_and, iff_false]
      rw [h.owner t n]
      exact fun hh => hidle hh.1
    · exact fun n ha => absurd ha (hrunning hmode n)

/-- The mutexes are guarded along every run. -/
theorem Threads.Guarded.step (hb : Bracketed program entry held) (h : w.Guarded program held) {c : Choice τ π}
    (hc : w.allows program entry c) : (threadStep program w c).1.Guarded program held :=
  h.move hb (threadStep_move hc)

end Guarded

/-! ## Wakeups -/

section Wakeups

variable {τ μ σ π ο : Type} {program : τ → π → Instr μ σ π ο} {entry : τ → π → Prop} {held : τ → π → μ → Prop}
  {on : σ → Prop} {m : μ} {t : τ} {w w' : Threads τ μ σ π} {os : List ο}

/-- Where a thread may be after an instruction that is not an act. -/
def Instr.leadsTo : Instr μ σ π ο → π → Prop
  | .act _, _ => False
  | .lock _ p, q => q = p
  | .unlock _ p, q => q = p
  | .signal _ p, q => q = p
  | .wait _ p p', q => q = p ∨ q = p'
  | .idle, _ => False

/-- `t` alone waits with `m`, while `on` holds and after a look at it; whoever ends it has the mutex and signals
next. -/
structure Signalled (program : τ → π → Instr μ σ π ο) (entry : τ → π → Prop) (held : τ → π → μ → Prop) (m : μ) (t : τ)
    (on : σ → Prop) : Prop where
  alone : ∀ u p q r, program u p = .wait m q r → u = t
  looks : ∀ p f s q r, program t p = .act f → program t (f s).2.1 = .wait m q r → on (f s).1
  first : ∀ p p' q r, (program t p).leadsTo p' → program t p' ≠ .wait m q r
  enters : ∀ p q r, entry t p → program t p ≠ .wait m q r
  tells : ∀ u p f s, program u p = .act f → on s → ¬ on (f s).1 →
    held u p m ∧ ∃ q, program u (f s).2.1 = .signal m q

/-- Who is about to sleep, or sleeps, does so while `on` holds, or the signal is next. -/
structure Threads.Awaited (program : τ → π → Instr μ σ π ο) (m : μ) (t : τ) (on : σ → Prop) (w : Threads τ μ σ π) :
    Prop where
  about : ∀ q r, w.mode t = .running → program t (w.point t) = .wait m q r → on w.memory
  asleep : w.mode t = .asleep m → on w.memory ∨ ∃ u q, w.owner m = some u ∧ program u (w.point u) = .signal m q

variable [DecidableEq τ] [DecidableEq μ]

omit [DecidableEq μ] in
/-- A thread that goes to a point without a wait. -/
theorem Threads.Awaited.about_moved (h : w.Awaited program m t on) {u : τ} {p : π}
    (hp : t = u → ∀ q r, program t p ≠ .wait m q r) (q r : π) (hrun : w.mode t = .running)
    (hwait : program t (Function.update w.point u p t) = .wait m q r) : on w.memory := by
  by_cases hu : t = u
  · have hself : Function.update w.point u p t = p := by rw [hu, Function.update_self]
    rw [hself] at hwait
    exact absurd hwait (hp hu q r)
  · rw [Function.update_of_ne hu] at hwait
    exact h.about q r hrun hwait

theorem Threads.Awaited.move (hb : Bracketed program entry held) (hs : Signalled program entry held m t on)
    (hg : w.Guarded program held) (h : w.Awaited program m t on) (hmove : Move program entry w w' os) :
    w'.Awaited program m t on := by
  have hother : ∀ {x y : τ} {p : π}, x ≠ y → Function.update w.point y p x = w.point x :=
    fun hne => Function.update_of_ne hne _ _
  -- The thread that signals next stands at its signal: it is not the one that moves, unless it signals now.
  have hsignals : ∀ {x y : τ} {q : π}, program x (w.point x) = .signal m q →
      (∀ q', program y (w.point y) ≠ .signal m q') → x ≠ y := by
    rintro x y q hx hy rfl
    exact hy q hx
  cases hmove with
  | stay => exact h
  | @act u f hmode hinstr =>
    refine ⟨?_, ?_⟩
    · intro q r hrun hwait
      by_cases hu : t = u
      · subst hu
        simp only [Function.update_self] at hwait
        exact hs.looks _ f _ q r hinstr hwait
      · simp only [hother hu] at hwait
        have hon := h.about q r hrun hwait
        by_contra hoff
        have hheld := (hs.tells u _ f _ hinstr hon hoff).1
        have hwaits := (hb.wait t _ m q r m hwait).1
        refine hu (hg.exclusive hwaits ?_ hheld ?_)
        · rw [hrun]
          exact id
        · rw [hmode]
          exact id
    · intro hasleep
      by_cases hoff : on (f w.memory).1
      · exact .inl hoff
      · right
        rcases h.asleep hasleep with hon | ⟨v, q, hown, hsig⟩
        · obtain ⟨hheld, q, hsig⟩ := hs.tells u _ f _ hinstr hon hoff
          refine ⟨u, q, (hg.owner u m).mpr ⟨hheld, ?_⟩, ?_⟩
          · rw [hmode]
            exact id
          · simpa only [Function.update_self] using hsig
        · have hv : v ≠ u := hsignals hsig (fun q' heq => by rw [hinstr] at heq; cases heq)
          exact ⟨v, q, hown, by simpa only [hother hv] using hsig⟩
  | @lock u n p hmode hinstr hfree =>
    refine ⟨?_, ?_⟩
    · exact h.about_moved fun hu q r => by
        subst hu
        exact hs.first _ p q r (by rw [hinstr]; rfl)
    · intro hasleep
      refine (h.asleep hasleep).imp_right ?_
      rintro ⟨v, q, hown, hsig⟩
      have hv : v ≠ u := hsignals hsig (fun q' heq => by rw [hinstr] at heq; cases heq)
      have hn : m ≠ n := by
        rintro rfl
        rw [hfree] at hown
        cases hown
      exact ⟨v, q, by simpa only [Function.update_of_ne hn] using hown, by simpa only [hother hv] using hsig⟩
  | @unlock u n p hmode hinstr =>
    refine ⟨?_, ?_⟩
    · exact h.about_moved fun hu q r => by
        subst hu
        exact hs.first _ p q r (by rw [hinstr]; rfl)
    · intro hasleep
      refine (h.asleep hasleep).imp_right ?_
      rintro ⟨v, q, hown, hsig⟩
      have hv : v ≠ u := hsignals hsig (fun q' heq => by rw [hinstr] at heq; cases heq)
      have hn : m ≠ n := by
        rintro rfl
        have hheld : w.owner m = some u :=
          (hg.owner u m).mpr ⟨(hb.unlock u _ m p m hinstr).1, by rw [hmode]; exact id⟩
        exact hv (Option.some.inj (hown.symm.trans hheld))
      exact ⟨v, q, by simpa only [Function.update_of_ne hn] using hown, by simpa only [hother hv] using hsig⟩
  | @signal u n p hmode hinstr hnobody =>
    refine ⟨?_, ?_⟩
    · exact h.about_moved fun hu q r => by
        subst hu
        exact hs.first _ p q r (by rw [hinstr]; rfl)
    · intro hasleep
      refine (h.asleep hasleep).imp_right ?_
      rintro ⟨v, q, hown, hsig⟩
      have hv : v ≠ u := by
        refine hsignals hsig ?_
        intro q' heq
        rw [hinstr] at heq
        cases heq
        exact hnobody t hasleep
      exact ⟨v, q, hown, by simpa only [hother hv] using hsig⟩
  | @wait u n p p' hmode hinstr =>
    refine ⟨?_, ?_⟩
    · intro q r hrun hwait
      by_cases hu : t = u
      · subst hu
        simp only [Function.update_self] at hrun
        cases hrun
      · simp only [Function.update_of_ne hu] at hrun
        exact h.about q r hrun hwait
    · intro hasleep
      by_cases hu : t = u
      · subst hu
        simp only [Function.update_self, Mode.asleep.injEq] at hasleep
        subst hasleep
        exact .inl (h.about p p' hmode hinstr)
      · simp only [Function.update_of_ne hu] at hasleep
        refine (h.asleep hasleep).imp_right ?_
        rintro ⟨v, q, hown, hsig⟩
        have hn : m ≠ n := by
          rintro rfl
          exact hu (hs.alone u _ p p' hinstr).symm
        exact ⟨v, q, by simpa only [Function.update_of_ne hn] using hown, hsig⟩
  | @wake u v n p hmode hinstr hasleep =>
    refine ⟨?_, ?_⟩
    · intro q r hrun hwait
      by_cases hv : t = v
      · subst hv
        simp only [Function.update_self] at hrun
        cases hrun
      · simp only [Function.update_of_ne hv] at hrun
        refine h.about_moved (fun hu q r => ?_) q r hrun hwait
        subst hu
        exact hs.first _ p q r (by rw [hinstr]; rfl)
    · intro hsleeps
      by_cases hv : t = v
      · subst hv
        simp only [Function.update_self] at hsleeps
        cases hsleeps
      · simp only [Function.update_of_ne hv] at hsleeps
        refine (h.asleep hsleeps).imp_right ?_
        rintro ⟨x, q, hown, hsig⟩
        have hx : x ≠ u := by
          refine hsignals hsig ?_
          intro q' heq
          rw [hinstr] at heq
          cases heq
          obtain ⟨r, r', hwait⟩ := hg.waits v m (by rw [hasleep]; rfl)
          exact hv (hs.alone v _ r r' hwait).symm
        exact ⟨x, q, hown, by simpa only [hother hx] using hsig⟩
  | @leave u n late hasleep =>
    refine ⟨?_, ?_⟩
    · intro q r hrun hwait
      by_cases hu : t = u
      · subst hu
        simp only [Function.update_self] at hrun
        cases hrun
      · simp only [Function.update_of_ne hu] at hrun
        exact h.about q r hrun hwait
    · intro hsleeps
      by_cases hu : t = u
      · subst hu
        simp only [Function.update_self] at hsleeps
        cases hsleeps
      · simp only [Function.update_of_ne hu] at hsleeps
        exact h.asleep hsleeps
  | @resume u n n' late p p' hmode hinstr hfree =>
    refine ⟨?_, ?_⟩
    · intro q r hrun hwait
      by_cases hu : t = u
      · subst hu
        simp only [Function.update_self] at hwait
        refine absurd hwait (hs.first (w.point t) _ q r ?_)
        rw [hinstr]
        cases late with
        | false => exact .inl rfl
        | true => exact .inr rfl
      · simp only [Function.update_of_ne hu] at hrun
        simp only [hother hu] at hwait
        exact h.about q r hrun hwait
    · intro hsleeps
      by_cases hu : t = u
      · subst hu
        simp only [Function.update_self] at hsleeps
        cases hsleeps
      · simp only [Function.update_of_ne hu] at hsleeps
        refine (h.asleep hsleeps).imp_right ?_
        rintro ⟨v, q, hown, hsig⟩
        have hv : v ≠ u := hsignals hsig (fun q' heq => by rw [hinstr] at heq; cases heq)
        have hn : m ≠ n := by
          rintro rfl
          rw [hfree] at hown
          cases hown
        exact ⟨v, q, by simpa only [Function.update_of_ne hn] using hown, by simpa only [hother hv] using hsig⟩
  | @call u p hinstr hentry =>
    refine ⟨?_, ?_⟩
    · exact h.about_moved fun hu q r => by
        subst hu
        exact hs.enters p q r hentry
    · intro hasleep
      refine (h.asleep hasleep).imp_right ?_
      rintro ⟨v, q, hown, hsig⟩
      have hv : v ≠ u := hsignals hsig (fun q' heq => by rw [hinstr] at heq; cases heq)
      exact ⟨v, q, hown, by simpa only [hother hv] using hsig⟩

/-- **No wakeup is lost.** Along every run, who sleeps does so while `on` holds, or a signal is the next instruction of
the thread that has the mutex. -/
theorem Threads.Awaited.run (hb : Bracketed program entry held) (hs : Signalled program entry held m t on)
    (hg : w.Guarded program held) (h : w.Awaited program m t on) (cs : List (Choice τ π))
    (hcs : Along (threadStep program) (Threads.allows program entry) w cs) :
    (Lib.run (threadStep program) w cs).1.Awaited program m t on := by
  have hstep : ∀ (w : Threads τ μ σ π) c, w.Guarded program held ∧ w.Awaited program m t on →
      w.allows program entry c →
      (threadStep program w c).1.Guarded program held ∧ (threadStep program w c).1.Awaited program m t on := by
    intro w c h hc
    exact ⟨h.1.step hb hc, h.2.move hb hs h.1 (threadStep_move hc)⟩
  exact (run_invariant hstep cs w ⟨hg, h⟩ hcs).2

end Wakeups

end Lib
