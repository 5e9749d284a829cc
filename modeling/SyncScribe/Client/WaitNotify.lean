import Mathlib.Data.Fintype.Sum
import SyncScribe.Lib.Threads

/-!
`syncs_wait_for` and `syncs_notify_for`: the waits of a client for its receive thread.
Each has a flag, a mutex and a condition. The flags are set without their mutex; they
are cleared with it, by any thread, and `pthread_cond_signal` wakes one thread only.
So with one thread to a flag nobody sleeps through its end, and with two one may.
-/

namespace SyncScribe
open Lib

/-- The fields `*_wait` of `struct syncs_connect`, each with a mutex and a condition of its own. -/
inductive WaitFlag
  | read
  | event
  | eventlist
  | channellist
  | clientlist
  | ticket
  | connect
  deriving DecidableEq

/-- The threads that wait, and the others. -/
inductive WaitThread (ω ι : Type)
  | waiter (w : ω)
  | other (i : ι)
  deriving DecidableEq

instance {ω ι : Type} [DecidableEq ω] [DecidableEq ι] [Fintype ω] [Fintype ι] : Fintype (WaitThread ω ι) :=
  Fintype.ofSurjective (Sum.elim .waiter .other) fun t =>
    match t with
    | .waiter w => ⟨.inl w, rfl⟩
    | .other i => ⟨.inr i, rfl⟩

inductive WaitPoint
  | out
  /- `syncs_wait_for` -/
  | entered
  | testing
  | sleeping
  | expired
  | failed
  | leaving
  | left
  /- a store of 1 to a flag -/
  | raising (f : WaitFlag)
  /- `syncs_notify_for`, and the same behind a test in `syncs_process_packet` and `syncs_channel_process_packet` -/
  | notifying (f : WaitFlag) (wanted : Bool)
  | deciding (f : WaitFlag) (wanted : Bool)
  | clearing (f : WaitFlag)
  | signalling (f : WaitFlag)
  | done (f : WaitFlag)
  deriving DecidableEq

/-- Which flags are set. -/
abbrev WaitFlags := WaitFlag → Bool

section Program

variable {ω ι : Type}

/-- The programs; `flagOf` is what a thread waits for, and the outputs are what `syncs_wait_for` returns to it. -/
def waitProgram (flagOf : ω → WaitFlag) :
    WaitThread ω ι → WaitPoint → Instr WaitFlag WaitFlags WaitPoint (ω × Int)
  | .waiter w, .entered => .lock (flagOf w) .testing
  | .waiter w, .testing => .act fun m => (m, if m (flagOf w) then .sleeping else .leaving, [])
  | .waiter w, .sleeping => .wait (flagOf w) .testing .expired
  | .waiter w, .expired => .unlock (flagOf w) .failed
  | .waiter w, .failed => .act fun m => (m, .out, [(w, -110)])
  | .waiter w, .leaving => .unlock (flagOf w) .left
  | .waiter w, .left => .act fun m => (m, .out, [(w, 0)])
  | .other _, .raising f => .act fun m => (Function.update m f true, .out, [])
  | .other _, .notifying f wanted => .lock f (.deciding f wanted)
  | .other _, .deciding f wanted => .act fun m => (m, if wanted then .clearing f else .done f, [])
  | .other _, .clearing f => .act fun m => (Function.update m f false, .signalling f, [])
  | .other _, .signalling f => .signal f (.done f)
  | .other _, .done f => .unlock f .out
  | _, _ => .idle

/-- What a thread may begin. -/
def mayWait : WaitThread ω ι → WaitPoint → Prop
  | .waiter _, .entered => True
  | .other _, .raising _ => True
  | .other _, .notifying _ _ => True
  | _, _ => False

instance : ∀ (t : WaitThread ω ι) p, Decidable (mayWait t p)
  | .waiter _, p => by cases p <;> first | exact isTrue trivial | exact isFalse id
  | .other _, p => by cases p <;> first | exact isTrue trivial | exact isFalse id

/-- The points with the mutex of a flag. -/
def hasMutex (flagOf : ω → WaitFlag) : WaitThread ω ι → WaitPoint → WaitFlag → Prop
  | .waiter w, .testing, f | .waiter w, .sleeping, f | .waiter w, .expired, f | .waiter w, .leaving, f => f = flagOf w
  | .other _, .deciding g _, f | .other _, .clearing g, f | .other _, .signalling g, f | .other _, .done g, f => f = g
  | _, _, _ => False

/-- Nobody has begun. -/
def waitStart (flags : WaitFlags) : Threads (WaitThread ω ι) WaitFlag WaitFlags WaitPoint :=
  ⟨flags, fun _ => none, fun _ => .out, fun _ => .running⟩

theorem waitProgram_bracketed (flagOf : ω → WaitFlag) :
    Bracketed (waitProgram (ι := ι) flagOf) mayWait (hasMutex flagOf) := by
  refine ⟨?_, ?_, ?_, ?_, ?_, ?_⟩
  · intro t p f m g h
    cases t <;> cases p <;> simp only [waitProgram, reduceCtorEq, Instr.act.injEq] at h <;> subst h
    all_goals beta_reduce
    all_goals (repeat' split) <;> simp [hasMutex]
  · intro t p m q g h
    cases t <;> cases p <;> simp only [waitProgram, reduceCtorEq, Instr.lock.injEq] at h
    all_goals
      obtain ⟨rfl, rfl⟩ := h
      simp [hasMutex]
  · intro t p m q g h
    cases t <;> cases p <;> simp only [waitProgram, reduceCtorEq, Instr.unlock.injEq] at h
    all_goals
      obtain ⟨rfl, rfl⟩ := h
      simp [hasMutex]
  · intro t p m q g h
    cases t <;> cases p <;> simp only [waitProgram, reduceCtorEq, Instr.signal.injEq] at h
    obtain ⟨rfl, rfl⟩ := h
    simp [hasMutex]
  · intro t p m q r g h
    cases t <;> cases p <;> simp only [waitProgram, reduceCtorEq, Instr.wait.injEq] at h
    obtain ⟨rfl, rfl, rfl⟩ := h
    simp [hasMutex]
  · intro t p q g h hbegin
    cases t <;> cases p <;> simp only [waitProgram, reduceCtorEq] at h <;> cases q <;> simp_all [hasMutex, mayWait]

/-- Where each flag has one waiter, the programs signal as they should. -/
theorem waitProgram_signalled {flagOf : ω → WaitFlag} (hone : Function.Injective flagOf) (w : ω) :
    Signalled (waitProgram (ι := ι) flagOf) mayWait (hasMutex flagOf) (flagOf w) (.waiter w) fun m => m (flagOf w) = true := by
  refine ⟨?_, ?_, ?_, ?_, ?_⟩
  · intro t p q r h
    cases t <;> cases p <;> simp only [waitProgram, reduceCtorEq, Instr.wait.injEq] at h
    rw [hone h.1]
  · intro p f m q r h hwait
    cases p <;> simp only [waitProgram, reduceCtorEq, Instr.act.injEq] at h <;> subst h
    case testing =>
      by_contra hoff
      simp only [hoff, ↓reduceIte, waitProgram, reduceCtorEq] at hwait
    all_goals cases hwait
  · intro p p' q r h hwait
    cases p <;> simp only [waitProgram, Instr.leadsTo] at h
    case sleeping =>
      rcases h with rfl | rfl
      · cases hwait
      · cases hwait
    all_goals
      subst h
      cases hwait
  · intro p q r h hwait
    cases p <;> simp only [mayWait] at h
    cases hwait
  · intro t p f m h hon hoff
    cases t <;> cases p <;> simp only [waitProgram, reduceCtorEq, Instr.act.injEq] at h <;> subst h
    case other.clearing i g =>
      by_cases hg : flagOf w = g
      · exact ⟨hg, .done g, by rw [hg]; rfl⟩
      · exact absurd (by simpa only [Function.update_of_ne hg] using hon) hoff
    case other.raising i g =>
      refine absurd ?_ hoff
      by_cases hg : flagOf w = g
      · simp only [hg, Function.update_self]
      · simpa only [Function.update_of_ne hg] using hon
    all_goals exact absurd hon hoff

variable [DecidableEq ω] [DecidableEq ι]

/-- **Nobody sleeps through the end of his wait.** Where each flag has one waiter, a thread that sleeps does so while
its flag is set, or the thread with the mutex signals next. -/
theorem waits_are_woken {flagOf : ω → WaitFlag} (hone : Function.Injective flagOf) (flags : WaitFlags)
    (cs : List (Choice (WaitThread ω ι) WaitPoint))
    (hcs : Along (threadStep (waitProgram flagOf)) (Threads.allows (waitProgram flagOf) mayWait) (waitStart flags) cs)
    (w : ω) (hasleep : (run (threadStep (waitProgram flagOf)) (waitStart flags) cs).1.mode (.waiter w) = .asleep (flagOf w)) :
    (run (threadStep (waitProgram flagOf)) (waitStart flags) cs).1.memory (flagOf w) = true ∨
      ∃ i, (run (threadStep (waitProgram flagOf)) (waitStart flags) cs).1.owner (flagOf w) = some (.other i) ∧
        (run (threadStep (waitProgram flagOf)) (waitStart flags) cs).1.point (.other i) = .signalling (flagOf w) := by
  have hguarded : (waitStart flags).Guarded (waitProgram (ι := ι) flagOf) (hasMutex flagOf) := by
    refine ⟨?_, ?_⟩
    · intro t f
      simp only [waitStart, reduceCtorEq, false_iff, not_and_or]
      left
      cases t <;> exact id
    · rintro t m ⟨⟩
  have hawaited : (waitStart flags).Awaited (waitProgram (ι := ι) flagOf) (flagOf w) (.waiter w)
      fun m => m (flagOf w) = true := by
    refine ⟨?_, ?_⟩
    · rintro q r - ⟨⟩
    · rintro ⟨⟩
  have h := hawaited.run (waitProgram_bracketed flagOf) (waitProgram_signalled hone w) hguarded cs hcs
  refine (h.asleep hasleep).imp_right ?_
  rintro ⟨t, q, howner, hsignal⟩
  generalize (run (threadStep (waitProgram flagOf)) (waitStart flags) cs).1 = x at howner hsignal ⊢
  cases t with
  | waiter v => cases hp : x.point (.waiter v) <;> rw [hp] at hsignal <;> cases hsignal
  | other i =>
    refine ⟨i, howner, ?_⟩
    cases hp : x.point (.other i) <;> rw [hp] at hsignal <;> cases hsignal
    rfl

end Program

/-- A thread goes to sleep in `syncs_connect_wait`, and the receive thread clears the flag. -/
def connectWaits : List (Choice (WaitThread Unit Unit) WaitPoint) :=
  .call (.waiter ()) .entered :: List.replicate 3 (.run (.waiter ())) ++
    .call (.other ()) (.notifying .connect true) :: List.replicate 3 (.run (.other ()))

theorem connectWaits_woken :
    (run (threadStep (waitProgram fun _ => .connect)) (waitStart fun _ => true) connectWaits).1.memory .connect = true ∨
      ∃ i, (run (threadStep (waitProgram fun _ => .connect)) (waitStart fun _ => true) connectWaits).1.owner .connect =
          some (.other i) ∧
        (run (threadStep (waitProgram fun _ => .connect)) (waitStart fun _ => true) connectWaits).1.point (.other i) =
          .signalling .connect :=
  waits_are_woken (fun _ _ _ => rfl) (fun _ => true) connectWaits (by decide) () (by decide)

/-- Two threads sleep in `syncs_connect_wait`, and one of them is woken. -/
def twoConnectWaits : List (Choice (WaitThread Bool Unit) WaitPoint) :=
  .call (.waiter false) .entered :: List.replicate 3 (.run (.waiter false)) ++
    .call (.waiter true) .entered :: List.replicate 3 (.run (.waiter true)) ++
    .call (.other ()) (.notifying .connect true) :: List.replicate 3 (.run (.other ())) ++
    [.wake (.other ()) (.waiter false), .run (.other ())]

/-- The other sleeps on: the flag is cleared, and nobody is about to signal. -/
example : Along (threadStep (waitProgram fun _ => .connect)) (Threads.allows (waitProgram fun _ => .connect) mayWait)
      (waitStart fun _ => true) twoConnectWaits ∧
    (run (threadStep (waitProgram fun _ => .connect)) (waitStart fun _ => true) twoConnectWaits).1.memory .connect = false ∧
    (run (threadStep (waitProgram fun _ => .connect)) (waitStart fun _ => true) twoConnectWaits).1.mode (.waiter true) =
      .asleep .connect ∧
    (run (threadStep (waitProgram fun _ => .connect)) (waitStart fun _ => true) twoConnectWaits).1.point (.other ()) =
      .out := by
  decide

end SyncScribe
