import Mathlib.Data.Int.Interval
import SyncScribe.System.ConnectThreads

/-!
How the threads of a connection end and what they leave behind: the thread of the
callback, of which there is one at a time; the thread of the connection, which ends soon
after `syncs_disconnect` unless it looks for the server; and the descriptors, which
`shutdown` does not give back.
-/

namespace SyncScribe
open Lib Lib.Bytes

namespace ConnectThreads

variable {w w' : ConnectThreads}

/-! ## The callback of the application -/

/-- The `i`-th callback thread has not ended. -/
def runs (w : ConnectThreads) (i : Nat) : Prop := ∃ t, w.callbacks[i]? = some t ∧ t.point ≠ .gone

/-- Between the test for a callback and its start. -/
def isStarting : ConnectPoint → Bool
  | .marking | .creating => true
  | _ => false

/-- Only the last one may run, and only while `connect_cb_status` is set. -/
structure Alone (w : ConnectThreads) : Prop where
  last : ∀ i, w.runs i → i + 1 = w.callbacks.length
  marked : ∀ i, w.runs i → w.cbStatus = true ∧ isStarting w.point = false
  creating : w.point = .creating → w.cbStatus = true

theorem runs_moveCallback {i j : Nat} {t : CbThread} {p : CbPoint} (ht : w.callbacks[i]? = some t)
    (hp : t.point = .gone → p = .gone) (h : (w.moveCallback i t p).runs j) : w.runs j := by
  obtain ⟨u, hget, hne⟩ := h
  simp only [moveCallback, List.getElem?_set] at hget
  split at hget
  · rename_i hij
    subst hij
    split at hget
    · obtain rfl := Option.some.inj hget
      exact ⟨t, ht, fun hg => hne (hp hg)⟩
    · cases hget
  · exact ⟨u, hget, hne⟩

theorem not_runs_gone (w : ConnectThreads) (i : Nat) (t : CbThread) : ¬ (w.moveCallback i t .gone).runs i := by
  rintro ⟨u, hget, hne⟩
  simp only [moveCallback, List.getElem?_set, ↓reduceIte] at hget
  split at hget
  · obtain rfl := Option.some.inj hget
    exact hne rfl
  · cases hget

theorem Alone.fewer (h : w.Alone) (hruns : ∀ i, w'.runs i → w.runs i)
    (hlength : w'.callbacks.length = w.callbacks.length) (hstatus : w'.cbStatus = w.cbStatus)
    (hpoint : w'.point = w.point ∨ isStarting w'.point = false) : w'.Alone := by
  refine ⟨fun i hi => by rw [hlength, h.last i (hruns i hi)], ?_, ?_⟩
  · intro i hi
    obtain ⟨hs, hstarting⟩ := h.marked i (hruns i hi)
    rcases hpoint with hpoint | hpoint
    · rw [hstatus, hpoint]
      exact ⟨hs, hstarting⟩
    · rw [hstatus]
      exact ⟨hs, hpoint⟩
  · intro hc
    rcases hpoint with hpoint | hpoint
    · rw [hstatus, h.creating (hpoint.symm.trans hc)]
    · rw [hc] at hpoint
      cases hpoint

theorem Alone.of_nobody (hnone : ∀ i, ¬ w.runs i) (hcreating : w.point = .creating → w.cbStatus = true) : w.Alone :=
  ⟨fun i hi => absurd hi (hnone i), fun i hi => absurd hi (hnone i), hcreating⟩

theorem Alone.nobody_starting (h : w.Alone) (hstarting : isStarting w.point = true) (i : Nat) : ¬ w.runs i := by
  intro hi
  rw [(h.marked i hi).2] at hstarting
  cases hstarting

theorem Alone.advance (h : w.Alone) (f : Fate) : (w.advance f).1.Alone := by
  have hkeep : ∀ {x : ConnectThreads}, x.callbacks = w.callbacks → x.cbStatus = w.cbStatus →
      isStarting x.point = false → x.Alone := by
    intro x hcbs hstatus hpoint
    refine h.fewer ?_ (by rw [hcbs]) hstatus (Or.inr hpoint)
    intro i hi
    rwa [runs, hcbs] at hi
  cases hp : w.point <;> simp only [ConnectThreads.advance, hp]
  case finding =>
    split
    · split
      · exact hkeep rfl rfl rfl
      · exact h
    · exact hkeep rfl rfl rfl
  case testing | opening | looping | reading => split <;> exact hkeep rfl rfl rfl
  case announcing =>
    have hbehind : ∀ t, isStarting (behindAnnounce t) = false := by
      intro t
      cases t <;> rfl
    exact hkeep rfl rfl (hbehind w.transport)
  case deciding =>
    by_cases hcb : (w.hasCb && !w.cbStatus) = true
    · rw [if_pos hcb]
      simp only [Bool.and_eq_true, Bool.not_eq_true'] at hcb
      have hnone : ∀ i, ¬ w.runs i := by
        intro i hi
        have hs := (h.marked i hi).1
        rw [hcb.2] at hs
        cases hs
      exact .of_nobody hnone fun hc => by cases hc
    · rw [if_neg hcb]
      exact hkeep rfl rfl rfl
  case marking =>
    have hnone := h.nobody_starting (by rw [hp]; rfl)
    exact .of_nobody hnone fun _ => rfl
  case creating =>
    have hnone := h.nobody_starting (by rw [hp]; rfl)
    split
    · refine ⟨?_, ?_, fun hc => by cases hc⟩
      · rintro i ⟨t, hget, hne⟩
        simp only [List.getElem?_append] at hget
        split at hget
        · exact absurd ⟨t, hget, hne⟩ (hnone i)
        · rename_i hi
          have hlt := (List.getElem?_eq_some_iff.mp hget).1
          simp only [List.length_append, List.length_cons, List.length_nil] at hlt ⊢
          omega
      · intro i _
        exact ⟨h.creating hp, rfl⟩
    · exact hkeep rfl rfl rfl
  case finished => exact h
  all_goals exact hkeep rfl rfl rfl

theorem Alone.move (h : w.Alone) {i : Nat} {t : CbThread} {p : CbPoint} (ht : w.callbacks[i]? = some t)
    (hp : t.point = .gone → p = .gone) : (w.moveCallback i t p).Alone :=
  h.fewer (fun _ => runs_moveCallback ht hp) (by simp [moveCallback]) rfl (Or.inl rfl)

theorem Alone.advanceCallback (h : w.Alone) (i : Nat) : (w.advanceCallback i).Alone := by
  cases ht : w.callbacks[i]? with
  | none =>
    simp only [ConnectThreads.advanceCallback, ht]
    exact h
  | some t =>
    have hne : ∀ {p : CbPoint}, t.point = p → p ≠ .gone → t.point ≠ .gone := by
      rintro p rfl hp
      exact hp
    cases hp : t.point <;> simp only [ConnectThreads.advanceCallback, ht, hp]
    case gone => exact h
    case entering | calling => exact h.move ht fun hg => absurd hg (hne hp (by decide))
    case storing =>
      have hruns : w.runs i := ⟨t, ht, hne hp (by decide)⟩
      have hnone : ∀ j, ¬ (w.moveCallback i t .gone).runs j := by
        intro j hj
        have hold := runs_moveCallback ht (fun _ => rfl) hj
        have hij : j = i := by
          have := h.last j hold
          have := h.last i hruns
          omega
        rw [hij] at hj
        exact not_runs_gone w i t hj
      exact .of_nobody hnone fun hc => absurd (h.marked i hruns).2 (by rw [show w.point = .creating from hc]; decide)

theorem runs_cancel {i k : Nat} {f : CbThread → CbThread} (hf : ∀ t, (f t).point = t.point)
    (h : ∃ t, (w.callbacks.modify k f)[i]? = some t ∧ t.point ≠ .gone) : w.runs i := by
  obtain ⟨u, hget, hne⟩ := h
  rw [List.getElem?_modify] at hget
  cases ht : w.callbacks[i]? with
  | none =>
    rw [ht] at hget
    cases hget
  | some t =>
    rw [ht] at hget
    refine ⟨t, ht, fun hg => hne ?_⟩
    obtain rfl := Option.some.inj hget
    split
    · rw [hf, hg]
    · exact hg

theorem Alone.advanceDisconnect (h : w.Alone) : w.advanceDisconnect.1.Alone := by
  cases hl : w.leaving <;> simp only [ConnectThreads.advanceDisconnect, hl]
  case cancelling => exact h.fewer (fun _ => runs_cancel fun _ => rfl) (by simp) rfl (Or.inl rfl)
  case joining => split <;> exact h.fewer (fun _ => id) rfl rfl (Or.inl rfl)
  all_goals exact h.fewer (fun _ => id) rfl rfl (Or.inl rfl)

theorem Alone.step (h : w.Alone) (a : ConnectStep) : (connectStep w a).1.Alone := by
  cases a with
  | thread f => exact h.advance f
  | callback i => exact h.advanceCallback i
  | die i =>
    simp only [connectStep]
    split
    · split
      · exact h.move ‹_› fun _ => rfl
      · exact h
    · exact h
  | call b =>
    simp only [connectStep]
    split
    · exact h.fewer (fun _ => id) rfl rfl (Or.inl rfl)
    · exact h
  | disconnect => exact h.advanceDisconnect

/-- `syncs_disconnect` has cancelled what it cancels. -/
def past : DisconnectPoint → Bool
  | .shutting | .joining | .freeing | .done => true
  | _ => false

/-- The first `n` callback threads have ended or are cancelled. -/
structure Settled (n : Nat) (w : ConnectThreads) : Prop where
  past : past w.leaving = true
  old : n ≤ w.callbacks.length
  cancelled : ∀ i t, i < n → w.callbacks[i]? = some t → t.point ≠ .gone → t.cancelled = true

theorem Settled.move {n i : Nat} {t : CbThread} {p : CbPoint} (h : Settled n w) (ht : w.callbacks[i]? = some t)
    (hp : t.point = .gone → p = .gone) : Settled n (w.moveCallback i t p) := by
  refine ⟨h.past, by simpa [moveCallback] using h.old, ?_⟩
  intro j u hj hget hne
  simp only [moveCallback, List.getElem?_set] at hget
  split at hget
  · rename_i hij
    subst hij
    split at hget
    · obtain rfl := Option.some.inj hget
      exact h.cancelled i t hj ht fun hg => hne (hp hg)
    · cases hget
  · exact h.cancelled j u hj hget hne

theorem advance_callbacks (w : ConnectThreads) (f : Fate) : ∃ ts, (w.advance f).1.callbacks = w.callbacks ++ ts := by
  cases hp : w.point <;> simp only [ConnectThreads.advance, hp]
  case finding =>
    split
    · split <;> exact ⟨[], (List.append_nil _).symm⟩
    · exact ⟨[], (List.append_nil _).symm⟩
  case testing | opening => split <;> exact ⟨[], (List.append_nil _).symm⟩
  case creating =>
    split
    · exact ⟨_, rfl⟩
    · exact ⟨[], (List.append_nil _).symm⟩
  all_goals exact ⟨[], (List.append_nil _).symm⟩

theorem Settled.step {n : Nat} (h : Settled n w) (a : ConnectStep) : Settled n (connectStep w a).1 := by
  cases a with
  | thread f =>
    obtain ⟨ts, hts⟩ := advance_callbacks w f
    have hold := h.old
    have hpast : ConnectThreads.past (w.advance f).1.leaving = true := by rw [(advance_continues w f).leaving, h.past]
    refine ⟨hpast, by rw [connectStep, hts, List.length_append]; omega, ?_⟩
    intro i t hi hget
    rw [connectStep, hts, List.getElem?_append_left (Nat.lt_of_lt_of_le hi h.old)] at hget
    exact h.cancelled i t hi hget
  | callback i =>
    cases ht : w.callbacks[i]? with
    | none =>
      simp only [connectStep, advanceCallback, ht]
      exact h
    | some t =>
      cases hp : t.point <;> simp only [connectStep, advanceCallback, ht, hp]
      case gone => exact h
      case entering | calling => exact h.move ht fun hg => by rw [hp] at hg; cases hg
      case storing =>
        have hmoved := h.move (p := .gone) ht fun _ => rfl
        exact ⟨hmoved.past, hmoved.old, hmoved.cancelled⟩
  | die i =>
    simp only [connectStep]
    split
    · split
      · exact h.move ‹_› fun _ => rfl
      · exact h
    · exact h
  | call b =>
    simp only [connectStep]
    split
    · exact ⟨h.past, h.old, h.cancelled⟩
    · exact h
  | disconnect =>
    have hpast := h.past
    cases hl : w.leaving <;> rw [hl] at hpast <;> simp only [connectStep, advanceDisconnect, hl]
    case outside | testing | cancelling => cases hpast
    case joining =>
      split
      · exact ⟨rfl, h.old, h.cancelled⟩
      · exact h
    case done => exact h
    all_goals exact ⟨rfl, h.old, h.cancelled⟩

/-- When `syncs_disconnect` is past its cancel, no callback thread of before goes on unasked. -/
theorem Alone.settles (h : w.Alone) (hbefore : past w.leaving = false)
    (hafter : past w.advanceDisconnect.1.leaving = true) : Settled w.callbacks.length w.advanceDisconnect.1 := by
  cases hl : w.leaving <;> rw [hl] at hbefore <;> simp only [ConnectThreads.advanceDisconnect, hl] at hafter ⊢
  case outside => cases hafter
  case testing =>
    by_cases hs : w.cbStatus = true
    · rw [if_pos hs] at hafter
      cases hafter
    · refine ⟨hafter, Nat.le_refl _, ?_⟩
      intro i t _ hget hne
      exact absurd (h.marked i ⟨t, hget, hne⟩).1 hs
  case cancelling =>
    refine ⟨rfl, by simp, ?_⟩
    intro i t hi hget hne
    have hlast := h.last i (runs_cancel (f := fun t => { t with cancelled := true }) (fun _ => rfl) ⟨t, hget, hne⟩)
    have hk : w.callbacks.length - 1 = i := by omega
    rw [List.getElem?_modify] at hget
    cases ht : w.callbacks[i]? with
    | none =>
      rw [ht] at hget
      cases hget
    | some u =>
      rw [ht] at hget
      obtain rfl := Option.some.inj hget
      simp only [if_pos hk]
  all_goals cases hbefore

theorem Settled.run {n : Nat} (h : Settled n w) (as : List ConnectStep) : Settled n (Lib.run connectStep w as).1 :=
  run_inductive (fun _ a h => h.step a) as w h

end ConnectThreads

theorem connectStart_alone (transport : Transport) (hasCb : Bool) (cid : List UInt8)
    (server : Option (List UInt8 × Int32)) : (connectStart transport hasCb cid server).Alone := by
  have hnone : ∀ i, ¬ (connectStart transport hasCb cid server).runs i := by
    rintro i ⟨t, hget, _⟩
    cases hget
  exact .of_nobody hnone fun hc => by cases hc

/-- **One callback at a time.** `connect_cb_status` is set while a callback thread runs, and so there are never two;
and of those that run when `syncs_disconnect` is past its `pthread_cancel`, only one that was started behind it is not
cancelled. -/
theorem callbacks_alone (transport : Transport) (hasCb : Bool) (cid : List UInt8)
    (server : Option (List UInt8 × Int32)) (as : List ConnectStep) (w : ConnectThreads)
    (hw : (run connectStep (connectStart transport hasCb cid server) as).1 = w) :
    (∀ i j, w.runs i → w.runs j → i = j) ∧ (∀ i, w.runs i → w.cbStatus = true) ∧
      (ConnectThreads.past w.leaving = false → ConnectThreads.past (connectStep w .disconnect).1.leaving = true →
        ∀ (later : List ConnectStep) (i : Nat) (t : CbThread), i < w.callbacks.length →
          (run connectStep w (.disconnect :: later)).1.callbacks[i]? = some t → t.point ≠ .gone →
            t.cancelled = true) := by
  have halone : w.Alone := by
    rw [← hw]
    exact run_inductive (fun _ a h => h.step a) as _ (connectStart_alone transport hasCb cid server)
  refine ⟨?_, fun i hi => (halone.marked i hi).1, ?_⟩
  · intro i j hi hj
    have hlast := (halone.last i hi).trans (halone.last j hj).symm
    omega
  · intro hbefore hafter later i t hi hget hne
    exact ((halone.settles hbefore hafter).run later).cancelled i t hi hget hne

/-- A connection up to its callback, and then `syncs_disconnect`. -/
def calledBack : List ConnectStep :=
  List.replicate 7 (.thread ⟨[], [], 3, true, .calm, ⟨fun _ => .calm, [], .again⟩⟩) ++ [.disconnect, .disconnect]

def calledBackThreads : ConnectThreads :=
  (run connectStep (connectStart .tcp true [97] (some ([49], 5))) calledBack).1

theorem calledBack_alone :
    calledBackThreads.callbacks = [⟨.entering, false⟩] ∧
      ∀ (later : List ConnectStep) (t : CbThread),
        (run connectStep calledBackThreads (.disconnect :: later)).1.callbacks[0]? = some t → t.point ≠ .gone →
          t.cancelled = true :=
  ⟨by decide +kernel, fun later t =>
    (callbacks_alone .tcp true [97] (some ([49], 5)) calledBack calledBackThreads rfl).2.2 (by decide +kernel)
      (by decide +kernel) later 0 t (by decide +kernel)⟩

namespace ConnectThreads

variable {w w' : ConnectThreads}

/-! ## The end -/

/-- How many steps the thread is from its end, once `onexit` is set and the server found. -/
def stepsLeft : ConnectPoint → Nat
  | .finished => 0
  | .testing => 1
  | .finding | .clearing => 2
  | .closing => 3
  | .unreadying => 4
  | .looping => 5
  | .reading | .readying => 6
  | .notifying => 7
  | .creating => 8
  | .marking => 9
  | .deciding => 10
  | .announcing => 11
  | .opening => 12

/-- What it still does of a kind. -/
def left : ConnectObs.Kind → ConnectPoint → Nat
  | .opened, .opening => 1
  | .created, .opening | .created, .announcing | .created, .deciding | .created, .marking | .created, .creating => 1
  | .took, .reading => 1
  | _, _ => 0

/-- Where a step leads to when `onexit` is set, and what is seen of it. -/
def exits : ConnectPoint → List (ConnectPoint × List ConnectObs.Kind)
  | .finding => [(.finding, []), (.testing, [])]
  | .testing => [(.finished, [.other])]
  | .opening => [(.testing, []), (.announcing, [.opened])]
  | .announcing => [(.deciding, [.other]), (.notifying, [.other])]
  | .deciding => [(.marking, []), (.notifying, [])]
  | .marking => [(.creating, [])]
  | .creating => [(.notifying, [.created]), (.notifying, [])]
  | .notifying => [(.readying, [.other])]
  | .readying => [(.looping, [.other])]
  | .looping => [(.unreadying, [])]
  | .reading => [(.unreadying, [.took]), (.looping, [.took])]
  | .unreadying => [(.closing, [.other])]
  | .closing => [(.clearing, [.other])]
  | .clearing => [(.testing, [])]
  | .finished => [(.finished, [])]

theorem advance_exits (w : ConnectThreads) (f : Fate) (hexit : w.connect.onexit = true) :
    ((w.advance f).1.point, (w.advance f).2.map ConnectObs.kind) ∈ exits w.point := by
  cases hp : w.point <;> simp only [ConnectThreads.advance, hp]
  case finding =>
    split
    · split
      · exact .tail _ (.head _)
      · simp only [hp]
        exact .head _
    · exact .tail _ (.head _)
  case testing =>
    rw [if_pos hexit]
    exact .head _
  case opening =>
    split
    · exact .head _
    · exact .tail _ (.head _)
  case announcing =>
    have hbehind : ∀ t, (behindAnnounce t, [ConnectObs.Kind.other]) ∈ exits .announcing := by
      intro t
      cases t
      · exact .head _
      · exact .tail _ (.head _)
    exact hbehind w.transport
  case deciding =>
    split
    · exact .head _
    · exact .tail _ (.head _)
  case creating =>
    split
    · exact .head _
    · exact .tail _ (.head _)
  case looping =>
    rw [if_pos hexit]
    exact .head _
  case reading =>
    split
    · exact .head _
    · exact .tail _ (.head _)
  all_goals exact .head _

theorem exits_left {p : ConnectPoint} {x : ConnectPoint × List ConnectObs.Kind} (hx : x ∈ exits p) {k : ConnectObs.Kind}
    (hk : k ≠ .other) : left k x.1 + x.2.count k ≤ left k p := by
  revert x
  cases k with
  | other => exact absurd rfl hk
  | opened | created | took => cases p <;> decide

theorem exits_stepsLeft {p : ConnectPoint} {x : ConnectPoint × List ConnectObs.Kind} (hx : x ∈ exits p)
    (hp : p ≠ .finding) : stepsLeft x.1 ≤ stepsLeft p - 1 ∧ x.1 ≠ .finding := by
  revert x
  cases p with
  | finding => exact absurd rfl hp
  | _ => decide

theorem count_kind (os : List ConnectObs) (k : ConnectObs.Kind) :
    os.countP (fun o => o.kind == k) = (os.map ConnectObs.kind).count k := by
  rw [List.count, List.countP_map]
  rfl

theorem connectStep_onexit (w : ConnectThreads) (a : ConnectStep) (hexit : w.connect.onexit = true) :
    (connectStep w a).1.connect.onexit = true := by
  rcases thread_or_beside w a with ⟨f, rfl⟩ | ⟨_, hbeside⟩
  · exact (advance_continues w f).onexit hexit
  · exact hbeside.link.onexit hexit

theorem connectStep_left (w : ConnectThreads) (a : ConnectStep) (hexit : w.connect.onexit = true)
    {k : ConnectObs.Kind} (hk : k ≠ .other) :
    left k (connectStep w a).1.point + (connectStep w a).2.countP (fun o => o.kind == k) ≤ left k w.point := by
  rcases thread_or_beside w a with ⟨f, rfl⟩ | ⟨_, hbeside⟩
  · rw [count_kind]
    exact exits_left (advance_exits w f hexit) hk
  · have hnone : (connectStep w a).2.countP (fun o => o.kind == k) = 0 := by
      rw [List.countP_eq_zero]
      intro o ho hkind
      have hapart := hbeside.apart o ho
      rw [beq_iff_eq] at hkind
      cases o <;> cases hapart <;> exact hk hkind.symm
    rw [hbeside.point, hnone]
    exact Nat.le_refl _

/-- The thread does not look for a server, or it knows one. -/
def Knows (w : ConnectThreads) : Prop := w.point = .finding → w.unknownServer = false

theorem beside_unknownServer {x : ConnectThreads × List ConnectObs} (h : Beside w x) :
    x.1.unknownServer = w.unknownServer := by
  rw [ConnectThreads.unknownServer, h.link.addr, h.port]
  rfl

theorem connectStep_stepsLeft (w : ConnectThreads) (a : ConnectStep) (hexit : w.connect.onexit = true)
    (hk : w.Knows) :
    stepsLeft (connectStep w a).1.point ≤ (stepsLeft w.point - if a.isThread then 1 else 0) ∧
      (connectStep w a).1.Knows := by
  rcases thread_or_beside w a with ⟨f, rfl⟩ | ⟨hnot, hbeside⟩
  · by_cases hp : w.point = .finding
    · have hknown : w.advance f = (w.goto .testing, []) := by
        simp only [ConnectThreads.advance, hp, hk hp, Bool.false_eq_true, if_false]
      rw [connectStep, hknown, hp]
      exact ⟨Nat.le_refl _, fun h => by cases h⟩
    · obtain ⟨hleft, hnot⟩ := exits_stepsLeft (advance_exits w f hexit) hp
      exact ⟨hleft, fun h => absurd h hnot⟩
  · refine ⟨by rw [hbeside.point, hnot]; exact Nat.le_refl _, fun h => ?_⟩
    rw [beside_unknownServer hbeside]
    exact hk (hbeside.point.symm.trans h)

/-- **With a server the thread ends** within twelve steps. -/
theorem Knows.ends (hk : w.Knows) (hexit : w.connect.onexit = true) {as : List ConnectStep}
    (hmany : 12 ≤ as.countP ConnectStep.isThread) : (run connectStep w as).1.point = .finished := by
  have hlowers := run_lowers (f := fun w => stepsLeft w.point) (q := ConnectStep.isThread)
    (fun w a (h : w.connect.onexit = true ∧ w.Knows) =>
      ⟨connectStep_onexit w a h.1, (connectStep_stepsLeft w a h.1 h.2).2⟩)
    (fun w a h => (connectStep_stepsLeft w a h.1 h.2).1) as w ⟨hexit, hk⟩
  have hmost : ∀ p, stepsLeft p ≤ 12 := by
    intro p
    cases p <;> decide
  have hzero : ∀ p, stepsLeft p = 0 → p = .finished := by
    intro p
    cases p <;> decide
  have hw := hmost w.point
  exact hzero _ (by omega)

/-- The step that finds the server is the last one that looks for it. -/
theorem knows_found (w : ConnectThreads) {f : Fate} (hexit : w.connect.onexit = true)
    (hfound : findServer f.stack f.responses ≠ none) : (connectStep w (.thread f)).1.Knows := by
  intro hp
  by_cases hw : w.point = .finding
  · cases hf : findServer f.stack f.responses with
    | none => exact absurd hf hfound
    | some r =>
      simp only [connectStep, ConnectThreads.advance, hw, hf] at hp
      split at hp <;> cases hp
  · exact absurd hp (exits_stepsLeft (advance_exits w f hexit) hw).2

/-- **Without a server the thread does not end.** -/
theorem keeps_finding (w : ConnectThreads) (a : ConnectStep) (h : w.point = .finding ∧ w.unknownServer = true)
    (ha : a.fails) : (connectStep w a).1.point = .finding ∧ (connectStep w a).1.unknownServer = true := by
  rcases thread_or_beside w a with ⟨f, rfl⟩ | ⟨_, hbeside⟩
  · have hfails : findServer f.stack f.responses = none := ha
    have hstays : w.advance f = (w, []) := by
      simp only [ConnectThreads.advance, h.1, if_pos h.2, hfails]
    rw [connectStep, hstays]
    exact h
  · rw [hbeside.point, beside_unknownServer hbeside]
    exact h

/-- `syncs_disconnect` is past its `pthread_join`. -/
def joined : DisconnectPoint → Bool
  | .freeing | .done => true
  | _ => false

/-- `syncs_disconnect` is no further than its `pthread_join`; once there, it stays. -/
structure Waits (before after : DisconnectPoint) : Prop where
  unjoined : joined after = false
  stays : before = .joining → after = .joining

theorem advanceDisconnect_waits (hp : w.point ≠ .finished) (hj : joined w.leaving = false) :
    Waits w.leaving w.advanceDisconnect.1.leaving := by
  cases hl : w.leaving <;> rw [hl] at hj <;> simp only [ConnectThreads.advanceDisconnect, hl]
  case testing => split <;> exact ⟨rfl, fun h => by cases h⟩
  case joining =>
    rw [if_neg hp, hl]
    exact ⟨rfl, id⟩
  case freeing | done => cases hj
  all_goals exact ⟨rfl, fun h => by cases h⟩

theorem advanceCallback_leaving (w : ConnectThreads) (i : Nat) : (w.advanceCallback i).leaving = w.leaving := by
  unfold ConnectThreads.advanceCallback
  split
  · rfl
  · split <;> rfl

/-- **`syncs_disconnect` waits for the thread.** -/
theorem connectStep_waits (a : ConnectStep) (hp : w.point ≠ .finished) (hj : joined w.leaving = false) :
    Waits w.leaving (connectStep w a).1.leaving := by
  have hsame : ∀ {x : ConnectThreads}, x.leaving = w.leaving → Waits w.leaving x.leaving :=
    fun h => ⟨by rw [h, hj], fun hl => h.trans hl⟩
  cases a with
  | thread f => exact hsame (advance_continues w f).leaving
  | callback i => exact hsame (advanceCallback_leaving w i)
  | die i =>
    refine hsame ?_
    simp only [connectStep]
    split
    · split <;> rfl
    · rfl
  | call b =>
    refine hsame ?_
    simp only [connectStep]
    split <;> rfl
  | disconnect => exact advanceDisconnect_waits hp hj

theorem connectStep_finished (a : ConnectStep) (hp : w.point = .finished) : (connectStep w a).1.point = .finished := by
  rcases thread_or_beside w a with ⟨f, rfl⟩ | ⟨_, hbeside⟩
  · simp only [connectStep, ConnectThreads.advance, hp]
  · rw [hbeside.point, hp]

theorem run_waits (w : ConnectThreads) (as : List ConnectStep) (hj : joined w.leaving = false)
    (hp : (run connectStep w as).1.point ≠ .finished) : Waits w.leaving (run connectStep w as).1.leaving := by
  have hstep : ∀ v a, v.point = .finished ∨ Waits w.leaving v.leaving →
      (connectStep v a).1.point = .finished ∨ Waits w.leaving (connectStep v a).1.leaving := by
    intro v a hv
    by_cases hfinished : v.point = .finished
    · exact .inl (connectStep_finished a hfinished)
    · have hwaits := hv.resolve_left hfinished
      have hnext := connectStep_waits a hfinished hwaits.unjoined
      exact .inr ⟨hnext.unjoined, fun hl => hnext.stays (hwaits.stays hl)⟩
  exact (run_inductive hstep as w (.inr ⟨hj, id⟩)).resolve_left hp

end ConnectThreads

/-- **Leaving.** Once `onexit` is set the thread does no more than what it stands before: it takes the read, opens the
connection or starts the callback that is next. With a server it ends within twelve steps, counted from the one that
finds it; while it looks for the server and finds none it does not end. And `syncs_disconnect` does not get past its
join before the thread has ended. -/
theorem leaving_ends (w : ConnectThreads) (hexit : w.connect.onexit = true) (as : List ConnectStep) :
    (∀ k : ConnectObs.Kind, k ≠ .other →
      (run connectStep w as).2.countP (fun o => o.kind == k) ≤ ConnectThreads.left k w.point) ∧
    (w.Knows → 12 ≤ as.countP ConnectStep.isThread → (run connectStep w as).1.point = .finished) ∧
    (∀ before f later, as = before ++ .thread f :: later → findServer f.stack f.responses ≠ none →
      12 ≤ later.countP ConnectStep.isThread → (run connectStep w as).1.point = .finished) ∧
    (w.point = .finding → w.unknownServer = true → Along connectStep (fun _ a => a.fails) w as →
      (run connectStep w as).1.point = .finding) ∧
    (ConnectThreads.joined w.leaving = false → (run connectStep w as).1.point ≠ .finished →
      ConnectThreads.Waits w.leaving (run connectStep w as).1.leaving) := by
  refine ⟨?_, fun hk hmany => hk.ends hexit hmany, ?_, ?_, w.run_waits as⟩
  · intro k hk
    have hspends := run_spends (f := fun w => ConnectThreads.left k w.point) (P := fun _ _ => True)
      (fun w a (h : w.connect.onexit = true) _ => ConnectThreads.connectStep_onexit w a h)
      (fun w a h _ => ConnectThreads.connectStep_left w a h hk) as w hexit (along_of_forall (fun _ _ => trivial) w as)
    exact Nat.le_trans (Nat.le_add_left _ _) hspends
  · rintro before f later rfl hfound hmany
    have hbefore := run_inductive (fun w a (h : w.connect.onexit = true) => ConnectThreads.connectStep_onexit w a h)
      before w hexit
    have hknows := ConnectThreads.knows_found _ hbefore hfound
    rw [run_append]
    exact hknows.ends (ConnectThreads.connectStep_onexit _ _ hbefore) hmany
  · intro hp hunknown hfails
    exact (run_invariant (fun w a h ha => ConnectThreads.keeps_finding w a h ha) as w ⟨hp, hunknown⟩ hfails).1

/-- The application leaves when the thread is about to open a socket. -/
def leaver : ConnectThreads :=
  (run connectStep (connectStart .tcp true [97] (some ([49], 5)))
    (List.replicate 2 (.thread ⟨[], [], 3, true, .calm, ⟨fun _ => .calm, [], .again⟩⟩) ++ [.disconnect])).1

theorem leaver_ends :
    (run connectStep leaver
      (List.replicate 12 (.thread ⟨[], [], 3, true, .calm, ⟨fun _ => .calm, [], .again⟩⟩))).1.point = .finished :=
  (leaving_ends leaver (by decide +kernel) _).2.1 (fun h => absurd h (by decide +kernel)) (by decide +kernel)

/-! ## Descriptors -/

/-- The system gives a descriptor that is not in use, below the limit of the process. -/
def ConnectStep.fits (limit : Int) (w : ConnectThreads) : ConnectStep → Prop
  | .thread f => w.point = .opening → 0 ≤ f.opened → f.opened ∉ w.descriptors ∧ f.opened < limit
  | _ => True

instance instDecidableConnectFits (limit : Int) (w : ConnectThreads) (a : ConnectStep) : Decidable (a.fits limit w) :=
  match a with
  | .thread f =>
    inferInstanceAs (Decidable (w.point = .opening → 0 ≤ f.opened → f.opened ∉ w.descriptors ∧ f.opened < limit))
  | .callback _ | .die _ | .call _ | .disconnect => isTrue trivial

namespace ConnectThreads

variable {w w' : ConnectThreads}

/-- What a step of the thread does to the descriptors. -/
inductive Spends (w : ConnectThreads) (f : Fate) : Prop
  | keeps (hleft : (w.advance f).1.descriptors = w.descriptors)
      (hnone : (w.advance f).2.countP (fun o => o.kind == .opened) = 0)
  | opens (hopening : w.point = .opening) (hfd : 0 ≤ f.opened)
      (hmore : (w.advance f).1.descriptors = f.opened :: w.descriptors)
      (hone : (w.advance f).2.countP (fun o => o.kind == .opened) = 1)
  | closes (hclosing : w.point = .closing) (hleft : (w.advance f).1.descriptors = w.descriptorsLeft)
      (hnone : (w.advance f).2.countP (fun o => o.kind == .opened) = 0)

theorem advance_spends (w : ConnectThreads) (f : Fate) : Spends w f := by
  cases hp : w.point
  case opening =>
    by_cases hfd : f.opened < 0
    · refine .keeps ?_ ?_ <;> simp only [ConnectThreads.advance, hp, if_pos hfd] <;> rfl
    · refine .opens hp (by omega) ?_ ?_ <;> simp only [ConnectThreads.advance, hp, if_neg hfd] <;> rfl
  case closing =>
    refine .closes hp ?_ ?_ <;> simp only [ConnectThreads.advance, hp]
    rfl
  case finding =>
    refine .keeps ?_ ?_ <;> simp only [ConnectThreads.advance, hp] <;> split
    · split <;> rfl
    · rfl
    · split <;> rfl
    · rfl
  case testing | creating => refine .keeps ?_ ?_ <;> simp only [ConnectThreads.advance, hp] <;> split <;> rfl
  all_goals refine .keeps ?_ ?_ <;> simp only [ConnectThreads.advance, hp] <;> rfl

/-- A TCP thread holds what it has opened, each descriptor once. -/
structure Spent (limit : Int) (w : ConnectThreads) : Prop where
  tcp : w.transport = .tcp
  nodup : w.descriptors.Nodup
  range : ∀ fd ∈ w.descriptors, 0 ≤ fd ∧ fd < limit

theorem Spent.length_le {limit : Int} (h : Spent limit w) : w.descriptors.length ≤ limit.toNat := by
  have hsub : w.descriptors.toFinset ⊆ Finset.Ico 0 limit := by
    intro fd hfd
    exact Finset.mem_Ico.mpr (h.range fd (List.mem_toFinset.mp hfd))
  have hcard := Finset.card_le_card hsub
  rwa [List.toFinset_card_of_nodup h.nodup, Int.card_Ico, sub_zero] at hcard

theorem descriptorsLeft_tcp (h : w.transport = .tcp) : w.descriptorsLeft = w.descriptors := by
  rw [descriptorsLeft, h]

/-- The descriptors of a TCP thread after a step, and what is opened in it. -/
theorem tcp_step (h : w.transport = .tcp) (a : ConnectStep) :
    (connectStep w a).1.transport = .tcp ∧
      (connectStep w a).1.descriptors.length =
        w.descriptors.length + (connectStep w a).2.countP (fun o => o.kind == .opened) := by
  rcases thread_or_beside w a with ⟨f, rfl⟩ | ⟨_, hbeside⟩
  · refine ⟨(advance_continues w f).transport.trans h, ?_⟩
    rw [connectStep]
    rcases advance_spends w f with ⟨hleft, hnone⟩ | ⟨_, _, hmore, hone⟩ | ⟨_, hleft, hnone⟩
    · rw [hleft, hnone, Nat.add_zero]
    · rw [hmore, hone, List.length_cons]
    · rw [hleft, hnone, descriptorsLeft_tcp h, Nat.add_zero]
  · have hnone : (connectStep w a).2.countP (fun o => o.kind == .opened) = 0 := by
      rw [List.countP_eq_zero]
      intro o ho hkind
      have hapart := hbeside.apart o ho
      cases o <;> cases hapart <;> cases hkind
    exact ⟨hbeside.transport.trans h, by rw [hbeside.descriptors, hnone, Nat.add_zero]⟩

theorem tcp_run (h : w.transport = .tcp) (as : List ConnectStep) :
    (run connectStep w as).1.descriptors.length =
      w.descriptors.length + (run connectStep w as).2.countP (fun o => o.kind == .opened) := by
  induction as generalizing w with
  | nil => simp [run]
  | cons a as ih =>
    obtain ⟨htcp, hlength⟩ := tcp_step h a
    rw [run, List.countP_append, ih htcp, hlength, Nat.add_assoc]

theorem Spent.step {limit : Int} (h : Spent limit w) {a : ConnectStep} (ha : a.fits limit w) :
    Spent limit (connectStep w a).1 := by
  rcases thread_or_beside w a with ⟨f, rfl⟩ | ⟨_, hbeside⟩
  · have htcp := (tcp_step h.tcp (.thread f)).1
    rw [connectStep] at htcp ⊢
    rcases advance_spends w f with ⟨hleft, _⟩ | ⟨hopening, hfd, hmore, _⟩ | ⟨_, hleft, _⟩
    · exact ⟨htcp, by rw [hleft]; exact h.nodup, by rw [hleft]; exact h.range⟩
    · obtain ⟨hnew, hlimit⟩ := ha hopening hfd
      refine ⟨htcp, by rw [hmore]; exact List.nodup_cons.mpr ⟨hnew, h.nodup⟩, ?_⟩
      rw [hmore]
      intro fd hmem
      rcases List.mem_cons.mp hmem with rfl | hmem
      · exact ⟨hfd, hlimit⟩
      · exact h.range fd hmem
    · rw [descriptorsLeft_tcp h.tcp] at hleft
      exact ⟨htcp, by rw [hleft]; exact h.nodup, by rw [hleft]; exact h.range⟩
  · exact ⟨hbeside.transport.trans h.tcp, by rw [hbeside.descriptors]; exact h.nodup,
      by rw [hbeside.descriptors]; exact h.range⟩

/-- The points between the opening and the `close`. -/
def isOpen : ConnectPoint → Bool
  | .finding | .testing | .opening | .clearing | .finished => false
  | _ => true

/-- A UDP thread holds its socket and nothing else. -/
structure Frugal (w : ConnectThreads) : Prop where
  udp : w.transport = .udp
  holds : w.descriptors = if isOpen w.point then [w.socket] else []

theorem Frugal.keep (h : w.Frugal) (ht : w'.transport = w.transport) (hd : w'.descriptors = w.descriptors)
    (hs : w'.socket = w.socket) (hp : isOpen w'.point = isOpen w.point) : w'.Frugal :=
  ⟨ht.trans h.udp, by rw [hd, hs, hp, h.holds]⟩

theorem Frugal.advance (h : w.Frugal) (f : Fate) : (w.advance f).1.Frugal := by
  have hholds := h.holds
  cases hp : w.point <;> rw [hp] at hholds <;> simp only [ConnectThreads.advance, hp]
  case finding =>
    split
    · split
      · exact h.keep rfl rfl rfl (by rw [hp]; rfl)
      · exact h
    · exact h.keep rfl rfl rfl (by rw [hp]; rfl)
  case testing | deciding | creating | looping => split <;> exact h.keep rfl rfl rfl (by rw [hp]; rfl)
  case opening =>
    have hs : (w.connect.setSocket f.opened w.transport).socket w.transport = f.opened := setSocket_socket _ _ _
    split
    · exact ⟨h.udp, hholds⟩
    · exact ⟨h.udp, congrArg₂ List.cons hs.symm hholds⟩
  case announcing =>
    have hbehind : ∀ t, isOpen (behindAnnounce t) = true := by
      intro t
      cases t <;> rfl
    exact h.keep rfl rfl rfl (by rw [hp]; exact hbehind _)
  case reading =>
    have hs := round_socket w f.read
    split <;> exact h.keep rfl rfl hs (by rw [hp]; rfl)
  case closing =>
    have hsocket : w.descriptors = [w.socket] := hholds
    have hleft : w.descriptorsLeft = [] := by
      rw [descriptorsLeft, h.udp, hsocket]
      exact List.erase_cons_head _ _
    exact ⟨h.udp, hleft⟩
  case clearing => exact ⟨h.udp, hholds⟩
  case finished => exact h
  all_goals exact h.keep rfl rfl rfl (by rw [hp]; rfl)

theorem Frugal.step (h : w.Frugal) (a : ConnectStep) : (connectStep w a).1.Frugal := by
  rcases thread_or_beside w a with ⟨f, rfl⟩ | ⟨_, hbeside⟩
  · exact h.advance f
  · exact h.keep hbeside.transport hbeside.descriptors hbeside.socket (by rw [hbeside.point])

end ConnectThreads

/-- **Descriptors run out.** A TCP client never gives a descriptor back, so it connects at most as often as its process
may have descriptors, in its whole life; a UDP client has one at a time. -/
theorem descriptors_run_out (hasCb : Bool) (cid : List UInt8) (server : Option (List UInt8 × Int32)) (limit : Int)
    (as : List ConnectStep) :
    (Along connectStep (fun w a => a.fits limit w) (connectStart .tcp hasCb cid server) as →
      (run connectStep (connectStart .tcp hasCb cid server) as).1.descriptors.length =
          (run connectStep (connectStart .tcp hasCb cid server) as).2.countP (fun o => o.kind == .opened) ∧
        (run connectStep (connectStart .tcp hasCb cid server) as).2.countP (fun o => o.kind == .opened) ≤
          limit.toNat) ∧
      (run connectStep (connectStart .udp hasCb cid server) as).1.descriptors.length ≤ 1 := by
  refine ⟨?_, ?_⟩
  · intro hfits
    have hlength := ConnectThreads.tcp_run (w := connectStart .tcp hasCb cid server) rfl as
    have hstart : ConnectThreads.Spent limit (connectStart .tcp hasCb cid server) :=
      ⟨rfl, List.nodup_nil, fun _ h => absurd h List.not_mem_nil⟩
    have hspent := run_invariant (fun w a (h : ConnectThreads.Spent limit w) (ha : a.fits limit w) => h.step ha) as _
      hstart hfits
    have hcount := hlength.trans (Nat.zero_add _)
    exact ⟨hcount, Nat.le_trans (Nat.le_of_eq hcount.symm) hspent.length_le⟩
  · have hfrugal := run_inductive (fun w a (h : ConnectThreads.Frugal w) => h.step a) as
      (connectStart .udp hasCb cid server) ⟨rfl, rfl⟩
    rw [hfrugal.holds]
    split <;> simp

/-- Three times the same connection of the thread. -/
def reconnects : List ConnectStep :=
  ([3, 4, 5].map fun fd =>
    List.replicate 9 (ConnectStep.thread ⟨[], [], fd, true, .calm, ⟨fun _ => .calm, [], .again⟩⟩) ++
      List.replicate 5 (.thread ⟨[], [], fd, true, .calm, ⟨fun _ => .calm, [], .error⟩⟩)).flatten

theorem reconnects_run_out :
    (run connectStep (connectStart .tcp false [97] (some ([49], 5))) reconnects).2.countP
      (fun o => o.kind == .opened) ≤ 1024 :=
  ((descriptors_run_out false [97] (some ([49], 5)) 1024 reconnects).1 (by decide +kernel)).2

example : (run connectStep (connectStart .tcp false [97] (some ([49], 5))) reconnects).1.descriptors = [5, 4, 3] := by
  decide +kernel

end SyncScribe
