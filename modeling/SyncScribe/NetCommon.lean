import SyncScribe.Types

/-!
`syncs_blocking_send` (`syncs-net-common.c`): the loop around `send` by which both
sides put packets on a TCP stream.

A call of `send` accepts a non-empty prefix of what it is offered, or fails and
accepts nothing. The behaviour of the calls that one `syncs_blocking_send` makes
is a function from their number: `none` for a failure, `some k` for `k + 1` bytes
or all there are.
-/

namespace SyncScribe

/-- How `send` answers, call by call. -/
abbrev SendBehaviour := Nat → Option Nat

/-- The bytes of the offered ones that are accepted after `some k`. -/
def acceptedBytes (k : Nat) (offered : List UInt8) : List UInt8 := offered.take (k + 1)

/-- The `while` loop of `syncs_blocking_send`, from its call `n` of `send` on, with the bytes of the
stream so far. Every round consumes a byte at least, which bounds the rounds. -/
def blockingSendLoop (behaviour : SendBehaviour) : Nat → Nat → List UInt8 → List UInt8 → Int × List UInt8
  | 0, _, _, stream => (0, stream)
  | rounds + 1, n, buffer, stream =>
    if buffer.length > 0 then
      match behaviour n with
      | none => (-1, stream)
      | some k =>
        let ssent := acceptedBytes k buffer
        blockingSendLoop behaviour rounds (n + 1) (buffer.drop ssent.length) (stream ++ ssent)
    else (0, stream)

/-- `syncs_blocking_send`: its return value, and the stream after it. -/
def blockingSend (behaviour : SendBehaviour) (buffer stream : List UInt8) : Int × List UInt8 :=
  blockingSendLoop behaviour buffer.length 0 buffer stream

/-- Calls one after the other, each with the behaviour of `send` during it: what they return and the
stream after them. -/
def blockingSends : List (SendBehaviour × List UInt8) → List UInt8 → List Int × List UInt8
  | [], stream => ([], stream)
  | (behaviour, buffer) :: calls, stream =>
    let r := blockingSend behaviour buffer stream
    let rs := blockingSends calls r.2
    (r.1 :: rs.1, rs.2)

/-! ## One call -/

/-- The number of bytes the first `n` calls of `send` would accept. -/
def acceptedBefore (behaviour : SendBehaviour) : Nat → Nat
  | 0 => 0
  | n + 1 => acceptedBefore behaviour n + ((behaviour n).map (· + 1)).getD 0

/-- `send` fails at call `n` for the first time. -/
def FailsAt (behaviour : SendBehaviour) (n : Nat) : Prop :=
  behaviour n = none ∧ ∀ i < n, behaviour i ≠ none

/-- `send` fails after it has accepted a part of the `len` bytes, but not all of them. -/
def Torn (behaviour : SendBehaviour) (len : Nat) : Prop :=
  ∃ n, FailsAt behaviour n ∧ 0 < acceptedBefore behaviour n ∧ acceptedBefore behaviour n < len

/-- What a call leaves: the whole packet and 0, or the bytes accepted before the first failure and -1. -/
inductive SendOutcome (behaviour : SendBehaviour) (buffer stream : List UInt8) : Int × List UInt8 → Prop
  | whole : (∀ n, FailsAt behaviour n → buffer.length ≤ acceptedBefore behaviour n) →
      SendOutcome behaviour buffer stream (0, stream ++ buffer)
  | cut (n : Nat) : FailsAt behaviour n → acceptedBefore behaviour n < buffer.length →
      SendOutcome behaviour buffer stream (-1, stream ++ buffer.take (acceptedBefore behaviour n))

section Loop

variable {behaviour : SendBehaviour}

theorem acceptedBefore_succ {n k : Nat} (h : behaviour n = some k) :
    acceptedBefore behaviour (n + 1) = acceptedBefore behaviour n + (k + 1) := by
  simp [acceptedBefore, h]

theorem FailsAt.unique {m n : Nat} (hm : FailsAt behaviour m) (hn : FailsAt behaviour n) : m = n := by
  rcases Nat.lt_trichotomy m n with h | h | h
  · exact absurd hm.1 (hn.2 m h)
  · exact h
  · exact absurd hn.1 (hm.2 n h)

theorem acceptedBefore_mono {m n : Nat} (h : m ≤ n) : acceptedBefore behaviour m ≤ acceptedBefore behaviour n := by
  induction n with
  | zero =>
    obtain rfl : m = 0 := by omega
    exact Nat.le_refl _
  | succ n ih =>
    rcases Nat.lt_or_ge n m with hlt | hge
    · obtain rfl : m = n + 1 := by omega
      exact Nat.le_refl _
    · exact Nat.le_trans (ih hge) (Nat.le_add_right _ _)

/-- All bytes were accepted before a call failed. -/
theorem outcome_whole {buffer : List UInt8} (stream : List UInt8) {n : Nat} (hok : ∀ i < n, behaviour i ≠ none)
    (hle : buffer.length ≤ acceptedBefore behaviour n) :
    SendOutcome behaviour buffer stream (0, stream ++ buffer.take (acceptedBefore behaviour n)) := by
  rw [List.take_of_length_le hle]
  refine .whole ?_
  intro m hm
  have hnm : n ≤ m := by
    by_contra hlt
    exact hok m (by omega) hm.1
  exact Nat.le_trans hle (acceptedBefore_mono hnm)

/-- The loop after `n` calls that did not fail, on the bytes they left. -/
theorem blockingSendLoop_outcome (buffer stream : List UInt8) (rounds n : Nat) (hok : ∀ i < n, behaviour i ≠ none)
    (hrounds : buffer.length ≤ acceptedBefore behaviour n + rounds) :
    SendOutcome behaviour buffer stream
      (blockingSendLoop behaviour rounds n (buffer.drop (acceptedBefore behaviour n))
        (stream ++ buffer.take (acceptedBefore behaviour n))) := by
  induction rounds generalizing n with
  | zero => exact outcome_whole stream hok (by omega)
  | succ rounds ih =>
    unfold blockingSendLoop
    split
    · rename_i hmore
      rw [List.length_drop] at hmore
      cases hb : behaviour n with
      | none => exact .cut n ⟨hb, hok⟩ (by omega)
      | some k =>
        have hnext := acceptedBefore_succ hb
        have htake : stream ++ buffer.take (acceptedBefore behaviour n) ++
            acceptedBytes k (buffer.drop (acceptedBefore behaviour n)) =
            stream ++ buffer.take (acceptedBefore behaviour (n + 1)) := by
          rw [List.append_assoc, acceptedBytes, hnext, ← List.take_add]
        have hdrop : (buffer.drop (acceptedBefore behaviour n)).drop
            (acceptedBytes k (buffer.drop (acceptedBefore behaviour n))).length =
            buffer.drop (acceptedBefore behaviour (n + 1)) := by
          rw [List.drop_drop, acceptedBytes, List.length_take, List.length_drop, hnext]
          rcases Nat.le_total (k + 1) (buffer.length - acceptedBefore behaviour n) with hk | hk
          · rw [Nat.min_eq_left hk]
          · rw [Nat.min_eq_right hk, List.drop_of_length_le (by omega), List.drop_of_length_le (by omega)]
        have hok' : ∀ i < n + 1, behaviour i ≠ none := by
          intro i hi
          rcases Nat.lt_succ_iff_lt_or_eq.mp hi with hlt | rfl
          · exact hok i hlt
          · rw [hb]
            simp
        simp only [htake, hdrop]
        exact ih (n + 1) hok' (by omega)
    · rename_i hnone
      rw [List.length_drop] at hnone
      exact outcome_whole stream hok (by omega)

/-- **What one call leaves.** -/
theorem blockingSend_outcome (behaviour : SendBehaviour) (buffer stream : List UInt8) :
    SendOutcome behaviour buffer stream (blockingSend behaviour buffer stream) := by
  have h : SendOutcome behaviour buffer stream
      (blockingSendLoop behaviour buffer.length 0 (buffer.drop (acceptedBefore behaviour 0))
        (stream ++ buffer.take (acceptedBefore behaviour 0))) :=
    blockingSendLoop_outcome buffer stream buffer.length 0 (by simp) (by omega)
  simp only [acceptedBefore, List.drop_zero, List.take_zero, List.append_nil] at h
  exact h

end Loop

/-! ## Calls one after the other -/

/-- Where no call of `send` fails, the packets are on the stream one after the other. -/
theorem blockingSends_whole {calls : List (SendBehaviour × List UInt8)} (h : ∀ call ∈ calls, ∀ n, call.1 n ≠ none)
    (stream : List UInt8) : (blockingSends calls stream).2 = stream ++ (calls.map Prod.snd).flatten := by
  induction calls generalizing stream with
  | nil => simp [blockingSends]
  | cons call calls ih =>
    obtain ⟨behaviour, buffer⟩ := call
    have hrest := ih fun c hc => h c (by simp [hc])
    have hout := blockingSend_outcome behaviour buffer stream
    simp only [blockingSends, hrest]
    cases hr : blockingSend behaviour buffer stream with
    | mk r stream' =>
      rw [hr] at hout
      cases hout with
      | whole _ => simp
      | cut n hn _ => exact absurd hn.1 (h (behaviour, buffer) (by simp) n)

/-- The packets of the calls that returned 0. -/
def acknowledged : List (SendBehaviour × List UInt8) → List Int → List UInt8
  | (_, buffer) :: calls, r :: rs => if r = 0 then buffer ++ acknowledged calls rs else acknowledged calls rs
  | _, _ => []

/-- No byte of a packet that was sent is missing from the stream. -/
theorem length_blockingSends (calls : List (SendBehaviour × List UInt8)) (stream : List UInt8) :
    stream.length + (acknowledged calls (blockingSends calls stream).1).length ≤
      (blockingSends calls stream).2.length := by
  induction calls generalizing stream with
  | nil => simp [blockingSends, acknowledged]
  | cons call calls ih =>
    obtain ⟨behaviour, buffer⟩ := call
    have hrest := ih (blockingSend behaviour buffer stream).2
    simp only [blockingSends, acknowledged]
    cases hr : blockingSend behaviour buffer stream with
    | mk r stream' =>
      have hout := blockingSend_outcome behaviour buffer stream
      rw [hr] at hout hrest
      cases hout with
      | whole _ =>
        simp only [List.length_append, ↓reduceIte] at hrest ⊢
        omega
      | cut n _ _ =>
        simp only [List.length_append] at hrest ⊢
        rw [if_neg (by decide)]
        omega

/-- **A failed send leaves the stream intact** exactly when it fails before it has accepted anything: the
stream is the concatenation of the packets whose call returned 0 iff no call is torn. -/
theorem stream_intact_iff (calls : List (SendBehaviour × List UInt8)) (stream : List UInt8) :
    (blockingSends calls stream).2 = stream ++ acknowledged calls (blockingSends calls stream).1 ↔
      ∀ call ∈ calls, ¬ Torn call.1 call.2.length := by
  induction calls generalizing stream with
  | nil => simp [blockingSends, acknowledged]
  | cons call calls ih =>
    obtain ⟨behaviour, buffer⟩ := call
    have hrest := ih (blockingSend behaviour buffer stream).2
    have hlen := length_blockingSends calls (blockingSend behaviour buffer stream).2
    rw [List.forall_mem_cons]
    simp only [blockingSends, acknowledged]
    cases hr : blockingSend behaviour buffer stream with
    | mk r stream' =>
      have hout := blockingSend_outcome behaviour buffer stream
      rw [hr] at hout hrest hlen
      cases hout with
      | whole hall =>
        have hnot : ¬ Torn behaviour buffer.length := by
          rintro ⟨n, hn, _, hlt⟩
          have := hall n hn
          omega
        simp only [↓reduceIte, ← List.append_assoc, hrest, hnot, not_false_eq_true, true_and]
      | cut n hn hlt =>
        simp only [show ((-1 : Int) = 0) = False by decide, ↓reduceIte]
        rcases Nat.eq_zero_or_pos (acceptedBefore behaviour n) with hz | hpos
        · have hnot : ¬ Torn behaviour buffer.length := by
            rintro ⟨m, hm, hpos, _⟩
            rw [hm.unique hn] at hpos
            omega
          simp only [hz, List.take_zero, List.append_nil] at hrest ⊢
          simp only [hrest, hnot, not_false_eq_true, true_and]
        · have htorn : Torn behaviour buffer.length := ⟨n, hn, hpos, hlt⟩
          simp only [htorn, not_true_eq_false, false_and, iff_false]
          intro heq
          have := congrArg List.length heq
          simp only [List.length_append, List.length_take] at this hlen
          omega

/-- A write of no data is sent again after `send` took half of it and failed. -/
def retriedWrite : List (SendBehaviour × List UInt8) :=
  [(fun n => if n = 0 then some 29 else none, (Packet.make Msg.write.code Id.zero []).header.encode),
    (fun _ => some 59, (Packet.make Msg.write.code Id.zero []).header.encode)]

theorem retriedWrite_torn :
    ¬ ((blockingSends retriedWrite []).2 = [] ++ acknowledged retriedWrite (blockingSends retriedWrite []).1) := by
  decide +kernel

end SyncScribe
