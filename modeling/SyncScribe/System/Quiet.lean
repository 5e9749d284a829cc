import Mathlib.Algebra.Order.BigOperators.Group.Finset
import Mathlib.Data.Prod.Lex
import Mathlib.Order.OrderIsoNat
import SyncScribe.System.Order

/-!
The system comes to rest. A packet that the server or a client processes may make
others; but what the server sends makes no client send again, because it asks only
for the announcement of clients over UDP. So without calls there is no end to be
waited for: all that is on its way is delivered after some steps, in whatever order
(`deliveries_end`).
-/

namespace SyncScribe
open Lib Lib.Bytes

section Silent

variable {env : ClientEnv} {s : Connect} {p : Packet}

/-- A client sends nothing while it processes a packet, unless it is asked to announce itself. -/
theorem packet_silent (h : p.recalls = false) : tcpHanded (clientAct s (.packet env p)).2 = [] := by
  have hcalls : ∀ {xs : List ClientOut}, (∀ x ∈ xs, ∃ cb args id data, x = .call cb args id data) →
      tcpHanded (xs.map .out) = [] := by
    intro xs hxs
    rw [tcpHanded, List.filterMap_eq_nil_iff]
    intro x hx
    obtain ⟨y, hy, rfl⟩ := List.mem_map.mp hx
    obtain ⟨cb, args, id, data, rfl⟩ := hxs y hy
    rfl
  have hnone : ∀ x ∈ ([] : List ClientOut), ∃ cb args id data, x = .call cb args id data :=
    fun x hx => absurd hx List.not_mem_nil
  rw [clientAct, Connect.call?]
  cases hm : p.header.msg
  all_goals simp only [processPacket, hm]
  case event => exact hcalls fun x hx => processEvent_calls hx
  case serverStatus =>
    have hcode : p.header.updateCounter ≠ errorUnknownclient := by simpa [Packet.recalls, hm] using h
    rw [processError, if_neg hcode]
    split
    · exact hcalls hnone
    · split <;> exact hcalls hnone
  all_goals exact hcalls hnone

end Silent

section Deliveries

variable {κ : Type} [DecidableEq κ] {w w' : World κ}

/-- The server or a client has a packet to process. -/
def World.ready (w : World κ) : WorldStep κ → Bool
  | .serve k _ => (w.peers k).linked && !(w.peers k).toServer.isEmpty
  | .receive k _ _ => !(w.peers k).toClient.isEmpty
  | _ => false

/-- A packet is delivered. -/
def Moves (w w' : World κ) : Prop := ∃ a, w.ready a = true ∧ w' = (worldStep w a).1

/-- Nothing is on its way. -/
def World.quiet (w : World κ) : Prop :=
  ∀ k, ((w.peers k).linked = true → (w.peers k).toServer = []) ∧ (w.peers k).toClient = []

/-- What holds at every moment: nothing on its way to a client makes it announce itself. -/
structure World.Silent (w : World κ) : Prop where
  inv : w.Inv
  silent : ∀ k, ∀ p ∈ (w.peers k).toClient, p.recalls = false

theorem World.Silent.step (h : w.Silent) (a : WorldStep κ) (ha : w.allows a) : (worldStep w a).1.Silent := by
  refine ⟨h.inv.step a ha, ?_⟩
  intro k p hp
  have hpass := (step_news h.inv a ha k).1
  rcases List.mem_append.mp (hpass.subset (List.mem_append_right _ hp)) with hold | hnew
  · exact h.silent k p hold
  · rw [heard] at hnew
    split at hnew
    · rcases served_cases w a with hnone | ⟨b, hb⟩
      · rw [hnone] at hnew
        cases hnew
      · rw [hb] at hnew
        simp only [run, List.append_nil] at hnew
        exact act_silent h.inv.tableInv p (sentTo_linkAct_sublist.subset hnew)
    · cases hnew

omit [DecidableEq κ] in
theorem World.Silent.start (clients : κ → Connect) (cid : List UInt8) : (World.start clients cid).Silent :=
  ⟨.start clients cid, fun _ _ hp => absurd hp List.not_mem_nil⟩

omit [DecidableEq κ] in
/-- Where something is on its way, something can be delivered. -/
theorem ready_of_not_quiet (h : ¬ w.quiet) : ∃ a, w.ready a = true := by
  rw [World.quiet] at h
  push Not at h
  obtain ⟨k, hk⟩ := h
  by_cases hs : (w.peers k).linked = true → (w.peers k).toServer = []
  · refine ⟨.receive k .calm [], ?_⟩
    simp [World.ready, hk hs]
  · push Not at hs
    refine ⟨.serve k .calm, ?_⟩
    simp [World.ready, hs.1, hs.2]

omit [DecidableEq κ] in
/-- Deliveries are always allowed. -/
theorem allows_of_ready {a : WorldStep κ} (h : w.ready a = true) : w.allows a := by
  cases a with
  | serve | receive => trivial
  | call | announce | connect | drop | lose | other | restart => cases h

/-! ## What is on its way -/

variable [Fintype κ]

/-- The packets on their way to the server, and those on their way to the clients. -/
def World.backlog (w : World κ) : Nat ×ₗ Nat :=
  toLex (∑ k, (w.peers k).toServer.length, ∑ k, (w.peers k).toClient.length)

/-- **A delivery takes from what is on its way**: a packet served is one less for the server, whatever it sends for
it, and a packet received is one less for the clients. -/
theorem backlog_decreases (h : w.Silent) (hd : Moves w w') : w'.backlog < w.backlog := by
  obtain ⟨a, hready, rfl⟩ := hd
  rw [World.backlog, World.backlog, Prod.Lex.toLex_lt_toLex]
  cases a with
  | serve k env =>
    left
    obtain ⟨hl, hne⟩ := Bool.and_eq_true_iff.mp hready
    cases hq : (w.peers k).toServer with
    | nil =>
      rw [hq] at hne
      cases hne
    | cons p ps =>
      have hothers : ∀ j, ((worldStep w (.serve k env)).1.peers j).toServer =
          if j = k then ps else (w.peers j).toServer := by
        intro j
        simp only [worldStep, if_pos hl, hq, World.act, hear_toServer]
        by_cases hj : j = k
        · rw [hj, setPeer_same, if_pos rfl]
        · rw [setPeer_other hj, if_neg hj]
      apply Finset.sum_lt_sum
      · intro j _
        rw [hothers j]
        split
        · rename_i hj
          rw [hj, hq]
          exact Nat.le_succ _
        · exact Nat.le_refl _
      · refine ⟨k, Finset.mem_univ k, ?_⟩
        rw [hothers k, if_pos rfl, hq]
        exact Nat.lt_succ_self _
  | receive k env beyond =>
    right
    cases hq : (w.peers k).toClient with
    | nil => simp [World.ready, hq] at hready
    | cons p ps =>
      have hsilent : (p.arrive beyond).recalls = false := h.silent k p (by simp [hq])
      have hthis : ∀ j, ((worldStep w (.receive k env beyond)).1.peers j).toServer = (w.peers j).toServer ∧
          ((worldStep w (.receive k env beyond)).1.peers j).toClient = if j = k then ps else (w.peers j).toClient := by
        intro j
        simp only [worldStep, hq, World.clientActs]
        by_cases hj : j = k
        · rw [hj, setPeer_same, setPeer_same, if_pos rfl]
          refine ⟨?_, rfl⟩
          simp only [Peer.act, Peer.sends, packet_silent hsilent, List.map_nil, List.append_nil, ite_self]
        · rw [setPeer_other hj, setPeer_other hj, if_neg hj]
          exact ⟨rfl, rfl⟩
      refine ⟨Finset.sum_congr rfl fun j _ => by rw [(hthis j).1], ?_⟩
      apply Finset.sum_lt_sum
      · intro j _
        rw [(hthis j).2]
        split
        · rename_i hj
          rw [hj, hq]
          exact Nat.le_succ _
        · exact Nat.le_refl _
      · refine ⟨k, Finset.mem_univ k, ?_⟩
        rw [(hthis k).2, if_pos rfl, hq]
        exact Nat.lt_succ_self _
  | call | announce | connect | drop | lose | other | restart => cases hready

/-- Deliveries until there is nothing more to deliver. -/
theorem exists_drain (h : w.Silent) :
    ∃ as, Along worldStep (fun w a => w.ready a = true) w as ∧ (run worldStep w as).1.quiet := by
  induction hb : w.backlog using WellFoundedLT.induction generalizing w with
  | ind b ih =>
    by_cases hquiet : w.quiet
    · exact ⟨[], trivial, hquiet⟩
    · obtain ⟨a, ha⟩ := ready_of_not_quiet hquiet
      have hless := backlog_decreases h ⟨a, ha, rfl⟩
      obtain ⟨as, hready, hend⟩ := ih _ (hb ▸ hless) (h.step a (allows_of_ready ha)) rfl
      exact ⟨a :: as, ⟨ha, hready⟩, hend⟩

/-- **The system comes to rest.** From no state that the system reaches can packets be delivered for ever, in
whatever order, unless something else happens; and some deliveries leave nothing on its way. -/
theorem deliveries_end (clients : κ → Connect) (cid : List UInt8) (pre : List (WorldStep κ))
    (hpre : Along worldStep World.allows (.start clients cid) pre) (w : World κ)
    (hw : w = (run worldStep (.start clients cid) pre).1) :
    (¬ ∃ f : Nat → World κ, f 0 = w ∧ ∀ n, Moves (f n) (f (n + 1))) ∧
      ∃ as, Along worldStep (fun w a => w.ready a = true) w as ∧ (run worldStep w as).1.quiet := by
  have hstep : ∀ (w : World κ) a, w.Silent → w.allows a → (worldStep w a).1.Silent := fun w a h ha => h.step a ha
  have hsilent : w.Silent := by
    rw [hw]
    exact run_invariant hstep pre _ (World.Silent.start clients cid) hpre
  have hmoves : ∀ {w w' : World κ}, w.Silent → Moves w w' → w'.Silent := by
    rintro w w' h ⟨a, ha, rfl⟩
    exact h.step a (allows_of_ready ha)
  constructor
  · rintro ⟨f, h0, hf⟩
    have hall : ∀ n, (f n).Silent := by
      intro n
      induction n with
      | zero => rw [h0]; exact hsilent
      | succ n ih => exact hmoves ih (hf n)
    -- the backlogs would descend for ever
    exact (RelEmbedding.natGT (fun n => (f n).backlog) fun n => backlog_decreases (hall n) (hf n)).not_wellFounded
      wellFounded_lt
  · exact exists_drain hsilent

/-- A subscription is on its way to the server. -/
theorem pair_deliveries_end :
    ((run worldStep pairStart (subscribeSteps.take 2)).1.peers false).toServer.length = 1 ∧
      ∃ as, Along worldStep (fun w a => w.ready a = true) (run worldStep pairStart (subscribeSteps.take 2)).1 as ∧
        (run worldStep (run worldStep pairStart (subscribeSteps.take 2)).1 as).1.quiet :=
  ⟨by decide +kernel, (deliveries_end _ _ (subscribeSteps.take 2) ⟨trivial, trivial, trivial⟩ _ rfl).2⟩

end Deliveries

end SyncScribe
