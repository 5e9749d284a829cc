import SyncScribe.Client.Copies
import SyncScribe.System.Unbroken

/-!
Copies of an event. The last EVENT on its way to a client, or its copy if there is
none, is the value the event has at the server, from the first EVENT on and through
any interleaving of the clients, as long as no step changes the event without telling
the client: a definition, the end of the event or of the subscription, and its own
writes. So a client to which nothing is on its way has the value of the server
(`copies_converge`), and two such clients have the same.
-/

namespace SyncScribe
open Lib Lib.Bytes Lib.Slots Lib.Keyed

/-! ## What the server tells a subscriber -/

/-- A change after which the event `id` may differ from what `c` was told of it. -/
def Change.hides (c : ClientIx) (id : Id) : Change → Prop
  | .edit id' _ (.define ..) => id' = id
  | .edit id' _ (.write c' flags _ _) => id' = id ∧ c' = c ∧ flags &&& typeEcho = 0
  | ch => ch.unsubscribes c id ∨ ch.frees id

instance (t : Table) (c : ClientIx) (id : Id) : Decidable (Consumes t c id) :=
  inferInstanceAs (Decidable (∃ ev ∈ look t id, Holds ev.consumers c))

instance (c : ClientIx) (id : Id) : DecidablePred (Change.hides c id)
  | .edit id' _ (.define ..) => inferInstanceAs (Decidable (id' = id))
  | .edit id' _ (.write c' flags _ _) => inferInstanceAs (Decidable (id' = id ∧ c' = c ∧ flags &&& typeEcho = 0))
  | .edit id' _ (.unsubscribe c') => inferInstanceAs (Decidable ((c' = c ∧ id' = id) ∨ False))
  | .edit _ _ (.subscribe ..) | .edit _ _ (.serverWrite ..) | .edit _ _ (.callback ..) | .keep =>
    inferInstanceAs (Decidable (False ∨ False))
  | .free id' => inferInstanceAs (Decidable (False ∨ id' = id))
  | .close c' => inferInstanceAs (Decidable (c' = c ∨ False))

section Informs

variable {s : Server} {c : ClientIx} {id : Id} {a : Act} {log : List Change} {ch : Change}

theorem not_hides (h : ¬ ch.hides c id) : ¬ ch.unsubscribes c id ∧ ¬ ch.frees id := by
  cases ch with
  | edit id' created k =>
    cases k with
    | define | write => exact ⟨fun hu => hu, fun hf => hf⟩
    | subscribe | unsubscribe | serverWrite | callback => exact not_or.mp h
  | keep | free | close => exact not_or.mp h

/-- A change that stores a value and does not hide it is a write that reaches the subscriber. -/
theorem write_of_stores (hnew : ∀ k, ch ≠ .edit id true k) (hs : ch.stores id) (hh : ¬ ch.hides c id) :
    ∃ w, writeOf ch = some w ∧ w.id = id ∧ w.reaches c = true := by
  cases ch with
  | keep | free | close => exact hs.elim
  | edit id' created k =>
    obtain ⟨rfl, hwhy⟩ := hs
    have hk : k.stores = true := by
      rcases hwhy with rfl | hk
      · exact absurd rfl (hnew k)
      · exact hk
    cases k with
    | subscribe | unsubscribe | callback => cases hk
    | define flags data size => exact absurd rfl hh
    | serverWrite flags data size => exact ⟨_, rfl, rfl, rfl⟩
    | write c' flags data size =>
      refine ⟨_, rfl, rfl, ?_⟩
      simp only [Write.reaches, Bool.not_eq_true', Bool.and_eq_false_imp, beq_iff_eq, Option.some.injEq,
        beq_eq_false_iff_ne, ne_eq]
      exact fun hc hecho => hh ⟨rfl, hc, hecho⟩

/-- The value of an event, if there is one. -/
def currentValue (t : Table) (id : Id) : Option (List UInt8) := (look t id).map Event.value

theorem Consumes.isSome {t : Table} (h : Consumes t c id) : (currentValue t id).isSome = true := by
  obtain ⟨ev, hl, _⟩ := h
  rw [currentValue, hl]
  rfl

/-- **A subscriber is told of every change** that is not hidden from it, and stays one. -/
theorem act_informs (ht : Tracked s log) (hf : a.fits) (hc : Consumes s.events c id) (hg : id.good)
    (hh : ¬ (changeOf s a).hides c id) : Consumes (act s a).1.events c id ∧
      (tellings id (sentTo c (act s a).2) = [] →
        currentValue (act s a).1.events id = currentValue s.events id) := by
  have happ := act_change ht.inv a
  obtain ⟨hunsub, hfree⟩ := not_hides hh
  have hc' : Consumes (act s a).1.events c id :=
    (consumes_change ht.inv happ hg).mpr (Or.inr ⟨hc, not_or.mpr ⟨hunsub, hfree⟩⟩)
  refine ⟨hc', fun hsilent => ?_⟩
  by_cases hst : (changeOf s a).stores id
  · -- the event was there, so the change is a write, and the subscriber is owed an EVENT
    have hnew : ∀ k, changeOf s a ≠ .edit id true k := by
      intro k hk
      rw [hk] at happ
      obtain ⟨ev, horigin, _⟩ := happ
      obtain ⟨ev', hl, _⟩ := hc
      rw [(horigin.fresh rfl).1] at hl
      cases hl
    obtain ⟨w, hw, hid, hreach⟩ := write_of_stores hnew hst hh
    have howed : deliveries c (act s a).2 = [w.delivery (act s a).1.events] := by
      rw [act_deliveries ht.inv (ht.agree c) a hf, owed, hw]
      simp only [Write.owed, hid, hreach, (ht.agree c id hg).mp hc, and_self, ↓reduceIte, Write.delivery]
    have hmem : w.delivery (act s a).1.events ∈ (sentTo c (act s a).2).filterMap Packet.delivery := by
      rw [← deliveries_eq, howed]
      exact List.mem_singleton_self _
    obtain ⟨p, hp, hd⟩ := List.mem_filterMap.mp hmem
    rw [Packet.delivery] at hd
    split at hd
    · rename_i hm
      have htold : p.payload ∈ tellings id (sentTo c (act s a).2) := by
        refine List.mem_filterMap.mpr ⟨p, hp, if_pos ⟨hm.1, ?_⟩⟩
        have hpid : p.header.id = w.id := congrArg Delivery.id (Option.some.inj hd)
        rw [hpid, hid]
      rw [hsilent] at htold
      cases htold
    · cases hd
  · obtain ⟨ev', hl', _⟩ := hc'
    obtain ⟨ev, hl, hsame⟩ := value_change happ hst hl'
    rw [currentValue, currentValue, hl, hl', Option.map_some, Option.map_some, Event.value, Event.value, hsame.data,
      hsame.dataSize]

end Informs

/-! ## The copies of a client -/

section Replicas

variable {κ : Type} [DecidableEq κ] {w : World κ} {k : κ} {c : ClientIx} {id : Id} {a : WorldStep κ}

/-- The client `k`, in the slot `c`, subscribes `id` and keeps a copy of it. -/
structure World.Replica (w : World κ) (k : κ) (c : ClientIx) (id : Id) : Prop where
  holds : w.Holds k c
  copies : Copies (w.peers k).client id
  consumes : Consumes w.server.events c id

/-- A call of the client that leaves the copy of `id` alone. -/
def WorldStep.leaves (k : κ) (id : Id) : WorldStep κ → Prop
  | .call j a => j = k → a.leaves id
  | _ => True

/-- A step that keeps the connection, delivers what is sent on it and hides nothing of `id` from it. -/
def World.calm (k : κ) (id : Id) (w : World κ) (a : WorldStep κ) : Prop :=
  w.Keeps k a ∧ a.leaves k id ∧ ∀ b ∈ served w a, ¬ (changeOf w.server b).hides (w.peers k).slot id

theorem arrive_tellings {p : Packet} : tellings id [p.frame] = tellings id [p] := by
  simp only [tellings, List.filterMap_cons, payload_frame]
  rfl

theorem setPeer_client {j : κ} {pr : Peer} (h : pr.client = (w.peers j).client) (k : κ) :
    ((w.setPeer j pr).peers k).client = (w.peers k).client := by
  by_cases hk : k = j
  · rw [hk, setPeer_same, h]
  · rw [setPeer_other hk]

omit [DecidableEq κ] in
theorem act_client (who : Option κ) (b : Act) : ((w.act who b).1.peers k).client = (w.peers k).client := by
  simp only [World.act, Peer.hear]
  split <;> rfl

/-- The client of `k` after a call of a client. -/
theorem clientActs_client (j : κ) (b : ClientAct) : ((w.clientActs j b).1.peers k).client =
    if j = k then (clientAct (w.peers k).client b).1 else (w.peers k).client := by
  rw [World.clientActs]
  by_cases hk : j = k
  · subst hk
    rw [if_pos rfl, setPeer_same]
    rfl
  · rw [if_neg hk, setPeer_other (Ne.symm hk)]

/-- **A copy after a step** is that of the last EVENT processed. -/
theorem step_copy (hc : Copies (w.peers k).client id) (hk : a.breaks k = false) (hl : a.leaves k id) :
    Copies ((worldStep w a).1.peers k).client id ∧ copyOf ((worldStep w a).1.peers k).client id =
      (tellings id (processedBy k (worldStep w a).2)).getLast?.or (copyOf (w.peers k).client id) := by
  have hstay : ∀ {v : World κ} {os : List (WorldObs κ)}, (v.peers k).client = (w.peers k).client →
      processedBy k os = [] → Copies (v.peers k).client id ∧ copyOf (v.peers k).client id =
        (tellings id (processedBy k os)).getLast?.or (copyOf (w.peers k).client id) := by
    intro v os hv hos
    rw [hv, hos]
    exact ⟨hc, rfl⟩
  have hcalls : ∀ {j : κ} {b : ClientAct}, (∀ env p, b ≠ .packet env p) → (j = k → b.leaves id) →
      Copies ((w.clientActs j b).1.peers k).client id ∧ copyOf ((w.clientActs j b).1.peers k).client id =
        (tellings id (processedBy k (w.clientActs j b).2)).getLast?.or (copyOf (w.peers k).client id) := by
    intro j b hb hleave
    rw [clientActs_processedBy, clientActs_client]
    by_cases hjk : j = k
    · rw [if_pos hjk]
      exact copies_act hc (hleave hjk) hb
    · rw [if_neg hjk]
      exact ⟨hc, rfl⟩
  cases a with
  | call j b =>
    simp only [worldStep]
    split
    · rename_i happ
      apply hcalls _ hl
      rintro env p rfl
      cases happ
    · exact hstay rfl rfl
  | announce j env =>
    simp only [worldStep]
    split
    · exact hcalls (fun env p he => by cases he) fun _ => trivial
    · exact hstay rfl rfl
  | connect j fd fd' addr =>
    have hjk : j ≠ k := by simpa [WorldStep.breaks] using hk
    simp only [worldStep]
    split
    · cases getFreeClient w.server with
      | none => exact hstay rfl rfl
      | some i =>
        apply hstay
        · rw [setPeer_other hjk.symm]
          exact act_client none _
        · exact processedBy_wrote none _
    · exact hstay rfl rfl
  | serve j env =>
    simp only [worldStep]
    split
    · cases (w.peers j).toServer with
      | nil => exact hstay rfl rfl
      | cons p ps => exact hstay ((act_client _ _).trans (setPeer_client (by rfl) k)) (processedBy_wrote _ _)
    · exact hstay rfl rfl
  | receive j env beyond =>
    simp only [worldStep]
    cases (w.peers j).toClient with
    | nil => exact hstay rfl rfl
    | cons p ps =>
      simp only [processedBy_cons, clientActs_processedBy, List.append_nil, clientActs_client]
      have hsame : ((w.setPeer j { w.peers j with toClient := ps }).peers k).client = (w.peers k).client :=
        setPeer_client (by rfl) k
      rw [hsame]
      by_cases hjk : j = k
      · rw [if_pos hjk, if_pos hjk, arrive_tellings]
        exact hc.packet env _
      · rw [if_neg hjk, if_neg hjk]
        exact ⟨hc, rfl⟩
  | drop j =>
    simp only [worldStep]
    split
    · exact hstay ((act_client _ _).trans (setPeer_client (by rfl) k)) (processedBy_wrote _ _)
    · exact hstay rfl rfl
  | lose j =>
    have hjk : j ≠ k := by simpa [WorldStep.breaks] using hk
    simp only [worldStep]
    exact hstay (by rw [setPeer_other hjk.symm]) rfl
  | other b => exact hstay (act_client none b) (processedBy_wrote none _)
  | restart cid => cases hk

/-- **A step tells the client what it does to the event.** -/
theorem Replica.informs (h : w.Replica k c id) (ha : w.calm k id a) :
    Consumes (worldStep w a).1.server.events c id ∧
      (tellings id (heard k w a) = [] →
        currentValue (worldStep w a).1.server.events id = currentValue w.server.events id) := by
  obtain ⟨hkeep, _, hshows⟩ := ha
  rw [step_acts hkeep.lasts]
  rcases served_cases w a with hnone | ⟨b, hb⟩
  · rw [hnone]
    exact ⟨h.consumes, fun _ => rfl⟩
  · obtain ⟨log, htracked⟩ := h.holds.inv.tracked
    obtain ⟨_, hfits⟩ := served_allowed h.holds.inv hkeep.proper.1 (b := b) (by simp [hb])
    have hheard : heard k w a = sentTo c (act w.server b).2 := by
      rw [heard_served h.holds hkeep, hb]
      simp only [run, List.append_nil]
    have hb' := hshows b (by simp [hb])
    rw [h.holds.slot] at hb'
    rw [hb, hheard]
    exact act_informs htracked hfits h.consumes h.copies.good hb'

theorem Replica.step (h : w.Replica k c id) (ha : w.calm k id a) : (worldStep w a).1.Replica k c id :=
  ⟨h.holds.step ha.1, (step_copy h.copies ha.1.lasts ha.2.1).1, (Replica.informs h ha).1⟩

end Replicas

end SyncScribe
