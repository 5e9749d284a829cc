import SyncScribe.Client.SyncEvents
import SyncScribe.Lib.Channel
import SyncScribe.System.World

/-!
One order of all writes. The server logs the writes it accepts, of all clients and
its own; every client gets the EVENTs in the order of that log, and the writes of
every client are in it in the order it made them (`one_order`). What a client is
told of values, in EVENTs and in READ replies, is so at some moment, and these
moments never go back (`never_back`).
-/

namespace SyncScribe
open Lib Lib.Bytes Lib.Slots Lib.Keyed

/-! ## What is observed -/

section Observed

variable {κ : Type} [DecidableEq κ]

/-- The packets a client processed. -/
def processedBy (k : κ) (os : List (WorldObs κ)) : List Packet :=
  os.filterMap fun
    | .processed j p => if j = k then some p.frame else none
    | _ => none

/-- The packets a client sent. -/
def sentBy (k : κ) (os : List (WorldObs κ)) : List Packet :=
  os.filterMap fun
    | .sent j p => if j = k then some p else none
    | _ => none

/-- The log of accepted writes. -/
def written (os : List (WorldObs κ)) : List Delivery :=
  os.filterMap fun
    | .wrote _ d => some d
    | _ => none

/-- The accepted writes of a client, each with its event and its bytes. -/
def writtenBy (k : κ) (os : List (WorldObs κ)) : List (Id × List UInt8) :=
  os.filterMap fun
    | .wrote who d => if who = some k then some (d.id, d.payload) else none
    | _ => none

/-- The event and the bytes of a WRITE. -/
def Packet.writing (p : Packet) : Option (Id × List UInt8) :=
  if p.header.msg = .write then some (p.header.id, p.payload) else none

/-- The writes a client sent. -/
def askedBy (k : κ) (os : List (WorldObs κ)) : List (Id × List UInt8) := (sentBy k os).filterMap Packet.writing

/-- What the callbacks of a client are given. -/
def callbacks (xs : List ClientObs) : List (Id × List UInt8) :=
  xs.filterMap fun
    | .out (.call _ _ id data) => some (id, data)
    | _ => none

/-- What the application of a client was shown by its callbacks. -/
def shownTo (k : κ) (os : List (WorldObs κ)) : List (Id × List UInt8) :=
  os.flatMap fun
    | .client j x => if j = k then callbacks [x] else []
    | _ => []

/-- The event and the bytes of an EVENT, resent or not. -/
def Packet.showing (p : Packet) : Option (Id × List UInt8) :=
  if p.header.msg = .event then some (p.header.id, p.payload) else none

/-- The EVENTs a client processed. -/
def eventsBy (k : κ) (os : List (WorldObs κ)) : List (Id × List UInt8) :=
  (processedBy k os).filterMap Packet.showing

variable {k j : κ} {os os' : List (WorldObs κ)}

theorem callbacks_cons (x : ClientObs) (xs : List ClientObs) : callbacks (x :: xs) = callbacks [x] ++ callbacks xs :=
  List.filterMap_append (l := [x])

@[simp] theorem shownTo_append : shownTo k (os ++ os') = shownTo k os ++ shownTo k os' := List.flatMap_append

@[simp] theorem shownTo_cons (p : Packet) : shownTo k (.processed j p :: os) = shownTo k os := rfl

@[simp] theorem shownTo_wrote (who : Option κ) (ds : List Delivery) : shownTo k (ds.map (.wrote who)) = [] := by
  simp [shownTo]

@[simp] theorem shownTo_sent (ps : List Packet) : shownTo k (ps.map (.sent j)) = [] := by
  simp [shownTo]

@[simp] theorem shownTo_client (xs : List ClientObs) :
    shownTo k (xs.map (.client j)) = if j = k then callbacks xs else [] := by
  induction xs with
  | nil => simp [shownTo, callbacks]
  | cons x xs ih =>
    have hcons : shownTo k ((x :: xs).map (.client j)) =
        (if j = k then callbacks [x] else []) ++ shownTo k (xs.map (.client j)) := rfl
    rw [hcons, ih, callbacks_cons x xs]
    split <;> rfl

@[simp] theorem processedBy_append : processedBy k (os ++ os') = processedBy k os ++ processedBy k os' :=
  List.filterMap_append

omit [DecidableEq κ] in
@[simp] theorem written_append : written (os ++ os') = written os ++ written os' := List.filterMap_append

@[simp] theorem writtenBy_append : writtenBy k (os ++ os') = writtenBy k os ++ writtenBy k os' :=
  List.filterMap_append

@[simp] theorem sentBy_append : sentBy k (os ++ os') = sentBy k os ++ sentBy k os' := List.filterMap_append

theorem eventsBy_append : eventsBy k (os ++ os') = eventsBy k os ++ eventsBy k os' := by
  rw [eventsBy, processedBy_append, List.filterMap_append]
  rfl

theorem askedBy_append : askedBy k (os ++ os') = askedBy k os ++ askedBy k os' := by
  rw [askedBy, sentBy_append, List.filterMap_append]
  rfl

theorem processedBy_cons (p : Packet) :
    processedBy k (.processed j p :: os) = (if j = k then [p.frame] else []) ++ processedBy k os := by
  simp only [processedBy, List.filterMap_cons]
  split <;> simp_all

@[simp] theorem processedBy_wrote (who : Option κ) (ds : List Delivery) : processedBy k (ds.map (.wrote who)) = [] := by
  simp [processedBy]

@[simp] theorem processedBy_sent (ps : List Packet) : processedBy k (ps.map (.sent j)) = [] := by
  simp [processedBy]

@[simp] theorem processedBy_client (xs : List ClientObs) : processedBy k (xs.map (.client j)) = [] := by
  simp [processedBy]

omit [DecidableEq κ] in
@[simp] theorem written_sent (ps : List Packet) : written (ps.map (.sent j)) = [] := by
  simp [written]

omit [DecidableEq κ] in
@[simp] theorem written_client (xs : List ClientObs) : written (xs.map (.client j)) = [] := by
  simp [written]

omit [DecidableEq κ] in
theorem written_cons (p : Packet) : written (.processed j p :: os) = written os := rfl

omit [DecidableEq κ] in
@[simp] theorem written_wrote (who : Option κ) (ds : List Delivery) : written (ds.map (.wrote who)) = ds := by
  simp [written]

@[simp] theorem writtenBy_wrote (who : Option κ) (ds : List Delivery) :
    writtenBy k (ds.map (.wrote who)) = if who = some k then ds.map fun d => (d.id, d.payload) else [] := by
  split <;> simp_all [writtenBy]

@[simp] theorem writtenBy_sent (ps : List Packet) : writtenBy k (ps.map (.sent j)) = [] := by
  simp [writtenBy]

@[simp] theorem writtenBy_client (xs : List ClientObs) : writtenBy k (xs.map (.client j)) = [] := by
  simp [writtenBy]

@[simp] theorem sentBy_client (xs : List ClientObs) : sentBy k (xs.map (.client j)) = [] := by
  simp [sentBy]

@[simp] theorem sentBy_sent (ps : List Packet) : sentBy k (ps.map (.sent j)) = if j = k then ps else [] := by
  split <;> simp_all [sentBy]

end Observed

/-! ## From the server to a client -/

section News

variable {κ : Type} [DecidableEq κ] {w : World κ} {k : κ}

/-- The acts of the server in a step. -/
def served (w : World κ) : WorldStep κ → List Act
  | .connect k _ fd' addr =>
    if (w.peers k).client.socketfd < 0 && !(w.peers k).client.onexit && (getFreeClient w.server).isSome then
      [.accept (some (fd', addr))]
    else []
  | .serve k env =>
    if (w.peers k).linked then
      ((w.peers k).toServer.head?.map fun p => .packet env (w.peers k).slot (p.arrive env.beyond)).toList
    else []
  | .drop k => if (w.peers k).linked then [.close (w.peers k).slot] else []
  | .other a => [a]
  | .call .. | .announce .. | .receive .. | .lose _ | .restart _ => []

/-- A step that breaks the connection of `k`, or opens one. -/
def WorldStep.breaks (k : κ) : WorldStep κ → Bool
  | .connect j .. | .drop j | .lose j => j = k
  | .restart _ => true
  | _ => false

/-- The packets on the way to a client. -/
def hearing (k : κ) (w : World κ) : List Packet := (w.peers k).toClient

/-- What a step sends to a client, as far as it gets through. -/
def heard (k : κ) (w : World κ) (a : WorldStep κ) : List Packet :=
  if (w.peers k).linked && !a.breaks k then sentTo (w.peers k).slot (run linkAct w.server (served w a)).2 else []

omit [DecidableEq κ] in
/-- A step is at most one act of the server. -/
theorem served_cases (w : World κ) (a : WorldStep κ) : served w a = [] ∨ ∃ b, served w a = [b] := by
  cases a with
  | call | announce | receive | lose | restart => exact Or.inl rfl
  | other a => exact Or.inr ⟨a, rfl⟩
  | connect j fd fd' addr =>
    simp only [served]
    split
    · exact Or.inr ⟨_, rfl⟩
    · exact Or.inl rfl
  | serve j env =>
    simp only [served]
    split
    · cases (w.peers j).toServer with
      | nil => exact Or.inl rfl
      | cons p ps => exact Or.inr ⟨_, rfl⟩
    · exact Or.inl rfl
  | drop j =>
    simp only [served]
    split
    · exact Or.inr ⟨_, rfl⟩
    · exact Or.inl rfl

omit [DecidableEq κ] in
theorem served_allowed (h : w.Inv) {a : WorldStep κ} (ha : w.allows a) {b : Act} (hb : b ∈ served w a) :
    b.bounded w.server ∧ b.fits := by
  cases a with
  | call | announce | receive | lose | restart => cases hb
  | other a =>
    rw [served, List.mem_singleton] at hb
    subst hb
    exact ⟨ha.2.1, ha.1⟩
  | connect j fd fd' addr =>
    simp only [served] at hb
    split at hb
    · rw [List.mem_singleton] at hb
      subst hb
      exact ⟨trivial, trivial⟩
    · cases hb
  | serve j env =>
    simp only [served] at hb
    split at hb
    · cases hq : (w.peers j).toServer with
      | nil =>
        rw [hq] at hb
        cases hb
      | cons p ps =>
        have hproper : p.Proper := h.asked j p (by simp [hq])
        rw [hq, List.head?_cons, Option.map_some, Option.toList_some, List.mem_singleton] at hb
        subst hb
        exact ⟨masked_size_le p.header, fun hm => ⟨(hproper.named hm).1, masked_size_le p.header⟩⟩
    · cases hb
  | drop j =>
    simp only [served] at hb
    split at hb
    · rw [List.mem_singleton] at hb
      subst hb
      exact ⟨trivial, trivial⟩
    · cases hb

/-- What a step does to the server, and what it logs. -/
theorem step_server (w : World κ) {a : WorldStep κ} (hr : ∀ cid, a ≠ .restart cid) :
    (worldStep w a).1.server = (run act w.server (served w a)).1 ∧
      written (worldStep w a).2 = (served w a).flatMap (wrote w.server) := by
  have hclient : ∀ j (a : ClientAct), written (w.clientActs j a).2 = [] := by
    intro j a
    rw [World.clientActs, written_append, written_sent, written_client, List.append_nil]
  have hact : ∀ (v : World κ) who b, v.server = w.server → written (v.act who b).2 = wrote w.server b := by
    intro v who b hv
    rw [World.act, written_wrote, hv]
  cases a with
  | call j a =>
    simp only [worldStep]
    split
    · exact ⟨rfl, hclient j a⟩
    · exact ⟨rfl, rfl⟩
  | announce j env =>
    simp only [worldStep]
    split
    · exact ⟨rfl, hclient j _⟩
    · exact ⟨rfl, rfl⟩
  | connect j fd fd' addr =>
    simp only [worldStep, served]
    by_cases hc : ((w.peers j).client.socketfd < 0 && !(w.peers j).client.onexit) = true
    · cases hfree : getFreeClient w.server with
      | none => simp [hc, run, written]
      | some c =>
        simp only [hc, ↓reduceIte, Option.isSome_some, Bool.and_self, List.flatMap_singleton]
        exact ⟨rfl, hact w none _ rfl⟩
    · simp [hc, run, written]
  | serve j env =>
    simp only [worldStep, served]
    split
    · cases hq : (w.peers j).toServer with
      | nil => exact ⟨rfl, rfl⟩
      | cons p ps =>
        simp only [List.head?_cons, Option.map_some, Option.toList_some, List.flatMap_singleton]
        exact ⟨rfl, hact _ _ _ rfl⟩
    · exact ⟨rfl, rfl⟩
  | receive j env beyond =>
    simp only [worldStep]
    cases (w.peers j).toClient with
    | nil => exact ⟨rfl, rfl⟩
    | cons p ps =>
      refine ⟨rfl, ?_⟩
      rw [written_cons]
      exact (written_append).trans (by rw [written_sent, written_client]; rfl)
  | drop j =>
    simp only [worldStep, served]
    split
    · rw [List.flatMap_singleton]
      refine ⟨?_, hact _ _ _ rfl⟩
      simp only [World.act, World.setPeer, run, linkAct_server]
    · exact ⟨rfl, rfl⟩
  | lose j => exact ⟨rfl, rfl⟩
  | other a =>
    rw [served, List.flatMap_singleton]
    exact ⟨rfl, hact w none a rfl⟩
  | restart cid => exact absurd rfl (hr cid)

theorem setPeer_toClient {j : κ} {pr : Peer} (h : pr.toClient = (w.peers j).toClient) (k : κ) :
    ((w.setPeer j pr).peers k).toClient = (w.peers k).toClient := by
  by_cases hk : k = j
  · rw [hk, setPeer_same, h]
  · rw [setPeer_other hk]

theorem clientActs_toClient (j : κ) (a : ClientAct) (k : κ) :
    ((w.clientActs j a).1.peers k).toClient = (w.peers k).toClient := by
  rw [World.clientActs]
  exact setPeer_toClient (by rfl) k

@[simp] theorem clientActs_processedBy (j : κ) (a : ClientAct) : processedBy k (w.clientActs j a).2 = [] := by
  rw [World.clientActs, processedBy_append, processedBy_sent, processedBy_client, List.nil_append]

/-- Without an act of the server, nothing is sent. -/
theorem heard_nil {a : WorldStep κ} (h : served w a = []) : heard k w a = [] := by
  rw [heard, h, run]
  exact ite_self _

/-- A change of a peer that concerns neither its connection nor what is on the way to it. -/
theorem forall_peer_setPeer {j : κ} {pr : Peer} (hl : pr.linked = (w.peers j).linked) (hs : pr.slot = (w.peers j).slot)
    (hq : pr.toClient = (w.peers j).toClient) (k : κ) :
    ((w.setPeer j pr).peers k).linked = (w.peers k).linked ∧ ((w.setPeer j pr).peers k).slot = (w.peers k).slot ∧
      ((w.setPeer j pr).peers k).toClient = (w.peers k).toClient := by
  by_cases hk : k = j
  · rw [hk, setPeer_same]
    exact ⟨hl, hs, hq⟩
  · rw [setPeer_other hk]
    exact ⟨rfl, rfl, rfl⟩

/-- A step of the world that is an act of the server. -/
theorem conveys_act {v : World κ} {who : Option κ} {b : Act} {a : WorldStep κ} (hstep : worldStep w a = v.act who b)
    (hserved : served w a = [b]) (hk : a.breaks k = false) (hserver : v.server = w.server)
    (hpeer : (v.peers k).linked = (w.peers k).linked ∧ (v.peers k).slot = (w.peers k).slot ∧
      (v.peers k).toClient = (w.peers k).toClient) :
    Conveys worldStep (hearing k) (processedBy k) w a (heard k w a) := by
  obtain ⟨hlinked, hslot, hq⟩ := hpeer
  rw [Conveys, hstep, heard, hserved, hk]
  simp only [World.act, processedBy_wrote, hearing, hear_toClient, hlinked, hslot, hq, hserver, run, List.append_nil,
    List.nil_append, Bool.not_false, Bool.and_true]

/-- **A step that does not break the connection** loses nothing on the way to the client. -/
theorem step_conveys (h : w.Inv) {a : WorldStep κ} (hk : a.breaks k = false) :
    Conveys worldStep (hearing k) (processedBy k) w a (heard k w a) := by
  have hstay : ∀ {a : WorldStep κ}, worldStep w a = (w, []) → served w a = [] →
      Conveys worldStep (hearing k) (processedBy k) w a (heard k w a) := by
    intro a hstep hserved
    rw [Conveys, hstep, heard_nil hserved, List.append_nil]
    rfl
  have hclient : ∀ {a : WorldStep κ} {j b}, worldStep w a = w.clientActs j b → served w a = [] →
      Conveys worldStep (hearing k) (processedBy k) w a (heard k w a) := by
    intro a j b hstep hserved
    rw [Conveys, hstep, heard_nil hserved, clientActs_processedBy, hearing, clientActs_toClient, List.append_nil]
    rfl
  cases a with
  | call j a =>
    by_cases happ : a.byApplication = true
    · exact hclient (j := j) (by rw [worldStep, if_pos happ]) rfl
    · exact hstay (by rw [worldStep, if_neg happ]) rfl
  | announce j env =>
    by_cases hup : 0 ≤ (w.peers j).client.socketfd
    · exact hclient (j := j) (by rw [worldStep, if_pos hup]) rfl
    · exact hstay (by rw [worldStep, if_neg hup]) rfl
  | connect j fd fd' addr =>
    have hjk : j ≠ k := by simpa [WorldStep.breaks] using hk
    by_cases hc : ((w.peers j).client.socketfd < 0 && !(w.peers j).client.onexit) = true
    · cases hfree : getFreeClient w.server with
      | none => exact hstay (by simp only [worldStep, if_pos hc, hfree]) (by simp [served, hfree])
      | some c =>
        have hquiet : heard k w (.connect j fd fd' addr) = [] := by
          rw [heard, served, hc, hfree]
          exact ite_self _
        rw [Conveys, hquiet, List.append_nil]
        simp only [worldStep, if_pos hc, hfree, hearing, setPeer_other hjk.symm, World.act, processedBy_wrote,
          hear_toClient, linkAct_accept]
        simp [sentTo]
    · exact hstay (by simp only [worldStep, if_neg hc]) (by simp [served, hc])
  | serve j env =>
    by_cases hl : (w.peers j).linked = true
    · cases hq : (w.peers j).toServer with
      | nil => exact hstay (by simp only [worldStep, if_pos hl, hq]) (by simp [served, hq])
      | cons p ps =>
        have hstep : worldStep w (.serve j env) = (w.setPeer j { w.peers j with toServer := ps }).act (some j)
            (.packet env (w.peers j).slot (p.arrive env.beyond)) := by
          simp only [worldStep, if_pos hl, hq]
        apply conveys_act hstep (by simp [served, hl, hq]) rfl rfl
        exact forall_peer_setPeer (by rfl) (by rfl) (by rfl) k
    · exact hstay (by simp only [worldStep, if_neg hl]) (by simp [served, hl])
  | receive j env beyond =>
    cases hq : (w.peers j).toClient with
    | nil => exact hstay (by simp only [worldStep, hq]) rfl
    | cons p ps =>
      have hframe : (p.arrive beyond).frame = p := ((h.told j p (by simp [hq])).arrive beyond).2
      rw [Conveys, heard_nil rfl, List.append_nil, hearing, hearing]
      simp only [worldStep, hq]
      rw [processedBy_cons, clientActs_processedBy, List.append_nil, clientActs_toClient]
      by_cases hjk : j = k
      · subst hjk
        rw [if_pos rfl, hframe, hq, setPeer_same]
        rfl
      · rw [if_neg hjk, setPeer_other (Ne.symm hjk)]
        rfl
  | drop j =>
    have hjk : j ≠ k := by simpa [WorldStep.breaks] using hk
    by_cases hl : (w.peers j).linked = true
    · have hstep : worldStep w (.drop j) = (w.setPeer j { w.peers j with linked := false, toServer := [] }).act none
          (.close (w.peers j).slot) := by
        simp only [worldStep, if_pos hl]
      apply conveys_act hstep (by simp [served, hl]) hk rfl
      rw [setPeer_other hjk.symm]
      exact ⟨rfl, rfl, rfl⟩
    · exact hstay (by simp only [worldStep, if_neg hl]) (by simp [served, hl])
  | lose j =>
    have hjk : j ≠ k := by simpa [WorldStep.breaks] using hk
    rw [Conveys, heard_nil rfl, List.append_nil, hearing, hearing]
    simp only [worldStep, setPeer_other hjk.symm]
    rfl
  | other a => exact conveys_act rfl rfl rfl rfl ⟨rfl, rfl, rfl⟩
  | restart cid => cases hk

/-- A step that breaks it delivers nothing. -/
theorem step_broken {a : WorldStep κ} (hk : a.breaks k = true) :
    Passes worldStep (hearing k) (processedBy k) w a [] := by
  rw [Passes, List.append_nil]
  cases a with
  | call | announce | serve | receive | other => cases hk
  | connect j fd fd' addr =>
    have hjk : j = k := by simpa [WorldStep.breaks] using hk
    subst hjk
    simp only [worldStep]
    split
    · cases getFreeClient w.server with
      | none => exact List.Sublist.refl _
      | some c =>
        simp only [hearing, setPeer_same, World.act, processedBy_wrote]
        exact List.nil_sublist _
    · exact List.Sublist.refl _
  | drop j =>
    have hjk : j = k := by simpa [WorldStep.breaks] using hk
    subst hjk
    simp only [worldStep]
    split
    · simp only [hearing, World.act, processedBy_wrote, hear_toClient, setPeer_same]
      simp
    · exact List.Sublist.refl _
  | lose j =>
    have hjk : j = k := by simpa [WorldStep.breaks] using hk
    subst hjk
    simp only [worldStep, hearing, setPeer_same]
    exact List.nil_sublist _
  | restart cid => exact List.Sublist.refl _

/-- **What every step sends to a client** is so afterwards, and its EVENTs are logged. -/
theorem step_news (h : w.Inv) (a : WorldStep κ) (ha : w.allows a) (k : κ) :
    Passes worldStep (hearing k) (processedBy k) w a (heard k w a) ∧
      (∀ p ∈ heard k w a, p.Tells (worldStep w a).1.server.events) ∧
      ((heard k w a).filterMap Packet.delivery).Sublist (written (worldStep w a).2) := by
  cases hk : a.breaks k with
  | true =>
    have hnil : heard k w a = [] := by simp [heard, hk]
    rw [hnil]
    exact ⟨step_broken hk, fun p hp => absurd hp List.not_mem_nil, List.nil_sublist _⟩
  | false =>
    have hr : ∀ cid, a ≠ .restart cid := by
      rintro cid rfl
      cases hk
    obtain ⟨log, htracked⟩ := h.tracked
    obtain ⟨hserver, hwritten⟩ := step_server w hr
    refine ⟨Conveys.passes (step_conveys h hk), ?_⟩
    rcases served_cases w a with hnone | ⟨b, hb⟩
    · rw [heard_nil hnone]
      exact ⟨fun p hp => absurd hp List.not_mem_nil, List.nil_sublist _⟩
    · obtain ⟨hbound, hfits⟩ := served_allowed h ha (b := b) (by simp [hb])
      rw [hserver, hwritten, heard, hb, hk]
      simp only [run, List.append_nil, List.flatMap_singleton]
      split
      · have hsome : (sentTo (w.peers k).slot (linkAct w.server b).2).Sublist _ := sentTo_linkAct_sublist
        exact ⟨fun p hp => act_tells htracked.inv h.within hbound p (hsome.subset hp),
          (hsome.filterMap _).trans (act_wrote htracked hfits)⟩
      · exact ⟨fun p hp => absurd hp List.not_mem_nil, List.nil_sublist _⟩

end News

/-! ## From a client to the server -/

section Asks

variable {κ : Type} [DecidableEq κ] {w : World κ} {k : κ}

/-- The writes on the way from a client. -/
def asking (k : κ) (w : World κ) : List (Id × List UInt8) := (w.peers k).toServer.filterMap Packet.writing

/-- A packet is logged as the write it is, or not at all. -/
theorem wrote_packet (env : Env) (s : Server) (c : ClientIx) (p : Packet) :
    ((wrote s (.packet env c p)).map fun d => (d.id, d.payload)).Sublist p.writing.toList := by
  have hcases := packetChange_cases env s c p
  simp only [wrote, changeOf]
  generalize packetChange env s c p = ch at hcases
  cases hcases with
  | write created hm =>
    simp only [writeOf, Option.map_some, Option.toList_some, List.map_cons, List.map_nil, Write.delivery,
      Packet.writing, if_pos hm, UInt16.toNat_toUInt32]
    exact List.Sublist.refl _
  | _ => exact List.nil_sublist _

theorem arrive_writing {p : Packet} (h : p.Proper) (beyond : List UInt8) : (p.arrive beyond).writing = p.writing := by
  by_cases hm : p.header.msg = .write
  · obtain ⟨hhead, hframe⟩ := (h.named hm).2.arrive beyond
    have hpay : (p.arrive beyond).payload = p.payload := by
      rw [← payload_frame, hframe]
    rw [Packet.writing, Packet.writing, hhead, hpay]
  · have hm' : ¬ (p.arrive beyond).header.msg = .write := hm
    rw [Packet.writing, Packet.writing, if_neg hm, if_neg hm']

/-- A step whose writes on the way are some of those before. -/
theorem asks_of_sublist {a : WorldStep κ} {new : List (Id × List UInt8)}
    (h : (writtenBy k (worldStep w a).2 ++ asking k (worldStep w a).1).Sublist (asking k w)) :
    Passes worldStep (asking k) (writtenBy k) w a new :=
  h.trans (List.sublist_append_left _ _)

theorem asking_setPeer {j : κ} {pr : Peer} (h : pr.toServer.Sublist (w.peers j).toServer) (k : κ) :
    (asking k (w.setPeer j pr)).Sublist (asking k w) := by
  rw [asking, asking]
  by_cases hk : k = j
  · rw [hk, setPeer_same]
    exact h.filterMap _
  · rw [setPeer_other hk]

omit [DecidableEq κ] in
theorem asking_act (who : Option κ) (a : Act) : asking k (w.act who a).1 = asking k w := by
  rw [asking, World.act, hear_toServer, asking]

theorem asks_clientActs (j : κ) (a : ClientAct) :
    (writtenBy k (w.clientActs j a).2 ++ asking k (w.clientActs j a).1).Sublist
      (asking k w ++ askedBy k (w.clientActs j a).2) := by
  have hnone : writtenBy k (w.clientActs j a).2 = [] := by
    rw [World.clientActs, writtenBy_append, writtenBy_sent, writtenBy_client, List.nil_append]
  have hsent : sentBy k (w.clientActs j a).2 = if j = k then (w.peers j).sends a else [] := by
    rw [World.clientActs, sentBy_append, sentBy_sent, sentBy_client, List.append_nil]
  rw [hnone, askedBy, hsent, List.nil_append, World.clientActs, asking, asking]
  by_cases hk : j = k
  · subst hk
    rw [setPeer_same, if_pos rfl, Peer.act]
    split
    · rw [List.filterMap_append]
    · exact List.sublist_append_left _ _
  · rw [setPeer_other (Ne.symm hk)]
    exact List.sublist_append_left _ _

/-- **What every step puts on the way to the server, and takes from it,** are writes the client sends. -/
theorem step_asks (h : w.Inv) (a : WorldStep κ) (k : κ) :
    Passes worldStep (asking k) (writtenBy k) w a (askedBy k (worldStep w a).2) := by
  cases a with
  | call j a =>
    simp only [Passes, worldStep]
    split
    · exact asks_clientActs j a
    · exact List.sublist_append_left _ _
  | announce j env =>
    simp only [Passes, worldStep]
    split
    · exact asks_clientActs j (.sendId env)
    · exact List.sublist_append_left _ _
  | connect j fd fd' addr =>
    apply asks_of_sublist
    simp only [worldStep]
    split
    · cases getFreeClient w.server with
      | none => exact List.Sublist.refl _
      | some c =>
        simp only [World.act, writtenBy_wrote, reduceCtorEq, ↓reduceIte, List.nil_append]
        refine (asking_setPeer (List.nil_sublist _) k).trans ?_
        simp only [asking, hear_toServer]
        exact List.Sublist.refl _
    · exact List.Sublist.refl _
  | serve j env =>
    apply asks_of_sublist
    simp only [worldStep]
    split
    · cases hq : (w.peers j).toServer with
      | nil => exact List.Sublist.refl _
      | cons p ps =>
        have hproper : p.Proper := h.asked j p (by simp [hq])
        have hlogged := wrote_packet env w.server (w.peers j).slot (p.arrive env.beyond)
        rw [arrive_writing hproper] at hlogged
        simp only [asking_act]
        simp only [World.act, writtenBy_wrote, Option.some.injEq]
        by_cases hk : j = k
        · subst hk
          rw [if_pos rfl, asking, asking, setPeer_same, hq, List.filterMap_cons]
          cases hw : p.writing with
          | none =>
            rw [hw] at hlogged
            exact hlogged.append (List.Sublist.refl _)
          | some x =>
            rw [hw] at hlogged
            exact hlogged.append (List.Sublist.refl _)
        · rw [if_neg hk, asking, asking, setPeer_other (Ne.symm hk)]
          exact List.Sublist.refl _
    · exact List.Sublist.refl _
  | receive j env beyond =>
    simp only [Passes, worldStep]
    cases hq : (w.peers j).toClient with
    | nil => exact List.sublist_append_left _ _
    | cons p ps =>
      have hsame : (asking k (w.setPeer j { w.peers j with toClient := ps })).Sublist (asking k w) :=
        asking_setPeer (by exact List.Sublist.refl _) k
      exact (asks_clientActs j (.packet env (p.arrive beyond))).trans (hsame.append (List.Sublist.refl _))
  | drop j =>
    apply asks_of_sublist
    simp only [worldStep]
    split
    · rw [asking_act]
      simp only [World.act, writtenBy_wrote, reduceCtorEq, ↓reduceIte, List.nil_append]
      exact asking_setPeer (List.nil_sublist _) k
    · exact List.Sublist.refl _
  | lose j => exact asks_of_sublist (asking_setPeer (List.nil_sublist _) k)
  | other a =>
    apply asks_of_sublist
    simp only [worldStep, asking_act]
    simp [World.act]
  | restart cid => exact asks_of_sublist (List.nil_sublist _)

end Asks

/-! ## From a client to its application -/

section Shows

variable {κ : Type} [DecidableEq κ] {k : κ}

theorem shows_sendId (env : ClientEnv) (s : Connect) : callbacks ((sendId env s).map .out) = [] := by
  rw [callbacks, List.filterMap_eq_nil_iff]
  intro x hx
  obtain ⟨y, hy, rfl⟩ := List.mem_map.mp hx
  obtain ⟨o, _, ho⟩ := sendId_out hy
  rcases mem_connectSend ho with ⟨rfl, _⟩ | rfl
  · rfl
  · rfl

/-- Calls run no callbacks. -/
theorem shows_call {s : Connect} {a : ClientAct} (ha : a.byApplication = true) : callbacks (clientAct s a).2 = [] := by
  have hobs := observed_call (s := s) ha
  generalize (clientAct s a).2 = obs at hobs
  cases hobs with
  | sends env o =>
    rw [connectSend]
    split
    · rfl
    · split <;> rfl
  | waited r => rfl
  | none => rfl

/-- A packet that runs a callback is an EVENT, and the callback gets what it carries. -/
theorem shows_packet (env : ClientEnv) (s : Connect) (p : Packet) :
    (callbacks (clientAct s (.packet env p)).2).Sublist p.showing.toList := by
  by_cases hm : p.header.msg = .event
  · simp only [clientAct, Connect.call?, processPacket, hm, Packet.showing, if_pos, Option.toList_some]
    cases hf : s.findEvent p.header.id with
    | none =>
      simp only [processEvent, hf]
      exact List.nil_sublist _
    | some e =>
      have hid := Connect.findEvent_some hf
      have hout : (processEvent s p).2 =
          ((s.events e).cb.map fun cb => ClientOut.call cb (s.events e).args p.header.id p.payload).toList := by
        simp only [processEvent, hf, hid, Packet.payload]
        cases (s.events e).cb <;> cases (s.events e).data <;> rfl
      rw [hout]
      cases (s.events e).cb with
      | none => exact List.nil_sublist _
      | some cb => exact List.Sublist.refl _
  · suffices hnone : callbacks (clientAct s (.packet env p)).2 = [] by
      rw [hnone]
      exact List.nil_sublist _
    have herr : callbacks ((processError env { s with serverId := p.header.id } p).2.map .out) = [] := by
      rw [processError]
      split
      · rfl
      · split
        · rfl
        · split
          · exact shows_sendId env _
          · rfl
    simp only [clientAct, Connect.call?]
    cases hm' : p.header.msg
    case event => exact absurd hm' hm
    case serverStatus =>
      simp only [processPacket, hm']
      exact herr
    all_goals
      simp only [processPacket, hm']
      rfl

/-- **What an application is shown** are EVENTs its client processes. -/
theorem step_shows (w : World κ) (a : WorldStep κ) :
    (shownTo k (worldStep w a).2).Sublist (eventsBy k (worldStep w a).2) := by
  have hcalls : ∀ (v : World κ) j a, callbacks (clientAct (v.peers j).client a).2 = [] →
      shownTo k (v.clientActs j a).2 = [] := by
    intro v j a h
    rw [World.clientActs, shownTo_append, shownTo_sent, shownTo_client, h, List.nil_append, ite_self]
  have hserver : ∀ (v : World κ) who b, shownTo k (v.act who b).2 = [] := fun v who b => by
    rw [World.act, shownTo_wrote]
  have hnil : ∀ {xs ys : List (Id × List UInt8)}, xs = [] → xs.Sublist ys := by
    rintro xs ys rfl
    exact List.nil_sublist _
  cases a with
  | call j a =>
    apply hnil
    simp only [worldStep]
    split
    · rename_i happ
      exact hcalls w j a (shows_call happ)
    · rfl
  | announce j env =>
    apply hnil
    simp only [worldStep]
    split
    · exact hcalls w j (.sendId env) (shows_sendId env _)
    · rfl
  | connect j fd fd' addr =>
    apply hnil
    simp only [worldStep]
    split
    · cases getFreeClient w.server with
      | none => rfl
      | some c => exact hserver w none _
    · rfl
  | serve j env =>
    apply hnil
    simp only [worldStep]
    split
    · cases (w.peers j).toServer with
      | nil => rfl
      | cons p ps => exact hserver _ _ _
    · rfl
  | receive j env beyond =>
    simp only [worldStep]
    cases (w.peers j).toClient with
    | nil => exact List.nil_sublist _
    | cons p ps =>
      have hshows := shows_packet env (w.peers j).client (p.arrive beyond)
      simp only [shownTo_cons, eventsBy, processedBy_cons, clientActs_processedBy, List.append_nil]
      rw [World.clientActs, shownTo_append, shownTo_sent, shownTo_client, List.nil_append, setPeer_same]
      by_cases hk : j = k
      · rw [if_pos hk, if_pos hk]
        have hframe : (p.arrive beyond).frame.showing = (p.arrive beyond).showing := by
          rw [Packet.showing, payload_frame]
          rfl
        rw [← hframe] at hshows
        cases hs : (p.arrive beyond).frame.showing with
        | none =>
          rw [hs] at hshows
          simpa [hs] using hshows
        | some x =>
          rw [hs] at hshows
          simpa [hs] using hshows
      · rw [if_neg hk]
        exact List.nil_sublist _
  | drop j =>
    apply hnil
    simp only [worldStep]
    split
    · exact hserver _ _ _
    · rfl
  | lose j => exact List.nil_sublist _
  | other a => exact hnil (hserver w none a)
  | restart cid => exact List.nil_sublist _

end Shows

/-! ## Runs -/

section Runs

variable {κ : Type} [DecidableEq κ]

/-- **One order of all writes.** The accepted writes are one log. What a client gets of it over all its connections
is in the order of the log, each write once at most; and of a client's writes those that the server takes from the
connection the client has then are in the log in the order in which it sent them, each once at most. -/
theorem one_order (clients : κ → Connect) (cid : List UInt8) (as : List (WorldStep κ))
    (hproper : Along worldStep World.proper (.start clients cid) as) (k : κ) :
    ((processedBy k (run worldStep (.start clients cid) as).2).filterMap Packet.delivery).Sublist
        (written (run worldStep (.start clients cid) as).2) ∧
      (writtenBy k (run worldStep (.start clients cid) as).2).Sublist
        (askedBy k (run worldStep (.start clients cid) as).2) := by
  have hal := along_mono (fun _ _ (h : World.proper _ _) => h.1) _ as hproper
  have hstep : ∀ (w : World κ) a, w.Inv → w.allows a → (worldStep w a).1.Inv := fun w a h ha => h.step a ha
  have hstart := World.Inv.start clients cid
  constructor
  · have hnew : ∀ (w : World κ) a, w.Inv → w.allows a → ∃ new, Passes worldStep (hearing k) (processedBy k) w a new ∧
        (new.filterMap Packet.delivery).Sublist (written (worldStep w a).2) := by
      intro w a h ha
      obtain ⟨hpass, _, hlogged⟩ := step_news h a ha k
      exact ⟨_, hpass, hlogged⟩
    have hin := run_in_order (fun _ _ => processedBy_append) (fun _ _ => written_append) hstep hnew _ hstart rfl rfl
      as hal
    rw [List.filterMap_append] at hin
    exact (List.sublist_append_left _ _).trans hin
  · have hnew : ∀ (w : World κ) a, w.Inv → w.allows a → ∃ new, Passes worldStep (asking k) (writtenBy k) w a new ∧
        (new.filterMap some).Sublist (askedBy k (worldStep w a).2) :=
      fun w a h _ => ⟨_, step_asks h a k, by rw [List.filterMap_some]⟩
    have hin := run_in_order (fun _ _ => writtenBy_append) (fun _ _ => askedBy_append) hstep hnew _ hstart rfl rfl
      as hal
    rw [List.filterMap_some] at hin
    exact (List.sublist_append_left _ _).trans hin

/-- Two clients that never were connected, and a server. -/
def pairStart : World Bool := .start (fun _ => connectCreate [] []) []

/-- The first client subscribes a new event. -/
def subscribeSteps : List (WorldStep Bool) :=
  [.connect false 5 7 ⟨1, 2⟩, .call false (.subscribe .calm (typeForce ||| typeVarString) [97] (some 1) 0),
    .serve false .calm]

/-- The second client writes to it. -/
def writeSteps : List (WorldStep Bool) :=
  [.connect true 6 8 ⟨3, 4⟩, .call true (.write .calm typeVarString [97] (some [7, 8]) 2), .serve true .calm,
    .receive false .calm []]

theorem pair_proper : Along worldStep World.proper pairStart (subscribeSteps ++ writeSteps) :=
  ⟨⟨trivial, trivial⟩, ⟨trivial, trivial⟩, ⟨trivial, trivial⟩, ⟨trivial, trivial⟩,
    ⟨(by decide : (idstr [97]).good), (by decide : WriteCopies typeVarString (some [7, 8]) 2)⟩, ⟨trivial, trivial⟩,
    ⟨trivial, trivial⟩, trivial⟩

/-- The write of the second client is the log, and the first client gets it. -/
theorem pair_one_order :
    ((processedBy false (run worldStep pairStart (subscribeSteps ++ writeSteps)).2).filterMap Packet.delivery).Sublist
        (written (run worldStep pairStart (subscribeSteps ++ writeSteps)).2) ∧
      (processedBy false (run worldStep pairStart (subscribeSteps ++ writeSteps)).2).filterMap Packet.delivery =
        [⟨idstr [97], Msg.event.code ||| typeVarString, [7, 8]⟩] ∧
      writtenBy true (run worldStep pairStart (subscribeSteps ++ writeSteps)).2 = [(idstr [97], [7, 8])] :=
  ⟨(one_order _ _ _ pair_proper false).1, by decide +kernel, by decide +kernel⟩

/-- The value shown is that of the event in the table. -/
def ShownOf (t : Table) (x : Id × List UInt8) : Prop := x.1.good → ∃ ev, look t x.1 = some ev ∧ x.2 = ev.value

/-- **What a client is told never goes back.** All the EVENTs, resent ones as well, and READ replies that a client
processes over its connections, and so all that its callbacks are given, are what the table of the server had at
some moment, at moments that never go back. If nothing was on its way to the client at the beginning, none of
these moments is before it. -/
theorem never_back (clients : κ → Connect) (cid : List UInt8) (pre as : List (WorldStep κ))
    (hproper : Along worldStep World.proper (.start clients cid) (pre ++ as)) (w : World κ)
    (hw : w = (run worldStep (.start clients cid) pre).1) (k : κ) (hnew : (w.peers k).toClient = []) :
    Snapshots (fun t p => p.Tells (run worldStep w (as.take t)).1.server.events) as.length
        (processedBy k (run worldStep w as).2) ∧
      Snapshots (fun t => ShownOf (run worldStep w (as.take t)).1.server.events) as.length
        (shownTo k (run worldStep w as).2) := by
  obtain ⟨hpre, has⟩ := (along_append _ pre as).mp (along_mono (fun _ _ (h : World.proper _ _) => h.1) _ _ hproper)
  have hstep : ∀ (w : World κ) a, w.Inv → w.allows a → (worldStep w a).1.Inv := fun w a h ha => h.step a ha
  have hinv : w.Inv := by
    rw [hw]
    exact run_invariant hstep pre _ (World.Inv.start clients cid) hpre
  rw [← hw] at has
  have hnews : ∀ (w : World κ) a, w.Inv → w.allows a → ∃ new, Passes worldStep (hearing k) (processedBy k) w a new ∧
      ∀ p ∈ new, p.Tells (worldStep w a).1.server.events := by
    intro w a h ha
    obtain ⟨hpass, htells, _⟩ := step_news h a ha k
    exact ⟨_, hpass, htells⟩
  have hin := run_snapshots (R := fun (w : World κ) p => p.Tells w.server.events) (fun _ _ => processedBy_append) hstep
    hnews w hinv hnew rfl as has
  have htold := hin.sublist (List.sublist_append_left _ _)
  refine ⟨htold, ?_⟩
  have hshown : Snapshots (fun t => ShownOf (run worldStep w (as.take t)).1.server.events) as.length
      (eventsBy k (run worldStep w as).2) := by
    apply htold.filterMap
    intro t p x hp hx hg
    rw [Packet.showing] at hx
    split at hx
    · rename_i hm
      cases hx
      exact (hp hg).1 hm
    · cases hx
  apply hshown.sublist
  exact run_sublist (fun _ _ => shownTo_append) (fun _ _ => eventsBy_append) rfl step_shows as _

/-- The callback of the first client is given what the second wrote since. -/
theorem pair_never_back :
    Snapshots (fun t => ShownOf
        (run worldStep (run worldStep pairStart subscribeSteps).1 (writeSteps.take t)).1.server.events)
        writeSteps.length (shownTo false (run worldStep (run worldStep pairStart subscribeSteps).1 writeSteps).2) ∧
      shownTo false (run worldStep (run worldStep pairStart subscribeSteps).1 writeSteps).2 =
        [(idstr [97], [7, 8])] :=
  ⟨(never_back _ _ subscribeSteps writeSteps pair_proper _ rfl false (by decide +kernel)).2, by decide +kernel⟩

end Runs

end SyncScribe
