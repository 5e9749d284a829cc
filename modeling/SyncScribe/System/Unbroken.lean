import SyncScribe.System.Order

/-!
A connection that does not break. While the server holds the connection of a client
and no send on it fails, nothing on it is lost, doubled or reordered: the client gets every EVENT its slot is
owed, once (`exactly_once`), and its READ requests are answered one for one, in the
order in which it made them (`reads_in_order`).
-/

namespace SyncScribe
open Lib Lib.Bytes Lib.Slots Lib.Keyed

/-! ## The connection stays -/

section Holds

variable {κ : Type} [DecidableEq κ] {w : World κ} {k : κ} {c : ClientIx} {a : WorldStep κ}

/-- The server holds the connection of `k` in its slot `c`. -/
structure World.Holds (w : World κ) (k : κ) (c : ClientIx) : Prop where
  inv : w.Inv
  linked : (w.peers k).linked = true
  slot : (w.peers k).slot = c

/-- No send on the connection of `k` fails in the step, at either end. -/
def World.Delivers (k : κ) (w : World κ) : WorldStep κ → Prop
  | .call j a => j = k → a.fails = false
  | .announce j env | .receive j env _ => j = k → env.sendResult = 0
  | .serve _ env => env.sendFails (w.peers k).slot = false
  | .other a => a.fails (w.peers k).slot = false
  | .connect .. | .drop _ | .lose _ | .restart _ => True

/-- A step as it should be that leaves the connection of `k` open and all that is sent on it. -/
structure World.Keeps (k : κ) (w : World κ) (a : WorldStep κ) : Prop where
  proper : w.proper a
  lasts : a.breaks k = false
  delivers : w.Delivers k a

/-- The connection and the slot of a peer. -/
def Peer.link (pr : Peer) : Bool × ClientIx := (pr.linked, pr.slot)

theorem setPeer_link {j : κ} {pr : Peer} (h : pr.link = (w.peers j).link) (k : κ) :
    ((w.setPeer j pr).peers k).link = (w.peers k).link := by
  by_cases hk : k = j
  · rw [hk, setPeer_same, h]
  · rw [setPeer_other hk]

omit [DecidableEq κ] in
theorem act_link (who : Option κ) (b : Act) : ((w.act who b).1.peers k).link = (w.peers k).link := by
  rw [Peer.link, World.act, hear_linked, hear_slot, Peer.link]

theorem step_link (hk : a.breaks k = false) : ((worldStep w a).1.peers k).link = (w.peers k).link := by
  cases a with
  | call j a =>
    simp only [worldStep]
    split
    · exact setPeer_link (by rfl) k
    · rfl
  | announce j env =>
    simp only [worldStep]
    split
    · exact setPeer_link (by rfl) k
    · rfl
  | connect j fd fd' addr =>
    have hjk : j ≠ k := by simpa [WorldStep.breaks] using hk
    simp only [worldStep]
    split
    · cases getFreeClient w.server with
      | none => rfl
      | some c =>
        rw [setPeer_other hjk.symm]
        exact act_link none _
    · rfl
  | serve j env =>
    simp only [worldStep]
    split
    · cases (w.peers j).toServer with
      | nil => rfl
      | cons p ps => exact (act_link (some j) _).trans (setPeer_link (by rfl) k)
    · rfl
  | receive j env beyond =>
    simp only [worldStep]
    cases (w.peers j).toClient with
    | nil => rfl
    | cons p ps => exact (setPeer_link (by rfl) k).trans (setPeer_link (by rfl) k)
  | drop j =>
    have hjk : j ≠ k := by simpa [WorldStep.breaks] using hk
    simp only [worldStep]
    split
    · rw [act_link, setPeer_other hjk.symm]
    · rfl
  | lose j =>
    have hjk : j ≠ k := by simpa [WorldStep.breaks] using hk
    simp only [worldStep, setPeer_other hjk.symm]
  | other a => exact act_link none a
  | restart cid => cases hk

theorem World.Holds.step (h : w.Holds k c) (ha : w.Keeps k a) : (worldStep w a).1.Holds k c := by
  have hlink := step_link (w := w) ha.lasts
  simp only [Peer.link, Prod.mk.injEq] at hlink
  exact ⟨h.inv.step a ha.proper.1, hlink.1.trans h.linked, hlink.2.trans h.slot⟩

end Holds

/-! ## EVENTs -/

section Events

variable {κ : Type} [DecidableEq κ] {w : World κ} {k : κ} {c : ClientIx}

theorem step_acts {a : WorldStep κ} (hk : a.breaks k = false) :
    (worldStep w a).1.server = (run act w.server (served w a)).1 := by
  apply (step_server w _).1
  rintro cid rfl
  cases hk

/-- The server's sends get through. -/
theorem served_delivers {a : WorldStep κ} (ha : w.Keeps k a) {b : Act} (hb : b ∈ served w a) :
    b.fails (w.peers k).slot = false := by
  have hdel := ha.delivers
  cases a with
  | call | announce | receive | lose | restart => cases hb
  | other a =>
    rw [List.mem_singleton.mp hb]
    exact hdel
  | connect j fd fd' addr =>
    simp only [served] at hb
    split at hb
    · rw [List.mem_singleton.mp hb]
      rfl
    · cases hb
  | serve j env =>
    simp only [served] at hb
    split at hb
    · obtain ⟨p, _, rfl⟩ := Option.map_eq_some_iff.mp (Option.mem_toList.mp hb)
      exact hdel
    · cases hb
  | drop j =>
    simp only [served] at hb
    split at hb
    · rw [List.mem_singleton.mp hb]
      rfl
    · cases hb

/-- What the client hears of a step is what the server sends in it. -/
theorem heard_served (h : w.Holds k c) {a : WorldStep κ} (ha : w.Keeps k a) :
    heard k w a = sentTo c (run act w.server (served w a)).2 := by
  rw [heard, h.linked, ha.lasts, h.slot]
  rcases served_cases w a with hnone | ⟨b, hb⟩
  · rw [hnone]
    rfl
  · have hthrough := served_delivers ha (b := b) (by simp [hb])
    rw [h.slot] at hthrough
    rw [hb]
    simp only [run, List.append_nil, sentTo_linkAct_of_delivers hthrough]
    rfl

/-- What the client hears is what the acts of the server send to its slot. -/
theorem heard_acts (h : w.Holds k c) (as : List (WorldStep κ)) (hal : Along worldStep (World.Keeps k) w as) :
    gather worldStep (heard k) w as = sentTo c (run act w.server (gather worldStep served w as)).2 := by
  induction as generalizing w with
  | nil => rfl
  | cons a as ih =>
    rw [gather, gather, ih (h.step hal.1) hal.2, heard_served h hal.1, step_acts hal.1.lasts, run_append, sentTo_append]

theorem acts_fit (h : w.Holds k c) (as : List (WorldStep κ)) (hal : Along worldStep (World.Keeps k) w as) :
    ∀ b ∈ gather worldStep served w as, b.fits := by
  induction as generalizing w with
  | nil => exact fun b hb => absurd hb List.not_mem_nil
  | cons a as ih =>
    intro b hb
    rcases List.mem_append.mp hb with hb | hb
    · exact (served_allowed h.inv hal.1.proper.1 hb).2
    · exact ih (h.step hal.1) hal.2 b hb

theorem start_holds {clients : κ → Connect} {cid : List UInt8} {pre : List (WorldStep κ)}
    (hpre : Along worldStep World.proper (.start clients cid) pre)
    (hw : w = (run worldStep (.start clients cid) pre).1) (hup : (w.peers k).linked = true) :
    w.Holds k (w.peers k).slot := by
  refine ⟨?_, hup, rfl⟩
  rw [hw]
  exact run_invariant (fun w a h ha => h.step a ha.1) pre _ (World.Inv.start clients cid) hpre

/-- **Exactly once.** While a connection lasts and no send on it fails, the EVENTs its client has processed and those
on their way to it are what its slot is owed: one for every accepted write to an event it is subscribed to at that
moment, its own writes only with ECHO, in order. -/
theorem exactly_once (clients : κ → Connect) (cid : List UInt8) (pre as : List (WorldStep κ))
    (hpre : Along worldStep World.proper (.start clients cid) pre) (w : World κ)
    (hw : w = (run worldStep (.start clients cid) pre).1) (k : κ) (hup : (w.peers k).linked = true)
    (hnew : (w.peers k).toClient = []) (hal : Along worldStep (World.Keeps k) w as) (log : List Change)
    (hlog : Tracked w.server log) :
    ((processedBy k (run worldStep w as).2 ++ hearing k (run worldStep w as).1).filterMap Packet.delivery) =
      expected (w.peers k).slot w.server log (gather worldStep served w as) := by
  have hholds := start_holds hpre hw hup
  have hstep : ∀ (v : World κ) a, v.Holds k (w.peers k).slot → v.Keeps k a →
      (worldStep v a).1.Holds k (w.peers k).slot := fun v a h ha => h.step ha
  have hall := run_conveys (fun _ _ => processedBy_append) rfl hstep (fun v a h ha => step_conveys h.inv ha.lasts) w
    hholds as hal
  rw [hall, hearing, hnew, List.nil_append, heard_acts hholds as hal, ← deliveries_eq]
  exact run_deliveries _ _ (acts_fit hholds as hal) _ _ hlog

/-- The first client is owed the write of the second. -/
theorem pair_exactly_once : ∃ log, Tracked (run worldStep pairStart subscribeSteps).1.server log ∧
    (processedBy false (run worldStep (run worldStep pairStart subscribeSteps).1 writeSteps).2 ++
        hearing false (run worldStep (run worldStep pairStart subscribeSteps).1 writeSteps).1).filterMap
        Packet.delivery =
      expected 0 (run worldStep pairStart subscribeSteps).1.server log
        (gather worldStep served (run worldStep pairStart subscribeSteps).1 writeSteps) := by
  have hpre : Along worldStep World.proper pairStart subscribeSteps :=
    ⟨⟨trivial, trivial⟩, ⟨trivial, trivial⟩, ⟨trivial, trivial⟩, trivial⟩
  have hup : ((run worldStep pairStart subscribeSteps).1.peers false).linked = true := by decide +kernel
  obtain ⟨log, hlog⟩ := (start_holds hpre rfl hup).inv.tracked
  refine ⟨log, hlog, ?_⟩
  apply exactly_once _ _ subscribeSteps writeSteps hpre _ rfl false hup (by decide +kernel) _ log hlog
  exact ⟨⟨⟨trivial, trivial⟩, rfl, trivial⟩,
    ⟨⟨(by decide : (idstr [97]).good), (by decide : WriteCopies typeVarString (some [7, 8]) 2)⟩, rfl, fun _ => rfl⟩,
    ⟨⟨trivial, trivial⟩, rfl, rfl⟩, ⟨⟨trivial, trivial⟩, rfl, fun _ => rfl⟩, trivial⟩

end Events

/-! ## READs -/

section Reads

variable {κ : Type} [DecidableEq κ] {w : World κ} {k : κ} {c : ClientIx}

/-- The READs of a client under way: the replies on their way to it, then the requests on their way from it. -/
def inquiries (k : κ) (w : World κ) : List Id :=
  (hearing k w).filterMap Packet.reading ++ (w.peers k).toServer.filterMap Packet.reading

/-- The events of the READ replies a client processed. -/
def repliesTo (k : κ) (os : List (WorldObs κ)) : List Id := (processedBy k os).filterMap Packet.reading

/-- The events of its requests. -/
def readsBy (k : κ) (os : List (WorldObs κ)) : List Id := (sentBy k os).filterMap Packet.reading

theorem repliesTo_append (os os' : List (WorldObs κ)) :
    repliesTo k (os ++ os') = repliesTo k os ++ repliesTo k os' := by
  rw [repliesTo, processedBy_append, List.filterMap_append]
  rfl

theorem readsBy_append (os os' : List (WorldObs κ)) : readsBy k (os ++ os') = readsBy k os ++ readsBy k os' := by
  rw [readsBy, sentBy_append, List.filterMap_append]
  rfl

theorem clientActs_sentBy (j : κ) (a : ClientAct) :
    sentBy k (w.clientActs j a).2 = if j = k then (w.peers j).sends a else [] := by
  rw [World.clientActs, sentBy_append, sentBy_sent, sentBy_client, List.append_nil]

@[simp] theorem readsBy_wrote (who : Option κ) (ds : List Delivery) : readsBy k (ds.map (.wrote who)) = [] := by
  simp [readsBy, sentBy]

/-- What a client sends goes on its connection, if that does not fail. -/
theorem clientActs_asks (hup : (w.peers k).linked = true) (j : κ) (a : ClientAct) (hsends : j = k → a.fails = false) :
    ((w.clientActs j a).1.peers k).toServer.filterMap Packet.reading =
      (w.peers k).toServer.filterMap Packet.reading ++ readsBy k (w.clientActs j a).2 := by
  rw [readsBy, clientActs_sentBy, World.clientActs]
  by_cases hk : j = k
  · subst hk
    have hputs : ((w.peers j).linked && !a.fails) = true := by rw [hup, hsends rfl]; rfl
    rw [setPeer_same, if_pos rfl, Peer.act, if_pos hputs, List.filterMap_append]
  · rw [setPeer_other (Ne.symm hk), if_neg hk, List.filterMap_nil, List.append_nil]

/-- What a step answers: the READ request it serves, with the value the server has then. -/
def answers (k : κ) (w : World κ) : WorldStep κ → List (Id × List UInt8)
  | .serve j _ =>
    if j = k then
      (((w.peers k).toServer.head?.bind Packet.reading).map fun id => (id, w.server.valueOf id)).toList
    else []
  | _ => []

/-- An act of the server that is none of the client's answers nothing of its. -/
theorem heard_left (h : w.Holds k c) {a : WorldStep κ} {b : Act} (hb : served w a = [b]) (hs : b.leaves c) :
    (heard k w a).filterMap Packet.reply = [] := by
  rw [heard, hb, h.slot]
  split
  · simp only [run, List.append_nil]
    have hall := left_replies h.inv.tableInv h.inv.within (by rw [← h.slot]; exact h.inv.held k h.linked) hs
    exact List.sublist_nil.mp (hall ▸ sentTo_linkAct_sublist.filterMap _)
  · rfl

/-- **What a step answers** is the request it serves. -/
theorem heard_answers (h : w.Holds k c) {a : WorldStep κ} (ha : w.Keeps k a) :
    (heard k w a).filterMap Packet.reply = answers k w a := by
  have hother : ∀ j, j ≠ k → (w.peers j).linked = true → (w.peers j).slot ≠ c := by
    intro j hjk hl hs
    rw [← h.slot] at hs
    exact hjk (h.inv.apart j k hl h.linked hs)
  have hquiet : ∀ {a : WorldStep κ}, served w a = [] → (heard k w a).filterMap Packet.reply = [] := by
    intro a hserved
    rw [heard_nil hserved]
    rfl
  have hk := ha.lasts
  cases a with
  | call | announce | receive | lose => exact hquiet rfl
  | connect j fd fd' addr =>
    rcases served_cases w (.connect j fd fd' addr) with hnone | ⟨b, hb⟩
    · exact hquiet hnone
    · have hacc : b = .accept (some (fd', addr)) := by
        simp only [served] at hb
        split at hb
        · cases hb
          rfl
        · cases hb
      exact heard_left h hb (Or.inl (by rw [hacc]; trivial))
  | serve j env =>
    by_cases hl : (w.peers j).linked = true
    · cases hq : (w.peers j).toServer with
      | nil =>
        rw [hquiet (by simp [served, hq])]
        by_cases hjk : j = k
        · rw [answers, if_pos hjk, ← hjk, hq]
          rfl
        · rw [answers, if_neg hjk]
      | cons p ps =>
        have hserved : served w (.serve j env) = [.packet env (w.peers j).slot (p.arrive env.beyond)] := by
          simp [served, hl, hq]
        by_cases hjk : j = k
        · subst hjk
          rw [answers, if_pos rfl, hq, heard_served h ha, hserved, ← h.slot]
          simp only [run, List.append_nil]
          exact (packet_replies h.inv.tableInv h.inv.within _).trans (if_pos rfl)
        · rw [answers, if_neg hjk]
          exact heard_left h hserved (Or.inl (hother j hjk hl))
    · have hjk : j ≠ k := by
        rintro rfl
        exact hl h.linked
      rw [answers, if_neg hjk]
      exact hquiet (by simp [served, hl])
  | drop j =>
    have hjk : j ≠ k := by simpa [WorldStep.breaks] using hk
    by_cases hl : (w.peers j).linked = true
    · exact heard_left h (b := .close (w.peers j).slot) (by simp [served, hl]) (Or.inl (hother j hjk hl))
    · exact hquiet (by simp [served, hl])
  | other b =>
    apply heard_left h (b := b) rfl
    rw [← h.slot]
    exact ha.proper.1.2.2 k h.linked
  | restart cid => cases hk

/-- A request that is served leaves the way to the server. -/
theorem step_asked (h : w.Holds k c) {a : WorldStep κ} (ha : w.Keeps k a) :
    (answers k w a).map Prod.fst ++ ((worldStep w a).1.peers k).toServer.filterMap Packet.reading =
      (w.peers k).toServer.filterMap Packet.reading ++ readsBy k (worldStep w a).2 := by
  have hk := ha.lasts
  have hdel := ha.delivers
  cases a with
  | call j a =>
    rw [worldStep]
    split
    · exact clientActs_asks h.linked j a hdel
    · exact (List.append_nil _).symm
  | announce j env =>
    rw [worldStep]
    split
    · exact clientActs_asks h.linked j _ fun hjk => by simp [ClientAct.fails, hdel hjk]
    · exact (List.append_nil _).symm
  | connect j fd fd' addr =>
    have hjk : j ≠ k := by simpa [WorldStep.breaks] using hk
    simp only [answers, List.map_nil, List.nil_append, worldStep]
    split
    · cases getFreeClient w.server with
      | none => exact (List.append_nil _).symm
      | some i =>
        simp only [setPeer_other hjk.symm, World.act, hear_toServer, readsBy_wrote, List.append_nil]
    · exact (List.append_nil _).symm
  | serve j env =>
    by_cases hl : (w.peers j).linked = true
    · cases hq : (w.peers j).toServer with
      | nil =>
        by_cases hjk : j = k
        · simp only [answers, worldStep, if_pos hl, hq, ← hjk]
          rfl
        · simp only [answers, if_neg hjk, worldStep, if_pos hl, hq]
          exact (List.append_nil _).symm
      | cons p ps =>
        by_cases hjk : j = k
        · subst hjk
          simp only [answers, ↓reduceIte, worldStep, if_pos hl, hq, World.act, hear_toServer, setPeer_same, readsBy_wrote,
            List.head?_cons, Option.bind_some, List.filterMap_cons, List.append_nil]
          cases p.reading <;> rfl
        · simp only [answers, if_neg hjk, worldStep, if_pos hl, hq, World.act, hear_toServer,
            setPeer_other (Ne.symm hjk), readsBy_wrote, List.append_nil]
          rfl
    · have hjk : j ≠ k := by
        rintro rfl
        exact hl h.linked
      simp only [answers, if_neg hjk, worldStep, if_neg hl]
      exact (List.append_nil _).symm
  | receive j env beyond =>
    cases hq : (w.peers j).toClient with
    | nil =>
      simp only [worldStep, hq]
      exact (List.append_nil _).symm
    | cons p ps =>
      have hup : ((w.setPeer j { w.peers j with toClient := ps }).peers k).linked = true := by
        have hlink : ((w.setPeer j { w.peers j with toClient := ps }).peers k).link = (w.peers k).link :=
          setPeer_link (by rfl) k
        exact (congrArg Prod.fst hlink).trans h.linked
      have hsame : ((w.setPeer j { w.peers j with toClient := ps }).peers k).toServer = (w.peers k).toServer := by
        by_cases hjk : k = j
        · rw [hjk, setPeer_same]
        · rw [setPeer_other hjk]
      simp only [answers, List.map_nil, List.nil_append, worldStep, hq]
      rw [clientActs_asks hup _ _ fun hjk => by simp [ClientAct.fails, hdel hjk], hsame]
      rfl
  | drop j =>
    have hjk : j ≠ k := by simpa [WorldStep.breaks] using hk
    simp only [answers, List.map_nil, List.nil_append, worldStep]
    split
    · simp only [World.act, hear_toServer, setPeer_other hjk.symm, readsBy_wrote, List.append_nil]
    · exact (List.append_nil _).symm
  | lose j =>
    have hjk : j ≠ k := by simpa [WorldStep.breaks] using hk
    simp only [answers, List.map_nil, List.nil_append, worldStep, setPeer_other hjk.symm]
    exact (List.append_nil _).symm
  | other b =>
    simp only [answers, List.map_nil, List.nil_append, worldStep, World.act, hear_toServer, readsBy_wrote,
      List.append_nil]
  | restart cid => cases hk

theorem filterMap_reading (ps : List Packet) :
    ps.filterMap Packet.reading = (ps.filterMap Packet.reply).map Prod.fst := by
  rw [List.map_filterMap]
  congr 1
  funext p
  exact reading_eq p

theorem step_reads (h : w.Holds k c) {a : WorldStep κ} (ha : w.Keeps k a) :
    Conveys worldStep (inquiries k) (repliesTo k) w a (readsBy k (worldStep w a).2) := by
  have hconv := congrArg (List.filterMap Packet.reading) (step_conveys h.inv ha.lasts)
  rw [List.filterMap_append, List.filterMap_append, filterMap_reading (heard k w a), heard_answers h ha] at hconv
  rw [Conveys, inquiries, inquiries, repliesTo, ← List.append_assoc, hconv, List.append_assoc, List.append_assoc,
    step_asked h ha]

/-- The answers of a run are gathered from its steps. -/
theorem heard_all_answers (h : w.Holds k c) (as : List (WorldStep κ)) (hal : Along worldStep (World.Keeps k) w as) :
    (gather worldStep (heard k) w as).filterMap Packet.reply = gather worldStep (answers k) w as := by
  induction as generalizing w with
  | nil => rfl
  | cons a as ih =>
    rw [gather, gather, List.filterMap_append, heard_answers h hal.1, ih (h.step hal.1) hal.2]

/-- **READs are answered in order.** While a connection lasts and no send on it fails, the READ replies its client has
processed, the replies on their way and the requests on their way are its requests, in the order in which it made
them. Each reply has the value the server had when it served the request. -/
theorem reads_in_order (clients : κ → Connect) (cid : List UInt8) (pre as : List (WorldStep κ))
    (hpre : Along worldStep World.proper (.start clients cid) pre) (w : World κ)
    (hw : w = (run worldStep (.start clients cid) pre).1) (k : κ) (hup : (w.peers k).linked = true)
    (hnew : (w.peers k).toServer = [] ∧ (w.peers k).toClient = []) (hal : Along worldStep (World.Keeps k) w as) :
    repliesTo k (run worldStep w as).2 ++ inquiries k (run worldStep w as).1 = readsBy k (run worldStep w as).2 ∧
      (processedBy k (run worldStep w as).2 ++ hearing k (run worldStep w as).1).filterMap Packet.reply =
        gather worldStep (answers k) w as := by
  have hholds := start_holds hpre hw hup
  have hstep : ∀ (v : World κ) a, v.Holds k (w.peers k).slot → v.Keeps k a →
      (worldStep v a).1.Holds k (w.peers k).slot := fun v a h ha => h.step ha
  constructor
  · have hall := run_conveys repliesTo_append rfl hstep (fun v a h ha => step_reads h ha) w hholds as hal
    have hnone : inquiries k w = [] := by
      rw [inquiries, hearing, hnew.1, hnew.2]
      rfl
    rw [hall, hnone, List.nil_append]
    exact gather_outputs readsBy_append rfl w as
  · have hall := run_conveys (fun _ _ => processedBy_append) rfl hstep (fun v a h ha => step_conveys h.inv ha.lasts) w
      hholds as hal
    rw [hall, hearing, hnew.2, List.nil_append, heard_all_answers hholds as hal]

/-- A client reads the event it subscribed. -/
def readSteps : List (WorldStep Bool) :=
  [.call false (.read .calm 0 [97]), .serve false .calm, .receive false .calm []]

/-- It is answered. -/
theorem pair_reads :
    repliesTo false (run worldStep (run worldStep pairStart subscribeSteps).1 readSteps).2 ++
        inquiries false (run worldStep (run worldStep pairStart subscribeSteps).1 readSteps).1 =
        readsBy false (run worldStep (run worldStep pairStart subscribeSteps).1 readSteps).2 ∧
      repliesTo false (run worldStep (run worldStep pairStart subscribeSteps).1 readSteps).2 = [idstr [97]] := by
  have hpre : Along worldStep World.proper pairStart subscribeSteps :=
    ⟨⟨trivial, trivial⟩, ⟨trivial, trivial⟩, ⟨trivial, trivial⟩, trivial⟩
  have hkeep : Along worldStep (World.Keeps false) (run worldStep pairStart subscribeSteps).1 readSteps :=
    ⟨⟨⟨trivial, trivial⟩, rfl, fun _ => rfl⟩, ⟨⟨trivial, trivial⟩, rfl, rfl⟩, ⟨⟨trivial, trivial⟩, rfl, fun _ => rfl⟩,
      trivial⟩
  exact ⟨(reads_in_order _ _ subscribeSteps readSteps hpre _ rfl false (by decide +kernel) (by decide +kernel)
    hkeep).1, by decide +kernel⟩

end Reads

end SyncScribe
