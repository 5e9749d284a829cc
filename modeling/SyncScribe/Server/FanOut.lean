import SyncScribe.Server.Subscriptions
import SyncScribe.Server.Output

/-!
Ordered fan-out. The EVENT packets handed to a client over a run are the
accepted writes to the events it was subscribed to, in order and once each
(`ordered_fan_out`). The recipients of one write are the consumers of its event
(`sendEvent_out`), and these are the subscribers (`Tracked`).
-/

namespace SyncScribe
open Lib Lib.Bytes Lib.Slots Lib.Keyed

/-! ## What arrives -/

/-- An EVENT as its recipient sees it. -/
structure Delivery where
  id : Id
  type : UInt32
  payload : List UInt8
  deriving DecidableEq, Repr

/-- The EVENT packets without the LOST bit given to `syncs_client_send` for `c`. -/
def Out.delivery (c : ClientIx) : Out → Option Delivery
  | .send c' p =>
    if c' = c ∧ p.header.msg = .event ∧ p.header.type &&& statusLost = 0 then
      some ⟨p.header.id, p.header.type, p.payload⟩
    else none
  | _ => none

def deliveries (c : ClientIx) (out : List Out) : List Delivery := out.filterMap (Out.delivery c)

/-! ## What was written -/

/-- An accepted write; `writer` is `none` for the server's own. -/
structure Write where
  id : Id
  writer : Option ClientIx
  flags : UInt32
  payload : List UInt8

def writeOf : Change → Option Write
  | .edit id _ (.write c flags data size) => some ⟨id, some c, flags, read data size.toNat⟩
  | .edit id _ (.serverWrite flags data size) =>
    some ⟨id, none, flags, read data (serverWriteSize flags size).toNat⟩
  | _ => none

/-- `c` is not the writer, or asked for its own writes. -/
def Write.reaches (w : Write) (c : ClientIx) : Bool := !(w.writer == some c && w.flags &&& typeEcho == 0)

/-- EVENT, the type of the event, and SYNC when asked for. -/
def Write.type (w : Write) (t : Table) : UInt32 :=
  let type := Msg.event.code ||| ((look t w.id).map Event.dataType).getD 0
  if w.flags &&& typeSync ≠ 0 then type ||| typeSync else type

/-- What a write owes to `c`: one EVENT if `c` is subscribed and not left out. -/
def Write.owed (w : Write) (c : ClientIx) (log : List Change) (t : Table) : List Delivery :=
  if Subscribed log c w.id ∧ w.reaches c = true then [⟨w.id, w.type t, w.payload⟩] else []

/-- What one act owes to `c`, given the changes before it. -/
def owed (c : ClientIx) (s : Server) (log : List Change) (a : Act) : List Delivery :=
  match writeOf (changeOf s a) with
  | some w => w.owed c log (act s a).1.events
  | none => []

/-- What a run owes to `c`: its accepted writes to the events `c` is subscribed to, in order. -/
def expected (c : ClientIx) : Server → List Change → List Act → List Delivery
  | _, _, [] => []
  | s, log, a :: as => owed c s log a ++ expected c (act s a).1 (log ++ [changeOf s a]) as

/-- The writes considered: an identifier that cannot be taken for a free slot, and at most 511 bytes. -/
def Act.fits : Act → Prop
  | .packet _ _ p | .datagram _ _ p =>
    p.header.msg = .write → p.header.id.good ∧ p.header.dataSize.toNat ≤ variableSizeMaximum
  | .serverWrite _ flags cid _ size =>
    (idstr cid).good ∧ (serverWriteSize flags size).toNat ≤ variableSizeMaximum
  | _ => True

instance : DecidablePred Act.fits
  | .packet _ _ p | .datagram _ _ p =>
    inferInstanceAs (Decidable
      (p.header.msg = .write → p.header.id.good ∧ p.header.dataSize.toNat ≤ variableSizeMaximum))
  | .serverWrite _ flags cid _ size =>
    inferInstanceAs (Decidable
      ((idstr cid).good ∧ (serverWriteSize flags size).toNat ≤ variableSizeMaximum))
  | .accept _ | .close _ | .keep _ _ | .serverDefine .. | .serverUndefine _
  | .serverSubscribeEvent .. | .serverUnsubscribeEvent _ | .setSyncOffset _ =>
    inferInstanceAs (Decidable True)

/-! ## One write -/

section Sending

variable {env : Env} {s s' : Server} {c c' : ClientIx} {e : EventIx} {id : Id} {flags : UInt32}

theorem deliveries_append (out out' : List Out) :
    deliveries c (out ++ out') = deliveries c out ++ deliveries c out' :=
  List.filterMap_append

/-- A packet sent once to each of some clients. -/
theorem deliveries_map_send {p : Packet} (hm : p.header.msg = .event)
    (hl : p.header.type &&& statusLost = 0) {cs : List ClientIx} (hnd : cs.Nodup) :
    deliveries c (cs.map fun c => .send c p) =
      if c ∈ cs then [⟨p.header.id, p.header.type, p.payload⟩] else [] := by
  induction cs with
  | nil => rfl
  | cons a cs ih =>
    obtain ⟨hna, hnd⟩ := List.nodup_cons.mp hnd
    have hcons : deliveries c ((a :: cs).map fun c => .send c p) =
        (Out.delivery c (.send a p)).toList ++ deliveries c (cs.map fun c => .send c p) := by
      simp only [deliveries, List.map_cons, List.filterMap_cons]
      cases Out.delivery c (.send a p) <;> rfl
    rw [hcons, ih hnd]
    by_cases hc : a = c
    · subst hc
      simp [Out.delivery, hm, hl, hna]
    · simp [Out.delivery, hc, Ne.symm hc]

theorem eventPacket_type (env : Env) (s : Server) (ev : Event) (flags : UInt32) :
    (eventPacket env s ev flags).header.type =
      if flags &&& typeSync ≠ 0 then Msg.event.code ||| ev.dataType ||| typeSync
      else Msg.event.code ||| ev.dataType := by
  simp only [eventPacket]
  split <;> rfl

theorem eventPacket_id (env : Env) (s : Server) (ev : Event) (flags : UInt32) :
    (eventPacket env s ev flags).header.id = ev.id := by
  simp only [eventPacket]
  split <;> rfl

theorem eventPacket_dataSize (env : Env) (s : Server) (ev : Event) (flags : UInt32) :
    (eventPacket env s ev flags).header.dataSize = ev.dataSize.toUInt16 := by
  simp only [eventPacket]
  split <;> rfl

/-- Type bits and SYNC lie outside the bits tested here. -/
theorem eventPacket_bits (env : Env) (s : Server) (flags : UInt32) {ev : Event}
    (ht : ev.dataType &&& typeVarMask = ev.dataType) (m : UInt32) (hv : typeVarMask &&& m = 0)
    (hs : typeSync &&& m = 0) :
    (eventPacket env s ev flags).header.type &&& m = Msg.event.code &&& m := by
  have hd : ev.dataType &&& m = 0 := by
    rw [← ht]
    exact and_and_eq_zero _ hv
  rw [eventPacket_type]
  split
  · rw [or_and_distrib, or_and_distrib, hd, hs, UInt32.or_zero, UInt32.or_zero]
  · rw [or_and_distrib, hd, UInt32.or_zero]

theorem eventPacket_msg {ev : Event} (ht : ev.dataType &&& typeVarMask = ev.dataType) :
    (eventPacket env s ev flags).header.msg = .event := by
  have hbits := eventPacket_bits env s flags ht typeMsgMask (by decide) (by decide)
  rw [Header.msg, Msg.ofWord, hbits]
  rfl

theorem eventPacket_payload {ev : Event} (h : ev.dataSize.toNat ≤ variableSizeMaximum) :
    (eventPacket env s ev flags).payload = read ev.data ev.dataSize.toNat := by
  rw [Packet.payload, eventPacket_dataSize, toUInt16_toNat h, eventPacket]
  exact read_write_read _ _ _

/-- **Who receives a write, and what.** -/
theorem deliveries_sendEvent (hslot : SlotInv (s.events e))
    (hsize : (s.events e).dataSize.toNat ≤ variableSizeMaximum) :
    deliveries c (sendEvent env s e flags).2 =
      if Holds (s.events e).consumers c ∧ sendsTo (s.events e) flags c = true then
        [⟨(s.events e).id,
          if flags &&& typeSync ≠ 0 then Msg.event.code ||| (s.events e).dataType ||| typeSync
          else Msg.event.code ||| (s.events e).dataType,
          read (s.events e).data (s.events e).dataSize.toNat⟩]
      else [] := by
  have hnd := (nodup_entries hslot.distinct).filter (sendsTo (s.events e) flags)
  have hlost := eventPacket_bits env s flags hslot.typed statusLost (by decide) (by decide)
  rw [sendEvent_out, deliveries_map_send (eventPacket_msg hslot.typed) (hlost.trans (by decide)) hnd,
    eventPacket_id, eventPacket_type, eventPacket_payload hsize]
  simp only [List.mem_filter, mem_entries]

theorem deliveries_callLocal (ev : Event) : deliveries c (callLocal ev id) = [] := by
  unfold callLocal
  split <;> rfl

theorem masked_flags (flags : UInt32) :
    flags &&& (typeVarMask ||| typeSync ||| typeEcho) &&& typeSync = flags &&& typeSync ∧
      flags &&& (typeVarMask ||| typeSync ||| typeEcho) &&& typeEcho = flags &&& typeEcho := by
  rw [UInt32.and_assoc, UInt32.and_assoc]
  exact ⟨by rw [show (typeVarMask ||| typeSync ||| typeEcho) &&& typeSync = typeSync by decide],
    by rw [show (typeVarMask ||| typeSync ||| typeEcho) &&& typeEcho = typeEcho by decide]⟩

variable {log : List Change} {data : List UInt8} {size : UInt32}

theorem clientWrite_deliveries (hinv : TableInv s.events) (hg : id.good)
    (hsub : Consumes s.events c id ↔ Subscribed log c id) (hsize : size.toNat ≤ variableSizeMaximum)
    (hr : (clientWrite env s c' id flags data size).ret = 0) :
    deliveries c (clientWrite env s c' id flags data size).out =
      (Write.mk id (some c') flags (read data size.toNat)).owed c log
        (clientWrite env s c' id flags data size).server.events := by
  obtain ⟨s', e, ho, _, hserver, hout⟩ := clientWrite_accepted hr
  have hop : Opened s id (Edit.write c' flags data size).freshType s' e :=
    openEvent_spec hinv (typeVarMask_idem flags) ho
  have hev : (writtenServer s' c' e data size).events e = writeStore s' c' (s'.events e) data size := by
    simp [writtenServer]
  have hlook : look (clientWrite env s c' id flags data size).server.events id =
      some (writeStore s' c' (s'.events e) data size) := by
    rw [hserver, (sendEvent_quiet _ _ _ _).events]
    exact hop.look_store hg rfl (writeStore_inv hop.slot)
  have hslot : SlotInv ((writtenServer s' c' e data size).events e) := by
    rw [hev]
    exact writeStore_inv hop.slot
  have hholds : Holds (s'.events e).consumers c ↔ Subscribed log c id :=
    (hop.toOrigin.consumes hg).trans hsub
  rw [hout, deliveries_append, deliveries_callLocal, List.nil_append,
    deliveries_sendEvent hslot (by rw [hev]; exact hsize), hev]
  simp only [Write.owed, Write.type, Write.reaches, hlook, Option.map_some, Option.getD_some,
    (masked_flags flags).1]
  have hreach : sendsTo (writeStore s' c' (s'.events e) data size)
      (flags &&& (typeVarMask ||| typeSync ||| typeEcho)) c =
        !(some c' == some c && flags &&& typeEcho == 0) := by
    simp only [sendsTo, writeStore, (masked_flags flags).2]
    rw [BEq.comm (a := some c)]
  rw [hreach]
  simp only [writeStore, hholds, hop.id_eq, read_write_read]

theorem serverWrite_deliveries {cid : List UInt8} (hinv : TableInv s.events) (hg : (idstr cid).good)
    (hsub : Consumes s.events c (idstr cid) ↔ Subscribed log c (idstr cid))
    (hsize : (serverWriteSize flags size).toNat ≤ variableSizeMaximum)
    (hr : (serverWrite env s flags cid data size).ret = 0) :
    deliveries c (serverWrite env s flags cid data size).out =
      (Write.mk (idstr cid) none flags (read data (serverWriteSize flags size).toNat)).owed c log
        (serverWrite env s flags cid data size).server.events := by
  obtain ⟨s', e, ho, hserver, hout⟩ := serverWrite_accepted hr
  have hop : Opened s (idstr cid) (Edit.serverWrite flags data size).freshType s' e :=
    openEvent_spec hinv zero_and_mask ho
  have hstored : SlotInv (serverWriteStore (s'.events e) data (serverWriteSize flags size)) :=
    serverWriteStore_inv hop.slot
  have hlook : look (serverWrite env s flags cid data size).server.events (idstr cid) =
      some (serverWriteStore (s'.events e) data (serverWriteSize flags size)) := by
    rw [hserver, (sendEvent_quiet _ _ _ _).events]
    exact hop.look_store hg rfl hstored
  have hholds : Holds (s'.events e).consumers c ↔ Subscribed log c (idstr cid) :=
    (hop.toOrigin.consumes hg).trans hsub
  rw [hout, deliveries_sendEvent (by rw [Server.setEvent_same]; exact hstored)
    (by rw [Server.setEvent_same]; exact hsize)]
  simp only [Server.setEvent_same, Write.owed, Write.type, Write.reaches, hlook, Option.map_some,
    Option.getD_some]
  simp only [sendsTo, serverWriteStore, hholds, hop.id_eq, read_write_read]
  simp

/-! ## Everything else that is sent -/

theorem deliveries_send_other {p : Packet} (h : p.header.msg ≠ .event) :
    deliveries c [.send c' p] = [] := by
  simp [deliveries, Out.delivery, h]

theorem deliveries_resend (ev : Event) : deliveries c [.send c' (resendPacket env ev)] = [] := by
  have hlost : (resendPacket env ev).header.type &&& statusLost ≠ 0 := by
    change (Msg.event.code ||| statusLost) &&& statusLost ≠ 0
    decide
  simp [deliveries, Out.delivery, hlost]

theorem deliveries_subscribe (updateCounter : UInt64) :
    deliveries c (clientSubscribe env s c' id flags updateCounter).out = [] := by
  by_cases hr : (clientSubscribe env s c' id flags updateCounter).ret = 0
  · obtain ⟨s', e, _, _, _, hout⟩ := clientSubscribe_accepted hr
    rw [hout]
    split
    · exact deliveries_resend _
    · rfl
  · rw [(clientSubscribe_refused hr).2]
    rfl

theorem readPacket_msg : (readPacket env s id).header.msg = .read := by
  unfold readPacket
  split
  · exact Msg.ofWord_or .read (and_and_eq_zero _ (by decide))
  · exact Msg.ofWord_or .read (by decide)

theorem deliveries_list {n : Nat} {k : ListKind n} (hk : 0 < k.perPacket) (hm : k.msg ≠ .event)
    (sequance : UInt8) : deliveries c (sendList env k s c' sequance).2 = [] := by
  rw [deliveries, List.filterMap_eq_nil_iff]
  intro o ho
  obtain ⟨p, rfl, hp, _⟩ := sendList_out env hk s sequance o ho
  have hmsg : p.header.msg ≠ .event := by
    rw [Header.msg, hp.type, Msg.ofWord_code]
    exact hm
  simp [Out.delivery, hmsg]

theorem deliveries_identify (h : Header) : deliveries c (clientIdentify env s c' h).2 = [] := by
  have hstatus : ∀ code, deliveries c [.send c' (statusPacket env s code)] = [] := by
    intro code
    have hm : (statusPacket env s code).header.msg = .serverStatus := Msg.ofWord_code .serverStatus
    exact deliveries_send_other (by rw [hm]; decide)
  unfold clientIdentify
  split
  · exact hstatus errorNotsupport
  · exact hstatus errorNotfound

theorem deliveries_channel (p : Packet) : deliveries c (clientChannel env s c' p).out = [] := by
  unfold clientChannel
  split
  · dsimp only
    rw [addChannel_out]
    rfl
  · split
    · unfold clientChannelRequest
      dsimp only
      split
      · rfl
      · rename_i k _
        have hm : (ticketPacket env p.header.id (s.channels k)).header.msg = Msg.ofWord channelTicket := rfl
        exact deliveries_send_other (by rw [hm]; decide)
    · rfl

/-! ## Acts -/

theorem writeOf_accepted (k : Edit) (ret : Int) (hk : ∀ created, writeOf (.edit id created k) = none) :
    writeOf (accepted s id ret k) = none :=
  accepted_cases (P := fun ch => writeOf ch = none) ret rfl hk

/-- What a packet hands to `c` is what its write, if it is one, owes. -/
theorem packet_deliveries (hinv : TableInv s.events)
    (hsub : ∀ id, id.good → (Consumes s.events c id ↔ Subscribed log c id)) (p : Packet)
    (hfits : p.header.msg = .write → p.header.id.good ∧ p.header.dataSize.toNat ≤ variableSizeMaximum) :
    deliveries c (clientProcessPacket env s c' p).out =
      match writeOf (packetChange env s c' p) with
      | some w => w.owed c log (clientProcessPacket env s c' p).server.events
      | none => [] := by
  cases hm : p.header.msg
  all_goals simp only [clientProcessPacket, clientDispatch, packetChange, hm, Server.modifyClient_events]
  case write =>
    obtain ⟨hg, hsize⟩ := hfits hm
    by_cases hr : (clientWrite env s c' p.header.id p.header.type p.buffer p.header.dataSize.toUInt32).ret = 0
    · have hsize' : p.header.dataSize.toUInt32.toNat ≤ variableSizeMaximum := by simpa using hsize
      rw [clientWrite_deliveries hinv hg (hsub _ hg) hsize' hr]
      simp only [accepted, hr, ↓reduceIte, writeOf]
    · rw [(clientWrite_refused hr).2]
      simp only [accepted, hr, ↓reduceIte, writeOf]
      rfl
  case subscribe =>
    rw [writeOf_accepted _ _ fun _ => rfl]
    exact deliveries_subscribe _
  case unsubscribe =>
    split
    · rename_i w hw
      split at hw <;> cases hw
    · rfl
  case define =>
    rw [writeOf_accepted _ _ fun _ => rfl]
    rfl
  case clientId =>
    split
    · rename_i w hw
      split at hw <;> cases hw
    · exact deliveries_identify _
  case read => exact deliveries_send_other (by rw [readPacket_msg]; decide)
  case clientList => exact deliveries_list (k := clientKind) (by decide) (by decide) _
  case eventList => exact deliveries_list (k := eventKind) (by decide) (by decide) _
  case channelList => exact deliveries_list (k := channelKind) (by decide) (by decide) _
  case channel => exact deliveries_channel _
  all_goals rfl

/-- **One act hands to `c` what it owes to it.** -/
theorem act_deliveries (hinv : TableInv s.events)
    (hsub : ∀ id, id.good → (Consumes s.events c id ↔ Subscribed log c id)) (a : Act) (hfits : a.fits) :
    deliveries c (act s a).2 = owed c s log a := by
  cases a with
  | packet env c' p => exact packet_deliveries hinv hsub p hfits
  | datagram env addr p =>
    simp only [act, owed, changeOf, uclientProcessPacket]
    cases hu : uclientOf s addr p.header with
    | none =>
      simp only
      split <;> rfl
    | some sc =>
      obtain ⟨s', c'⟩ := sc
      obtain ⟨hev, _, _⟩ := uclientOf_rest hu
      exact packet_deliveries (by rw [hev]; exact hinv) (by rw [hev]; exact hsub) p hfits
  | serverWrite env flags cid data size =>
    obtain ⟨hg, hsize⟩ := hfits
    simp only [act, owed, changeOf]
    by_cases hr : (serverWrite env s flags cid data size).ret = 0
    · rw [serverWrite_deliveries hinv hg (hsub _ hg) hsize hr]
      simp only [accepted, hr, ↓reduceIte, writeOf]
    · rw [(serverWrite_refused hr).2]
      simp only [accepted, hr, ↓reduceIte, writeOf]
      rfl
  | serverDefine cid flags data size =>
    simp only [act, owed, changeOf]
    rw [writeOf_accepted _ _ fun _ => rfl]
    rfl
  | serverSubscribeEvent flags cid cb args =>
    simp only [act, owed, changeOf]
    rw [writeOf_accepted _ _ fun _ => rfl]
    rfl
  | serverUnsubscribeEvent cid =>
    simp only [act, owed, changeOf]
    split
    · rename_i w hw
      split at hw <;> cases hw
    · rfl
  | accept accepted => rfl
  | close c' => rfl
  | keep c' buffer => rfl
  | serverUndefine cid => rfl
  | setSyncOffset ms => rfl

end Sending

/-! ## Runs -/

/-- The invariant of a run: the table is well formed and its consumers are the subscribers. -/
structure Tracked (s : Server) (log : List Change) : Prop where
  inv : TableInv s.events
  agree : ∀ c id, id.good → (Consumes s.events c id ↔ Subscribed log c id)

theorem Tracked.step {s : Server} {log : List Change} (h : Tracked s log) (a : Act) :
    Tracked (act s a).1 (log ++ [changeOf s a]) := by
  refine ⟨(act_change h.inv a).inv, ?_⟩
  intro c id hg
  rw [consumes_change h.inv (act_change h.inv a) hg, h.agree c id hg]
  exact (since_concat log _).symm

theorem tracked_init (cid : List UInt8) : Tracked (serverCreate cid) [] := by
  refine ⟨tableInv_init cid, ?_⟩
  intro c id hg
  simp [Consumes, look_init, Subscribed, not_since_nil]

theorem run_deliveries (c : ClientIx) (as : List Act) (hfits : ∀ a ∈ as, a.fits) (s : Server)
    (log : List Change) (h : Tracked s log) : deliveries c (run act s as).2 = expected c s log as := by
  induction as generalizing s log with
  | nil => rfl
  | cons a as ih =>
    have hhead := act_deliveries (c := c) h.inv (h.agree c) a (hfits a (by simp))
    have htail := ih (fun b hb => hfits b (by simp [hb])) _ _ (h.step a)
    rw [run, deliveries_append, expected, hhead, htail]

/-- **Ordered fan-out, no loss, no duplication.** -/
theorem ordered_fan_out (cid : List UInt8) (as : List Act) (hfits : ∀ a ∈ as, a.fits) (c : ClientIx) :
    deliveries c (run act (serverCreate cid) as).2 = expected c (serverCreate cid) [] as :=
  run_deliveries c as hfits _ _ (tracked_init cid)

/-- A client subscribes to a new event, the server writes to it, and then the client does. -/
def fanOutRun : List Act :=
  [.accept (some (3, ⟨1, 2⟩)),
    .packet .calm 0 (.make (Msg.subscribe.code ||| typeForce ||| typeVarString) (idstr [97]) []),
    .serverWrite .calm typeSync [97] [1, 2, 3] 3,
    .packet .calm 0 (.make (Msg.write.code ||| typeVarString) (idstr [97]) [7])]

/-- The client receives the server's write and not its own. -/
theorem fanOutRun_deliveries : (∀ a ∈ fanOutRun, a.fits) ∧
    deliveries 0 (run act (serverCreate []) fanOutRun).2 = expected 0 (serverCreate []) [] fanOutRun ∧
    expected 0 (serverCreate []) [] fanOutRun =
      [⟨idstr [97], Msg.event.code ||| typeVarString ||| typeSync, [1, 2, 3]⟩] := by
  have hfits : ∀ a ∈ fanOutRun, a.fits := by decide +kernel
  exact ⟨hfits, ordered_fan_out [] fanOutRun hfits 0, by decide +kernel⟩

end SyncScribe
