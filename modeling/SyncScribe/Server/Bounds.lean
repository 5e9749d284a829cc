import SyncScribe.Server.WritePaths
import SyncScribe.Server.Overrun
import SyncScribe.Connection

/-!
The memory of the events. Four operations store a value and its size: WRITE takes
the size from the header, which the receive loops have masked to nine bits, DEFINE
falls back to the size of the type, `syncs_server_define` refuses sizes past the
array, and `syncs_server_write` takes any size. The values stay within their arrays
in every state of a run exactly when no accepted `syncs_server_write` is larger than
the array; the packets built from the events then fit as well.
-/

namespace SyncScribe
open Lib Lib.Bytes Lib.Slots Lib.Keyed

/-- The value is within the array, and no copy has reached past its end. -/
structure Event.Within (ev : Event) : Prop where
  size : ev.dataSize.toNat ≤ variableSizeMaximum
  memory : ev.data.length = variableSizeMaximum

def Server.Within (s : Server) : Prop := ∀ e, (s.events e).Within

/-- An accepted `syncs_server_write` brings no more than the array holds. -/
def Input.bounded (s : Server) : Input → Prop
  | .api (.serverWrite _ flags cid _ size) =>
    serverWriteOpens s flags cid → (serverWriteSize flags size).toNat ≤ variableSizeMaximum
  | _ => True

/-- The same of an act, whose packet has passed the mask. -/
def Act.bounded (s : Server) : Act → Prop
  | .packet _ _ p | .datagram _ _ p => p.header.dataSize.toNat ≤ variableSizeMaximum
  | .serverWrite _ flags cid _ size =>
    serverWriteOpens s flags cid → (serverWriteSize flags size).toNat ≤ variableSizeMaximum
  | _ => True

/-! ## Stores -/

section Stores

variable {env : Env} {s s' : Server} {c : ClientIx} {e : EventIx} {ev ev' : Event} {id : Id}
  {flags dataType size : UInt32} {data : List UInt8}

/-- Copying at most as much as the array holds. -/
theorem length_copy {mem : List UInt8} {n : Nat} (hmem : mem.length = variableSizeMaximum)
    (hn : n ≤ variableSizeMaximum) (src : List UInt8) : (write mem 0 (read src n)).length = variableSizeMaximum := by
  rw [length_write_of_le (by simp [hmem, hn]), hmem]

/-- Copying more makes it longer. -/
theorem length_copy_past (mem src : List UInt8) {n : Nat} (hn : variableSizeMaximum < n) :
    (write mem 0 (read src n)).length ≠ variableSizeMaximum := by
  rw [write_zero, List.length_append, length_read]
  omega

theorem getSizeByType_le (type : UInt32) : (getSizeByType type).toNat ≤ 8 := by
  unfold getSizeByType
  split
  · decide
  · split <;> decide

theorem Event.Within.init (h : ev.Within) (id : Id) (type : UInt32) :
    Event.Within { eventInit ev id with dataType := type } := by
  refine ⟨by simp [eventInit], ?_⟩
  have hlen : (write ev.data 0 [0]).length = ev.data.length := by
    refine length_write_of_le ?_
    rw [h.memory]
    decide
  exact hlen.trans h.memory

theorem Event.Within.consumers (h : ev.Within) (hsame : SameButConsumers ev ev') : ev'.Within := by
  obtain ⟨cs, n, rfl⟩ := hsame
  exact ⟨h.size, h.memory⟩

theorem Event.Within.define (h : ev.Within) (mem : Option (List UInt8)) :
    (addEventStore ev flags mem size).Within := by
  have hsize : (addEventStore ev flags mem size).dataSize.toNat ≤ variableSizeMaximum := by
    simp only [addEventStore]
    split
    · rename_i hfits
      exact Nat.le_of_lt hfits.2
    · exact le_trans (getSizeByType_le flags) (by decide)
  refine ⟨hsize, ?_⟩
  cases mem with
  | none => exact h.memory
  | some d => exact length_copy h.memory hsize d

theorem Event.Within.write (h : ev.Within) (hsize : size.toNat ≤ variableSizeMaximum) :
    (writeStore s c ev data size).Within :=
  ⟨hsize, length_copy h.memory hsize data⟩

theorem Event.Within.serverWrite (h : ev.Within) (hsize : size.toNat ≤ variableSizeMaximum) :
    (serverWriteStore ev data size).Within :=
  ⟨hsize, length_copy h.memory hsize data⟩

/-! ## Calls -/

theorem Server.Within.update (h : s.Within) (hs : s'.events = Function.update s.events e ev) (hev : ev.Within) :
    s'.Within := by
  intro i
  rw [hs]
  exact forall_update h hev i

theorem Server.Within.of_events (h : s.Within) (hs : s'.events = s.events) : s'.Within := by
  intro i
  rw [hs]
  exact h i

theorem Server.Within.opened (h : s.Within) (ho : openEvent s id flags dataType = .ok (s', e)) : s'.Within := by
  rcases openEvent_ok ho with ⟨_, rfl⟩ | ⟨_, _, _, rfl⟩
  · exact h
  · exact h.update rfl ((h e).init id dataType)

theorem Server.Within.subscribe (h : s.Within) (updateCounter : UInt64) :
    (clientSubscribe env s c id flags updateCounter).server.Within := by
  by_cases hr : (clientSubscribe env s c id flags updateCounter).ret = 0
  · obtain ⟨s', e, ho, _⟩ := clientSubscribe_accepted hr
    exact (h.opened ho).update (clientSubscribe_events ho hr) ((h.opened ho e).consumers (addConsumer_same _ c))
  · rw [(clientSubscribe_refused hr).1]
    exact h

theorem Server.Within.unsubscribe (h : s.Within) : (clientUnsubscribe s c id).Within := by
  unfold clientUnsubscribe
  split
  · exact h.update removeClientFromEvent_events ((h _).consumers (dropConsumer_same _ c))
  · exact h

theorem Server.Within.addEvent (h : s.Within) (mem : Option (List UInt8)) :
    (addEvent s id flags mem size).server.Within := by
  unfold SyncScribe.addEvent
  split
  · split
    · exact h
    · exact h.update rfl ((h _).define mem)
  · split
    · exact h
    · rename_i s' e hc
      obtain ⟨_, rfl⟩ := createEvent_some hc
      have hcreated : (createdServer s id e 0).Within := h.update rfl ((h e).init id 0)
      exact hcreated.update rfl ((hcreated e).define mem)

theorem Server.Within.freeEvent (h : s.Within) : (freeEvent s id).Within := by
  unfold SyncScribe.freeEvent
  split
  · exact h.update rfl ⟨(h _).size, (h _).memory⟩
  · exact h

theorem Server.Within.clientWrite (h : s.Within) (hsize : size.toNat ≤ variableSizeMaximum) :
    (clientWrite env s c id flags data size).server.Within := by
  by_cases hr : (SyncScribe.clientWrite env s c id flags data size).ret = 0
  · obtain ⟨s', e, ho, _⟩ := clientWrite_accepted hr
    exact (h.opened ho).update (clientWrite_events ho hr) ((h.opened ho e).write hsize)
  · rw [(clientWrite_refused hr).1]
    exact h

theorem Server.Within.close (h : s.Within) : (closeClientSocket s c).Within := by
  intro i
  rw [closeClientSocket_events]
  exact (h i).consumers (closed_same c _)

theorem serverWrite_events {cid : List UInt8} (ho : openEvent s (idstr cid) flags 0 = .ok (s', e)) :
    (serverWrite env s flags cid data size).server.events =
      Function.update s'.events e (serverWriteStore (s'.events e) data (serverWriteSize flags size)) := by
  simp only [serverWrite, ho]
  rw [(sendEvent_quiet _ _ _ _).events]
  rfl

theorem Server.Within.serverWrite (h : s.Within) {cid : List UInt8}
    (hb : serverWriteOpens s flags cid → (serverWriteSize flags size).toNat ≤ variableSizeMaximum) :
    (serverWrite env s flags cid data size).server.Within := by
  cases ho : openEvent s (idstr cid) flags 0 with
  | error r =>
    simp only [SyncScribe.serverWrite, ho]
    exact h
  | ok r =>
    obtain ⟨s', e⟩ := r
    have hsize := hb (serverWriteOpens_iff.mpr ⟨s', e, ho⟩)
    exact (h.opened ho).update (serverWrite_events ho) ((h.opened ho e).serverWrite hsize)

/-- **A server write past the array** is seen in the memory of its event. -/
theorem not_within_of_serverWrite (env : Env) (data : List UInt8) {cid : List UInt8} (hopens : serverWriteOpens s flags cid)
    (hsize : variableSizeMaximum < (serverWriteSize flags size).toNat) :
    ∃ e, ((serverWrite env s flags cid data size).server.events e).data.length ≠ variableSizeMaximum := by
  obtain ⟨s', e, ho⟩ := serverWriteOpens_iff.mp hopens
  refine ⟨e, ?_⟩
  rw [serverWrite_events ho, Function.update_self]
  exact length_copy_past _ _ hsize

theorem Server.Within.packet (h : s.Within) {p : Packet} (hp : p.header.dataSize.toNat ≤ variableSizeMaximum) :
    (clientProcessPacket env s c p).server.Within := by
  have hsize : p.header.dataSize.toUInt32.toNat ≤ variableSizeMaximum := by rwa [UInt16.toNat_toUInt32]
  have hcount : ∀ {u : Server}, u.Within →
      (u.modifyClient c fun cl => { cl with rxEventCount := cl.rxEventCount + 1 }).Within := fun hu => hu
  have hquiet : ∀ {u : Server}, Quiet s u → u.Within := fun hq => h.of_events hq.events
  cases hm : p.header.msg
  all_goals simp only [clientProcessPacket, clientDispatch, hm]
  case subscribe => exact hcount (h.subscribe _)
  case unsubscribe => exact hcount h.unsubscribe
  case define => exact hcount (h.addEvent none)
  case undefine => exact hcount h.freeEvent
  case write => exact hcount (h.clientWrite hsize)
  case read => exact hcount (hquiet (sendCounted_quiet s c _))
  case clientList => exact hcount (hquiet (sendList_quiet env clientKind s c _))
  case eventList => exact hcount (hquiet (sendList_quiet env eventKind s c _))
  case channelList => exact hcount (hquiet (sendList_quiet env channelKind s c _))
  case channel =>
    have hev : (clientChannel env s c p).server.events = s.events := by rw [clientChannel_frame]
    exact hcount (h.of_events hev)
  case clientId =>
    have hstatus : ∀ code, (sendServerStatus env s c code).1.Within := fun code =>
      hquiet (sendCounted_quiet s c _)
    refine hcount ?_
    intro i
    simp only [clientIdentify, Server.modifyClient_events]
    split
    · exact (hstatus errorNotsupport).close i
    · exact hstatus errorNotfound i
  all_goals exact h

/-- **One act** keeps every value within its array. -/
theorem Server.Within.act (h : s.Within) {a : Act} (ha : a.bounded s) : (act s a).1.Within := by
  cases a with
  | accept accepted => exact h.of_events (addClient_rest accepted).1
  | packet env c p => exact h.packet ha
  | datagram env addr p =>
    simp only [SyncScribe.act, uclientProcessPacket]
    split
    · rename_i s' c hu
      exact (h.of_events (uclientOf_rest hu).1).packet ha
    · split <;> exact h
  | close c => exact h.close
  | keep c buffer => exact h
  | serverWrite env flags cid data size => exact h.serverWrite ha
  | serverDefine cid flags mem size =>
    simp only [SyncScribe.act, serverDefine]
    split
    · exact h
    · exact h.addEvent mem
  | serverUndefine cid => exact h.freeEvent
  | serverSubscribeEvent flags cid cb args =>
    simp only [SyncScribe.act, serverSubscribeEvent]
    split
    · exact h
    · rename_i s' e ho
      exact (h.opened ho).update rfl ⟨(h.opened ho e).size, (h.opened ho e).memory⟩
  | serverUnsubscribeEvent cid =>
    simp only [SyncScribe.act, serverUnsubscribeEvent]
    split
    · exact h.update rfl ⟨(h _).size, (h _).memory⟩
    · exact h
  | setSyncOffset ms => exact h

end Stores

/-! ## Packets built from events -/

/-- The packets the server builds from its events. -/
inductive BuiltFrom (env : Env) (s : Server) : Packet → Prop
  | event (e : EventIx) (flags : UInt32) : BuiltFrom env s (eventPacket env s (s.events e) flags)
  | resend (e : EventIx) : BuiltFrom env s (resendPacket env (s.events e))
  | read (id : Id) : BuiltFrom env s (readPacket env s id)
  | list (c : ClientIx) (sequance : UInt8) (p : Packet)
      (hp : .send c p ∈ (clientSendEventlist env s c sequance).2) : BuiltFrom env s p

/-- Nothing was copied past the end of `struct syncs_packet`, and the receiver's mask keeps the size. -/
structure Packet.Fits (p : Packet) : Prop where
  buffer : p.buffer.length = eventDataSizeMaximum
  size : p.header.masked = p.header

section Packets

variable {env : Env} {s : Server} {n : Nat} {k : ListKind n} {c : ClientIx}

theorem fillEventInfo_length (ev : Event) {buf : List UInt8} {off : Nat} (h : off + 90 ≤ buf.length) :
    (fillEventInfo ev buf off).length = buf.length := by
  have hw : ∀ {b bytes : List UInt8} {o : Nat}, b.length = buf.length → o + bytes.length ≤ off + 90 →
      (write b o bytes).length = buf.length := by
    intro b bytes o hb ho
    rw [length_write_of_le (by omega), hb]
  have hmin : min ev.dataSize.toNat variableInfoSizeMaximum ≤ 32 := Nat.min_le_right _ _
  unfold fillEventInfo
  refine hw (hw (hw (hw (hw (hw (hw rfl ?_) ?_) ?_) ?_) ?_) ?_) ?_
  all_goals simp
  all_goals omega

/-- The entries of a list stay within the buffer of its packet. -/
structure ListRoom (k : ListKind n) (c : ClientIx) (len : Nat) (st : ListState) : Prop where
  count : st.count < k.perPacket
  packet : st.packet.buffer.length = len
  out : ∀ p, .send c p ∈ st.out → p.buffer.length = len

theorem listStep_room {len : Nat} (hlen : variableSizeMaximum ≤ len)
    (hfill : ∀ s i buf off, off + k.entrySize ≤ buf.length → (k.fill s i buf off).length = buf.length)
    {st : ListState} (h : ListRoom k c len st) (i : Fin n) : ListRoom k c len (listStep k c st i) := by
  have hroom : st.count * k.entrySize + k.entrySize ≤ st.packet.buffer.length := by
    have hle : (st.count + 1) * k.entrySize ≤ k.perPacket * k.entrySize := Nat.mul_le_mul_right _ h.count
    have hdiv : k.perPacket * k.entrySize ≤ variableSizeMaximum := Nat.div_mul_le_self _ _
    rw [h.packet]
    rw [Nat.add_mul, Nat.one_mul] at hle
    omega
  have hfilled : (k.fill st.server i st.packet.buffer (st.count * k.entrySize)).length = len :=
    (hfill _ _ _ _ hroom).trans h.packet
  unfold listStep
  split
  · simp only
    split
    · refine ⟨Nat.lt_of_le_of_lt (Nat.zero_le _) h.count, hfilled, ?_⟩
      intro p hp
      simp only [sendCounted, List.mem_append, List.mem_singleton, Out.send.injEq] at hp
      rcases hp with hp | ⟨_, rfl⟩
      · exact h.out p hp
      · exact hfilled
    · rename_i hmore
      exact ⟨Nat.not_le.mp hmore, hfilled, h.out⟩
  · exact h

theorem sendList_buffer (hk : 0 < k.perPacket) (hlen : variableSizeMaximum ≤ env.stack.buffer.length)
    (hfill : ∀ s i buf off, off + k.entrySize ≤ buf.length → (k.fill s i buf off).length = buf.length)
    (sequance : UInt8) {p : Packet} (hp : .send c p ∈ (sendList env k s c sequance).2) :
    p.buffer.length = env.stack.buffer.length := by
  have hloop : ∀ (is : List (Fin n)) (st : ListState), ListRoom k c env.stack.buffer.length st →
      ListRoom k c env.stack.buffer.length (is.foldl (listStep k c) st) := by
    intro is
    induction is with
    | nil => exact fun st h => h
    | cons i is ih => exact fun st h => ih _ (listStep_room hlen hfill h i)
  have h := hloop (List.finRange n) ⟨s, listPacket env k s sequance, 0, []⟩ ⟨hk, rfl, by simp⟩
  simp only [sendList, sendCounted, List.mem_append, List.mem_singleton, Out.send.injEq] at hp
  generalize (List.finRange n).foldl (listStep k c) ⟨s, listPacket env k s sequance, 0, []⟩ = st at h hp
  rcases hp with hp | ⟨_, rfl⟩
  · exact h.out p hp
  · simp only [stampCount]
    exact h.packet

/-- **Packets built from values that are within their arrays fit.** -/
theorem Server.Within.builtFrom (h : s.Within) (henv : env.stack.buffer.length = eventDataSizeMaximum) {p : Packet}
    (hp : BuiltFrom env s p) : p.Fits := by
  have hcopy : ∀ e, (write env.stack.buffer 0 (Lib.Bytes.read (s.events e).data (s.events e).dataSize.toNat)).length =
      eventDataSizeMaximum := by
    intro e
    have hsize := (h e).size
    rw [length_write_of_le ?_, henv]
    rw [length_read, henv]
    simp only [variableSizeMaximum, eventDataSizeMaximum] at hsize ⊢
    omega
  have hmask : ∀ {hd : Header} e, hd.dataSize = (s.events e).dataSize.toUInt16 → hd.masked = hd := by
    intro hd e hd'
    refine masked_eq_of_le ?_
    rw [hd', toUInt16_toNat (h e).size]
    exact (h e).size
  cases hp with
  | event e flags => exact ⟨hcopy e, hmask e (eventPacket_dataSize ..)⟩
  | resend e => exact ⟨hcopy e, hmask e rfl⟩
  | read id =>
    simp only [readPacket]
    split
    · rename_i e _
      exact ⟨hcopy e, hmask e rfl⟩
    · exact ⟨henv, masked_eq_of_le (Nat.zero_le _)⟩
  | list c sequance p hp =>
    have hk : 0 < eventKind.perPacket := by decide
    obtain ⟨q, hq, _, hsize⟩ := sendList_out env hk s sequance _ hp
    cases hq
    refine ⟨?_, masked_eq_of_le hsize⟩
    rw [sendList_buffer hk (by rw [henv]; decide) (fun s i _ _ => fillEventInfo_length (s.events i)) sequance hp, henv]

end Packets

/-! ## Runs -/

/-- What the array of a payload promises: sizes within it, no copy past it, and packets that fit. -/
structure PayloadsWithin (s : Server) : Prop where
  size : ∀ e, (s.events e).live = true → (s.events e).dataSize.toNat ≤ variableSizeMaximum
  memory : ∀ e, (s.events e).data.length = variableSizeMaximum
  packets : ∀ env : Env, env.stack.buffer.length = eventDataSizeMaximum → ∀ p, BuiltFrom env s p → p.Fits

theorem Server.Within.payloads {s : Server} (h : s.Within) : PayloadsWithin s :=
  ⟨fun e _ => (h e).size, fun e => (h e).memory, fun _ henv _ hp => h.builtFrom henv hp⟩

theorem packets_size_le {x : List UInt8} {p : Packet} (h : p ∈ packets x) :
    p.header.dataSize.toNat ≤ variableSizeMaximum := by
  obtain ⟨k, m, hk⟩ := Framer.exists_emit_of_mem (F := packetFramer) h
  obtain ⟨_, _, _, _, rfl⟩ := packetLook_emit_iff.mp hk
  exact masked_size_le _

theorem rawPackets_size_le {x : List UInt8} {p : Packet} (h : p ∈ rawPackets x) :
    p.header.dataSize.toNat ≤ variableSizeMaximum := by
  have hframe : p.frame ∈ packets x := by
    rw [← rawPackets_frames]
    exact List.mem_map_of_mem h
  exact packets_size_le (p := p.frame) hframe

theorem along_packetActs (env : Nat → Env) (c : ClientIx) (last : Act) (hlast : ∀ s, last.bounded s)
    {ps : List Packet} (hps : ∀ p ∈ ps, p.header.dataSize.toNat ≤ variableSizeMaximum) (k : Nat) (s : Server) :
    Along act (fun s a => a.bounded s) s (packetActs env c k ps ++ [last]) := by
  induction ps generalizing k s with
  | nil => exact ⟨hlast s, trivial⟩
  | cons p ps ih => exact ⟨hps p (by simp), ih (fun q hq => hps q (by simp [hq])) _ _⟩

/-- The receive loops mask what they hand on. -/
theorem Input.along_bounded {s : Server} {i : Input} (hi : i.bounded s) :
    Along act (fun s a => a.bounded s) s (i.acts s) := by
  cases i with
  | accept accepted => exact ⟨trivial, trivial⟩
  | tcp env c r =>
    simp only [acts]
    split
    · cases r with
      | again => trivial
      | error => exact ⟨trivial, trivial⟩
      | data bytes =>
        simp only
        split
        · split
          · exact ⟨trivial, trivial⟩
          · trivial
        · refine along_packetActs env c _ ?_ (fun p hp => rawPackets_size_le hp) 0 s
          exact fun _ => trivial
    · trivial
  | udp env addr r =>
    cases r with
    | again => trivial
    | error => trivial
    | data bytes =>
      simp only [acts]
      split
      · trivial
      · exact ⟨masked_size_le _, trivial⟩
  | api a =>
    simp only [acts]
    split
    · refine ⟨?_, trivial⟩
      cases a with
      | serverWrite env flags cid data size => exact hi
      | packet | datagram => contradiction
      | _ => trivial
    · trivial

theorem Server.Within.handleStep {s : Server} (h : s.Within) {i : Input} (hi : i.bounded s) :
    (handleStep s i).1.Within := by
  rw [handle_eq_acts]
  have hstep : ∀ s a, Server.Within s → Act.bounded s a → (SyncScribe.act s a).1.Within :=
    fun _ _ hs ha => hs.act ha
  exact run_invariant hstep _ s h (Input.along_bounded hi)

theorem within_init (cid : List UInt8) : (serverCreate cid).Within := by
  intro e
  exact ⟨by simp [serverCreate, Event.init], by simp [serverCreate, Event.init]⟩

/-- **The stored payloads stay within their arrays** in every state of a run exactly when no
`syncs_server_write` that is accepted brings more than 511 bytes. -/
theorem payloads_within_iff (cid : List UInt8) (is : List Input) :
    (∀ pre post, is = pre ++ post → PayloadsWithin (run handleStep (serverCreate cid) pre).1) ↔
      ∀ pre i post, is = pre ++ i :: post → i.bounded (run handleStep (serverCreate cid) pre).1 := by
  constructor
  · intro h pre i post his
    have hw := h (pre ++ [i]) post (by rw [his, List.append_assoc]; rfl)
    rw [run_concat] at hw
    cases i with
    | api a =>
      cases a with
      | serverWrite env flags cid' data size =>
        intro hopens
        by_contra hsize
        obtain ⟨e, he⟩ := not_within_of_serverWrite env data hopens (Nat.not_le.mp hsize)
        exact he (hw.memory e)
      | _ => trivial
    | _ => trivial
  · intro h pre post his
    suffices hw : (run handleStep (serverCreate cid) pre).1.Within from hw.payloads
    induction pre using List.reverseRecOn generalizing post with
    | nil => exact within_init cid
    | append_singleton pre i ih =>
      have hsplit : is = pre ++ i :: post := by rw [his, List.append_assoc]; rfl
      rw [run_concat]
      exact Server.Within.handleStep (ih _ hsplit) (h pre i post hsplit)

/-- The server's application writes a string of 600 bytes to a new event. -/
def longWrite : List Input :=
  [.api (.serverWrite .calm (typeForce ||| typeVarString) [0x78] (List.replicate 600 0x61) 600)]

theorem longWrite_past_array : ¬ PayloadsWithin (run handleStep (serverCreate []) longWrite).1 := by
  have hopens : serverWriteOpens (serverCreate []) (typeForce ||| typeVarString) [0x78] :=
    Or.inr ⟨by decide, 0, by decide⟩
  have hsize : variableSizeMaximum < (serverWriteSize (typeForce ||| typeVarString) 600).toNat := by decide
  obtain ⟨e, he⟩ := not_within_of_serverWrite .calm (List.replicate 600 0x61) hopens hsize
  intro h
  exact he (h.memory e)

end SyncScribe
