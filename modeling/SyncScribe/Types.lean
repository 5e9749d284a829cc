import SyncScribe.Lib.Bytes

/-!
The shared data types: `syncs-types.h` and the inline helpers of
`syncs-common.h`.

A `syncs_id` is a union of four 64-bit words and 32 characters; the model keeps
the words and computes the characters. Structures are packed and stored in the
host's byte order, which is little-endian; `Header.encode` and `Header.decode`
follow the field offsets, and `decode_encode` says they agree.
-/

namespace SyncScribe
open Lib.Bytes

/-! ## Constants -/

abbrev eventMaximum : Nat := 256
abbrev clientMaximum : Nat := 64
abbrev channelMaximum : Nat := 32
def variableSizeMaximum : Nat := 0x1ff
def eventDataSizeMaximum : Nat := 0xfff
def variableInfoSizeMaximum : Nat := 32
def clientBufferSize : Nat := 32 * 1024
def packetSizeMask : Nat := 0x0fff
def defaultSyncOffsetMs : Int := 300

def packetMagic : UInt8 := 0x53
def packetMagicData : UInt8 := 0x44
def udpSocketStub : Int := -2
def versionMajor : UInt32 := 2
def versionMinor : UInt32 := 1

def typeMsgMask : UInt32 := 0x0f
def typeSync : UInt32 := 0x0010
def typeEcho : UInt32 := 0x0020
def typeForce : UInt32 := 0x0080
def typeFlagsMask : UInt32 := 0x00f0

def typeVarNotDefined : UInt32 := 0x0000
def typeVarEmpty : UInt32 := 0x0100
def typeVarInt32 : UInt32 := 0x0200
def typeVarInt64 : UInt32 := 0x0300
def typeVarFloat : UInt32 := 0x0400
def typeVarDouble : UInt32 := 0x0500
def typeVarString : UInt32 := 0x0600
def typeVarAny : UInt32 := 0x0f00
def typeVarMask : UInt32 := 0x0f00

def typeChannelMask : UInt32 := 0x0700
def channelAnons : UInt32 := 0x1000
def channelRequest : UInt32 := 0x2000
def channelTicket : UInt32 := 0x3000
def channelMask : UInt32 := 0xf000

def statusLost : UInt32 := 0x10000000

def errorNotfound : UInt64 := 0
def errorNotsupport : UInt64 := 1
def errorUnknownclient : UInt64 := 2
def errorCrypt : UInt64 := 3

/-- The message types, `SYNCS_TYPE_EMPTY` to `SYNCS_TYPE_RESERVED`. -/
inductive Msg
  | empty | clientId | event | write | read | subscribe | unsubscribe | define
  | undefine | eventList | clientList | serverStatus | ack | channel | channelList | reserved
  deriving DecidableEq, Repr

/-- The low four bits of the type word select the message. -/
def Msg.ofWord (type : UInt32) : Msg :=
  match (type &&& typeMsgMask).toNat with
  | 0 => .empty
  | 1 => .clientId
  | 2 => .event
  | 3 => .write
  | 4 => .read
  | 5 => .subscribe
  | 6 => .unsubscribe
  | 7 => .define
  | 8 => .undefine
  | 9 => .eventList
  | 10 => .clientList
  | 11 => .serverStatus
  | 12 => .ack
  | 13 => .channel
  | 14 => .channelList
  | _ => .reserved

def Msg.code : Msg → UInt32
  | .empty => 0x00
  | .clientId => 0x01
  | .event => 0x02
  | .write => 0x03
  | .read => 0x04
  | .subscribe => 0x05
  | .unsubscribe => 0x06
  | .define => 0x07
  | .undefine => 0x08
  | .eventList => 0x09
  | .clientList => 0x0a
  | .serverStatus => 0x0b
  | .ack => 0x0c
  | .channel => 0x0d
  | .channelList => 0x0e
  | .reserved => 0x0f

theorem Msg.ofWord_code (m : Msg) : Msg.ofWord m.code = m := by
  cases m <;> decide

/-! ### Bits of the type word -/

theorem or_and_distrib (a b m : UInt32) : (a ||| b) &&& m = (a &&& m) ||| (b &&& m) := by
  apply UInt32.toBitVec_inj.mp
  simp only [UInt32.toBitVec_and, UInt32.toBitVec_or]
  ext i
  simp [Bool.and_or_distrib_right]

/-- Bits above the mask do not change which message a word names. -/
theorem Msg.ofWord_or (m : Msg) {y : UInt32} (hy : y &&& typeMsgMask = 0) :
    Msg.ofWord (m.code ||| y) = m := by
  have h : (m.code ||| y) &&& typeMsgMask = m.code &&& typeMsgMask := by
    rw [or_and_distrib, hy, UInt32.or_zero]
  conv_rhs => rw [← Msg.ofWord_code m]
  unfold Msg.ofWord
  rw [h]

/-- A value cut to bits disjoint from `m` has none of the bits of `m`. -/
theorem and_and_eq_zero (x : UInt32) {a m : UInt32} (h : a &&& m = 0) : x &&& a &&& m = 0 := by
  rw [UInt32.and_assoc, h, UInt32.and_zero]

/-! ## Identifiers -/

/-- `union syncs_id`, by its words. -/
structure Id where
  i0 : UInt64
  i1 : UInt64
  i2 : UInt64
  i3 : UInt64
  deriving DecidableEq, Repr

/-- The marker `-1` that `id.i[0]` holds in a free slot. -/
def freeMark : UInt64 := 0xffffffffffffffff

/-- The characters `id.c`. -/
def Id.bytes (x : Id) : List UInt8 :=
  leBytes 8 x.i0.toNat ++ leBytes 8 x.i1.toNat ++ leBytes 8 x.i2.toNat ++ leBytes 8 x.i3.toNat

/-- The identifier stored in the first 32 of the given bytes. -/
def Id.ofBytes (b : List UInt8) : Id where
  i0 := UInt64.ofNat (leVal (read b 8))
  i1 := UInt64.ofNat (leVal (read (b.drop 8) 8))
  i2 := UInt64.ofNat (leVal (read (b.drop 16) 8))
  i3 := UInt64.ofNat (leVal (read (b.drop 24) 8))

def Id.zero : Id := ⟨0, 0, 0, 0⟩

/-- The character `id.c[k]`. -/
def Id.c (x : Id) (k : Nat) : UInt8 := x.bytes.getD k 0

/-- The assignment `id.c[k] = b`. -/
def Id.setC (x : Id) (k : Nat) (b : UInt8) : Id := Id.ofBytes (x.bytes.set k b)

/-- The assignment `id.i[0] = -1`. -/
def Id.free (x : Id) : Id := { x with i0 := freeMark }

/-- `syncs_idcmp`: all four words agree. -/
def idcmp (a b : Id) : Bool := a.i0 == b.i0 && a.i1 == b.i1 && a.i2 == b.i2 && a.i3 == b.i3

theorem idcmp_iff {a b : Id} : idcmp a b = true ↔ a = b := by
  cases a
  cases b
  simp [idcmp, and_assoc]

@[simp] theorem Id.length_bytes (x : Id) : x.bytes.length = 32 := by simp [Id.bytes]

theorem word64_roundtrip (w : UInt64) : UInt64.ofNat (leVal (leBytes 8 w.toNat)) = w := by
  rw [leVal_leBytes_of_lt (by have := w.toNat_lt; omega), UInt64.ofNat_toNat]

theorem word32_roundtrip (w : UInt32) : UInt32.ofNat (leVal (leBytes 4 w.toNat)) = w := by
  rw [leVal_leBytes_of_lt (by have := w.toNat_lt; omega), UInt32.ofNat_toNat]

theorem word16_roundtrip (w : UInt16) : UInt16.ofNat (leVal (leBytes 2 w.toNat)) = w := by
  rw [leVal_leBytes_of_lt (by have := w.toNat_lt; omega), UInt16.ofNat_toNat]

/-- Skipping a block that was stored first. -/
theorem drop_append_add {a b : List UInt8} {n : Nat} (k : Nat) (h : a.length = n) :
    (a ++ b).drop (n + k) = b.drop k := by
  rw [← h, List.drop_length_add_append]

theorem Id.ofBytes_bytes (x : Id) (more : List UInt8) : Id.ofBytes (x.bytes ++ more) = x := by
  have h8 : ∀ w : UInt64, (leBytes 8 w.toNat).length = 8 := fun w => length_leBytes _ _
  simp only [Id.ofBytes, Id.bytes, List.append_assoc]
  rw [read_append (h8 _), word64_roundtrip]
  rw [show (8 : Nat) = 8 + 0 from rfl, drop_append_add 0 (h8 _), List.drop_zero,
    read_append (h8 _), word64_roundtrip]
  rw [show (16 : Nat) = 8 + (8 + 0) from rfl, drop_append_add _ (h8 _), drop_append_add _ (h8 _),
    List.drop_zero, read_append (h8 _), word64_roundtrip]
  rw [show (24 : Nat) = 8 + (8 + (8 + 0)) from rfl, drop_append_add _ (h8 _),
    drop_append_add _ (h8 _), drop_append_add _ (h8 _), List.drop_zero, read_append (h8 _),
    word64_roundtrip]

theorem Id.bytes_ofBytes (b : List UInt8) : (Id.ofBytes b).bytes = read b 32 := by
  have hword : ∀ x : List UInt8, leBytes 8 (UInt64.ofNat (leVal (read x 8))).toNat = read x 8 := by
    intro x
    have hlt := leVal_lt (read x 8)
    have hle := leBytes_leVal (read x 8)
    rw [length_read] at hlt hle
    rw [UInt64.toNat_ofNat_of_lt' (by simpa using hlt), hle]
  simp only [Id.ofBytes, Id.bytes, hword]
  rw [show 32 = 8 + 8 + 8 + 8 from rfl, read_add, read_add, read_add]

/-- A character that was stored is read back, and the others stay. -/
theorem Id.c_setC (x : Id) (k j : Nat) (hk : k < 32) (b : UInt8) :
    (x.setC k b).c j = if j = k then b else x.c j := by
  have hbytes : (x.setC k b).bytes = x.bytes.set k b := by
    rw [Id.setC, Id.bytes_ofBytes, read_of_le (by simp), List.take_of_length_le (by simp)]
  rw [Id.c, hbytes, Id.c, List.getD_eq_getElem?_getD, List.getD_eq_getElem?_getD, List.getElem?_set]
  by_cases h : k = j
  · subst h
    simp [hk]
  · simp [h, Ne.symm h]

/-! ### Identifiers from C strings

A C string is given by its bytes; the end of the list, or the first zero in it,
is the terminator. -/

/-- The copying loop of `syncs_idstr`: at most `i` characters before the terminator. -/
def idstrLoop : Nat → List UInt8 → List UInt8
  | 0, _ => []
  | i + 1, b => if b.headD 0 = 0 then [] else b.headD 0 :: idstrLoop i b.tail

/-- `syncs_idstr` -/
def idstr (b : List UInt8) : Id := Id.ofBytes (idstrLoop 31 b)

/-- The comparing loop of `syncs_idcmp_str`, `s` and `b` being what is left to compare. -/
def idcmpStrLoop : Nat → List UInt8 → List UInt8 → Bool
  | 0, s, b => s.headD 0 == b.headD 0
  | i + 1, s, b =>
    if b.headD 0 = 0 then s.headD 0 == b.headD 0
    else if s.headD 0 ≠ b.headD 0 then false
    else idcmpStrLoop i s.tail b.tail

/-- `syncs_idcmp_str` -/
def idcmpStr (a : Id) (b : List UInt8) : Bool := idcmpStrLoop 31 a.bytes b

/-- `syncs_get_size_by_type` -/
def getSizeByType (type : UInt32) : UInt32 :=
  if type &&& typeVarMask = typeVarFloat ∨ type &&& typeVarMask = typeVarInt32 then 4
  else if type &&& typeVarMask = typeVarDouble ∨ type &&& typeVarMask = typeVarInt64 then 8
  else 0

/-- The sizes considered survive the narrowing to the header's field. -/
theorem toUInt16_toNat {x : UInt32} (h : x.toNat ≤ variableSizeMaximum) : x.toUInt16.toNat = x.toNat := by
  simp only [variableSizeMaximum] at h
  rw [UInt32.toNat_toUInt16]
  omega

/-! ## Packets -/

structure Syncdata where
  data0 : UInt32
  data1 : UInt32
  deriving DecidableEq, Repr

/-- `struct syncs_header`, packed: 60 bytes. -/
structure Header where
  magic : UInt8
  crc : UInt32
  type : UInt32
  id : Id
  sync : Syncdata
  updateCounter : UInt64
  dataSize : UInt16
  magicData : UInt8
  deriving DecidableEq, Repr

def headerSize : Nat := 60

/-- `struct syncs_packet`. For a packet being built, `buffer` is its array; for
a packet being processed, the memory that follows the header. -/
structure Packet where
  header : Header
  buffer : List UInt8
  deriving DecidableEq, Repr

def Header.msg (h : Header) : Msg := Msg.ofWord h.type

def Header.encode (h : Header) : List UInt8 :=
  [h.magic] ++ leBytes 4 h.crc.toNat ++ leBytes 4 h.type.toNat ++ h.id.bytes ++
    leBytes 4 h.sync.data0.toNat ++ leBytes 4 h.sync.data1.toNat ++
    leBytes 8 h.updateCounter.toNat ++ leBytes 2 h.dataSize.toNat ++ [h.magicData]

/-- The field of `n` bytes at offset `off`. -/
def field (b : List UInt8) (off n : Nat) : Nat := leVal (read (b.drop off) n)

def Header.decode (b : List UInt8) : Header where
  magic := UInt8.ofNat (field b 0 1)
  crc := UInt32.ofNat (field b 1 4)
  type := UInt32.ofNat (field b 5 4)
  id := Id.ofBytes (b.drop 9)
  sync := ⟨UInt32.ofNat (field b 41 4), UInt32.ofNat (field b 45 4)⟩
  updateCounter := UInt64.ofNat (field b 49 8)
  dataSize := UInt16.ofNat (field b 57 2)
  magicData := UInt8.ofNat (field b 59 1)

@[simp] theorem Header.length_encode (h : Header) : h.encode.length = headerSize := by
  simp [Header.encode, headerSize]

theorem field_append {a b : List UInt8} {n : Nat} (h : a.length = n) : field (a ++ b) 0 n = leVal a := by
  rw [field, List.drop_zero, read_append h]

theorem field_skip {a b : List UInt8} {m : Nat} (off n : Nat) (h : a.length = m) :
    field (a ++ b) (m + off) n = field b off n := by
  rw [field, drop_append_add off h, field]

/-- **Decoding undoes encoding**, whatever follows the header. -/
theorem decode_encode (h : Header) (more : List UInt8) : Header.decode (h.encode ++ more) = h := by
  have h4 : ∀ w : UInt32, (leBytes 4 w.toNat).length = 4 := fun w => length_leBytes _ _
  have h8 : (leBytes 8 h.updateCounter.toNat).length = 8 := length_leBytes _ _
  have h2 : (leBytes 2 h.dataSize.toNat).length = 2 := length_leBytes _ _
  have h1 : ∀ m : UInt8, ([m] : List UInt8).length = 1 := fun _ => rfl
  have hi := h.id.length_bytes
  have hb : ∀ m : UInt8, UInt8.ofNat (leVal [m]) = m := by
    intro m
    simp [leVal]
  simp only [Header.decode, Header.encode, List.append_assoc]
  rw [field_append (h1 _), hb]
  rw [show (1 : Nat) = 1 + 0 from rfl, field_skip _ _ (h1 _), field_append (h4 _), word32_roundtrip]
  rw [show (5 : Nat) = 1 + (4 + 0) from rfl, field_skip _ _ (h1 _), field_skip _ _ (h4 _),
    field_append (h4 _), word32_roundtrip]
  rw [show (9 : Nat) = 1 + (4 + (4 + 0)) from rfl, drop_append_add _ (h1 _), drop_append_add _ (h4 _),
    drop_append_add _ (h4 _), List.drop_zero, Id.ofBytes_bytes]
  rw [show (41 : Nat) = 1 + (4 + (4 + (32 + 0))) from rfl, field_skip _ _ (h1 _),
    field_skip _ _ (h4 _), field_skip _ _ (h4 _), field_skip _ _ hi, field_append (h4 _),
    word32_roundtrip]
  rw [show (45 : Nat) = 1 + (4 + (4 + (32 + (4 + 0)))) from rfl, field_skip _ _ (h1 _),
    field_skip _ _ (h4 _), field_skip _ _ (h4 _), field_skip _ _ hi, field_skip _ _ (h4 _),
    field_append (h4 _), word32_roundtrip]
  rw [show (49 : Nat) = 1 + (4 + (4 + (32 + (4 + (4 + 0))))) from rfl, field_skip _ _ (h1 _),
    field_skip _ _ (h4 _), field_skip _ _ (h4 _), field_skip _ _ hi, field_skip _ _ (h4 _),
    field_skip _ _ (h4 _), field_append h8, word64_roundtrip]
  rw [show (57 : Nat) = 1 + (4 + (4 + (32 + (4 + (4 + (8 + 0)))))) from rfl, field_skip _ _ (h1 _),
    field_skip _ _ (h4 _), field_skip _ _ (h4 _), field_skip _ _ hi, field_skip _ _ (h4 _),
    field_skip _ _ (h4 _), field_skip _ _ h8, field_append h2, word16_roundtrip]
  rw [show (59 : Nat) = 1 + (4 + (4 + (32 + (4 + (4 + (8 + (2 + 0))))))) from rfl,
    field_skip _ _ (h1 _), field_skip _ _ (h4 _), field_skip _ _ (h4 _), field_skip _ _ hi,
    field_skip _ _ (h4 _), field_skip _ _ (h4 _), field_skip _ _ h8, field_skip _ _ h2,
    field_append (h1 _), hb]

/-- The length `SYNCS_PACKET_SIZE` gives: the header and the low twelve bits of `data_size`. -/
def Packet.size (p : Packet) : Nat := headerSize + (p.header.dataSize.toNat &&& packetSizeMask)

/-- The payload of a packet: the `data_size` bytes behind its header. -/
def Packet.payload (p : Packet) : List UInt8 := read p.buffer p.header.dataSize.toNat

/-- A received packet as far as its own frame goes. -/
def Packet.frame (p : Packet) : Packet := ⟨p.header, p.payload⟩

/-- A packet with the given type word, identifier and payload, its other fields zero. -/
def Packet.make (type : UInt32) (id : Id) (payload : List UInt8) : Packet :=
  ⟨⟨packetMagic, 0, type, id, ⟨0, 0⟩, 0, UInt16.ofNat payload.length, packetMagicData⟩, payload⟩

/-! ### Filling headers -/

/-- `syncs_fill_basic_header` -/
def Header.fillBasic (h : Header) (type : UInt32) : Header :=
  { h with magic := packetMagic, magicData := packetMagicData, type := type }

/-- `syncs_fill_basic_header_request` -/
def Header.fillBasicRequest (h : Header) (type : UInt32) : Header :=
  { h.fillBasic type with dataSize := 0 }

/-- `syncs_fill_header`; `syncs_fill_header_str` is the same on `idstr` of the string. -/
def Header.fill (h : Header) (id : Id) (type : UInt32) : Header :=
  { h.fillBasic type with id := id }

/-- `syncs_fill_header_request_id`; `syncs_fill_header_request_str` is the same on
`idstr` of the string. -/
def Header.fillRequest (h : Header) (id : Id) (type : UInt32) : Header :=
  { h.fillBasicRequest type with id := id }

/-! ## Records carried as payloads -/

/-- `struct syncs_channel_ticket`, packed: 10 bytes. -/
structure Ticket where
  ip : UInt32
  port : UInt16
  flags : UInt32
  deriving DecidableEq, Repr

def ticketSize : Nat := 10

def Ticket.encode (t : Ticket) : List UInt8 :=
  leBytes 4 t.ip.toNat ++ leBytes 2 t.port.toNat ++ leBytes 4 t.flags.toNat

def Ticket.decode (b : List UInt8) : Ticket :=
  ⟨UInt32.ofNat (field b 0 4), UInt16.ofNat (field b 4 2), UInt32.ofNat (field b 6 4)⟩

@[simp] theorem Ticket.length_encode (t : Ticket) : t.encode.length = ticketSize := by
  simp [Ticket.encode, ticketSize]

theorem Ticket.decode_encode (t : Ticket) (more : List UInt8) : Ticket.decode (t.encode ++ more) = t := by
  have h4 : ∀ w : UInt32, (leBytes 4 w.toNat).length = 4 := fun w => length_leBytes _ _
  have h2 : (leBytes 2 t.port.toNat).length = 2 := length_leBytes _ _
  simp only [Ticket.decode, Ticket.encode, List.append_assoc]
  rw [field_append (h4 _), word32_roundtrip]
  rw [show (4 : Nat) = 4 + 0 from rfl, field_skip _ _ (h4 _), field_append h2, word16_roundtrip]
  rw [show (6 : Nat) = 4 + (2 + 0) from rfl, field_skip _ _ (h4 _), field_skip _ _ h2, field_append (h4 _),
    word32_roundtrip]

end SyncScribe
