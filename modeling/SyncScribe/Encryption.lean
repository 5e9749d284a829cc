import SyncScribe.Checksum

/-!
The packet encryption of `syncs-crypt.c`, as built with `SYNCS_SECURY_DATA`.

OpenSSL is a parameter (`Evp`); what the code relies on is `Evp.Aes256Cbc`. The
encoder writes the size of the ciphertext and the padding into `data_size` and the
decoder leaves them there: the other fields and the payload come back
(`cryptDecodePacket_encode`), the size never does.
-/

namespace SyncScribe
open Lib Lib.Bytes

/-- `SYNCS_CRYPT_HEADER_SIZE`: from `crc` up to `data_size`. -/
def cryptHeaderSize : Nat := headerSize - 1 - 2 - 1

/-- `SYNCS_CRC_HEADER_SIZE`: from `type` to the end. -/
def crcHeaderSize : Nat := headerSize - 1 - 4

/-- `SYNCS_SET_PACKET_SIZE` -/
def setPacketSize (size pad : Nat) : Nat := (pad <<< 12) ||| (size &&& packetSizeMask)

/-- `calculate_aes256_cbc_ciphertext_length` -/
def calculateAes256CbcCiphertextLength (dataSize : Nat) : Nat := ((dataSize + 1 <<< 4 - 1) >>> 4) <<< 4

/-- The EVP calls on a whole message: key, initialisation vector, input. `none` where one of
them fails. -/
structure Evp where
  encrypt : List UInt8 → List UInt8 → List UInt8 → Option (List UInt8)
  decrypt : List UInt8 → List UInt8 → List UInt8 → Option (List UInt8)

/-- AES-256-CBC with the default padding. -/
structure Evp.Aes256Cbc (evp : Evp) : Prop where
  /-- padded to the next strictly larger multiple of 16 -/
  encrypts : ∀ key iv x, key.length = 32 → iv.length = 16 →
    ∃ y, evp.encrypt key iv x = some y ∧ y.length = (x.length / 16 + 1) * 16
  decrypts : ∀ key iv x y, evp.encrypt key iv x = some y → evp.decrypt key iv y = some x

/-- What a call ends in without a packet. -/
inductive CryptFault
  /-- it returns `NULL` -/
  | null
  /-- it copies a negative number of bytes -/
  | overrun
  deriving DecidableEq, Repr

/-- The key of a pointer: the bytes after the initialisation vector. -/
def encryptionKey (key : List UInt8) : List UInt8 := read (key.drop 16) 32

def initVector (key : List UInt8) : List UInt8 := read key 16

/-- The 56 bytes at `header.crc`. -/
def Header.cryptPart (h : Header) : List UInt8 := read (h.encode.drop 1) cryptHeaderSize

/-- Bytes copied to `header.crc`. -/
def Header.storeCryptPart (h : Header) (bytes : List UInt8) : Header := Header.decode (write h.encode 1 bytes)

/-- `SYNCS_PACKET_DATA_SIZE` of the packet. -/
def Packet.dataSize (p : Packet) : Nat := p.header.dataSize.toNat &&& packetSizeMask

/-- The ciphertext length the encoder expects. -/
def Packet.ciphertextSize (p : Packet) : Nat := calculateAes256CbcCiphertextLength (cryptHeaderSize + p.dataSize)

/-- The `data_size` the encoder sets: the rest of the ciphertext, and the padding. -/
def Packet.cryptDataSize (p : Packet) : UInt16 :=
  let padding := p.ciphertextSize - (cryptHeaderSize + p.dataSize)
  UInt16.ofNat (setPacketSize (p.ciphertextSize - cryptHeaderSize) padding)

/-- The header the encoder encrypts: it has set `data_size` and then `crc`. -/
def Packet.cryptHeader (p : Packet) : Header :=
  let h := { p.header with dataSize := p.cryptDataSize }
  { h with crc := crc32 (h.encode.drop 5 ++ p.buffer) (UInt16.ofNat (crcHeaderSize + p.dataSize)) }

/-- `syncs_crypt_encode_packet`, for payloads that fit the buffer of 4096 bytes. -/
def cryptEncodePacket (evp : Evp) (key : List UInt8) (p : Packet) : Except CryptFault Packet :=
  match evp.encrypt (encryptionKey key) (initVector key) (p.cryptHeader.cryptPart ++ read p.buffer p.dataSize) with
  | none => .error .null
  | some cipher =>
    if cipher.length ≠ p.ciphertextSize then .error .null
    else
      .ok ⟨p.cryptHeader.storeCryptPart (read cipher cryptHeaderSize),
        write p.buffer 0 (cipher.drop cryptHeaderSize)⟩

/-- `syncs_crypt_decode_packet` -/
def cryptDecodePacket (evp : Evp) (key : List UInt8) (p : Packet) : Except CryptFault Packet :=
  match evp.decrypt (encryptionKey key) (initVector key) (p.header.cryptPart ++ read p.buffer p.dataSize) with
  | none => .error .null
  | some plain =>
    if plain.length < cryptHeaderSize then .error .overrun
    else
      .ok ⟨p.header.storeCryptPart (read plain cryptHeaderSize), write p.buffer 0 (plain.drop cryptHeaderSize)⟩

/-! ## Storing into a header -/

theorem leBytes_field (b : List UInt8) (off n : Nat) : leBytes n (field b off n) = read (b.drop off) n := by
  have h := leBytes_leVal (read (b.drop off) n)
  rwa [length_read] at h

theorem field_lt (b : List UInt8) (off n : Nat) : field b off n < 256 ^ n := by
  have h := leVal_lt (read (b.drop off) n)
  rwa [length_read] at h

/-- **Encoding undoes decoding** on 60 bytes. -/
theorem encode_decode {b : List UInt8} (h : b.length = headerSize) : (Header.decode b).encode = b := by
  have h4 : ∀ off, leBytes 4 (UInt32.ofNat (field b off 4)).toNat = read (b.drop off) 4 := by
    intro off
    rw [UInt32.toNat_ofNat_of_lt' (field_lt b off 4), leBytes_field]
  have h8 : leBytes 8 (UInt64.ofNat (field b 49 8)).toNat = read (b.drop 49) 8 := by
    rw [UInt64.toNat_ofNat_of_lt' (field_lt b 49 8), leBytes_field]
  have h2 : leBytes 2 (UInt16.ofNat (field b 57 2)).toNat = read (b.drop 57) 2 := by
    rw [UInt16.toNat_ofNat_of_lt' (field_lt b 57 2), leBytes_field]
  have h1 : ∀ off, [UInt8.ofNat (field b off 1)] = read (b.drop off) 1 := by
    intro off
    rw [← leBytes_field]
    rfl
  have hsplit : b = read b (1 + 4 + 4 + 32 + 4 + 4 + 8 + 2 + 1) := by
    have hread := read_length_self b
    rw [h] at hread
    exact hread.symm
  simp only [Header.encode, Header.decode, h4, h8, h2, h1, Id.bytes_ofBytes]
  conv_rhs => rw [hsplit]
  simp only [read_add, List.drop_zero]

/-- Storing over what was just stored. -/
theorem write_write {b : List UInt8} {off : Nat} {x y : List UInt8} (hlen : x.length = y.length) :
    write (write b off x) off y = write b off y := by
  have hpre : (read b off).length = off := length_read b off
  have htail : (read b off ++ (x ++ b.drop (off + x.length))).drop (off + x.length) = b.drop (off + x.length) := by
    rw [← List.drop_drop, List.drop_left' hpre, List.drop_left]
  simp only [write, List.append_assoc]
  rw [read_append hpre, ← hlen, htail]

/-- Storing what is there. -/
theorem write_slice {b : List UInt8} {off n : Nat} (h : off + n ≤ b.length) : write b off (read (b.drop off) n) = b := by
  rw [write, length_read, ← read_add, read_of_le h, List.take_append_drop]

section Store

variable {h : Header} {x y : List UInt8}

theorem encode_store (hx : x.length = cryptHeaderSize) : (h.storeCryptPart x).encode = write h.encode 1 x := by
  have hlen : 1 + x.length ≤ h.encode.length := by
    rw [hx, Header.length_encode]
    decide
  exact encode_decode (by rw [length_write_of_le hlen, Header.length_encode])

theorem cryptPart_store (hx : x.length = cryptHeaderSize) : (h.storeCryptPart x).cryptPart = x := by
  have hdrop := drop_write h.encode 1 0 x
  rw [Nat.add_zero] at hdrop
  rw [Header.cryptPart, encode_store hx, hdrop, ← hx, read_write_zero]

/-- The bytes stored last are those that count. -/
theorem store_store (hx : x.length = cryptHeaderSize) (hy : y.length = cryptHeaderSize) :
    (h.storeCryptPart x).storeCryptPart y = h.storeCryptPart y := by
  rw [Header.storeCryptPart, encode_store hx, write_write (hx.trans hy.symm),
    ← Header.storeCryptPart]

theorem store_cryptPart : h.storeCryptPart h.cryptPart = h := by
  have hlen : 1 + cryptHeaderSize ≤ h.encode.length := by
    rw [Header.length_encode]
    decide
  have hdecode := decode_encode h []
  rw [List.append_nil] at hdecode
  rw [Header.storeCryptPart, Header.cryptPart, write_slice hlen, hdecode]

/-- The size lies behind the bytes stored. -/
theorem dataSize_store (hx : x.length = cryptHeaderSize) : (h.storeCryptPart x).dataSize = h.dataSize := by
  have hslice : slice (write h.encode 1 x) 57 2 = slice h.encode 57 2 :=
    slice_write_of_disjoint h.encode 1 x (Or.inr (by rw [hx]; decide))
  have hdecode := congrArg Header.dataSize (decode_encode h [])
  rw [List.append_nil] at hdecode
  rw [← hdecode]
  exact congrArg (fun b => UInt16.ofNat (leVal b)) hslice

end Store

/-! ## Sizes -/

theorem ciphertextLength_eq (n : Nat) : calculateAes256CbcCiphertextLength n = (n + 15) / 16 * 16 := by
  simp only [calculateAes256CbcCiphertextLength, Nat.shiftRight_eq_div_pow, Nat.shiftLeft_eq]
  omega

theorem and_packetSizeMask (n : Nat) : n &&& packetSizeMask = n % 4096 := by
  rw [show packetSizeMask = 2 ^ 12 - 1 by decide, Nat.and_two_pow_sub_one_eq_mod]

theorem setPacketSize_eq {size : Nat} (pad : Nat) (h : size < 4096) : setPacketSize size pad = pad * 4096 + size := by
  rw [setPacketSize, and_packetSizeMask, Nat.mod_eq_of_lt h, ← Nat.shiftLeft_add_eq_or_of_lt h, Nat.shiftLeft_eq]

section RoundTrip

variable {evp : Evp} {key : List UInt8} {p q : Packet}

theorem dataSize_eq (h : p.header.dataSize.toNat ≤ variableSizeMaximum) : p.dataSize = p.header.dataSize.toNat := by
  simp only [variableSizeMaximum] at h
  rw [Packet.dataSize, and_packetSizeMask, Nat.mod_eq_of_lt (by omega)]

/-- The length the encoder expects: a multiple of 16, with room for no padding at all. -/
theorem Packet.ciphertextSize_eq (p : Packet) : p.ciphertextSize = (56 + p.dataSize + 15) / 16 * 16 :=
  ciphertextLength_eq _

/-- The padding is in the top bits, what is left of the ciphertext below. -/
theorem cryptDataSize_toNat (h : p.dataSize ≤ variableSizeMaximum) :
    p.cryptDataSize.toNat = (p.ciphertextSize - (56 + p.dataSize)) * 4096 + (p.ciphertextSize - 56) := by
  simp only [variableSizeMaximum] at h
  have hn := p.ciphertextSize_eq
  have hset : p.cryptDataSize =
      UInt16.ofNat (setPacketSize (p.ciphertextSize - 56) (p.ciphertextSize - (56 + p.dataSize))) := rfl
  rw [hset, setPacketSize_eq _ (by omega),
    UInt16.toNat_ofNat_of_lt' (Nat.lt_of_le_of_lt ?_ (by decide : 65535 < 65536))]
  omega

theorem cryptHeader_dataSize (p : Packet) : p.cryptHeader.dataSize = p.cryptDataSize := rfl

/-! ## Encrypting -/

theorem length_cryptInput (p : Packet) :
    (p.cryptHeader.cryptPart ++ read p.buffer p.dataSize).length = 56 + p.dataSize := by
  rw [List.length_append, Header.cryptPart, length_read, length_read]
  rfl

/-- What a returned packet was made from. -/
theorem cryptEncodePacket_ok (hq : cryptEncodePacket evp key p = .ok q) :
    ∃ cipher, evp.encrypt (encryptionKey key) (initVector key)
        (p.cryptHeader.cryptPart ++ read p.buffer p.dataSize) = some cipher ∧
      cipher.length = p.ciphertextSize ∧
      q = ⟨p.cryptHeader.storeCryptPart (read cipher cryptHeaderSize),
        write p.buffer 0 (cipher.drop cryptHeaderSize)⟩ := by
  unfold cryptEncodePacket at hq
  split at hq
  · cases hq
  · rename_i cipher hcipher
    split at hq
    · cases hq
    · rename_i hlen
      cases hq
      exact ⟨cipher, hcipher, not_not.mp hlen, rfl⟩

/-- **The encoder returns a packet** unless the padding would fill a block of its own. -/
theorem cryptEncodePacket_ok_iff (hevp : evp.Aes256Cbc) (key : List UInt8) (p : Packet) :
    (∃ q, cryptEncodePacket evp key p = .ok q) ↔ p.dataSize % 16 ≠ 8 := by
  obtain ⟨cipher, hcipher, hlen⟩ := hevp.encrypts (encryptionKey key) (initVector key)
    (p.cryptHeader.cryptPart ++ read p.buffer p.dataSize) (length_read _ _) (length_read _ _)
  have hn := p.ciphertextSize_eq
  rw [length_cryptInput] at hlen
  constructor
  · rintro ⟨q, hq⟩
    obtain ⟨cipher', hcipher', hlen', -⟩ := cryptEncodePacket_ok hq
    rw [hcipher, Option.some.injEq] at hcipher'
    rw [← hcipher', hlen, hn] at hlen'
    omega
  · intro h
    have hexpected : ¬ cipher.length ≠ p.ciphertextSize := by
      rw [hlen, hn]
      omega
    simp only [cryptEncodePacket, hcipher, if_neg hexpected]
    exact ⟨_, rfl⟩

/-! ## Decrypting -/

/-- **What the decoder gives back**: the header the encoder encrypted, and the payload. -/
theorem cryptDecodePacket_encode (hevp : evp.Aes256Cbc) (hsize : p.dataSize ≤ variableSizeMaximum)
    (hq : cryptEncodePacket evp key p = .ok q) :
    ∃ r, cryptDecodePacket evp key q = .ok r ∧ r.header = p.cryptHeader ∧
      read r.buffer p.dataSize = read p.buffer p.dataSize := by
  obtain ⟨cipher, hcipher, hlen, rfl⟩ := cryptEncodePacket_ok hq
  have hn := p.ciphertextSize_eq
  have hhead : (read cipher cryptHeaderSize).length = cryptHeaderSize := length_read _ _
  have hle : cryptHeaderSize ≤ cipher.length := by
    rw [hlen, hn]
    show 56 ≤ _
    omega
  -- the decoder reads the whole ciphertext and no more
  have hqsize : (⟨p.cryptHeader.storeCryptPart (read cipher cryptHeaderSize),
      write p.buffer 0 (cipher.drop cryptHeaderSize)⟩ : Packet).dataSize = (cipher.drop cryptHeaderSize).length := by
    simp only [variableSizeMaximum] at hsize
    rw [Packet.dataSize, dataSize_store hhead, cryptHeader_dataSize, cryptDataSize_toNat hsize, and_packetSizeMask,
      List.length_drop, hlen]
    show _ = p.ciphertextSize - 56
    omega
  have hinput : (p.cryptHeader.storeCryptPart (read cipher cryptHeaderSize)).cryptPart ++
      read (write p.buffer 0 (cipher.drop cryptHeaderSize)) (cipher.drop cryptHeaderSize).length = cipher := by
    rw [cryptPart_store hhead, read_write_zero, read_of_le hle, List.take_append_drop]
  have hpart : p.cryptHeader.cryptPart.length = cryptHeaderSize := length_read _ _
  have hshort : ¬ (p.cryptHeader.cryptPart ++ read p.buffer p.dataSize).length < cryptHeaderSize := by
    rw [length_cryptInput]
    show ¬ _ < 56
    omega
  refine ⟨⟨p.cryptHeader, write (write p.buffer 0 (cipher.drop cryptHeaderSize)) 0 (read p.buffer p.dataSize)⟩, ?_, rfl,
    read_write_read _ _ _⟩
  rw [cryptDecodePacket, hqsize, hinput, hevp.decrypts _ _ _ _ hcipher]
  dsimp only
  rw [if_neg hshort, read_append hpart, List.drop_left' hpart, store_store hhead hpart, store_cryptPart]

/-- Encoding returns a packet, and decoding that returns the original fields and payload. -/
def CryptRoundTrip (evp : Evp) (key : List UInt8) (p : Packet) : Prop :=
  ∃ q r, cryptEncodePacket evp key p = .ok q ∧ cryptDecodePacket evp key q = .ok r ∧
    r.header.type = p.header.type ∧ r.header.id = p.header.id ∧ r.header.sync = p.header.sync ∧
    r.header.updateCounter = p.header.updateCounter ∧ r.header.dataSize = p.header.dataSize ∧
    r.payload = p.payload

/-- **No packet makes the round trip**: where the encoder returns one, its padding stays in `data_size`. -/
theorem crypt_round_trip_never (evp : Evp) (hevp : evp.Aes256Cbc) (key : List UInt8) (p : Packet)
    (hsize : p.header.dataSize.toNat ≤ variableSizeMaximum) : ¬ CryptRoundTrip evp key p := by
  rintro ⟨q, r, hq, hr, -, -, -, -, hsame, -⟩
  have hd := dataSize_eq hsize
  have hmod := (cryptEncodePacket_ok_iff hevp key p).mp ⟨q, hq⟩
  obtain ⟨r', hr', hheader, -⟩ := cryptDecodePacket_encode hevp (hd ▸ hsize) hq
  rw [hr, Except.ok.injEq] at hr'
  have hback := cryptDataSize_toNat (p := p) (hd ▸ hsize)
  have hn := p.ciphertextSize_eq
  rw [← cryptHeader_dataSize, ← hheader, ← hr', hsame, ← hd] at hback
  omega

end RoundTrip

/-! ### One packet through OpenSSL -/

/-- The padding of the cipher. -/
def pkcs7Pad (x : List UInt8) : List UInt8 :=
  x ++ List.replicate (16 - x.length % 16) (UInt8.ofNat (16 - x.length % 16))

def pkcs7Unpad (y : List UInt8) : Option (List UInt8) :=
  let k := (y.getLast?.getD 0).toNat
  if 1 ≤ k ∧ k ≤ 16 then some (y.take (y.length - k)) else none

theorem pkcs7Unpad_pad (x : List UInt8) : pkcs7Unpad (pkcs7Pad x) = some x := by
  have hlast : (pkcs7Pad x).getLast?.getD 0 = UInt8.ofNat (16 - x.length % 16) := by
    rw [pkcs7Pad, List.getLast?_append, List.getLast?_replicate, if_neg (by omega)]
    rfl
  have hk : (UInt8.ofNat (16 - x.length % 16)).toNat = 16 - x.length % 16 :=
    UInt8.toNat_ofNat_of_lt' (Nat.lt_of_le_of_lt (Nat.sub_le _ _) (by decide))
  have hlen : (pkcs7Pad x).length - (16 - x.length % 16) = x.length := by
    rw [pkcs7Pad, List.length_append, List.length_replicate, Nat.add_sub_cancel]
  simp only [pkcs7Unpad, hlast, hk, hlen]
  rw [if_pos (by omega), pkcs7Pad, List.take_left]

theorem length_pkcs7Pad (x : List UInt8) : (pkcs7Pad x).length = (x.length / 16 + 1) * 16 := by
  rw [pkcs7Pad, List.length_append, List.length_replicate]
  omega

/-- A WRITE of four bytes to `a`. -/
def int32Write : Packet := .make (Msg.write.code ||| typeVarInt32) (idstr [97]) [1, 2, 3, 4]

def zeroKey : List UInt8 := List.replicate 48 0

/-- What the encoder encrypts of it. -/
def int32Plain : List UInt8 :=
  [29, 207, 161, 186, 3, 2, 0, 0, 97, 0, 0, 0, 0, 0, 0, 0, 0, 0, 0, 0, 0, 0, 0, 0, 0, 0, 0, 0, 0, 0, 0, 0, 0, 0, 0, 0,
    0, 0, 0, 0, 0, 0, 0, 0, 0, 0, 0, 0, 0, 0, 0, 0, 0, 0, 0, 0, 1, 2, 3, 4]

/-- Its ciphertext under AES-256-CBC with the zero key. -/
def int32Cipher : List UInt8 :=
  [160, 197, 51, 202, 58, 95, 147, 68, 159, 251, 110, 146, 120, 235, 177, 81, 190, 130, 0, 62, 183, 19, 211, 31, 233,
    168, 6, 102, 202, 127, 135, 132, 135, 163, 193, 166, 47, 206, 177, 254, 48, 115, 91, 188, 119, 255, 149, 194, 58, 78,
    13, 52, 211, 160, 241, 201, 160, 203, 57, 245, 104, 211, 40, 179]

/-- The library on that packet; other inputs are padded only. -/
def sampleEvp : Evp where
  encrypt key iv x :=
    if key = List.replicate 32 0 ∧ iv = List.replicate 16 0 ∧ x = int32Plain then some int32Cipher
    else some (pkcs7Pad x)
  decrypt key iv y :=
    if key = List.replicate 32 0 ∧ iv = List.replicate 16 0 ∧ y = int32Cipher then some int32Plain
    else pkcs7Unpad y

theorem sampleEvp_cbc : sampleEvp.Aes256Cbc where
  encrypts := by
    intro key iv x _ _
    simp only [sampleEvp]
    split
    · rename_i h
      exact ⟨_, rfl, by rw [h.2.2]; rfl⟩
    · exact ⟨_, rfl, length_pkcs7Pad x⟩
  decrypts := by
    intro key iv x y hy
    simp only [sampleEvp] at hy ⊢
    split at hy
    · rename_i h
      cases hy
      rw [if_pos ⟨h.1, h.2.1, rfl⟩, h.2.2]
    · cases hy
      rw [if_neg, pkcs7Unpad_pad]
      rintro ⟨-, -, hcipher⟩
      -- the last byte of the ciphertext is no padding
      have hunpad := pkcs7Unpad_pad x
      have hnone : pkcs7Unpad int32Cipher = none := by decide
      rw [hcipher, hnone] at hunpad
      cases hunpad

/-- Its checksum, evaluated in three parts. -/
theorem int32Write_crc : int32Write.cryptHeader.crc = 0xbaa1cf1d := by
  have hbytes : read (({ int32Write.header with dataSize := int32Write.cryptDataSize } : Header).encode.drop 5 ++
        int32Write.buffer) (UInt16.ofNat (crcHeaderSize + int32Write.dataSize)).toNat =
      ([3, 2, 0, 0, 97] ++ List.replicate 15 0) ++ (List.replicate 20 0 ++
        (List.replicate 12 0 ++ [8, 0x40, 0x44, 1, 2, 3, 4])) := by
    decide +kernel
  have hfirst : crc32Loop 0xFFFFFFFF ([3, 2, 0, 0, 97] ++ List.replicate 15 0) = 0xbc1e335f := by decide +kernel
  have hzeros : crc32Loop 0xbc1e335f (List.replicate 20 0) = 0x1ed9f60a := by decide +kernel
  have hlast : crc32Loop 0x1ed9f60a (List.replicate 12 0 ++ [8, 0x40, 0x44, 1, 2, 3, 4]) = 0x455e30e2 := by
    decide +kernel
  rw [Packet.cryptHeader]
  dsimp only
  rw [crc32, hbytes, crc32Loop_append, hfirst, crc32Loop_append, hzeros, hlast]
  rfl

theorem int32Write_size : int32Write.cryptDataSize = 0x4008 := by decide

theorem int32Plain_eq :
    int32Write.cryptHeader.cryptPart ++ read int32Write.buffer int32Write.dataSize = int32Plain := by
  have hheader : int32Write.cryptHeader =
      { int32Write.header with dataSize := int32Write.cryptDataSize, crc := int32Write.cryptHeader.crc } := rfl
  rw [hheader, int32Write_crc, int32Write_size]
  decide +kernel

/-- Where the library is sampled, the size of the decoded packet is `0x4008` and not 4. -/
theorem int32_size_lost : sampleEvp.Aes256Cbc ∧
    sampleEvp.encrypt (encryptionKey zeroKey) (initVector zeroKey)
      (int32Write.cryptHeader.cryptPart ++ read int32Write.buffer int32Write.dataSize) = some int32Cipher ∧
    int32Write.header.dataSize.toNat ≤ variableSizeMaximum ∧ ¬ CryptRoundTrip sampleEvp zeroKey int32Write := by
  refine ⟨sampleEvp_cbc, ?_, by decide, ?_⟩
  · have hkeys : encryptionKey zeroKey = List.replicate 32 0 ∧ initVector zeroKey = List.replicate 16 0 := by decide
    simp only [int32Plain_eq, sampleEvp, hkeys, and_self, ↓reduceIte]
  · rintro ⟨q, r, hq, hr, -, -, -, -, hsame, -⟩
    obtain ⟨r', hr', hheader, -⟩ := cryptDecodePacket_encode sampleEvp_cbc (by decide) hq
    rw [hr, Except.ok.injEq] at hr'
    rw [hr', hheader, cryptHeader_dataSize, int32Write_size] at hsame
    exact absurd hsame (by decide)

theorem int32_never_round_trips : ¬ CryptRoundTrip sampleEvp zeroKey int32Write :=
  crypt_round_trip_never sampleEvp sampleEvp_cbc zeroKey int32Write (by decide)

end SyncScribe
