import SyncScribe.Types
import SyncScribe.Lib.Framer

/-!
The receive loop shared by `syncs_client_handler` and `syncs_recv`.

Both scan the received bytes for a header (`S` in its first byte, `D` in its
last), mask the size field in place, stop at an incomplete packet and dispatch a
complete one; they differ in the dispatcher only, a parameter of `packetLoop`.
`packetFramer` says what the loop decides at its head, and `packetLoop_frames`
that the packets it dispatches are the frames that framer finds.
-/

namespace SyncScribe
open Lib Lib.Bytes

/-- The result of a `recv`: bytes (none at the end of the stream), `EAGAIN` or `EINTR`, or
another error. -/
inductive Recv
  | data (bytes : List UInt8)
  | again
  | error
  deriving DecidableEq, Repr

/-- `data_size &= SYNCS_VARIABLE_SIZE_MAXIMUM` on a header. -/
def Header.masked (h : Header) : Header :=
  { h with dataSize := h.dataSize &&& UInt16.ofNat variableSizeMaximum }

/-- The same assignment in the bytes of the buffer; the field is at offset 57. -/
def maskSize (buf : List UInt8) : List UInt8 :=
  write buf 57 (leBytes 2 (Header.decode buf).masked.dataSize.toNat)

/-- The `while` loop, on the bytes from `buffer_head` on: the dispatcher's state and the bytes
left over. Every round consumes a byte at least, which bounds the rounds. -/
def packetLoop {σ : Type} (dispatch : σ → Packet → σ) : Nat → σ → List UInt8 → σ × List UInt8
  | 0, st, buf => (st, buf)
  | k + 1, st, buf =>
    if buf.length < headerSize then (st, buf)
    else
      let h := Header.decode buf
      if h.magic ≠ packetMagic then packetLoop dispatch k st (buf.drop 1)
      else if h.magicData ≠ packetMagicData then packetLoop dispatch k st (buf.drop 1)
      else
        let h := h.masked
        let buf := maskSize buf
        if buf.length < headerSize + h.dataSize.toNat then (st, buf)
        else
          packetLoop dispatch k (dispatch st ⟨h, buf.drop headerSize⟩)
            (buf.drop (headerSize + h.dataSize.toNat))

/-- The loop over a whole buffer. -/
def receive {σ : Type} (dispatch : σ → Packet → σ) (st : σ) (buf : List UInt8) : σ × List UInt8 :=
  packetLoop dispatch (buf.length + 1) st buf

/-! ## Headers in a longer buffer -/

theorem field_append_left {a : List UInt8} (b : List UInt8) {off n : Nat} (h : off + n ≤ a.length) :
    field (a ++ b) off n = field a off n := by
  rw [field, List.drop_append_of_le_length (by omega), read_append_left b (by simp; omega), field]

theorem Id.ofBytes_append_left {a : List UInt8} (b : List UInt8) (h : 32 ≤ a.length) :
    Id.ofBytes (a ++ b) = Id.ofBytes a := by
  simp only [Id.ofBytes]
  rw [read_append_left b (by omega), List.drop_append_of_le_length (by omega),
    read_append_left b (by simp; omega), List.drop_append_of_le_length (by omega),
    read_append_left b (by simp; omega), List.drop_append_of_le_length (by omega),
    read_append_left b (by simp; omega)]

/-- A complete header does not change when more bytes arrive. -/
theorem decode_append_left {a : List UInt8} (b : List UInt8) (h : headerSize ≤ a.length) :
    Header.decode (a ++ b) = Header.decode a := by
  have h60 : 60 ≤ a.length := h
  simp only [Header.decode]
  rw [field_append_left b (by omega), field_append_left b (by omega), field_append_left b (by omega),
    List.drop_append_of_le_length (by omega), Id.ofBytes_append_left b (by simp; omega),
    field_append_left b (by omega), field_append_left b (by omega), field_append_left b (by omega),
    field_append_left b (by omega), field_append_left b (by omega)]

theorem masked_masked (h : Header) : h.masked.masked = h.masked := by
  simp [Header.masked, UInt16.and_assoc]

theorem masked_size_le (h : Header) : h.masked.dataSize.toNat ≤ variableSizeMaximum := by
  simp only [Header.masked, UInt16.toNat_and]
  exact Nat.and_le_right

/-- A size of at most 511 bytes survives the mask. -/
theorem masked_eq_of_le {h : Header} (hs : h.dataSize.toNat ≤ variableSizeMaximum) : h.masked = h := by
  have : h.dataSize &&& UInt16.ofNat variableSizeMaximum = h.dataSize := by
    apply UInt16.toNat_inj.mp
    rw [UInt16.toNat_and, show (UInt16.ofNat variableSizeMaximum).toNat = 2 ^ 9 - 1 by decide,
      Nat.and_two_pow_sub_one_eq_mod, Nat.mod_eq_of_lt]
    simp only [variableSizeMaximum] at hs
    omega
  simp [Header.masked, this]

theorem length_maskSize {buf : List UInt8} (h : headerSize ≤ buf.length) :
    (maskSize buf).length = buf.length := by
  have h60 : 60 ≤ buf.length := h
  exact length_write_of_le (by simp; omega)

/-- The mask is written inside the header. -/
theorem drop_maskSize {buf : List UInt8} {n : Nat} (hn : headerSize ≤ n) (h : headerSize ≤ buf.length) :
    (maskSize buf).drop n = buf.drop n := by
  have hn60 : 60 ≤ n := hn
  have h60 : 60 ≤ buf.length := h
  have hsplit : n = (read buf 57 ++ leBytes 2 (Header.decode buf).masked.dataSize.toNat).length + (n - 59) := by
    simp; omega
  rw [maskSize, write, hsplit, List.drop_length_add_append, List.drop_drop]
  congr 1
  simp only [length_leBytes]
  omega

theorem maskSize_append {a : List UInt8} (b : List UInt8) (h : headerSize ≤ a.length) :
    maskSize (a ++ b) = maskSize a ++ b := by
  have h60 : 60 ≤ a.length := h
  simp only [maskSize, write, decode_append_left b h, read_append_left b (show 57 ≤ a.length by omega)]
  rw [List.drop_append_of_le_length (by simp; omega)]
  simp

/-- Only the size field of the header is rewritten. -/
theorem decode_maskSize {buf : List UInt8} (h : headerSize ≤ buf.length) :
    Header.decode (maskSize buf) = (Header.decode buf).masked := by
  have h60 : 60 ≤ buf.length := h
  have hpre : ∀ off n, off + n ≤ 57 → field (maskSize buf) off n = field buf off n := by
    intro off n hle
    rw [maskSize, write, List.append_assoc, field_append_left _ (by simpa using hle), field, field,
      read_of_le (show 57 ≤ buf.length by omega), List.drop_take, read_of_le (by simp; omega),
      read_of_le (by simp; omega), List.take_take, Nat.min_eq_left (by omega)]
  have hid : Id.ofBytes ((maskSize buf).drop 9) = Id.ofBytes (buf.drop 9) := by
    have hd : (maskSize buf).drop 9 = (buf.drop 9).take 48 ++ ((maskSize buf).drop 9).drop 48 := by
      conv_lhs => rw [← List.take_append_drop 48 ((maskSize buf).drop 9)]
      congr 1
      rw [maskSize, write, List.append_assoc, List.drop_append_of_le_length (by simp),
        List.take_append_of_le_length (by simp), read_of_le (show 57 ≤ buf.length by omega),
        List.drop_take, List.take_take, show min 48 (57 - 9) = 48 from rfl]
    rw [hd, Id.ofBytes_append_left _ (by simp; omega)]
    conv_rhs => rw [← List.take_append_drop 48 (buf.drop 9)]
    rw [Id.ofBytes_append_left _ (by simp; omega)]
  have hsize : field (maskSize buf) 57 2 = (Header.decode buf).masked.dataSize.toNat := by
    rw [maskSize, write, List.append_assoc, show (57 : Nat) = 57 + 0 from rfl,
      field_skip 0 2 (length_read _ _), field_append (length_leBytes _ _),
      leVal_leBytes_of_lt (by have := (Header.decode buf).masked.dataSize.toNat_lt; omega)]
  have hlast : field (maskSize buf) 59 1 = field buf 59 1 := by
    rw [maskSize, write, show (59 : Nat) = 59 + 0 from rfl, field_skip 0 1 (by simp)]
    simp [field]
  have hmasked : (Header.decode buf).masked.dataSize =
      UInt16.ofNat (field (maskSize buf) 57 2) := by rw [hsize, UInt16.ofNat_toNat]
  simp only [Header.masked] at hmasked
  simp only [Header.decode, Header.masked] at hmasked ⊢
  rw [← hmasked, hpre _ _ (by omega), hpre _ _ (by omega), hpre _ _ (by omega), hpre _ _ (by omega),
    hpre _ _ (by omega), hpre _ _ (by omega), hid, hlast]

/-! ## The loop as a framer -/

/-- The two magic bytes of the header at the head of the buffer. -/
def marked (buf : List UInt8) : Prop :=
  (Header.decode buf).magic = packetMagic ∧ (Header.decode buf).magicData = packetMagicData

instance (buf : List UInt8) : Decidable (marked buf) :=
  inferInstanceAs (Decidable (_ ∧ _))

/-- The two tests of the source, one after the other. -/
theorem ite_marked {α : Type} (buf : List UInt8) (x y : α) :
    (if (Header.decode buf).magic ≠ packetMagic then x
      else if (Header.decode buf).magicData ≠ packetMagicData then x else y) = if marked buf then y else x := by
  by_cases h1 : (Header.decode buf).magic = packetMagic
  · by_cases h2 : (Header.decode buf).magicData = packetMagicData
    · rw [if_neg (not_not.mpr h1), if_neg (not_not.mpr h2), if_pos (show marked buf from ⟨h1, h2⟩)]
    · rw [if_neg (not_not.mpr h1), if_pos h2, if_neg (fun hm : marked buf => h2 hm.2)]
  · rw [if_pos h1, if_neg (fun hm : marked buf => h1 hm.1)]

/-- The length of the packet whose header is at the head of the buffer. -/
def frameLength (buf : List UInt8) : Nat := headerSize + (Header.decode buf).masked.dataSize.toNat

/-- What a round of the loop decides. -/
def packetLook (buf : List UInt8) : Look Packet :=
  if buf.length < headerSize then .wait
  else if ¬ marked buf then .skip
  else if buf.length < frameLength buf then .wait
  else .emit (frameLength buf)
    ⟨(Header.decode buf).masked, (buf.drop headerSize).take (Header.decode buf).masked.dataSize.toNat⟩

/-- What the loop leaves of an incomplete packet: its size field masked. -/
def packetSettle (buf : List UInt8) : List UInt8 :=
  if headerSize ≤ buf.length ∧ marked buf then maskSize buf else buf

theorem marked_append {a : List UInt8} (b : List UInt8) (h : headerSize ≤ a.length) :
    marked (a ++ b) ↔ marked a := by
  rw [marked, decode_append_left b h, marked]

theorem frameLength_append {a : List UInt8} (b : List UInt8) (h : headerSize ≤ a.length) :
    frameLength (a ++ b) = frameLength a := by
  rw [frameLength, decode_append_left b h, frameLength]

theorem marked_maskSize {buf : List UInt8} (h : headerSize ≤ buf.length) :
    marked (maskSize buf) ↔ marked buf := by
  rw [marked, decode_maskSize h]
  rfl

theorem frameLength_maskSize {buf : List UInt8} (h : headerSize ≤ buf.length) :
    frameLength (maskSize buf) = frameLength buf := by
  rw [frameLength, decode_maskSize h, masked_masked, frameLength]

/-- The three ways a round can go. -/
theorem packetLook_skip_iff {buf : List UInt8} :
    packetLook buf = .skip ↔ headerSize ≤ buf.length ∧ ¬ marked buf := by
  unfold packetLook
  split
  · rename_i h
    simp
    omega
  · rename_i h
    split
    · rename_i hm
      simp [hm]
      omega
    · rename_i hm
      split <;> simp_all

theorem packetLook_emit_iff {buf : List UInt8} {n : Nat} {f : Packet} :
    packetLook buf = .emit n f ↔ headerSize ≤ buf.length ∧ marked buf ∧ frameLength buf ≤ buf.length ∧
      n = frameLength buf ∧ f = ⟨(Header.decode buf).masked,
        (buf.drop headerSize).take (Header.decode buf).masked.dataSize.toNat⟩ := by
  unfold packetLook
  split
  · rename_i h
    simp
    omega
  · rename_i h
    split
    · rename_i hm
      simp [hm]
    · rename_i hm
      have hm' : marked buf := not_not.mp hm
      split
      · rename_i hl
        simp
        omega
      · rename_i hl
        simp only [Look.emit.injEq, hm', true_and]
        constructor
        · rintro ⟨rfl, rfl⟩
          exact ⟨by omega, by omega, rfl, rfl⟩
        · rintro ⟨_, _, rfl, rfl⟩
          exact ⟨rfl, rfl⟩

theorem packetLook_wait_iff {buf : List UInt8} :
    packetLook buf = .wait ↔
      buf.length < headerSize ∨ (marked buf ∧ buf.length < frameLength buf) := by
  unfold packetLook
  split
  · rename_i h
    simp [h]
  · rename_i h
    split
    · rename_i hm
      simp [h, hm]
    · rename_i hm
      split
      · rename_i hl
        simp [hl, not_not.mp hm]
      · rename_i hl
        simp [h, hl]

theorem headerSize_le_frameLength (buf : List UInt8) : headerSize ≤ frameLength buf :=
  Nat.le_add_right _ _

/-- More bytes behind a complete packet do not change it. -/
theorem packetLook_emit_append {buf : List UInt8} {n : Nat} {f : Packet} (more : List UInt8)
    (h : packetLook buf = .emit n f) : packetLook (buf ++ more) = .emit n f := by
  obtain ⟨hlen, hm, hf, rfl, rfl⟩ := packetLook_emit_iff.mp h
  refine packetLook_emit_iff.mpr ⟨by simp; omega, (marked_append more hlen).mpr hm,
    by rw [frameLength_append more hlen]; simp; omega, (frameLength_append more hlen).symm, ?_⟩
  have hd : (Header.decode buf).masked.dataSize.toNat ≤ (buf.drop headerSize).length := by
    simp only [frameLength] at hf
    simp
    omega
  rw [decode_append_left more hlen, List.drop_append_of_le_length hlen,
    List.take_append_of_le_length hd]

theorem packetSettle_short {buf : List UInt8} (h : buf.length < headerSize) : packetSettle buf = buf := by
  simp [packetSettle, Nat.not_le.mpr h]

theorem packetSettle_marked {buf : List UInt8} (h : headerSize ≤ buf.length) (hm : marked buf) :
    packetSettle buf = maskSize buf := by
  simp [packetSettle, h, hm]

theorem length_packetSettle (buf : List UInt8) : (packetSettle buf).length = buf.length := by
  unfold packetSettle
  split
  · rename_i h
    exact length_maskSize h.1
  · rfl

/-- Masking the size field changes nothing the loop looks at. -/
theorem packetLook_maskSize {buf : List UInt8} (h : headerSize ≤ buf.length) :
    packetLook (maskSize buf) = packetLook buf := by
  simp only [packetLook, length_maskSize h, marked_maskSize h, frameLength_maskSize h,
    decode_maskSize h, masked_masked, drop_maskSize (Nat.le_refl _) h]

theorem maskSize_maskSize {buf : List UInt8} (h : headerSize ≤ buf.length) :
    maskSize (maskSize buf) = maskSize buf := by
  have h60 : 60 ≤ buf.length := h
  have hsize := congrArg Header.dataSize (decode_maskSize h)
  conv_lhs => rw [maskSize, decode_maskSize h, masked_masked]
  have hlen : (maskSize buf).length = buf.length := length_maskSize h
  conv_rhs => rw [maskSize]
  rw [write, write]
  congr 1
  · congr 1
    rw [read_of_le (by omega), maskSize, write, List.append_assoc, List.take_append_of_le_length (by simp),
      List.take_of_length_le (by simp)]
  · rw [maskSize, write, show 57 + (leBytes 2 (Header.decode buf).masked.dataSize.toNat).length =
      (read buf 57 ++ leBytes 2 (Header.decode buf).masked.dataSize.toNat).length + 0 by simp,
      List.drop_length_add_append]
    simp

/-- An incomplete packet that is settled goes on as it would have. -/
theorem packetSettle_append {x : List UInt8} (y : List UInt8) (h : packetLook x = .wait) :
    packetSettle x ++ y = x ++ y ∨
      (headerSize ≤ x.length ∧ marked x ∧ packetSettle x ++ y = maskSize (x ++ y)) := by
  rcases packetLook_wait_iff.mp h with hs | ⟨hm, _⟩
  · exact Or.inl (by rw [packetSettle_short hs])
  · by_cases hl : headerSize ≤ x.length
    · exact Or.inr ⟨hl, hm, by rw [packetSettle_marked hl hm, maskSize_append y hl]⟩
    · exact Or.inl (by rw [packetSettle_short (by omega)])

/-! ### What the framer asks for -/

theorem packetLook_skip_ne_nil {x : List UInt8} (h : packetLook x = .skip) : x ≠ [] := by
  rintro rfl
  have := (packetLook_skip_iff.mp h).1
  simp [headerSize] at this

theorem packetLook_skip_append {x : List UInt8} (y : List UInt8) (h : packetLook x = .skip) :
    packetLook (x ++ y) = .skip := by
  obtain ⟨hl, hm⟩ := packetLook_skip_iff.mp h
  exact packetLook_skip_iff.mpr ⟨by simp; omega, by rwa [marked_append y hl]⟩

theorem packetLook_emit_size {x : List UInt8} {n : Nat} {f : Packet} (h : packetLook x = .emit n f) :
    0 < n ∧ n ≤ x.length := by
  obtain ⟨_, _, hf, rfl, _⟩ := packetLook_emit_iff.mp h
  have := headerSize_le_frameLength x
  simp only [headerSize] at this
  omega

theorem packetSettle_look {x : List UInt8} (y : List UInt8) (h : packetLook x = .wait) :
    packetLook (packetSettle x ++ y) = packetLook (x ++ y) := by
  rcases packetSettle_append y h with e | ⟨hl, _, e⟩
  · rw [e]
  · rw [e, packetLook_maskSize (by simp; omega)]

theorem packetSettle_skip {x y : List UInt8} (h : packetLook x = .wait)
    (hs : packetLook (x ++ y) = .skip) : packetSettle x = x := by
  rcases packetLook_wait_iff.mp h with hw | ⟨hm, _⟩
  · exact packetSettle_short hw
  · by_cases hl : headerSize ≤ x.length
    · exact absurd ((marked_append y hl).mpr hm) (packetLook_skip_iff.mp hs).2
    · exact packetSettle_short (by omega)

theorem packetSettle_emit {x y : List UInt8} {n : Nat} {f : Packet} (h : packetLook x = .wait)
    (he : packetLook (x ++ y) = .emit n f) : (packetSettle x ++ y).drop n = (x ++ y).drop n := by
  obtain ⟨hl, _, _, rfl, _⟩ := packetLook_emit_iff.mp he
  rcases packetSettle_append y h with e | ⟨_, _, e⟩
  · rw [e]
  · rw [e, drop_maskSize (headerSize_le_frameLength _) hl]

theorem packetSettle_wait {x y : List UInt8} (h : packetLook x = .wait)
    (_ : packetLook (x ++ y) = .wait) : packetSettle (packetSettle x ++ y) = packetSettle (x ++ y) := by
  rcases packetSettle_append y h with e | ⟨hl, hm, e⟩
  · rw [e]
  · have hl' : headerSize ≤ (x ++ y).length := by simp; omega
    have hm' : marked (x ++ y) := (marked_append y hl).mpr hm
    rw [e, packetSettle_marked hl' hm', packetSettle_marked (by rwa [length_maskSize hl'])
      ((marked_maskSize hl').mpr hm'), maskSize_maskSize hl']

/-- The receive loop as a framer. -/
def packetFramer : Framer UInt8 Packet where
  look := packetLook
  settle := packetSettle
  skip_ne_nil := packetLook_skip_ne_nil
  skip_stable := packetLook_skip_append
  emit_stable := packetLook_emit_append
  emit_size := packetLook_emit_size
  settle_look := packetSettle_look
  settle_skip := packetSettle_skip
  settle_emit := packetSettle_emit
  settle_wait := packetSettle_wait
  settle_length := length_packetSettle

/-- The packets of a byte stream scanned in one piece. -/
def packets (stream : List UInt8) : List Packet := (packetFramer.scan stream).1

/-- The bytes of a stream left over by the scan. -/
def leftover (stream : List UInt8) : List UInt8 := (packetFramer.scan stream).2

theorem packets_of_wait {buf : List UInt8} (h : packetLook buf = .wait) :
    packets buf = [] ∧ leftover buf = packetSettle buf := by
  have hs := Framer.scan_wait (F := packetFramer) h
  exact ⟨congrArg Prod.fst hs, congrArg Prod.snd hs⟩

theorem packets_of_skip {buf : List UInt8} (h : packetLook buf = .skip) :
    packets buf = packets (buf.drop 1) ∧ leftover buf = leftover (buf.drop 1) := by
  have hs := Framer.scan_skip (F := packetFramer) h
  exact ⟨congrArg Prod.fst hs, congrArg Prod.snd hs⟩

theorem packets_of_emit {buf : List UInt8} {n : Nat} {f : Packet} (h : packetLook buf = .emit n f) :
    packets buf = f :: packets (buf.drop n) ∧ leftover buf = leftover (buf.drop n) := by
  have hs := Framer.scan_emit (F := packetFramer) h
  exact ⟨by rw [packets, hs]; rfl, by rw [leftover, hs]; rfl⟩

/-- **The loop dispatches the frames of the framer**: any log the dispatcher keeps of the frames
given to it grows by the packets of the buffer, and the framer's rest is what stays in it. -/
theorem packetLoop_frames {σ : Type} (dispatch : σ → Packet → σ) (log : σ → List Packet)
    (hlog : ∀ st p, p.header.dataSize.toNat ≤ p.buffer.length →
      log (dispatch st p) = log st ++ [p.frame])
    (k : Nat) (st : σ) (buf : List UInt8) (hk : buf.length < k) :
    log (packetLoop dispatch k st buf).1 = log st ++ packets buf ∧
      (packetLoop dispatch k st buf).2 = leftover buf := by
  induction k generalizing st buf with
  | zero => omega
  | succ k ih =>
    unfold packetLoop
    by_cases hshort : buf.length < headerSize
    · have hw := packets_of_wait (packetLook_wait_iff.mpr (Or.inl hshort))
      simp [hshort, hw.1, hw.2, packetSettle_short hshort]
    · have hl : headerSize ≤ buf.length := by omega
      have hpos : 0 < buf.length := by simp only [headerSize] at hl; omega
      by_cases hm : marked buf
      · have h1 := hm.1
        have h2 := hm.2
        simp only [hshort, ↓reduceIte, h1, h2, ne_eq, not_true_eq_false, length_maskSize hl]
        by_cases hf : buf.length < headerSize + (Header.decode buf).masked.dataSize.toNat
        · have hw := packets_of_wait (packetLook_wait_iff.mpr (Or.inr ⟨hm, hf⟩))
          simp [hf, hw.1, hw.2, packetSettle_marked hl hm]
        · have he := packets_of_emit (packetLook_emit_iff.mpr
            ⟨hl, hm, by simp only [frameLength]; omega, rfl, rfl⟩)
          have hbuf : (Header.decode buf).masked.dataSize.toNat ≤ (buf.drop headerSize).length := by
            simp
            omega
          simp only [hf, ↓reduceIte]
          rw [drop_maskSize (Nat.le_refl _) hl, drop_maskSize (Nat.le_add_right _ _) hl]
          have hrest := ih (dispatch st ⟨(Header.decode buf).masked, buf.drop headerSize⟩)
            (buf.drop (headerSize + (Header.decode buf).masked.dataSize.toNat)) (by
              simp only [List.length_drop, headerSize]
              omega)
          rw [hrest.1, hrest.2, hlog _ _ hbuf, he.1, he.2]
          simp only [frameLength, Packet.frame, Packet.payload, read_of_le hbuf, List.append_assoc,
            List.singleton_append, and_self]
      · have hs := packets_of_skip (packetLook_skip_iff.mpr ⟨hl, hm⟩)
        have hrest := ih st (buf.drop 1) (by simp only [List.length_drop]; omega)
        rw [hs.1, hs.2]
        by_cases h1 : (Header.decode buf).magic = packetMagic
        · have h2 : (Header.decode buf).magicData ≠ packetMagicData := fun h2 => hm ⟨h1, h2⟩
          simpa only [hshort, h1, h2, ↓reduceIte, ne_eq, not_true_eq_false, not_false_eq_true] using hrest
        · simpa only [hshort, h1, ↓reduceIte, ne_eq, not_false_eq_true] using hrest

/-- The loop over a whole buffer dispatches its packets and keeps its rest. -/
theorem receive_frames {σ : Type} (dispatch : σ → Packet → σ) (log : σ → List Packet)
    (hlog : ∀ st p, p.header.dataSize.toNat ≤ p.buffer.length →
      log (dispatch st p) = log st ++ [p.frame])
    (st : σ) (buf : List UInt8) :
    log (receive dispatch st buf).1 = log st ++ packets buf ∧
      (receive dispatch st buf).2 = leftover buf :=
  packetLoop_frames dispatch log hlog _ st buf (Nat.lt_succ_self _)

/-! ## The loop as a fold -/

/-- The packets a loop hands to its dispatcher, each with the bytes behind it. -/
def rawPackets (buf : List UInt8) : List Packet := (receive (fun l p => l ++ [p]) [] buf).1

theorem packetLoop_foldl {σ : Type} (dispatch : σ → Packet → σ) (st₀ : σ) (k : Nat) (l : List Packet)
    (buf : List UInt8) :
    packetLoop dispatch k (l.foldl dispatch st₀) buf =
      ((packetLoop (fun l p => l ++ [p]) k l buf).1.foldl dispatch st₀,
        (packetLoop (fun l p => l ++ [p]) k l buf).2) := by
  induction k generalizing l buf with
  | zero => rfl
  | succ k ih =>
    unfold packetLoop
    have hsnoc : ∀ p, dispatch (l.foldl dispatch st₀) p = (l ++ [p]).foldl dispatch st₀ := by
      intro p
      simp
    simp only [hsnoc]
    split
    · rfl
    · split
      · exact ih _ _
      · split
        · exact ih _ _
        · split
          · rfl
          · exact ih _ _

/-- **The loop is a fold over the packets of the buffer.** -/
theorem receive_eq_foldl {σ : Type} (dispatch : σ → Packet → σ) (st : σ) (buf : List UInt8) :
    receive dispatch st buf = ((rawPackets buf).foldl dispatch st, leftover buf) := by
  have hfold := packetLoop_foldl dispatch st (buf.length + 1) [] buf
  have hrest := receive_frames (fun (l : List Packet) p => l ++ [p]) (fun l => l.map Packet.frame)
    (by simp) [] buf
  rw [List.foldl_nil] at hfold
  rw [receive, hfold]
  exact Prod.ext rfl hrest.2

theorem rawPackets_frames (buf : List UInt8) : (rawPackets buf).map Packet.frame = packets buf := by
  have h := receive_frames (fun (l : List Packet) p => l ++ [p]) (fun l => l.map Packet.frame)
    (by simp) [] buf
  simpa [rawPackets] using h.1

/-- A test of headers does not see the bytes behind the packets. -/
theorem any_rawPackets (ends : Packet → Bool) (h : ∀ p, ends p.frame = ends p) (buf : List UInt8) :
    (rawPackets buf).any ends = (packets buf).any ends := by
  rw [← rawPackets_frames, List.any_map]
  congr 1
  funext p
  exact (h p).symm

end SyncScribe
