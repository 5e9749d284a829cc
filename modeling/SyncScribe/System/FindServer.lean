import SyncScribe.Discovery

/-!
The response of a server as `syncs_find_server` reads it. The client copies the address of
`LOCATION` to its caller's memory, at most seventeen characters of it, and then writes the
address of the sender behind what it copied. It finds the address where its caller looks for
it when there was nothing to copy, that is when the server was created without an address.
-/

namespace SyncScribe
open Lib Lib.Bytes

/-! ## Lengths -/

/-- A dotted address and its terminator take `INET_ADDRSTRLEN` bytes at most. -/
theorem length_inetNtop (ip : UInt32) : (inetNtop ip).length + 1 ≤ inetAddrstrlen := by
  obtain ⟨a, b, c, d, h⟩ : ∃ a b c d, leBytes 4 ip.toNat = [a, b, c, d] :=
    ⟨_, _, _, _, rfl⟩
  have hbyte : ∀ x : UInt8, (decimal x.toNat).length ≤ 3 := by
    intro x
    exact length_decimal_le (by decide) (Nat.lt_of_lt_of_le x.toNat_lt (by decide))
  have hdot : (text ".").length = 1 := by decide
  have ha := hbyte a
  have hb := hbyte b
  have hc := hbyte c
  have hd := hbyte d
  simp only [inetNtop, h, List.map_cons, List.map_nil, List.intercalate, List.intersperse, List.flatten_cons,
    List.flatten_nil, List.length_append, List.length_nil, hdot, inetAddrstrlen]
  omega

theorem zero_notMem_decimal (n : Nat) : 0 ∉ decimal n := by
  intro h
  have hdigit := isDigit_of_mem_decimal h
  revert hdigit
  decide

theorem zero_notMem_inetNtop (ip : UInt32) : 0 ∉ inetNtop ip := by
  obtain ⟨a, b, c, d, h⟩ : ∃ a b c d, leBytes 4 ip.toNat = [a, b, c, d] :=
    ⟨_, _, _, _, rfl⟩
  have hdot : 0 ∉ text "." := by decide
  simp [inetNtop, h, List.intercalate, zero_notMem_decimal, hdot]

/-! ## The response -/

section Response

variable (addr cid : List UInt8) (port : Int)

/-- What precedes the field `LOCATION`. -/
def beforeLocation : List UInt8 := responseHeader ++ text "CACHE-CONTROL:max-age=120\r\nDATE:\r\nEXT:\r\n"

/-- What follows the port. -/
def behindPort (s : SsdpServer) : List UInt8 :=
  text "\r\nSERVER:unknow\r\nST:" ++ serviceName ++ text "\r\nUSN:" ++ cstr s.id.bytes ++ text "\r\n\r\n"

theorem ssdpResponse_eq (s : SsdpServer) :
    ssdpResponse s = beforeLocation ++ locationField ++ (cstr s.addr ++ 58 :: (decimalInt s.port ++ behindPort s)) := by
  have hfield : text "CACHE-CONTROL:max-age=120\r\nDATE:\r\nEXT:\r\nLOCATION:" =
      text "CACHE-CONTROL:max-age=120\r\nDATE:\r\nEXT:\r\n" ++ locationField := by decide
  have hcolon : text ":" = [58] := by decide
  simp only [ssdpResponse, beforeLocation, behindPort, hfield, hcolon, List.append_assoc, List.cons_append,
    List.nil_append]

theorem zero_notMem_response (s : SsdpServer) : 0 ∉ ssdpResponse s := by
  have hport : 0 ∉ decimalInt s.port := by
    unfold decimalInt
    split <;> simp [zero_notMem_decimal]
  have h1 : 0 ∉ responseHeader := by decide
  have h2 : 0 ∉ text "CACHE-CONTROL:max-age=120\r\nDATE:\r\nEXT:\r\nLOCATION:" := by decide
  have h3 : 0 ∉ text ":" := by decide
  have h4 : 0 ∉ text "\r\nSERVER:unknow\r\nST:" := by decide
  have h5 : 0 ∉ serviceName := by decide
  have h6 : 0 ∉ text "\r\nUSN:" := by decide
  have h7 : 0 ∉ text "\r\n\r\n" := by decide
  simp only [ssdpResponse, List.mem_append, not_or]
  exact ⟨⟨⟨⟨⟨⟨⟨⟨⟨h1, h2⟩, zero_notMem_cstr _⟩, h3⟩, hport⟩, h4⟩, h5⟩, h6⟩, zero_notMem_cstr _⟩, h7⟩

/-- An address of at most 19 characters keeps its terminator. -/
theorem cstr_addr (haddr : (cstr addr).length ≤ 19) : cstr (ssdpServerCreate addr port cid).addr = cstr addr := by
  obtain ⟨k, hk⟩ : ∃ k, 20 - (cstr addr).length = k + 1 := ⟨19 - (cstr addr).length, by omega⟩
  have hread : read (cstr addr) 20 = cstr addr ++ 0 :: List.replicate k 0 := by
    rw [Lib.Bytes.read, List.take_append, List.take_of_length_le (by omega), List.take_replicate,
      Nat.min_eq_left (by omega), hk, List.replicate_succ]
  rw [ssdpServerCreate, hread, cstr_append, if_neg (zero_notMem_cstr addr), cstr_cons, if_pos rfl, List.append_nil]

/-- The response fits the buffer. -/
theorem length_response (haddr : (cstr addr).length ≤ 19) (hport : 0 ≤ port ∧ port ≤ 65535) :
    (ssdpResponse (ssdpServerCreate addr port cid)).length < ssdpPacketSize := by
  have hname : (cstr (ssdpServerCreate addr port cid).id.bytes).length ≤ 32 := by
    refine (cstr_isPrefix _).length_le.trans (Nat.le_of_eq ?_)
    rw [ssdpServerCreate, idstr, Id.bytes_ofBytes, length_read]
  have hdigits : (decimalInt port).length ≤ 5 := by
    rw [decimalInt, if_neg (by omega)]
    exact length_decimal_le (by decide) (by omega)
  have h1 : beforeLocation.length = 57 := by decide
  have h2 : locationField.length = 9 := by decide
  have h3 : (text "\r\nSERVER:unknow\r\nST:").length = 20 := by decide
  have h4 : serviceName.length = 17 := by decide
  have h5 : (text "\r\nUSN:").length = 6 := by decide
  have h6 : (text "\r\n\r\n").length = 4 := by decide
  rw [ssdpResponse_eq, cstr_addr addr cid port haddr]
  simp only [List.length_append, List.length_cons, behindPort, h1, h2, h3, h4, h5, h6, ssdpPacketSize]
  change _ + (_ + ((decimalInt port).length + _ + 1)) < _
  omega

/-- A response that fits is sent as it is. -/
theorem ssdpSend_eq (s : SsdpServer) (buffer : List UInt8) (hlen : (ssdpResponse s).length < ssdpPacketSize) :
    ssdpSend s buffer = ssdpResponse s := by
  have htake : (ssdpResponse s).take (ssdpPacketSize - 1) = ssdpResponse s :=
    List.take_of_length_le (Nat.le_sub_one_of_lt hlen)
  rw [ssdpSend, snprintf, if_neg (by decide), htake, write_zero, List.append_assoc]
  exact read_append rfl

/-- The packet in front of what the buffer held. -/
theorem ssdpReceived_eq (buffer d : List UInt8) :
    ssdpReceived buffer d = d.take ssdpPacketSize ++ buffer.drop (d.take ssdpPacketSize).length :=
  write_zero _ _

/-- Behind the first colon of `LOCATION:`. -/
theorem tail_dropWhile_location (x : List UInt8) : ((locationField ++ x).dropWhile (· ≠ 58)).tail = x := rfl

/-- **The response is found**, and read from behind `LOCATION:`. -/
theorem examine_response (s : SsdpServer) (t : List UInt8) (source : UInt32) :
    examineResponse (ssdpResponse s ++ t) (ssdpResponse s).length source =
      some (parseLocation source (cstr s.addr ++ 58 :: (decimalInt s.port ++ behindPort s ++ t))) := by
  have hheader : ∃ more, ssdpResponse s = responseHeader ++ more := by
    simp only [ssdpResponse, List.append_assoc]
    exact ⟨_, rfl⟩
  have hname : serviceName <:+: ssdpResponse s := by
    have hbehind : serviceName <:+: behindPort s := by
      simp only [behindPort, List.append_assoc]
      exact List.infix_append' _ _ _
    rw [ssdpResponse_eq]
    exact List.infix_append_of_infix_right (List.infix_append_of_infix_right
      (List.infix_cons (List.infix_append_of_infix_right hbehind)))
  have hcstr : cstr (ssdpResponse s ++ t) = ssdpResponse s ++ cstr t := by
    rw [cstr_append, if_neg (zero_notMem_response s)]
  have hmatches : ssdpMatches responseHeader (ssdpResponse s ++ t) (ssdpResponse s).length = true := by
    obtain ⟨more, hmore⟩ := hheader
    have hlen : ¬ (ssdpResponse s).length < responseHeader.length := by
      rw [hmore, List.length_append]
      omega
    have hread : read (ssdpResponse s ++ t) responseHeader.length = responseHeader := by
      rw [hmore, List.append_assoc]
      exact read_append rfl
    rw [ssdpMatches, if_neg hlen, if_neg (not_not.mpr hread), hcstr, firstOccurrence_isSome]
    exact List.infix_append_of_infix_left hname
  have hfirst : firstOccurrence locationField (cstr (ssdpResponse s ++ t)) = some beforeLocation.length := by
    have hbare : firstOccurrence locationField (beforeLocation ++ locationField) = some beforeLocation.length := by
      decide
    rw [hcstr, ssdpResponse_eq, List.append_assoc _ _ (cstr t)]
    exact firstOccurrence_append hbare _
  rw [examineResponse, if_pos hmatches, hfirst, Option.map_some, ssdpResponse_eq]
  simp only [List.append_assoc, List.drop_left, tail_dropWhile_location, List.cons_append]

/-- What is copied from a response. -/
theorem parseLocation_copied (source : UInt32) {a : List UInt8} (ha : 58 ∉ a) (x : List UInt8) :
    (parseLocation source (a ++ 58 :: x)).copied = a.take (inetAddrstrlen + 1) := by
  have hsplit : a ++ 58 :: x = (a ++ [58]) ++ x := by simp
  have htake : (a ++ [58]).takeWhile (· ≠ 58) = a := by
    rw [List.takeWhile_append_of_pos fun c hc => by simpa using fun h : c = 58 => ha (h ▸ hc)]
    simp
  rw [parseLocation, hsplit, copyAddress_append x (Or.inr (by simp)), htake]

/-- The port, read behind an empty address. -/
theorem parseLocation_port (source : UInt32) (s : SsdpServer) (hport : 0 ≤ s.port) (t : List UInt8) :
    (parseLocation source (58 :: (decimalInt s.port ++ behindPort s ++ t))).port = Int32.ofInt s.port := by
  have hstop : ∀ (p : Int32) (y : List UInt8), readPort p (behindPort s ++ y) = p := by
    intro p y
    rfl
  change readPort 0 (decimalInt s.port ++ behindPort s ++ t) = _
  rw [List.append_assoc, decimalInt, if_neg (by omega), readPort_append _ _ fun c hc => isDigit_of_mem_decimal hc,
    readPort_decimal, hstop]
  conv_rhs => rw [← Int.natAbs_of_nonneg hport]
  rfl

end Response

/-! ## The round trip -/

/-- What `syncs_find_server` leaves behind is what its caller looks for: the port, and at `addr` the dotted address of
the sender, with no more than `INET_ADDRSTRLEN` bytes written. -/
structure Found.Right (f : Found) (port : Int) (source : UInt32) (mem : List UInt8) : Prop where
  port : f.port.toInt = port
  addr : read (f.memory mem) ((inetNtop source).length + 1) = inetNtop source ++ [0]
  written : f.written ≤ inetAddrstrlen

/-- Nothing was copied in front of the address. -/
theorem copied_of_right {f : Found} {port : Int} {source : UInt32} {mem : List UInt8} (h : f.Right port source mem)
    (hs : f.source = source) (hzero : 0 ∉ f.copied) : f.copied = [] := by
  have haddr := h.addr
  by_contra hne
  have hpos := List.length_pos_iff.mpr hne
  have hmem : f.memory mem = f.copied ++ inetNtop source ++
      ([0] ++ (write mem 0 f.copied).drop (f.copied.length + ((inetNtop source).length + 1))) := by
    rw [Found.memory, hs, write, read_write_zero, List.length_append, List.length_singleton]
    simp only [List.append_assoc]
  rw [hmem, read_append_left _ (by rw [List.length_append]; omega),
    read_of_le (by rw [List.length_append]; omega)] at haddr
  have hin : 0 ∈ (f.copied ++ inetNtop source).take ((inetNtop source).length + 1) := by
    rw [haddr]
    simp
  rcases List.mem_append.mp (List.mem_of_mem_take hin) with hc | ha
  · exact hzero hc
  · exact zero_notMem_inetNtop source ha

/-- **Discovery finds a server as it is** exactly when the server has no address of its own. -/
theorem discovery_round_trip_iff (addr cid : List UInt8) (port : Int) (haddr : (cstr addr).length ≤ 19)
    (hcolon : 58 ∉ cstr addr) (hport : 0 ≤ port ∧ port ≤ 65535) (sent buffer : List UInt8) (source : UInt32)
    (mem : List UInt8) (rs : List (Recv × UInt32)) :
    (∃ f, findServerLoop buffer ((.data (ssdpSend (ssdpServerCreate addr port cid) sent), source) :: rs) = some f ∧
      f.Right port source mem) ↔ cstr addr = [] := by
  have hlen := length_response addr cid port haddr hport
  have hfound : findServerLoop buffer ((.data (ssdpSend (ssdpServerCreate addr port cid) sent), source) :: rs) =
      some (parseLocation source (cstr addr ++ 58 :: (decimalInt port ++ behindPort (ssdpServerCreate addr port cid) ++
        buffer.drop (ssdpResponse (ssdpServerCreate addr port cid)).length))) := by
    have hexamine := examine_response (ssdpServerCreate addr port cid)
      (buffer.drop (ssdpResponse (ssdpServerCreate addr port cid)).length) source
    rw [cstr_addr addr cid port haddr] at hexamine
    rw [ssdpSend_eq _ _ hlen, findServerLoop, ssdpReceived_eq, List.take_of_length_le (Nat.le_of_lt hlen), hexamine]
    rfl
  have hcopied := parseLocation_copied source hcolon (decimalInt port ++ behindPort (ssdpServerCreate addr port cid) ++
    buffer.drop (ssdpResponse (ssdpServerCreate addr port cid)).length)
  constructor
  · rintro ⟨f, hf, hright⟩
    rw [hfound, Option.some.injEq] at hf
    subst hf
    have hnil := copied_of_right hright rfl (by
      rw [hcopied]
      exact fun h => zero_notMem_cstr addr (List.mem_of_mem_take h))
    rw [hcopied] at hnil
    rcases List.take_eq_nil_iff.mp hnil with h | h
    · cases h
    · exact h
  · intro hnil
    refine ⟨_, hfound, ?_⟩
    rw [hnil] at hcopied ⊢
    have hempty : (parseLocation source ([] ++ 58 :: (decimalInt port ++ behindPort (ssdpServerCreate addr port cid) ++
        buffer.drop (ssdpResponse (ssdpServerCreate addr port cid)).length))).copied = [] := by simpa using hcopied
    constructor
    · rw [List.nil_append]
      exact (congrArg Int32.toInt (parseLocation_port source (ssdpServerCreate addr port cid) hport.1 _)).trans
        (Int32.toInt_ofInt_of_le (by simp only [ssdpServerCreate]; omega) (by simp only [ssdpServerCreate]; omega))
    · rw [Found.memory, hempty, List.length_nil, write_zero mem, List.nil_append, List.length_nil, List.drop_zero]
      have hread := read_write_zero mem (inetNtop source ++ [0])
      rwa [List.length_append, List.length_singleton] at hread
    · rw [Found.written, hempty, List.length_nil, Nat.zero_add]
      exact length_inetNtop source

/-- The stack of `syncs_find_server`. -/
def clearStack : List UInt8 := List.replicate ssdpPacketSize 0

/-- A server without an address, found at 127.0.0.1. -/
theorem discovery_of_loopback :
    ∃ f, findServer clearStack [(.data (ssdpSend (ssdpServerCreate [] 4444 (text "node")) clearStack), 0x0100007f)] =
      some f ∧ f.Right 4444 0x0100007f (List.replicate 16 0) :=
  (discovery_round_trip_iff [] (text "node") 4444 (by decide) (by decide) (by decide) clearStack
    (snprintf clearStack ssdpPacketSize ssdpMsearch) 0x0100007f (List.replicate 16 0) []).mpr (by decide)

/-- The response of a server with an address. -/
def addressed : List (Recv × UInt32) :=
  [(.data (ssdpSend (ssdpServerCreate (text "10.0.0.7") 4444 (text "node")) clearStack), 0x0700000a)]

/-- The address of the server comes in front of the one that is looked for. -/
theorem discovery_garbled :
    ¬ ∃ f, findServer clearStack addressed = some f ∧ f.Right 4444 0x0700000a (List.replicate 16 0) := by
  rintro ⟨f, hf, hright⟩
  have hcopied : (findServer clearStack addressed).map Found.copied = some (text "10.0.0.7") := by decide +kernel
  have hsource : (findServer clearStack addressed).map Found.source = some 0x0700000a := by decide +kernel
  rw [hf, Option.map_some, Option.some.injEq] at hcopied hsource
  have hnil := copied_of_right hright hsource (by rw [hcopied]; decide)
  rw [hcopied] at hnil
  revert hnil
  decide

end SyncScribe
