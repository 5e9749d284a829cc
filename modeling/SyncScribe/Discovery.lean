import SyncScribe.Client.Table
import SyncScribe.Lib.Text
import SyncScribe.Packets

/-!
Discovery. A client multicasts a search, and servers that see it multicast a response,
from which the client takes the address of the sender and the port. Both sides receive
into the buffer that holds what they sent last, and search it with the functions of the
C library for strings, which look for a terminator and not for the end of the packet.
-/

namespace SyncScribe
open Lib Lib.Bytes

/-! ## Texts -/

/-- `SSDP_PACKET_SIZE` -/
abbrev ssdpPacketSize : Nat := 1500

/-- `INET_ADDRSTRLEN` -/
abbrev inetAddrstrlen : Nat := 16

/-- `ssdp_headers.msearch` -/
def msearchHeader : List UInt8 := text "M-SEARCH * HTTP/1.1\r\n"

/-- `ssdp_headers.response` -/
def responseHeader : List UInt8 := text "HTTP/1.1 200 OK\r\n"

/-- `ssdp_network` -/
def ssdpIp : List UInt8 := text "239.255.255.250"
def ssdpPort : Int := 1900

/-- `syncs_ssdp_field.name` -/
def serviceName : List UInt8 := text "syncscribe-server"

/-- The text of `syncs_ssdp_msearch`. -/
def ssdpMsearch : List UInt8 :=
  msearchHeader ++ text "HOST:" ++ ssdpIp ++ text ":" ++ decimalInt ssdpPort ++
    text "\r\nMAN:\"ssdp:discover\"\r\nMX:1\r\nST:" ++ serviceName ++ text "\r\nUSER-AGENT:unknow\r\n\r\n"

/-- The fields of `struct syncs_server` that it makes known; the array `addr` is a C string if it has a terminator. -/
structure SsdpServer where
  addr : List UInt8
  port : Int
  id : Id

/-- `syncs_server_create`; `strncpy` fills the array up with zeros. -/
def ssdpServerCreate (addr : List UInt8) (port : Int) (cid : List UInt8) : SsdpServer :=
  ⟨read (cstr addr) 20, port, idstr cid⟩

/-- The text of `syncs_server_ssdp_response`. -/
def ssdpResponse (s : SsdpServer) : List UInt8 :=
  responseHeader ++ text "CACHE-CONTROL:max-age=120\r\nDATE:\r\nEXT:\r\nLOCATION:" ++ cstr s.addr ++ text ":" ++
    decimalInt s.port ++ text "\r\nSERVER:unknow\r\nST:" ++ serviceName ++ text "\r\nUSN:" ++ cstr s.id.bytes ++
    text "\r\n\r\n"

/-- The buffer after `snprintf` of a text. -/
def snprintf (buffer : List UInt8) (size : Nat) (s : List UInt8) : List UInt8 :=
  if size = 0 then buffer else write buffer 0 (s.take (size - 1) ++ [0])

/-- `inet_ntop` of an IPv4 address, whose bytes are in network order. -/
def inetNtop (ip : UInt32) : List UInt8 :=
  (text ".").intercalate ((leBytes 4 ip.toNat).map fun b => decimal b.toNat)

/-! ## Received packets -/

/-- The buffer after `recvfrom` of a datagram. -/
def ssdpReceived (buffer d : List UInt8) : List UInt8 := write buffer 0 (d.take ssdpPacketSize)

/-- The tests of a packet of `size` bytes in the buffer that both sides make. -/
def ssdpMatches (header buffer : List UInt8) (size : Nat) : Bool :=
  if size < header.length then false
  else if read buffer header.length ≠ header then false
  else (firstOccurrence serviceName (cstr buffer)).isSome

/-- The loop of `syncs_find_server` that copies the address, with `n` characters to go before its `break`: what it
copies, and `location` behind it. -/
def copyAddress : Nat → List UInt8 → List UInt8 × List UInt8
  | 0, location => ([], location)
  | n + 1, location =>
    if location.headD 0 = 58 then ([], location)
    else (location.headD 0 :: (copyAddress n location.tail).1, (copyAddress n location.tail).2)

/-- The loop that reads the port, an `int`. -/
def readPort (port : Int32) : List UInt8 → Int32
  | [] => port
  | c :: location => if isDigit c then readPort (port * 10 + Int32.ofNat (c.toNat - 48)) location else port

/-- What `syncs_find_server` takes from a packet: what it copies to `addr`, the port, and the address it came from. -/
structure Found where
  copied : List UInt8
  port : Int32
  source : UInt32
  deriving DecidableEq

/-- From `location`, behind the first colon, to the port. -/
def parseLocation (source : UInt32) (location : List UInt8) : Found :=
  let r := copyAddress (inetAddrstrlen + 1) location
  ⟨r.1, readPort 0 r.2.tail, source⟩

def locationField : List UInt8 := text "LOCATION:"

/-- One round of the loop of `syncs_find_server`, for a packet of `size` bytes; `none` for `continue`. -/
def examineResponse (buffer : List UInt8) (size : Nat) (source : UInt32) : Option Found :=
  if ssdpMatches responseHeader buffer size then
    (firstOccurrence locationField (cstr buffer)).map fun i =>
      parseLocation source ((buffer.drop i).dropWhile (· ≠ 58)).tail
  else none

/-- The loop of `syncs_find_server` on what `recvfrom` gives; `none` for the return of `-1`. -/
def findServerLoop (buffer : List UInt8) : List (Recv × UInt32) → Option Found
  | [] => none
  | (.again, _) :: _ => none
  | (.error, _) :: _ => none
  | (.data d, source) :: rs =>
    match examineResponse (ssdpReceived buffer d) (d.take ssdpPacketSize).length source with
    | some f => some f
    | none => findServerLoop (ssdpReceived buffer d) rs

/-- `syncs_find_server`; its buffer is on the stack. -/
def findServer (stack : List UInt8) (rs : List (Recv × UInt32)) : Option Found :=
  findServerLoop (snprintf stack ssdpPacketSize ssdpMsearch) rs

/-- The memory `addr` points to after `syncs_find_server`. The loop advances `addr`, and `inet_ntop` writes where it
has got to. -/
def Found.memory (f : Found) (mem : List UInt8) : List UInt8 :=
  write (write mem 0 f.copied) f.copied.length (inetNtop f.source ++ [0])

/-- The number of bytes of it that are written. -/
def Found.written (f : Found) : Nat := f.copied.length + (inetNtop f.source).length + 1

/-- The packet `syncs_server_ssdp_receive` sends: as many bytes of the buffer as `snprintf` returned. -/
def ssdpSend (s : SsdpServer) (buffer : List UInt8) : List UInt8 :=
  read (snprintf buffer ssdpPacketSize (ssdpResponse s)) (ssdpResponse s).length

/-- The loop of `syncs_server_ssdp_receive`: the packets it sends. -/
def ssdpReceiveLoop (s : SsdpServer) (beacon : Bool) (buffer : List UInt8) : List Recv → List (List UInt8)
  | [] => []
  | .error :: _ => []
  | .again :: _ => if beacon then [ssdpSend s buffer] else []
  | .data d :: rs =>
    if ssdpMatches msearchHeader (ssdpReceived buffer d) (d.take ssdpPacketSize).length then
      ssdpSend s (ssdpReceived buffer d) ::
        ssdpReceiveLoop s beacon (snprintf (ssdpReceived buffer d) ssdpPacketSize (ssdpResponse s)) rs
    else ssdpReceiveLoop s beacon (ssdpReceived buffer d) rs

/-! ## Strings in the buffer -/

theorem cstr_append (a b : List UInt8) : cstr (a ++ b) = if 0 ∈ a then cstr a else a ++ cstr b := by
  induction a with
  | nil => rfl
  | cons x a ih =>
    rw [List.cons_append, cstr_cons, cstr_cons, ih]
    by_cases hx : x = 0
    · simp [hx]
    · simp only [hx, if_false, List.mem_cons, Ne.symm hx, false_or, List.cons_append]
      split <;> rfl

theorem zero_notMem_cstr (b : List UInt8) : 0 ∉ cstr b := by
  intro h
  have hne := List.mem_takeWhile_imp h
  simp at hne

/-- The text of a buffer begins with that of its first part. -/
theorem cstr_prefix (a b : List UInt8) : cstr a <+: cstr (a ++ b) := by
  rw [cstr_append]
  split
  · exact List.prefix_rfl
  · rename_i h
    have hall : cstr a = a := by
      have := cstr_append a []
      rw [if_neg h, List.append_nil] at this
      simpa [cstr] using this
    rw [hall]
    exact List.prefix_append _ _

theorem cstr_isPrefix (a : List UInt8) : cstr a <+: a := List.takeWhile_prefix _

/-! ## The loops -/

/-- A copy that ends inside `u`, at a colon or for its length. -/
theorem copyAddress_append {n : Nat} {u : List UInt8} (x : List UInt8) (h : n ≤ u.length ∨ 58 ∈ u) :
    copyAddress n (u ++ x) =
      ((u.takeWhile (· ≠ 58)).take n, u.drop ((u.takeWhile (· ≠ 58)).take n).length ++ x) := by
  induction n generalizing u with
  | zero => simp [copyAddress]
  | succ n ih =>
    cases u with
    | nil => simp at h
    | cons c u =>
      by_cases hc : c = 58
      · simp [copyAddress, hc]
      · have hu : n ≤ u.length ∨ 58 ∈ u := by
          rcases h with h | h
          · exact Or.inl (by simpa using h)
          · exact Or.inr ((List.mem_cons.mp h).resolve_left (Ne.symm hc))
        simp only [copyAddress, List.cons_append, List.headD_cons, hc, if_false, List.tail_cons, ih hu]
        simp [hc]

/-- A copy that does not end inside `u`. -/
theorem copyAddress_beyond {n : Nat} {u : List UInt8} (x : List UInt8) (hn : u.length ≤ n) (hu : 58 ∉ u) :
    copyAddress n (u ++ x) =
      (u ++ (copyAddress (n - u.length) x).1, (copyAddress (n - u.length) x).2) := by
  induction u generalizing n with
  | nil => simp
  | cons c u ih =>
    obtain ⟨m, rfl⟩ : ∃ m, n = m + 1 := ⟨n - 1, by simp only [List.length_cons] at hn; omega⟩
    have hc : c ≠ 58 := fun h => hu (by rw [h]; exact List.mem_cons_self)
    have hm : u.length ≤ m := by simpa using hn
    rw [List.cons_append, copyAddress, List.headD_cons, if_neg hc, List.tail_cons,
      ih hm (fun h => hu (List.mem_cons_of_mem _ h)), List.length_cons, Nat.add_sub_add_right, List.cons_append]

/-- Digits, read one after the other. -/
theorem readPort_append (port : Int32) {ds : List UInt8} (x : List UInt8) (h : ∀ c ∈ ds, isDigit c = true) :
    readPort port (ds ++ x) = readPort (readPort port ds) x := by
  induction ds generalizing port with
  | nil => rfl
  | cons c ds ih =>
    rw [List.cons_append, readPort, readPort, if_pos (h c List.mem_cons_self), if_pos (h c List.mem_cons_self)]
    exact ih _ fun d hd => h d (List.mem_cons_of_mem _ hd)

/-- A port that ends inside `v`. -/
theorem readPort_within (port : Int32) {v : List UInt8} (x : List UInt8) (h : ∃ c ∈ v, isDigit c = false) :
    readPort port (v ++ x) = readPort port v := by
  induction v generalizing port with
  | nil =>
    obtain ⟨c, hc, _⟩ := h
    cases hc
  | cons d v ih =>
    rw [List.cons_append, readPort, readPort]
    split
    · rename_i hd
      refine ih _ ?_
      obtain ⟨c, hc, hdigit⟩ := h
      rcases List.mem_cons.mp hc with rfl | hc
      · rw [hd] at hdigit
        cases hdigit
      · exact ⟨c, hc, hdigit⟩
    · rfl

theorem readPort_digits {ds : List UInt8} (h : ∀ c ∈ ds, isDigit c = true) (acc : Nat) :
    readPort (Int32.ofNat acc) ds = Int32.ofNat (decimalValue acc ds) := by
  induction ds generalizing acc with
  | nil => rfl
  | cons c ds ih =>
    have hstep : Int32.ofNat acc * 10 + Int32.ofNat (c.toNat - 48) = Int32.ofNat (acc * 10 + (c.toNat - 48)) := by
      rw [Int32.ofNat_add, Int32.ofNat_mul]
      rfl
    rw [readPort, if_pos (h c List.mem_cons_self), hstep, ih (fun d hd => h d (List.mem_cons_of_mem _ hd))]
    rfl

/-- **A decimal number is read back**, up to the range of an `int`. -/
theorem readPort_decimal (n : Nat) : readPort 0 (decimal n) = Int32.ofNat n := by
  have hdigits : ∀ c ∈ decimal n, isDigit c = true := fun c hc => isDigit_of_mem_decimal hc
  have h := readPort_digits hdigits 0
  rwa [decimalValue_decimal] at h

end SyncScribe
