import SyncScribe.Server.Session
import SyncScribe.Client.Process

/-!
Segmentation of the TCP streams. Both receive loops keep an unfinished packet
from one read to the next, and both drop a read that is shorter than a header.
So the packets dispatched do not depend on the read boundaries for exactly those
cuts in which every read fills a header, or in which all reads together do not.
-/

namespace SyncScribe
open Lib Lib.Bytes

/-- Every read fills a header, or all of them together do not. -/
def WholeReads (sizes : List Nat) : Prop :=
  (∀ n ∈ sizes, headerSize ≤ n) ∨ sizes.sum < headerSize

/-- The packets dispatched are those of the bytes received, scanned in one piece. -/
def Turns.Transparent (ts : Turns) : Prop := ts.dispatched = packets ts.reads.flatten

instance (ts : Turns) : Decidable ts.Transparent := inferInstanceAs (Decidable (_ = _))

/-- The lengths of the reads. -/
def Turns.sizes (ts : Turns) : List Nat := ts.reads.map List.length

/-- A short read dispatches nothing. -/
theorem dispatched_short (ends : Packet → Bool) (b : List UInt8) (rs : List Recv)
    (h : ∀ x ∈ (connTurns ends (some b) rs).reads, x.length < headerSize) :
    (connTurns ends (some b) rs).dispatched = [] := by
  induction rs generalizing b with
  | nil => rfl
  | cons r rs ih =>
    rw [connTurns_cons] at h ⊢
    cases r with
    | again => exact ih b h
    | error => simp [connStep, Turns.dispatched]
    | data bytes =>
      by_cases hnil : bytes = []
      · subst hnil
        simp [connStep, headerSize, Turns.dispatched]
      · simp only [Turns.reads, if_neg hnil, List.mem_cons, forall_eq_or_imp] at h
        have h0 : ¬ bytes.length = 0 := fun h0 => hnil (List.length_eq_zero_iff.mp h0)
        simp only [connStep, if_pos h.1, if_neg h0] at h ⊢
        exact ih b h.2

theorem packets_short {x : List UInt8} (h : x.length < headerSize) : packets x = [] :=
  (packets_of_wait (packetLook_wait_iff.mpr (Or.inl h))).1

theorem length_flatten_reads (ts : Turns) : ts.reads.flatten.length = ts.sizes.sum := by
  rw [List.length_flatten, Turns.sizes]

/-- Whole reads are transparent. -/
theorem transparent_of_whole (ends : Packet → Bool) (rs : List Recv)
    (h : WholeReads (connTurns ends (some []) rs).sizes) : (connTurns ends (some []) rs).Transparent := by
  rcases h with hlong | hsum
  · refine dispatched_eq_packets rs fun x hx => ?_
    exact hlong _ (List.mem_map_of_mem hx)
  · have hshort : ∀ x ∈ (connTurns ends (some []) rs).reads, x.length < headerSize := by
      intro x hx
      have hmem : x.length ∈ (connTurns ends (some []) rs).sizes := List.mem_map_of_mem hx
      have hle := List.le_sum_of_mem hmem
      omega
    rw [Turns.Transparent, dispatched_short ends [] rs hshort, packets_short]
    rw [length_flatten_reads]
    exact hsum

/-- Cuts that are not whole lose a packet of some stream. -/
theorem exists_not_transparent (ends : Packet → Bool) {sizes : List Nat} (hpos : ∀ n ∈ sizes, 0 < n)
    (h : ¬ WholeReads sizes) :
    ∃ reads : List (List UInt8), (connTurns ends (some []) (reads.map .data)).sizes = sizes ∧
      ¬ (connTurns ends (some []) (reads.map .data)).Transparent := by
  simp only [WholeReads, not_or, not_forall, Nat.not_le, Nat.not_lt] at h
  obtain ⟨⟨n, hn, hlt⟩, hsum⟩ := h
  obtain ⟨reads, hsizes, hreads, hdisp, hne⟩ := exists_lost ends hpos ⟨n, hn, hlt⟩ hsum
  refine ⟨reads, by rw [Turns.sizes, hreads, hsizes], ?_⟩
  rw [Turns.Transparent, hdisp, hreads]
  exact fun heq => hne heq.symm

theorem received_reads (c : ClientIx) (reads : List (List UInt8)) :
    received c (reads.map fun x => .tcp (fun _ => .calm) c (.data x)) = reads.map .data := by
  induction reads with
  | nil => rfl
  | cons x reads ih => simp only [List.map_cons, received, ↓reduceIte, ih]

/-- **Framing does not depend on segmentation for exactly the whole cuts**, on either side. -/
theorem transparent_iff_whole (sizes : List Nat) (hpos : ∀ n ∈ sizes, 0 < n) :
    (∀ (s : Server) (c : ClientIx), (s.clients c).tcp = true → (s.clients c).buffer = [] →
      ((∀ is, (session c s is).sizes = sizes → (session c s is).Transparent) ↔ WholeReads sizes)) ∧
    (∀ s : Connect, s.onexit = false →
      ((∀ rs, (recvTurns ⟨s, [], false⟩ rs).sizes = sizes → (recvTurns ⟨s, [], false⟩ rs).Transparent) ↔
        WholeReads sizes)) := by
  refine ⟨?_, ?_⟩
  · intro s c htcp hbuf
    have hconn : s.connection c = some [] := by simp [Server.connection, htcp, hbuf]
    simp only [session_eq_connTurns, hconn]
    constructor
    · intro h
      by_contra hw
      obtain ⟨reads, hsizes, hnot⟩ := exists_not_transparent Packet.closes hpos hw
      rw [← received_reads c] at hsizes hnot
      exact hnot (h _ hsizes)
    · intro hw is hsizes
      exact transparent_of_whole _ _ (hsizes ▸ hw)
  · intro s hexit
    have hconn : (⟨s, [], false⟩ : Receiver).connection = some [] := by
      simp [Receiver.connection, Receiver.reading, hexit]
    simp only [recvTurns_eq_connTurns, hconn]
    constructor
    · intro h
      by_contra hw
      obtain ⟨reads, hsizes, hnot⟩ := exists_not_transparent Packet.stops hpos hw
      have hmap : (reads.map fun x => ClientRead.mk (fun _ => .calm) [] (.data x)).map ClientRead.result =
          reads.map .data := by
        rw [List.map_map]
        rfl
      rw [← hmap] at hsizes hnot
      exact hnot (h _ hsizes)
    · intro hw rs hsizes
      exact transparent_of_whole _ _ (hsizes ▸ hw)

/-- A server with one client. -/
def oneClient : Server := (run handleStep (serverCreate []) [.accept (some (3, ⟨1, 2⟩))]).1

/-- A packet in two reads that both fill a header. -/
theorem two_headers_transparent :
    (∀ is, (session 0 oneClient is).sizes = [60, 60] → (session 0 oneClient is).Transparent) ∧
      ∀ rs, (recvTurns ⟨connectCreate [] [], [], false⟩ rs).sizes = [60, 60] →
        (recvTurns ⟨connectCreate [] [], [], false⟩ rs).Transparent := by
  have hwhole : WholeReads [60, 60] := Or.inl (by decide)
  have h := transparent_iff_whole [60, 60] (by decide)
  exact ⟨(h.1 oneClient 0 (by decide +kernel) (by decide +kernel)).mpr hwhole,
    (h.2 (connectCreate [] []) rfl).mpr hwhole⟩

/-- A packet in two reads of thirty bytes is lost, on either side. -/
theorem split_header_lost :
    ¬ (session 0 oneClient
        [.tcp (fun _ => .calm) 0 (.data (probe.take 30)), .tcp (fun _ => .calm) 0 (.data (probe.drop 30))]).Transparent ∧
      ¬ (recvTurns ⟨connectCreate [] [], [], false⟩
        [⟨fun _ => .calm, [], .data (probe.take 30)⟩, ⟨fun _ => .calm, [], .data (probe.drop 30)⟩]).Transparent := by
  decide +kernel

end SyncScribe
