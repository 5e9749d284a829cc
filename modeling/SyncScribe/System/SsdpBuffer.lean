import SyncScribe.System.FindServer

/-!
The buffer of discovery. A datagram is received over the text that was sent, or received,
before, and is not terminated; what is searched goes on into the old text. A datagram is
judged by its own bytes when it fills the buffer, when its header is another one, when
nothing behind it can complete the words that are looked for, and when it has them all
and the parse ends in it.
-/

namespace SyncScribe
open Lib Lib.Bytes

/-! ## What is asked -/

/-- What is received of a datagram. -/
def ssdpBytes (d : List UInt8) : List UInt8 := d.take ssdpPacketSize

/-- What `syncs_find_server` makes of a datagram over the old contents of its buffer. -/
def clientOutcome (old d : List UInt8) (source : UInt32) : Option Found :=
  examineResponse (ssdpReceived old d) (ssdpBytes d).length source

/-- Whether `syncs_server_ssdp_receive` answers a datagram. -/
def serverOutcome (old d : List UInt8) : Bool := ssdpMatches msearchHeader (ssdpReceived old d) (ssdpBytes d).length

/-- The client's decision, the address and the port do not depend on the old contents, and without the name of the
service the datagram is not accepted. -/
def ClientOwn (d : List UInt8) : Prop :=
  (∀ (source : UInt32) (old old' : List UInt8), old.length = ssdpPacketSize → old'.length = ssdpPacketSize →
    clientOutcome old d source = clientOutcome old' d source) ∧
  (¬ serviceName <:+: ssdpBytes d → ∀ (source : UInt32) (old : List UInt8), old.length = ssdpPacketSize →
    clientOutcome old d source = none)

/-- The same of the server's decision. -/
def ServerOwn (d : List UInt8) : Prop :=
  (∀ old old' : List UInt8, old.length = ssdpPacketSize → old'.length = ssdpPacketSize →
    serverOutcome old d = serverOutcome old' d) ∧
  (¬ serviceName <:+: ssdpBytes d → ∀ old : List UInt8, old.length = ssdpPacketSize → serverOutcome old d = false)

/-- The bytes of the buffer behind the datagram. -/
def room (d : List UInt8) : Nat := ssdpPacketSize - (ssdpBytes d).length

/-- The words are in the text of the datagram. -/
def Complete (ws : List (List UInt8)) (d : List UInt8) : Prop := ∀ w ∈ ws, w <:+: cstr (ssdpBytes d)

/-- Bytes behind the datagram can complete the words. -/
def Completable (ws : List (List UInt8)) (d : List UInt8) : Prop :=
  ∃ rest : List UInt8, rest.length = room d ∧ ∀ w ∈ ws, w <:+: cstr (ssdpBytes d ++ rest)

/-- The words the client looks for. -/
def responseWords : List (List UInt8) := [serviceName, locationField]

/-- The parse ends in the text `u` behind `LOCATION:`, at a character behind the port, or reads nothing of the `n`
bytes behind it: the only one is the character that is skipped. -/
def LocationSettled (n : Nat) (u : List UInt8) : Prop :=
  (∃ c ∈ u.drop (((u.takeWhile (· ≠ 58)).take (inetAddrstrlen + 1)).length + 1), isDigit c = false) ∨
    (u.length = inetAddrstrlen + 1 ∧ 58 ∉ u ∧ n = 1)

/-- The parse of the datagram ends in it. -/
def ParseSettled (d : List UInt8) : Prop :=
  ∃ i, firstOccurrence locationField (cstr (ssdpBytes d)) = some i ∧
    LocationSettled (room d) ((ssdpBytes d).drop (i + locationField.length))

/-! ## The parse -/

section Parse

variable {u : List UInt8} {n : Nat}

theorem takeWhile_of_notMem (h : 58 ∉ u) : u.takeWhile (· ≠ 58) = u :=
  List.takeWhile_eq_self_iff.mpr fun c hc => by simpa using fun hcolon : c = 58 => h (hcolon ▸ hc)

/-- A parse whose copy ends inside `u`. -/
theorem parse_ends (source : UInt32) (r : List UInt8)
    (hlt : ((u.takeWhile (· ≠ 58)).take (inetAddrstrlen + 1)).length < u.length) :
    parseLocation source (u ++ r) =
      ⟨(u.takeWhile (· ≠ 58)).take (inetAddrstrlen + 1),
        readPort 0 (u.drop (((u.takeWhile (· ≠ 58)).take (inetAddrstrlen + 1)).length + 1) ++ r), source⟩ := by
  have hin : inetAddrstrlen + 1 ≤ u.length ∨ 58 ∈ u := by
    by_contra hnot
    rw [not_or] at hnot
    rw [takeWhile_of_notMem hnot.2, List.take_of_length_le (by omega)] at hlt
    exact Nat.lt_irrefl _ hlt
  rw [parseLocation, copyAddress_append r hin]
  simp only
  rw [List.tail_append_of_ne_nil fun hnil => Nat.not_le_of_lt hlt (List.drop_eq_nil_iff.mp hnil), List.tail_drop]

/-- **What is settled** does not depend on the bytes behind. -/
theorem parse_settled (h : LocationSettled n u) (source : UInt32) {r r' : List UInt8} (hr : r.length = n)
    (hr' : r'.length = n) : parseLocation source (u ++ r) = parseLocation source (u ++ r') := by
  rcases h with h | ⟨hu, hcolon, rfl⟩
  · have hlt : ((u.takeWhile (· ≠ 58)).take (inetAddrstrlen + 1)).length < u.length := by
      obtain ⟨c, hc, _⟩ := h
      have hpos := List.length_pos_of_mem hc
      rw [List.length_drop] at hpos
      omega
    rw [parse_ends source r hlt, parse_ends source r' hlt, readPort_within 0 r h, readPort_within 0 r' h]
  · have hskip : ∀ x : List UInt8, x.length = 1 → parseLocation source (u ++ x) = ⟨u, 0, source⟩ := by
      intro x hx
      obtain ⟨c, rfl⟩ := List.length_eq_one_iff.mp hx
      rw [parseLocation, copyAddress_beyond _ (Nat.le_of_eq hu) hcolon, hu, Nat.sub_self]
      simp [copyAddress, readPort]
    rw [hskip r hr, hskip r' hr']

/-- A port that goes on with a 1 is not one that goes on with a 2. -/
theorem readPort_ne (p : Int32) (k : Nat) :
    readPort p (49 :: List.replicate k 0) ≠ readPort p (50 :: List.replicate k 0) := by
  intro hp
  have hstop : ∀ q : Int32, readPort q (List.replicate k 0) = q := by
    intro q
    cases k <;> rfl
  rw [readPort, readPort, if_pos (by decide), if_pos (by decide), hstop, hstop, Int32.add_right_inj] at hp
  revert hp
  decide

/-- **What is not settled** depends on them. -/
theorem settled_of_parse (hn : 0 < n) (source : UInt32) (h : ∀ r r' : List UInt8, r.length = n → r'.length = n →
    parseLocation source (u ++ r) = parseLocation source (u ++ r')) : LocationSettled n u := by
  obtain ⟨m, rfl⟩ : ∃ m, n = m + 1 := ⟨n - 1, by omega⟩
  by_contra hnot
  simp only [LocationSettled, not_or, not_exists, not_and, Bool.not_eq_false] at hnot
  obtain ⟨hdigits, hedge⟩ := hnot
  have hfirst : ∀ c : UInt8, (c :: List.replicate m 0).length = m + 1 := fun c => by simp
  by_cases hlt : ((u.takeWhile (· ≠ 58)).take (inetAddrstrlen + 1)).length < u.length
  · have heq := congrArg Found.port (h _ _ (hfirst 49) (hfirst 50))
    rw [parse_ends source _ hlt, parse_ends source _ hlt] at heq
    simp only [readPort_append _ _ hdigits] at heq
    exact readPort_ne _ m heq
  · have hcolon : 58 ∉ u := by
      intro hc
      have hsplit : (u.takeWhile (· ≠ 58)).length < u.length := by
        refine Nat.lt_of_le_of_ne (List.takeWhile_prefix _).length_le fun hlen => ?_
        have hself := (List.takeWhile_prefix (fun c : UInt8 => decide (c ≠ 58)) (l := u)).eq_of_length hlen
        have hall := List.takeWhile_eq_self_iff.mp hself 58 hc
        simp at hall
      rw [List.length_take] at hlt
      omega
    have hshort : u.length ≤ inetAddrstrlen + 1 := by
      rw [takeWhile_of_notMem hcolon, List.length_take] at hlt
      omega
    have hparse : ∀ x : List UInt8, parseLocation source (u ++ x) =
        ⟨u ++ (copyAddress (inetAddrstrlen + 1 - u.length) x).1,
          readPort 0 (copyAddress (inetAddrstrlen + 1 - u.length) x).2.tail, source⟩ := by
      intro x
      rw [parseLocation, copyAddress_beyond x hshort hcolon]
    rcases Nat.lt_or_eq_of_le hshort with hless | hfull
    · -- the copy goes on, or ends at a colon
      obtain ⟨k, hk⟩ : ∃ k, inetAddrstrlen + 1 - u.length = k + 1 := ⟨inetAddrstrlen - u.length, by omega⟩
      have heq := congrArg Found.copied (h _ _ (hfirst 58) (hfirst 0))
      rw [hparse, hparse, hk] at heq
      simp [copyAddress] at heq
    · -- the character behind the datagram is skipped, and the port begins
      have hm : m ≠ 0 := by
        intro hm
        exact hedge hfull hcolon (by rw [hm])
      obtain ⟨k, rfl⟩ := Nat.exists_eq_succ_of_ne_zero hm
      have hskip : ∀ c : UInt8, (0 :: c :: List.replicate k 0).length = k + 1 + 1 := fun c => by simp
      have heq := congrArg Found.port (h _ _ (hskip 49) (hskip 50))
      rw [hparse, hparse, hfull, Nat.sub_self] at heq
      exact readPort_ne 0 k heq

end Parse

/-! ## The decisions -/

section Decisions

variable {d r : List UInt8} {header : List UInt8} {source : UInt32}

theorem length_ssdpBytes (d : List UInt8) : (ssdpBytes d).length + room d = ssdpPacketSize := by
  have hle : (ssdpBytes d).length ≤ ssdpPacketSize := List.length_take_le _ _
  rw [room]
  omega

/-- Every rest of the buffer is that of some old contents. -/
theorem exists_old (d : List UInt8) (hr : r.length = room d) :
    ∃ old : List UInt8, old.length = ssdpPacketSize ∧ ssdpReceived old d = ssdpBytes d ++ r := by
  refine ⟨ssdpBytes d ++ r, ?_, ?_⟩
  · rw [List.length_append, hr, length_ssdpBytes]
  · exact (ssdpReceived_eq _ _).trans (by rw [← ssdpBytes, List.drop_left])

theorem length_rest {old : List UInt8} (d : List UInt8) (hold : old.length = ssdpPacketSize) :
    (old.drop (ssdpBytes d).length).length = room d := by
  rw [List.length_drop, hold, room]

/-- The text of a datagram that is followed by a terminator. -/
theorem cstr_zeros (a : List UInt8) {n : Nat} (hn : 0 < n) : cstr (a ++ List.replicate n 0) = cstr a := by
  obtain ⟨m, rfl⟩ : ∃ m, n = m + 1 := ⟨n - 1, by omega⟩
  have hall : 0 ∉ a → cstr a = a := by
    intro h
    have hnil := cstr_append a []
    rw [if_neg h, List.append_nil] at hnil
    exact hnil.trans (List.append_nil a)
  rw [cstr_append]
  split
  · rfl
  · rename_i h
    rw [List.replicate_succ, cstr_cons, if_pos rfl, List.append_nil, hall h]

/-- **When a packet passes the tests of both sides.** -/
theorem ssdpMatches_iff :
    ssdpMatches header (d ++ r) d.length = true ↔ header <+: d ∧ serviceName <:+: cstr (d ++ r) := by
  unfold ssdpMatches
  split
  · rename_i hlt
    refine iff_of_false (by simp) fun h => ?_
    exact absurd h.1.length_le (Nat.not_le_of_lt hlt)
  · rename_i hlt
    have hread : read (d ++ r) header.length = d.take header.length := by
      rw [read_append_left r (Nat.le_of_not_lt hlt), read_of_le (Nat.le_of_not_lt hlt)]
    rw [hread]
    split
    · rename_i hne
      exact iff_of_false (by simp) fun h => hne (List.prefix_iff_eq_take.mp h.1).symm
    · rename_i heq
      rw [firstOccurrence_isSome, List.prefix_iff_eq_take]
      exact ⟨fun h => ⟨(not_not.mp heq).symm, h⟩, fun h => h.2⟩

/-- **When the client takes a packet.** -/
theorem examine_isSome_iff :
    (examineResponse (d ++ r) d.length source).isSome = true ↔
      responseHeader <+: d ∧ ∀ w ∈ responseWords, w <:+: cstr (d ++ r) := by
  simp only [responseWords, List.forall_mem_cons, List.not_mem_nil, false_implies, implies_true, and_true]
  unfold examineResponse
  split
  · rename_i h
    obtain ⟨hheader, hname⟩ := ssdpMatches_iff.mp h
    rw [Option.isSome_map, firstOccurrence_isSome]
    exact ⟨fun hlocation => ⟨hheader, hname, hlocation⟩, fun hall => hall.2.2⟩
  · rename_i h
    refine iff_of_false (by simp) fun hall => h ?_
    exact ssdpMatches_iff.mpr ⟨hall.1, hall.2.1⟩

/-- What it takes from one that has the words. -/
theorem examine_complete {i : Nat} (hheader : responseHeader <+: d) (hname : serviceName <:+: cstr d)
    (hi : firstOccurrence locationField (cstr d) = some i) (r : List UInt8) :
    examineResponse (d ++ r) d.length source = some (parseLocation source (d.drop (i + locationField.length) ++ r)) := by
  obtain ⟨more, hmore⟩ := cstr_prefix d r
  have hmatches : ssdpMatches responseHeader (d ++ r) d.length = true := by
    refine ssdpMatches_iff.mpr ⟨hheader, ?_⟩
    rw [← hmore]
    exact List.infix_append_of_infix_left hname
  have hlocation : locationField <+: d.drop i := by
    obtain ⟨z, hz⟩ := cstr_isPrefix d
    refine (prefix_of_firstOccurrence hi).trans ?_
    conv_rhs => rw [← hz]
    rw [List.drop_append]
    exact List.prefix_append _ _
  obtain ⟨z, hz⟩ := hlocation
  have hle : i ≤ d.length := by
    by_contra hgt
    rw [List.drop_of_length_le (by omega)] at hz
    have hnil := (List.append_eq_nil_iff.mp hz).1
    revert hnil
    decide
  have hbehind : d.drop (i + locationField.length) = z := by
    rw [← List.drop_drop, ← hz, List.drop_left]
  rw [examineResponse, if_pos hmatches, ← hmore, firstOccurrence_append hi, Option.map_some, hbehind,
    List.drop_append_of_le_length hle, ← hz, List.append_assoc, tail_dropWhile_location]

/-- A client that looks only at a datagram it can take has all it looks for in it. -/
theorem ClientOwn.settled (h : ClientOwn d) (hheader : responseHeader <+: ssdpBytes d) (hroom : 0 < room d)
    (hwords : Completable responseWords d) : Complete responseWords d ∧ ParseSettled d := by
  obtain ⟨rest, hrest, hwords⟩ := hwords
  have heq : ∀ r r' : List UInt8, r.length = room d → r'.length = room d →
      examineResponse (ssdpBytes d ++ r) (ssdpBytes d).length 0 =
        examineResponse (ssdpBytes d ++ r') (ssdpBytes d).length 0 := by
    intro r r' hr hr'
    obtain ⟨old, hold, hov⟩ := exists_old d hr
    obtain ⟨old', hold', hov'⟩ := exists_old d hr'
    have hsame := h.1 0 old old' hold hold'
    rwa [clientOutcome, clientOutcome, hov, hov'] at hsame
  have hzeros : (List.replicate (room d) (0 : UInt8)).length = room d := List.length_replicate
  have hsome : (examineResponse (ssdpBytes d ++ rest) (ssdpBytes d).length 0).isSome = true :=
    examine_isSome_iff.mpr ⟨hheader, hwords⟩
  rw [heq rest _ hrest hzeros, examine_isSome_iff, cstr_zeros _ hroom] at hsome
  obtain ⟨hname, hlocation⟩ : serviceName <:+: cstr (ssdpBytes d) ∧ locationField <:+: cstr (ssdpBytes d) :=
    ⟨hsome.2 _ List.mem_cons_self, hsome.2 _ (List.mem_cons_of_mem _ List.mem_cons_self)⟩
  obtain ⟨i, hi⟩ := Option.isSome_iff_exists.mp (firstOccurrence_isSome.mpr hlocation)
  refine ⟨hsome.2, i, hi, settled_of_parse hroom 0 fun r r' hr hr' => ?_⟩
  have hparse := heq r r' hr hr'
  rwa [examine_complete hheader hname hi, examine_complete hheader hname hi, Option.some.injEq] at hparse

/-- What the client makes of a datagram, by the bytes behind it. -/
theorem clientOutcome_eq (d old : List UInt8) (source : UInt32) :
    clientOutcome old d source =
      examineResponse (ssdpBytes d ++ old.drop (ssdpBytes d).length) (ssdpBytes d).length source := by
  rw [clientOutcome, ssdpReceived_eq]
  rfl

/-- A datagram that fills the buffer leaves nothing of the old contents. -/
theorem drop_of_full {old : List UInt8} (hfull : room d = 0) (hold : old.length = ssdpPacketSize) :
    old.drop (ssdpBytes d).length = [] := by
  rw [← List.length_eq_zero_iff, length_rest d hold, hfull]

/-- A datagram that is taken over some contents can be completed. -/
theorem completable_of_taken {old : List UInt8} (hold : old.length = ssdpPacketSize)
    (h : clientOutcome old d source ≠ none) : responseHeader <+: ssdpBytes d ∧ Completable responseWords d := by
  rw [clientOutcome_eq, ← Option.isSome_iff_ne_none, examine_isSome_iff] at h
  exact ⟨h.1, _, length_rest d hold, h.2⟩

/-- A datagram that has all the client looks for is all it looks at. -/
theorem clientOwn_of_settled (h : responseHeader <+: ssdpBytes d → 0 < room d → Completable responseWords d →
    Complete responseWords d ∧ ParseSettled d) : ClientOwn d := by
  refine ⟨?_, ?_⟩
  · intro source old old' hold hold'
    by_cases hnone : clientOutcome old d source = none ∧ clientOutcome old' d source = none
    · rw [hnone.1, hnone.2]
    · obtain ⟨hheader, hcompletable⟩ : responseHeader <+: ssdpBytes d ∧ Completable responseWords d := by
        rcases not_and_or.mp hnone with hne | hne
        · exact completable_of_taken hold hne
        · exact completable_of_taken hold' hne
      rw [clientOutcome_eq, clientOutcome_eq]
      rcases Nat.eq_zero_or_pos (room d) with hfull | hroom
      · rw [drop_of_full hfull hold, drop_of_full hfull hold']
      · obtain ⟨hcomplete, i, hi, hsettled⟩ := h hheader hroom hcompletable
        have hname := hcomplete serviceName List.mem_cons_self
        rw [examine_complete hheader hname hi, examine_complete hheader hname hi,
          parse_settled hsettled source (length_rest d hold) (length_rest d hold')]
  · intro hname source old hold
    by_contra hne
    obtain ⟨hheader, hcompletable⟩ := completable_of_taken hold hne
    rcases Nat.eq_zero_or_pos (room d) with hfull | hroom
    · rw [clientOutcome_eq, drop_of_full hfull hold, ← ne_eq, ← Option.isSome_iff_ne_none, examine_isSome_iff,
        List.append_nil] at hne
      exact hname ((hne.2 _ List.mem_cons_self).trans (cstr_isPrefix _).isInfix)
    · have hcomplete := (h hheader hroom hcompletable).1
      exact hname ((hcomplete _ List.mem_cons_self).trans (cstr_isPrefix _).isInfix)

theorem serverOutcome_iff (d old : List UInt8) : serverOutcome old d = true ↔ msearchHeader <+: ssdpBytes d ∧
    serviceName <:+: cstr (ssdpBytes d ++ old.drop (ssdpBytes d).length) := by
  rw [serverOutcome, ssdpReceived_eq]
  exact ssdpMatches_iff

/-- A server that looks only at a datagram it can answer finds the name in it. -/
theorem ServerOwn.complete (h : ServerOwn d) (hheader : msearchHeader <+: ssdpBytes d) (hroom : 0 < room d)
    (hwords : Completable [serviceName] d) : Complete [serviceName] d := by
  obtain ⟨rest, hrest, hname⟩ := hwords
  obtain ⟨old, hold, hov⟩ := exists_old d hrest
  obtain ⟨old', hold', hov'⟩ := exists_old d (List.length_replicate (n := room d) (a := (0 : UInt8)))
  have hyes : serverOutcome old d = true := by
    rw [serverOutcome, hov]
    exact ssdpMatches_iff.mpr ⟨hheader, hname serviceName (List.mem_singleton_self _)⟩
  rw [h.1 old old' hold hold', serverOutcome, hov', ssdpMatches_iff, cstr_zeros _ hroom] at hyes
  intro w hw
  rw [List.mem_singleton.mp hw]
  exact hyes.2

/-- A datagram that has the name is all the server looks at. -/
theorem serverOwn_of_complete (h : msearchHeader <+: ssdpBytes d → 0 < room d → Completable [serviceName] d →
    Complete [serviceName] d) : ServerOwn d := by
  have hname : ∀ old : List UInt8, old.length = ssdpPacketSize → serverOutcome old d = true →
      serviceName <:+: cstr (ssdpBytes d) := by
    intro old hold hyes
    obtain ⟨hheader, hin⟩ := (serverOutcome_iff d old).mp hyes
    rcases Nat.eq_zero_or_pos (room d) with hfull | hroom
    · rwa [drop_of_full hfull hold, List.append_nil] at hin
    · have hcompletable : Completable [serviceName] d :=
        ⟨_, length_rest d hold, fun w hw => by rw [List.mem_singleton.mp hw]; exact hin⟩
      exact h hheader hroom hcompletable serviceName (List.mem_singleton_self _)
  have hkeep : ∀ old old' : List UInt8, old.length = ssdpPacketSize → serverOutcome old d = true →
      serverOutcome old' d = true := by
    intro old old' hold hyes
    obtain ⟨more, hmore⟩ := cstr_prefix (ssdpBytes d) (old'.drop (ssdpBytes d).length)
    refine (serverOutcome_iff d old').mpr ⟨((serverOutcome_iff d old).mp hyes).1, ?_⟩
    rw [← hmore]
    exact List.infix_append_of_infix_left (hname old hold hyes)
  refine ⟨?_, ?_⟩
  · intro old old' hold hold'
    exact Bool.eq_iff_iff.mpr ⟨hkeep old old' hold, hkeep old' old hold'⟩
  · intro hnot old hold
    by_contra hyes
    exact hnot ((hname old hold (by simpa using hyes)).trans (cstr_isPrefix _).isInfix)

end Decisions

/-! ## Whole runs -/

section Runs

variable {buffer buffer' : List UInt8}

theorem length_ssdpReceived {old : List UInt8} (d : List UInt8) (hold : old.length = ssdpPacketSize) :
    (ssdpReceived old d).length = ssdpPacketSize := by
  rw [ssdpReceived_eq, List.length_append]
  have hrest := length_rest d hold
  have hlen := length_ssdpBytes d
  rw [ssdpBytes] at hrest hlen
  omega

theorem length_snprintf {old : List UInt8} (hold : old.length = ssdpPacketSize) (s : List UInt8) :
    (snprintf old ssdpPacketSize s).length = ssdpPacketSize := by
  rw [snprintf, if_neg (by decide), length_write_of_le, hold]
  rw [List.length_append, List.length_take, List.length_singleton, hold]
  simp only [ssdpPacketSize]
  omega

/-- On such datagrams `syncs_find_server` finds the same, whatever its buffer holds. -/
theorem findServerLoop_own (rs : List (Recv × UInt32)) (h : ∀ d source, (.data d, source) ∈ rs → ClientOwn d)
    (hb : buffer.length = ssdpPacketSize) (hb' : buffer'.length = ssdpPacketSize) :
    findServerLoop buffer rs = findServerLoop buffer' rs := by
  induction rs generalizing buffer buffer' with
  | nil => rfl
  | cons x rs ih =>
    obtain ⟨result, source⟩ := x
    cases result with
    | again => rfl
    | error => rfl
    | data d =>
      have hsame := (h d source List.mem_cons_self).1 source buffer buffer' hb hb'
      simp only [clientOutcome, ssdpBytes] at hsame
      rw [findServerLoop, findServerLoop, hsame]
      cases examineResponse (ssdpReceived buffer' d) (d.take ssdpPacketSize).length source with
      | some f => rfl
      | none =>
        exact ih (fun d source hd => h d source (List.mem_cons_of_mem _ hd)) (length_ssdpReceived d hb)
          (length_ssdpReceived d hb')

/-- On such datagrams the server sends the same, whatever its buffer holds. -/
theorem ssdpReceiveLoop_own (s : SsdpServer) (hs : (ssdpResponse s).length < ssdpPacketSize) (beacon : Bool)
    (rs : List Recv) (h : ∀ d, .data d ∈ rs → ServerOwn d) (hb : buffer.length = ssdpPacketSize)
    (hb' : buffer'.length = ssdpPacketSize) :
    ssdpReceiveLoop s beacon buffer rs = ssdpReceiveLoop s beacon buffer' rs := by
  induction rs generalizing buffer buffer' with
  | nil => rfl
  | cons result rs ih =>
    have hrest : ∀ d, .data d ∈ rs → ServerOwn d := fun d hd => h d (List.mem_cons_of_mem _ hd)
    cases result with
    | error => rfl
    | again => rw [ssdpReceiveLoop, ssdpReceiveLoop, ssdpSend_eq s _ hs, ssdpSend_eq s _ hs]
    | data d =>
      have hsame := (h d List.mem_cons_self).1 buffer buffer' hb hb'
      simp only [serverOutcome, ssdpBytes] at hsame
      rw [ssdpReceiveLoop, ssdpReceiveLoop, hsame, ssdpSend_eq s _ hs, ssdpSend_eq s _ hs]
      split
      · rw [ih hrest (length_snprintf (length_ssdpReceived d hb) _) (length_snprintf (length_ssdpReceived d hb') _)]
      · exact ih hrest (length_ssdpReceived d hb) (length_ssdpReceived d hb')

end Runs

/-- **Discovery looks only at the datagram** exactly when this has another header, fills the buffer, cannot be completed
by what follows it, or has all that is looked for: for the client the parse then ends in it, too. -/
theorem discovery_own_iff (d : List UInt8) :
    (ClientOwn d ↔ (responseHeader <+: ssdpBytes d → 0 < room d → Completable responseWords d →
      Complete responseWords d ∧ ParseSettled d)) ∧
    (ServerOwn d ↔ (msearchHeader <+: ssdpBytes d → 0 < room d → Completable [serviceName] d →
      Complete [serviceName] d)) :=
  ⟨⟨ClientOwn.settled, clientOwn_of_settled⟩, ⟨ServerOwn.complete, serverOwn_of_complete⟩⟩

/-- A response of another device. -/
def foreignResponse : List UInt8 := text "HTTP/1.1 200 OK\r\nLOCATION:1.2.3.4:80\r\n"

/-- A search for anything. -/
def bareSearch : List UInt8 := text "M-SEARCH * HTTP/1.1\r\n"

/-- The client finds the name in its own search, and the server in its last response. -/
theorem foreign_accepted : ¬ ClientOwn foreignResponse ∧ ¬ ServerOwn bareSearch := by
  constructor
  · rintro ⟨_, hnone⟩
    have h := hnone (by decide +kernel) 0 (snprintf clearStack ssdpPacketSize ssdpMsearch)
      (length_snprintf List.length_replicate _)
    revert h
    decide +kernel
  · rintro ⟨_, hfalse⟩
    have h := hfalse (by decide +kernel)
      (snprintf clearStack ssdpPacketSize (ssdpResponse (ssdpServerCreate [] 4444 (text "node"))))
      (length_snprintf List.length_replicate _)
    revert h
    decide +kernel

end SyncScribe
