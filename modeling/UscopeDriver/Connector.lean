import UscopeDriver.Library.Bytes
import UscopeDriver.Machine

/-!
# The header of a request

A client announces a message with its size in four bytes and waits for an ack. The header loops of
`receive_command` read until four bytes have come, ack, and start again while the size is zero. They
share one counter, which no header resets, and every read goes to the start of the buffer. So a
header in pieces is seldom read as it was sent (`receives_size_iff`).
-/

namespace UscopeDriver

open Bytes

/-- What `read_some` returns : the bytes that came, at least one and no more than fit the buffer,
or an error code. -/
inductive SocketRead where
  | data (bytes : List UInt8)
  | eof
  | error (what : String)
  deriving DecidableEq, Repr

/-- What the server does on the socket. -/
inductive SocketEvent where
  | received (bytes : List UInt8)
  | acked
  deriving DecidableEq, Repr

/-- How the header loops end. -/
inductive HeaderEnd where
  | size (messageSize : Nat)
  /-- The client is gone. The call returns nothing. -/
  | closed
  /-- A `std::runtime_error`. -/
  | failed (what : String)
  /-- Nothing more has come. -/
  | waiting
  deriving DecidableEq, Repr

/-- The run of the header loops : how it ended, what it did and the reads that are left. -/
structure HeaderPhase where
  ended : HeaderEnd
  events : List SocketEvent
  rest : List SocketRead
  deriving DecidableEq, Repr

/-- The run after earlier events. -/
def HeaderPhase.after (events : List SocketEvent) (phase : HeaderPhase) : HeaderPhase :=
  { phase with events := events ++ phase.events }

namespace ServerConnector

/-- The cleared `raw_command_size`. -/
def cleared : List UInt8 := [0, 0, 0, 0]

/-- A read into `raw_command_size`. It goes to the start of the buffer. -/
def overwrite (raw piece : List UInt8) : List UInt8 :=
  piece ++ raw.drop piece.length

/-- The two header loops, from a counter and a buffer on. -/
def receiveSize : List SocketRead → Nat → List UInt8 → HeaderPhase
  | [], _, _ => ⟨.waiting, [], []⟩
  | .eof :: reads, _, _ => ⟨.closed, [], reads⟩
  | .error what :: reads, _, _ => ⟨.failed what, [], reads⟩
  | .data piece :: reads, curSize, raw =>
    let curSize := u32 (curSize + piece.length)
    let raw := overwrite raw piece
    -- the inner loop goes on
    if curSize < 4 then (receiveSize reads curSize raw).after [.received piece]
    -- the header is acked, and the outer loop goes on with a cleared buffer
    else if ofLittleEndian raw = 0 then
      (receiveSize reads curSize cleared).after [.received piece, .acked]
    else ⟨.size (ofLittleEndian raw), [.received piece, .acked], reads⟩

@[simp] theorem after_after (events events' : List SocketEvent) (phase : HeaderPhase) :
    (phase.after events').after events = phase.after (events ++ events') := by
  simp [HeaderPhase.after]

/-- A size is received before it is acked. -/
theorem events_of_size {reads : List SocketRead} {curSize : Nat} {raw : List UInt8} {n : Nat}
    (h : (receiveSize reads curSize raw).ended = .size n) :
    ∃ piece events, (receiveSize reads curSize raw).events = .received piece :: events := by
  cases reads with
  | nil => cases h
  | cons r reads =>
    cases r with
    | eof => cases h
    | error what => cases h
    | data piece =>
      simp only [receiveSize]
      split_ifs <;> exact ⟨piece, _, rfl⟩

/-! ## What a client sends -/

/-- The header that announces `n` bytes. -/
def header (n : Nat) : List UInt8 := littleEndian 4 n

/-- What the server should do for a header that comes in these pieces. -/
def headerEvents (pieces : List (List UInt8)) : List SocketEvent :=
  pieces.map .received ++ [.acked]

/-- The reads of headers in pieces. -/
def headerReads (headers : List (List (List UInt8))) : List SocketRead :=
  headers.flatMap fun pieces => pieces.map .data

section HeaderReads

variable (last : List (List UInt8)) (reads : List SocketRead)

/-- The last header is read in its own pieces. -/
theorem headerReads_last : headerReads ([] ++ [last]) ++ reads = last.map .data ++ reads := by
  simp [headerReads]

/-- An empty message before it is read first. -/
theorem headerReads_next (z : List (List UInt8)) (zs : List (List (List UInt8))) :
    headerReads (z :: zs ++ [last]) ++ reads =
      z.map .data ++ (headerReads (zs ++ [last]) ++ reads) := by
  simp [headerReads]

theorem headerEvents_last :
    ([] ++ [last]).flatMap headerEvents = headerEvents last ++ [] := by
  simp

theorem headerEvents_next (z : List (List UInt8)) (zs : List (List (List UInt8))) :
    (z :: zs ++ [last]).flatMap headerEvents =
      headerEvents z ++ (zs ++ [last]).flatMap headerEvents := by
  simp

end HeaderReads

/-! ## The first header -/

/-- The buffer after the pieces of a header. -/
def assembled (raw : List UInt8) (pieces : List (List UInt8)) : List UInt8 :=
  pieces.foldl overwrite raw

/-- The pieces of four bytes are all read before the ack. -/
theorem receiveSize_first {pieces : List (List UInt8)} {curSize : Nat}
    (hsize : curSize + pieces.flatten.length = 4) (hne : ∀ p ∈ pieces, p ≠ []) (hnil : pieces ≠ [])
    (raw : List UInt8) (reads : List SocketRead) :
    receiveSize (pieces.map .data ++ reads) curSize raw =
      if ofLittleEndian (assembled raw pieces) = 0 then
        (receiveSize reads 4 cleared).after (headerEvents pieces)
      else ⟨.size (ofLittleEndian (assembled raw pieces)), headerEvents pieces, reads⟩ := by
  induction pieces generalizing curSize raw with
  | nil => exact absurd rfl hnil
  | cons p ps ih =>
    rw [List.flatten_cons, List.length_append] at hsize
    have hwrap : u32 (curSize + p.length) = curSize + p.length := u32_of_lt (by omega)
    have hassembled : assembled raw (p :: ps) = assembled (overwrite raw p) ps := rfl
    rw [List.map_cons, List.cons_append, receiveSize, hwrap, hassembled]
    cases ps with
    | nil =>
      have hfour : curSize + p.length = 4 := by simpa using hsize
      rw [hfour]
      rfl
    | cons q qs =>
      have hq : q ≠ [] := hne q (by simp)
      have hpos := List.length_pos_of_ne_nil hq
      have hlt : curSize + p.length < 4 := by
        rw [List.flatten_cons, List.length_append] at hsize
        omega
      rw [if_pos hlt, ih (by omega) (fun r hr => hne r (by simp [hr])) (by simp)]
      split_ifs
      · rw [after_after]
        rfl
      · rfl

/-! ## The headers after it -/

theorem after_eq_iff {phase : HeaderPhase} {ended : HeaderEnd}
    {events events' : List SocketEvent} {reads : List SocketRead} :
    phase.after events = ⟨ended, events ++ events', reads⟩ ↔ phase = ⟨ended, events', reads⟩ := by
  obtain ⟨ended', events'', reads'⟩ := phase
  simp [HeaderPhase.after]

/-- A later header that comes in one piece is read as it is, while the counter does not wrap. -/
theorem receiveSize_whole {bytes : List UInt8} (hbytes : bytes.length = 4) {j : Nat}
    (hj : j + 1 < 2 ^ 30) (reads : List SocketRead) :
    receiveSize (.data bytes :: reads) (4 * j) cleared =
      if ofLittleEndian bytes = 0 then
        (receiveSize reads (4 * (j + 1)) cleared).after (headerEvents [bytes])
      else ⟨.size (ofLittleEndian bytes), headerEvents [bytes], reads⟩ := by
  have hwrap : u32 (4 * j + 4) = 4 * (j + 1) := u32_of_lt (by omega)
  have hraw : overwrite cleared bytes = bytes := by
    rw [overwrite, hbytes]
    exact List.append_nil bytes
  rw [receiveSize, hbytes, hwrap, hraw, if_neg (by omega)]
  rfl

/-- Otherwise the ack comes too early or too late. -/
theorem receiveSize_not_whole {bytes : List UInt8} (hbytes : bytes.length = 4)
    {pieces : List (List UInt8)} (hsplit : IsSplit bytes pieces) {j : Nat} (hj : 0 < j)
    (hj' : j < 2 ^ 30) (h : ¬(pieces.length = 1 ∧ j + 1 < 2 ^ 30)) (reads : List SocketRead)
    {n : Nat} (events : List SocketEvent) (left : List SocketRead) :
    receiveSize (pieces.map .data ++ reads) (4 * j) cleared ≠
      ⟨.size n, headerEvents pieces ++ events, left⟩ := by
  intro heq
  obtain ⟨hflatten, hne⟩ := hsplit
  cases pieces with
  | nil => simp [← hflatten] at hbytes
  | cons p ps =>
    have hlength : p.length + ps.flatten.length = 4 := by
      rw [← hbytes, ← hflatten, List.flatten_cons, List.length_append]
    rw [List.map_cons, List.cons_append, receiveSize] at heq
    cases ps with
    | nil =>
      -- the counter wraps, so this header is not acked
      have hp : p.length = 4 := by simpa using hlength
      have hlast : 4 * j + 4 = 2 ^ 32 := by
        simp only [List.length_singleton, true_and, not_lt] at h
        omega
      have hwrap : u32 (4 * j + p.length) = 0 := by
        rw [hp, hlast]
        rfl
      rw [hwrap, if_pos (by norm_num), List.map_nil, List.nil_append] at heq
      obtain ⟨piece, rest, hrest⟩ := events_of_size (congrArg HeaderPhase.ended heq)
      have hevents := congrArg HeaderPhase.events heq
      simp [HeaderPhase.after, headerEvents, hrest] at hevents
    | cons q qs =>
      -- the rest of this header is read as the next one
      have hq := List.length_pos_of_ne_nil (hne q (by simp))
      have hp := List.length_pos_of_ne_nil (hne p (by simp))
      rw [List.flatten_cons, List.length_append] at hlength
      have hwrap : u32 (4 * j + p.length) = 4 * j + p.length := u32_of_lt (by omega)
      rw [hwrap, if_neg (by omega)] at heq
      have hevents := congrArg HeaderPhase.events heq
      split_ifs at hevents <;> simp [HeaderPhase.after, headerEvents] at hevents

/-- One piece holds all the bytes. -/
theorem eq_singleton_of_isSplit {bytes : List UInt8} {pieces : List (List UInt8)}
    (h : IsSplit bytes pieces) (hone : pieces.length = 1) : pieces = [bytes] := by
  obtain ⟨p, rfl⟩ := List.length_eq_one_iff.1 hone
  rw [← h.1, List.flatten_singleton]

/-- From a later header on, the place in the array decides how many empty messages there can be. -/
theorem receiveSize_later_iff {n : Nat} (hn : 0 < n) (hn' : n < 2 ^ 32)
    {zeros : List (List (List UInt8))} (hz : ∀ pieces ∈ zeros, IsSplit (header 0) pieces)
    {last : List (List UInt8)} (hl : IsSplit (header n) last) (reads : List SocketRead) {j : Nat}
    (hj : 0 < j) (hj' : j < 2 ^ 30) :
    receiveSize (headerReads (zeros ++ [last]) ++ reads) (4 * j) cleared =
        ⟨.size n, (zeros ++ [last]).flatMap headerEvents, reads⟩ ↔
      (∀ pieces ∈ zeros ++ [last], pieces.length = 1) ∧ j + (zeros.length + 1) < 2 ^ 30 := by
  have hsize : ∀ m, (header m).length = 4 := fun m => length_littleEndian 4 m
  have hvalue : ∀ m < 2 ^ 32, ofLittleEndian (header m) = m := fun m hm =>
    ofLittleEndian_littleEndian hm
  induction zeros generalizing j with
  | nil =>
    rw [headerReads_last, headerEvents_last]
    by_cases hw : last.length = 1 ∧ j + 1 < 2 ^ 30
    · obtain rfl := eq_singleton_of_isSplit hl hw.1
      rw [List.map_singleton, List.singleton_append, receiveSize_whole (hsize n) hw.2,
        hvalue n hn', if_neg (by omega)]
      simpa using hw.2
    · refine iff_of_false (receiveSize_not_whole (hsize n) hl hj hj' hw _ _ _) fun h => hw ?_
      exact ⟨h.1 last (by simp), by simpa using h.2⟩
  | cons z zs ih =>
    rw [headerReads_next, headerEvents_next]
    by_cases hw : z.length = 1 ∧ j + 1 < 2 ^ 30
    · obtain rfl := eq_singleton_of_isSplit (hz z (by simp)) hw.1
      have hrest := ih (fun p hp => hz p (by simp [hp])) (Nat.succ_pos j) hw.2
      rw [List.map_singleton, List.singleton_append, receiveSize_whole (hsize 0) hw.2,
        hvalue 0 (by norm_num), if_pos rfl]
      refine after_eq_iff.trans (hrest.trans ?_)
      rw [List.cons_append, List.forall_mem_cons, List.length_singleton, List.length_cons,
        and_iff_right rfl]
      refine and_congr_right fun _ => ?_
      omega
    · refine iff_of_false (receiveSize_not_whole (hsize 0) (hz z (by simp)) hj hj' hw _ _ _)
        fun h => hw ⟨h.1 z (by simp), ?_⟩
      have := h.2
      rw [List.length_cons] at this
      omega

/-! ## The header phase -/

/-- The pieces in which a header is read as it was sent, when it is the first one. -/
def ReadsInPieces (n : Nat) (pieces : List (List UInt8)) : Prop :=
  pieces.length = 1 ∨
  pieces.map List.length = [3, 1] ∧ n % 256 = 0 ∧ n < 2 ^ 24 ∨
  pieces.map List.length = [2, 1, 1] ∧ n % 256 = 0 ∧ n < 2 ^ 16

/-- The bytes of the pieces make the size if each byte stands where it belongs. -/
theorem assembled_iff {n : Nat} (hn : 0 < n) (hn' : n < 2 ^ 32) {pieces : List (List UInt8)}
    (h : IsSplit (header n) pieces) :
    ofLittleEndian (assembled cleared pieces) = n ↔ ReadsInPieces n pieces := by
  obtain ⟨a, b, c, d, hheader, ha, hb, hc, hd⟩ : ∃ a b c d : UInt8, header n = [a, b, c, d] ∧
      a.toNat = n % 256 ∧ b.toNat = n / 256 % 256 ∧ c.toNat = n / 256 / 256 % 256 ∧
        d.toNat = n / 256 / 256 / 256 % 256 :=
    ⟨_, _, _, _, rfl, rfl, rfl, rfl, rfl⟩
  have hvalue : n = a.toNat + 256 * (b.toNat + 256 * (c.toNat + 256 * d.toNat)) := by omega
  have hassembled : ∀ w x y z, assembled cleared pieces = [w, x, y, z] →
      (ofLittleEndian (assembled cleared pieces) = n ↔
        w.toNat = a.toNat ∧ x.toNat = b.toNat ∧ y.toNat = c.toNat ∧ z.toNat = d.toNat) := by
    intro w x y z h
    have hw := w.toNat_lt
    have hx := x.toNat_lt
    have hy := y.toNat_lt
    rw [h]
    simp only [ofLittleEndian]
    omega
  have hzero : (0 : UInt8).toNat = 0 := rfl
  rw [hheader] at h
  simp [isSplit_cons, isSplit_nil] at h
  -- before the second byte is a cut in the first four cases, before the third in 1, 2, 5 and 6
  rcases h with ⟨_, rfl, ⟨_, rfl, rfl | rfl⟩ | ⟨_, _, rfl, ⟨rfl, rfl⟩ | ⟨rfl, rfl⟩⟩⟩ |
    ⟨_, _, rfl, ⟨rfl, rfl | rfl⟩ | ⟨_, rfl, ⟨rfl, rfl⟩ | ⟨rfl, rfl⟩⟩⟩
  · rw [hassembled d 0 0 0 rfl]
    simp [ReadsInPieces]
    omega
  · rw [hassembled c d 0 0 rfl]
    simp [ReadsInPieces]
    omega
  · rw [hassembled d c 0 0 rfl]
    simp [ReadsInPieces]
    omega
  · rw [hassembled b c d 0 rfl]
    simp [ReadsInPieces]
    omega
  · rw [hassembled d b 0 0 rfl]
    simp [ReadsInPieces]
    omega
  · rw [hassembled c d 0 0 rfl]
    simp [ReadsInPieces]
    omega
  · rw [hassembled d b c 0 rfl]
    simp [ReadsInPieces]
    omega
  · rw [hassembled a b c d rfl]
    simp [ReadsInPieces]

/-- Whatever its pieces, a zero-size header is read as zero. -/
theorem assembled_zero {pieces : List (List UInt8)} (h : IsSplit (header 0) pieces) :
    ofLittleEndian (assembled cleared pieces) = 0 := by
  have hzero : ∀ b ∈ pieces.flatten, b = 0 := by
    rw [h.1]
    simp [header, littleEndian]
  have hstep : ∀ raw : List UInt8, (∀ b ∈ raw, b = 0) → ∀ b ∈ assembled raw pieces, b = 0 := by
    clear h
    induction pieces with
    | nil => exact fun raw hraw => hraw
    | cons p ps ih =>
      rw [List.flatten_cons, List.forall_mem_append] at hzero
      refine fun raw hraw => ih hzero.2 _ (List.forall_mem_append.2 ⟨hzero.1, fun b hb => ?_⟩)
      exact hraw b (List.mem_of_mem_drop hb)
  exact ofLittleEndian_eq_zero (hstep cleared (by simp [cleared]))

/-- For a message size, any number of zero-size headers before it and any pieces of the headers, the
header phase reads exactly the headers, acks each of them once and ends with the size, exactly when
there are less than `2 ^ 30` headers and, if there are several, all but the first come in one piece.
A single header may be cut, if its pieces are read over one another to the same number. -/
theorem receives_size_iff {n : Nat} (hn : 0 < n) (hn' : n < 2 ^ 32)
    {zeros : List (List (List UInt8))} (hz : ∀ pieces ∈ zeros, IsSplit (header 0) pieces)
    {last : List (List UInt8)} (hl : IsSplit (header n) last) (reads : List SocketRead) :
    receiveSize (headerReads (zeros ++ [last]) ++ reads) 0 cleared =
        ⟨.size n, (zeros ++ [last]).flatMap headerEvents, reads⟩ ↔
      zeros.length + 1 < 2 ^ 30 ∧
        if zeros = [] then ReadsInPieces n last
        else ∀ pieces ∈ zeros.tail ++ [last], pieces.length = 1 := by
  have hfirst : ∀ m pieces reads, IsSplit (header m) pieces →
      receiveSize (pieces.map .data ++ reads) 0 cleared =
        if ofLittleEndian (assembled cleared pieces) = 0 then
          (receiveSize reads 4 cleared).after (headerEvents pieces)
        else ⟨.size (ofLittleEndian (assembled cleared pieces)), headerEvents pieces, reads⟩ := by
    intro m pieces reads h
    have hlength : (header m).length = 4 := length_littleEndian 4 m
    refine receiveSize_first ?_ h.2 (h.ne_nil fun hnil => ?_) _ _
    · rw [h.1, hlength]
    · rw [hnil] at hlength
      cases hlength
  cases zeros with
  | nil =>
    have hvalue := assembled_iff hn hn' hl
    rw [headerReads_last, headerEvents_last, hfirst n last reads hl, if_pos rfl, ← hvalue]
    split_ifs with hzero
    · refine iff_of_false (fun heq => ?_) (by omega)
      have hrest := after_eq_iff.1 heq
      obtain ⟨piece, events, hsome⟩ := events_of_size (congrArg HeaderPhase.ended hrest)
      rw [hrest] at hsome
      cases hsome
    · simp
  | cons z zs =>
    have hzs : ∀ pieces ∈ zs, IsSplit (header 0) pieces := fun p hp =>
      hz p (List.mem_cons_of_mem z hp)
    have hrest := receiveSize_later_iff hn hn' hzs hl reads (j := 1) (by norm_num) (by norm_num)
    rw [headerReads_next, headerEvents_next, hfirst 0 z _ (hz z (by simp)),
      if_pos (assembled_zero (hz z (by simp)))]
    refine after_eq_iff.trans (hrest.trans ?_)
    rw [if_neg (by simp), List.tail_cons, List.length_cons, and_comm]
    refine and_congr_left fun _ => ?_
    omega

/-- A header of 300 bytes after an empty message that came in two pieces. -/
theorem receives_size_300 :
    receiveSize (headerReads [[[0], [0, 0, 0]], [header 300]] ++ [.eof]) 0 cleared =
      ⟨.size 300, [[[0], [0, 0, 0]], [header 300]].flatMap headerEvents, [.eof]⟩ := by
  have hz : ∀ pieces ∈ [[[0], [0, 0, 0]]], IsSplit (header 0) pieces := by
    simp [IsSplit, header, littleEndian]
  have hl : IsSplit (header 300) [header 300] := by
    simp [IsSplit, header, littleEndian]
  exact (receives_size_iff (by norm_num) (by norm_num) hz hl [.eof]).2 (by simp)

/-- In two halves, the same header is read as 0, and the next bytes are taken for another one. -/
theorem halves_of_300 :
    ¬receiveSize (headerReads [[[44, 1], [0, 0]]] ++ [.data [1], .eof]) 0 cleared =
      ⟨.size 300, [[[44, 1], [0, 0]]].flatMap headerEvents, [.data [1], .eof]⟩ := by
  decide

end ServerConnector

end UscopeDriver
