import Numa.MessageBounds

/-!
# Datagrams in the buffer

A datagram that came through a proxy is shifted to the start of the buffer, and
the octets that it leaves there stand behind the message.  The parser does not
notice as long as the walk over the message finds its octets, but it completes
every message that was cut off.
-/

namespace Numa

open BytePacketBuffer

/-! ## The proxy header -/

/-- The octets from `start` up to `stop` are copied to the start of the buffer. -/
def copyWithin (buf : List UInt8) (start stop : Nat) : List UInt8 :=
  (buf.take stop).drop start ++ buf.drop (stop - start)

/-- What a datagram carries in front of the message. -/
inductive UdpPp (Addr : Type)
  | bare
  /-- The command is local when a probe of the sender comes without a client. -/
  | proxied (src : Addr) (hdrLen : Nat) (localCommand : Bool)
  | drop

/-- The client and the length of its message, and the octets of the buffer. -/
def UdpPp.apply {Addr : Type} (buf : List UInt8) (len : Nat) (peer : Addr) :
    UdpPp Addr → Option (Addr × Nat × Bool) × List UInt8
  | .bare => (some (peer, len, false), buf)
  | .proxied src hdrLen localCommand =>
    (some (src, len - hdrLen, localCommand), copyWithin buf hdrLen len)
  | .drop => (none, buf)

/-- The message stands at the start. -/
theorem take_copyWithin {buf : List UInt8} {start stop : Nat} (inside : stop ≤ buf.length) :
    (copyWithin buf start stop).take (stop - start) = (buf.take stop).drop start := by
  have lengthEq : ((buf.take stop).drop start).length = stop - start := by
    rw [List.length_drop, List.length_take, Nat.min_eq_left inside]
  rw [copyWithin, ← lengthEq, List.take_left]

/-! ## Messages and what stands behind them -/

/-- The buffer is at its start, and the message stands there. -/
def BytePacketBuffer.Holds (buffer : BytePacketBuffer) (message : List UInt8) : Prop :=
  buffer.pos = 0 ∧ buffer.buf.take message.length = message

/-- The parser neither looks at what stands behind the message nor passes its
end. -/
structure ReadWithin (message : List UInt8) : Prop where
  alike : ∀ first second : BytePacketBuffer, first.Holds message → second.Holds message →
    (exec DnsPacket.fromBuffer first).1 = (exec DnsPacket.fromBuffer second).1
  inside : ∀ buffer packet after, buffer.Holds message →
    exec DnsPacket.fromBuffer buffer = (.ok packet, after) → after.pos ≤ message.length

variable {message : List UInt8}

theorem holds_fromBytes (fits : message.length ≤ bufSize) : (fromBytes message).Holds message := by
  refine ⟨rfl, ?_⟩
  change (message.take bufSize ++ _).take message.length = message
  rw [List.take_of_length_le fits, List.take_left]

theorem BytePacketBuffer.Holds.take {buffer : BytePacketBuffer} (holds : buffer.Holds message)
    (cut : Nat) : buffer.Holds (message.take cut) := by
  refine ⟨holds.1, ?_⟩
  have front := congrArg (List.take cut) holds.2
  rw [List.take_take] at front
  rwa [List.length_take]

/-- What the end of the walk says about reading the message out of two buffers. -/
theorem tracked_outcome (fits : message.length ≤ bufSize) {first second : BytePacketBuffer}
    (firstHolds : first.Holds message) (secondHolds : second.Holds message) :
    match walkOutcome message with
    | .ok pos => pos ≤ message.length ∧ ∃ packet,
        exec DnsPacket.fromBuffer first = (.ok packet, first.movedTo pos) ∧
        exec DnsPacket.fromBuffer second = (.ok packet, second.movedTo pos)
    | .error .malformed => BothFail (exec DnsPacket.fromBuffer first)
        (exec DnsPacket.fromBuffer second)
    | .error .pastEnd => ∀ packet after,
        exec DnsPacket.fromBuffer first = (.ok packet, after) → message.length < after.pos
    | .error .pointedPastEnd => True := by
  obtain ⟨firstStart, firstSame⟩ := firstHolds
  obtain ⟨secondStart, secondSame⟩ := secondHolds
  have tracked := tracked_fromBuffer.tracks ⟨fits, firstSame, secondSame⟩
    (firstStart.trans secondStart.symm) (firstStart ▸ Nat.zero_le _)
  rw [firstStart] at tracked
  rw [walkOutcome]
  cases walked : Traversal.message message 0 with
  | ok found =>
      rw [walked] at tracked
      obtain ⟨-, within, packet, -, ran⟩ := tracked
      exact ⟨within, packet, ran⟩
  | error stop =>
      rw [walked] at tracked
      cases stop <;> exact tracked

/-- A message in which the walk finds its octets is read alike in all buffers. -/
theorem readWithin_of_walk (fits : message.length ≤ bufSize)
    (present : walkOutcome message ≠ .error .pastEnd)
    (pointedPresent : walkOutcome message ≠ .error .pointedPastEnd) : ReadWithin message where
  alike := by
    intro first second firstHolds secondHolds
    have tracked := tracked_outcome fits firstHolds secondHolds
    match outcomeEq : walkOutcome message with
    | .ok pos =>
      rw [outcomeEq] at tracked
      obtain ⟨-, packet, ranFirst, ranSecond⟩ := tracked
      rw [ranFirst, ranSecond]
    | .error .malformed =>
      rw [outcomeEq] at tracked
      obtain ⟨error, firstFails, secondFails⟩ := tracked
      rw [firstFails, secondFails]
    | .error .pastEnd => exact absurd outcomeEq present
    | .error .pointedPastEnd => exact absurd outcomeEq pointedPresent
  inside := by
    intro buffer packet after holds ran
    have tracked := tracked_outcome fits holds holds
    match outcomeEq : walkOutcome message with
    | .ok pos =>
      rw [outcomeEq] at tracked
      obtain ⟨within, read, ranHere, -⟩ := tracked
      cases ranHere.symm.trans ran
      exact within
    | .error .malformed =>
      rw [outcomeEq] at tracked
      obtain ⟨error, fails, -⟩ := tracked
      rw [ran] at fails
      cases fails
    | .error .pastEnd => exact absurd outcomeEq present
    | .error .pointedPastEnd => exact absurd outcomeEq pointedPresent

/-- A message whose end the walk passes must be rejected whatever stands behind
it. -/
theorem readWithin_iff_rejected (fits : message.length ≤ bufSize)
    (missing : walkOutcome message = .error .pastEnd) :
    ReadWithin message ↔ ∃ error, ∀ buffer : BytePacketBuffer, buffer.Holds message →
      (exec DnsPacket.fromBuffer buffer).1 = .error error := by
  constructor
  · intro within
    have holds := holds_fromBytes fits
    have beyond := tracked_outcome fits holds holds
    rw [missing] at beyond
    cases ran : exec DnsPacket.fromBuffer (fromBytes message) with
    | mk outcome after =>
        cases outcome with
        | ok packet =>
            have inside := within.inside _ packet after holds ran
            exact absurd (beyond packet after ran) (Nat.not_lt.mpr inside)
        | error error =>
            refine ⟨error, fun buffer bufferHolds => ?_⟩
            rw [within.alike buffer _ bufferHolds holds, ran]
  · rintro ⟨error, rejected⟩
    refine ⟨fun first second firstHolds secondHolds => ?_, fun buffer packet after holds ran => ?_⟩
    · rw [rejected first firstHolds, rejected second secondHolds]
    · have fails := rejected buffer holds
      rw [ran] at fails
      cases fails

/-- No message that was cut off is read within its octets: where the octets that
were cut off stand behind it, they are read too. -/
theorem not_readWithin_take {buffer after : BytePacketBuffer} {packet : DnsPacket}
    (holds : buffer.Holds message)
    (ran : exec DnsPacket.fromBuffer buffer = (.ok packet, after)) {cut : Nat}
    (isCut : cut < after.pos) : ¬ ReadWithin (message.take cut) := by
  intro within
  have inside := within.inside buffer packet after (holds.take cut) ran
  rw [List.length_take] at inside
  omega

/-- Of which messages the parser reads nothing but their octets: those in which
the walk finds all octets, those whose end it passes if they are rejected whatever
stands behind them, and no message that was cut off. -/
theorem readWithin_characterized (fits : message.length ≤ bufSize) :
    (walkOutcome message ≠ .error .pastEnd → walkOutcome message ≠ .error .pointedPastEnd →
      ReadWithin message) ∧
    (walkOutcome message = .error .pastEnd → (ReadWithin message ↔
      ∃ error, ∀ buffer : BytePacketBuffer, buffer.Holds message →
        (exec DnsPacket.fromBuffer buffer).1 = .error error)) ∧
    ∀ {buffer after : BytePacketBuffer} {packet : DnsPacket}, buffer.Holds message →
      exec DnsPacket.fromBuffer buffer = (.ok packet, after) →
      ∀ cut < after.pos, ¬ ReadWithin (message.take cut) :=
  ⟨readWithin_of_walk fits, readWithin_iff_rejected fits,
    fun holds ran _ isCut => not_readWithin_take holds ran isCut⟩

/-- How many octets the parser consumes, if it accepts what stands in the
buffer. -/
def consumed (buffer : BytePacketBuffer) : Option Nat :=
  match exec DnsPacket.fromBuffer buffer with
  | (.ok _, after) => some after.pos
  | (.error _, _) => none

theorem exec_of_consumed {buffer : BytePacketBuffer} {pos : Nat}
    (eq : consumed buffer = some pos) : ∃ packet after,
      exec DnsPacket.fromBuffer buffer = (.ok packet, after) ∧ after.pos = pos := by
  unfold consumed at eq
  split at eq
  · rename_i packet after ran
    cases eq
    exact ⟨packet, after, ran, rfl⟩
  · cases eq

/-- A query for the address of a name. -/
def addressQuery : List UInt8 :=
  [0, 1, 1, 0, 0, 1, 0, 0, 0, 0, 0, 0, 1, 97, 4, 116, 101, 115, 116, 0, 0, 1, 0, 1]

theorem readWithin_addressQuery :
    ReadWithin addressQuery ∧ ¬ ReadWithin (addressQuery.take 20) := by
  have fits : addressQuery.length ≤ bufSize := by decide
  obtain ⟨present, -, cutOff⟩ := readWithin_characterized fits
  obtain ⟨packet, after, ran, posEq⟩ :=
    exec_of_consumed (by decide +kernel : consumed (fromBytes addressQuery) = some 24)
  refine ⟨present (by decide +kernel) (by decide +kernel), ?_⟩
  exact cutOff (holds_fromBytes fits) ran 20 (by omega)

/-- The query without its type and class is completed with padding. -/
theorem cutQuery_completed :
    (addressQuery.take 20).length = 20 ∧
      consumed (fromBytes (addressQuery.take 20)) = some 24 ∧
      ¬ ReadWithin (addressQuery.take 20) := by
  have padded : consumed (fromBytes (addressQuery.take 20)) = some 24 := by decide +kernel
  refine ⟨by decide, padded, fun within => ?_⟩
  obtain ⟨packet, after, ran, posEq⟩ := exec_of_consumed padded
  have inside := within.inside _ packet after (holds_fromBytes (by decide)) ran
  rw [posEq] at inside
  exact absurd inside (by decide)

/-! ## Behind a proxy header -/

section Proxied

variable {Addr : Type} {src peer : Addr} {hdrLen : Nat} {localCommand : Bool}
  {datagram : List UInt8} {buffer : BytePacketBuffer}

/-- The message of a proxied datagram stands at the start of the buffer. -/
theorem holds_apply (fits : datagram.length ≤ bufSize) (start : buffer.pos = 0)
    (applied : buffer.buf = ((UdpPp.proxied src hdrLen localCommand).apply
      (fromBytes datagram).buf datagram.length peer).2) : buffer.Holds (datagram.drop hdrLen) := by
  refine ⟨start, ?_⟩
  have inside : datagram.length ≤ (fromBytes datagram).buf.length := by
    rwa [(fromBytes datagram).size_eq]
  rw [applied, UdpPp.apply, List.length_drop, take_copyWithin inside]
  exact congrArg (List.drop hdrLen) (holds_fromBytes fits).2

/-- Behind the message stands what the datagram left there. -/
theorem drop_apply (applied : buffer.buf = ((UdpPp.proxied src hdrLen localCommand).apply
      (fromBytes datagram).buf datagram.length peer).2) (fits : datagram.length ≤ bufSize) :
    buffer.buf.drop (datagram.length - hdrLen) =
      (fromBytes datagram).buf.drop (datagram.length - hdrLen) := by
  have inside : datagram.length ≤ (fromBytes datagram).buf.length := by
    rwa [(fromBytes datagram).size_eq]
  have lengthEq : (((fromBytes datagram).buf.take datagram.length).drop hdrLen).length =
      datagram.length - hdrLen := by
    rw [List.length_drop, List.length_take, Nat.min_eq_left inside]
  rw [applied, UdpPp.apply, copyWithin]
  exact List.drop_left' lengthEq

/-- A proxied message is read like one that came alone, if the parser reads
nothing but its octets. -/
theorem exec_fromBuffer_apply (fits : datagram.length ≤ bufSize) (start : buffer.pos = 0)
    (applied : buffer.buf = ((UdpPp.proxied src hdrLen localCommand).apply
      (fromBytes datagram).buf datagram.length peer).2)
    (within : ReadWithin (datagram.drop hdrLen)) :
    (exec DnsPacket.fromBuffer buffer).1 =
      (exec DnsPacket.fromBuffer (fromBytes (datagram.drop hdrLen))).1 := by
  have payloadFits : (datagram.drop hdrLen).length ≤ bufSize := by
    rw [List.length_drop]
    omega
  exact within.alike _ _ (holds_apply fits start applied) (holds_fromBytes payloadFits)

end Proxied

end Numa
