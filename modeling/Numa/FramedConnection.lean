import Numa.FallbackResponse
import Numa.Forward
import Numa.HeaderFidelity
import Numa.KeptBuffer
import Numa.Loops
import Numa.Streams

/-!
# Connections of clients

`handle_framed_dns_connection` of `tcp.rs` answers the messages of a TCP or TLS
connection in turn.  When the octets of the client arrive is given, and so are
the results of `resolve_query` and what the socket does with a write.  The
messages are those of the stream of octets, whatever segments it comes in, and
the answers stand in the order of the messages.
-/

namespace Numa

/-- `MAX_MSG_LEN`. -/
def maxMsgLen : Nat := 4096

/-- `IDLE_TIMEOUT` in seconds. -/
def idleTimeout : Nat := 30

/-- `u16::from_be_bytes` of two octets. -/
def u16FromBeBytes : List UInt8 → Nat
  | high :: low :: _ => (high.toUInt16 <<< 8 ||| low.toUInt16).toNat
  | _ => 0

/-- The frames of DNS over a stream with messages up to a limit. -/
def dnsFraming (limit : Nat) : Framing UInt8 where
  width := 2
  size := u16FromBeBytes
  limit := limit
  positive := by decide

/-- What happens while a message is answered. -/
structure Exchange where
  /-- `resolve_query` with the parsed query and its octets.  `none` is a
  panic. -/
  resolve : DnsPacket → List UInt8 → Option (Except Unit BytePacketBuffer)
  /-- The time until the next read. -/
  duration : Nat
  /-- How many octets go out before the write fails or takes too long, if it
  does. -/
  stalled : Option Nat

/-- The octets of a response, unless it cannot be serialized. -/
def serialize (resp : DnsPacket) : Option (List UInt8) :=
  match BytePacketBuffer.exec resp.write .new with
  | (.ok _, buf) => some buf.filled
  | (.error _, _) => none

/-- The response to a message that is not parsed.  Its ID stands in the first
two octets of the buffer. -/
def formErr (buffer : BytePacketBuffer) : DnsPacket where
  header :=
    { id := (buffer.buf.getD 0 0).toUInt16 <<< 8 ||| (buffer.buf.getD 1 0).toUInt16
      response := true
      rescode := .formerr }

section Connection

variable (filterAaaa : Bool) (exchanges : Nat → Exchange)

/-- The octets that answer a message.  `none` ends the connection. -/
def replyTo (exchange : Exchange) (message : List UInt8) : Option (List UInt8) :=
  match BytePacketBuffer.exec DnsPacket.fromBuffer (.fromBytes message) with
  | (.error _, buffer) => serialize (formErr buffer)
  | (.ok query, _) =>
    match exchange.resolve query message with
    | none => none
    | some (.ok respBuffer) => some respBuffer.filled
    | some (.error _) =>
      serialize ((DnsPacket.responseFrom query .servfail).shapeForClient query filterAaaa)

/-- A connection with the number of messages answered so far and the octets
sent. -/
structure Connection where
  inbox : Inbox UInt8
  answered : Nat
  sent : List UInt8

/-- A turn of the loop, which leaves it where the source breaks. -/
def connectionTurn (connection : Connection) : Turn Connection Connection :=
  let exchange := exchanges connection.answered
  match (dnsFraming maxMsgLen).read connection.inbox idleTimeout with
  | none => .leave connection
  | some (message, inbox) =>
    match replyTo filterAaaa exchange message with
    | none => .leave { connection with inbox := inbox }
    | some response =>
      match exchange.stalled with
      | some octets =>
        .leave
          { connection with
            inbox := inbox
            sent := connection.sent ++ (framed response).take octets }
      | none =>
        .again
          { inbox := inbox.wait exchange.duration
            answered := connection.answered + 1
            sent := connection.sent ++ framed response }

/-- Run a connection for a number of turns at most. -/
def handleFramedDnsConnection (turns : Nat) (inbox : Inbox UInt8) : Option Connection :=
  Loop.run (fun connection => some (connectionTurn filterAaaa exchanges connection)) turns
    ⟨inbox, 0, []⟩

/-! ## What is sent -/

/-- The octets sent for some messages. -/
def transcript : (answered : Nat) → (messages : List (List UInt8)) → List UInt8
  | _, [] => []
  | answered, message :: messages =>
    match replyTo filterAaaa (exchanges answered) message with
    | none => []
    | some response =>
      match (exchanges answered).stalled with
      | some octets => (framed response).take octets
      | none => framed response ++ transcript (answered + 1) messages

end Connection

section Transcript

variable {filterAaaa : Bool} {exchanges : Nat → Exchange}

theorem transcript_prefix {answered : Nat} {first second : List (List UInt8)}
    (longer : first <+: second) :
    transcript filterAaaa exchanges answered first <+:
      transcript filterAaaa exchanges answered second := by
  induction first generalizing answered second with
  | nil => exact List.nil_prefix
  | cons message first ih =>
      obtain ⟨later, rfl⟩ := longer
      rw [List.cons_append, transcript, transcript]
      split
      · exact List.prefix_rfl
      · split
        · exact List.prefix_rfl
        · exact (List.prefix_append_right_inj _).mpr (ih (List.prefix_append _ _))

/-- The answers are framed so that a client finds them. -/
theorem next_framed {limit : Nat} {message rest : List UInt8} (short : message.length < 2 ^ 16)
    (fits : message.length ≤ limit) :
    (dnsFraming limit).next (framed message ++ rest) = some (message, rest) := by
  refine Framing.next_eq_some_iff.mpr
    ⟨beBytes16 (.ofNat message.length), by rw [framed], rfl, ?_, fits⟩
  change ((UInt16.ofNat message.length >>> 8).toUInt8.toUInt16 <<< 8 |||
    (UInt16.ofNat message.length).toUInt8.toUInt16).toNat = _
  rw [join_beBytes16, UInt16.toNat_ofNat_of_lt' short]

theorem length_filled_le (buffer : BytePacketBuffer) : buffer.filled.length ≤ bufSize := by
  rw [BytePacketBuffer.filled, List.length_take, buffer.size_eq]
  exact min_le_right _ _

theorem length_of_serialize {resp : DnsPacket} {octets : List UInt8}
    (serialized : serialize resp = some octets) : octets.length ≤ bufSize := by
  unfold serialize at serialized
  split at serialized
  · cases serialized
    exact length_filled_le _
  · cases serialized

theorem serialize_of_encoded {resp : DnsPacket} {octets : List UInt8}
    (encoded : resp.encoded = some octets) (short : octets.length ≤ bufSize) :
    serialize resp = some octets := by
  rcases DnsPacket.exec_write_of_encoded encoded with ⟨-, after, ran, -, filledEq⟩ | ⟨long, -⟩
  · rw [serialize, ran, ← filledEq]
  · omega

theorem encoded_of_serialize {resp : DnsPacket} {octets : List UInt8}
    (serialized : serialize resp = some octets) : resp.encoded = some octets := by
  rcases encoded : resp.encoded with _ | written
  · obtain ⟨error, after, failed⟩ := DnsPacket.exec_write_of_encoded_eq_none encoded
    simp [serialize, failed] at serialized
  · rcases DnsPacket.exec_write_of_encoded encoded with
      ⟨-, after, ran, -, filledEq⟩ | ⟨-, after, failed, -⟩
    · simp only [serialize, ran, Option.some.injEq] at serialized
      rw [← serialized, filledEq]
    · simp [serialize, failed] at serialized

theorem serialize_isSome_iff {resp : DnsPacket} :
    (serialize resp).isSome = true ↔ resp.FitsBuffer := by
  rcases resp.exec_write_cases with ⟨fits, after, ran, -⟩ | ⟨unfit, error, after, failed, -⟩
  · simp [serialize, ran, fits]
  · simp [serialize, failed, unfit]

/-- The ID is that of the message. -/
theorem formErr_of_parse_error {message : List UInt8} {error : BufferError}
    {after : BytePacketBuffer}
    (failed : BytePacketBuffer.exec DnsPacket.fromBuffer (.fromBytes message) =
      (.error error, after)) :
    formErr after =
      { header :=
          { id := (message.getD 0 0).toUInt16 <<< 8 ||| (message.getD 1 0).toUInt16
            response := true
            rescode := .formerr } } := by
  have kept := keepsOctets_fromBuffer (.fromBytes message)
  rw [failed] at kept
  have octet : ∀ index < bufSize, after.buf.getD index 0 = message.getD index 0 :=
    fun index inside => kept ▸ wireOctet_buf message inside
  rw [formErr, octet 0 (by decide), octet 1 (by decide)]

/-- A message that is not parsed is answered by a header with its ID. -/
theorem replyTo_of_parse_error {exchange : Exchange} {message : List UInt8} {error : BufferError}
    {after : BytePacketBuffer}
    (failed : BytePacketBuffer.exec DnsPacket.fromBuffer (.fromBytes message) =
      (.error error, after)) :
    replyTo filterAaaa exchange message =
      some [message.getD 0 0, message.getD 1 0, 0x80, 1, 0, 0, 0, 0, 0, 0, 0, 0] := by
  have encoded : (formErr after).encoded =
      some (beBytes16 (formErr after).header.id ++ [0x80, 1, 0, 0, 0, 0, 0, 0, 0, 0]) := by
    simp only [DnsPacket.encoded, formErr, joinParts, ednsOctets, List.map_nil, List.nil_append,
      Option.map_some, Option.bind_some, List.append_nil]
    -- The octets behind the ID do not depend on it.
    have behindId : (DnsHeader.octets { response := true, rescode := .formerr }).drop 2 =
        [0x80, 1, 0, 0, 0, 0, 0, 0, 0, 0] := by decide
    exact congrArg (fun rest => some (beBytes16 _ ++ rest)) behindId
  rw [replyTo, failed]
  refine (serialize_of_encoded encoded (Nat.le_of_ble_eq_true rfl)).trans ?_
  rw [formErr_of_parse_error failed, beBytes16_join]
  rfl

/-- If the message is parsed, its query is resolved without a panic, and its
questions fit into a response if the resolution fails. -/
def Answerable (exchange : Exchange) (message : List UInt8) : Prop :=
  ∀ query after, BytePacketBuffer.exec DnsPacket.fromBuffer (.fromBytes message) =
    (.ok query, after) →
      ∃ result, exchange.resolve query message = some result ∧
        (result = .error () → query.fallbackLength ≤ bufSize)

theorem replyTo_isSome_iff {exchange : Exchange} {message : List UInt8} :
    (replyTo filterAaaa exchange message).isSome = true ↔ Answerable exchange message := by
  rcases parsed : BytePacketBuffer.exec DnsPacket.fromBuffer (.fromBytes message) with
    ⟨error | query, after⟩
  · simp [replyTo_of_parse_error parsed, Answerable, parsed]
  · have read := DnsPacket.questionsRead_of_fromBuffer parsed
    have servFail : (serialize (DnsPacket.fallbackResponse query query filterAaaa false)).isSome =
        true ↔ query.fallbackLength ≤ bufSize :=
      serialize_isSome_iff.trans (DnsPacket.fitsBuffer_fallbackResponse_iff read false)
    simp only [replyTo, Answerable, parsed, Prod.mk.injEq, Except.ok.injEq, and_imp]
    constructor
    · rintro isAnswered _ _ rfl rfl
      rcases resolved : exchange.resolve query message with _ | _ | respBuffer
      · simp [resolved] at isAnswered
      · simp only [resolved] at isAnswered
        exact ⟨_, rfl, fun _ => servFail.mp isAnswered⟩
      · exact ⟨_, rfl, by simp⟩
    · intro answerable
      obtain ⟨result, resolved, fits⟩ := answerable query after rfl rfl
      rcases result with ⟨⟩ | respBuffer
      · simp only [resolved]
        exact servFail.mpr (fits rfl)
      · simp [resolved]

theorem length_of_replyTo {exchange : Exchange} {message response : List UInt8}
    (replied : replyTo filterAaaa exchange message = some response) :
    response.length ≤ bufSize := by
  unfold replyTo at replied
  split at replied
  · exact length_of_serialize replied
  · split at replied
    · cases replied
    · cases replied
      exact length_filled_le _
    · exact length_of_serialize replied

theorem next_framed_reply {exchange : Exchange} {message response rest : List UInt8}
    (replied : replyTo filterAaaa exchange message = some response) :
    (dnsFraming 65535).next (framed response ++ rest) = some (response, rest) := by
  have short : response.length ≤ 4096 := length_of_replyTo replied
  exact next_framed (by omega) (by omega)

/-- What a client reads at a place answers the message at this place. -/
theorem replyTo_of_messages_transcript {answered : Nat} {messages : List (List UInt8)} {index : Nat}
    {response : List UInt8}
    (isRead : ((dnsFraming 65535).messages
      (transcript filterAaaa exchanges answered messages))[index]? = some response) :
    ∃ message, messages[index]? = some message ∧
      replyTo filterAaaa (exchanges (answered + index)) message = some response := by
  induction messages generalizing answered index with
  | nil => cases isRead
  | cons message messages ih =>
      rw [transcript] at isRead
      split at isRead
      · cases isRead
      · rename_i first replied
        split at isRead
        · rename_i octets stalled
          have whole : (dnsFraming 65535).messages (framed first) = [first] := by
            have found : (dnsFraming 65535).next (framed first ++ []) = some (first, []) :=
              next_framed_reply replied
            rw [List.append_nil] at found
            rw [Framing.messages_of_next found]
            rfl
          obtain ⟨rest, same⟩ : (dnsFraming 65535).messages ((framed first).take octets) <+: [first] :=
            whole ▸ Framing.messages_prefix (List.take_prefix octets (framed first))
          have isFirst : [first][index]? = some response := by
            rw [← same, List.getElem?_append_left (List.getElem?_eq_some_iff.mp isRead).1, isRead]
          cases index with
          | zero =>
              cases isFirst
              exact ⟨message, rfl, replied⟩
          | succ index => cases isFirst
        · rw [Framing.messages_of_next (next_framed_reply replied)] at isRead
          cases index with
          | zero =>
              cases isRead
              exact ⟨message, rfl, replied⟩
          | succ index =>
              obtain ⟨later, found, laterReplied⟩ := ih isRead
              exact ⟨later, found, by rwa [Nat.add_right_comm] at laterReplied⟩

theorem length_messages_transcript {answered : Nat} {messages : List (List UInt8)}
    (answers : ∀ index message, messages[index]? = some message →
      (replyTo filterAaaa (exchanges (answered + index)) message).isSome = true ∧
        (exchanges (answered + index)).stalled = none) :
    ((dnsFraming 65535).messages (transcript filterAaaa exchanges answered messages)).length =
      messages.length := by
  induction messages generalizing answered with
  | nil => rfl
  | cons message messages ih =>
      obtain ⟨isAnswered, written⟩ := answers 0 message rfl
      obtain ⟨response, replied⟩ := Option.isSome_iff_exists.mp isAnswered
      rw [Nat.add_zero] at replied written
      rw [transcript]
      simp only [replied, written]
      rw [Framing.messages_of_next (next_framed_reply replied), List.length_cons, List.length_cons,
        ih]
      intro index later found
      have isLater := answers (index + 1) later found
      rwa [Nat.add_comm index, ← Nat.add_assoc] at isLater

end Transcript

/-! ## The run -/

section Run

variable {filterAaaa : Bool} {exchanges : Nat → Exchange} {start : Inbox UInt8}
  {connection : Connection}

/-- The messages in a stream. -/
def queries (inbox : Inbox UInt8) : List (List UInt8) :=
  (dnsFraming maxMsgLen).messages inbox.content

/-- A message that is read is the next one. -/
theorem queries_of_read {message : List UInt8} {inbox : Inbox UInt8}
    (isRead : (dnsFraming maxMsgLen).read start idleTimeout = some (message, inbox)) :
    queries start = message :: queries inbox :=
  Framing.messages_of_next (Framing.eq_of_read isRead).1

/-- The connection has answered the first messages of its stream, and the rest
of the stream is left. -/
structure Following (filterAaaa : Bool) (exchanges : Nat → Exchange) (start : Inbox UInt8)
    (connection : Connection) : Prop where
  now : start.now ≤ connection.inbox.now
  answered_le : connection.answered ≤ (queries start).length
  left : queries connection.inbox = (queries start).drop connection.answered
  inTime : ∀ later, connection.inbox.now ≤ later →
    (dnsFraming maxMsgLen).offset ((queries start).take connection.answered) ≤
        (start.contentBy later).length ∧
      connection.inbox.contentBy later = (start.contentBy later).drop
        ((dnsFraming maxMsgLen).offset ((queries start).take connection.answered))
  sent : ∀ later, transcript filterAaaa exchanges 0
      ((queries start).take connection.answered ++ later) =
    connection.sent ++ transcript filterAaaa exchanges connection.answered later

/-- What a connection has sent that has answered some first messages, and all of
them if they came in time. -/
def Sent (filterAaaa : Bool) (exchanges : Nat → Exchange) (start : Inbox UInt8)
    (sent : List UInt8) : Prop :=
  (∃ count, sent = transcript filterAaaa exchanges 0 ((queries start).take count)) ∧
    ((dnsFraming maxMsgLen).Prompt start idleTimeout →
      sent = transcript filterAaaa exchanges 0 (queries start))

namespace Following

theorem init : Following filterAaaa exchanges start ⟨start, 0, []⟩ where
  now := le_refl _
  answered_le := Nat.zero_le _
  left := rfl
  inTime _ _ := ⟨Nat.zero_le _, rfl⟩
  sent _ := rfl

variable (following : Following filterAaaa exchanges start connection)

include following

theorem queries_of_cons {message : List UInt8} {later : List (List UInt8)}
    (isQueries : queries connection.inbox = message :: later) :
    connection.answered < (queries start).length ∧
      (queries start).take (connection.answered + 1) =
        (queries start).take connection.answered ++ [message] ∧
      (queries start).drop (connection.answered + 1) = later := by
  have isLeft := following.left.symm.trans isQueries
  have inside : connection.answered < (queries start).length := by
    by_contra outside
    rw [List.drop_eq_nil_of_le (by omega)] at isLeft
    cases isLeft
  rw [List.drop_eq_getElem_cons inside] at isLeft
  obtain ⟨isMessage, isLater⟩ := List.cons.inj isLeft
  refine ⟨inside, ?_, isLater⟩
  rw [List.take_add_one, List.getElem?_eq_getElem inside, isMessage, Option.toList_some]

/-- The transcript ends with the next message. -/
theorem sent_of_last {message last : List UInt8} {later : List (List UInt8)}
    (isQueries : queries connection.inbox = message :: later)
    (isLast : transcript filterAaaa exchanges connection.answered (message :: later) = last) :
    Sent filterAaaa exchanges start (connection.sent ++ last) := by
  have whole : transcript filterAaaa exchanges 0 (queries start) = connection.sent ++ last := by
    rw [← isLast, ← isQueries, following.left, ← following.sent, List.take_append_drop]
  refine ⟨⟨(queries start).length, ?_⟩, fun _ => whole.symm⟩
  rw [List.take_length, whole]

/-- Nothing more is read: the next message is incomplete, too long or late. -/
theorem sent_of_read_eq_none
    (noRead : (dnsFraming maxMsgLen).read connection.inbox idleTimeout = none) :
    Sent filterAaaa exchanges start connection.sent := by
  have soFar : transcript filterAaaa exchanges 0 ((queries start).take connection.answered) =
      connection.sent := by
    have shown := following.sent []
    rwa [List.append_nil, transcript, List.append_nil] at shown
  refine ⟨⟨connection.answered, soFar.symm⟩, fun prompt => ?_⟩
  rw [← soFar]
  cases isQueries : queries connection.inbox with
  | nil =>
      have all : (queries start).length ≤ connection.answered :=
        List.drop_eq_nil_iff.mp (following.left.symm.trans isQueries)
      rw [List.take_of_length_le all]
  | cons message later =>
      exfalso
      obtain ⟨rest, found, -⟩ := Framing.next_of_messages_eq_cons isQueries
      obtain ⟨inside, isNext, -⟩ := following.queries_of_cons isQueries
      obtain ⟨thereNow, -⟩ := following.inTime _ (le_refl _)
      obtain ⟨-, leftThen⟩ := following.inTime (connection.inbox.now + idleTimeout) (by omega)
      have thereThen := prompt connection.answered inside connection.inbox.now following.now thereNow
      rw [← queries, isNext, Framing.offset_append, Framing.offset_singleton] at thereThen
      have inTime : (dnsFraming maxMsgLen).width + message.length ≤
          (connection.inbox.contentBy (connection.inbox.now + idleTimeout)).length := by
        rw [leftThen, List.length_drop]
        omega
      obtain ⟨after, isRead⟩ := Framing.exists_read found inTime
      rw [noRead] at isRead
      cases isRead

/-- A turn in which the next message is answered. -/
theorem again {message response : List UInt8} {inbox : Inbox UInt8}
    (isRead : (dnsFraming maxMsgLen).read connection.inbox idleTimeout = some (message, inbox))
    (replied : replyTo filterAaaa (exchanges connection.answered) message = some response)
    (written : (exchanges connection.answered).stalled = none) :
    Following filterAaaa exchanges start
      { inbox := inbox.wait (exchanges connection.answered).duration
        answered := connection.answered + 1
        sent := connection.sent ++ framed response } := by
  obtain ⟨-, later, there⟩ := Framing.eq_of_read isRead
  obtain ⟨inside, isNext, isLeft⟩ := following.queries_of_cons (queries_of_read isRead)
  refine ⟨?_, inside, isLeft.symm, fun time isLater => ?_, fun rest => ?_⟩
  · have early := following.now
    simp only [Inbox.wait]
    omega
  · simp only [Inbox.wait] at isLater
    obtain ⟨thereSoFar, leftSoFar⟩ := following.inTime time (by omega)
    obtain ⟨thereNow, leftNow⟩ := there time (by omega)
    rw [leftSoFar, List.length_drop] at thereNow
    rw [isNext, Framing.offset_append, Framing.offset_singleton, Inbox.contentBy_wait, leftNow,
      leftSoFar, List.drop_drop]
    exact ⟨by omega, rfl⟩
  · rw [isNext, List.append_assoc, following.sent, List.singleton_append, transcript]
    simp only [replied, written, List.append_assoc]

end Following

/-- Every turn of a connection answers the next message or ends it. -/
theorem keeps_connectionTurn :
    Loop.Keeps (fun connection => some (connectionTurn filterAaaa exchanges connection))
      (Following filterAaaa exchanges start) (fun connection => connection.inbox.content.length)
      (fun connection => Sent filterAaaa exchanges start connection.sent) := by
  intro connection following
  refine ⟨_, rfl, ?_⟩
  unfold connectionTurn
  dsimp only
  cases isRead : (dnsFraming maxMsgLen).read connection.inbox idleTimeout with
  | none => exact following.sent_of_read_eq_none isRead
  | some found =>
      obtain ⟨message, inbox⟩ := found
      have isQueries := queries_of_read isRead
      dsimp only
      cases replied : replyTo filterAaaa (exchanges connection.answered) message with
      | none =>
          have nothing : transcript filterAaaa exchanges connection.answered
              (message :: queries inbox) = [] := by
            simp only [transcript, replied]
          have sent := following.sent_of_last isQueries nothing
          rwa [List.append_nil] at sent
      | some response =>
          dsimp only
          cases stalled : (exchanges connection.answered).stalled with
          | some octets =>
              refine following.sent_of_last isQueries ?_
              simp only [transcript, replied, stalled]
          | none =>
              refine ⟨following.again isRead replied stalled, ?_⟩
              have shorter := Framing.length_of_next (Framing.eq_of_read isRead).1
              exact shorter

/-- The connection that a run ends with, however many turns it is given. -/
theorem exists_connection (filterAaaa : Bool) (exchanges : Nat → Exchange) (start : Inbox UInt8) :
    ∃ connection,
      (∀ turns, start.content.length < turns →
        handleFramedDnsConnection filterAaaa exchanges turns start = some connection) ∧
      Sent filterAaaa exchanges start connection.sent := by
  obtain ⟨connection, ran, sent⟩ :=
    keeps_connectionTurn.exists_run (@Following.init filterAaaa exchanges start)
      (Nat.lt_succ_self start.content.length)
  exact ⟨connection, fun turns enough => Loop.run_of_le ran enough, sent⟩

/-- Every connection ends.  What a client reads back is a reply to each of its
first messages, in their order, and one that is not parsed is answered by
FORMERR with its ID.  All messages are answered if they come in time, can be
answered and every reply is written. -/
theorem handleFramedDnsConnection_answers (filterAaaa : Bool) (exchanges : Nat → Exchange)
    (start : Inbox UInt8) :
    ∃ connection,
      (∀ turns, start.content.length < turns →
        handleFramedDnsConnection filterAaaa exchanges turns start = some connection) ∧
      (∃ count, connection.sent =
        transcript filterAaaa exchanges 0 ((queries start).take count)) ∧
      (∀ index response,
        ((dnsFraming 65535).messages connection.sent)[index]? = some response →
          ∃ message, (queries start)[index]? = some message ∧
            replyTo filterAaaa (exchanges index) message = some response ∧
            ∀ error after, BytePacketBuffer.exec DnsPacket.fromBuffer (.fromBytes message) =
                (.error error, after) →
              response =
                [message.getD 0 0, message.getD 1 0, 0x80, 1, 0, 0, 0, 0, 0, 0, 0, 0]) ∧
      ((dnsFraming maxMsgLen).Prompt start idleTimeout →
        (∀ index message, (queries start)[index]? = some message →
          Answerable (exchanges index) message ∧ (exchanges index).stalled = none) →
        ((dnsFraming 65535).messages connection.sent).length = (queries start).length) := by
  obtain ⟨connection, ran, ⟨count, sentEq⟩, whole⟩ := exists_connection filterAaaa exchanges start
  refine ⟨connection, ran, ⟨count, sentEq⟩, ?_, ?_⟩
  · intro index response isRead
    rw [sentEq] at isRead
    obtain ⟨message, found, replied⟩ := replyTo_of_messages_transcript isRead
    rw [Nat.zero_add] at replied
    rw [List.getElem?_take] at found
    split at found
    · refine ⟨message, found, replied, fun error after failed => ?_⟩
      rw [replyTo_of_parse_error failed] at replied
      exact (Option.some.inj replied).symm
    · cases found
  · intro prompt answers
    rw [whole prompt]
    refine length_messages_transcript fun index message found => ?_
    rw [Nat.zero_add]
    obtain ⟨answerable, written⟩ := answers index message found
    exact ⟨replyTo_isSome_iff.mpr answerable, written⟩

/-- Two connections with the same octets, or with one that has more of them,
send the same octets as far as they go, whatever segments the octets come in. -/
theorem handleFramedDnsConnection_segments (filterAaaa : Bool) (exchanges : Nat → Exchange)
    {first second : Inbox UInt8} (more : first.content <+: second.content) :
    ∃ shorter longer,
      (∀ turns, first.content.length < turns →
        handleFramedDnsConnection filterAaaa exchanges turns first = some shorter) ∧
      (∀ turns, second.content.length < turns →
        handleFramedDnsConnection filterAaaa exchanges turns second = some longer) ∧
      (shorter.sent <+: longer.sent ∨ longer.sent <+: shorter.sent) ∧
      ((dnsFraming maxMsgLen).Prompt second idleTimeout → shorter.sent <+: longer.sent) ∧
      ((dnsFraming maxMsgLen).Prompt first idleTimeout →
        (dnsFraming maxMsgLen).Prompt second idleTimeout → first.content = second.content →
        shorter.sent = longer.sent) := by
  obtain ⟨shorter, ranFirst, ⟨count, sentFirst⟩, wholeFirst⟩ :=
    exists_connection filterAaaa exchanges first
  obtain ⟨longer, ranSecond, ⟨other, sentSecond⟩, wholeSecond⟩ :=
    exists_connection filterAaaa exchanges second
  have queriesPrefix : queries first <+: queries second := Framing.messages_prefix more
  have firstPrefix : (queries first).take count <+: queries second :=
    (List.take_prefix count _).trans queriesPrefix
  refine ⟨shorter, longer, ranFirst, ranSecond, ?_, ?_, ?_⟩
  · rw [sentFirst, sentSecond]
    exact (List.prefix_or_prefix_of_prefix firstPrefix (List.take_prefix other _)).imp
      transcript_prefix transcript_prefix
  · intro prompt
    rw [sentFirst, wholeSecond prompt]
    exact transcript_prefix firstPrefix
  · intro promptFirst promptSecond same
    rw [wholeFirst promptFirst, wholeSecond promptSecond, queries, queries, same]

/-- A message that comes in two segments. -/
def splitDelivery : Inbox UInt8 :=
  ⟨0, [], [⟨1, [0, 12, 1, 2, 1, 0, 0, 0]⟩, ⟨20, [0, 0, 0, 0, 0, 0]⟩]⟩

/-- The same message at once, with another one behind it. -/
def wholeDelivery : Inbox UInt8 :=
  ⟨0, [0, 12, 1, 2, 1, 0, 0, 0, 0, 0, 0, 0, 0, 0, 0, 1, 7], []⟩

/-- No query is resolved. -/
def refusal : Exchange :=
  ⟨fun _ _ => some (.error ()), 0, none⟩

theorem handleFramedDnsConnection_segments_delivery :
    ∃ shorter longer,
      (∀ turns, 14 < turns →
        handleFramedDnsConnection false (fun _ => refusal) turns splitDelivery = some shorter) ∧
      (∀ turns, 17 < turns →
        handleFramedDnsConnection false (fun _ => refusal) turns wholeDelivery = some longer) ∧
      (shorter.sent <+: longer.sent ∨ longer.sent <+: shorter.sent) := by
  have more : splitDelivery.content <+: wholeDelivery.content := by decide
  obtain ⟨shorter, longer, ranFirst, ranSecond, comparable, -⟩ :=
    handleFramedDnsConnection_segments false (fun _ => refusal) more
  exact ⟨shorter, longer, ranFirst, ranSecond, comparable⟩

end Run

end Numa
