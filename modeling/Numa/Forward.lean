import Numa.BigEndian
import Numa.Cache
import Numa.Recursive

/-!
# Exchanges with upstreams and servers

`forward.rs` sends a query over one of five transports and returns the message
that comes back.  What arrives on the socket or connection of an exchange until
its timeout is given; the sealing of `odoh.rs` is a parameter.  The texts of
errors are left out, and so is the measurement of times.
-/

namespace Numa

/-- The handles of clients and connectors are left out. -/
inductive Upstream
  | udp (addr : SocketAddr)
  | tcp (addr : SocketAddr)
  | doh (url : Text)
  | dot (addr : SocketAddr) (tlsName : Option Text)
  | odoh (relayUrl targetPath : Text)
  deriving DecidableEq

/-- An HTTP response. -/
structure HttpResponse where
  status : Nat
  body : List UInt8
  deriving DecidableEq

/-- What arrives until the timeouts of an exchange. -/
structure Arrivals where
  /-- The datagrams on the UDP socket, with their senders. -/
  datagrams : List (SocketAddr × List UInt8) := []
  /-- The octets of the TCP or TLS connection. -/
  stream : List UInt8 := []
  /-- The responses to the HTTP requests of the exchange in their order, `none`
  for a request that fails. -/
  responses : List (Option HttpResponse) := []

/-- What `odoh.rs` needs of `odoh_rs`. -/
structure OdohCrypto where
  parse : List UInt8 → Option (List UInt8)
  /-- `decrypt_response` with the secret of the query. -/
  decryptResponse : (wire encrypted : List UInt8) → Option (List UInt8)

/-! ## The transports -/

def forwardUdpRaw (arrivals : Arrivals) : Except Unit (List UInt8) :=
  match arrivals.datagrams with
  | [] => .error ()
  | (_, datagram) :: _ => .ok (datagram.take 4096)

/-- A message behind its length. -/
def framed (wire : List UInt8) : List UInt8 :=
  beBytes16 (.ofNat wire.length) ++ wire

/-- Two octets of length, and as many octets as they say. -/
def readFramed : List UInt8 → Except Unit (List UInt8)
  | high :: low :: rest =>
    let respLen := (high.toUInt16 <<< 8 ||| low.toUInt16).toNat
    if respLen ≤ rest.length then .ok (rest.take respLen) else .error ()
  | _ => .error ()

def forwardTcpRaw (arrivals : Arrivals) : Except Unit (List UInt8) :=
  readFramed arrivals.stream

def forwardDotRaw (arrivals : Arrivals) : Except Unit (List UInt8) :=
  readFramed arrivals.stream

/-- `reqwest::Response::error_for_status`. -/
def HttpResponse.errorForStatus (response : HttpResponse) : Bool :=
  decide (400 ≤ response.status ∧ response.status < 600)

def forwardDohRaw (arrivals : Arrivals) : Except Unit (List UInt8) :=
  match arrivals.responses with
  | some response :: _ => if response.errorForStatus then .error () else .ok response.body
  | _ => .error ()

inductive AttemptError
  | keyRotation
  | other
  deriving DecidableEq

section Odoh

variable (odoh : OdohCrypto) (wire : List UInt8)

/-- `attempt_query`.  A target without a configuration, or a query that cannot
be sealed, is a request that fails. -/
def attemptQuery : Option HttpResponse → Except AttemptError (List UInt8)
  | none => .error .other
  | some response =>
    if ¬ (200 ≤ response.status ∧ response.status < 300) then
      .error (if response.status = 401 then .keyRotation else .other)
    else
      match odoh.parse response.body with
      | none => .error .other
      | some encrypted =>
        match odoh.decryptResponse wire encrypted with
        | none => .error .keyRotation
        | some message => .ok message

/-- A stale key is tried again once. -/
def queryThroughRelay (arrivals : Arrivals) : Except Unit (List UInt8) :=
  match attemptQuery odoh wire (arrivals.responses.head?.getD none) with
  | .ok message => .ok message
  | .error .keyRotation =>
    match attemptQuery odoh wire (arrivals.responses.tail.head?.getD none) with
    | .ok message => .ok message
    | .error _ => .error ()
  | .error .other => .error ()

def forwardQueryRaw (arrivals : Arrivals) : Upstream → Except Unit (List UInt8)
  | .udp _ => forwardUdpRaw arrivals
  | .tcp _ => forwardTcpRaw arrivals
  | .doh _ => forwardDohRaw arrivals
  | .dot .. => forwardDotRaw arrivals
  | .odoh .. => queryThroughRelay odoh wire arrivals

/-! ## Hedging and failover -/

/-- The order in which the two exchanges of a hedged query end. -/
inductive HedgeOrder
  /-- The first one ends before the hedge delay. -/
  | beforeDelay
  | primaryFirst
  | secondaryFirst

/-- `forward_with_hedging_raw` on the results of its exchanges. -/
def forwardWithHedgingRaw (order : HedgeOrder) (primary secondary : Except Unit (List UInt8)) :
    Except Unit (List UInt8) :=
  match order, primary, secondary with
  | .beforeDelay, primary, _ => primary
  | .primaryFirst, .ok message, _ => .ok message
  | .primaryFirst, .error _, secondary => secondary
  | .secondaryFirst, _, .ok message => .ok message
  | .secondaryFirst, primary, .error _ => primary

/-- What arrives when an upstream is tried: in one exchange, or in two with the
order in which they end. -/
structure Attempt where
  arrivals : Arrivals
  hedge : Option (HedgeOrder × Arrivals) := none

def Attempt.result (attempt : Attempt) (upstream : Upstream) : Except Unit (List UInt8) :=
  let first := forwardQueryRaw odoh wire attempt.arrivals upstream
  match attempt.hedge with
  | none => first
  | some (order, arrivals) =>
    forwardWithHedgingRaw order first (forwardQueryRaw odoh wire arrivals upstream)

structure UpstreamPool where
  primary : List Upstream
  fallback : List Upstream

/-- `PRIMARY_SKIP_SRTT_MS`. -/
def primarySkipSrttMs : Nat := 4000

/-- The upstreams in the order in which they are tried, by their round trip
times. -/
def UpstreamPool.tried (pool : UpstreamPool) (rtt : Upstream → Nat) : List Upstream :=
  let candidates := pool.primary.mergeSort fun first second => rtt first ≤ rtt second
  candidates.filter (fun upstream => pool.fallback.isEmpty || rtt upstream < primarySkipSrttMs) ++
    pool.fallback

/-- The loop of `forward_with_failover_raw`. -/
def tryUpstreams : List Upstream → List Attempt → Except Unit (List UInt8)
  | upstream :: upstreams, attempt :: attempts =>
    match attempt.result odoh wire upstream with
    | .ok message => .ok message
    | .error _ => tryUpstreams upstreams attempts
  | _, _ => .error ()

/-- `forward_with_failover_raw`, with the attempts in their order. -/
def forwardWithFailoverRaw (pool : UpstreamPool) (rtt : Upstream → Nat)
    (attempts : List Attempt) : Except Unit (List UInt8) :=
  tryUpstreams odoh wire (pool.tried rtt) attempts

end Odoh

/-! ## Packets -/

/-- `DnsPacket::from_buffer` on the octets of a message. -/
def parseMessage (message : List UInt8) : Except Unit DnsPacket :=
  match BytePacketBuffer.exec DnsPacket.fromBuffer (.fromBytes message) with
  | (.ok packet, _) => .ok packet
  | (.error _, _) => .error ()

/-- Send a query that can be written, and parse the result. -/
def exchangePacket (query : DnsPacket) (raw : Except Unit (List UInt8)) :
    Except Unit DnsPacket :=
  match BytePacketBuffer.exec query.write .new with
  | (.error _, _) => .error ()
  | (.ok _, _) =>
    match raw with
    | .ok message => parseMessage message
    | .error _ => .error ()

def forwardUdp (query : DnsPacket) (arrivals : Arrivals) : Except Unit DnsPacket :=
  exchangePacket query (forwardUdpRaw arrivals)

def forwardTcp (query : DnsPacket) (arrivals : Arrivals) : Except Unit DnsPacket :=
  exchangePacket query (forwardTcpRaw arrivals)

/-- The query of `send_query`. -/
def serverQuery (id : UInt16) (qname : Text) (qtype : QueryType) : DnsPacket :=
  let query := DnsPacket.query id qname qtype
  { query with
    header := { query.header with recursionDesired := false }
    edns := some { doBit := true } }

/-- `UDP_FAIL_THRESHOLD`. -/
def udpFailThreshold : Nat := 3

def SocketAddr.isIpv6 : SocketAddr → Bool
  | v4 .. => false
  | v6 .. => true

/-- `send_query`, where UDP may have been disabled, and has failed a number of
times in a row. -/
def sendQuery (id : UInt16) (qname : Text) (qtype : QueryType) (server : SocketAddr)
    (udpDisabled : Bool) (udpFailures : Nat) (arrivals : Arrivals) : Except Unit DnsPacket :=
  let query := serverQuery id qname qtype
  if server.isIpv6 || udpDisabled then forwardTcp query arrivals
  else
    match forwardUdp query arrivals with
    | .ok resp => if resp.header.truncatedMessage then forwardTcp query arrivals else .ok resp
    | .error _ =>
      if udpFailThreshold ≤ udpFailures + 1 then forwardTcp query arrivals else .error ()

/-! ## The first message that arrives -/

section First

variable (odoh : OdohCrypto) (wire : List UInt8)

/-- The relay answers with a message of the target. -/
def Unseals (response : Option HttpResponse) (message : List UInt8) : Prop :=
  ∃ status body encrypted, response = some ⟨status, body⟩ ∧ 200 ≤ status ∧ status < 300 ∧
    odoh.parse body = some encrypted ∧ odoh.decryptResponse wire encrypted = some message

/-- The message is the first one that arrives in the exchange, whatever it
says. -/
def ArrivesFirst (arrivals : Arrivals) (message : List UInt8) : Upstream → Prop
  | .udp _ => ∃ sender datagram later,
      arrivals.datagrams = (sender, datagram) :: later ∧ message = datagram.take 4096
  | .tcp _ | .dot .. => message.length < 2 ^ 16 ∧
      ∃ later, arrivals.stream = framed message ++ later
  | .doh _ => ∃ status later, arrivals.responses = some ⟨status, message⟩ :: later ∧
      ¬ (400 ≤ status ∧ status < 600)
  | .odoh .. => Unseals odoh wire (arrivals.responses.head?.getD none) message ∨
      attemptQuery odoh wire (arrivals.responses.head?.getD none) = .error .keyRotation ∧
        Unseals odoh wire (arrivals.responses.tail.head?.getD none) message

variable {odoh wire} {arrivals : Arrivals} {message : List UInt8}

theorem readFramed_eq_ok_iff {stream : List UInt8} :
    readFramed stream = .ok message ↔
      message.length < 2 ^ 16 ∧ ∃ later, stream = framed message ++ later := by
  constructor
  · intro isRead
    match stream, isRead with
    | high :: low :: rest, isRead =>
        simp only [readFramed] at isRead
        split at isRead
        · rename_i enough
          cases isRead
          have isLength : (rest.take (high.toUInt16 <<< 8 ||| low.toUInt16).toNat).length =
              (high.toUInt16 <<< 8 ||| low.toUInt16).toNat := by
            rw [List.length_take]
            omega
          refine ⟨?_, rest.drop (high.toUInt16 <<< 8 ||| low.toUInt16).toNat, ?_⟩
          · rw [isLength]
            exact UInt16.toNat_lt _
          · rw [framed, isLength, UInt16.ofNat_toNat, beBytes16_join, List.append_assoc,
              List.take_append_drop]
            rfl
        · cases isRead
  · rintro ⟨short, later, rfl⟩
    have isLength : (UInt16.ofNat message.length).toNat = message.length :=
      UInt16.toNat_ofNat_of_lt' short
    have joined := join_beBytes16 (.ofNat message.length)
    simp only [framed, beBytes16, List.cons_append, List.nil_append, readFramed, joined, isLength,
      List.length_append, Nat.le_add_right, if_true, List.take_left']

theorem attemptQuery_eq_ok_iff {response : Option HttpResponse} :
    attemptQuery odoh wire response = .ok message ↔ Unseals odoh wire response message := by
  constructor
  · intro opened
    match response, opened with
    | some ⟨status, body⟩, opened =>
        simp only [attemptQuery] at opened
        split at opened
        · cases opened
        · rename_i success
          split at opened
          · cases opened
          · rename_i encrypted parsed
            split at opened
            · cases opened
            · rename_i isMessage decrypted
              cases opened
              exact ⟨status, body, encrypted, rfl, (not_not.mp success).1, (not_not.mp success).2,
                parsed, decrypted⟩
  · rintro ⟨status, body, encrypted, rfl, above, below, parsed, decrypted⟩
    simp [attemptQuery, above, below, parsed, decrypted]

/-- What `forward_query_raw` returns is the first message that arrives. -/
theorem forwardQueryRaw_eq_ok_iff (upstream : Upstream) :
    forwardQueryRaw odoh wire arrivals upstream = .ok message ↔
      ArrivesFirst odoh wire arrivals message upstream := by
  cases upstream with
  | udp addr =>
      simp only [forwardQueryRaw, forwardUdpRaw, ArrivesFirst]
      cases arrivals.datagrams with
      | nil => simp
      | cons first later =>
          obtain ⟨sender, datagram⟩ := first
          simp [eq_comm]
  | tcp addr => exact readFramed_eq_ok_iff
  | dot addr tlsName => exact readFramed_eq_ok_iff
  | doh url =>
      simp only [forwardQueryRaw, forwardDohRaw, ArrivesFirst]
      match arrivals.responses with
      | [] => simp
      | none :: later => simp
      | some ⟨status, body⟩ :: later =>
          by_cases failed : 400 ≤ status ∧ status < 600
          · simp [HttpResponse.errorForStatus, failed]
          · have passes : HttpResponse.errorForStatus ⟨status, body⟩ = false :=
              decide_eq_false failed
            simp only [passes, Bool.false_eq_true, if_false, Except.ok.injEq, List.cons.injEq,
              Option.some.injEq, HttpResponse.mk.injEq]
            constructor
            · rintro rfl
              exact ⟨status, later, ⟨⟨rfl, rfl⟩, rfl⟩, failed⟩
            · rintro ⟨_, _, ⟨⟨-, same⟩, -⟩, -⟩
              exact same
  | odoh relayUrl targetPath =>
      simp only [forwardQueryRaw, queryThroughRelay, ArrivesFirst, ← attemptQuery_eq_ok_iff]
      cases attemptQuery odoh wire (arrivals.responses.head?.getD none) with
      | ok opened => simp
      | error error =>
          cases error with
          | other => simp
          | keyRotation =>
              cases attemptQuery odoh wire (arrivals.responses.tail.head?.getD none) with
              | ok opened => simp
              | error again => simp

/-- Can `DnsPacket::write` serialize the packet? -/
def DnsPacket.Writable (packet : DnsPacket) : Prop :=
  ∃ buffer, BytePacketBuffer.exec packet.write .new = (.ok (), buffer)

theorem exchangePacket_eq_ok_iff {query packet : DnsPacket} {raw : Except Unit (List UInt8)} :
    exchangePacket query raw = .ok packet ↔
      query.Writable ∧ ∃ message, raw = .ok message ∧ parseMessage message = .ok packet := by
  unfold exchangePacket DnsPacket.Writable
  split
  · rename_i error buffer failed
    simp [failed]
  · rename_i buffer written
    cases raw with
    | ok message => simp [written]
    | error error => simp

/-- What `send_query` returns is parsed from the first message that arrives over
UDP or TCP. -/
theorem exists_exchange_of_sendQuery {id : UInt16} {qname : Text} {qtype : QueryType}
    {server : SocketAddr} {udpDisabled : Bool} {udpFailures : Nat} {packet : DnsPacket}
    (returned : sendQuery id qname qtype server udpDisabled udpFailures arrivals = .ok packet) :
    ∃ upstream ∈ [Upstream.udp server, .tcp server], ∃ message,
      ArrivesFirst odoh wire arrivals message upstream ∧ parseMessage message = .ok packet := by
  have overTcp : forwardTcp (serverQuery id qname qtype) arrivals = .ok packet →
      ∃ upstream ∈ [Upstream.udp server, .tcp server], ∃ message,
        ArrivesFirst odoh wire arrivals message upstream ∧ parseMessage message = .ok packet := by
    intro isOk
    obtain ⟨-, message, isMessage, parsed⟩ := exchangePacket_eq_ok_iff.mp isOk
    exact ⟨.tcp server, by simp, message, readFramed_eq_ok_iff.mp isMessage, parsed⟩
  simp only [sendQuery] at returned
  split at returned
  · exact overTcp returned
  · split at returned
    · rename_i resp isOk
      split at returned
      · exact overTcp returned
      · cases returned
        obtain ⟨-, message, isMessage, parsed⟩ := exchangePacket_eq_ok_iff.mp isOk
        exact ⟨.udp server, by simp, message,
          (forwardQueryRaw_eq_ok_iff (.udp server)).mp isMessage, parsed⟩
    · split at returned
      · exact overTcp returned
      · cases returned

/-- The exchanges of an attempt. -/
def Attempt.exchanges (attempt : Attempt) : List Arrivals :=
  attempt.arrivals :: (attempt.hedge.map Prod.snd).toList

theorem eq_of_forwardWithHedgingRaw {order : HedgeOrder}
    {primary secondary : Except Unit (List UInt8)}
    (returned : forwardWithHedgingRaw order primary secondary = .ok message) :
    primary = .ok message ∨ secondary = .ok message := by
  cases order with
  | beforeDelay => exact .inl returned
  | primaryFirst =>
      cases primary with
      | ok first => exact .inl returned
      | error error => exact .inr returned
  | secondaryFirst =>
      cases secondary with
      | ok second => exact .inr returned
      | error error => exact .inl returned

theorem exists_exchange_of_result {attempt : Attempt} {upstream : Upstream}
    (returned : attempt.result odoh wire upstream = .ok message) :
    ∃ arrivals ∈ attempt.exchanges, ArrivesFirst odoh wire arrivals message upstream := by
  obtain ⟨arrivals, hedge⟩ := attempt
  simp only [← forwardQueryRaw_eq_ok_iff]
  cases hedge with
  | none => exact ⟨arrivals, List.mem_cons_self, returned⟩
  | some hedged =>
      obtain ⟨order, others⟩ := hedged
      rcases eq_of_forwardWithHedgingRaw returned with first | second
      · exact ⟨arrivals, List.mem_cons_self, first⟩
      · exact ⟨others, List.mem_cons_of_mem _ (List.mem_singleton_self _), second⟩

/-- What an exchange with a pool returns is the first message that arrives in
an exchange with one of its upstreams. -/
theorem exists_exchange_of_forwardWithFailoverRaw {pool : UpstreamPool} {rtt : Upstream → Nat}
    {attempts : List Attempt}
    (returned : forwardWithFailoverRaw odoh wire pool rtt attempts = .ok message) :
    ∃ upstream ∈ pool.primary ++ pool.fallback, ∃ attempt ∈ attempts,
      ∃ arrivals ∈ attempt.exchanges, ArrivesFirst odoh wire arrivals message upstream := by
  have tried : ∀ (upstreams : List Upstream) (attempts : List Attempt),
      tryUpstreams odoh wire upstreams attempts = .ok message →
      ∃ upstream ∈ upstreams, ∃ attempt ∈ attempts,
        ∃ arrivals ∈ attempt.exchanges, ArrivesFirst odoh wire arrivals message upstream := by
    intro upstreams
    induction upstreams with
    | nil =>
        intro attempts isOk
        simp [tryUpstreams] at isOk
    | cons upstream upstreams ih =>
        intro attempts isOk
        cases attempts with
        | nil => simp [tryUpstreams] at isOk
        | cons attempt attempts =>
            simp only [tryUpstreams] at isOk
            split at isOk
            · rename_i returned
              cases isOk
              exact ⟨upstream, List.mem_cons_self, attempt, List.mem_cons_self,
                exists_exchange_of_result returned⟩
            · obtain ⟨other, otherMem, later, laterMem, arrives⟩ := ih attempts isOk
              exact ⟨other, List.mem_cons_of_mem _ otherMem, later, List.mem_cons_of_mem _ laterMem,
                arrives⟩
  obtain ⟨upstream, upstreamMem, rest⟩ := tried _ _ returned
  refine ⟨upstream, ?_, rest⟩
  simp only [UpstreamPool.tried, List.mem_append, List.mem_filter, List.mem_mergeSort] at upstreamMem
  rcases upstreamMem with ⟨primary, -⟩ | fallback
  · exact List.mem_append_left _ primary
  · exact List.mem_append_right _ fallback

end First

end Numa
