import Numa.Census
import Numa.KeptBuffer
import Numa.Listeners

/-!
# What gets past the listeners

In every interleaving of connections and datagrams, the permits and the counters
of PROXY headers add up, only clients behind both gates are served, and a
datagram has at most one reply, which goes back to where it came from.
-/

namespace Numa

open BytePacketBuffer
open Interaction (ask done)

/-! ## The gates -/

namespace Gates

variable (gates : Gates)

/-- The client of a connection or datagram is the peer or one that a trusted
peer names, and it is allowed unless the trusted peer comes for itself. -/
def Passes (pp : Option PpConfig) (peer remote : SocketAddr) (localCommand : Bool) : Prop :=
  gates.allowFrom.admits remote.ip localCommand = true ∧
    match pp with
    | none => remote = peer ∧ localCommand = false
    | some pp => pp.allows peer.ip = true ∧ (localCommand = true → remote = peer)

/-- What `parse_if_trusted` finds of a header, and what is left of the datagram. -/
def screen (datagram : Datagram) : Option HeaderVerdict × UdpPp SocketAddr :=
  match gates.udpPp with
  | none => (none, .bare)
  | some pp =>
    if !pp.allows datagram.peer.ip then (some .untrusted, .drop)
    else
      match gates.parseHeader datagram.octets with
      | none => (some .malformed, .drop)
      | some (some source, hdrLen) => (some (.proxied source), .proxied source hdrLen false)
      | some (none, hdrLen) => (some .localCommand, .proxied datagram.peer hdrLen true)

/-- The client of a datagram and the length of its header. -/
def sender (datagram : Datagram) : UdpPp SocketAddr → Option (SocketAddr × Bool × Nat)
  | .bare => some (datagram.peer, false, 0)
  | .proxied source hdrLen localCommand => some (source, localCommand, hdrLen)
  | .drop => none

/-- A datagram of a client behind the gates asks a query, which is read from a
buffer that has its message in front. -/
def Asks (datagram : Datagram) (inquiry : Inquiry) : Prop :=
  ∃ localCommand hdrLen,
    sender datagram (gates.screen datagram).2 = some (inquiry.src, localCommand, hdrLen) ∧
      gates.Passes gates.udpPp datagram.peer inquiry.src localCommand ∧
      inquiry.message = datagram.octets.drop hdrLen ∧
      ∃ buffer after, buffer.Holds inquiry.message ∧
        exec DnsPacket.fromBuffer buffer = (.ok inquiry.query, after)

end Gates

section Datagram

variable {gates : Gates} {datagram : Datagram} {pp : UdpPp SocketAddr} {src : SocketAddr}
  {dnsLen : Nat} {localCommand : Bool}

/-- The message stands at the start of the buffer, and its length is right. -/
theorem Datagram.holds_buffer
    (applied : (pp.apply (fromBytes datagram.octets).buf datagram.octets.length datagram.peer).1 =
      some (src, dnsLen, localCommand)) :
    ∃ hdrLen, Gates.sender datagram pp = some (src, localCommand, hdrLen) ∧
      (datagram.buffer pp).Holds (datagram.octets.drop hdrLen) ∧
      dnsLen = (datagram.octets.drop hdrLen).length := by
  cases pp with
  | bare =>
      cases applied
      exact ⟨0, rfl, ⟨rfl, (holds_fromBytes datagram.fits).2⟩, rfl⟩
  | proxied source hdrLen fromSender =>
      cases applied
      have isShifted : (datagram.buffer (.proxied src hdrLen localCommand)).buf =
          ((UdpPp.proxied src hdrLen localCommand).apply (fromBytes datagram.octets).buf
            datagram.octets.length datagram.peer).2 := rfl
      exact ⟨hdrLen, rfl, holds_apply datagram.fits rfl isShifted, List.length_drop.symm⟩
  | drop => cases applied

theorem Gates.sender_eq_none
    (dropped : (pp.apply (fromBytes datagram.octets).buf datagram.octets.length datagram.peer).1 =
      none) : sender datagram pp = none := by
  cases pp with
  | bare | proxied source hdrLen fromSender => cases dropped
  | drop => rfl

/-- Who is let through and admitted has passed the gates. -/
theorem Gates.passes_of_screen {hdrLen : Nat}
    (sent : sender datagram (gates.screen datagram).2 = some (src, localCommand, hdrLen))
    (admitted : gates.allowFrom.admits src.ip localCommand = true) :
    gates.Passes gates.udpPp datagram.peer src localCommand := by
  refine ⟨admitted, ?_⟩
  unfold screen at sent
  cases configured : gates.udpPp with
  | none =>
      rw [configured] at sent
      cases sent
      exact ⟨rfl, rfl⟩
  | some pp =>
      rw [configured] at sent
      dsimp only at sent ⊢
      cases trusted : pp.allows datagram.peer.ip with
      | false =>
          rw [trusted] at sent
          cases sent
      | true =>
          rw [trusted] at sent
          rcases parsed : gates.parseHeader datagram.octets with _ | ⟨_ | source, length⟩ <;>
            rw [parsed] at sent <;> cases sent
          · exact ⟨rfl, fun _ => rfl⟩
          · exact ⟨rfl, nofun⟩

theorem Gates.asks_of_read {query : DnsPacket} {after : BytePacketBuffer}
    (applied : ((gates.screen datagram).2.apply (fromBytes datagram.octets).buf
      datagram.octets.length datagram.peer).1 = some (src, dnsLen, localCommand))
    (admitted : gates.allowFrom.admits src.ip localCommand = true)
    (read : exec DnsPacket.fromBuffer (datagram.buffer (gates.screen datagram).2) =
      (.ok query, after)) :
    gates.Asks datagram ⟨query, after.buf.take dnsLen, src⟩ := by
  obtain ⟨hdrLen, sent, holds, isLength⟩ := Datagram.holds_buffer applied
  have kept : after.buf = (datagram.buffer (gates.screen datagram).2).buf := by
    have octets := keepsOctets_fromBuffer (datagram.buffer (gates.screen datagram).2)
    rwa [read] at octets
  have message : after.buf.take dnsLen = datagram.octets.drop hdrLen := by
    rw [kept, isLength, holds.2]
  refine ⟨localCommand, hdrLen, sent, gates.passes_of_screen sent admitted, message,
    _, after, ?_, read⟩
  rwa [message]

end Datagram

/-! ## The shared state -/

structure Served where
  listener : Listener
  peer : SocketAddr
  remote : SocketAddr
  localCommand : Bool

structure UdpReply where
  index : Nat
  octets : List UInt8
  dst : SocketAddr
  src : Option IpAddr

/-- The permits and counters, with what has come in and gone out. -/
structure Listening where
  permits : Listener → Nat
  counts : ProxyCounter → Nat
  /-- The connections and datagrams that a header is asked of. -/
  screened : Nat
  served : List Served
  datagrams : List Datagram
  answers : List (Nat × Inquiry × List UInt8)
  replies : List UdpReply

namespace Listening

def init : Listening where
  permits _ := maxConnections
  counts _ := 0
  screened := 0
  served := []
  datagrams := []
  answers := []
  replies := []

def screen (state : Listening) (pp : Option PpConfig) : Listening :=
  { state with screened := state.screened + if pp.isSome then 1 else 0 }

def acquire (state : Listening) (listener : Listener) : Listening :=
  { state with permits := Function.update state.permits listener (state.permits listener - 1) }

def release (state : Listening) (listener : Listener) : Listening :=
  { state with permits := Function.update state.permits listener (state.permits listener + 1) }

def count (state : Listening) (counter : ProxyCounter) : Listening :=
  { state with counts := Function.update state.counts counter (state.counts counter + 1) }

def serve (state : Listening) (served : Served) : Listening :=
  { state with served := state.served ++ [served] }

def recv (state : Listening) (datagram : Datagram) : Listening :=
  { state with datagrams := state.datagrams ++ [datagram] }

def answer (state : Listening) (index : Nat) (inquiry : Inquiry) (octets : List UInt8) :
    Listening :=
  { state with answers := state.answers ++ [(index, inquiry, octets)] }

def send (state : Listening) (reply : UdpReply) : Listening :=
  { state with replies := state.replies ++ [reply] }

def Happens (gates : Gates) (state : Listening) :
    (effect : ListenerEffect) → effect.Answer → Listening → Prop
  | .accept listener _, _, after =>
    after = if listener.isLimited then state else state.screen (gates.pp listener)
  | .tryAcquire listener, true, after => 0 < state.permits listener ∧
      after = (state.acquire listener).screen (gates.pp listener)
  | .tryAcquire listener, false, after => state.permits listener = 0 ∧ after = state
  | .release listener, _, after => after = state.release listener
  | .count verdict, _, after => after = state.count verdict.counter
  | .serve listener peer remote localCommand, _, after =>
    after = state.serve ⟨listener, peer, remote, localCommand⟩
  | .recv datagram, index, after => index = state.datagrams.length ∧
      after = (state.recv datagram).screen gates.udpPp
  | .resolve index inquiry, some (.ok respBuffer), after =>
    after = state.answer index inquiry respBuffer.filled
  | .send index octets dst src, _, after => after = state.send ⟨index, octets, dst, src⟩
  | .resolve _ _, _, after | .readHeader, _, after | .acceptTls, _, after | .close, _, after
  | .drop, _, after => after = state

end Listening

/-! ## Phases -/

/-- How far a connection or datagram is. -/
inductive ListenerPhase
  | idle
  /-- A connection that has no permit yet. -/
  | accepted (listener : Listener) (peer : SocketAddr)
  /-- A connection, with a permit where it needs one, that a header is asked of. -/
  | screening (listener : Listener) (peer : SocketAddr)
  | judged (listener : Listener) (peer : SocketAddr) (verdict : HeaderVerdict)
  | cleared (listener : Listener) (peer remote : SocketAddr) (localCommand : Bool)
  /-- A connection that is to be closed, and has a permit or none. -/
  | finished (listener : Listener) (permitted : Bool)
  | closed (listener : Listener)
  /-- A datagram that a header is asked of. -/
  | arrived (index : Nat) (datagram : Datagram)
  | received (index : Nat) (datagram : Datagram)
  | answering (index : Nat) (datagram : Datagram) (octets : List UInt8)

namespace ListenerPhase

variable (gates : Gates)

/-- Where a connection begins once it may go on. -/
def start (listener : Listener) (peer : SocketAddr) : ListenerPhase :=
  if (gates.pp listener).isSome then screening listener peer else cleared listener peer peer false

def startDatagram (index : Nat) (datagram : Datagram) : ListenerPhase :=
  if gates.udpPp.isSome then arrived index datagram else received index datagram

def ofVerdict (listener : Listener) (peer : SocketAddr) (verdict : HeaderVerdict) : ListenerPhase :=
  match verdict.client peer with
  | some (remote, localCommand) => cleared listener peer remote localCommand
  | none => finished listener listener.isLimited

def afterClose (listener : Listener) (permitted : Bool) : ListenerPhase :=
  if permitted then closed listener else idle

def afterScreen (index : Nat) (datagram : Datagram) (verdict : HeaderVerdict) : ListenerPhase :=
  if (verdict.client datagram.peer).isSome then received index datagram else idle

def next : ListenerPhase → (effect : ListenerEffect) → effect.Answer → ListenerPhase
  | idle, .accept listener peer, _ =>
    if listener.isLimited then accepted listener peer else start gates listener peer
  | idle, .recv datagram, index => startDatagram gates index datagram
  | accepted listener peer, .tryAcquire _, true => start gates listener peer
  | accepted listener _, .tryAcquire _, false => finished listener false
  | screening listener peer, .readHeader, header => judged listener peer header.verdict
  | screening listener _, .count _, _ => finished listener listener.isLimited
  | judged listener peer verdict, .count _, _ => ofVerdict listener peer verdict
  | cleared listener _ _ _, .serve _ _ _ _, _ => finished listener listener.isLimited
  | cleared listener _ _ _, .close, _ => afterClose listener listener.isLimited
  | finished listener permitted, .close, _ => afterClose listener permitted
  | closed _, .release _, _ => idle
  | arrived index datagram, .count verdict, _ => afterScreen index datagram verdict
  | received index datagram, .resolve _ _, some (.ok respBuffer) =>
    answering index datagram respBuffer.filled
  | received _ _, .resolve _ _, _ | received _ _, .drop, _ | answering _ _ _, .send _ _ _ _, _ =>
    idle
  | phase, _, _ => phase

def Allowed : ListenerPhase → ListenerEffect → Prop
  | idle, effect => (∃ listener peer, effect = .accept listener peer) ∨
      ∃ datagram, effect = .recv datagram
  | accepted listener _, effect => effect = .tryAcquire listener
  | screening listener peer, effect => ∃ pp, gates.pp listener = some pp ∧
      (pp.allows peer.ip = true ∧ effect = .readHeader ∨
        pp.allows peer.ip = false ∧ effect = .count .untrusted)
  | judged _ _ verdict, effect => effect = .count verdict
  | cleared listener peer remote localCommand, effect =>
    gates.allowFrom.admits remote.ip localCommand = true ∧
        (effect = .serve listener peer remote localCommand ∨ effect = .acceptTls) ∨
      effect = .close
  | finished _ _, effect => effect = .close
  | closed listener, effect => effect = .release listener
  | arrived _ datagram, effect =>
    ∃ verdict, (gates.screen datagram).1 = some verdict ∧ effect = .count verdict
  | received index datagram, effect =>
    (∃ inquiry, gates.Asks datagram inquiry ∧ effect = .resolve index inquiry) ∨ effect = .drop
  | answering index datagram octets, effect =>
    effect = .send index octets datagram.peer datagram.localDst

end ListenerPhase

def listenerRules (gates : Gates) :
    TaskRules ListenerEffect ListenerEffect.Answer Listening ListenerPhase where
  happens := Listening.Happens gates
  allowed := ListenerPhase.Allowed gates
  next := ListenerPhase.next gates
  idle := .idle

/-! ## The tasks keep to their phases -/

namespace ListenerTask

variable {gates : Gates} {listener : Listener}

/-- The client that the handshake finds. -/
def Found (listener : Listener) (peer : SocketAddr) (phase : ListenerPhase) :
    Option (SocketAddr × Bool) → Prop
  | none => phase = .finished listener listener.isLimited
  | some (remote, localCommand) => phase = .cleared listener peer remote localCommand

theorem obeys_handshake (listener : Listener) (peer : SocketAddr) :
    (handshake (gates.pp listener) peer).Obeys (listenerRules gates).protocol
      (Found listener peer) (.start gates listener peer) := by
  unfold handshake ListenerPhase.start
  cases configured : gates.pp listener with
  | none => rfl
  | some pp =>
      dsimp only
      cases trusted : pp.allows peer.ip with
      | false =>
          refine ⟨⟨pp, configured, .inr ⟨trusted, rfl⟩⟩, ?_⟩
          rintro _ _ rfl
          rfl
      | true =>
          refine ⟨⟨pp, configured, .inl ⟨trusted, rfl⟩⟩, ?_⟩
          rintro header _ rfl
          refine ⟨rfl, ?_⟩
          rintro _ _ rfl
          change Found listener peer (.ofVerdict listener peer header.verdict)
            (header.verdict.client peer)
          unfold ListenerPhase.ofVerdict
          cases header.verdict.client peer <;> rfl

/-- The end of a connection. -/
theorem obeys_close {phase : ListenerPhase} {permitted : Bool}
    (allowed : phase.Allowed gates .close)
    (isNext : phase.next gates .close () = .afterClose listener permitted) :
    (ask .close fun _ => done () : ListenerTask Unit).Obeys (listenerRules gates).protocol
      (fun last _ => last = .afterClose listener permitted) phase := by
  refine ⟨allowed, ?_⟩
  rintro _ _ rfl
  exact isNext

theorem obeys_serve {listener : Listener} {peer remote : SocketAddr} {localCommand : Bool}
    (admitted : gates.allowFrom.admits remote.ip localCommand = true) :
    (ask (.serve listener peer remote localCommand) fun _ => ask .close fun _ => done () :
      ListenerTask Unit).Obeys (listenerRules gates).protocol
      (fun last _ => last = .afterClose listener listener.isLimited)
      (.cleared listener peer remote localCommand) := by
  refine ⟨.inl ⟨admitted, .inl rfl⟩, ?_⟩
  rintro _ _ rfl
  exact obeys_close rfl rfl

theorem obeys_handleConnection (listener : Listener) (peer : SocketAddr) :
    (handleConnection gates listener peer).Obeys (listenerRules gates).protocol
      (fun last _ => last = .afterClose listener listener.isLimited)
      (.start gates listener peer) := by
  refine (obeys_handshake listener peer).bind ?_
  rintro phase (_ | ⟨remote, localCommand⟩) found
  · cases found
    exact obeys_close rfl rfl
  · cases found
    dsimp only
    split
    · exact obeys_close (.inr rfl) rfl
    next admitted =>
      have admits : gates.allowFrom.admits remote.ip localCommand = true := by
        simpa using admitted
      split
      · exact obeys_serve admits
      · refine ⟨.inl ⟨admits, .inr rfl⟩, ?_⟩
        rintro (_ | _) _ rfl
        · exact obeys_close (.inr rfl) rfl
        · exact obeys_serve admits

theorem runs_acceptWithPermit {listener : Listener} (limited : listener.isLimited = true)
    (peer : SocketAddr) : (listenerRules gates).Runs (acceptWithPermit gates listener peer) := by
  refine ⟨.inl ⟨listener, peer, rfl⟩, ?_⟩
  rintro _ _ rfl
  have isAccepted : ListenerPhase.next gates .idle (.accept listener peer) () =
      .accepted listener peer := if_pos limited
  change Interaction.Obeys _ _ _ (ListenerPhase.next gates .idle (.accept listener peer) ())
  rw [isAccepted]
  refine ⟨rfl, ?_⟩
  rintro (_ | _) _ rfl
  · have rejected : (ask .close fun _ => done () : ListenerTask Unit).Obeys
        (listenerRules gates).protocol (fun last _ => last = .afterClose listener false)
        (.finished listener false) := obeys_close rfl rfl
    exact rejected
  · refine (obeys_handleConnection listener peer).bind ?_
    rintro phase _ rfl
    rw [limited]
    refine ⟨rfl, ?_⟩
    rintro _ _ rfl
    rfl

theorem runs_acceptHttps (peer : SocketAddr) :
    (listenerRules gates).Runs (acceptHttps gates peer) := by
  refine ⟨.inl ⟨_, peer, rfl⟩, ?_⟩
  rintro _ _ rfl
  exact obeys_handleConnection .https peer

variable {index : Nat} {datagram : Datagram}

/-- A datagram that is dropped at the gate of the senders, or is let through. -/
def Screened (gates : Gates) (index : Nat) (datagram : Datagram) (phase : ListenerPhase)
    (pp : UdpPp SocketAddr) : Prop :=
  pp = (gates.screen datagram).2 ∧
    phase = if (Gates.sender datagram pp).isSome then .received index datagram else .idle

theorem obeys_count {verdict : HeaderVerdict} {pp : UdpPp SocketAddr}
    (screened : gates.screen datagram = (some verdict, pp))
    (alike : (verdict.client datagram.peer).isSome = (Gates.sender datagram pp).isSome) :
    (ask (.count verdict) fun _ => done pp : ListenerTask (UdpPp SocketAddr)).Obeys
      (listenerRules gates).protocol (Screened gates index datagram) (.arrived index datagram) := by
  refine ⟨⟨verdict, by rw [screened], rfl⟩, ?_⟩
  rintro _ _ rfl
  exact ⟨by rw [screened], by rw [← alike]; rfl⟩

theorem obeys_parseIfTrusted (index : Nat) (datagram : Datagram) :
    (parseIfTrusted gates datagram.octets datagram.peer).Obeys (listenerRules gates).protocol
      (Screened gates index datagram) (.startDatagram gates index datagram) := by
  unfold parseIfTrusted ListenerPhase.startDatagram
  cases configured : gates.udpPp with
  | none => exact ⟨by rw [Gates.screen, configured], rfl⟩
  | some pp =>
      change Interaction.Obeys _ _ _ (ListenerPhase.arrived index datagram)
      dsimp only
      cases trusted : pp.allows datagram.peer.ip with
      | false => exact obeys_count (by simp [Gates.screen, configured, trusted]) rfl
      | true =>
          rw [if_neg (by decide)]
          rcases parsed : gates.parseHeader datagram.octets with _ | ⟨_ | source, hdrLen⟩
          · exact obeys_count (by simp [Gates.screen, configured, trusted, parsed]) rfl
          · exact obeys_count (by simp [Gates.screen, configured, trusted, parsed]) rfl
          · exact obeys_count (by simp [Gates.screen, configured, trusted, parsed]) rfl

theorem obeys_handleQuery {buffer : BytePacketBuffer} {rawLen : Nat} {src : SocketAddr}
    (asks : ∀ query after, exec DnsPacket.fromBuffer buffer = (.ok query, after) →
      gates.Asks datagram ⟨query, after.buf.take rawLen, src⟩) :
    (handleQuery index buffer rawLen src datagram.peer datagram.localDst).Obeys
      (listenerRules gates).protocol (fun last _ => last = .idle) (.received index datagram) := by
  unfold handleQuery
  rcases read : exec DnsPacket.fromBuffer buffer with ⟨error | query, after⟩
  · refine ⟨.inr rfl, ?_⟩
    rintro _ _ rfl
    rfl
  · refine ⟨.inl ⟨_, asks query after read, rfl⟩, ?_⟩
    rintro (_ | error | respBuffer) _ rfl
    · rfl
    · rfl
    · refine ⟨rfl, ?_⟩
      rintro _ _ rfl
      rfl

theorem runs_serveDatagram (datagram : Datagram) :
    (listenerRules gates).Runs (serveDatagram gates datagram) := by
  refine ⟨.inr ⟨datagram, rfl⟩, ?_⟩
  rintro index _ rfl
  refine (obeys_parseIfTrusted index datagram).bind ?_
  rintro phase _ ⟨rfl, rfl⟩
  split
  next dropped =>
    rw [Gates.sender_eq_none dropped]
    rfl
  next src dnsLen localCommand applied =>
    obtain ⟨hdrLen, sent, -⟩ := Datagram.holds_buffer applied
    rw [sent]
    change Interaction.Obeys _ _ _ (ListenerPhase.received index datagram)
    split
    · refine ⟨.inr rfl, ?_⟩
      rintro _ _ rfl
      rfl
    next admitted =>
      refine obeys_handleQuery fun query after read => ?_
      exact gates.asks_of_read applied (by simpa using admitted) read

theorem runs_of_isStarted {task : ListenerTask Unit} (isStarted : IsStarted gates task) :
    (listenerRules gates).Runs task := by
  cases isStarted with
  | tcp peer => exact runs_acceptWithPermit rfl peer
  | dot peer => exact runs_acceptWithPermit rfl peer
  | https peer => exact runs_acceptHttps peer
  | datagram datagram => exact runs_serveDatagram datagram

end ListenerTask

/-! ## Moves -/

/-- What a connection or datagram does next. -/
inductive Listening.Moves (gates : Gates) (state : Listening) :
    ListenerPhase → Listening → ListenerPhase → Prop
  | accept (listener : Listener) (peer : SocketAddr) (limited : listener.isLimited = true) :
      Moves gates state .idle state (.accepted listener peer)
  | acceptFree (listener : Listener) (peer : SocketAddr) (unlimited : listener.isLimited = false) :
      Moves gates state .idle (state.screen (gates.pp listener)) (.start gates listener peer)
  | acquire (listener : Listener) (peer : SocketAddr) (left : 0 < state.permits listener) :
      Moves gates state (.accepted listener peer)
        ((state.acquire listener).screen (gates.pp listener)) (.start gates listener peer)
  | refuse (listener : Listener) (peer : SocketAddr) :
      Moves gates state (.accepted listener peer) state (.finished listener false)
  | readHeader (listener : Listener) (peer : SocketAddr) (header : HeaderRead) (pp : PpConfig)
      (configured : gates.pp listener = some pp) (trusted : pp.allows peer.ip = true) :
      Moves gates state (.screening listener peer) state (.judged listener peer header.verdict)
  | distrust (listener : Listener) (peer : SocketAddr) :
      Moves gates state (.screening listener peer) (state.count .rejectedUntrusted)
        (.finished listener listener.isLimited)
  | judge (listener : Listener) (peer : SocketAddr) (verdict : HeaderVerdict) :
      Moves gates state (.judged listener peer verdict) (state.count verdict.counter)
        (.ofVerdict listener peer verdict)
  | acceptTls (listener : Listener) (peer remote : SocketAddr) (localCommand : Bool) :
      Moves gates state (.cleared listener peer remote localCommand) state
        (.cleared listener peer remote localCommand)
  | serve (listener : Listener) (peer remote : SocketAddr) (localCommand : Bool)
      (admitted : gates.allowFrom.admits remote.ip localCommand = true) :
      Moves gates state (.cleared listener peer remote localCommand)
        (state.serve ⟨listener, peer, remote, localCommand⟩) (.finished listener listener.isLimited)
  | turnAway (listener : Listener) (peer remote : SocketAddr) (localCommand : Bool) :
      Moves gates state (.cleared listener peer remote localCommand) state
        (.afterClose listener listener.isLimited)
  | close (listener : Listener) (permitted : Bool) :
      Moves gates state (.finished listener permitted) state (.afterClose listener permitted)
  | release (listener : Listener) :
      Moves gates state (.closed listener) (state.release listener) .idle
  | recv (datagram : Datagram) :
      Moves gates state .idle ((state.recv datagram).screen gates.udpPp)
        (.startDatagram gates state.datagrams.length datagram)
  | screen (index : Nat) (datagram : Datagram) (verdict : HeaderVerdict) :
      Moves gates state (.arrived index datagram) (state.count verdict.counter)
        (.afterScreen index datagram verdict)
  | answer (index : Nat) (datagram : Datagram) (inquiry : Inquiry) (octets : List UInt8)
      (asks : gates.Asks datagram inquiry) :
      Moves gates state (.received index datagram) (state.answer index inquiry octets)
        (.answering index datagram octets)
  | drop (index : Nat) (datagram : Datagram) :
      Moves gates state (.received index datagram) state .idle
  | send (index : Nat) (datagram : Datagram) (octets : List UInt8) :
      Moves gates state (.answering index datagram octets)
        (state.send ⟨index, octets, datagram.peer, datagram.localDst⟩) .idle

theorem Listening.moves_of_allowed {gates : Gates} {state after : Listening}
    {phase : ListenerPhase} {effect : ListenerEffect} {answer : effect.Answer}
    (allowed : phase.Allowed gates effect) (happens : state.Happens gates effect answer after) :
    state.Moves gates phase after (phase.next gates effect answer) := by
  cases phase with
  | idle =>
      obtain ⟨listener, peer, rfl⟩ | ⟨datagram, rfl⟩ := allowed
      · cases happens
        cases limited : listener.isLimited with
        | true =>
            simp only [ListenerPhase.next, limited, if_true]
            exact .accept listener peer limited
        | false =>
            simp only [ListenerPhase.next, limited, Bool.false_eq_true, if_false]
            exact .acceptFree listener peer limited
      · obtain ⟨rfl, rfl⟩ := happens
        exact .recv datagram
  | accepted listener peer =>
      cases allowed
      cases answer with
      | true =>
          obtain ⟨left, rfl⟩ := happens
          exact .acquire listener peer left
      | false =>
          obtain ⟨-, rfl⟩ := happens
          exact .refuse listener peer
  | screening listener peer =>
      obtain ⟨pp, configured, ⟨trusted, rfl⟩ | ⟨-, rfl⟩⟩ := allowed
      · cases happens
        exact .readHeader listener peer answer pp configured trusted
      · cases happens
        exact .distrust listener peer
  | judged listener peer verdict =>
      cases allowed
      cases happens
      exact .judge listener peer verdict
  | cleared listener peer remote localCommand =>
      obtain ⟨admitted, rfl | rfl⟩ | rfl := allowed
      · cases happens
        exact .serve listener peer remote localCommand admitted
      · cases happens
        exact .acceptTls listener peer remote localCommand
      · cases happens
        exact .turnAway listener peer remote localCommand
  | finished listener permitted =>
      cases allowed
      cases happens
      exact .close listener permitted
  | closed listener =>
      cases allowed
      cases happens
      exact .release listener
  | arrived index datagram =>
      obtain ⟨verdict, -, rfl⟩ := allowed
      cases happens
      exact .screen index datagram verdict
  | received index datagram =>
      obtain ⟨inquiry, asks, rfl⟩ | rfl := allowed
      · obtain _ | error | respBuffer := answer <;> cases happens
        · exact .drop index datagram
        · exact .drop index datagram
        · exact .answer index datagram inquiry _ asks
      · cases happens
        exact .drop index datagram
  | answering index datagram octets =>
      cases allowed
      cases happens
      exact .send index datagram octets

/-! ## Permits and counters -/

/-- It has a permit of the listener. -/
def ListenerPhase.Holds (listener : Listener) : ListenerPhase → Prop
  | screening other _ | judged other _ _ | cleared other _ _ _ =>
    other = listener ∧ listener.isLimited = true
  | finished other permitted => other = listener ∧ permitted = true
  | closed other => other = listener
  | idle | accepted _ _ | arrived _ _ | received _ _ | answering _ _ _ => False

/-- A header is asked of it and not counted yet. -/
def ListenerPhase.IsScreened : ListenerPhase → Prop
  | screening _ _ | judged _ _ _ | arrived _ _ => True
  | idle | accepted _ _ | cleared _ _ _ _ | finished _ _ | closed _ | received _ _
  | answering _ _ _ => False

instance (listener : Listener) : DecidablePred (ListenerPhase.Holds listener) := fun phase => by
  cases phase <;> unfold ListenerPhase.Holds <;> infer_instance

instance : DecidablePred ListenerPhase.IsScreened := fun phase => by
  cases phase <;> unfold ListenerPhase.IsScreened <;> infer_instance

namespace Listening

/-- The headers that are counted. -/
def counted (state : Listening) : Nat :=
  state.counts .accepted + state.counts .rejectedUntrusted + state.counts .rejectedSignature +
    state.counts .localCommand + state.counts .timeout

def uncounted (state : Listening) : Int :=
  state.screened - state.counted

def taken (listener : Listener) (state : Listening) : Int :=
  maxConnections - state.permits listener

theorem taken_acquire {state : Listening} {other : Listener} (listener : Listener)
    (left : 0 < state.permits other) :
    (state.acquire other).taken listener =
      state.taken listener + if other = listener then 1 else 0 := by
  by_cases same : other = listener
  · subst same
    simp only [taken, acquire, Function.update_self, if_true]
    omega
  · simp [taken, acquire, Function.update_of_ne (Ne.symm same), same]

theorem taken_release (state : Listening) (other listener : Listener) :
    (state.release other).taken listener + (if other = listener then 1 else 0) =
      state.taken listener := by
  by_cases same : other = listener
  · subst same
    simp only [taken, release, Function.update_self, if_true]
    omega
  · simp [taken, release, Function.update_of_ne (Ne.symm same), same]

theorem uncounted_count (state : Listening) (counter : ProxyCounter) :
    (state.count counter).uncounted + 1 = state.uncounted := by
  have counted : (state.count counter).counted = state.counted + 1 := by
    cases counter <;> simp [counted, count] <;> omega
  have screened : (state.count counter).screened = state.screened := rfl
  rw [uncounted, uncounted, counted, screened]
  omega

theorem uncounted_screen (state : Listening) (pp : Option PpConfig) :
    (state.screen pp).uncounted = state.uncounted + if pp.isSome then 1 else 0 := by
  simp only [uncounted, screen, counted]
  split <;> omega

end Listening

section Later

variable (gates : Gates) (listener limited : Listener) (peer : SocketAddr)

namespace ListenerPhase

theorem holds_start : (start gates listener peer).Holds limited ↔
    listener = limited ∧ limited.isLimited = true := by
  unfold start
  split <;> rfl

theorem holds_finished : (finished listener listener.isLimited).Holds limited ↔
    listener = limited ∧ limited.isLimited = true :=
  and_congr_right fun same => by rw [same]

theorem holds_ofVerdict (verdict : HeaderVerdict) :
    (ofVerdict listener peer verdict).Holds limited ↔
      listener = limited ∧ limited.isLimited = true := by
  unfold ofVerdict
  split
  · rfl
  · exact holds_finished listener limited

theorem holds_afterClose (permitted : Bool) : (afterClose listener permitted).Holds limited ↔
    listener = limited ∧ permitted = true := by
  cases permitted <;> simp [afterClose, Holds]

theorem not_holds_startDatagram (index : Nat) (datagram : Datagram) :
    ¬(startDatagram gates index datagram).Holds limited := by
  unfold startDatagram
  split <;> exact id

theorem not_holds_afterScreen (index : Nat) (datagram : Datagram) (verdict : HeaderVerdict) :
    ¬(afterScreen index datagram verdict).Holds limited := by
  unfold afterScreen
  split <;> exact id

theorem isScreened_start : (start gates listener peer).IsScreened ↔
    (gates.pp listener).isSome = true := by
  unfold start
  split
  next configured => simp [IsScreened, configured]
  next missing => simp [IsScreened, missing]

theorem isScreened_startDatagram (index : Nat) (datagram : Datagram) :
    (startDatagram gates index datagram).IsScreened ↔ gates.udpPp.isSome = true := by
  unfold startDatagram
  split
  next configured => simp [IsScreened, configured]
  next missing => simp [IsScreened, missing]

theorem not_isScreened_ofVerdict (verdict : HeaderVerdict) :
    ¬(ofVerdict listener peer verdict).IsScreened := by
  unfold ofVerdict
  split <;> exact id

theorem not_isScreened_afterClose (permitted : Bool) :
    ¬(afterClose listener permitted).IsScreened := by
  cases permitted <;> exact id

theorem not_isScreened_afterScreen (index : Nat) (datagram : Datagram) (verdict : HeaderVerdict) :
    ¬(afterScreen index datagram verdict).IsScreened := by
  unfold afterScreen
  split <;> exact id

end ListenerPhase

end Later

theorem counts_taken {gates : Gates} {listener : Listener} (limited : listener.isLimited = true) :
    (listenerRules gates).Counts (ListenerPhase.Holds listener) (Listening.taken listener) := by
  intro state phase effect answer after allowed happens
  have moves := Listening.moves_of_allowed allowed happens
  change after.taken listener + (if phase.Holds listener then 1 else 0) =
    state.taken listener + (if (phase.next gates effect answer).Holds listener then 1 else 0)
  generalize phase.next gates effect answer = later at moves ⊢
  cases moves with
  | acceptFree other peer unlimited =>
      have outside : ¬other = listener := by
        rintro rfl
        rw [limited] at unlimited
        cases unlimited
      simp only [ListenerPhase.holds_start, outside, false_and]
      rfl
  | acquire other peer left =>
      change (state.acquire other).taken listener + _ = _
      rw [Listening.taken_acquire listener left]
      simp only [ListenerPhase.holds_start, limited, and_true]
      simp [ListenerPhase.Holds]
  | release other =>
      simpa [ListenerPhase.Holds] using Listening.taken_release state other listener
  | recv datagram =>
      simp only [ListenerPhase.not_holds_startDatagram, if_false]
      rfl
  | judge other peer verdict =>
      simp only [ListenerPhase.holds_ofVerdict]
      rfl
  | turnAway other peer remote localCommand =>
      have alike := ListenerPhase.holds_finished other listener
      simp only [ListenerPhase.Holds] at alike
      simp only [ListenerPhase.holds_afterClose, alike]
      rfl
  | close other permitted =>
      simp only [ListenerPhase.holds_afterClose]
      rfl
  | distrust other peer | serve other peer =>
      simp only [ListenerPhase.holds_finished]
      rfl
  | screen index datagram verdict =>
      simp only [ListenerPhase.not_holds_afterScreen, if_false]
      rfl
  | refuse => simp [ListenerPhase.Holds]
  | accept | readHeader | acceptTls | answer | drop | send => rfl

theorem counts_uncounted {gates : Gates} :
    (listenerRules gates).Counts ListenerPhase.IsScreened Listening.uncounted := by
  intro state phase effect answer after allowed happens
  have moves := Listening.moves_of_allowed allowed happens
  change after.uncounted + (if phase.IsScreened then 1 else 0) =
    state.uncounted + (if (phase.next gates effect answer).IsScreened then 1 else 0)
  generalize phase.next gates effect answer = later at moves ⊢
  cases moves with
  | acceptFree other peer =>
      simp only [ListenerPhase.isScreened_start, Listening.uncounted_screen]
      simp [ListenerPhase.IsScreened]
  | acquire other peer =>
      have unchanged : (state.acquire other).uncounted = state.uncounted := rfl
      simp only [ListenerPhase.isScreened_start, Listening.uncounted_screen, unchanged]
      simp [ListenerPhase.IsScreened]
  | recv datagram =>
      have unchanged : (state.recv datagram).uncounted = state.uncounted := rfl
      simp only [ListenerPhase.isScreened_startDatagram, Listening.uncounted_screen, unchanged]
      simp [ListenerPhase.IsScreened]
  | judge other peer verdict =>
      simp only [ListenerPhase.not_isScreened_ofVerdict, if_false, Int.add_zero]
      exact Listening.uncounted_count state _
  | screen index datagram verdict =>
      simp only [ListenerPhase.not_isScreened_afterScreen, if_false, Int.add_zero]
      exact Listening.uncounted_count state _
  | distrust other peer =>
      simpa [ListenerPhase.IsScreened] using Listening.uncounted_count state .rejectedUntrusted
  | turnAway | close =>
      simp only [ListenerPhase.not_isScreened_afterClose, if_false]
      rfl
  | accept | refuse | readHeader | acceptTls | release | serve | answer | drop | send => rfl

/-! ## What is served and answered -/

/-- The datagram that it is about. -/
def ListenerPhase.index : ListenerPhase → Option Nat
  | arrived index _ | received index _ | answering index _ _ => some index
  | _ => none

/-- The reply to a datagram is what `resolve_query` gave for its query, and goes
back to where the datagram came from. -/
def Listening.Explains (gates : Gates) (state : Listening) (reply : UdpReply) : Prop :=
  ∃ datagram inquiry, state.datagrams[reply.index]? = some datagram ∧
    gates.Asks datagram inquiry ∧ (reply.index, inquiry, reply.octets) ∈ state.answers ∧
    reply.dst = datagram.peer ∧ reply.src = datagram.localDst

/-- What is known in a phase. -/
def ListenerPhase.Backed (gates : Gates) (state : Listening) : ListenerPhase → Prop
  | judged listener peer _ =>
    ∃ pp, gates.pp listener = some pp ∧ pp.allows peer.ip = true
  | cleared listener peer remote localCommand =>
    match gates.pp listener with
    | none => remote = peer ∧ localCommand = false
    | some pp => pp.allows peer.ip = true ∧ (localCommand = true → remote = peer)
  | arrived index datagram | received index datagram =>
    state.datagrams[index]? = some datagram
  | answering index datagram octets =>
    state.Explains gates ⟨index, octets, datagram.peer, datagram.localDst⟩
  | _ => True

/-- Only clients behind the gates are served, and a datagram that is not done
with has no reply and is in one task. -/
structure Listening.Sound (gates : Gates) (state : Listening) (phases : Nat → ListenerPhase) :
    Prop where
  backed : ∀ id, (phases id).Backed gates state
  served : ∀ served ∈ state.served,
    gates.Passes (gates.pp served.listener) served.peer served.remote served.localCommand
  replies : ∀ reply ∈ state.replies, state.Explains gates reply
  nodup : (state.replies.map (·.index)).Nodup
  left : ∀ id index, (phases id).index = some index → index ∉ state.replies.map (·.index)
  apart : ∀ id other index, (phases id).index = some index → (phases other).index = some index →
    id = other

section Keep

variable {gates : Gates} {state after : Listening} {phases : Nat → ListenerPhase} {id : Nat}
  {phase : ListenerPhase}

theorem getElem?_of_isPrefix {α : Type} {first second : List α} {index : Nat} {item : α}
    (longer : first <+: second) (isItem : first[index]? = some item) :
    second[index]? = some item := by
  obtain ⟨rest, rfl⟩ := longer
  rw [List.getElem?_append_left (List.getElem?_eq_some_iff.mp isItem).1, isItem]

theorem Listening.Explains.mono {reply : UdpReply} (explains : state.Explains gates reply)
    (datagrams : state.datagrams <+: after.datagrams) (answers : state.answers ⊆ after.answers) :
    after.Explains gates reply := by
  obtain ⟨datagram, inquiry, isDatagram, asks, mem, ends⟩ := explains
  exact ⟨datagram, inquiry, getElem?_of_isPrefix datagrams isDatagram, asks, answers mem, ends⟩

theorem ListenerPhase.Backed.mono (backed : phase.Backed gates state)
    (datagrams : state.datagrams <+: after.datagrams) (answers : state.answers ⊆ after.answers) :
    phase.Backed gates after := by
  cases phase with
  | arrived index datagram | received index datagram => exact getElem?_of_isPrefix datagrams backed
  | answering index datagram octets => exact Listening.Explains.mono backed datagrams answers
  | _ => exact backed

/-- The datagram of a phase has come in. -/
theorem ListenerPhase.Backed.index_lt {index : Nat} (backed : phase.Backed gates state)
    (isIndex : phase.index = some index) : index < state.datagrams.length := by
  cases phase with
  | arrived other datagram | received other datagram =>
      cases isIndex
      exact (List.getElem?_eq_some_iff.mp backed).1
  | answering other datagram octets =>
      cases isIndex
      obtain ⟨_, _, isDatagram, -⟩ := backed
      exact (List.getElem?_eq_some_iff.mp isDatagram).1
  | _ => cases isIndex

/-- A task goes on with no datagram or with one that no other task has. -/
theorem Listening.Sound.advance (sound : state.Sound gates phases)
    (datagrams : state.datagrams <+: after.datagrams) (answers : state.answers ⊆ after.answers)
    (served : ∀ served ∈ after.served,
      gates.Passes (gates.pp served.listener) served.peer served.remote served.localCommand)
    (replies : after.replies = state.replies) (backed : phase.Backed gates after)
    (fresh : ∀ index, phase.index = some index → index ∉ state.replies.map (·.index) ∧
      ∀ other, other ≠ id → (phases other).index ≠ some index) :
    after.Sound gates (Function.update phases id phase) where
  backed other := by
    by_cases same : other = id
    · rw [same, Function.update_self]
      exact backed
    · rw [Function.update_of_ne same]
      exact (sound.backed other).mono datagrams answers
  served := served
  replies reply mem := (sound.replies reply (replies ▸ mem)).mono datagrams answers
  nodup := replies ▸ sound.nodup
  left other index isIndex := by
    rw [replies]
    by_cases same : other = id
    · rw [same, Function.update_self] at isIndex
      exact (fresh index isIndex).1
    · rw [Function.update_of_ne same] at isIndex
      exact sound.left other index isIndex
  apart first second index isFirst isSecond := by
    by_cases sameFirst : first = id <;> by_cases sameSecond : second = id
    · rw [sameFirst, sameSecond]
    · rw [sameFirst, Function.update_self] at isFirst
      rw [Function.update_of_ne sameSecond] at isSecond
      exact absurd isSecond ((fresh index isFirst).2 second sameSecond)
    · rw [sameSecond, Function.update_self] at isSecond
      rw [Function.update_of_ne sameFirst] at isFirst
      exact absurd isFirst ((fresh index isSecond).2 first sameFirst)
    · rw [Function.update_of_ne sameFirst] at isFirst
      rw [Function.update_of_ne sameSecond] at isSecond
      exact sound.apart first second index isFirst isSecond

/-- A task goes on with its own datagram, or with none. -/
theorem Listening.Sound.fresh (sound : state.Sound gates phases)
    (same : phase.index = none ∨ phase.index = (phases id).index) (index : Nat)
    (isIndex : phase.index = some index) : index ∉ state.replies.map (·.index) ∧
      ∀ other, other ≠ id → (phases other).index ≠ some index := by
  rcases same with isNone | isSame
  · rw [isNone] at isIndex
    cases isIndex
  · rw [isSame] at isIndex
    exact ⟨sound.left id index isIndex,
      fun other different isOther => different (sound.apart other id index isOther isIndex)⟩

/-- The reply to a datagram is sent. -/
theorem Listening.Sound.send (sound : state.Sound gates phases) {reply : UdpReply}
    (isIndex : (phases id).index = some reply.index) (explains : state.Explains gates reply) :
    (state.send reply).Sound gates (Function.update phases id .idle) where
  backed other := by
    by_cases same : other = id
    · rw [same, Function.update_self]
      trivial
    · rw [Function.update_of_ne same]
      exact (sound.backed other).mono List.prefix_rfl (List.Subset.refl _)
  served := sound.served
  replies other mem := by
    rcases List.mem_append.mp mem with before | isNew
    · exact sound.replies other before
    · rw [List.mem_singleton.mp isNew]
      exact explains
  nodup := by
    rw [Listening.send, List.map_append, List.map_singleton]
    rw [← List.concat_eq_append]
    exact sound.nodup.concat (sound.left id reply.index isIndex)
  left other index isOther := by
    by_cases same : other = id
    · rw [same, Function.update_self] at isOther
      cases isOther
    · rw [Function.update_of_ne same] at isOther
      rw [Listening.send, List.map_append, List.mem_append, List.map_singleton,
        List.mem_singleton]
      rintro (before | rfl)
      · exact sound.left other index isOther before
      · exact same (sound.apart other id _ isOther isIndex)
  apart first second index isFirst isSecond := by
    by_cases sameFirst : first = id
    · rw [sameFirst, Function.update_self] at isFirst
      cases isFirst
    · by_cases sameSecond : second = id
      · rw [sameSecond, Function.update_self] at isSecond
        cases isSecond
      · rw [Function.update_of_ne sameFirst] at isFirst
        rw [Function.update_of_ne sameSecond] at isSecond
        exact sound.apart first second index isFirst isSecond

/-- A connection goes on, and nothing is served. -/
theorem Listening.Sound.proceed (sound : state.Sound gates phases)
    (served : after.served = state.served) (datagrams : after.datagrams = state.datagrams)
    (answers : after.answers = state.answers)
    (replies : after.replies = state.replies) (backed : phase.Backed gates after)
    (same : phase.index = none ∨ phase.index = (phases id).index) :
    after.Sound gates (Function.update phases id phase) :=
  sound.advance (datagrams ▸ List.prefix_rfl) (answers ▸ List.Subset.refl _)
    (served ▸ sound.served) replies backed (sound.fresh same)

theorem ListenerPhase.backed_start (listener : Listener) (peer : SocketAddr) :
    (ListenerPhase.start gates listener peer).Backed gates state := by
  unfold ListenerPhase.start
  split
  · trivial
  next missing =>
    have off : gates.pp listener = none := by simpa using missing
    simp [Backed, off]

theorem ListenerPhase.index_start (listener : Listener) (peer : SocketAddr) :
    (ListenerPhase.start gates listener peer).index = none := by
  unfold ListenerPhase.start
  split <;> rfl

theorem ListenerPhase.index_afterClose (listener : Listener) (permitted : Bool) :
    (ListenerPhase.afterClose listener permitted).index = none := by
  cases permitted <;> rfl

theorem ListenerPhase.backed_afterClose (listener : Listener) (permitted : Bool) :
    (ListenerPhase.afterClose listener permitted).Backed gates state := by
  cases permitted <;> trivial

theorem ListenerPhase.backed_ofVerdict {listener : Listener} {peer : SocketAddr}
    {verdict : HeaderVerdict} (backed : (judged listener peer verdict).Backed gates state) :
    (ofVerdict listener peer verdict).Backed gates state := by
  obtain ⟨pp, configured, trusted⟩ := backed
  cases verdict with
  | untrusted | malformed | timedOut => trivial
  | proxied source | localCommand =>
      simp [ofVerdict, HeaderVerdict.client, Backed, configured, trusted]

theorem ListenerPhase.index_ofVerdict (listener : Listener) (peer : SocketAddr)
    (verdict : HeaderVerdict) : (ofVerdict listener peer verdict).index = none := by
  cases verdict <;> rfl

/-- A new datagram has no reply, and no task has it. -/
theorem Listening.Sound.recv (sound : state.Sound gates phases) (datagram : Datagram) :
    ((state.recv datagram).screen gates.udpPp).Sound gates
      (Function.update phases id (.startDatagram gates state.datagrams.length datagram)) := by
  have isLast : (state.datagrams ++ [datagram])[state.datagrams.length]? = some datagram :=
    List.getElem?_concat_length
  have isIndex : (ListenerPhase.startDatagram gates state.datagrams.length datagram).index =
      some state.datagrams.length := by
    unfold ListenerPhase.startDatagram
    split <;> rfl
  refine sound.advance (List.prefix_append _ _) (List.Subset.refl _) sound.served rfl ?_ ?_
  · unfold ListenerPhase.startDatagram
    split <;> exact isLast
  · intro index isNew
    obtain rfl : state.datagrams.length = index := Option.some.inj (isIndex.symm.trans isNew)
    constructor
    · intro replied
      obtain ⟨reply, mem, isReply⟩ := List.mem_map.mp replied
      obtain ⟨_, _, isDatagram, -⟩ := sound.replies reply mem
      have inside := (List.getElem?_eq_some_iff.mp isDatagram).1
      omega
    · intro other _ isOther
      exact Nat.lt_irrefl _ ((sound.backed other).index_lt isOther)

theorem keeps_listening : (listenerRules gates).Keeps (Listening.Sound gates) := by
  intro state phases id effect answer after sound allowed happens
  have moves := Listening.moves_of_allowed allowed happens
  change after.Sound gates (Function.update phases id ((phases id).next gates effect answer))
  generalize (phases id).next gates effect answer = later at moves ⊢
  have backed := sound.backed id
  generalize isPhase : phases id = before at moves backed
  cases moves with
  | acceptFree listener peer | acquire listener peer =>
      exact sound.proceed rfl rfl rfl rfl (ListenerPhase.backed_start listener peer)
        (.inl (ListenerPhase.index_start listener peer))
  | accept | refuse | distrust | release =>
      exact sound.proceed rfl rfl rfl rfl trivial (.inl rfl)
  | readHeader listener peer header pp configured trusted =>
      exact sound.proceed rfl rfl rfl rfl ⟨pp, configured, trusted⟩ (.inl rfl)
  | judge listener peer verdict =>
      exact sound.proceed rfl rfl rfl rfl (ListenerPhase.backed_ofVerdict backed)
        (.inl (ListenerPhase.index_ofVerdict listener peer verdict))
  | acceptTls => exact sound.proceed rfl rfl rfl rfl backed (.inl rfl)
  | serve listener peer remote localCommand admitted =>
      refine sound.advance List.prefix_rfl (List.Subset.refl _) ?_ rfl trivial
        (sound.fresh (.inl rfl))
      intro served mem
      rcases List.mem_append.mp mem with inside | isNew
      · exact sound.served served inside
      · rw [List.mem_singleton.mp isNew]
        exact ⟨admitted, backed⟩
  | turnAway listener | close listener =>
      exact sound.proceed rfl rfl rfl rfl (ListenerPhase.backed_afterClose listener _)
        (.inl (ListenerPhase.index_afterClose listener _))
  | recv datagram => exact sound.recv datagram
  | screen index datagram verdict =>
      unfold ListenerPhase.afterScreen
      split
      · exact sound.proceed rfl rfl rfl rfl backed (.inr (by rw [isPhase]; rfl))
      · exact sound.proceed rfl rfl rfl rfl trivial (.inl rfl)
  | answer index datagram inquiry octets asks =>
      refine sound.advance List.prefix_rfl (List.subset_append_left _ _) sound.served rfl ?_
        (sound.fresh (.inr (by rw [isPhase]; rfl)))
      exact ⟨datagram, inquiry, backed, asks,
        List.mem_append_right _ (List.mem_singleton_self _), rfl, rfl⟩
  | drop => exact sound.proceed rfl rfl rfl rfl trivial (.inl rfl)
  | send index datagram octets =>
      exact sound.send (by rw [isPhase]; rfl) backed

end Keep

theorem sound_listening (gates : Gates) : Listening.init.Sound gates fun _ => .idle where
  backed _ := trivial
  served := by rintro _ ⟨⟩
  replies := by rintro _ ⟨⟩
  nodup := List.nodup_nil
  left := by rintro _ _ ⟨⟩
  apart := by rintro _ _ _ ⟨⟩

/-- In every interleaving of connections and datagrams, the permits of a
listener and the connections that have one make 512, and each connection or
datagram that a PROXY header is asked of is counted once.  Only clients behind
both gates are served.  A datagram has at most one reply, which has what
`resolve_query` gave for its query, and goes back to its sender from the address
it was sent to. -/
theorem listeners_of_run {gates : Gates}
    {crew : Crew ListenerEffect ListenerEffect.Answer Listening ListenerPhase}
    (run : Relation.ReflTransGen ((listenerRules gates).Step (ListenerTask.IsStarted gates))
      ((listenerRules gates).init .init) crew) :
    (∀ listener, listener.isLimited = true →
      crew.shared.permits listener + tasksIn (ListenerPhase.Holds listener) crew.phases =
        maxConnections) ∧
      crew.shared.screened =
        crew.shared.counted + tasksIn ListenerPhase.IsScreened crew.phases ∧
      (∀ served ∈ crew.shared.served,
        gates.Passes (gates.pp served.listener) served.peer served.remote served.localCommand) ∧
      (∀ reply ∈ crew.shared.replies, crew.shared.Explains gates reply) ∧
      (crew.shared.replies.map (·.index)).Nodup := by
  have runs : ∀ task, ListenerTask.IsStarted gates task → (listenerRules gates).Runs task :=
    fun _ => ListenerTask.runs_of_isStarted
  have uncounted := TaskRules.Counts.level_of_run counts_uncounted runs id rfl run
  have sound := TaskRules.holds_of_run keeps_listening runs (sound_listening gates) run
  refine ⟨fun listener limited => ?_, ?_, sound.served, sound.replies, sound.nodup⟩
  · have taken := TaskRules.Counts.level_of_run (counts_taken limited) runs id rfl run
    rw [Listening.taken] at taken
    omega
  · rw [Listening.uncounted] at uncounted
    omega

/-- No lists and no PROXY headers. -/
def openGates : Gates where
  allowFrom := ⟨⟨[], []⟩⟩
  pp _ := none
  udpPp := none
  parseHeader _ := none

theorem happens_acquire {gates : Gates} {state : Listening} {listener : Listener}
    (left : 0 < state.permits listener) :
    (listenerRules gates).happens state (.tryAcquire listener) true
      ((state.acquire listener).screen (gates.pp listener)) :=
  ⟨left, rfl⟩

/-- A connection has a permit while another one is taken up. -/
theorem listeners_of_run_twoConnections :
    ∃ crew : Crew ListenerEffect ListenerEffect.Answer Listening ListenerPhase,
      Relation.ReflTransGen ((listenerRules openGates).Step (ListenerTask.IsStarted openGates))
        ((listenerRules openGates).init .init) crew ∧
        crew.shared.permits .tcp = 511 ∧ tasksIn (ListenerPhase.Holds .tcp) crew.phases = 1 := by
  have arrives : (listenerRules openGates).Step (ListenerTask.IsStarted openGates)
      ((listenerRules openGates).init .init) _ :=
    .start 0 rfl (.tcp (.v4 #v[10, 0, 0, 7] 40000))
  have accepted := (Relation.ReflTransGen.single arrives).tail
    (@TaskRules.Step.run _ _ _ _ _ _ _ 0 _ _ () _ rfl rfl)
  have acquired := accepted.tail
    (@TaskRules.Step.run _ _ _ _ _ _ _ 0 _ _ true _ rfl
      (happens_acquire (Nat.succ_pos 511)))
  have run := acquired.tail (.start 1 rfl (.dot (.v4 #v[10, 0, 0, 8] 40000)))
  have held := (listeners_of_run run).1 .tcp rfl
  exact ⟨_, run, rfl, Nat.add_left_cancel (n := 511) held⟩

end Numa
