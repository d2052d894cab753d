import Numa.MappedPeers
import Numa.SharedTasks
import Numa.SrttCache
import Numa.UdpPayload

/-!
# Listeners

The loops of `tcp.rs`, `dot.rs`, `proxy.rs` and `serve.rs` that take connections
and datagrams, `handshake` of `pp2.rs`, `parse_if_trusted` of `pp2_udp.rs` and
`handle_query` of `ctx.rs`.  A client stands behind two gates: the senders of
PROXY headers that a listener trusts, and `allow_from`.  What is done on a
connection and `resolve_query` are effects, and so is the end of a connection;
the parser of PROXY headers is a parameter.
-/

namespace Numa

open BytePacketBuffer

/-- The listeners of connections: `accept_loop` of `tcp.rs` and of `dot.rs`, and
`accept_loop_tls`. -/
inductive Listener
  | tcp
  | dot
  | https
  deriving DecidableEq

/-- Does it have a semaphore? -/
def Listener.isLimited : Listener → Bool
  | tcp | dot => true
  | https => false

/-- `MAX_CONNECTIONS`. -/
def maxConnections : Nat := 512

/-- The gates of the listeners.  A listener whose PROXY configuration is not
valid is not started, but the one of datagrams is started without it. -/
structure Gates where
  allowFrom : AllowFromAcl
  pp : Listener → Option PpConfig
  udpPp : Option PpConfig
  /-- `ProxyHeader::parse`: the address of the client, if there is one, and the
  length of the header. -/
  parseHeader : List UInt8 → Option (Option SocketAddr × Nat)

/-- The counters `proxy_v2_*` of `ServerStats`. -/
inductive ProxyCounter
  | accepted
  | rejectedUntrusted
  | rejectedSignature
  | localCommand
  | timeout
  deriving DecidableEq

/-- What is found of a PROXY header. -/
inductive HeaderVerdict
  | untrusted
  | malformed
  | timedOut
  | proxied (source : SocketAddr)
  /-- A probe of the sender, or a header without an address. -/
  | localCommand

namespace HeaderVerdict

/-- The counter that counts it. -/
def counter : HeaderVerdict → ProxyCounter
  | untrusted => .rejectedUntrusted
  | malformed => .rejectedSignature
  | timedOut => .timeout
  | proxied _ => .accepted
  | localCommand => .localCommand

/-- The client, and whether the sender comes for itself. -/
def client (peer : SocketAddr) : HeaderVerdict → Option (SocketAddr × Bool)
  | proxied source => some (source, false)
  | localCommand => some (peer, true)
  | untrusted | malformed | timedOut => none

end HeaderVerdict

/-- What `ProxiedStream::create_from_tokio` gives in time. -/
inductive HeaderRead
  | timedOut
  | malformed
  | header (proxiedAddress : Option SocketAddr)

def HeaderRead.verdict : HeaderRead → HeaderVerdict
  | timedOut => .timedOut
  | malformed => .malformed
  | header (some source) => .proxied source
  | header none => .localCommand

/-- A datagram as `recv_from` puts it into the buffer, with the address that it
was sent to. -/
structure Datagram where
  octets : List UInt8
  peer : SocketAddr
  localDst : Option IpAddr
  fits : octets.length ≤ bufSize

/-- What `resolve_query` is called with. -/
structure Inquiry where
  query : DnsPacket
  message : List UInt8
  src : SocketAddr

inductive ListenerEffect
  | accept (listener : Listener) (peer : SocketAddr)
  | tryAcquire (listener : Listener)
  | release (listener : Listener)
  | readHeader
  /-- A counter is counted up. -/
  | count (verdict : HeaderVerdict)
  | acceptTls
  /-- The connection is served, until it ends or a panic ends it. -/
  | serve (listener : Listener) (peer remote : SocketAddr) (localCommand : Bool)
  | close
  /-- The answer numbers the datagram.  The number goes along with what is done
  for it. -/
  | recv (datagram : Datagram)
  /-- `none` is a panic. -/
  | resolve (index : Nat) (inquiry : Inquiry)
  | send (index : Nat) (octets : List UInt8) (dst : SocketAddr) (src : Option IpAddr)
  /-- The datagram is dropped with a line in the log. -/
  | drop

@[reducible]
def ListenerEffect.Answer : ListenerEffect → Type
  | tryAcquire _ | acceptTls => Bool
  | readHeader => HeaderRead
  | recv _ => Nat
  | resolve _ _ => Option (Except Unit BytePacketBuffer)
  | accept _ _ | release _ | count _ | serve _ _ _ _ | close | send _ _ _ _ | drop => Unit

abbrev ListenerTask (α : Type) := Interaction ListenerEffect ListenerEffect.Answer α

open Interaction (ask done)

namespace ListenerTask

/-! ## Connections -/

def handshake (pp : Option PpConfig) (peer : SocketAddr) :
    ListenerTask (Option (SocketAddr × Bool)) :=
  match pp with
  | none => done (some (peer, false))
  | some pp =>
    if !pp.allows peer.ip then ask (.count .untrusted) fun _ => done none
    else
      ask .readHeader fun header =>
        ask (.count header.verdict) fun _ => done (header.verdict.client peer)

section

variable (gates : Gates)

/-- A connection until it is closed.  TLS is accepted behind the gates. -/
def handleConnection (listener : Listener) (peer : SocketAddr) : ListenerTask Unit :=
  handshake (gates.pp listener) peer >>= fun
    | none => ask .close fun _ => done ()
    | some (remote, localCommand) =>
      if !gates.allowFrom.admits remote.ip localCommand then ask .close fun _ => done ()
      else if listener = .tcp then
        ask (.serve listener peer remote localCommand) fun _ => ask .close fun _ => done ()
      else
        ask .acceptTls fun accepted =>
          if accepted then
            ask (.serve listener peer remote localCommand) fun _ => ask .close fun _ => done ()
          else ask .close fun _ => done ()

/-- A connection with a permit, which is dropped after it. -/
def acceptWithPermit (listener : Listener) (peer : SocketAddr) : ListenerTask Unit :=
  ask (.accept listener peer) fun _ =>
    ask (.tryAcquire listener) fun acquired =>
      if acquired then
        handleConnection gates listener peer >>= fun _ => ask (.release listener) fun _ => done ()
      else ask .close fun _ => done ()

/-- A connection of `accept_loop` in `tcp.rs`. -/
def acceptTcp (peer : SocketAddr) : ListenerTask Unit :=
  acceptWithPermit gates .tcp peer

/-- A connection of `accept_loop` in `dot.rs`. -/
def acceptDot (peer : SocketAddr) : ListenerTask Unit :=
  acceptWithPermit gates .dot peer

/-- A connection of `accept_loop_tls`, which has no semaphore. -/
def acceptHttps (peer : SocketAddr) : ListenerTask Unit :=
  ask (.accept .https peer) fun _ => handleConnection gates .https peer

/-! ## Datagrams -/

def parseIfTrusted (bytes : List UInt8) (peer : SocketAddr) : ListenerTask (UdpPp SocketAddr) :=
  match gates.udpPp with
  | none => done .bare
  | some pp =>
    if !pp.allows peer.ip then ask (.count .untrusted) fun _ => done .drop
    else
      match gates.parseHeader bytes with
      | none => ask (.count .malformed) fun _ => done .drop
      | some (some source, hdrLen) =>
        ask (.count (.proxied source)) fun _ => done (.proxied source hdrLen false)
      | some (none, hdrLen) =>
        ask (.count .localCommand) fun _ => done (.proxied peer hdrLen true)

def handleQuery (index : Nat) (buffer : BytePacketBuffer) (rawLen : Nat)
    (srcAddr respondTo : SocketAddr) (localDst : Option IpAddr) : ListenerTask Unit :=
  match exec DnsPacket.fromBuffer buffer with
  | (.error _, _) => ask .drop fun _ => done ()
  | (.ok query, buffer) =>
    ask (.resolve index ⟨query, buffer.buf.take rawLen, srcAddr⟩) fun
      | some (.ok respBuffer) =>
        ask (.send index respBuffer.filled respondTo localDst) fun _ => done ()
      | _ => done ()

end

end ListenerTask

theorem length_apply {Addr : Type} (pp : UdpPp Addr) {buf : List UInt8} {len : Nat}
    (fits : len ≤ buf.length) (peer : Addr) : (pp.apply buf len peer).2.length = buf.length := by
  cases pp with
  | bare | drop => rfl
  | proxied src hdrLen localCommand =>
      simp only [UdpPp.apply, copyWithin, List.length_append, List.length_drop, List.length_take]
      omega

/-- The buffer of a datagram once the header is out of the way. -/
def Datagram.buffer (datagram : Datagram) (pp : UdpPp SocketAddr) : BytePacketBuffer where
  buf := (pp.apply (fromBytes datagram.octets).buf datagram.octets.length datagram.peer).2
  pos := 0
  overflow := false
  size_eq := by
    have size := (fromBytes datagram.octets).size_eq
    rw [length_apply _ (by rw [size]; exact datagram.fits), size]

namespace ListenerTask

variable (gates : Gates)

/-- A turn of `udp_serve_loop` with the task that it spawns. -/
def serveDatagram (datagram : Datagram) : ListenerTask Unit :=
  ask (.recv datagram) fun index =>
    parseIfTrusted gates datagram.octets datagram.peer >>= fun pp =>
      match (pp.apply (fromBytes datagram.octets).buf datagram.octets.length datagram.peer).1 with
      | none => done ()
      | some (srcAddr, dnsLen, localCommand) =>
        if !gates.allowFrom.admits srcAddr.ip localCommand then ask .drop fun _ => done ()
        else
          handleQuery index (datagram.buffer pp) dnsLen srcAddr datagram.peer datagram.localDst

/-- What the listeners start. -/
inductive IsStarted : ListenerTask Unit → Prop
  | tcp (peer : SocketAddr) : IsStarted (acceptTcp gates peer)
  | dot (peer : SocketAddr) : IsStarted (acceptDot gates peer)
  | https (peer : SocketAddr) : IsStarted (acceptHttps gates peer)
  | datagram (datagram : Datagram) : IsStarted (serveDatagram gates datagram)

end ListenerTask

end Numa
