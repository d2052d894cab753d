import Numa.LanDiscovery
import Numa.LocalData
import Numa.SharedTasks
import Numa.SoftState

/-!
# Peers on the network

`PeerStore` and the loops of `start_lan_discovery` of `lan.rs`, and
`network_watch_loop` of `serve.rs`, on all hosts of a network.  The hosts
announce their services in datagrams that anyone may send and that may be lost,
repeated and reordered.  Every task is a sequence of effects on the host that it
runs on.
-/

namespace Numa

/-! ## The store -/

namespace PeerStore

/-- `update`, which says whether a name is new. -/
def update (toLowercase : Text → Text) (store : PeerStore) (now : Nat) (host : IpAddr)
    (services : List (String × UInt16)) : Bool × PeerStore :=
  services.foldl
    (fun (changed, store) (name, port) =>
      let key := toLowercase (text name)
      (changed || !decide (key ∈ store.peers),
        { store with peers := store.peers.insert key (host, port, now) }))
    (false, store)

/-- What `list` and `names` do first. -/
def retainFresh (store : PeerStore) (now : Nat) : PeerStore :=
  { store with
    peers := Table.retain (fun (_, _, seen) => decide (now - seen < store.timeout)) store.peers }

/-- `list`, with the seconds since each peer was heard of. -/
def list (store : PeerStore) (now : Nat) : List (Text × IpAddr × UInt16 × Nat) × PeerStore :=
  let store := store.retainFresh now
  (store.peers.entries.map fun ⟨name, ip, port, seen⟩ =>
    (name, ip, port, (now - seen) / fromSecs 1), store)

def names (store : PeerStore) (now : Nat) : List Text × PeerStore :=
  let store := store.retainFresh now
  (store.peers.keys, store)

def clear (store : PeerStore) : PeerStore :=
  { store with peers := ∅ }

end PeerStore

/-! ## Hosts -/

/-- What does not change on a host.  The instance ID and the health metadata are short, so each
fits into one string of a TXT record. -/
structure LanHost where
  hostname : String
  instId : String
  health : HealthMeta
  peerTimeout : Nat
  upstreamAuto : Bool
  shortId : (text (txtId ++ instId)).length ≤ 255
  shortMeta : ∀ val ∈ metaStrings health, (text val).length ≤ 255

/-- The hosts of a network, each with an instance ID of its own. -/
structure Lan (ι : Type) where
  hosts : ι → LanHost
  distinct : ∀ first second, (hosts first).instId = (hosts second).instId → first = second
  /-- `str::to_lowercase`. -/
  toLowercase : Text → Text

inductive LanEffect (ι : Type)
  /-- The names and target ports of `services.list()`. -/
  | listServices (host : ι)
  | changeServices (host : ι) (services : List (String × UInt16))
  | readLanIp (host : ι)
  | sendTo (host : ι) (octets : List UInt8)
  | recvFrom (host : ι)
  /-- `lan_peers.update`. -/
  | updatePeers (host : ι) (peerIp : IpAddr) (services : List (String × UInt16))
  | regenerateTls (host : ι)
  | detectLanIp (host : ι)
  /-- The address is compared with the new one, and replaced. -/
  | replaceLanIp (host : ι) (newIp : Ipv4Addr)
  | resetUdpState (host : ι)
  /-- `maybe_update_primary` with what is found out about the system. -/
  | updatePrimary (host : ι)
  /-- `lan_peers.clear`. -/
  | clearPeers (host : ι)
  | probeUdp (host : ι)
  /-- `lan_peers.lookup`. -/
  | lookupPeer (host : ι) (name : Text)
  /-- `lan_peers.list`. -/
  | listPeers (host : ι)
  /-- `lan_peers.names`. -/
  | peerNames (host : ι)
  /-- Anything else is sent to the group. -/
  | transmit (octets : List UInt8)

@[reducible]
def LanEffect.Answer {ι : Type} : LanEffect ι → Type
  | listServices _ => List (String × UInt16)
  | readLanIp _ => Ipv4Addr
  | recvFrom _ => Option (List UInt8)
  | detectLanIp _ => Option Ipv4Addr
  | updatePeers _ _ _ | replaceLanIp _ _ | updatePrimary _ => Bool
  | lookupPeer _ _ => Option (IpAddr × UInt16)
  | listPeers _ => List (Text × IpAddr × UInt16 × Nat)
  | peerNames _ => List Text
  | changeServices _ _ | sendTo _ _ | regenerateTls _ | resetUdpState _ | clearPeers _
  | probeUdp _ | transmit _ => Unit

abbrev LanTask (ι α : Type) := Interaction (LanEffect ι) LanEffect.Answer α

open Interaction (ask done)

section Programs

variable {ι : Type} (lan : Lan ι) (host : ι)

/-- What the sender builds. -/
@[irreducible]
def Lan.announcement (services : List (String × UInt16)) (ip : Ipv4Addr) :
    Except BufferError (List UInt8) :=
  buildAnnouncement (lan.hosts host).hostname ip services (lan.hosts host).instId
    (lan.hosts host).health

namespace LanTask

/-- A loop, as far as it gets. -/
def loop (body : Nat → LanTask ι Unit) : (left tick : Nat) → LanTask ι Unit
  | 0, _ => done ()
  | left + 1, tick => body (tick + 1) >>= fun _ => loop body left (tick + 1)

/-- What the sender does at a tick. -/
def announce : LanTask ι Unit :=
  ask (.listServices host) fun services =>
    ask (.readLanIp host) fun currentIp =>
      match lan.announcement host services currentIp with
      | .ok pkt => ask (.sendTo host pkt) fun _ => done ()
      | .error _ => done ()

/-- What the receiver does with a datagram. -/
def takeIn (data : List UInt8) : LanTask ι Unit :=
  match parseMdnsResponse data with
  | none => done ()
  | some ann =>
    if ann.instanceId = some (lan.hosts host).instId then done ()
    else if ann.services.isEmpty then done ()
    else
      ask (.updatePeers host ann.peerIp ann.services) fun changed =>
        if changed then ask (.regenerateTls host) fun _ => done () else done ()

/-- What the receiver does with the next datagram. -/
def receive : LanTask ι Unit :=
  ask (.recvFrom host) fun
    | none => done ()
    | some data => takeIn lan host data

def probeAtTick (tick : Nat) : LanTask ι Unit :=
  if tick % 60 = 0 then ask (.probeUdp host) fun _ => done () else done ()

def flushIfChanged (tick : Nat) (changed : Bool) : LanTask ι Unit :=
  if changed then ask (.clearPeers host) fun _ => probeAtTick host tick
  else probeAtTick host tick

def detectUpstream (tick : Nat) (changed : Bool) : LanTask ι Unit :=
  if (lan.hosts host).upstreamAuto && (changed || tick % 6 == 0) then
    ask (.updatePrimary host) fun updated => flushIfChanged host tick (changed || updated)
  else flushIfChanged host tick changed

/-- A tick of `network_watch_loop`. -/
def watch (tick : Nat) : LanTask ι Unit :=
  ask (.detectLanIp host) fun
    | none => detectUpstream lan host tick false
    | some newIp =>
      ask (.replaceLanIp host newIp) fun differs =>
        if differs then ask (.resetUdpState host) fun _ => detectUpstream lan host tick true
        else detectUpstream lan host tick false

end LanTask

/-- What runs on the hosts of a network, and what others send. -/
inductive LanTask.IsTask : LanTask ι Unit → Prop
  | sender (host : ι) (left : Nat) : IsTask (loop (fun _ => announce lan host) left 0)
  | receiver (host : ι) (left : Nat) : IsTask (loop (fun _ => receive lan host) left 0)
  | watcher (host : ι) (left : Nat) : IsTask (loop (watch lan host) left 0)
  | lookup (host : ι) (name : Text) : IsTask (ask (.lookupPeer host name) fun _ => done ())
  | list (host : ι) : IsTask (ask (.listPeers host) fun _ => done ())
  | names (host : ι) : IsTask (ask (.peerNames host) fun _ => done ())
  | change (host : ι) (services : List (String × UInt16)) :
      IsTask (ask (.changeServices host services) fun _ => done ())
  | other (octets : List UInt8) : IsTask (ask (.transmit octets) fun _ => done ())

end Programs

/-! ## The network -/

/-- An effect at its time. -/
structure LanEvent (ι : Type) where
  time : Nat
  effect : LanEffect ι
  answer : effect.Answer

/-- The state of the hosts and the datagrams sent, with what has happened, the
last first. -/
structure LanState (ι : Type) where
  now : Nat
  services : ι → List (String × UInt16)
  lanIp : ι → Ipv4Addr
  peers : ι → PeerStore
  air : List (List UInt8)
  log : List (LanEvent ι)

namespace LanState

variable {ι : Type} [DecidableEq ι] (lan : Lan ι) (state : LanState ι)

/-- Nobody has heard of anyone. -/
def init (lan : Lan ι) (now : Nat) (services : ι → List (String × UInt16)) (lanIp : ι → Ipv4Addr) :
    LanState ι where
  now := now
  services := services
  lanIp := lanIp
  peers host := ⟨∅, (lan.hosts host).peerTimeout⟩
  air := []
  log := []

/-- The answers that an effect may have at a time.  A datagram is cut to the buffer of
the receiver. -/
def Gives (now : Nat) : (effect : LanEffect ι) → effect.Answer → Prop
  | .listServices host, answer => answer = state.services host
  | .readLanIp host, answer => answer = state.lanIp host
  | .recvFrom _, answer => ∀ data ∈ answer, ∃ datagram ∈ state.air, data = datagram.take 4096
  | .updatePeers host peerIp services, answer =>
    answer = ((state.peers host).update lan.toLowercase now peerIp services).1
  | .replaceLanIp host newIp, answer => answer = decide (newIp ≠ state.lanIp host)
  | .lookupPeer host name, answer =>
    answer = ((state.peers host).lookup lan.toLowercase now name).1
  | .listPeers host, answer => answer = ((state.peers host).list now).1
  | .peerNames host, answer => answer = ((state.peers host).names now).1
  | .changeServices _ _, _ | .sendTo _ _, _ | .regenerateTls _, _ | .detectLanIp _, _
  | .resetUdpState _, _ | .updatePrimary _, _ | .clearPeers _, _ | .probeUdp _, _
  | .transmit _, _ => True

/-- The peers of a host change. -/
def withPeers (host : ι) (store : PeerStore) : LanState ι :=
  { state with peers := Function.update state.peers host store }

theorem peers_withPeers (peer host : ι) (store : PeerStore) :
    (state.withPeers peer store).peers host = if host = peer then store else state.peers host :=
  Function.update_apply ..

def apply (now : Nat) : LanEffect ι → LanState ι
  | .changeServices host services =>
    { state with services := Function.update state.services host services }
  | .sendTo _ octets | .transmit octets => { state with air := octets :: state.air }
  | .updatePeers host peerIp services =>
    state.withPeers host ((state.peers host).update lan.toLowercase now peerIp services).2
  | .replaceLanIp host newIp => { state with lanIp := Function.update state.lanIp host newIp }
  | .clearPeers host => state.withPeers host (state.peers host).clear
  | .lookupPeer host name =>
    state.withPeers host ((state.peers host).lookup lan.toLowercase now name).2
  | .listPeers host => state.withPeers host ((state.peers host).list now).2
  | .peerNames host => state.withPeers host ((state.peers host).names now).2
  | .listServices _ | .readLanIp _ | .recvFrom _ | .regenerateTls _ | .detectLanIp _
  | .resetUdpState _ | .updatePrimary _ | .probeUdp _ => state

/-- An effect happens, later than what has happened so far. -/
def Happens (effect : LanEffect ι) (answer : effect.Answer) (after : LanState ι) : Prop :=
  ∃ now, state.now ≤ now ∧ state.Gives lan now effect answer ∧
    after =
      { state.apply lan now effect with now := now, log := ⟨now, effect, answer⟩ :: state.log }

end LanState

end Numa
