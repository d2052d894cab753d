import Numa.Blocklist
import Numa.Svcb

/-!
# Client policies

`ClientPolicySet` of `client_policy.rs` over the address ranges of `acl.rs`.  A
rule has a blocklist of its own and holds for the clients in its ranges.
-/

namespace Numa

def ipv6Localhost : Ipv6Addr :=
  #v[0, 0, 0, 0, 0, 0, 0, 0, 0, 0, 0, 0, 0, 0, 0, 1]

namespace IpAddr

def octets : IpAddr → List UInt8
  | v4 addr => addr.toList
  | v6 addr => addr.toList

/-- The first octets of a mapped address. -/
def mappedPrefix : List UInt8 :=
  [0, 0, 0, 0, 0, 0, 0, 0, 0, 0, 0xFF, 0xFF]

/-- `IpAddr::to_canonical`. -/
def toCanonical : IpAddr → IpAddr
  | v4 addr => .v4 addr
  | v6 addr =>
    if addr.toList.take 12 = mappedPrefix then .v4 #v[addr[12], addr[13], addr[14], addr[15]]
    else .v6 addr

def isLoopback : IpAddr → Bool
  | v4 addr => addr[0] == 127
  | v6 addr => addr == ipv6Localhost

end IpAddr

/-- `Ipv4Addr::to_ipv6_mapped`. -/
def toIpv6Mapped (addr : Ipv4Addr) : Ipv6Addr :=
  #v[0, 0, 0, 0, 0, 0, 0, 0, 0, 0, 0xFF, 0xFF, addr[0], addr[1], addr[2], addr[3]]

/-- `ipnet::IpNet`. -/
structure IpNet where
  addr : IpAddr
  prefixLen : Nat
  deriving DecidableEq

/-- The bits of an octet, the highest first. -/
def octetBits (octet : UInt8) : List Bool :=
  (List.range 8).map fun i => octet.toNat.testBit (7 - i)

/-- `IpNet::contains`. -/
def IpNet.contains (net : IpNet) (ip : IpAddr) : Bool :=
  net.addr.octets.length == ip.octets.length &&
    (net.addr.octets.flatMap octetBits).take net.prefixLen ==
      (ip.octets.flatMap octetBits).take net.prefixLen

/-- `CidrMatcher`, by its fields `include` and `exclude`. -/
structure CidrMatcher where
  included : List IpNet := []
  excluded : List IpNet := []

/-- `matches`. -/
def CidrMatcher.matchesIp (matcher : CidrMatcher) (ip : IpAddr) : Bool :=
  let ip := ip.toCanonical
  if matcher.excluded.any (·.contains ip) then false else matcher.included.any (·.contains ip)

structure ClientPolicy where
  nets : CidrMatcher
  store : BlocklistStore
  filterAaaa : Option Bool

structure ClientPolicySet where
  rules : List ClientPolicy := []

inductive Decision
  | block
  | allow
  | passthrough
  deriving DecidableEq

namespace ClientPolicySet

def isEnabled (policies : ClientPolicySet) : Bool :=
  !policies.rules.isEmpty

/-- The rules that hold for a client, in their order. -/
def matchingRules (policies : ClientPolicySet) (peer : IpAddr) : List ClientPolicy :=
  let peer := peer.toCanonical
  let bypass := peer.isLoopback
  policies.rules.filter fun rule => !bypass && rule.nets.matchesIp peer

/-- The first explicit word on a name. -/
def evaluate (toLowercase : Text → Text) (policies : ClientPolicySet) (now : Nat) (peer : IpAddr)
    (qname : Text) : Decision :=
  ((policies.matchingRules peer).findSome? fun rule =>
    let result := rule.store.check toLowercase now qname
    if result.blocked then some .block
    else if result.matchedRule.isSome then some .allow
    else none).getD .passthrough

def effectiveFilterAaaa (policies : ClientPolicySet) (peer : IpAddr) (isGlobal : Bool) : Bool :=
  ((policies.matchingRules peer).findSome? ClientPolicy.filterAaaa).getD isGlobal

end ClientPolicySet

end Numa
