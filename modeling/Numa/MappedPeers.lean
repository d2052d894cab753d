import Numa.PrivateAnswers

/-!
# Mapped peers

A dual-stack socket delivers an IPv4 peer as `::ffff:a.b.c.d`.  `AllowFromAcl` of
`acl.rs`, `ClientPolicySet` and the ranges of `RebindFilter` test addresses in
their canonical form, and `PpConfig` of `pp2.rs` tests them as they are.
-/

namespace Numa

/-- `is_empty`. -/
def CidrMatcher.isEmpty (matcher : CidrMatcher) : Bool :=
  matcher.included.isEmpty

structure AllowFromAcl where
  matcher : CidrMatcher

namespace AllowFromAcl

def allows (acl : AllowFromAcl) (peer : IpAddr) : Bool :=
  let peer := peer.toCanonical
  if acl.matcher.isEmpty || peer.isLoopback then true else acl.matcher.matchesIp peer

def admits (acl : AllowFromAcl) (peer : IpAddr) (localCommand : Bool) : Bool :=
  localCommand || acl.allows peer

end AllowFromAcl

/-- `PpConfig`, by its field `from`. -/
structure PpConfig where
  ranges : List IpNet

def PpConfig.allows (config : PpConfig) (peer : IpAddr) : Bool :=
  config.ranges.any (·.contains peer)

/-! ## Mapped addresses -/

/-- The bits of the octets in front of a mapped address. -/
def mappedBits : List Bool :=
  IpAddr.mappedPrefix.flatMap octetBits

theorem octets_mapped (addr : Ipv4Addr) :
    IpAddr.octets (.v6 (toIpv6Mapped addr)) = IpAddr.mappedPrefix ++ IpAddr.octets (.v4 addr) := by
  obtain ⟨⟨octets⟩, size⟩ := addr
  match octets, size with
  | [first, second, third, fourth], _ => rfl

/-- A mapped address is the IPv4 address that it holds. -/
theorem toCanonical_mapped (addr : Ipv4Addr) :
    IpAddr.toCanonical (.v6 (toIpv6Mapped addr)) = IpAddr.toCanonical (.v4 addr) := by
  obtain ⟨⟨octets⟩, size⟩ := addr
  match octets, size with
  | [first, second, third, fourth], _ => rfl

/-- The IPv4 address in the last octets of an IPv6 address. -/
def lastIpv4 (addr : Ipv6Addr) : Ipv4Addr :=
  #v[addr.toList.getD 12 0, addr.toList.getD 13 0, addr.toList.getD 14 0, addr.toList.getD 15 0]

/-- The IPv4 addresses whose mapped forms are in an IPv6 range. -/
def IpNet.ipv4Part (net : IpNet) : Option IpNet :=
  match net.addr with
  | .v4 _ => none
  | .v6 addr =>
    if ((addr.toList.take 12).flatMap octetBits).take net.prefixLen =
        mappedBits.take net.prefixLen then
      some ⟨.v4 (lastIpv4 addr), net.prefixLen - 96⟩
    else none

theorem octetBits_length (octet : UInt8) : (octetBits octet).length = 8 := by
  simp [octetBits]

theorem length_flatMap_octetBits (octets : List UInt8) :
    (octets.flatMap octetBits).length = 8 * octets.length := by
  induction octets with
  | nil => rfl
  | cons octet octets ih =>
      rw [List.flatMap_cons, List.length_append, octetBits_length, ih, List.length_cons]
      omega

theorem toList_last (addr : Ipv6Addr) :
    addr.toList = addr.toList.take 12 ++ IpAddr.octets (.v4 (lastIpv4 addr)) := by
  obtain ⟨⟨octets⟩, size⟩ := addr
  match octets, size with
  | [_, _, _, _, _, _, _, _, _, _, _, _, _, _, _, _], _ => rfl

/-- An IPv6 range has a mapped address iff its IPv4 part has the address. -/
theorem IpNet.contains_mapped_iff {net : IpNet} {addr : Ipv4Addr} :
    net.contains (.v6 (toIpv6Mapped addr)) = true ↔
      ∃ part, net.ipv4Part = some part ∧ part.contains (.v4 addr) = true := by
  obtain ⟨base, prefixLen⟩ := net
  cases base with
  | v4 base => simp [contains, ipv4Part, IpAddr.octets]
  | v6 base =>
      have frontLength : ((base.toList.take 12).flatMap octetBits).length = 96 := by
        rw [length_flatMap_octetBits, List.length_take, Vector.length_toList]
        rfl
      have mappedLength : mappedBits.length = 96 := by
        rw [mappedBits, length_flatMap_octetBits]
        rfl
      have sameLength :
          (((base.toList.take 12).flatMap octetBits).take prefixLen).length =
            (mappedBits.take prefixLen).length := by
        rw [List.length_take, List.length_take, frontLength, mappedLength]
      have baseBits : ((IpAddr.v6 base).octets.flatMap octetBits).take prefixLen =
          ((base.toList.take 12).flatMap octetBits).take prefixLen ++
            ((IpAddr.octets (.v4 (lastIpv4 base))).flatMap octetBits).take (prefixLen - 96) := by
        have split := congrArg (fun octets => (octets.flatMap octetBits).take prefixLen)
          (toList_last base)
        rwa [List.flatMap_append, List.take_append, frontLength] at split
      have addrBits : ((IpAddr.v6 (toIpv6Mapped addr)).octets.flatMap octetBits).take prefixLen =
          mappedBits.take prefixLen ++
            ((IpAddr.v4 addr).octets.flatMap octetBits).take (prefixLen - 96) := by
        rw [octets_mapped, List.flatMap_append, List.take_append, ← mappedBits, mappedLength]
      simp only [contains, ipv4Part, Bool.and_eq_true, beq_iff_eq, baseBits, addrBits,
        List.append_eq_append_iff_of_size_eq_left sameLength]
      simp [IpAddr.octets]

/-! ## The gates -/

/-- The gates for the addresses of peers, and the filter's ranges. -/
structure PeerGates where
  allowFrom : AllowFromAcl
  clientPolicy : ClientPolicySet
  rebindRanges : List IpNet
  proxyProtocol : PpConfig

/-- All gates decide alike on two peers. -/
structure PeerGates.Alike (gates : PeerGates) (peer other : IpAddr) : Prop where
  allows : gates.allowFrom.allows peer = gates.allowFrom.allows other
  admits : ∀ localCommand,
    gates.allowFrom.admits peer localCommand = gates.allowFrom.admits other localCommand
  evaluate : ∀ toLowercase now qname,
    gates.clientPolicy.evaluate toLowercase now peer qname =
      gates.clientPolicy.evaluate toLowercase now other qname
  effectiveFilterAaaa : ∀ isGlobal,
    gates.clientPolicy.effectiveFilterAaaa peer isGlobal =
      gates.clientPolicy.effectiveFilterAaaa other isGlobal
  isPrivate : ∀ toLowercase enabled allowlist,
    (RebindFilter.new toLowercase enabled allowlist gates.rebindRanges).isPrivate peer =
      (RebindFilter.new toLowercase enabled allowlist gates.rebindRanges).isPrivate other
  proxied : gates.proxyProtocol.allows peer = gates.proxyProtocol.allows other

section Canonical

variable {peer other : IpAddr} (same : peer.toCanonical = other.toCanonical)

include same

theorem CidrMatcher.matchesIp_congr (matcher : CidrMatcher) :
    matcher.matchesIp peer = matcher.matchesIp other := by
  rw [matchesIp, matchesIp, same]

theorem AllowFromAcl.allows_congr (acl : AllowFromAcl) : acl.allows peer = acl.allows other := by
  rw [allows, allows, same]

theorem ClientPolicySet.matchingRules_congr (policies : ClientPolicySet) :
    policies.matchingRules peer = policies.matchingRules other := by
  rw [matchingRules, matchingRules, same]

/-- All gates but the one of the PROXY protocol decide by the canonical form. -/
theorem PeerGates.alike_iff_of_canonical (gates : PeerGates) :
    gates.Alike peer other ↔ gates.proxyProtocol.allows peer = gates.proxyProtocol.allows other := by
  refine ⟨fun alike => alike.proxied, fun proxied => ?_⟩
  refine ⟨gates.allowFrom.allows_congr same, fun localCommand => ?_, fun toLowercase now qname => ?_,
    fun isGlobal => ?_, fun toLowercase enabled allowlist => ?_, proxied⟩
  · rw [AllowFromAcl.admits, AllowFromAcl.admits, AllowFromAcl.allows_congr same]
  · rw [ClientPolicySet.evaluate, ClientPolicySet.evaluate, ClientPolicySet.matchingRules_congr same]
  · rw [ClientPolicySet.effectiveFilterAaaa, ClientPolicySet.effectiveFilterAaaa,
      ClientPolicySet.matchingRules_congr same]
  · exact CidrMatcher.matchesIp_congr same ⟨gates.rebindRanges, []⟩

end Canonical

/-- The gates decide alike on an IPv4 peer and its mapped form iff the IPv4
ranges that are trusted to send PROXY headers and the IPv4 parts of the IPv6
ranges agree on the peer. -/
theorem PeerGates.alike_mapped_iff (gates : PeerGates) (addr : Ipv4Addr) :
    gates.Alike (.v4 addr) (.v6 (toIpv6Mapped addr)) ↔
      ((∃ net ∈ gates.proxyProtocol.ranges, net.contains (.v4 addr) = true) ↔
        ∃ net ∈ gates.proxyProtocol.ranges, ∃ part, net.ipv4Part = some part ∧
          part.contains (.v4 addr) = true) := by
  rw [gates.alike_iff_of_canonical (toCanonical_mapped addr).symm, PpConfig.allows, PpConfig.allows,
    Bool.eq_iff_iff, List.any_eq_true, List.any_eq_true]
  simp only [IpNet.contains_mapped_iff]

/-- A proxy in 10.0.0.0/8 is not trusted in its mapped form. -/
theorem not_all_alike_mapped :
    ¬ ∀ (gates : PeerGates) (addr : Ipv4Addr),
      gates.Alike (.v4 addr) (.v6 (toIpv6Mapped addr)) := by
  intro all
  have alike := all ⟨⟨{}⟩, {}, [], ⟨[⟨.v4 (.new 10 0 0 0), 8⟩]⟩⟩ (.new 10 1 2 3)
  exact absurd alike.proxied (by decide)

end Numa
