import Numa.Network
import Numa.ResolverRules

/-!
# Resolution with full questions

The reference for query minimisation: `resolve_iterative` without
`minimize_query`, which sends the full question to every server.  This file
gives its definition, and the rules by which it stays in lockstep with the
resolution that minimizes wherever the two ask the same.
-/

namespace Numa

section Resolve

variable (env : ResolverEnv)

/-- The loop over the servers that sends the full question. -/
def fullServerLoop (chase resolveNs : Text → QueryType → Resolution) (qname : Text)
    (qtype : QueryType) : (rounds : Nat) → Text → List SocketAddr → Nat → Resolution
  | 0, _, _, _ => pure (.error (.exhausted qname))
  | rounds + 1, currentZone, nsAddrs, nsIdx =>
    if nsAddrs.length ≤ nsIdx then pure (.error .noNameserverAvailable)
    else do
      match ← Resolver.sendQueryHedged qname qtype (nsAddrs.drop nsIdx) with
      | .error _ =>
        fullServerLoop chase resolveNs qname qtype rounds currentZone nsAddrs
          (nsIdx + min (nsAddrs.length - nsIdx) 2)
      | .ok response =>
        handleResponse env chase resolveNs qname qtype
          (fullServerLoop chase resolveNs qname qtype rounds) false currentZone nsAddrs nsIdx
          response

def fullResolveWith (chase : Text → QueryType → Resolution) :
    (levels : Nat) → Caller → Text → QueryType → Resolution
  | 0, _, _, _ => pure (.error .maxReferralDepthExceeded)
  | levels + 1, caller, qname, qtype => do
    match ← Resolver.lookup caller qname qtype with
    | some cached => pure (.ok cached)
    | none =>
      let view ← Resolver.readCache
      let (currentZone, nsAddrs) := findClosestNs view env.rootHints qname
      let sorted ← Resolver.sortByUdpRtt nsAddrs
      fullServerLoop env chase (fullResolveWith chase levels .nameserver) qname qtype
        maxReferralDepth currentZone sorted 0

def fullChaseCname : (cnames : Nat) → Text → QueryType → Resolution
  | 0, _, _ => pure (.error .maxCnameDepthExceeded)
  | cnames + 1, cnameTarget, qtype =>
    fullResolveWith env (fullChaseCname cnames) (maxReferralDepth + 1) .cnameChase cnameTarget
      qtype

/-- `resolve_iterative` without minimisation. -/
def fullResolveIterative (caller : Caller) (qname : Text) (qtype : QueryType)
    (referralDepth cnameDepth : Nat) : Resolution :=
  fullResolveWith env (fullChaseCname env (maxCnameDepth - cnameDepth))
    (maxReferralDepth + 1 - referralDepth) caller qname qtype

end Resolve

/-! ## Which questions are shortened -/

/-- Is the question for a name sent to the root servers shortened to its last
label? -/
def shortenedAtRoot (qname : Text) : Bool :=
  decide (dot ∈ qname ∧ (afterLastDot qname).length + 1 < qname.length)

theorem minimizeQuery_of_shortened {qname : Text} (shortened : shortenedAtRoot qname = true)
    (qtype : QueryType) : minimizeQuery qname qtype [dot] = (afterLastDot qname, .ns) := by
  rw [minimizeQuery, if_neg (by simp), if_pos (of_decide_eq_true shortened)]

theorem minimizeQuery_of_not_shortened {qname currentZone : Text}
    (same : currentZone = [dot] → shortenedAtRoot qname = false) (qtype : QueryType) :
    minimizeQuery qname qtype currentZone = (qname, qtype) := by
  unfold minimizeQuery
  split
  · rfl
  · rename_i atRoot
    rw [if_neg (of_decide_eq_false (same (not_not.mp atRoot)))]

/-- A shortened question is told from the full one. -/
theorem not_eqIgnoreAsciiCase_of_shortened {qname : Text}
    (shortened : shortenedAtRoot qname = true) :
    (afterLastDot qname).eqIgnoreAsciiCase qname = false := by
  obtain ⟨-, shorter⟩ := of_decide_eq_true shortened
  rw [← Bool.not_eq_true, Text.eqIgnoreAsciiCase_iff]
  intro same
  have lengths := congrArg List.length same
  simp only [Text.toLowercase, List.length_map] at lengths
  omega

/-! ## The views of alike caches -/

/-- The views agree on every type but DS. -/
def AlikeViews (view other : Text → QueryType → Option DnsPacket) : Prop :=
  ∀ name type, type ≠ .ds → view name type = other name type

theorem addrsFromView_congr {view other : Text → QueryType → Option DnsPacket}
    (alike : AlikeViews view other) : addrsFromView view = addrsFromView other := by
  funext host
  have sameA := alike host .a (by decide)
  have sameAaaa := alike host .aaaa (by decide)
  simp only [addrsFromView, List.flatMap_cons, List.flatMap_nil, sameA, sameAaaa]

theorem closestNs_congr {view other : Text → QueryType → Option DnsPacket}
    (alike : AlikeViews view other) (rootHints : List SocketAddr) (zones : List Text) :
    closestNs view rootHints zones = closestNs other rootHints zones := by
  induction zones with
  | nil => rfl
  | cons zone zones ih =>
      have sameNs := alike zone .ns (by decide)
      simp only [closestNs, sameNs, addrsFromView_congr alike, ih]

/-- A search that stops at the root itself has got to the root hints. -/
theorem closestNs_root {view : Text → QueryType → Option DnsPacket}
    {rootHints : List SocketAddr} {zones : List Text} (proper : [dot] ∉ zones)
    (atRoot : (closestNs view rootHints zones).1 = [dot]) :
    (closestNs view rootHints zones).2 = rootHints := by
  induction zones with
  | nil => rfl
  | cons zone zones ih =>
      rw [List.mem_cons, not_or] at proper
      cases found : view zone .ns with
      | none =>
          simp only [closestNs, found] at atRoot ⊢
          exact ih proper.2 atRoot
      | some cached =>
          simp only [closestNs, found] at atRoot ⊢
          generalize (extractNsFromRecords _).flatMap (addrsFromView view) = addrs at atRoot ⊢
          by_cases unreachable : addrs = []
          · rw [if_pos unreachable] at atRoot ⊢
            exact ih proper.2 atRoot
          · rw [if_neg unreachable] at atRoot
            exact absurd atRoot.symm proper.1

/-- Of a name that is shortened, none of the zones that are looked for is the
root, unless the name ends in a dot. -/
theorem root_not_mem_zones {qname : Text} (shortened : shortenedAtRoot qname = true)
    (named : afterLastDot qname ≠ []) : [dot] ∉ qname :: tailsAfterDots qname := by
  obtain ⟨-, shorter⟩ := of_decide_eq_true shortened
  rw [List.mem_cons, not_or]
  refine ⟨fun isRoot => ?_, fun isTail => named ?_⟩
  · rw [← isRoot] at shorter
    simp at shorter
  have suffix : [dot] <:+ qname := by
    clear named shortened shorter
    induction qname with
    | nil => simp [tailsAfterDots] at isTail
    | cons octet rest ih =>
        unfold tailsAfterDots at isTail
        split at isTail
        · rcases List.mem_cons.mp isTail with same | later
          · rw [same]
            exact List.suffix_cons octet rest
          · exact (ih later).trans (List.suffix_cons octet rest)
        · exact (ih isTail).trans (List.suffix_cons octet rest)
  obtain ⟨front, rfl⟩ := suffix
  simp [afterLastDot]

end Numa
