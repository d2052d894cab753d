import Numa.CacheFreshness
import Numa.CachedAnswers

/-!
# The TTLs of served messages

`insert_wire` takes the lifetime of a message from its answers alone, and a
lookup writes one TTL over the records of all sections.  Answers never outlive
their own TTLs, and the other records never outlive the answers.
-/

namespace Numa

theorem Patched.wireU32_eq {wire after : List UInt8} {newId : UInt16} {newTtl : UInt32}
    {scanned : WireMeta} (patched : Patched wire newId newTtl scanned after) {off : Nat}
    (offMem : off ∈ scanned.ttlOffsets) : wireU32 after off = newTtl := by
  have first := patched.ttl off offMem 0 (by decide)
  have second := patched.ttl off offMem 1 (by decide)
  have third := patched.ttl off offMem 2 (by decide)
  have fourth := patched.ttl off offMem 3 (by decide)
  rw [Nat.add_zero] at first
  rw [wireU32, first, second, third, fourth]
  exact join_beBytes32 newTtl

theorem fromSecs_div (secs : Nat) : fromSecs secs / fromSecs 1 = secs := by
  rw [fromSecs, fromSecs, Nat.one_mul, Nat.mul_div_cancel _ (by decide)]

theorem fromSecs_max (first second : Nat) :
    max (fromSecs first) (fromSecs second) = fromSecs (max first second) :=
  (Nat.mul_max_mul_right first second 1000000000)

theorem le_of_fromSecs_le {first second : Nat} (ordered : fromSecs first ≤ fromSecs second) :
    first ≤ second :=
  Nat.le_of_mul_le_mul_right ordered (by decide)

/-- The lifetime is at most each answer's TTL, or the lower bound. -/
theorem clampedTtl_le_of_mem {minTtl maxTtl ttl : UInt32} {ttls : List UInt32}
    (ttlMem : ttl ∈ ttls) : clampedTtl minTtl maxTtl ttls ≤ max minTtl.toNat ttl.toNat := by
  obtain ⟨least, isLeast⟩ := Option.isSome_iff_exists.mp (List.isSome_min?_of_mem ttlMem)
  have below : least.toNat ≤ ttl.toNat :=
    UInt32.le_iff_toNat_le.mp ((List.min?_eq_some_iff.mp isLeast).2 ttl ttlMem)
  rw [clampedTtl, isLeast, Option.getD_some]
  omega

theorem clampedTtl_nil (minTtl maxTtl : UInt32) : clampedTtl minTtl maxTtl [] = minTtl.toNat := by
  rw [clampedTtl, List.min?_nil, Option.getD_none]
  omega

namespace DnsCache

theorem remaining_isSome {entry : CacheEntry} {now : Nat}
    (inside : now - entry.insertedAt < entry.ttl + staleWindow) :
    (remaining entry now).isSome = true := by
  unfold remaining
  dsimp only
  split
  · rfl
  · rfl

/-- A record whose TTL was `ttl`, at the position of its field, never gets a TTL above what is left
of it, one second or the lower bound. -/
def NeverOutlives (cache : DnsCache) (since : Nat) (domain : Text) (qtype : QueryType) (pos : Nat)
    (ttl : UInt32) : Prop :=
  ∀ now newId wire status freshness,
    cache.lookupOctets now domain qtype newId = some (some (wire, status, freshness)) →
      fromSecs (wireU32 wire pos).toNat ≤
        max (fromSecs 1) (max (fromSecs cache.minTtl.toNat) (fromSecs ttl.toNat - (now - since)))

section Insertion

variable {cache after : DnsCache} {since : Nat} {domain : Text} {qtype : QueryType}
  {octets : List UInt8} {status : DnssecStatus} {scanned : WireMeta}
  (accepted : scanTtlOffsets octets = .ok scanned)
  (inserted : cache.insertWire since domain qtype (.ofOctets octets) status = some after)

include accepted inserted

/-- The lifetime of the message, and what is served of it later. -/
theorem served_of_insertWire (now : Nat) (newId : UInt16) :
    ∃ entry, entry.insertedAt = since ∧
      entry.ttl = fromSecs (clampedTtl after.minTtl after.maxTtl (answerTtls octets scanned)) ∧
      after.Serves now domain qtype newId scanned entry (remaining entry now) ∧
      entry.wire.octets = octets := by
  have scans : (Wire.ofOctets octets).scans = true := by
    rw [Wire.ofOctets, accepted]
    rfl
  obtain ⟨maxTtl, minTtl, -⟩ := entry_insertWire inserted
  have isEntry := entry_of_insertWire scans inserted
  refine ⟨_, rfl, ?_, serves_remaining isEntry accepted now newId, rfl⟩
  rw [newEntry, lifetime_ofOctets accepted, minTtl, maxTtl]

/-- A record never outlives a TTL iff the lifetime of the message does not. -/
theorem neverOutlives_iff {pos : Nat} (posMem : pos ∈ scanned.ttlOffsets) (ttl : UInt32) :
    after.NeverOutlives since domain qtype pos ttl ↔
      clampedTtl after.minTtl after.maxTtl (answerTtls octets scanned) ≤
        max 1 (max after.minTtl.toNat ttl.toNat) := by
  have small := clampedTtl_le after.minTtl after.maxTtl (answerTtls octets scanned)
  constructor
  · intro never
    -- At once, the message is served with its whole lifetime.
    obtain ⟨entry, isSince, lifetime, serves, -⟩ := served_of_insertWire accepted inserted since 0
    have short : entry.ttl ≤ longestTtl := lifetime ▸ small
    have window : 0 < staleWindow := by decide
    obtain ⟨⟨secs, freshness⟩, isRemaining⟩ := Option.isSome_iff_exists.mp
      (remaining_isSome (by omega : since - entry.insertedAt < entry.ttl + staleWindow))
    rw [isRemaining] at serves
    obtain ⟨wire, looked, patched⟩ := serves
    have bound := never since 0 wire _ freshness looked
    rw [patched.wireU32_eq posMem, ttl_of_remaining short isRemaining, isSince, lifetime,
      Nat.sub_self, Nat.sub_zero, Nat.sub_zero, fromSecs_div, fromSecs_max, fromSecs_max] at bound
    exact (le_max_left _ 1).trans (le_of_fromSecs_le bound)
  · intro atMost now newId wire status freshness looked
    obtain ⟨entry, isSince, lifetime, serves, -⟩ := served_of_insertWire accepted inserted now newId
    have short : entry.ttl ≤ longestTtl := lifetime ▸ small
    cases isRemaining : remaining entry now with
    | none =>
        rw [isRemaining] at serves
        cases looked.symm.trans serves
    | some served =>
        obtain ⟨secs, phase⟩ := served
        rw [isRemaining] at serves
        obtain ⟨other, lookedAgain, patched⟩ := serves
        cases looked.symm.trans lookedAgain
        rw [patched.wireU32_eq posMem, ttl_of_remaining short isRemaining, isSince, lifetime]
        simp only [fromSecs]
        omega

/-- Answers never outlive their own TTLs, no record outlives the TTL of an
answer, and without answers no record gets more than the lower bound.  Another
record outlives its own TTL iff the lifetime of the message does. -/
theorem ttls_of_insertWire :
    (∀ pos ∈ scanned.ttlOffsets.take scanned.answerCount,
      after.NeverOutlives since domain qtype pos (wireU32 octets pos)) ∧
    (∀ pos ∈ scanned.ttlOffsets, ∀ ttl ∈ answerTtls octets scanned,
      after.NeverOutlives since domain qtype pos ttl) ∧
    (answerTtls octets scanned = [] → ∀ pos ∈ scanned.ttlOffsets, ∀ ttl,
      after.NeverOutlives since domain qtype pos ttl) ∧
    ∀ pos ∈ scanned.ttlOffsets,
      after.NeverOutlives since domain qtype pos (wireU32 octets pos) ↔
        clampedTtl after.minTtl after.maxTtl (answerTtls octets scanned) ≤
          max 1 (max after.minTtl.toNat (wireU32 octets pos).toNat) := by
  have ofAnswer : ∀ pos ∈ scanned.ttlOffsets, ∀ ttl ∈ answerTtls octets scanned,
      after.NeverOutlives since domain qtype pos ttl := by
    intro pos posMem ttl ttlMem
    rw [neverOutlives_iff accepted inserted posMem]
    exact (clampedTtl_le_of_mem ttlMem).trans (le_max_right 1 _)
  refine ⟨?_, ofAnswer, ?_, ?_⟩
  · intro pos posMem
    exact ofAnswer pos (List.mem_of_mem_take posMem) _ (List.mem_map_of_mem posMem)
  · intro noAnswers pos posMem ttl
    rw [neverOutlives_iff accepted inserted posMem, noAnswers, clampedTtl_nil]
    omega
  · exact fun pos posMem => neverOutlives_iff accepted inserted posMem _

end Insertion

/-- A response with an answer for 300 seconds and an additional record for 10. -/
def longAnswerWire : List UInt8 :=
  [0, 0, 0x81, 0x80, 0, 0, 0, 1, 0, 0, 0, 1,
    0, 0, 1, 0, 1, 0, 0, 1, 0x2C, 0, 4, 192, 0, 2, 1,
    0, 0, 1, 0, 1, 0, 0, 0, 10, 0, 4, 192, 0, 2, 2]

theorem exists_insertWire_longAnswerWire :
    ∃ after, (new 10 5 3600).insertWire 0 (text "a.test") .a (.ofOctets longAnswerWire) .secure =
      some after ∧ after.minTtl = 5 ∧ after.maxTtl = 3600 := by
  obtain ⟨after, inserted⟩ := Option.isSome_iff_exists.mp
    (by decide +kernel : ((new 10 5 3600).insertWire 0 (text "a.test") .a
      (.ofOctets longAnswerWire) .secure).isSome = true)
  obtain ⟨maxTtl, minTtl, -⟩ := entry_insertWire inserted
  exact ⟨after, inserted, minTtl, maxTtl⟩

/-- The additional record is served for 300 seconds. -/
theorem ttls_of_insertWire_longAnswerWire :
    ∃ after, (new 10 5 3600).insertWire 0 (text "a.test") .a (.ofOctets longAnswerWire) .secure =
        some after ∧
      after.NeverOutlives 0 (text "a.test") .a 17 300 ∧
      after.NeverOutlives 0 (text "a.test") .a 32 300 ∧
      ¬ after.NeverOutlives 0 (text "a.test") .a 32 10 := by
  obtain ⟨after, inserted, minTtl, maxTtl⟩ := exists_insertWire_longAnswerWire
  have accepted : scanTtlOffsets longAnswerWire = .ok ⟨[17, 32], 1⟩ := by decide +kernel
  obtain ⟨ofAnswers, ofAnswer, -, iff⟩ := ttls_of_insertWire accepted inserted
  refine ⟨after, inserted, ?_, ofAnswer 32 (by decide) 300 (by decide +kernel), ?_⟩
  · exact ofAnswers 17 (by decide)
  · have own : wireU32 longAnswerWire 32 = 10 := by decide
    have never := (iff 32 (by decide)).not.mpr
    rw [own, minTtl, maxTtl] at never
    exact never (by decide +kernel)

/-- Not every record of a served message stays within its own TTL. -/
theorem not_all_neverOutlive :
    ¬ ∀ cache after since domain qtype octets status scanned,
      scanTtlOffsets octets = .ok scanned →
      insertWire cache since domain qtype (.ofOctets octets) status = some after →
      ∀ pos ∈ scanned.ttlOffsets,
        after.NeverOutlives since domain qtype pos (wireU32 octets pos) := by
  intro claimed
  obtain ⟨after, inserted, minTtl, maxTtl⟩ := exists_insertWire_longAnswerWire
  have accepted : scanTtlOffsets longAnswerWire = .ok ⟨[17, 32], 1⟩ := by decide +kernel
  have never := claimed _ after 0 _ .a longAnswerWire .secure _ accepted inserted 32 (by decide)
  rw [neverOutlives_iff accepted inserted (by decide), minTtl, maxTtl] at never
  exact absurd never (by decide +kernel)

end DnsCache

end Numa
