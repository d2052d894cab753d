import Numa.CacheFidelity
import Numa.PatchedReading
import Numa.Server

/-!
# Answers that are cached before they are parsed

`cache_and_parse` stores the octets of an answer as soon as the scan accepts
them, and `refresh_entry` stores them without a parse.  What a later lookup makes
of the stored octets is settled by their parse after the patches.
-/

namespace Numa

open BytePacketBuffer

/-- `DnsPacket::from_buffer` of `BytePacketBuffer::from_bytes`, which takes the octets that fit. -/
def parseOctets (octets : List UInt8) : Except BufferError DnsPacket :=
  (exec DnsPacket.fromBuffer (.fromBytes octets)).1

namespace DnsCache

variable (cache : DnsCache) (now : Nat) (qname : Text) (qtype : QueryType)

/-- `cache_and_parse`, with the cache that it leaves.  `none` is the panic of `insert_wire`. -/
def cacheAndParse (respWire : List UInt8) : Option (DnsCache × Except BufferError DnsPacket) :=
  (cache.insertWire now qname qtype (.ofOctets respWire) .indeterminate).map fun after =>
    (after, parseOctets respWire)

/-- `lookup_with_status`, which parses the patched octets.  The outer `none` is a panic. -/
def lookupParsed : Option (Option (DnsPacket × DnssecStatus × Freshness)) :=
  (cache.lookupOctets now qname qtype 0).map fun found =>
    found.bind fun (wire, status, freshness) =>
      (parseOctets wire).toOption.map fun packet => (packet, status, freshness)

/-- A lookup finds an answer. -/
def Servable : Prop :=
  ∃ answer, cache.lookupParsed now qname qtype = some (some answer)

/-- The program makes this step, and its value is the parse. -/
theorem cacheAndParse_eq (respWire : List UInt8) :
    insertBatch now [⟨qname, qtype, .ofOctets respWire⟩] cache =
        (cache.cacheAndParse now qname qtype respWire).map Prod.fst ∧
      Numa.cacheAndParse qname qtype (.ofOctets respWire) =
        (do
          Resolver.insertWires [⟨qname, qtype, .ofOctets respWire⟩]
          match (parseOctets respWire).toOption with
          | some packet => pure (.ok packet)
          | none => pure (.error .failed)) := by
  refine ⟨?_, rfl⟩
  rw [cacheAndParse, Option.map_map, insertBatch]
  cases cache.insertWire now qname qtype (.ofOctets respWire) .indeterminate <;> rfl

end DnsCache

/-- In every cache the octets of an answer change nothing when they do not parse, are served as
what was returned, and replace no answer that is served by none. -/
structure KeepsAnswers (respWire : List UInt8) : Prop where
  failed : ∀ cache now qname qtype after error,
    DnsCache.cacheAndParse cache now qname qtype respWire = some (after, .error error) →
      after = cache
  served : ∀ cache now qname qtype after result,
    DnsCache.cacheAndParse cache now qname qtype respWire = some (after, result) →
      (scanTtlOffsets respWire).isOk = true →
        ∃ packet answer status freshness, result = .ok packet ∧
          after.lookupParsed now qname qtype = some (some (answer, status, freshness)) ∧
          answer.content = packet.content
  refreshed : ∀ (cache after : DnsCache) now qname qtype,
    cache.insertWire now qname qtype (.ofOctets respWire) .indeterminate = some after →
      cache.Servable now qname qtype → after.Servable now qname qtype

/-- Octets that the scan accepts parse, and parse to the same but for the patches. -/
def ParsesPatched (respWire : List UInt8) : Prop :=
  ∀ scanned, scanTtlOffsets respWire = .ok scanned →
    ∃ packet, parseOctets respWire = .ok packet ∧
      ∀ ttl, ttl ≠ 0 → ∃ wire answer, patchWire 0 ttl scanned respWire = some wire ∧
        parseOctets wire = .ok answer ∧ answer.content = packet.content

/-! ## What is found behind an insertion -/

namespace DnsCache

variable {cache after : DnsCache} {now : Nat} {qname : Text} {qtype : QueryType}
  {respWire : List UInt8} {status : DnssecStatus}

theorem insertWire_of_not_scans (fails : (scanTtlOffsets respWire).isOk = false) :
    cache.insertWire now qname qtype (.ofOctets respWire) status = some cache := by
  rw [insertWire, Wire.ofOctets]
  simp [fails]

theorem entry_of_insertWire {wire : Wire} (scans : wire.scans = true)
    (inserted : cache.insertWire now qname qtype wire status = some after) :
    after.entry qname qtype = some (cache.newEntry now wire status) := by
  by_cases ordered : cache.minTtl ≤ cache.maxTtl
  · obtain ⟨same, insertedSame, isEntry⟩ :=
      entry_insertWire_ordered ordered now qname qtype status scans
    cases inserted.symm.trans insertedSame
    exact isEntry
  · have shrinks := shrinks_makeRoom cache now
    have unordered : (cache.makeRoom now).maxTtl < (cache.makeRoom now).minTtl := by
      rw [shrinks.maxTtl, shrinks.minTtl]
      exact UInt32.not_le.mp ordered
    simp only [insertWire, scans, Bool.not_true, Bool.false_eq_true, if_false, if_pos unordered]
      at inserted
    cases inserted

/-- The TTL that a message is first served with. -/
def firstTtl (cache : DnsCache) (wire : Wire) : UInt32 :=
  max (cache.lifetime wire / fromSecs 1).toUInt32 1

theorem firstTtl_ne_zero (cache : DnsCache) (wire : Wire) : cache.firstTtl wire ≠ 0 := by
  rw [firstTtl]
  change (if _ ≤ 1 then 1 else _) ≠ 0
  split
  · decide
  · rename_i above
    intro zero
    rw [zero] at above
    exact above (by decide)

/-- With equal bounds every message is served with that TTL. -/
theorem firstTtl_new (maxEntries : Nat) {ttl : UInt32} (positive : ttl ≠ 0) (wire : Wire) :
    (new maxEntries ttl ttl).firstTtl wire = ttl := by
  have clamped : (new maxEntries ttl ttl).lifetime wire = fromSecs ttl.toNat := by
    rw [lifetime]
    exact congrArg fromSecs (max_eq_left (min_le_right _ _))
  have secs : fromSecs ttl.toNat / fromSecs 1 = ttl.toNat := by
    rw [fromSecs, fromSecs, Nat.mul_div_mul_right _ _ (by decide : 0 < 1000000000), Nat.div_one]
  rw [firstTtl, clamped, secs, Nat.toUInt32_eq, UInt32.ofNat_toNat]
  change (if ttl ≤ 1 then 1 else ttl) = ttl
  split
  · rename_i small
    have := UInt32.le_iff_toNat_le.mp small
    have notZero : ttl.toNat ≠ 0 := fun zero => positive (UInt32.toNat_inj.mp zero)
    apply UInt32.toNat_inj.mp
    change 1 = ttl.toNat
    change ttl.toNat ≤ 1 at this
    omega
  · rfl

theorem remaining_newEntry (cache : DnsCache) (now : Nat) (wire : Wire) (status : DnssecStatus) :
    ∃ freshness, remaining (cache.newEntry now wire status) now =
      some (cache.firstTtl wire, freshness) := by
  rw [remaining, newEntry]
  simp only [Nat.sub_self, Nat.zero_mul, Nat.sub_zero]
  by_cases alive : 0 < cache.lifetime wire
  · exact ⟨_, if_pos alive⟩
  · have none : cache.lifetime wire = 0 := by omega
    have positive : 0 < staleWindow := by decide
    have window : 0 < cache.lifetime wire + staleWindow := Nat.lt_add_left _ positive
    refine ⟨.stale, ?_⟩
    rw [if_neg alive, if_pos window, firstTtl, none]
    rfl

/-- Right behind an insertion the patched octets are parsed. -/
theorem lookupParsed_insertWire {scanned : WireMeta} {wire : List UInt8}
    (accepted : scanTtlOffsets respWire = .ok scanned)
    (patched : patchWire 0 (cache.firstTtl (.ofOctets respWire)) scanned respWire = some wire)
    (inserted : cache.insertWire now qname qtype (.ofOctets respWire) status = some after) :
    ∃ freshness, after.lookupParsed now qname qtype =
      some ((parseOctets wire).toOption.map fun packet => (packet, status, freshness)) := by
  have scans : (Wire.ofOctets respWire).scans = true := by
    change (scanTtlOffsets respWire).isOk = true
    rw [accepted]
    rfl
  obtain ⟨freshness, isRemaining⟩ := remaining_newEntry cache now (.ofOctets respWire) status
  refine ⟨freshness, ?_⟩
  rw [lookupParsed, lookupOctets_eq (entry_of_insertWire scans inserted) isRemaining accepted patched]
  rfl

end DnsCache

/-- Answers are kept where what is stored parses to what was returned. -/
theorem ParsesPatched.keepsAnswers {respWire : List UInt8} (parses : ParsesPatched respWire) :
    KeepsAnswers respWire := by
  have found : ∀ (cache after : DnsCache) now qname qtype scanned,
      scanTtlOffsets respWire = .ok scanned →
        cache.insertWire now qname qtype (.ofOctets respWire) .indeterminate = some after →
          ∃ packet answer freshness, parseOctets respWire = .ok packet ∧
            after.lookupParsed now qname qtype =
              some (some (answer, .indeterminate, freshness)) ∧
            answer.content = packet.content := by
    intro cache after now qname qtype scanned accepted inserted
    obtain ⟨packet, parsed, patches⟩ := parses scanned accepted
    obtain ⟨wire, answer, patched, parsedAgain, same⟩ :=
      patches _ (cache.firstTtl_ne_zero (.ofOctets respWire))
    obtain ⟨freshness, looked⟩ := DnsCache.lookupParsed_insertWire accepted patched inserted
    rw [parsedAgain] at looked
    exact ⟨packet, answer, freshness, parsed, looked, same⟩
  constructor
  · intro cache now qname qtype after error ran
    obtain ⟨last, inserted, result⟩ := Option.map_eq_some_iff.mp ran
    cases accepted : scanTtlOffsets respWire with
    | ok scanned =>
        obtain ⟨packet, parsed, -⟩ := parses scanned accepted
        rw [parsed] at result
        cases result
    | error refused =>
        rw [DnsCache.insertWire_of_not_scans (by rw [accepted]; rfl)] at inserted
        cases inserted
        exact (congrArg Prod.fst result).symm
  · intro cache now qname qtype after result ran scans
    obtain ⟨last, inserted, same⟩ := Option.map_eq_some_iff.mp ran
    cases same
    cases accepted : scanTtlOffsets respWire with
    | ok scanned =>
        obtain ⟨packet, answer, freshness, parsed, looked, same⟩ :=
          found cache after now qname qtype scanned accepted inserted
        exact ⟨packet, answer, _, freshness, parsed, looked, same⟩
    | error refused =>
        rw [accepted] at scans
        cases scans
  · intro cache after now qname qtype inserted servable
    cases accepted : scanTtlOffsets respWire with
    | ok scanned =>
        obtain ⟨packet, answer, freshness, -, looked, -⟩ :=
          found cache after now qname qtype scanned accepted inserted
        exact ⟨_, looked⟩
    | error refused =>
        rw [DnsCache.insertWire_of_not_scans (by rw [accepted]; rfl)] at inserted
        cases inserted
        exact servable

/-- A cache with these bounds serves every TTL. -/
theorem KeepsAnswers.parsesPatched {respWire : List UInt8} (keeps : KeepsAnswers respWire) :
    ParsesPatched respWire := by
  intro scanned accepted
  have scans : (scanTtlOffsets respWire).isOk = true := by
    rw [accepted]
    rfl
  have served : ∀ ttl, ttl ≠ 0 → ∃ packet wire answer, parseOctets respWire = .ok packet ∧
      patchWire 0 ttl scanned respWire = some wire ∧ parseOctets wire = .ok answer ∧
        answer.content = packet.content := by
    intro ttl positive
    obtain ⟨wire, patched, -⟩ := exists_patchWire accepted 0 ttl
    have ordered : (DnsCache.new 1 ttl ttl).minTtl ≤ (DnsCache.new 1 ttl ttl).maxTtl :=
      UInt32.le_refl ttl
    have stored : (Wire.ofOctets respWire).scans = true := scans
    obtain ⟨after, inserted, -⟩ :=
      DnsCache.entry_insertWire_ordered ordered 0 [] .a .indeterminate stored
    have ran : (DnsCache.new 1 ttl ttl).cacheAndParse 0 [] .a respWire =
        some (after, parseOctets respWire) := by
      rw [DnsCache.cacheAndParse]
      exact congrArg (Option.map _) inserted
    obtain ⟨packet, answer, status, freshness, parsed, looked, same⟩ :=
      keeps.served _ 0 [] .a after _ ran scans
    have patchedFirst : patchWire 0 ((DnsCache.new 1 ttl ttl).firstTtl (.ofOctets respWire)) scanned
        respWire = some wire := by
      rwa [DnsCache.firstTtl_new 1 positive]
    obtain ⟨otherFreshness, lookedAgain⟩ :=
      DnsCache.lookupParsed_insertWire accepted patchedFirst inserted
    rw [looked] at lookedAgain
    cases parsedAgain : parseOctets wire with
    | error error =>
        rw [parsedAgain] at lookedAgain
        cases lookedAgain
    | ok found =>
        rw [parsedAgain] at lookedAgain
        cases lookedAgain
        exact ⟨packet, wire, answer, parsed, patched, parsedAgain, same⟩
  obtain ⟨packet, -, -, parsed, -⟩ := served 1 (by decide)
  refine ⟨packet, parsed, fun ttl positive => ?_⟩
  obtain ⟨other, wire, answer, otherParsed, patched, parsedAgain, same⟩ := served ttl positive
  cases parsed.symm.trans otherParsed
  exact ⟨wire, answer, patched, parsedAgain, same⟩

/-! ## Patches that the parser does not meet -/

/-- A lookup patches the octet. -/
def isPatched (scanned : WireMeta) (pos : Nat) : Bool :=
  decide (pos < 2) || scanned.ttlOffsets.any fun off => decide (off ≤ pos ∧ pos < off + 4)

theorem isPatched_eq_false_iff {scanned : WireMeta} {pos : Nat} :
    isPatched scanned pos = false ↔ 2 ≤ pos ∧ ¬ InFields scanned.ttlOffsets pos := by
  rw [isPatched, Bool.or_eq_false_iff, decide_eq_false_iff_not, Nat.not_lt]
  exact and_congr_right fun _ => by simp [InFields]

/-- The buffer holds the octets that fit, and zeros behind them. -/
theorem wireOctet_fromBytes_of_lt (data : List UInt8) {pos : Nat} (inside : pos < bufSize) :
    wireOctet (fromBytes data).buf pos = wireOctet data pos := by
  simp only [wireOctet, fromBytes, List.getD_eq_getElem?_getD, List.getElem?_append]
  by_cases held : pos < data.length
  · rw [if_pos (by simp [held, inside]), List.getElem?_take_of_lt inside]
  · rw [if_neg (by simp [held]), List.getElem?_eq_none (Nat.le_of_not_lt held)]
    rw [List.getElem?_replicate]
    split <;> rfl

theorem alikeBut_fromBytes {respWire wire : List UInt8} {scanned : WireMeta} {id : UInt16}
    {ttl : UInt32} (patched : Patched respWire id ttl scanned wire) :
    AlikeBut (isPatched scanned) (fromBytes respWire) (fromBytes wire) where
  pos := rfl
  octets := by
    intro pos unpatched
    obtain ⟨above, outside⟩ := isPatched_eq_false_iff.mp unpatched
    by_cases inside : pos < bufSize
    · rw [wireOctet_fromBytes_of_lt _ inside, wireOctet_fromBytes_of_lt _ inside]
      exact patched.outside pos above outside
    · have sizes : ∀ data, (fromBytes data).buf.length ≤ pos := fun data =>
        (fromBytes data).size_eq.trans_le (Nat.le_of_not_lt inside)
      rw [wireOctet, wireOctet, List.getD_eq_default _ _ (sizes wire),
        List.getD_eq_default _ _ (sizes respWire)]

/-- The fields lie behind the header. -/
theorem spared_header {respWire : List UInt8} {scanned : WireMeta}
    (accepted : scanTtlOffsets respWire = .ok scanned) :
    spared (isPatched scanned) 2 12 = true := by
  obtain ⟨answers, authorities, additionals, first, second, third, last, sections, rfl⟩ :=
    scanTtlOffsets_eq_ok_iff.mp accepted
  obtain ⟨-, bounds, afterHeader⟩ := sections.fields
  refine spared_iff.mpr fun pos above below => isPatched_eq_false_iff.mpr ⟨above, ?_⟩
  rintro ⟨off, offMem, isInside⟩
  have := bounds off offMem
  omega

/-- Nothing that the parser looks at behind the header is patched, but for TTL fields. -/
def patchesSpared (respWire : List UInt8) (scanned : WireMeta) : Bool :=
  messageSpared (fromBytes respWire).buf (isPatched scanned)

theorem ParsesPatched.of_spared {respWire : List UInt8} {scanned : WireMeta}
    (accepted : scanTtlOffsets respWire = .ok scanned)
    (parses : (parseOctets respWire).isOk = true)
    (isSpared : patchesSpared respWire scanned = true) : ParsesPatched respWire := by
  intro other otherAccepted
  cases accepted.symm.trans otherAccepted
  cases parsed : parseOctets respWire with
  | error error =>
      rw [parsed] at parses
      cases parses
  | ok packet =>
      refine ⟨packet, rfl, fun ttl _ => ?_⟩
      obtain ⟨wire, patched, isPatched⟩ := exists_patchWire accepted 0 ttl
      have ran : exec DnsPacket.fromBuffer ((fromBytes respWire).movedTo 0) =
          (.ok packet, (exec DnsPacket.fromBuffer (fromBytes respWire)).2) :=
        Prod.ext parsed rfl
      obtain ⟨answer, ranAgain, same⟩ := exec_fromBuffer_alike (alikeBut_fromBytes isPatched)
        (spared_header accepted) isSpared ran
      exact ⟨wire, answer, patched, congrArg Prod.fst ranAgain, same⟩

/-- The cache keeps its answers where octets that the scan accepts parse as they do after the
patches, and they do where the patches spare what the parser looks at. -/
theorem keepsAnswers_iff (respWire : List UInt8) :
    (KeepsAnswers respWire ↔ ParsesPatched respWire) ∧
      ∀ scanned, scanTtlOffsets respWire = .ok scanned → (parseOctets respWire).isOk = true →
        patchesSpared respWire scanned = true → ParsesPatched respWire :=
  ⟨⟨KeepsAnswers.parsesPatched, ParsesPatched.keepsAnswers⟩, fun _ => .of_spared⟩

/-- An answer whose owner is a pointer to the name of the question. -/
def pointedAnswer : List UInt8 :=
  [0, 7, 0x81, 0x80, 0, 1, 0, 1, 0, 0, 0, 0, 1, 97, 4, 116, 101, 115, 116, 0, 0, 1, 0, 1,
    0xC0, 12, 0, 1, 0, 1, 0, 0, 1, 0x2C, 0, 4, 192, 0, 2, 1]

theorem keepsAnswers_iff_pointedAnswer : KeepsAnswers pointedAnswer :=
  (keepsAnswers_iff pointedAnswer).1.mpr ((keepsAnswers_iff pointedAnswer).2 ⟨[30], 1⟩
    (by decide +kernel) (by decide +kernel) (by decide +kernel))

/-- An answer with an alias whose target is no name. -/
def brokenAnswer : List UInt8 :=
  [0, 7, 0x81, 0x80, 0, 0, 0, 1, 0, 0, 0, 0, 0, 0, 5, 0, 1, 0, 0, 1, 0x2C, 0, 1, 0x40]

def answeredCache : Option DnsCache :=
  (DnsCache.new 100 60 3600).insertWire 0 (text "a.test") .a (.ofOctets pointedAnswer)
    .indeterminate

/-- The answer is an error for the client and replaces the one that was served. -/
theorem brokenAnswer_replaces :
    answeredCache.bind (fun cache =>
        (cache.lookupParsed 0 (text "a.test") .a).map Option.isSome) = some true ∧
      (answeredCache.bind fun cache =>
        (cache.cacheAndParse 0 (text "a.test") .a brokenAnswer).map fun (after, result) =>
          (result.isOk, after.lookupParsed 0 (text "a.test") .a)) = some (false, some none) ∧
      ¬ KeepsAnswers brokenAnswer := by
  refine ⟨by decide +kernel, by decide +kernel, fun keeps => ?_⟩
  have accepted : scanTtlOffsets brokenAnswer = .ok ⟨[17], 1⟩ := by decide +kernel
  obtain ⟨packet, parsed, -⟩ := keeps.parsesPatched _ accepted
  have fails : (parseOctets brokenAnswer).isOk = false := by decide +kernel
  rw [parsed] at fails
  cases fails

end Numa
