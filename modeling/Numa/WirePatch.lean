import Numa.CacheInvariant

/-!
# Patching a stored message

`lookup_wire` patches the identifier and the TTL fields of a stored message in
place, at the positions the scan has found when the message was stored.  The
positions lie apart from each other and from everything the scan looks at, so
the patches stay inside the message and another scan finds the same fields.
-/

namespace Numa

/-- Overwrite the octets from a position on; `none` is the panic of an index
out of bounds. -/
def setOctets : (pos : Nat) → (octets wire : List UInt8) → Option (List UInt8)
  | _, [], wire => some wire
  | pos, octet :: octets, wire =>
    if pos < wire.length then setOctets (pos + 1) octets (wire.set pos octet) else none

def patchId (newId : UInt16) (wire : List UInt8) : Option (List UInt8) :=
  setOctets 0 (beBytes16 newId) wire

def patchTtls (newTtl : UInt32) : (offsets : List Nat) → List UInt8 → Option (List UInt8)
  | [], wire => some wire
  | off :: offsets, wire => do
    let wire ← setOctets off (beBytes32 newTtl) wire
    patchTtls newTtl offsets wire

/-- The two patches of `lookup_wire`. -/
def patchWire (newId : UInt16) (newTtl : UInt32) (scanned : WireMeta) (wire : List UInt8) :
    Option (List UInt8) := do
  let wire ← patchId newId wire
  patchTtls newTtl scanned.ttlOffsets wire

/-! ## What a patch changes -/

/-- Only the octets of a window differ, and it holds the given octets
afterwards. -/
structure Overwritten (before : List UInt8) (pos : Nat) (octets after : List UInt8) : Prop where
  length_eq : after.length = before.length
  inside : ∀ index, index < octets.length →
    wireOctet after (pos + index) = octets.getD index 0
  outside : ∀ index, index < pos ∨ pos + octets.length ≤ index →
    wireOctet after index = wireOctet before index

theorem wireOctet_set {wire : List UInt8} {pos : Nat} {octet : UInt8}
    (inside : pos < wire.length) (index : Nat) :
    wireOctet (wire.set pos octet) index = if index = pos then octet else wireOctet wire index := by
  unfold wireOctet
  rw [List.getD_eq_getElem?_getD, List.getElem?_set]
  by_cases same : pos = index
  · subst same
    simp [inside]
  · rw [if_neg same, if_neg (Ne.symm same), List.getD_eq_getElem?_getD]

theorem exists_setOctets {pos : Nat} {octets wire : List UInt8}
    (fits : pos + octets.length ≤ wire.length) :
    ∃ after, setOctets pos octets wire = some after ∧ Overwritten wire pos octets after := by
  induction octets generalizing pos wire with
  | nil => exact ⟨wire, rfl, rfl, by simp, fun _ _ => rfl⟩
  | cons octet octets ih =>
      rw [List.length_cons] at fits
      have restFits : pos + 1 + octets.length ≤ (wire.set pos octet).length := by
        rw [List.length_set]
        omega
      obtain ⟨after, patched, overwritten⟩ := ih restFits
      refine ⟨after, by rw [setOctets, if_pos (by omega), patched], ?_, ?_, ?_⟩
      · rw [overwritten.length_eq, List.length_set]
      · intro index isInside
        cases index with
        | zero =>
            rw [overwritten.outside (pos + 0) (by omega), wireOctet_set (by omega)]
            simp
        | succ index =>
            have later := overwritten.inside index (by simpa using isInside)
            rw [show pos + (index + 1) = pos + 1 + index by omega, later]
            simp
      · intro index isOutside
        rw [List.length_cons] at isOutside
        rw [overwritten.outside index (by omega), wireOctet_set (by omega), if_neg (by omega)]

/-- The position belongs to a TTL field. -/
def InFields (offsets : List Nat) (index : Nat) : Prop :=
  ∃ off ∈ offsets, off ≤ index ∧ index < off + 4

/-- The fields lie apart from each other. -/
def Apart (offsets : List Nat) : Prop :=
  offsets.Pairwise fun first second => first + 4 ≤ second

/-- Only the TTL fields differ, and they all hold the given TTL. -/
structure TtlsPatched (before : List UInt8) (newTtl : UInt32) (offsets : List Nat)
    (after : List UInt8) : Prop where
  length_eq : after.length = before.length
  inside : ∀ off ∈ offsets, ∀ index, index < 4 →
    wireOctet after (off + index) = (beBytes32 newTtl).getD index 0
  outside : ∀ index, ¬ InFields offsets index → wireOctet after index = wireOctet before index

theorem exists_patchTtls (newTtl : UInt32) {offsets : List Nat} {wire : List UInt8}
    (apart : Apart offsets) (fits : ∀ off ∈ offsets, off + 4 ≤ wire.length) :
    ∃ after, patchTtls newTtl offsets wire = some after ∧
      TtlsPatched wire newTtl offsets after := by
  induction offsets generalizing wire with
  | nil => exact ⟨wire, rfl, rfl, by simp, fun _ _ => rfl⟩
  | cons off offsets ih =>
      obtain ⟨offFits, laterFit⟩ := List.forall_mem_cons.mp fits
      obtain ⟨offBefore, laterApart⟩ := List.pairwise_cons.mp apart
      have octetsFit : off + (beBytes32 newTtl).length ≤ wire.length := offFits
      obtain ⟨middle, first, overwritten⟩ := exists_setOctets octetsFit
      obtain ⟨after, rest, patched⟩ := ih laterApart
        (by rwa [overwritten.length_eq])
      refine ⟨after, by rw [patchTtls, first]; exact rest, ?_, ?_, ?_⟩
      · rw [patched.length_eq, overwritten.length_eq]
      · intro field fieldMem index isInside
        rcases List.mem_cons.mp fieldMem with rfl | laterMem
        · have notLater : ¬ InFields offsets (field + index) := by
            rintro ⟨other, otherMem, above, _⟩
            have := offBefore other otherMem
            omega
          rw [patched.outside _ notLater, overwritten.inside index isInside]
        · exact patched.inside field laterMem index isInside
      · intro index notInside
        have notLater : ¬ InFields offsets index := by
          rintro ⟨other, otherMem, isInside⟩
          exact notInside ⟨other, by simp [otherMem], isInside⟩
        rw [patched.outside index notLater]
        apply overwritten.outside index
        by_contra isInside
        refine notInside ⟨off, by simp, ?_⟩
        have : (beBytes32 newTtl).length = 4 := rfl
        omega

/-! ## What the scan finds -/

section Scan

variable {wire other : List UInt8} {start pos next count : Nat} {offsets : List Nat}

/-- The messages agree on the positions of a range that are in no TTL field. -/
def AgreeOn (wire other : List UInt8) (start next : Nat) (offsets : List Nat) : Prop :=
  ∀ index, start ≤ index → index < next → ¬ InFields offsets index →
    wireOctet other index = wireOctet wire index

/-- What one round of `skip_wire_name` can do. -/
theorem skipLabels_eq_ok_iff {rounds : Nat} :
    skipLabels wire (rounds + 1) start = .ok pos ↔ start < wire.length ∧
      ((wireOctet wire start).toNat &&& 0xC0 = 0xC0 ∧ pos = start + 2 ∨
        (wireOctet wire start).toNat = 0 ∧ pos = start + 1 ∨
        (wireOctet wire start).toNat &&& 0xC0 ≠ 0xC0 ∧ (wireOctet wire start).toNat ≠ 0 ∧
          skipLabels wire rounds (start + 1 + (wireOctet wire start).toNat) = .ok pos) := by
  rw [skipLabels]
  generalize (wireOctet wire start).toNat = len
  dsimp only
  split_ifs with past pointer root
  · simp [Nat.not_lt.mpr past]
  · have : len ≠ 0 := by
      rintro rfl
      simp at pointer
    simp [pointer, this, Nat.not_le.mp past, eq_comm]
  · subst root
    simp [Nat.not_le.mp past, eq_comm]
  · simp [pointer, root, Nat.not_le.mp past]

theorem skipLabels_gt {rounds : Nat} (skipped : skipLabels wire rounds start = .ok pos) :
    start < pos := by
  induction rounds generalizing start with
  | zero => cases skipped
  | succ rounds ih =>
      obtain ⟨-, ⟨-, rfl⟩ | ⟨-, rfl⟩ | ⟨-, -, later⟩⟩ := skipLabels_eq_ok_iff.mp skipped
      · omega
      · omega
      · have := ih later
        omega

/-- A message that goes on with the same octets has the same name. -/
theorem skipLabels_congr {rounds more : Nat} (skipped : skipLabels wire rounds start = .ok pos)
    (enough : rounds ≤ more) (longer : wire.length ≤ other.length)
    (agree : ∀ index, start ≤ index → index < pos → wireOctet other index = wireOctet wire index) :
    skipLabels other more start = .ok pos := by
  induction rounds generalizing start more with
  | zero => cases skipped
  | succ rounds ih =>
      obtain ⟨more, rfl⟩ : ∃ less, more = less + 1 := ⟨more - 1, by omega⟩
      have positive := skipLabels_gt skipped
      obtain ⟨inside, cases⟩ := skipLabels_eq_ok_iff.mp skipped
      rw [skipLabels_eq_ok_iff, agree start (le_refl _) positive]
      refine ⟨by omega, cases.imp_right (Or.imp_right ?_)⟩
      rintro ⟨notPointer, notRoot, later⟩
      exact ⟨notPointer, notRoot, ih later (by omega) fun index above below =>
        agree index (by omega) below⟩

theorem skipWireName_congr (skipped : skipWireName wire start = .ok pos)
    (longer : wire.length ≤ other.length)
    (agree : ∀ index, start ≤ index → index < pos → wireOctet other index = wireOctet wire index) :
    skipWireName other start = .ok pos :=
  skipLabels_congr skipped (by omega) longer agree

/-- What an accepted record looks like: its name, ten octets and the octets of
its data lie inside the message. -/
structure RecordSpan (wire : List UInt8) (start pos next : Nat) : Prop where
  name : skipWireName wire start = .ok pos
  after_name : start < pos
  next_eq : next = pos + 10 + (wireU16 wire (pos + 8)).toNat
  inside : next ≤ wire.length

theorem scanRecord_eq_ok (scanned : scanRecord wire start = .ok (offsets, next)) :
    ∃ pos, RecordSpan wire start pos next ∧
      offsets = if isOptRecord wire start then [] else [pos + 4] := by
  unfold scanRecord at scanned
  cases named : skipWireName wire start with
  | error error =>
      rw [named] at scanned
      cases scanned
  | ok pos =>
      rw [named] at scanned
      change (if wire.length < pos + 10 then _ else _) = _ at scanned
      by_cases truncated : wire.length < pos + 10
      · rw [if_pos truncated] at scanned
        cases scanned
      rw [if_neg truncated] at scanned
      by_cases long : wire.length < pos + 10 + (wireU16 wire (pos + 8)).toNat
      · rw [if_pos long] at scanned
        cases scanned
      rw [if_neg long] at scanned
      obtain ⟨offsetsEq, nextEq⟩ := Prod.mk.inj (Except.ok.inj scanned)
      exact ⟨pos, ⟨named, skipLabels_gt named, nextEq.symm, by omega⟩, offsetsEq.symm⟩

theorem RecordSpan.scanRecord_eq (span : RecordSpan wire start pos next) :
    scanRecord wire start =
      .ok (if isOptRecord wire start then [] else [pos + 4], next) := by
  have inside := span.inside
  rw [span.next_eq] at inside
  unfold scanRecord
  rw [span.name]
  change (if wire.length < pos + 10 then _ else _) = _
  rw [if_neg (by omega), if_neg (by omega), ← span.next_eq]

/-- The name of an OPT record is one octet, so its type stands before the TTL. -/
theorem RecordSpan.pos_of_root (span : RecordSpan wire start pos next)
    (root : wireOctet wire start = 0) : pos = start + 1 := by
  have skipped := span.name
  simp only [skipWireName, skipLabels_eq_ok_iff, root] at skipped
  simpa using skipped.2

/-- Another message with the same name, type and length scans alike. -/
theorem RecordSpan.congr (span : RecordSpan wire start pos next)
    (sameLength : other.length = wire.length) (agree : AgreeOn wire other start next [pos + 4]) :
    RecordSpan other start pos next ∧ isOptRecord other start = isOptRecord wire start := by
  have afterName := span.after_name
  have bound : pos + 10 ≤ next := by
    rw [span.next_eq]
    omega
  have same : ∀ index, start ≤ index → index < next → ¬ (pos + 4 ≤ index ∧ index < pos + 8) →
      wireOctet other index = wireOctet wire index := by
    intro index above below outside
    apply agree index above below
    rintro ⟨off, offMem, isInside⟩
    obtain rfl := List.mem_singleton.mp offMem
    omega
  have lengthEq : wireU16 other (pos + 8) = wireU16 wire (pos + 8) := by
    unfold wireU16
    rw [same (pos + 8) (by omega) (by omega) (by omega),
      same (pos + 8 + 1) (by omega) (by omega) (by omega)]
  constructor
  · refine ⟨?_, afterName, by rw [lengthEq, span.next_eq], by rw [sameLength]; exact span.inside⟩
    exact skipWireName_congr span.name sameLength.ge fun index above below =>
      same index above (by omega) (by omega)
  · unfold isOptRecord wireU16
    rw [sameLength, same start (by omega) (by omega) (by omega)]
    by_cases root : wireOctet wire start = 0
    · have posEq := span.pos_of_root root
      rw [same (start + 1) (by omega) (by omega) (by omega),
        same (start + 1 + 1) (by omega) (by omega) (by omega)]
    · rw [beq_false_of_ne root]
      simp

theorem scanRecords_succ_eq_ok :
    scanRecords wire (count + 1) start = .ok (offsets, next) ↔
      ∃ own middle later, scanRecord wire start = .ok (own, middle) ∧
        scanRecords wire count middle = .ok (later, next) ∧ offsets = own ++ later := by
  rw [scanRecords]
  rcases scanRecord wire start with error | ⟨own, middle⟩
  · simp [bind, Except.bind]
  · rcases rest : scanRecords wire count middle with error | ⟨later, final⟩
    · simp [bind, Except.bind, rest]
    · simp only [bind, Except.bind, rest, Except.ok.injEq, Prod.mk.injEq]
      constructor
      · rintro ⟨rfl, rfl⟩
        exact ⟨own, middle, later, ⟨rfl, rfl⟩, rest, rfl⟩
      · rintro ⟨_, _, later', ⟨rfl, rfl⟩, rest', rfl⟩
        rw [rest] at rest'
        cases rest'
        exact ⟨rfl, rfl⟩

/-- The TTL fields of some records lie apart, each behind a name and six octets
before the end of its record. -/
theorem scanRecords_fields (scanned : scanRecords wire count start = .ok (offsets, next)) :
    start ≤ next ∧ (count ≠ 0 → next ≤ wire.length) ∧
      offsets.Pairwise (fun first second => first + 11 ≤ second) ∧
      ∀ off ∈ offsets, start + 5 ≤ off ∧ off + 6 ≤ next := by
  induction count generalizing start offsets with
  | zero =>
      cases scanned
      exact ⟨le_refl _, by simp, .nil, by simp⟩
  | succ count ih =>
      obtain ⟨own, middle, later, first, rest, rfl⟩ := scanRecords_succ_eq_ok.mp scanned
      obtain ⟨pos, span, ownEq⟩ := scanRecord_eq_ok first
      obtain ⟨above, inside, gaps, bounds⟩ := ih rest
      have afterName := span.after_name
      have middleEq := span.next_eq
      have ownFields : ∀ off ∈ own, off = pos + 4 := by
        intro off offMem
        rw [ownEq] at offMem
        split_ifs at offMem
        · cases offMem
        · exact List.mem_singleton.mp offMem
      have ownGaps : own.Pairwise fun first second => first + 11 ≤ second := by
        rw [ownEq]
        split_ifs
        · exact .nil
        · exact List.pairwise_singleton _ _
      refine ⟨by omega, fun _ => ?_, ?_, ?_⟩
      · rcases Nat.eq_zero_or_pos count with none | some
        · subst none
          cases rest
          exact span.inside
        · exact inside (by omega)
      · refine List.pairwise_append.mpr ⟨ownGaps, gaps, ?_⟩
        intro off offMem other otherMem
        have := ownFields off offMem
        have := bounds other otherMem
        omega
      · intro off offMem
        rcases List.mem_append.mp offMem with isOwn | isLater
        · have := ownFields off isOwn
          omega
        · have := bounds off isLater
          omega

theorem AgreeOn.mono {first last : Nat} {fields : List Nat}
    (agree : AgreeOn wire other start next fields) (above : start ≤ first) (below : last ≤ next)
    (outside : ∀ index, first ≤ index → index < last → ¬ InFields offsets index →
      ¬ InFields fields index) : AgreeOn wire other first last offsets := by
  intro index isAbove isBelow notInside
  exact agree index (by omega) (by omega) (outside index isAbove isBelow notInside)

/-- Another message that differs in the TTL fields only scans alike. -/
theorem scanRecords_congr (scanned : scanRecords wire count start = .ok (offsets, next))
    (sameLength : other.length = wire.length) (agree : AgreeOn wire other start next offsets) :
    scanRecords other count start = .ok (offsets, next) := by
  induction count generalizing start offsets with
  | zero =>
      cases scanned
      rfl
  | succ count ih =>
      obtain ⟨own, middle, later, first, rest, rfl⟩ := scanRecords_succ_eq_ok.mp scanned
      obtain ⟨pos, span, ownEq⟩ := scanRecord_eq_ok first
      obtain ⟨above, -, -, bounds⟩ := scanRecords_fields rest
      have afterName := span.after_name
      have middleEq := span.next_eq
      have ownAgree : AgreeOn wire other start middle [pos + 4] := by
        refine agree.mono (le_refl _) above fun index _ below notOwn => ?_
        rintro ⟨off, offMem, isInside⟩
        rcases List.mem_append.mp offMem with isOwn | isLater
        · rw [ownEq] at isOwn
          split_ifs at isOwn
          · cases isOwn
          · exact notOwn ⟨off, isOwn, isInside⟩
        · have := bounds off isLater
          omega
      have laterAgree : AgreeOn wire other middle next later := by
        refine agree.mono (by omega) (le_refl _) fun index isAbove _ notLater => ?_
        rintro ⟨off, offMem, isInside⟩
        rcases List.mem_append.mp offMem with isOwn | isLater
        · rw [ownEq] at isOwn
          split_ifs at isOwn
          · cases isOwn
          · obtain rfl := List.mem_singleton.mp isOwn
            omega
        · exact notLater ⟨off, isLater, isInside⟩
      obtain ⟨otherSpan, sameOpt⟩ := span.congr sameLength ownAgree
      have otherFirst := otherSpan.scanRecord_eq
      rw [sameOpt, ← ownEq] at otherFirst
      exact scanRecords_succ_eq_ok.mpr
        ⟨own, middle, later, otherFirst, ih rest laterAgree, rfl⟩

theorem skipQuestions_succ_eq_ok :
    skipQuestions wire (count + 1) start = .ok next ↔
      ∃ pos, skipWireName wire start = .ok pos ∧ pos + 4 ≤ wire.length ∧
        skipQuestions wire count (pos + 4) = .ok next := by
  rw [skipQuestions]
  rcases skipWireName wire start with error | pos
  · simp [bind, Except.bind]
  · simp only [bind, Except.bind, Except.ok.injEq, exists_eq_left']
    by_cases truncated : wire.length < pos + 4
    · simp [truncated, Nat.not_le.mpr truncated]
    · simp [truncated, Nat.not_lt.mp truncated]

theorem skipQuestions_ge (skipped : skipQuestions wire count start = .ok next) :
    start ≤ next := by
  induction count generalizing start with
  | zero =>
      cases skipped
      exact le_refl _
  | succ count ih =>
      obtain ⟨pos, named, -, later⟩ := skipQuestions_succ_eq_ok.mp skipped
      have := skipLabels_gt named
      have := ih later
      omega

theorem skipQuestions_congr (skipped : skipQuestions wire count start = .ok next)
    (sameLength : other.length = wire.length)
    (agree : ∀ index, start ≤ index → index < next → wireOctet other index = wireOctet wire index) :
    skipQuestions other count start = .ok next := by
  induction count generalizing start with
  | zero =>
      cases skipped
      rfl
  | succ count ih =>
      obtain ⟨pos, named, inside, later⟩ := skipQuestions_succ_eq_ok.mp skipped
      have afterName := skipLabels_gt named
      have afterQuestion := skipQuestions_ge later
      refine skipQuestions_succ_eq_ok.mpr ⟨pos, ?_, by omega, ih later fun index above below =>
        agree index (by omega) below⟩
      exact skipWireName_congr named sameLength.ge fun index above below =>
        agree index above (by omega)

/-- The sections that an accepted message is made of. -/
structure Sections (wire : List UInt8) (answers authorities additionals : List Nat)
    (first second third last : Nat) : Prop where
  header : 12 ≤ wire.length
  questions : skipQuestions wire (wireU16 wire 4).toNat 12 = .ok first
  answers : scanRecords wire (wireU16 wire 6).toNat first = .ok (answers, second)
  authorities : scanRecords wire (wireU16 wire 8).toNat second = .ok (authorities, third)
  additionals : scanRecords wire (wireU16 wire 10).toNat third = .ok (additionals, last)

theorem scanTtlOffsets_eq_ok_iff {scanned : WireMeta} :
    scanTtlOffsets wire = .ok scanned ↔
      ∃ answers authorities additionals first second third last,
        Sections wire answers authorities additionals first second third last ∧
          scanned = ⟨answers ++ authorities ++ additionals, answers.length⟩ := by
  unfold scanTtlOffsets
  constructor
  · intro accepted
    split_ifs at accepted with short
    rcases questions : skipQuestions wire (wireU16 wire 4).toNat 12 with error | first
    · simp [questions, bind, Except.bind] at accepted
    rcases answers : scanRecords wire (wireU16 wire 6).toNat first with error | ⟨answer, second⟩
    · simp [questions, answers, bind, Except.bind] at accepted
    rcases authorities : scanRecords wire (wireU16 wire 8).toNat second with
      error | ⟨authority, third⟩
    · simp [questions, answers, authorities, bind, Except.bind] at accepted
    rcases additionals : scanRecords wire (wireU16 wire 10).toNat third with
      error | ⟨additional, last⟩
    · simp [questions, answers, authorities, additionals, bind, Except.bind] at accepted
    simp only [questions, answers, authorities, additionals, bind, Except.bind,
      Except.ok.injEq] at accepted
    exact ⟨answer, authority, additional, first, second, third, last,
      ⟨by omega, questions, answers, authorities, additionals⟩, accepted.symm⟩
  · rintro ⟨answers, authorities, additionals, first, second, third, last, sections, rfl⟩
    rw [if_neg (Nat.not_lt.mpr sections.header)]
    simp [sections.questions, sections.answers, sections.authorities, sections.additionals,
      bind, Except.bind]

namespace Sections

variable {answers authorities additionals : List Nat} {first second third last : Nat}

theorem fields (sections : Sections wire answers authorities additionals first second third last) :
    (answers ++ authorities ++ additionals).Pairwise (fun off later => off + 11 ≤ later) ∧
      (∀ off ∈ answers ++ authorities ++ additionals, first + 5 ≤ off ∧ off + 4 ≤ wire.length) ∧
      12 ≤ first := by
  have afterQuestions := skipQuestions_ge sections.questions
  obtain ⟨answersAbove, answersInside, answersGaps, answersBounds⟩ :=
    scanRecords_fields sections.answers
  obtain ⟨authoritiesAbove, authoritiesInside, authoritiesGaps, authoritiesBounds⟩ :=
    scanRecords_fields sections.authorities
  obtain ⟨additionalsAbove, additionalsInside, additionalsGaps, additionalsBounds⟩ :=
    scanRecords_fields sections.additionals
  have counted : ∀ {count start next : Nat} {offsets : List Nat} {off : Nat},
      scanRecords wire count start = .ok (offsets, next) → off ∈ offsets → count ≠ 0 := by
    rintro count start next offsets off scanned offMem rfl
    cases scanned
    cases offMem
  refine ⟨?_, ?_, afterQuestions⟩
  · refine List.pairwise_append.mpr
      ⟨List.pairwise_append.mpr ⟨answersGaps, authoritiesGaps, ?_⟩, additionalsGaps, ?_⟩
    · intro off offMem later laterMem
      have := answersBounds off offMem
      have := authoritiesBounds later laterMem
      omega
    · intro off offMem later laterMem
      have := additionalsBounds later laterMem
      rcases List.mem_append.mp offMem with inAnswers | inAuthorities
      · have := answersBounds off inAnswers
        omega
      · have := authoritiesBounds off inAuthorities
        omega
  · intro off offMem
    rw [List.append_assoc, List.mem_append, List.mem_append] at offMem
    rcases offMem with inAnswers | inAuthorities | inAdditionals
    · have := answersBounds off inAnswers
      have := answersInside (counted sections.answers inAnswers)
      omega
    · have := authoritiesBounds off inAuthorities
      have := authoritiesInside (counted sections.authorities inAuthorities)
      omega
    · have := additionalsBounds off inAdditionals
      have := additionalsInside (counted sections.additionals inAdditionals)
      omega

/-- A message that differs in the identifier and in the TTL fields has the same
sections. -/
theorem congr (sections : Sections wire answers authorities additionals first second third last)
    (sameLength : other.length = wire.length)
    (agree : ∀ index, 2 ≤ index → ¬ InFields (answers ++ authorities ++ additionals) index →
      wireOctet other index = wireOctet wire index) :
    Sections other answers authorities additionals first second third last := by
  obtain ⟨-, bounds, afterHeader⟩ := sections.fields
  obtain ⟨answersAbove, -, -, answersBounds⟩ := scanRecords_fields sections.answers
  obtain ⟨authoritiesAbove, -, -, authoritiesBounds⟩ := scanRecords_fields sections.authorities
  obtain ⟨-, -, -, additionalsBounds⟩ := scanRecords_fields sections.additionals
  have before : ∀ index, 2 ≤ index → index < first →
      wireOctet other index = wireOctet wire index := by
    intro index above below
    apply agree index above
    rintro ⟨off, offMem, isInside⟩
    have := bounds off offMem
    omega
  have counts : ∀ index, 4 ≤ index → index < 11 → wireU16 other index = wireU16 wire index := by
    intro index above below
    unfold wireU16
    rw [before index (by omega) (by omega), before (index + 1) (by omega) (by omega)]
  have member : ∀ off, off ∈ answers ++ authorities ++ additionals →
      off ∈ answers ∧ off + 6 ≤ second ∨
        off ∈ authorities ∧ second + 5 ≤ off ∧ off + 6 ≤ third ∨
        off ∈ additionals ∧ third + 5 ≤ off := by
    intro off offMem
    rw [List.append_assoc, List.mem_append, List.mem_append] at offMem
    exact offMem.imp (fun mem => ⟨mem, (answersBounds off mem).2⟩)
      (Or.imp (fun mem => ⟨mem, authoritiesBounds off mem⟩)
        fun mem => ⟨mem, (additionalsBounds off mem).1⟩)
  refine ⟨sameLength ▸ sections.header, ?_, ?_, ?_, ?_⟩
  · rw [counts 4 (by omega) (by omega)]
    exact skipQuestions_congr sections.questions sameLength fun index above below =>
      before index (by omega) below
  · rw [counts 6 (by omega) (by omega)]
    refine scanRecords_congr sections.answers sameLength fun index above below notInside => ?_
    apply agree index (by omega)
    rintro ⟨off, offMem, isInside⟩
    rcases member off offMem with ⟨mem, -⟩ | ⟨-, bounds⟩ | ⟨-, bounds⟩
    · exact notInside ⟨off, mem, isInside⟩
    · omega
    · omega
  · rw [counts 8 (by omega) (by omega)]
    refine scanRecords_congr sections.authorities sameLength fun index above below notInside => ?_
    apply agree index (by omega)
    rintro ⟨off, offMem, isInside⟩
    rcases member off offMem with ⟨-, bounds⟩ | ⟨mem, -⟩ | ⟨-, bounds⟩
    · omega
    · exact notInside ⟨off, mem, isInside⟩
    · omega
  · rw [counts 10 (by omega) (by omega)]
    refine scanRecords_congr sections.additionals sameLength fun index above below notInside => ?_
    apply agree index (by omega)
    rintro ⟨off, offMem, isInside⟩
    rcases member off offMem with ⟨-, bounds⟩ | ⟨-, bounds⟩ | ⟨mem, -⟩
    · omega
    · omega
    · exact notInside ⟨off, mem, isInside⟩

end Sections

/-- What an accepted message looks like after the patches of a lookup. -/
structure Patched (wire : List UInt8) (newId : UInt16) (newTtl : UInt32) (scanned : WireMeta)
    (after : List UInt8) : Prop where
  length_eq : after.length = wire.length
  id : ∀ index, index < 2 → wireOctet after index = (beBytes16 newId).getD index 0
  ttl : ∀ off ∈ scanned.ttlOffsets, ∀ index, index < 4 →
    wireOctet after (off + index) = (beBytes32 newTtl).getD index 0
  outside : ∀ index, 2 ≤ index → ¬ InFields scanned.ttlOffsets index →
    wireOctet after index = wireOctet wire index
  rescanned : scanTtlOffsets after = .ok scanned

/-- The patches stay inside an accepted message. -/
theorem exists_patchWire {scanned : WireMeta} (accepted : scanTtlOffsets wire = .ok scanned)
    (newId : UInt16) (newTtl : UInt32) :
    ∃ after, patchWire newId newTtl scanned wire = some after ∧
      Patched wire newId newTtl scanned after := by
  obtain ⟨answers, authorities, additionals, first, second, third, last, sections, rfl⟩ :=
    scanTtlOffsets_eq_ok_iff.mp accepted
  obtain ⟨gaps, bounds, afterHeader⟩ := sections.fields
  have apart : Apart (answers ++ authorities ++ additionals) :=
    gaps.imp fun gap => by omega
  have header := sections.header
  have idFits : 0 + (beBytes16 newId).length ≤ wire.length := by
    change 0 + 2 ≤ wire.length
    omega
  obtain ⟨middle, idPatched, overwritten⟩ := exists_setOctets idFits
  have ttlsFit : ∀ off ∈ answers ++ authorities ++ additionals, off + 4 ≤ middle.length := by
    rw [overwritten.length_eq]
    exact fun off offMem => (bounds off offMem).2
  obtain ⟨after, ttlsPatched, patched⟩ := exists_patchTtls newTtl apart ttlsFit
  have sameLength : after.length = wire.length := patched.length_eq.trans overwritten.length_eq
  have outside : ∀ index, 2 ≤ index → ¬ InFields (answers ++ authorities ++ additionals) index →
      wireOctet after index = wireOctet wire index := by
    intro index above notInside
    rw [patched.outside index notInside]
    exact overwritten.outside index (.inr (by change 0 + 2 ≤ index; omega))
  refine ⟨after, ?_, sameLength, ?_, patched.inside, outside, ?_⟩
  · rw [patchWire, patchId, idPatched]
    exact ttlsPatched
  · intro index below
    have notInside : ¬ InFields (answers ++ authorities ++ additionals) index := by
      rintro ⟨off, offMem, isInside⟩
      have := bounds off offMem
      omega
    have inside := overwritten.inside index below
    rw [Nat.zero_add] at inside
    rw [patched.outside index notInside, inside]
  · exact scanTtlOffsets_eq_ok_iff.mpr
      ⟨answers, authorities, additionals, first, second, third, last,
        sections.congr sameLength outside, rfl⟩

end Scan

/-! ## Lookups -/

/-- The positions that `insert_wire` stores beside the octets. -/
def CacheEntry.scanned (entry : CacheEntry) : WireMeta :=
  (scanTtlOffsets entry.wire.octets).toOption.getD ⟨[], 0⟩

namespace DnsCache

/-- `lookup_wire` with the octets it returns; the outer `none` is a panic. -/
def lookupOctets (cache : DnsCache) (now : Nat) (domain : Text) (qtype : QueryType)
    (newId : UInt16) : Option (Option (List UInt8 × DnssecStatus × Freshness)) :=
  match cache.entry domain qtype with
  | none => some none
  | some entry =>
    match remaining entry now with
    | none => some none
    | some (ttl, freshness) =>
      (patchWire newId ttl entry.scanned entry.wire.octets).map fun wire =>
        some (wire, entry.dnssecStatus, freshness)

/-- Every stored message has been accepted by the scan. -/
def Accepted (cache : DnsCache) : Prop :=
  ∀ domain qtype entry, cache.entry domain qtype = some entry →
    ∃ scanned, scanTtlOffsets entry.wire.octets = .ok scanned

theorem accepted_new (maxEntries : Nat) (minTtl maxTtl : UInt32) :
    (new maxEntries minTtl maxTtl).Accepted := by
  intro domain qtype entry isEntry
  cases isEntry

variable (toLowercase : Text → Text)

theorem accepted_applyAll {cache after : DnsCache} {operations : List (Nat × Operation)}
    (accepted : cache.Accepted) (applied : cache.applyAll toLowercase operations = some after) :
    after.Accepted := by
  apply entry_applyAll (fun entry => ∃ scanned, scanTtlOffsets entry.wire.octets = .ok scanned)
    applied _ accepted
  intro now octets status scans
  change ∃ scanned, scanTtlOffsets octets = .ok scanned
  cases found : scanTtlOffsets octets with
  | error error =>
      rw [found] at scans
      cases scans
  | ok scanned => exact ⟨scanned, rfl⟩

theorem lookupOctets_isSome {cache : DnsCache} (accepted : cache.Accepted) (now : Nat)
    (domain : Text) (qtype : QueryType) (newId : UInt16) :
    (cache.lookupOctets now domain qtype newId).isSome = true := by
  unfold lookupOctets
  split
  · rfl
  · rename_i entry isEntry
    split
    · rfl
    · obtain ⟨scanned, found⟩ := accepted domain qtype entry isEntry
      have scannedEq : entry.scanned = scanned := by
        simp [CacheEntry.scanned, found, Except.toOption]
      obtain ⟨after, patched, -⟩ := exists_patchWire found newId _
      rw [scannedEq, patched]
      rfl

/-- The positions found in a message lie apart and inside it, the patches change
the identifier and the TTL fields at these positions and nothing else, and no
lookup in a cache that was filled by any operations panics. -/
theorem scan_patch_safe :
    (∀ wire scanned, scanTtlOffsets wire = .ok scanned →
      scanned.ttlOffsets.Pairwise (fun off later => off + 11 ≤ later) ∧
        (∀ off ∈ scanned.ttlOffsets, 12 ≤ off ∧ off + 4 ≤ wire.length) ∧
        scanned.answerCount ≤ scanned.ttlOffsets.length ∧
        ∀ newId newTtl, ∃ after, patchWire newId newTtl scanned wire = some after ∧
          Patched wire newId newTtl scanned after) ∧
    ∀ maxEntries minTtl maxTtl operations cache,
      (new maxEntries minTtl maxTtl).applyAll toLowercase operations = some cache →
        ∀ now domain qtype newId, (cache.lookupOctets now domain qtype newId).isSome = true := by
  refine ⟨fun wire scanned accepted => ?_, ?_⟩
  · refine ⟨?_, ?_, ?_, exists_patchWire accepted⟩
    all_goals
      obtain ⟨answers, authorities, additionals, first, second, third, last, sections, rfl⟩ :=
        scanTtlOffsets_eq_ok_iff.mp accepted
      obtain ⟨gaps, bounds, afterHeader⟩ := sections.fields
    · exact gaps
    · intro off offMem
      have := bounds off offMem
      omega
    · simp only [List.length_append]
      omega
  · intro maxEntries minTtl maxTtl operations cache ran now domain qtype newId
    exact lookupOctets_isSome
      (accepted_applyAll toLowercase (accepted_new maxEntries minTtl maxTtl) ran) now domain qtype
      newId

/-- A response with one address record of root. -/
def rootAddressWire : List UInt8 :=
  [0, 0, 0x81, 0x80, 0, 0, 0, 1, 0, 0, 0, 0, 0, 0, 1, 0, 1, 0, 0, 1, 0x2C, 0, 4, 192, 0, 2, 1]

theorem scan_patch_safe_rootAddressWire :
    [17].Pairwise (fun off later => off + 11 ≤ later) ∧
      ∃ after, patchWire 7 60 ⟨[17], 1⟩ rootAddressWire = some after ∧
        Patched rootAddressWire 7 60 ⟨[17], 1⟩ after := by
  obtain ⟨gaps, -, -, patches⟩ :=
    (scan_patch_safe Text.toLowercase).1 rootAddressWire ⟨[17], 1⟩ (by decide +kernel)
  exact ⟨gaps, patches 7 60⟩

end DnsCache

end Numa
