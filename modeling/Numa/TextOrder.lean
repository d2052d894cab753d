import Numa.CanonicalName
import Numa.CanonicalWire
import Numa.LexicographicOrder

/-!
# The order of names and of their texts

`canonical_dns_name_order` compares the texts of two names, cut at their dots.
A text shows an octet as itself or behind a backslash, so octets are ordered as
their texts only in part, and a label with a dot falls into pieces.
-/

namespace Numa

/-! ## Octets -/

/-- An octet that a text shows by its number. -/
def isUnprintable (octet : UInt8) : Bool :=
  octet < 0x21 || 0x7E < octet

/-- Two octets whose texts are ordered as they are: both are shown by their
numbers or neither is, or the printable one is on its side of the backslash. -/
def InTextOrder (first second : UInt8) : Prop :=
  isUnprintable first = isUnprintable second ∨
    (first < 0x21 ∧ backslash ≤ second) ∨ (second < 0x21 ∧ backslash ≤ first) ∨
    (first < backslash ∧ 0x7E < second) ∨ (second < backslash ∧ 0x7E < first)

instance (first second : UInt8) : Decidable (InTextOrder first second) :=
  inferInstanceAs (Decidable (_ ∨ _))

theorem compare_eq_compare_iff {first second third fourth : UInt8} (different : first ≠ second)
    (other : third ≠ fourth) :
    compare first second = compare third fourth ↔ (first < second ↔ third < fourth) := by
  rw [← Std.compare_eq_lt, ← Std.compare_eq_lt]
  have firsts : compare first second ≠ .eq := fun same => different (Std.compare_eq_iff_eq.mp same)
  have others : compare third fourth ≠ .eq := fun same => other (Std.compare_eq_iff_eq.mp same)
  revert firsts others
  cases compare first second <;> cases compare third fourth <;> simp

/-- The number of an octet in three digits. -/
def digits (octet : UInt8) : Text :=
  [0x30 + octet / 100, 0x30 + octet / 10 % 10, 0x30 + octet % 10]

theorem toNat_digits (octet : UInt8) :
    (0x30 + octet / 100).toNat = 48 + octet.toNat / 100 ∧
      (0x30 + octet / 10 % 10).toNat = 48 + octet.toNat / 10 % 10 ∧
      (0x30 + octet % 10).toNat = 48 + octet.toNat % 10 := by
  have := octet.toNat_lt
  simp only [UInt8.toNat_add, UInt8.toNat_div, UInt8.toNat_mod, UInt8.reduceToNat]
  omega

theorem compare_digits (first second : UInt8) :
    compare (digits first) (digits second) = compare first second := by
  obtain ⟨firstHundreds, firstTens, firstOnes⟩ := toNat_digits first
  obtain ⟨secondHundreds, secondTens, secondOnes⟩ := toNat_digits second
  have hundreds : ∀ number : Nat, number / 100 = number / 10 / 10 := fun number => by omega
  have none : (compare ([] : List UInt8) []) = .eq := rfl
  rw [digits, digits, List.compare_cons_cons, List.compare_cons_cons, List.compare_cons_cons, none,
    Ordering.then_eq, compare_uInt8, compare_uInt8, compare_uInt8, firstHundreds, firstTens,
    firstOnes, secondHundreds, secondTens, secondOnes, compare_add_left, compare_add_left,
    compare_add_left, hundreds, hundreds, ← Ordering.then_assoc, compare_div_then_mod,
    compare_div_then_mod, compare_uInt8]

/-- The octet that the text of an octet begins with. -/
def lead (octet : UInt8) : UInt8 :=
  if isUnprintable octet then backslash else octet

/-- The text of an octet other than a dot. -/
theorem octetText_eq_lead {octet : UInt8} (lower : toAsciiLowercase octet = octet)
    (notDot : octet ≠ dot) :
    ∃ rest, octetText octet = lead octet :: rest ∧
      (isUnprintable octet = true → rest = digits octet) ∧
      (octet = backslash → rest = [backslash]) := by
  rw [octetText]
  simp only [lower, if_neg notDot]
  by_cases isBackslash : octet = backslash
  · subst isBackslash
    exact ⟨[backslash], rfl, fun shown => absurd shown (by decide), fun _ => rfl⟩
  · rw [if_neg isBackslash]
    by_cases printable : 0x21 ≤ octet ∧ octet ≤ 0x7E
    · have shown : isUnprintable octet = false := by simpa [isUnprintable] using printable
      refine ⟨[], ?_, fun hidden => by simp [shown] at hidden, fun same => absurd same isBackslash⟩
      rw [if_pos printable, lead, shown]
      rfl
    · have hidden : isUnprintable octet = true := by
        rw [not_and_or, UInt8.not_le, UInt8.not_le] at printable
        simpa [isUnprintable] using printable
      refine ⟨digits octet, ?_, fun _ => rfl, fun same => absurd same isBackslash⟩
      rw [if_neg printable, lead, if_pos hidden, digits]

theorem isUnprintable_iff {octet : UInt8} :
    isUnprintable octet = true ↔ octet.toNat < 0x21 ∨ 0x7E < octet.toNat := by
  simp [isUnprintable, UInt8.lt_iff_toNat_lt]

theorem bounds_of_shown {octet : UInt8} (shown : isUnprintable octet = false) :
    0x21 ≤ octet.toNat ∧ octet.toNat ≤ 0x7E := by
  have := mt isUnprintable_iff.mpr (by simp [shown] : ¬ isUnprintable octet = true)
  omega

theorem inTextOrder_iff {first second : UInt8} :
    InTextOrder first second ↔ isUnprintable first = isUnprintable second ∨
      (first.toNat < 0x21 ∧ 0x5C ≤ second.toNat) ∨ (second.toNat < 0x21 ∧ 0x5C ≤ first.toNat) ∨
      (first.toNat < 0x5C ∧ 0x7E < second.toNat) ∨ (second.toNat < 0x5C ∧ 0x7E < first.toNat) := by
  simp [InTextOrder, UInt8.lt_iff_toNat_lt, UInt8.le_iff_toNat_le, backslash]

/-- A number is in front of a backslash. -/
theorem compare_digits_backslash (octet : UInt8) :
    compare (digits octet) [backslash] = .lt ∧ compare [backslash] (digits octet) = .gt := by
  have small := (toNat_digits octet).1
  have bound := octet.toNat_lt
  have less : 0x30 + octet / 100 < backslash := by
    rw [UInt8.lt_iff_toNat_lt, small]
    simp [backslash]
    omega
  have below := Std.compare_eq_lt.mpr less
  have above := Std.compare_eq_gt.mpr less
  rw [digits, List.compare_cons_cons, List.compare_cons_cons, below, above]
  exact ⟨rfl, rfl⟩

/-- The texts of two octets are ordered as the octets iff both are on their
sides of the backslash. -/
theorem compare_octetText_iff {first second : UInt8} (different : first ≠ second)
    (firstLower : toAsciiLowercase first = first) (secondLower : toAsciiLowercase second = second)
    (firstNotDot : first ≠ dot) (secondNotDot : second ≠ dot) :
    compare (octetText first) (octetText second) = compare first second ↔
      InTextOrder first second := by
  obtain ⟨firstRest, firstEq, firstDigits, firstEscape⟩ := octetText_eq_lead firstLower firstNotDot
  obtain ⟨secondRest, secondEq, secondDigits, secondEscape⟩ :=
    octetText_eq_lead secondLower secondNotDot
  have numbers : first.toNat ≠ second.toNat := fun same => different (UInt8.toNat_inj.mp same)
  rw [firstEq, secondEq]
  have escape : backslash.toNat = 0x5C := rfl
  rw [inTextOrder_iff]
  by_cases sameLead : lead first = lead second
  · have same : compare (lead first) (lead second) = .eq := Std.compare_eq_iff_eq.mpr sameLead
    rw [List.compare_cons_cons, same, Ordering.eq_then]
    cases firstShown : isUnprintable first <;> cases secondShown : isUnprintable second <;>
      simp only [lead, firstShown, secondShown, if_true, if_false, Bool.false_eq_true] at sameLead
    · exact absurd sameLead different
    · subst sameLead
      have hidden := isUnprintable_iff.mp secondShown
      rw [firstEscape rfl, secondDigits secondShown, (compare_digits_backslash second).2, eq_comm,
        Std.compare_eq_gt, UInt8.lt_iff_toNat_lt]
      simp only [Bool.false_eq_true, false_or]
      omega
    · subst sameLead
      have hidden := isUnprintable_iff.mp firstShown
      rw [secondEscape rfl, firstDigits firstShown, (compare_digits_backslash first).1, eq_comm,
        Std.compare_eq_lt, UInt8.lt_iff_toNat_lt]
      simp only [Bool.true_eq_false, false_or]
      omega
    · rw [firstDigits firstShown, secondDigits secondShown, compare_digits]
      simp
  · have leadsDiffer : compare (lead first) (lead second) ≠ .eq := fun same =>
      sameLead (Std.compare_eq_iff_eq.mp same)
    have leadNumbers : (lead first).toNat ≠ (lead second).toNat := fun same =>
      sameLead (UInt8.toNat_inj.mp same)
    rw [compare_cons_of_ne _ _ leadsDiffer, compare_eq_compare_iff sameLead different,
      UInt8.lt_iff_toNat_lt, UInt8.lt_iff_toNat_lt]
    cases firstShown : isUnprintable first <;> cases secondShown : isUnprintable second <;>
      simp only [lead, firstShown, secondShown, if_true, if_false, Bool.false_eq_true, escape]
        at leadNumbers ⊢
    · simp
    · have shown := bounds_of_shown firstShown
      have hidden := isUnprintable_iff.mp secondShown
      simp only [false_or]
      omega
    · have hidden := isUnprintable_iff.mp firstShown
      have shown := bounds_of_shown secondShown
      simp only [Bool.true_eq_false, false_or]
      omega
    · exact absurd rfl leadNumbers

/-! ## Labels -/

/-- The texts of different octets differ before either ends. -/
theorem octetText_differAt {first second : UInt8} (different : first ≠ second)
    (firstLower : toAsciiLowercase first = first) (secondLower : toAsciiLowercase second = second) :
    ∃ item other, DifferAt (octetText first) (octetText second) item other := by
  rcases prefix_or_differAt (octetText first) (octetText second) with
      ⟨rest, same⟩ | ⟨rest, same⟩ | differ
  · rw [← List.append_nil (octetText second)] at same
    exact absurd (octetText_append_inj firstLower secondLower same).1 different
  · rw [← List.append_nil (octetText first)] at same
    exact absurd (octetText_append_inj secondLower firstLower same).1.symm different
  · exact differ

/-- A label is ordered against one that continues it as in their texts. -/
theorem compare_labelText_of_begins {first second : List UInt8} (goesOn : first <+: second) :
    compare (labelText first) (labelText second) = compare first second := by
  obtain ⟨rest, rfl⟩ := goesOn
  rw [labelText_append]
  by_cases whole : rest = []
  · subst whole
    simp [labelText]
  · obtain ⟨head, tail, restEq, -⟩ := labelText_eq_cons whole
    rw [compare_append_of_ne_nil first whole,
      compare_append_of_ne_nil (labelText first) (by simp [restEq])]

section Labels

variable {first second : List UInt8}
  (firstLower : ∀ octet ∈ first, toAsciiLowercase octet = octet)
  (secondLower : ∀ octet ∈ second, toAsciiLowercase octet = octet)

include firstLower secondLower

/-- Labels that differ at two octets are ordered in their texts as the texts of
the two. -/
theorem compare_labelText_of_differAt {item other : UInt8}
    (differ : DifferAt first second item other) :
    compare (labelText first) (labelText second) = compare (octetText item) (octetText other) := by
  obtain ⟨different, common, firsts, seconds, rfl, rfl⟩ := differ
  obtain ⟨shown, otherShown, textsDiffer⟩ :=
    octetText_differAt different (firstLower item (by simp)) (secondLower other (by simp))
  have labelsDiffer : DifferAt (labelText (common ++ item :: firsts))
      (labelText (common ++ other :: seconds)) shown otherShown := by
    simp only [labelText, List.flatMap_append, List.flatMap_cons]
    exact (textsDiffer.append _ _).append_left _
  rw [labelsDiffer.compare_eq, textsDiffer.compare_eq]

theorem compare_labelText_iff (firstNoDot : dot ∉ first) (secondNoDot : dot ∉ second) :
    compare (labelText first) (labelText second) = compare first second ↔
      ∀ item other, DifferAt first second item other → InTextOrder item other := by
  rcases prefix_or_differAt first second with shorter | longer | ⟨item, other, differ⟩
  · refine iff_of_true (compare_labelText_of_begins shorter) fun item other differ => ?_
    exact absurd shorter differ.not_begins
  · refine iff_of_true ?_ fun item other differ => absurd longer differ.symm.not_begins
    rw [Std.OrientedOrd.eq_swap, compare_labelText_of_begins longer,
      ← Std.OrientedOrd.eq_swap]
  · have different := differ.1
    obtain ⟨-, common, firsts, seconds, firstEq, secondEq⟩ := id differ
    have itemMem : item ∈ first := by simp [firstEq]
    have otherMem : other ∈ second := by simp [secondEq]
    rw [compare_labelText_of_differAt firstLower secondLower differ, differ.compare_eq,
      compare_octetText_iff different (firstLower item itemMem) (secondLower other otherMem)
        (ne_of_mem_of_not_mem itemMem firstNoDot) (ne_of_mem_of_not_mem otherMem secondNoDot)]
    constructor
    · intro inOrder next last again
      obtain ⟨rfl, rfl⟩ := differ.unique again
      exact inOrder
    · intro inOrder
      exact inOrder item other differ

end Labels

/-! ## Names -/

theorem labels_append_dot (first rest : Text) :
    Text.labels (first ++ dot :: rest) = first.labels ++ rest.labels := by
  rw [Text.labels, List.splitOn_append_cons_self, List.filter_append]
  rfl

theorem labels_of_not_mem {name : Text} (nonempty : name ≠ []) (noDot : dot ∉ name) :
    name.labels = [name] := by
  rw [Text.labels, List.splitOn_eq_singleton noDot]
  simp [nonempty]

theorem labels_ne_nil {head : UInt8} (notDot : head ≠ dot) (rest : Text) :
    Text.labels (head :: rest) ≠ [] := by
  by_cases hasDot : dot ∈ rest
  · obtain ⟨first, later, rfl, noDot⟩ := List.eq_append_cons_of_mem hasDot
    have none : dot ∉ head :: first := by
      simp [noDot, Ne.symm notDot]
    rw [← List.cons_append, labels_append_dot, labels_of_not_mem (List.cons_ne_nil _ _) none]
    simp
  · rw [labels_of_not_mem (List.cons_ne_nil _ _) (by simp [hasDot, Ne.symm notDot])]
    simp

/-- The pieces that the text of a label falls into, as they are compared, the
last one first. -/
def labelPieces (label : List UInt8) : List Text :=
  (labelText label).labels.reverse.map Text.toLowercase

theorem pieces_of_not_mem {label : List UInt8} (nonempty : label ≠ []) (noDot : dot ∉ label) :
    labelPieces label = [labelText label] := by
  obtain ⟨head, rest, labelEq, -⟩ := labelText_eq_cons nonempty
  rw [labelPieces, labels_of_not_mem (by simp [labelEq]) (not_mem_labelText noDot)]
  simp [toLowercase_labelText]

theorem pieces_ne_nil {label : List UInt8} (nonempty : label ≠ []) : labelPieces label ≠ [] := by
  obtain ⟨head, rest, labelEq, notDot⟩ := labelText_eq_cons nonempty
  simp [labelPieces, labelEq, labels_ne_nil notDot]

/-- The text of a name falls into the pieces of its labels. -/
theorem labels_nameText (name : Name) :
    (nameText name).labels = name.flatMap fun label => (labelText label).labels := by
  induction name with
  | nil => rfl
  | cons label name ih =>
      by_cases last : name = []
      · subst last
        simp [nameText]
      · rw [nameText_cons last, labels_append_dot, ih, List.flatMap_cons]

theorem canonicalDnsNameOrder_nameText (first second : Name) :
    canonicalDnsNameOrder (nameText first) (nameText second) =
      compare (first.reverse.flatMap labelPieces) (second.reverse.flatMap labelPieces) := by
  rw [canonicalDnsNameOrder_eq, labels_nameText, labels_nameText, List.reverse_flatMap,
    List.reverse_flatMap, List.map_flatMap, List.map_flatMap]
  rfl

/-- Labels from the root on are ordered against labels that continue them as
their pieces are. -/
theorem compare_pieces_of_begins {first second : List (List UInt8)} (proper : ProperLabels second)
    (goesOn : first <+: second) :
    compare (first.flatMap labelPieces) (second.flatMap labelPieces) = compare first second := by
  obtain ⟨rest, rfl⟩ := goesOn
  rw [List.flatMap_append]
  cases rest with
  | nil => simp
  | cons label rest =>
      have some : (label :: rest).flatMap labelPieces ≠ [] := by
        simp [pieces_ne_nil (proper label (by simp))]
      rw [compare_append_of_ne_nil first (List.cons_ne_nil label rest),
        compare_append_of_ne_nil (first.flatMap labelPieces) some]

section Names

variable {first second : List (List UInt8)} {label other : List UInt8}

/-- The first labels without dots that are different decide. -/
theorem compare_pieces_of_differAt (firstNormal : IsNormal first) (secondNormal : IsNormal second)
    (differ : DifferAt first second label other) (noDot : dot ∉ label) (otherNoDot : dot ∉ other) :
    compare (first.flatMap labelPieces) (second.flatMap labelPieces) =
      compare (labelText label) (labelText other) := by
  obtain ⟨different, common, firsts, seconds, rfl, rfl⟩ := differ
  obtain ⟨nonempty, lower⟩ := firstNormal label (by simp)
  obtain ⟨otherNonempty, otherLower⟩ := secondNormal other (by simp)
  have textsDiffer : compare (labelText label) (labelText other) ≠ .eq := by
    intro same
    have textEq := Std.LawfulEqOrd.eq_of_compare same
    rw [← List.append_nil (labelText label), ← List.append_nil (labelText other)] at textEq
    have ends : EndsLabel [] := fun head isHead => by simp at isHead
    exact different (labelText_append_inj lower otherLower ends ends textEq).1
  rw [List.flatMap_append, List.flatMap_append, compare_append_left, List.flatMap_cons,
    List.flatMap_cons, pieces_of_not_mem nonempty noDot, pieces_of_not_mem otherNonempty otherNoDot]
  exact compare_cons_of_ne _ _ textsDiffer

end Names

/-- The first labels in which two names differ, from the root, have no dot. -/
def DifferWithoutDots (first second : Name) : Prop :=
  ∀ label other, DifferAt first.reverse second.reverse label other → dot ∉ label ∧ dot ∉ other

/-- The first octets in which these labels differ are ordered as their texts. -/
def DifferInOrder (first second : Name) : Prop :=
  ∀ label other, DifferAt first.reverse second.reverse label other →
    ∀ octet next, DifferAt label other octet next → InTextOrder octet next

theorem orderOfTexts_iff {first second : Name} (firstNormal : IsNormal first)
    (secondNormal : IsNormal second) (noDots : DifferWithoutDots first second) :
    canonicalDnsNameOrder (nameText first) (nameText second) = canonicalOrder first second ↔
      DifferInOrder first second := by
  have firstReversed : IsNormal first.reverse :=
    firstNormal.of_subset (List.reverse_subset.mpr (List.Subset.refl _))
  have secondReversed : IsNormal second.reverse :=
    secondNormal.of_subset (List.reverse_subset.mpr (List.Subset.refl _))
  rw [canonicalDnsNameOrder_nameText, canonicalOrder, compareOn]
  rcases prefix_or_differAt first.reverse second.reverse with
      shorter | longer | ⟨label, other, differ⟩
  · refine iff_of_true ?_ fun label other differ => absurd shorter differ.not_begins
    exact compare_pieces_of_begins secondReversed.proper shorter
  · refine iff_of_true ?_ fun label other differ => absurd longer differ.symm.not_begins
    rw [Std.OrientedOrd.eq_swap,
      compare_pieces_of_begins firstReversed.proper longer,
      ← Std.OrientedOrd.eq_swap]
  · obtain ⟨noDot, otherNoDot⟩ := noDots label other differ
    obtain ⟨-, common, firsts, seconds, firstEq, secondEq⟩ := id differ
    rw [compare_pieces_of_differAt firstReversed secondReversed differ noDot otherNoDot,
      differ.compare_eq, compare_labelText_iff (firstReversed label (by simp [firstEq])).2
        (secondReversed other (by simp [secondEq])).2 noDot otherNoDot]
    constructor
    · intro inOrder next last again
      obtain ⟨rfl, rfl⟩ := differ.unique again
      exact inOrder
    · intro inOrder
      exact inOrder label other differ

/-! ## Texts -/

/-- A text that `read_qname` gives, and the labels of its wire form. -/
structure ReadAs (text : Text) (name : Name) : Prop where
  produced : BytePacketBuffer.Producible text
  labels : wireLabels text = some name

/-- The labels of the names are made of these octets. -/
def MadeOf (alphabet : UInt8 → Prop) (name : Name) : Prop :=
  ∀ label ∈ name, ∀ octet ∈ label, alphabet octet

open BytePacketBuffer in
theorem readAs_nameText {name : Name} (areLabels : ∀ label ∈ name, IsWireLabel label)
    (fits : (wireName name).length ≤ bufSize) : ReadAs (nameText name) name where
  produced := producible_nameText name areLabels fits
  labels := by
    rw [wireLabels, nameToWire_nameText areLabels, if_pos fits, Option.map_some,
      wireLabelsFrom_wireName areLabels]

theorem ReadAs.isNormal {text : Text} {name : Name} (read : ReadAs text name) :
    IsNormal name ∧ text = nameText name := by
  obtain ⟨areLabels, textEq⟩ := read.produced.of_wireLabels read.labels
  exact ⟨BytePacketBuffer.isNormal_of_wireLabels areLabels, textEq⟩

/-- The texts of two names are ordered canonically iff the first octets in which
they differ are in the order of their texts, given no dots there. -/
theorem ReadAs.order_iff {a b : Text} {first second : Name} (firstRead : ReadAs a first)
    (secondRead : ReadAs b second) (noDots : DifferWithoutDots first second) :
    canonicalDnsNameOrder a b = canonicalOrder first second ↔ DifferInOrder first second := by
  obtain ⟨firstNormal, rfl⟩ := firstRead.isNormal
  obtain ⟨secondNormal, rfl⟩ := secondRead.isNormal
  exact orderOfTexts_iff firstNormal secondNormal noDots

/-- All names made of these octets are ordered canonically. -/
def OrdersNamesOf (alphabet : UInt8 → Prop) : Prop :=
  ∀ a b first second, ReadAs a first → ReadAs b second → MadeOf alphabet first →
    MadeOf alphabet second → canonicalDnsNameOrder a b = canonicalOrder first second

theorem readAs_singleton {octet : UInt8} (lower : toAsciiLowercase octet = octet) :
    ReadAs (nameText [[octet]]) [[octet]] := by
  refine readAs_nameText (fun label labelMem => ?_) ?_
  · obtain rfl := List.mem_singleton.mp labelMem
    exact ⟨by simp, by simp, fun other otherMem => by rwa [List.mem_singleton.mp otherMem]⟩
  · rw [BytePacketBuffer.wireName_eq_cons, BytePacketBuffer.wireName_nil]
    simp [bufSize]

/-- A dot that ends a label is taken for one inside a label. -/
theorem not_ordersNamesOf_of_dot {alphabet : UInt8 → Prop} (hasDot : alphabet dot) :
    ¬ OrdersNamesOf alphabet := by
  intro orders
  have onlyDots : ∀ {name : Name}, (∀ label ∈ name, ∀ octet ∈ label, octet = dot) →
      MadeOf alphabet name := by
    intro name dots label labelMem octet octetMem
    rwa [dots label labelMem octet octetMem]
  have first : ReadAs (nameText [[dot], [dot]]) [[dot], [dot]] :=
    readAs_nameText (by decide) (by decide)
  have second : ReadAs (nameText [[dot, dot]]) [[dot, dot]] :=
    readAs_nameText (by decide) (by decide)
  have same := orders _ _ _ _ first second (onlyDots (by simp)) (onlyDots (by simp))
  exact absurd same (by decide +kernel)

/-- The names over an alphabet are ordered canonically iff it has no dot and its
octets are ordered as their texts. -/
theorem ordersNamesOf_iff {alphabet : UInt8 → Prop} :
    OrdersNamesOf alphabet ↔ ¬ alphabet dot ∧
      ∀ octet other, alphabet octet → alphabet other → toAsciiLowercase octet = octet →
        toAsciiLowercase other = other → InTextOrder octet other := by
  constructor
  · intro orders
    have noDot : ¬ alphabet dot := fun hasDot => not_ordersNamesOf_of_dot hasDot orders
    refine ⟨noDot, fun octet other octetIn otherIn lower otherLower => ?_⟩
    by_cases same : octet = other
    · subst same
      exact .inl rfl
    · have octets : DifferAt [octet] [other] octet other := ⟨same, [], [], [], rfl, rfl⟩
      have labels : DifferAt [[octet]] [[other]] [octet] [other] :=
        ⟨by simpa using same, [], [], [], rfl, rfl⟩
      have noDots : DifferWithoutDots [[octet]] [[other]] := by
        intro label next differ
        obtain ⟨rfl, rfl⟩ := labels.unique differ
        exact ⟨fun isDot => noDot (List.mem_singleton.mp isDot ▸ octetIn),
          fun isDot => noDot (List.mem_singleton.mp isDot ▸ otherIn)⟩
      have ordered := orders _ _ _ _ (readAs_singleton lower) (readAs_singleton otherLower)
        (by simpa [MadeOf] using octetIn) (by simpa [MadeOf] using otherIn)
      exact ((readAs_singleton lower).order_iff (readAs_singleton otherLower) noDots).mp ordered _ _
        labels _ _ octets
  · rintro ⟨noDot, inOrder⟩ a b first second firstRead secondRead firstMade secondMade
    have mems : ∀ label other, DifferAt first.reverse second.reverse label other →
        label ∈ first ∧ other ∈ second := by
      rintro label other ⟨-, common, firsts, seconds, firstEq, secondEq⟩
      exact ⟨List.mem_reverse.mp (by simp [firstEq]), List.mem_reverse.mp (by simp [secondEq])⟩
    have noDots : DifferWithoutDots first second := by
      intro label other differ
      obtain ⟨labelMem, otherMem⟩ := mems label other differ
      exact ⟨fun isDot => noDot (firstMade label labelMem dot isDot),
        fun isDot => noDot (secondMade other otherMem dot isDot)⟩
    refine (firstRead.order_iff secondRead noDots).mpr fun label other differ octet next octets => ?_
    obtain ⟨labelMem, otherMem⟩ := mems label other differ
    obtain ⟨-, common, firsts, seconds, rfl, rfl⟩ := octets
    exact inOrder octet next (firstMade _ labelMem octet (by simp))
      (secondMade _ otherMem next (by simp))
      ((firstRead.isNormal.1 _ labelMem).2 octet (by simp))
      ((secondRead.isNormal.1 _ otherMem).2 next (by simp))

/-- When `canonical_dns_name_order` gives the canonical order: on all names over
an alphabet, and on two names that first differ in labels without dots. -/
theorem canonicalDnsNameOrder_canonical (alphabet : UInt8 → Prop) :
    (OrdersNamesOf alphabet ↔ ¬ alphabet dot ∧
      ∀ octet other, alphabet octet → alphabet other → toAsciiLowercase octet = octet →
        toAsciiLowercase other = other → InTextOrder octet other) ∧
    ∀ a b first second, ReadAs a first → ReadAs b second → DifferWithoutDots first second →
      (canonicalDnsNameOrder a b = canonicalOrder first second ↔ DifferInOrder first second) :=
  ⟨ordersNamesOf_iff, fun _ _ _ _ first second noDots => first.order_iff second noDots⟩

/-- The printable octets without the dot are ordered as their texts, and so are
`canonical_dns_name_order` and the canonical order on names made of them. -/
theorem ordersNamesOf_printable :
    OrdersNamesOf fun octet => isUnprintable octet = false ∧ octet ≠ dot := by
  refine (canonicalDnsNameOrder_canonical _).1.mpr ⟨fun isDot => isDot.2 rfl, ?_⟩
  intro octet other shown otherShown _ _
  exact .inl (shown.1.trans otherShown.1.symm)

/-- The name of the octet 200 is put in front of that of a letter. -/
theorem not_all_canonicalOrder :
    ¬ ∀ a b first second, ReadAs a first → ReadAs b second →
      canonicalDnsNameOrder a b = canonicalOrder first second := by
  intro all
  have letter : ReadAs (nameText [[0x61]]) [[0x61]] := readAs_nameText (by decide) (by decide)
  have number : ReadAs (nameText [[200]]) [[200]] := readAs_nameText (by decide) (by decide)
  exact absurd (all _ _ _ _ letter number) (by decide +kernel)

end Numa
