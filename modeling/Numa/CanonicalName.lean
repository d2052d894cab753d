import Numa.CyclicGap
import Numa.Denial
import Numa.NameText

/-!
# Canonical names

The canonical order of RFC 4034 compares names label by label from the root.
The program compares texts, split at their dots; the two agree on names whose
labels need no escape.
-/

namespace Numa

abbrev Name := List (List UInt8)

/-- Printable octets that a text shows as they are: no dot, no backslash and no
capital. -/
def isPlainOctet (octet : UInt8) : Bool :=
  0x21 ≤ octet && octet ≤ 0x7E && octet != dot && octet != backslash &&
    !(0x41 ≤ octet && octet ≤ 0x5A)

def IsPlainLabel (label : List UInt8) : Prop :=
  label ≠ [] ∧ ∀ octet ∈ label, isPlainOctet octet = true

/-- A name in lower case whose text has no escape. -/
def IsPlain (name : Name) : Prop :=
  ∀ label ∈ name, IsPlainLabel label

instance (name : Name) : Decidable (IsPlain name) :=
  inferInstanceAs (Decidable (∀ label ∈ name, label ≠ [] ∧
    ∀ octet ∈ label, isPlainOctet octet = true))

/-- The canonical order of names. -/
def canonicalOrder : Name → Name → Ordering :=
  compareOn List.reverse

instance : Std.TransCmp canonicalOrder :=
  inferInstanceAs (Std.TransCmp (compareOn List.reverse))

instance : Std.LawfulEqCmp canonicalOrder where
  eq_of_compare same := List.reverse_injective (Std.LawfulEqCmp.eq_of_compare same)

/-- A list is not above those that continue it. -/
theorem compare_append_isLE (first later : Name) :
    (compare first (first ++ later)).isLE = true := by
  induction first with
  | nil => cases later <;> rfl
  | cons label first ih =>
      have same : compare label label = .eq := Std.ReflCmp.compare_self
      rw [List.cons_append, List.compare_eq_compareLex, List.compareLex_cons_cons,
        ← List.compare_eq_compareLex, same]
      exact ih

/-- A name is not above the names below it. -/
theorem canonicalOrder_isLE_of_suffix {encloser name : Name} (above : encloser <:+ name) :
    (canonicalOrder encloser name).isLE = true := by
  obtain ⟨labels, rfl⟩ := above
  have reversed : (labels ++ encloser).reverse = encloser.reverse ++ labels.reverse :=
    List.reverse_append
  rw [canonicalOrder, compareOn, reversed]
  exact compare_append_isLE _ _

theorem octetText_of_plain : ∀ octet, isPlainOctet octet = true →
    octetText octet = [octet] ∧ toAsciiLowercase octet = octet ∧ octet ≠ dot := by
  have table : ∀ index : Fin 256, isPlainOctet (.ofFin index) = true →
      octetText (.ofFin index) = [.ofFin index] ∧
        toAsciiLowercase (.ofFin index) = .ofFin index ∧ UInt8.ofFin index ≠ dot := by
    decide +kernel
  intro octet
  simpa using table octet.toFin

theorem labelText_of_plain {label : List UInt8}
    (plain : ∀ octet ∈ label, isPlainOctet octet = true) : labelText label = label := by
  induction label with
  | nil => rfl
  | cons octet octets ih =>
      have octetEq := (octetText_of_plain octet (plain octet (by simp))).1
      have octetsEq : octets.flatMap octetText = octets :=
        ih fun later laterMem => plain later (by simp [laterMem])
      rw [labelText, List.flatMap_cons, octetEq, octetsEq]
      rfl

theorem IsPlainLabel.not_mem_dot {label : List UInt8} (plain : IsPlainLabel label) :
    dot ∉ label :=
  fun dotMem => (octetText_of_plain dot (plain.2 dot dotMem)).2.2 rfl

theorem IsPlainLabel.toLowercase_eq {label : List UInt8} (plain : IsPlainLabel label) :
    Text.toLowercase label = label := by
  have same : label.map toAsciiLowercase = label.map id :=
    List.map_congr_left fun octet octetMem =>
      (octetText_of_plain octet (plain.2 octet octetMem)).2.1
  rw [Text.toLowercase, same, List.map_id]

namespace IsPlain

variable {name other : Name}

theorem nameText_eq (plain : IsPlain name) : nameText name = Text.join name := by
  have same : name.map labelText = name.map id :=
    List.map_congr_left fun label labelMem => labelText_of_plain (plain label labelMem).2
  rw [nameText, same, List.map_id]

theorem of_suffix (plain : IsPlain name) (suffix : other <:+ name) : IsPlain other :=
  fun label labelMem => plain label (suffix.subset labelMem)

/-- The program splits the text of a plain name into its labels. -/
theorem labels_nameText (plain : IsPlain name) : (nameText name).labels = name := by
  rw [plain.nameText_eq, Text.labels, Text.join]
  by_cases root : name = []
  · subst root
    rfl
  · rw [List.splitOn_intercalate dot (fun label labelMem => (plain label labelMem).not_mem_dot)
      root, List.filter_eq_self]
    intro label labelMem
    simpa using (plain label labelMem).1

theorem isNormal (plain : IsPlain name) : IsNormal name :=
  fun label labelMem => ⟨(plain label labelMem).1, fun octet octetMem =>
    (octetText_of_plain octet ((plain label labelMem).2 octet octetMem)).2.1⟩

end IsPlain

/-- The wildcard below a name. -/
def wildcardOf (encloser : Name) : Name :=
  [0x2A] :: encloser

theorem IsPlain.wildcardOf {encloser : Name} (plain : IsPlain encloser) :
    IsPlain (Numa.wildcardOf encloser) := by
  intro label labelMem
  rcases List.mem_cons.mp labelMem with rfl | later
  · refine ⟨by simp, fun octet octetMem => ?_⟩
    rw [List.mem_singleton.mp octetMem]
    decide
  · exact plain label later

theorem nameText_wildcardOf {encloser : Name} (notRoot : encloser ≠ []) :
    nameText (wildcardOf encloser) = (nameText encloser).wildcard := by
  rw [wildcardOf, nameText_cons notRoot]
  rfl

theorem suffix_of_mem_nonEmptyTails {labels tail : List Text}
    (tailMem : tail ∈ nonEmptyTails labels) : tail ≠ [] ∧ tail <:+ labels := by
  induction labels with
  | nil => simp [nonEmptyTails] at tailMem
  | cons label labels ih =>
      rcases List.mem_cons.mp tailMem with rfl | later
      · exact ⟨by simp, List.suffix_refl _⟩
      · exact ⟨(ih later).1, (ih later).2.trans (List.suffix_cons label labels)⟩

/-- The search through the tails of a list, longest first, finds the longest
one that passes. -/
theorem find_nonEmptyTails_eq {labels tail : List Text} {test : List Text → Bool}
    (nonempty : tail ≠ []) (isTail : tail <:+ labels) (passes : test tail = true)
    (longest : ∀ longer, longer <:+ labels → test longer = true →
      longer.length ≤ tail.length) :
    (nonEmptyTails labels).find? test = some tail := by
  induction labels with
  | nil => exact absurd (List.suffix_nil.mp isTail) nonempty
  | cons label labels ih =>
      rw [nonEmptyTails, List.find?_cons]
      rcases List.suffix_cons_iff.mp isTail with rfl | shorter
      · rw [passes]
      · have fails : test (label :: labels) = false := by
          by_contra accepted
          have := longest _ (List.suffix_refl _) (by simpa using accepted)
          have := shorter.length_le
          simp only [List.length_cons] at *
          omega
        rw [fails]
        exact ih shorter fun longer longerTail =>
          longest longer (longerTail.trans (List.suffix_cons label labels))

/-- The comparison of the common labels followed by that of the label counts
is the lexicographic order. -/
theorem compareLabels_then_length (first second : List Text) :
    (compareLabels first second).then (compare first.length second.length) =
      compare (first.map Text.toLowercase) (second.map Text.toLowercase) := by
  induction first generalizing second with
  | nil => cases second <;> rfl
  | cons label first ih =>
      cases second with
      | nil => rfl
      | cons other second =>
          rw [List.map_cons, List.map_cons, List.compare_eq_compareLex,
            List.compareLex_cons_cons, ← List.compare_eq_compareLex, ← ih second, compareLabels]
          cases compare label.toLowercase other.toLowercase with
          | lt => rfl
          | gt => rfl
          | eq => simp [Nat.compare_eq_ite_lt]

theorem canonicalDnsNameOrder_eq (a b : Text) :
    canonicalDnsNameOrder a b =
      compare (a.labels.reverse.map Text.toLowercase) (b.labels.reverse.map Text.toLowercase) := by
  rw [← compareLabels_then_length, canonicalDnsNameOrder, List.length_reverse,
    List.length_reverse]
  cases compareLabels a.labels.reverse b.labels.reverse <;> rfl

/-- The program orders the texts of plain names canonically. -/
theorem IsPlain.canonicalDnsNameOrder_nameText {first second : Name} (firstPlain : IsPlain first)
    (secondPlain : IsPlain second) :
    canonicalDnsNameOrder (nameText first) (nameText second) = canonicalOrder first second := by
  have lower : ∀ {name : Name}, IsPlain name →
      name.reverse.map Text.toLowercase = name.reverse := by
    intro name plain
    rw [List.map_congr_left fun label labelMem =>
      (plain label (List.mem_reverse.mp labelMem)).toLowercase_eq, List.map_id']
  rw [canonicalDnsNameOrder_eq, firstPlain.labels_nameText, secondPlain.labels_nameText,
    lower firstPlain, lower secondPlain]
  rfl

/-- The gap test of the program on texts. -/
theorem nsecCoversName_eq_inGap (owner next qname : Text) :
    nsecCoversName owner next qname = inGap canonicalDnsNameOrder owner next qname := by
  unfold nsecCoversName inGap
  simp only
  cases canonicalDnsNameOrder owner next <;> simp

theorem IsPlain.nsecCoversName_iff {owner next qname : Name} (ownerPlain : IsPlain owner)
    (nextPlain : IsPlain next) (qnamePlain : IsPlain qname) :
    nsecCoversName (nameText owner) (nameText next) (nameText qname) =
      inGap canonicalOrder owner next qname := by
  rw [nsecCoversName_eq_inGap]
  simp only [inGap, ownerPlain.canonicalDnsNameOrder_nameText nextPlain,
    qnamePlain.canonicalDnsNameOrder_nameText ownerPlain,
    qnamePlain.canonicalDnsNameOrder_nameText nextPlain]

end Numa
