import Numa.Text

/-!
# Names as texts

A domain name is a list of labels, and a label is a non-empty list of arbitrary
octets.  `read_qname` turns a name into a text, lowercased and with the special
octets escaped.  `parent_zone` cuts such a text at its first dot, which is the
end of the first label only when that label has no dot of its own.
-/

namespace Numa

/-- The text `read_qname` appends for one octet of a label. -/
def octetText (octet : UInt8) : Text :=
  let c := toAsciiLowercase octet
  if c = dot then [backslash, dot]
  else if c = backslash then [backslash, backslash]
  else if 0x21 ≤ c ∧ c ≤ 0x7E then [c]
  else [backslash, 0x30 + c / 100, 0x30 + c / 10 % 10, 0x30 + c % 10]

def labelText (label : List UInt8) : Text :=
  label.flatMap octetText

theorem labelText_append (first second : List UInt8) :
    labelText (first ++ second) = labelText first ++ labelText second :=
  List.flatMap_append

/-- The text `read_qname` gives to a name. -/
def nameText (labels : List (List UInt8)) : Text :=
  Text.join (labels.map labelText)

/-- The text of the name of a zone, `.` for the root as in `parent_zone`. -/
def zoneText (labels : List (List UInt8)) : Text :=
  if labels = [] then [dot] else nameText labels

/-- The labels of a name are not empty. -/
def ProperLabels (labels : List (List UInt8)) : Prop :=
  ∀ label ∈ labels, label ≠ []

instance (labels : List (List UInt8)) : Decidable (ProperLabels labels) :=
  inferInstanceAs (Decidable (∀ label ∈ labels, label ≠ []))

@[simp]
theorem nameText_nil : nameText [] = [] :=
  rfl

@[simp]
theorem zoneText_nil : zoneText [] = [dot] :=
  rfl

theorem zoneText_of_ne_nil {labels : List (List UInt8)} (notRoot : labels ≠ []) :
    zoneText labels = nameText labels := by
  rw [zoneText, if_neg notRoot]

theorem octetText_eq_cons (octet : UInt8) :
    ∃ head rest, octetText octet = head :: rest ∧ head ≠ dot := by
  unfold octetText
  have escape : backslash ≠ dot := by decide
  simp only
  split
  · exact ⟨_, _, rfl, escape⟩
  · rename_i notDot
    split
    · exact ⟨_, _, rfl, escape⟩
    · split
      · exact ⟨_, _, rfl, notDot⟩
      · exact ⟨_, _, rfl, escape⟩

theorem octetText_dot : octetText dot = [backslash, dot] := by
  decide

/-- Only the octet of a dot has a dot in its text. -/
theorem not_mem_octetText : ∀ octet, octet ≠ dot → dot ∉ octetText octet := by
  have table : ∀ index : Fin 256, UInt8.ofFin index ≠ dot → dot ∉ octetText (.ofFin index) := by
    decide +kernel
  intro octet
  simpa using table octet.toFin

theorem not_mem_labelText {label : List UInt8} (noDot : dot ∉ label) :
    dot ∉ labelText label := by
  intro isDot
  obtain ⟨octet, octetMem, inText⟩ := List.mem_flatMap.mp isDot
  have notDot : octet ≠ dot := by
    rintro rfl
    exact noDot octetMem
  exact not_mem_octetText octet notDot inText

theorem labelText_eq_cons {label : List UInt8} (nonempty : label ≠ []) :
    ∃ head rest, labelText label = head :: rest ∧ head ≠ dot := by
  obtain ⟨octet, octets, rfl⟩ := List.exists_cons_of_ne_nil nonempty
  obtain ⟨head, rest, octetEq, notDot⟩ := octetText_eq_cons octet
  exact ⟨head, rest ++ labelText octets, by simp [labelText, octetEq], notDot⟩

theorem nameText_cons {label : List UInt8} {labels : List (List UInt8)}
    (notLast : labels ≠ []) :
    nameText (label :: labels) = labelText label ++ dot :: nameText labels := by
  obtain ⟨next, rest, rfl⟩ := List.exists_cons_of_ne_nil notLast
  simp only [nameText, List.map_cons, Text.join_cons_cons]

theorem nameText_append {first second : List (List UInt8)} (firstNonempty : first ≠ [])
    (secondNonempty : second ≠ []) :
    nameText (first ++ second) = nameText first ++ dot :: nameText second := by
  induction first with
  | nil => exact absurd rfl firstNonempty
  | cons label labels ih =>
      by_cases last : labels = []
      · subst last
        rw [List.cons_append, List.nil_append, nameText_cons secondNonempty]
        simp [nameText]
      · rw [List.cons_append, nameText_cons (by simp [last]), ih last, nameText_cons last]
        simp

/-- The text of a name other than the root starts with no dot. -/
theorem nameText_eq_cons {labels : List (List UInt8)} (notRoot : labels ≠ [])
    (proper : ProperLabels labels) :
    ∃ head rest, nameText labels = head :: rest ∧ head ≠ dot := by
  obtain ⟨label, labels, rfl⟩ := List.exists_cons_of_ne_nil notRoot
  obtain ⟨head, rest, labelEq, notDot⟩ := labelText_eq_cons (proper label (by simp))
  by_cases last : labels = []
  · subst last
    exact ⟨head, rest, by simp [nameText, labelEq], notDot⟩
  · exact ⟨head, rest ++ dot :: nameText labels, by simp [nameText_cons last, labelEq], notDot⟩

theorem zoneText_ne_root {labels : List (List UInt8)} (notRoot : labels ≠ [])
    (proper : ProperLabels labels) : zoneText labels ≠ [dot] ∧ zoneText labels ≠ [] := by
  obtain ⟨head, rest, nameEq, notDot⟩ := nameText_eq_cons notRoot proper
  rw [zoneText_of_ne_nil notRoot, nameEq]
  exact ⟨fun same => notDot (List.cons.inj same).1, by simp⟩

theorem nameText_length_lt {child parent : List (List UInt8)} (below : parent <:+ child)
    (different : parent ≠ child) (proper : ProperLabels child) :
    (nameText parent).length < (nameText child).length := by
  obtain ⟨new, rfl⟩ := below
  have newNonempty : new ≠ [] := by
    rintro rfl
    exact different rfl
  by_cases parentRoot : parent = []
  · subst parentRoot
    obtain ⟨head, rest, nameEq, -⟩ := nameText_eq_cons (by simpa using newNonempty) proper
    rw [nameText_nil, nameEq]
    simp
  · rw [nameText_append newNonempty parentRoot, List.length_append, List.length_cons]
    omega

theorem dropWhile_ne_dot {first : Text} (noDot : dot ∉ first) (rest : Text) :
    (first ++ rest).dropWhile (· != dot) = rest.dropWhile (· != dot) := by
  induction first with
  | nil => rfl
  | cons octet first ih =>
      obtain ⟨notDot, later⟩ : ¬ dot = octet ∧ dot ∉ first := by simpa using noDot
      have passed : (octet != dot) = true := bne_iff_ne.mpr (Ne.symm notDot)
      rw [List.cons_append, List.dropWhile_cons, if_pos passed, ih later]

theorem parentZone_of_not_mem {name : Text} (noDot : dot ∉ name) : parentZone name = [dot] := by
  have dropped := dropWhile_ne_dot noDot []
  rw [List.append_nil, List.dropWhile_nil] at dropped
  simp [parentZone, dropped]

theorem parentZone_append {first rest : Text} (noDot : dot ∉ first) (nonempty : rest ≠ []) :
    parentZone (first ++ dot :: rest) = rest := by
  have notRoot : ¬ (first ++ dot :: rest = [dot] ∨ first ++ dot :: rest = []) := by
    rintro (root | empty)
    · have lengths := congrArg List.length root
      have := List.length_pos_of_ne_nil nonempty
      simp only [List.length_append, List.length_cons, List.length_nil] at lengths
      omega
    · simp at empty
  rw [parentZone, if_neg notRoot, dropWhile_ne_dot noDot]
  simp [nonempty]

/-- `parent_zone` finds the zone above, or a text strictly between the two
names. -/
theorem parentZone_zoneText {child parent : List (List UInt8)} (below : parent <:+ child)
    (different : parent ≠ child) (proper : ProperLabels child) :
    parentZone (zoneText child) = zoneText parent ∨
      parentZone (zoneText child) ≠ [dot] ∧
        (nameText parent).length < (parentZone (zoneText child)).length ∧
        (parentZone (zoneText child)).length < (nameText child).length := by
  obtain ⟨new, rfl⟩ := below
  have newNonempty : new ≠ [] := by
    rintro rfl
    exact different rfl
  have notRoot : new ++ parent ≠ [] := by simp [newNonempty]
  rw [zoneText_of_ne_nil notRoot]
  by_cases parentRoot : parent = []
  · subst parentRoot
    rw [List.append_nil] at notRoot proper ⊢
    by_cases hasDot : dot ∈ nameText new
    · obtain ⟨first, rest, split, noDot⟩ := List.eq_append_cons_of_mem hasDot
      by_cases single : parentZone (nameText new) = [dot]
      · exact .inl single
      · have restNonempty : rest ≠ [] := by
          rintro rfl
          refine single ?_
          rw [split, parentZone]
          split
          · rfl
          · rw [dropWhile_ne_dot noDot]
            simp
        rw [split, parentZone_append noDot restNonempty] at single ⊢
        refine .inr ⟨single, ?_, ?_⟩
        · simpa using List.length_pos_of_ne_nil restNonempty
        · simp only [List.length_append, List.length_cons]
          omega
    · exact .inl (parentZone_of_not_mem hasDot)
  · have parentProper : ProperLabels parent := fun label labelMem =>
      proper label (by simp [labelMem])
    have parentNonempty : nameText parent ≠ [] := by
      obtain ⟨head, rest, nameEq, -⟩ := nameText_eq_cons parentRoot parentProper
      simp [nameEq]
    rw [nameText_append newNonempty parentRoot]
    by_cases hasDot : dot ∈ nameText new
    · obtain ⟨first, rest, split, noDot⟩ := List.eq_append_cons_of_mem hasDot
      have restNonempty : rest ++ dot :: nameText parent ≠ [] := by simp
      have walked : parentZone (nameText new ++ dot :: nameText parent) =
          rest ++ dot :: nameText parent := by
        rw [split, List.append_assoc, List.cons_append,
          parentZone_append noDot restNonempty]
      have := List.length_pos_of_ne_nil parentNonempty
      refine .inr ?_
      rw [walked, split]
      refine ⟨fun root => ?_, ?_, ?_⟩
      · have lengths := congrArg List.length root
        simp only [List.length_append, List.length_cons, List.length_nil] at lengths
        omega
      · simp only [List.length_append, List.length_cons]
        omega
      · simp only [List.length_append, List.length_cons]
        omega
    · refine .inl ?_
      rw [parentZone_append hasDot parentNonempty, zoneText_of_ne_nil parentRoot]

/-! ## Reading a text back -/

/-- The labels are non-empty and in lower case, the normal form of a name. -/
def IsNormal (labels : List (List UInt8)) : Prop :=
  ∀ label ∈ labels, label ≠ [] ∧ ∀ octet ∈ label, toAsciiLowercase octet = octet

instance (labels : List (List UInt8)) : Decidable (IsNormal labels) :=
  inferInstanceAs (Decidable (∀ label ∈ labels, label ≠ [] ∧
    ∀ octet ∈ label, toAsciiLowercase octet = octet))

theorem IsNormal.proper {labels : List (List UInt8)} (normal : IsNormal labels) :
    ProperLabels labels :=
  fun label labelMem => (normal label labelMem).1

theorem IsNormal.of_subset {labels others : List (List UInt8)} (normal : IsNormal labels)
    (subset : others ⊆ labels) : IsNormal others :=
  fun label labelMem => normal label (subset labelMem)

/-- The octet that a text begins with, escaped or not. -/
def headOctet : Text → Option UInt8
  | [] => none
  | octet :: rest =>
    if octet ≠ backslash then some octet
    else
      match rest with
      | [] => none
      | first :: rest =>
        if first = dot ∨ first = backslash then some first
        else
          match rest with
          | second :: third :: _ =>
            some ((first - 0x30) * 100 + (second - 0x30) * 10 + (third - 0x30))
          | _ => none

theorem headOctet_octetText : ∀ octet, toAsciiLowercase octet = octet →
    headOctet (octetText octet) = some octet := by
  have table : ∀ index : Fin 256, toAsciiLowercase (.ofFin index) = .ofFin index →
      headOctet (octetText (.ofFin index)) = some (.ofFin index) := by
    decide +kernel
  intro octet
  simpa using table octet.toFin

theorem headOctet_append {first : Text} {octet : UInt8} (found : headOctet first = some octet)
    (rest : Text) : headOctet (first ++ rest) = some octet := by
  cases first with
  | nil => simp [headOctet] at found
  | cons head first =>
      by_cases unescaped : head ≠ backslash
      · simp_all [headOctet]
      · rcases first with _ | ⟨one, first⟩
        · simp [headOctet, unescaped] at found
        · by_cases special : one = dot ∨ one = backslash
          · simp_all [headOctet]
          · rcases first with _ | ⟨two, _ | ⟨three, first⟩⟩ <;> simp_all [headOctet]

/-- The texts of octets are a prefix code. -/
theorem octetText_append_inj {first second : UInt8}
    (firstLower : toAsciiLowercase first = first)
    (secondLower : toAsciiLowercase second = second) {firstRest secondRest : Text}
    (same : octetText first ++ firstRest = octetText second ++ secondRest) :
    first = second ∧ firstRest = secondRest := by
  have firstRead := headOctet_append (headOctet_octetText first firstLower) firstRest
  have secondRead := headOctet_append (headOctet_octetText second secondLower) secondRest
  rw [same, secondRead] at firstRead
  obtain rfl := Option.some.inj firstRead
  exact ⟨rfl, List.append_cancel_left same⟩

/-- A text that ends or goes on with the next label. -/
def EndsLabel (rest : Text) : Prop :=
  ∀ head, rest.head? = some head → head = dot

theorem octetText_append_ne_of_endsLabel {octet : UInt8} {before rest : Text}
    (ends : EndsLabel rest) : octetText octet ++ before ≠ rest := by
  obtain ⟨head, tail, octetEq, notDot⟩ := octetText_eq_cons octet
  rintro rfl
  exact notDot (ends head (by simp [octetEq]))

theorem labelText_append_inj {first second : List UInt8}
    (firstLower : ∀ octet ∈ first, toAsciiLowercase octet = octet)
    (secondLower : ∀ octet ∈ second, toAsciiLowercase octet = octet)
    {firstRest secondRest : Text} (firstEnds : EndsLabel firstRest)
    (secondEnds : EndsLabel secondRest)
    (same : labelText first ++ firstRest = labelText second ++ secondRest) :
    first = second ∧ firstRest = secondRest := by
  induction first generalizing second with
  | nil =>
      cases second with
      | nil => exact ⟨rfl, same⟩
      | cons octet second =>
          rw [labelText, labelText, List.flatMap_cons, List.append_assoc] at same
          exact absurd same.symm (octetText_append_ne_of_endsLabel firstEnds)
  | cons octet first ih =>
      rw [labelText, List.flatMap_cons, List.append_assoc] at same
      cases second with
      | nil => exact absurd same (octetText_append_ne_of_endsLabel secondEnds)
      | cons other second =>
          rw [labelText, List.flatMap_cons, List.append_assoc] at same
          obtain ⟨rfl, later⟩ := octetText_append_inj (firstLower octet (by simp))
            (secondLower other (by simp)) same
          obtain ⟨rfl, restEq⟩ := ih (fun octet octetMem => firstLower octet (by simp [octetMem]))
            (fun octet octetMem => secondLower octet (by simp [octetMem])) later
          exact ⟨rfl, restEq⟩

/-- The rest of a text after its first label. -/
def afterLabel (labels : List (List UInt8)) : Text :=
  if labels = [] then [] else dot :: nameText labels

theorem nameText_eq_append (label : List UInt8) (labels : List (List UInt8)) :
    nameText (label :: labels) = labelText label ++ afterLabel labels := by
  unfold afterLabel
  split
  · rename_i last
    simp [last, nameText]
  · rename_i notLast
    exact nameText_cons notLast

theorem endsLabel_afterLabel (labels : List (List UInt8)) : EndsLabel (afterLabel labels) := by
  intro head isHead
  unfold afterLabel at isHead
  split at isHead
  · simp at isHead
  · simpa [eq_comm] using isHead

/-- Different names in normal form have different texts. -/
theorem IsNormal.eq_of_nameText {first second : List (List UInt8)} (firstNormal : IsNormal first)
    (secondNormal : IsNormal second) (same : nameText first = nameText second) :
    first = second := by
  induction first generalizing second with
  | nil =>
      by_contra notRoot
      obtain ⟨head, rest, nameEq, -⟩ := nameText_eq_cons (Ne.symm notRoot)
        fun label labelMem => (secondNormal label labelMem).1
      simp [nameEq] at same
  | cons label labels ih =>
      cases second with
      | nil =>
          obtain ⟨head, rest, nameEq, -⟩ := nameText_eq_cons (List.cons_ne_nil label labels)
            fun label labelMem => (firstNormal label labelMem).1
          simp [nameEq] at same
      | cons other others =>
          rw [nameText_eq_append, nameText_eq_append] at same
          obtain ⟨rfl, restEq⟩ := labelText_append_inj (firstNormal label (by simp)).2
            (secondNormal other (by simp)).2 (endsLabel_afterLabel labels)
            (endsLabel_afterLabel others) same
          have laterEq : labels = others := by
            unfold afterLabel at restEq
            split_ifs at restEq with last otherLast otherLast
            · rw [last, otherLast]
            · exact ih (fun label labelMem => firstNormal label (by simp [labelMem]))
                (fun label labelMem => secondNormal label (by simp [labelMem]))
                (List.cons.inj restEq).2
          rw [laterEq]

theorem toLowercase_octetText : ∀ octet, Text.toLowercase (octetText octet) = octetText octet := by
  have table : ∀ index : Fin 256,
      Text.toLowercase (octetText (.ofFin index)) = octetText (.ofFin index) := by
    decide +kernel
  intro octet
  simpa using table octet.toFin

theorem toLowercase_labelText (label : List UInt8) :
    Text.toLowercase (labelText label) = labelText label := by
  induction label with
  | nil => rfl
  | cons octet octets ih =>
      have later : (octets.flatMap octetText).map toAsciiLowercase = octets.flatMap octetText := ih
      rw [labelText, List.flatMap_cons, Text.toLowercase, List.map_append, later]
      exact congrArg (· ++ _) (toLowercase_octetText octet)

/-- The text of a name is in lower case. -/
theorem toLowercase_nameText (labels : List (List UInt8)) :
    (nameText labels).toLowercase = nameText labels := by
  induction labels with
  | nil => rfl
  | cons label labels ih =>
      have later : (afterLabel labels).map toAsciiLowercase = afterLabel labels := by
        unfold afterLabel
        split
        · rfl
        · rw [List.map_cons]
          exact congrArg₂ _ (by decide) ih
      rw [nameText_eq_append, Text.toLowercase, List.map_append, later]
      exact congrArg (· ++ _) (toLowercase_labelText label)

theorem octetText_toAsciiLowercase (octet : UInt8) :
    octetText (toAsciiLowercase octet) = octetText octet := by
  rw [octetText, octetText, toAsciiLowercase_toAsciiLowercase]

theorem labelText_toLowercase (label : List UInt8) :
    labelText (Text.toLowercase label) = labelText label := by
  rw [labelText, labelText, Text.toLowercase, List.flatMap_map]
  exact List.flatMap_congr fun octet _ => octetText_toAsciiLowercase octet

/-- The letter case of a name is lost in its text. -/
theorem nameText_map_toLowercase (labels : List (List UInt8)) :
    nameText (labels.map Text.toLowercase) = nameText labels := by
  rw [nameText, nameText, List.map_map]
  exact congrArg Text.join (List.map_congr_left fun label _ => labelText_toLowercase label)

/-- The program compares names by their texts. -/
theorem IsNormal.eqIgnoreAsciiCase_iff {first second : List (List UInt8)}
    (firstNormal : IsNormal first) (secondNormal : IsNormal second) :
    (nameText first).eqIgnoreAsciiCase (nameText second) = true ↔ first = second := by
  rw [Text.eqIgnoreAsciiCase_iff, toLowercase_nameText, toLowercase_nameText]
  exact ⟨firstNormal.eq_of_nameText secondNormal, congrArg nameText⟩

end Numa
