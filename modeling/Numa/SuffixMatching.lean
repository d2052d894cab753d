import Numa.DenotedName
import Numa.DomainList
import Numa.Server

/-!
# Matching by suffixes

`find_in_set`, `match_forwarding_rule`, `parent_zone` and `find_closest_ns` cut
the text of a name at its dots.  A dot of the text ends a label or stands,
behind a backslash, for an octet inside a label, and the four do not tell these
apart.
-/

namespace Numa

open BytePacketBuffer

/-! ## Dots of a text -/

theorem tailsAfterDots_eq_behindDots (name : Text) : tailsAfterDots name = behindDots name := by
  induction name with
  | nil => rfl
  | cons octet rest ih => rw [tailsAfterDots, behindDots, ih]

@[simp]
theorem behindDots_dot_cons (rest : Text) :
    behindDots (dot :: rest) = rest :: behindDots rest := by
  rw [behindDots, if_pos rfl]

theorem behindDots_append {first : Text} (noDot : dot ∉ first) (rest : Text) :
    behindDots (first ++ rest) = behindDots rest := by
  induction first with
  | nil => rfl
  | cons octet first ih =>
      obtain ⟨notDot, later⟩ : ¬ dot = octet ∧ dot ∉ first := by simpa using noDot
      rw [List.cons_append, behindDots, if_neg (Ne.symm notDot), ih later]

/-- A dot in a label and what is behind it. -/
theorem mem_behindDots_labelText {label : List UInt8} {rest tail : Text} :
    tail ∈ behindDots (labelText label ++ rest) ↔
      (∃ first second, label = first ++ dot :: second ∧ tail = labelText second ++ rest) ∨
        tail ∈ behindDots rest := by
  induction label with
  | nil => simp [labelText]
  | cons octet label ih =>
      have split : labelText (octet :: label) ++ rest =
          octetText octet ++ (labelText label ++ rest) := by
        simp [labelText]
      rw [split]
      by_cases isDot : octet = dot
      · subst isDot
        have cut : behindDots (octetText dot ++ (labelText label ++ rest)) =
            (labelText label ++ rest) :: behindDots (labelText label ++ rest) := by
          rw [octetText_dot, List.cons_append, List.cons_append, List.nil_append, behindDots,
            if_neg (by decide), behindDots_dot_cons]
        rw [cut, List.mem_cons, ih]
        constructor
        · rintro (rfl | ⟨first, second, rfl, rfl⟩ | later)
          · exact .inl ⟨[], label, rfl, rfl⟩
          · exact .inl ⟨dot :: first, second, rfl, rfl⟩
          · exact .inr later
        · rintro (⟨first, second, same, rfl⟩ | later)
          · cases first with
            | nil =>
                obtain ⟨-, rfl⟩ := List.cons.inj same
                exact .inl rfl
            | cons head first =>
                obtain ⟨-, rfl⟩ := List.cons.inj same
                exact .inr (.inl ⟨first, second, rfl, rfl⟩)
          · exact .inr (.inr later)
      · rw [behindDots_append (not_mem_octetText octet isDot), ih]
        refine or_congr_left ⟨?_, ?_⟩
        · rintro ⟨first, second, rfl, rfl⟩
          exact ⟨octet :: first, second, rfl, rfl⟩
        · rintro ⟨first, second, same, rfl⟩
          cases first with
          | nil => exact absurd (List.cons.inj same).1 isDot
          | cons head first =>
              obtain ⟨-, rfl⟩ := List.cons.inj same
              exact ⟨first, second, rfl, rfl⟩

/-- The text from inside a label of the name on. -/
def InsideLabel (labels : List (List UInt8)) (tail : Text) : Prop :=
  ∃ front first second rest, labels = front ++ (first ++ dot :: second) :: rest ∧
    tail = labelText second ++ afterLabel rest

/-- The text of a label suffix of the name. -/
def AtLabel (labels : List (List UInt8)) (tail : Text) : Prop :=
  ∃ upper, upper ≠ [] ∧ upper <:+ labels ∧ tail = nameText upper

theorem insideLabel_cons {label : List UInt8} {labels : List (List UInt8)} {tail : Text} :
    InsideLabel (label :: labels) tail ↔
      (∃ first second, label = first ++ dot :: second ∧
        tail = labelText second ++ afterLabel labels) ∨ InsideLabel labels tail := by
  constructor
  · rintro ⟨front, first, second, rest, same, rfl⟩
    cases front with
    | nil =>
        obtain ⟨rfl, rfl⟩ := List.cons.inj same
        exact .inl ⟨first, second, rfl, rfl⟩
    | cons head front =>
        obtain ⟨rfl, rfl⟩ := List.cons.inj same
        exact .inr ⟨front, first, second, rest, rfl, rfl⟩
  · rintro (⟨first, second, rfl, rfl⟩ | ⟨front, first, second, rest, rfl, rfl⟩)
    · exact ⟨[], first, second, labels, rfl, rfl⟩
    · exact ⟨label :: front, first, second, rest, rfl, rfl⟩

theorem atLabel_cons {label : List UInt8} {labels : List (List UInt8)} {tail : Text} :
    AtLabel (label :: labels) tail ↔
      tail = nameText (label :: labels) ∨ AtLabel labels tail := by
  constructor
  · rintro ⟨upper, notRoot, above, rfl⟩
    rcases List.suffix_cons_iff.mp above with rfl | later
    · exact .inl rfl
    · exact .inr ⟨upper, notRoot, later, rfl⟩
  · rintro (rfl | ⟨upper, notRoot, above, rfl⟩)
    · exact ⟨label :: labels, by simp, List.suffix_rfl, rfl⟩
    · exact ⟨upper, notRoot, above.trans (List.suffix_cons label labels), rfl⟩

theorem not_insideLabel_nil {tail : Text} : ¬ InsideLabel [] tail := by
  rintro ⟨front, first, second, rest, same, -⟩
  simp at same

theorem not_atLabel_nil {tail : Text} : ¬ AtLabel [] tail := by
  rintro ⟨upper, notRoot, above, -⟩
  exact notRoot (List.suffix_nil.mp above)

/-- The texts that the program takes for parents of a name begin at a label, or
behind a dot inside one. -/
theorem mem_cons_behindDots_nameText {labels : List (List UInt8)} (notRoot : labels ≠ [])
    {tail : Text} : tail ∈ nameText labels :: behindDots (nameText labels) ↔
      AtLabel labels tail ∨ InsideLabel labels tail := by
  induction labels with
  | nil => exact absurd rfl notRoot
  | cons label labels ih =>
      have behind : tail ∈ behindDots (afterLabel labels) ↔
          AtLabel labels tail ∨ InsideLabel labels tail := by
        by_cases last : labels = []
        · subst last
          simp [afterLabel, behindDots, not_atLabel_nil, not_insideLabel_nil]
        · rw [afterLabel, if_neg last, behindDots_dot_cons, ih last]
      rw [List.mem_cons, atLabel_cons, insideLabel_cons, nameText_eq_append,
        mem_behindDots_labelText, behind, or_or_or_comm, or_assoc]

/-! ## Labels and dots -/

/-- The text behind a dot inside a label is shorter than the text from that
label on, and longer than the text of the labels after it. -/
theorem length_insideLabel (first second : List UInt8) (rest : List (List UInt8)) :
    (labelText second ++ afterLabel rest).length <
      (nameText ((first ++ dot :: second) :: rest)).length := by
  have split : labelText (first ++ dot :: second) =
      labelText first ++ backslash :: dot :: labelText second := by
    rw [labelText_append, labelText, labelText, List.flatMap_cons, octetText_dot]
    rfl
  rw [nameText_eq_append, split]
  simp only [List.length_append, List.length_cons]
  omega

theorem nameText_length_le {child parent : List (List UInt8)} (below : parent <:+ child)
    (proper : ProperLabels child) : (nameText parent).length ≤ (nameText child).length := by
  by_cases same : parent = child
  · rw [same]
  · exact (nameText_length_lt below same proper).le

/-- No text begins both at a label and inside one. -/
theorem AtLabel.not_insideLabel {labels : List (List UInt8)} (proper : ProperLabels labels)
    {tail : Text} (atLabel : AtLabel labels tail) : ¬ InsideLabel labels tail := by
  rintro ⟨front, first, second, rest, rfl, rfl⟩
  obtain ⟨upper, notRoot, above, same⟩ := atLabel
  have lengths := congrArg List.length same
  have shorter := length_insideLabel first second rest
  have cut : (first ++ dot :: second) :: rest <:+ front ++ (first ++ dot :: second) :: rest :=
    List.suffix_append _ _
  by_cases later : upper <:+ rest
  · have restNotRoot : rest ≠ [] := by
      rintro rfl
      exact notRoot (List.suffix_nil.mp later)
    have restProper : ProperLabels rest := fun label labelMem =>
      proper label (by simp [labelMem])
    have := nameText_length_le later restProper
    rw [List.length_append, afterLabel, if_neg restNotRoot, List.length_cons] at lengths
    omega
  · have fromCut : (first ++ dot :: second) :: rest <:+ upper := by
      rcases List.suffix_or_suffix_of_suffix cut above with covers | inside
      · exact covers
      · rcases List.suffix_cons_iff.mp inside with rfl | inRest
        · exact List.suffix_rfl
        · exact absurd inRest later
    have upperProper : ProperLabels upper := fun label labelMem =>
      proper label (above.subset labelMem)
    have := nameText_length_le fromCut upperProper
    omega

/-- Some label of the name has the octet of a dot. -/
theorem exists_insideLabel_iff {labels : List (List UInt8)} :
    (∃ tail, InsideLabel labels tail) ↔ ∃ label ∈ labels, dot ∈ label := by
  constructor
  · rintro ⟨tail, front, first, second, rest, rfl, -⟩
    exact ⟨first ++ dot :: second, by simp, by simp⟩
  · rintro ⟨label, labelMem, dotMem⟩
    obtain ⟨front, rest, rfl⟩ := List.append_of_mem labelMem
    obtain ⟨first, second, rfl⟩ := List.append_of_mem dotMem
    exact ⟨_, front, first, second, rest, rfl, rfl⟩

/-! ## Closest zones -/

/-- A cache with a name server for one zone only. -/
def onlyZone (zone name : Text) (qtype : QueryType) : Option DnsPacket :=
  if name = zone ∧ qtype = .ns then some { answers := [.ns zone [] 0] }
  else if qtype = .a then some { answers := [.a [] (.new 127 0 0 1) 0] }
  else none

theorem closestNs_onlyZone {zone : Text} {zones : List Text} (zoneMem : zone ∈ zones) :
    closestNs (onlyZone zone) [] zones = (zone, [.v4 (.new 127 0 0 1) 53]) := by
  induction zones with
  | nil => simp at zoneMem
  | cons first zones ih =>
      by_cases here : first = zone
      · subst here
        simp [closestNs, onlyZone, DnsRecord.isNs, extractNsFromRecords, addrsFromView,
          recordToAddr]
      · have later : zone ∈ zones := (List.mem_cons.mp zoneMem).resolve_left (Ne.symm here)
        simpa [closestNs, onlyZone, here] using ih later

theorem mem_of_closestNs {view : Text → QueryType → Option DnsPacket} {zones : List Text}
    {zone : Text} {addrs : List SocketAddr} (reachable : addrs ≠ [])
    (found : closestNs view [] zones = (zone, addrs)) : zone ∈ zones := by
  induction zones with
  | nil =>
      obtain ⟨-, rfl⟩ := Prod.mk.inj found
      exact absurd rfl reachable
  | cons first zones ih =>
      cases cached : view first .ns with
      | none =>
          simp only [closestNs, cached] at found
          exact List.mem_cons_of_mem _ (ih found)
      | some packet =>
          simp only [closestNs, cached] at found
          generalize (extractNsFromRecords _).flatMap (addrsFromView view) = known at found
          by_cases unreachable : known = []
          · rw [if_pos unreachable] at found
            exact List.mem_cons_of_mem _ (ih found)
          · rw [if_neg unreachable] at found
            obtain ⟨rfl, -⟩ := Prod.mk.inj found
            exact List.mem_cons_self

/-- `find_closest_ns` tries a zone: some cache makes it start from there, and
not from root hints. -/
def TriesZone (qname zone : Text) : Prop :=
  ∃ view addrs, addrs ≠ [] ∧ findClosestNs view [] qname = (zone, addrs)

theorem triesZone_iff {qname zone : Text} :
    TriesZone qname zone ↔ zone ∈ qname :: behindDots qname := by
  rw [← tailsAfterDots_eq_behindDots]
  constructor
  · rintro ⟨view, addrs, reachable, found⟩
    exact mem_of_closestNs reachable found
  · intro zoneMem
    exact ⟨onlyZone zone, _, by simp, closestNs_onlyZone zoneMem⟩

/-- `find_closest_ns` tries the zones above a name iff no label has a dot. -/
theorem triesZone_iff_atLabel_iff {labels : List (List UInt8)} (proper : ProperLabels labels)
    (notRoot : labels ≠ []) :
    (∀ zone, TriesZone (nameText labels) zone ↔ AtLabel labels zone) ↔
      ∀ label ∈ labels, dot ∉ label := by
  simp only [triesZone_iff, mem_cons_behindDots_nameText notRoot]
  constructor
  · intro exactly label labelMem dotMem
    obtain ⟨tail, inside⟩ := exists_insideLabel_iff.mpr ⟨label, labelMem, dotMem⟩
    exact ((exactly tail).mp (.inr inside)).not_insideLabel proper inside
  · intro noDots zone
    refine or_iff_left fun inside => ?_
    obtain ⟨label, labelMem, dotMem⟩ := exists_insideLabel_iff.mp ⟨zone, inside⟩
    exact noDots label labelMem dotMem

/-! ## Parents -/

/-- The name with its first label cut inside it, at a dot, or a name above with
such a cut. -/
def CutsLabel (name parent : List (List UInt8)) : Prop :=
  ∃ front first second rest, name = front ++ (first ++ dot :: second) :: rest ∧
    parent = second :: rest

section Parents

variable {name parent : List (List UInt8)} (nameNormal : IsNormal name)
  (parentNormal : IsNormal parent)

include nameNormal parentNormal

theorem atLabel_nameText_iff (parentNotRoot : parent ≠ []) :
    AtLabel name (nameText parent) ↔ parent <:+ name := by
  constructor
  · rintro ⟨upper, -, above, same⟩
    rwa [parentNormal.eq_of_nameText (nameNormal.of_subset above.subset) same]
  · intro above
    exact ⟨parent, parentNotRoot, above, rfl⟩

theorem insideLabel_nameText_iff (parentNotRoot : parent ≠ []) :
    InsideLabel name (nameText parent) ↔ CutsLabel name parent := by
  constructor
  · rintro ⟨front, first, second, rest, rfl, same⟩
    refine ⟨front, first, second, rest, rfl, ?_⟩
    have secondNonempty : second ≠ [] := by
      rintro rfl
      obtain ⟨head, tail, nameEq, notDot⟩ := nameText_eq_cons parentNotRoot parentNormal.proper
      have begins : afterLabel rest = head :: tail := by
        simpa [labelText, nameEq] using same.symm
      exact notDot (endsLabel_afterLabel rest head (by rw [begins]; rfl))
    rw [← nameText_eq_append] at same
    refine parentNormal.eq_of_nameText (fun label labelMem => ?_) same
    rcases List.mem_cons.mp labelMem with rfl | later
    · refine ⟨secondNonempty, fun octet octetMem => ?_⟩
      exact (nameNormal (first ++ dot :: label) (by simp)).2 octet (by simp [octetMem])
    · exact nameNormal label (by simp [later])
  · rintro ⟨front, first, second, rest, rfl, rfl⟩
    exact ⟨front, first, second, rest, rfl, nameText_eq_append second rest⟩

/-- What stands behind a dot of a name is a name above it, or begins inside a
label. -/
theorem isParent_nameText_iff (nameNotRoot : name ≠ []) (parentNotRoot : parent ≠ []) :
    IsParent (nameText parent) (nameText name) ↔ parent <:+ name ∨ CutsLabel name parent := by
  have visited : IsParent (nameText parent) (nameText name) ↔
      nameText parent ∈ nameText name :: behindDots (nameText name) := by
    rw [List.mem_cons, mem_behindDots_iff, IsParent]
  rw [visited, mem_cons_behindDots_nameText nameNotRoot,
    atLabel_nameText_iff nameNormal parentNormal parentNotRoot,
    insideLabel_nameText_iff nameNormal parentNormal parentNotRoot]

theorem isParent_iff_suffix_iff (nameNotRoot : name ≠ []) (parentNotRoot : parent ≠ []) :
    (IsParent (nameText parent) (nameText name) ↔ parent <:+ name) ↔
      ¬ CutsLabel name parent := by
  rw [isParent_nameText_iff nameNormal parentNormal nameNotRoot parentNotRoot, or_iff_left_iff_imp]
  refine ⟨fun above cuts => ?_, fun whole cuts => absurd cuts whole⟩
  have atLabel : AtLabel name (nameText parent) := ⟨parent, parentNotRoot, above cuts, rfl⟩
  exact atLabel.not_insideLabel nameNormal.proper
    ((insideLabel_nameText_iff nameNormal parentNormal parentNotRoot).mpr cuts)

end Parents

theorem matchForwardingRule_iff {domain : Text} {rules : List ForwardingRule} :
    matchForwardingRule domain rules = true ↔ ∃ rule ∈ rules, IsParent rule.suffix domain := by
  rw [matchForwardingRule, List.any_eq_true]
  refine exists_congr fun rule => and_congr_right fun _ => ?_
  rw [Bool.or_eq_true, beq_iff_eq, List.isSuffixOf_iff_suffix, IsParent, eq_comm (a := domain)]
  exact or_congr_right ⟨fun ⟨front, same⟩ => ⟨front, same.symm⟩,
    fun ⟨front, same⟩ => ⟨front, same.symm⟩⟩

theorem matchForwardingRule_singleton_iff {domain suffix : Text} :
    matchForwardingRule domain [⟨suffix⟩] = true ↔ IsParent suffix domain := by
  simp [matchForwardingRule_iff]

theorem findInSet_singleton_iff {domain suffix : Text} :
    (findInSet domain {suffix}).isSome = true ↔ IsParent suffix domain := by
  simp [findInSet_isSome_iff]

theorem parentZone_cons_dot (rest : Text) (first : Text) (noDot : dot ∉ first) :
    parentZone (first ++ dot :: rest) = if rest = [] then [dot] else rest := by
  split
  · rename_i last
    subst last
    rw [parentZone]
    split
    · rfl
    · rw [dropWhile_ne_dot noDot]
      simp
  · rename_i nonempty
    exact parentZone_append noDot nonempty

/-- `parent_zone` drops the first label iff that label has no dot, or the dot
is the last octet of the only label. -/
theorem parentZone_nameText_iff {label : List UInt8} {labels : List (List UInt8)}
    (proper : ProperLabels (label :: labels)) :
    parentZone (nameText (label :: labels)) = zoneText labels ↔
      dot ∉ label ∨ labels = [] ∧ ∃ first, dot ∉ first ∧ label = first ++ [dot] := by
  have laterProper : ProperLabels labels := fun other otherMem => proper other (by simp [otherMem])
  by_cases hasDot : dot ∈ label
  · obtain ⟨first, second, rfl, noDot⟩ := List.eq_append_cons_of_mem hasDot
    have split : nameText ((first ++ dot :: second) :: labels) =
        (labelText first ++ [backslash]) ++ dot :: (labelText second ++ afterLabel labels) := by
      rw [nameText_eq_append, labelText_append, labelText, labelText, List.flatMap_cons,
        octetText_dot]
      simp [labelText]
    have noEarlier : dot ∉ labelText first ++ [backslash] := by
      have escape : dot ≠ backslash := by decide
      simp [not_mem_labelText noDot, escape]
    rw [split, parentZone_cons_dot _ _ noEarlier]
    constructor
    · intro walked
      refine .inr ?_
      by_cases last : labels = []
      · subst last
        refine ⟨rfl, first, noDot, ?_⟩
        by_contra goesOn
        have nonempty : second ≠ [] := by
          rintro rfl
          exact goesOn rfl
        obtain ⟨head, rest, labelEq, notDot⟩ := labelText_eq_cons nonempty
        simp [labelEq, notDot] at walked
      · have lengths := congrArg List.length walked
        rw [afterLabel, if_neg last, if_neg (by simp), zoneText_of_ne_nil last,
          List.length_append, List.length_cons] at lengths
        omega
    · rintro (without | ⟨rfl, other, otherNoDot, same⟩)
      · exact absurd hasDot without
      · have cut := congrArg (List.dropWhile (· != dot)) same
        rw [dropWhile_ne_dot noDot, dropWhile_ne_dot otherNoDot] at cut
        obtain rfl : second = [] := by simpa using cut
        rfl
  · have noEarlier := not_mem_labelText hasDot
    refine iff_of_true ?_ (.inl hasDot)
    by_cases last : labels = []
    · subst last
      rw [nameText_eq_append, afterLabel, if_pos rfl, List.append_nil, zoneText_nil,
        parentZone_of_not_mem noEarlier]
    · obtain ⟨head, rest, nameEq, -⟩ := nameText_eq_cons last laterProper
      rw [nameText_cons last, parentZone_append noEarlier (by simp [nameEq]),
        zoneText_of_ne_nil last]

/-! ## Matching by labels -/

/-- What it means to match a name and a zone by their labels, for the texts
that the name and the zone are read as. -/
structure MatchesLabels (name zone : List (List UInt8)) (qname suffix : Text) : Prop where
  blocked : (findInSet qname {suffix}).isSome = true ↔ zone <:+ name
  forwarded : matchForwardingRule qname [⟨suffix⟩] = true ↔ zone <:+ name
  walked : parentZone qname = zoneText name.tail
  tried : ∀ text, TriesZone qname text ↔
    ∃ upper, upper ≠ [] ∧ upper <:+ name ∧ text = nameText upper

theorem not_cutsLabel {name parent : List (List UInt8)} (noDots : ∀ label ∈ name, dot ∉ label) :
    ¬ CutsLabel name parent := by
  rintro ⟨front, first, second, rest, rfl, -⟩
  exact noDots (first ++ dot :: second) (by simp) (by simp)

/-- Names that were read are matched by their labels iff no label of the longer
name has a dot. -/
theorem matchesLabels_iff {first afterFirst second afterSecond : BytePacketBuffer}
    {qname suffix : Text} {jumps otherJumps : Nat} {name zone : List (List UInt8)}
    (ranName : exec readQname first = (.ok qname, afterFirst))
    (ranZone : exec readQname second = (.ok suffix, afterSecond))
    (namedName : NameAt first.buf jumps first.pos name)
    (namedZone : NameAt second.buf otherJumps second.pos zone) (nameNotRoot : name ≠ [])
    (zoneNotRoot : zone ≠ []) :
    MatchesLabels name zone qname suffix ↔ ∀ label ∈ name, dot ∉ label := by
  obtain ⟨_, labels, -, named, areLabels, rfl⟩ := nameAt_of_exec_readQname ranName
  obtain ⟨rfl, -⟩ := named.unique namedName
  obtain ⟨_, zoneLabels, -, zoneNamed, areZoneLabels, rfl⟩ := nameAt_of_exec_readQname ranZone
  obtain ⟨rfl, -⟩ := zoneNamed.unique namedZone
  have nameNormal : IsNormal labels := isNormal_of_wireLabels areLabels
  have zoneNormal : IsNormal zoneLabels := isNormal_of_wireLabels areZoneLabels
  have proper : ProperLabels labels := nameNormal.proper
  constructor
  · intro matched
    exact (triesZone_iff_atLabel_iff proper nameNotRoot).mp matched.tried
  · intro noDots
    have above : IsParent (nameText zoneLabels) (nameText labels) ↔ zoneLabels <:+ labels :=
      (isParent_iff_suffix_iff nameNormal zoneNormal nameNotRoot zoneNotRoot).mpr
        (not_cutsLabel noDots)
    refine ⟨findInSet_singleton_iff.trans above, matchForwardingRule_singleton_iff.trans above,
      ?_, (triesZone_iff_atLabel_iff proper nameNotRoot).mpr noDots⟩
    obtain ⟨label, later, rfl⟩ := List.exists_cons_of_ne_nil nameNotRoot
    exact (parentZone_nameText_iff proper).mpr (.inl (noDots label (by simp)))

/-- A label `a.b` in front of a label `c`. -/
def dottedBuffer : BytePacketBuffer :=
  .fromBytes [3, 0x61, 0x2E, 0x62, 1, 0x63, 0]

/-- The labels `b` and `c`. -/
def plainBuffer : BytePacketBuffer :=
  .fromBytes [1, 0x62, 1, 0x63, 0]

theorem nameAt_dottedBuffer :
    NameAt dottedBuffer.buf 0 dottedBuffer.pos [[0x61, 0x2E, 0x62], [0x63]] := by
  have first : dottedBuffer.buf[0]? = some 3 := by decide +kernel
  have second : dottedBuffer.buf[4]? = some 1 := by decide +kernel
  have last : dottedBuffer.buf[6]? = some 0 := by decide +kernel
  exact .label first (by decide) (by decide) (by decide +kernel)
    (.label second (by decide) (by decide) (by decide +kernel) (.root last))

theorem nameAt_plainBuffer : NameAt plainBuffer.buf 0 plainBuffer.pos [[0x62], [0x63]] := by
  have first : plainBuffer.buf[0]? = some 1 := by decide +kernel
  have second : plainBuffer.buf[2]? = some 1 := by decide +kernel
  have last : plainBuffer.buf[4]? = some 0 := by decide +kernel
  exact .label first (by decide) (by decide) (by decide +kernel)
    (.label second (by decide) (by decide) (by decide +kernel) (.root last))

theorem exec_readQname_dottedBuffer :
    (exec readQname dottedBuffer).1 = .ok (text "a\\.b.c") := by
  decide +kernel

theorem exec_readQname_plainBuffer :
    (exec readQname plainBuffer).1 = .ok (text "b.c") := by
  decide +kernel

theorem not_matchesLabels_dottedBuffer :
    ¬ MatchesLabels [[0x61, 0x2E, 0x62], [0x63]] [[0x62], [0x63]] (text "a\\.b.c")
      (text "b.c") := by
  rw [matchesLabels_iff (exec_eq_of_fst exec_readQname_dottedBuffer)
    (exec_eq_of_fst exec_readQname_plainBuffer) nameAt_dottedBuffer nameAt_plainBuffer
    (by decide) (by decide)]
  decide

/-- An entry for `b.c` matches the name of the labels `a.b` and `c`. -/
theorem not_all_matchesLabels :
    ¬ ∀ (first afterFirst second afterSecond : BytePacketBuffer) (qname suffix : Text)
      (jumps otherJumps : Nat) (name zone : List (List UInt8)),
      exec readQname first = (.ok qname, afterFirst) →
      exec readQname second = (.ok suffix, afterSecond) →
      NameAt first.buf jumps first.pos name → NameAt second.buf otherJumps second.pos zone →
      name ≠ [] → zone ≠ [] → MatchesLabels name zone qname suffix := by
  intro all
  have matched := all _ _ _ _ _ _ _ _ _ _ (exec_eq_of_fst exec_readQname_dottedBuffer)
    (exec_eq_of_fst exec_readQname_plainBuffer) nameAt_dottedBuffer nameAt_plainBuffer
    (by decide) (by decide)
  have above := matched.blocked.mp (by decide +kernel)
  exact absurd above (by decide)

end Numa
