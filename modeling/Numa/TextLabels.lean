import Numa.NameWriter

/-!
# The labels of a text

What `write_qname` writes, said without the writer: the escapes of the text are
resolved, it is cut at its dots, and empty labels are dropped.  There is nothing
to write for a text with a malformed escape or with more than 63 octets between
two dots.
-/

namespace Numa

open BytePacketBuffer

/-- The octets of a text, and nothing in the place of a dot between labels.  A
malformed escape has no octet. -/
def unescape : Text → Option (List (Option UInt8))
  | [] => some []
  | octet :: rest =>
    if octet = dot then (unescape rest).map (none :: ·)
    else if octet = backslash then
      match rest with
      | [] => none
      | first :: rest =>
        if isAsciiDigit first then
          match rest with
          | second :: third :: rest =>
            if isAsciiDigit second && isAsciiDigit third then
              let val := (first - 0x30).toNat * 100 +
                (second - 0x30).toNat * 10 + (third - 0x30).toNat
              if val > 255 then none else (unescape rest).map (some val.toUInt8 :: ·)
            else none
          | _ => none
        else (unescape rest).map (some first :: ·)
    else (unescape rest).map (some octet :: ·)

/-- What stands between the dots. -/
def pieces : List (Option UInt8) → List (List UInt8)
  | [] => [[]]
  | none :: octets => [] :: pieces octets
  | some octet :: octets => (pieces octets).modifyHead (octet :: ·)

/-- The text has a malformed escape, or a label of more than 63 octets. -/
def IsBroken (name : Text) : Prop :=
  ∀ octets ∈ unescape name, ∃ piece ∈ pieces octets, 63 < piece.length

/-- The labels between the dots, if none is too long. -/
def labelsOf (pieces : List (List UInt8)) : Option (List (List UInt8)) :=
  if ∀ piece ∈ pieces, piece.length ≤ 63 then some (pieces.filter (· ≠ [])) else none

theorem exists_pieces (octets : List (Option UInt8)) :
    ∃ first rest, pieces octets = first :: rest := by
  induction octets with
  | nil => exact ⟨[], [], rfl⟩
  | cons octet octets ih =>
      obtain ⟨first, rest, split⟩ := ih
      cases octet with
      | none => exact ⟨[], pieces octets, rfl⟩
      | some octet => exact ⟨octet :: first, rest, by rw [pieces, split]; rfl⟩

theorem pieces_append (label : List UInt8) (octets : List (Option UInt8)) :
    pieces (label.map some ++ octets) = (pieces octets).modifyHead (label ++ ·) := by
  induction label with
  | nil =>
      obtain ⟨first, rest, split⟩ := exists_pieces octets
      rw [List.map_nil, List.nil_append, split]
      rfl
  | cons octet label ih =>
      rw [List.map_cons, List.cons_append, pieces, ih]
      cases pieces octets <;> rfl

theorem pieces_dot (label : List UInt8) (octets : List (Option UInt8)) :
    pieces (label.map some ++ none :: octets) = label :: pieces octets := by
  rw [pieces_append, pieces, List.modifyHead_cons, List.append_nil]

theorem labelsOf_append_of_long {label : List UInt8} (long : 63 < label.length)
    (octets : List (Option UInt8)) : labelsOf (pieces (label.map some ++ octets)) = none := by
  obtain ⟨first, rest, split⟩ := exists_pieces octets
  rw [pieces_append, split, List.modifyHead_cons, labelsOf, if_neg]
  intro short
  have firstShort := short _ List.mem_cons_self
  rw [List.length_append] at firstShort
  omega

theorem labelsOf_cons {piece : List UInt8} (short : piece.length ≤ 63) (later : List (List UInt8)) :
    labelsOf (piece :: later) = (labelsOf later).map (closedLabel piece ++ ·) := by
  have kept : (piece :: later).filter (· ≠ []) = closedLabel piece ++ later.filter (· ≠ []) := by
    rw [closedLabel]
    split
    · rename_i empty
      rw [empty]
      rfl
    · rename_i nonempty
      rw [List.filter_cons_of_pos (by simpa using nonempty)]
      rfl
  simp only [labelsOf, List.forall_mem_cons, short, true_and, kept]
  split <;> rfl

/-- The label that has begun and the text behind it, an octet later. -/
theorem labelsOf_push {label : List UInt8} (val : UInt8) (octets : Option (List (Option UInt8)))
    {rest : Text}
    (ih : label.length < 63 → labelsFrom (label ++ [val]) rest =
      octets.bind fun octets => labelsOf (pieces ((label ++ [val]).map some ++ octets))) :
    ((pushOctet label val).bind fun label => labelsFrom label rest) =
      (octets.map (some val :: ·)).bind fun octets =>
        labelsOf (pieces (label.map some ++ octets)) := by
  have moved : ∀ octets : List (Option UInt8),
      label.map some ++ some val :: octets = (label ++ [val]).map some ++ octets := by
    simp
  rw [Option.bind_map]
  simp only [Function.comp_def, moved]
  by_cases room : label.length < 63
  · rw [pushOctet_eq_some.mpr ⟨room, rfl⟩, Option.bind_some, ih room]
  · have full : pushOctet label val = none := if_pos (by omega)
    have long : 63 < (label ++ [val]).length := by
      rw [List.length_append, List.length_singleton]
      omega
    rw [full, Option.bind_none]
    simp only [labelsOf_append_of_long long]
    cases octets <;> rfl

/-- An escape is malformed for the parser of labels too, or both go on with the
same octet. -/
theorem unescape_escape (rest : Text) :
    ((∀ label, labelsFrom label (backslash :: rest) = none) ∧ unescape (backslash :: rest) = none) ∨
      ∃ val tail, tail.length ≤ rest.length ∧
        (∀ label, labelsFrom label (backslash :: rest) =
          (pushOctet label val).bind fun label => labelsFrom label tail) ∧
        unescape (backslash :: rest) = (unescape tail).map (some val :: ·) := by
  have notDot : backslash ≠ dot := by decide
  rcases rest with _ | ⟨first, rest⟩
  · refine .inl ⟨fun label => ?_, ?_⟩
    · rw [labelsFrom.eq_def]
      simp [notDot]
    · rw [unescape.eq_def]
      simp [notDot]
  · cases digit : isAsciiDigit first with
    | false =>
        refine .inr ⟨first, rest, by simp, fun label => ?_, ?_⟩
        · rw [labelsFrom.eq_def]
          simp [notDot, digit]
        · rw [unescape.eq_def]
          simp [notDot, digit]
    | true =>
        rcases rest with _ | ⟨second, _ | ⟨third, rest⟩⟩
        · refine .inl ⟨fun label => ?_, ?_⟩
          · rw [labelsFrom.eq_def]
            simp [notDot, digit]
          · rw [unescape.eq_def]
            simp [notDot, digit]
        · refine .inl ⟨fun label => ?_, ?_⟩
          · rw [labelsFrom.eq_def]
            simp [notDot, digit]
          · rw [unescape.eq_def]
            simp [notDot, digit]
        · by_cases valid : (isAsciiDigit second && isAsciiDigit third) = true ∧
              ¬ (first - 0x30).toNat * 100 + (second - 0x30).toNat * 10 +
                (third - 0x30).toNat > 255
          · refine .inr ⟨((first - 0x30).toNat * 100 + (second - 0x30).toNat * 10 +
              (third - 0x30).toNat).toUInt8, rest, by simp; omega, fun label => ?_, ?_⟩
            · rw [labelsFrom.eq_def]
              simp [notDot, digit, valid.1, valid.2]
            · rw [unescape.eq_def]
              simp [notDot, digit, valid.1, valid.2]
          · refine .inl ⟨fun label => ?_, ?_⟩
            · rw [labelsFrom.eq_def]
              simp only [notDot, digit, if_false, if_true]
              split
              · rename_i digits
                exact if_pos (not_not.mp fun small => valid ⟨digits, small⟩)
              · rfl
            · rw [unescape.eq_def]
              simp only [notDot, digit, if_false, if_true]
              split
              · rename_i digits
                exact if_pos (not_not.mp fun small => valid ⟨digits, small⟩)
              · rfl

theorem labelsFrom_eq (name : Text) {label : List UInt8} (short : label.length ≤ 63)
    (begun : label ≠ [] ∨ name ≠ []) :
    labelsFrom label name =
      (unescape name).bind fun octets => labelsOf (pieces (label.map some ++ octets)) := by
  have longer : ∀ val : UInt8, label.length < 63 → (label ++ [val]).length ≤ 63 := by
    intro val room
    rw [List.length_append, List.length_singleton]
    omega
  match name with
  | [] =>
    have nonempty : label ≠ [] := by simpa using begun
    rw [labelsFrom, unescape, Option.bind_some, pieces_append, pieces, List.modifyHead_cons,
      List.append_nil, labelsOf_cons short, closedLabel, if_neg nonempty]
    rfl
  | octet :: rest =>
    by_cases isDot : octet = dot
    · subst isDot
      rw [labelsFrom_dot, unescape.eq_def]
      dsimp only
      rw [if_pos rfl, Option.bind_map]
      simp only [Function.comp_def, pieces_dot, labelsOf_cons short]
      by_cases last : rest = []
      · subst last
        rw [if_pos rfl, unescape, Option.bind_some, pieces, labelsOf_cons (Nat.zero_le _)]
        simp [labelsOf, closedLabel]
      · rw [if_neg last, labelsFrom_eq rest (Nat.zero_le _) (.inr last), Option.map_bind]
        rfl
    · by_cases escape : octet = backslash
      · subst escape
        rcases unescape_escape rest with ⟨parsed, octets⟩ | ⟨val, tail, shorter, parsed, octets⟩
        · rw [parsed, octets]
          rfl
        · rw [parsed, octets]
          exact labelsOf_push val (unescape tail) fun room =>
            labelsFrom_eq tail (longer val room) (.inl (by simp))
      · have parsed : labelsFrom label (octet :: rest) =
            (pushOctet label octet).bind fun label => labelsFrom label rest := by
          rw [labelsFrom.eq_def]
          simp [isDot, escape]
        have octets : unescape (octet :: rest) = (unescape rest).map (some octet :: ·) := by
          rw [unescape.eq_def]
          simp [isDot, escape]
        rw [parsed, octets]
        exact labelsOf_push octet (unescape rest) fun room =>
          labelsFrom_eq rest (longer octet room) (.inl (by simp))
termination_by name.length

/-- The labels that are written for a text are what stands between its dots. -/
theorem textLabels_eq (name : Text) :
    textLabels name = (unescape name).bind fun octets => labelsOf (pieces octets) := by
  rw [textLabels]
  split
  · rename_i root
    rcases root with rfl | rfl <;> decide
  · rename_i notRoot
    exact labelsFrom_eq name (Nat.zero_le _) (.inr fun empty => notRoot (.inl empty))

theorem textLabels_eq_none_iff (name : Text) : textLabels name = none ↔ IsBroken name := by
  rw [textLabels_eq, IsBroken]
  cases unescape name with
  | none => simp
  | some octets => simp [labelsOf]

/-! ## Texts of labels -/

/-- The text of an octet stands for the octet. -/
theorem unescape_octetText {octet : UInt8} (lower : toAsciiLowercase octet = octet) (rest : Text) :
    unescape (octetText octet ++ rest) = (unescape rest).map (some octet :: ·) := by
  have escape : backslash ≠ dot := by decide
  have dotNoDigit : isAsciiDigit dot = false := by decide
  have backslashNoDigit : isAsciiDigit backslash = false := by decide
  unfold octetText
  rw [lower]
  simp only
  split
  · rename_i isDot
    subst isDot
    simp only [List.cons_append, List.nil_append]
    conv_lhs => rw [unescape.eq_def]
    simp only [escape, dotNoDigit, if_false, if_true, Bool.false_eq_true]
  · rename_i notDot
    split
    · rename_i isBackslash
      subst isBackslash
      simp only [List.cons_append, List.nil_append]
      conv_lhs => rw [unescape.eq_def]
      simp only [escape, backslashNoDigit, if_false, if_true, Bool.false_eq_true]
    · rename_i notBackslash
      split
      · simp only [List.cons_append, List.nil_append]
        conv_lhs => rw [unescape.eq_def]
        simp only [notDot, notBackslash, if_false]
      · obtain ⟨firstDigit, secondDigit, thirdDigit, value⟩ := decimal_escape octet
        have bound := octet.toNat_lt
        simp only [List.cons_append, List.nil_append]
        conv_lhs => rw [unescape.eq_def]
        simp only [escape, if_false, if_true, firstDigit, secondDigit, thirdDigit,
          Bool.and_self, value]
        rw [if_neg (by omega)]
        simp

theorem unescape_labelText {label : List UInt8}
    (lower : ∀ octet ∈ label, toAsciiLowercase octet = octet) (rest : Text) :
    unescape (labelText label ++ rest) = (unescape rest).map (label.map some ++ ·) := by
  induction label with
  | nil => simp [labelText]
  | cons octet label ih =>
      have split : labelText (octet :: label) ++ rest =
          octetText octet ++ (labelText label ++ rest) := by
        simp [labelText]
      rw [split, unescape_octetText (lower octet (by simp)),
        ih fun other mem => lower other (by simp [mem]), Option.map_map]
      rfl

theorem unescape_dot (rest : Text) : unescape (dot :: rest) = (unescape rest).map (none :: ·) := by
  rw [unescape.eq_def]
  exact if_pos rfl

theorem exists_unescape_nameText {labels : List (List UInt8)}
    (areLabels : ∀ label ∈ labels, IsWireLabel label) :
    ∃ octets, unescape (nameText labels) = some octets ∧ labelsOf (pieces octets) = some labels := by
  induction labels with
  | nil => exact ⟨[], by rw [nameText_nil, unescape], rfl⟩
  | cons label labels ih =>
      obtain ⟨nonempty, short, lower⟩ := areLabels label (by simp)
      have closed : closedLabel label = [label] := if_neg nonempty
      by_cases last : labels = []
      · subst last
        have text : nameText [label] = labelText label ++ [] := by simp [nameText]
        refine ⟨label.map some ++ [], ?_, ?_⟩
        · rw [text, unescape_labelText lower, unescape, Option.map_some]
        · rw [pieces_append, pieces, List.modifyHead_cons, List.append_nil, labelsOf_cons short, closed]
          rfl
      · obtain ⟨octets, unescaped, found⟩ := ih fun other mem => areLabels other (by simp [mem])
        refine ⟨label.map some ++ none :: octets, ?_, ?_⟩
        · rw [nameText_cons last, unescape_labelText lower, unescape_dot, unescaped]
          rfl
        · rw [pieces_dot, labelsOf_cons short, found, closed]
          rfl

/-- The labels that are written for the text of labels are these labels. -/
theorem textLabels_nameText {labels : List (List UInt8)}
    (areLabels : ∀ label ∈ labels, IsWireLabel label) :
    textLabels (nameText labels) = some labels := by
  obtain ⟨octets, unescaped, found⟩ := exists_unescape_nameText areLabels
  rw [textLabels_eq, unescaped, Option.bind_some, found]

end Numa
