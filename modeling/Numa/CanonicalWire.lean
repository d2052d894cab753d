import Numa.NameCodec

/-!
# The canonical wire form of names

What `name_to_wire` makes of the texts that `read_qname` gives: the labels of
the name that was read, in lower case, if they fit into a buffer.
-/

namespace Numa

open BytePacketBuffer

/-- `name_to_wire` goes on behind a label. -/
theorem lowercaseLabels_append (label rest : List UInt8) :
    lowercaseLabels label.length (label ++ rest) =
      label.map toAsciiLowercase ++ lowercaseLabels 0 rest := by
  induction label with
  | nil => rfl
  | cons octet label ih => rw [List.length_cons, List.cons_append, lowercaseLabels, ih]; rfl

theorem lowercaseLabels_wireName {labels : List (List UInt8)}
    (areLabels : ∀ label ∈ labels, IsWireLabel label) :
    lowercaseLabels 0 (wireName labels) = wireName labels := by
  induction labels with
  | nil => rfl
  | cons label labels ih =>
      obtain ⟨nonempty, short, lower⟩ := areLabels label (by simp)
      obtain ⟨-, -, notZero, length⟩ :=
        wireLength_bits label.length (List.length_pos_of_ne_nil nonempty) short
      have same : label.map toAsciiLowercase = label := by
        rw [List.map_congr_left lower, List.map_id']
      rw [wireName_eq_cons, lowercaseLabels, if_neg notZero, length, lowercaseLabels_append, same,
        ih fun other otherMem => areLabels other (by simp [otherMem])]

/-- The labels are found again behind their lengths. -/
theorem wireLabelsFrom_append {label : List UInt8} (nonempty : label ≠ []) (front rest : List UInt8) :
    wireLabelsFrom label.length front (label ++ rest) =
      (front ++ label) :: wireLabelsFrom 0 [] rest := by
  induction label generalizing front with
  | nil => exact absurd rfl nonempty
  | cons octet label ih =>
      by_cases last : label = []
      · subst last
        rfl
      · obtain ⟨next, later, rfl⟩ := List.exists_cons_of_ne_nil last
        have goesOn := ih last (front ++ [octet])
        rw [List.append_assoc] at goesOn
        exact goesOn

theorem wireLabelsFrom_wireName {labels : List (List UInt8)}
    (areLabels : ∀ label ∈ labels, IsWireLabel label) :
    wireLabelsFrom 0 [] (wireName labels) = labels := by
  induction labels with
  | nil => rfl
  | cons label labels ih =>
      obtain ⟨nonempty, short, -⟩ := areLabels label (by simp)
      obtain ⟨-, -, notZero, length⟩ :=
        wireLength_bits label.length (List.length_pos_of_ne_nil nonempty) short
      rw [wireName_eq_cons, wireLabelsFrom, if_neg notZero, length,
        wireLabelsFrom_append nonempty, List.nil_append,
        ih fun other otherMem => areLabels other (by simp [otherMem])]

/-- `name_to_wire` gives back the labels of the name, unless they overflow the
buffer. -/
theorem nameToWire_nameText {labels : List (List UInt8)}
    (areLabels : ∀ label ∈ labels, IsWireLabel label) :
    nameToWire (nameText labels) =
      if (wireName labels).length ≤ bufSize then some (wireName labels) else none := by
  obtain ⟨fits, overflows⟩ := writes_writeQname areLabels .new (Nat.zero_le _)
  by_cases room : (wireName labels).length ≤ bufSize
  · obtain ⟨_, after, ran, extended⟩ := fits (by simpa [BytePacketBuffer.new] using room)
    rw [if_pos room, nameToWire, ran]
    simp only
    rw [extended.filled (Nat.zero_le _)]
    exact congrArg some (lowercaseLabels_wireName areLabels)
  · obtain ⟨after, ran, -⟩ := overflows (by simpa [BytePacketBuffer.new] using room)
    rw [if_neg room, nameToWire, ran]

/-- A text that `read_qname` gives is that of the labels in its wire form. -/
theorem BytePacketBuffer.Producible.of_wireLabels {name : Text} {labels : List (List UInt8)}
    (producible : Producible name) (found : wireLabels name = some labels) :
    (∀ label ∈ labels, IsWireLabel label) ∧ name = nameText labels := by
  obtain ⟨read, areLabels, rfl⟩ := producible.exists_labels
  rw [wireLabels, nameToWire_nameText areLabels] at found
  split at found
  · rw [Option.map_some, wireLabelsFrom_wireName areLabels] at found
    obtain rfl := Option.some.inj found
    exact ⟨areLabels, rfl⟩
  · cases found

end Numa
