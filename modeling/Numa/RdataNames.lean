import Numa.DenotedName
import Numa.ReaderRules

/-!
# The names in the data of records

The data of a record consist of parts, of which some are names.  A message says
which name each of them denotes, following its compression pointers.  Data whose
names have no pointers can stand anywhere and denote the same names there.
-/

namespace Numa

open BytePacketBuffer

/-! ## Names without pointers -/

section Plain

variable {octets : List UInt8} {pos : Nat}

/-- A label as it may stand in a message, in upper or lower case. -/
def IsRawLabel (label : List UInt8) : Prop :=
  label ≠ [] ∧ label.length ≤ 63

instance (label : List UInt8) : Decidable (IsRawLabel label) :=
  inferInstanceAs (Decidable (label ≠ [] ∧ label.length ≤ 63))

def lowerLabels (labels : List (List UInt8)) : List (List UInt8) :=
  labels.map fun label => label.map toAsciiLowercase

theorem lowerLabels_of_wire {labels : List (List UInt8)}
    (areLabels : ∀ label ∈ labels, IsWireLabel label) : lowerLabels labels = labels := by
  have lower : ∀ label ∈ labels, label.map toAsciiLowercase = label := by
    intro label labelMem
    obtain ⟨-, -, isLower⟩ := areLabels label labelMem
    exact (List.map_congr_left isLower).trans (List.map_id _)
  exact (List.map_congr_left lower).trans (List.map_id _)

theorem getElem?_of_stands {front : List UInt8} (stands : front <+: octets.drop pos) {index : Nat}
    (inside : index < front.length) : octets[pos + index]? = front[index]? := by
  obtain ⟨rest, split⟩ := stands
  rw [← List.getElem?_drop, ← split, List.getElem?_append_left inside]

theorem length_of_stands {front : List UInt8} (stands : front <+: octets.drop pos)
    (nonempty : front ≠ []) : pos + front.length ≤ octets.length := by
  have length := stands.length_le
  have positive := List.length_pos_of_ne_nil nonempty
  rw [List.length_drop] at length
  omega

theorem prefix_right {before later : List UInt8} (stands : before ++ later <+: octets.drop pos) :
    later <+: octets.drop (pos + before.length) := by
  obtain ⟨rest, split⟩ := stands
  rw [← List.drop_drop, ← split, List.append_assoc, List.drop_left]
  exact List.prefix_append later rest

theorem prefix_left {before later : List UInt8} (stands : before ++ later <+: octets.drop pos) :
    before <+: octets.drop pos :=
  (List.prefix_append before later).trans stands

theorem wireName_cons (label : List UInt8) (labels : List (List UInt8)) :
    wireName (label :: labels) = [label.length.toUInt8] ++ (label ++ wireName labels) :=
  wireName_eq_cons label labels

theorem wireName_ne_nil (labels : List (List UInt8)) : wireName labels ≠ [] := by
  simp [wireName]

theorem isRawLabel_of_wire {label : List UInt8} (isLabel : IsWireLabel label) : IsRawLabel label :=
  ⟨isLabel.1, isLabel.2.1⟩

/-- Labels with their lengths and the root label denote the name of these labels. -/
theorem nameAt_of_stands {raw : List (List UInt8)} (areLabels : ∀ label ∈ raw, IsRawLabel label)
    (stands : wireName raw <+: octets.drop pos) : NameAt octets 0 pos (lowerLabels raw) := by
  induction raw generalizing pos with
  | nil => exact .root (getElem?_of_stands stands (by decide : 0 < 1))
  | cons label raw ih =>
      obtain ⟨nonempty, short⟩ := areLabels label (by simp)
      obtain ⟨-, plain, notRoot, lengthEq⟩ :=
        wireLength_bits label.length (List.length_pos_of_ne_nil nonempty) short
      rw [wireName_cons] at stands
      have first : octets[pos]? = some label.length.toUInt8 :=
        getElem?_of_stands stands (by simp : 0 < _)
      have behind := prefix_right stands
      have inside := length_of_stands (prefix_left behind) nonempty
      have labelEq : (octets.drop (pos + 1)).take label.length = label :=
        (List.prefix_iff_eq_take.mp (prefix_left behind)).symm
      have rest := ih (fun other otherMem => areLabels other (by simp [otherMem]))
        (prefix_right behind)
      simp only [List.length_singleton] at inside
      have named : NameAt octets 0 pos
          (((octets.drop (pos + 1)).take label.length.toUInt8.toNat).map toAsciiLowercase ::
            lowerLabels raw) := by
        refine .label first plain notRoot ?_ ?_
        · rwa [lengthEq]
        · rwa [lengthEq]
      rwa [lengthEq, labelEq] at named

/-- A name that is read without a jump stands there with its labels and the root
label. -/
theorem NameAt.stands_of_plain {labels : List (List UInt8)} {jumps : Nat}
    (named : NameAt octets jumps pos labels) (plain : jumps = 0) :
    ∃ raw, (∀ label ∈ raw, IsRawLabel label) ∧ labels = lowerLabels raw ∧
      wireName raw <+: octets.drop pos := by
  induction named with
  | root first =>
      obtain ⟨inside, zero⟩ := List.getElem?_eq_some_iff.mp first
      refine ⟨[], by simp, rfl, ?_⟩
      rw [List.drop_eq_getElem_cons inside, zero]
      exact List.prefix_append [0] _
  | @label _ pos len _ first isPlain notRoot inside rest ih =>
      obtain ⟨raw, areLabels, rfl, stands⟩ := ih plain
      have positive : len.toNat ≠ 0 := fun zero => notRoot (UInt8.toNat_inj.mp zero)
      have length : ((octets.drop (pos + 1)).take len.toNat).length = len.toNat := by
        rw [List.length_take, List.length_drop]
        omega
      refine ⟨(octets.drop (pos + 1)).take len.toNat :: raw, ?_, rfl, ?_⟩
      · simp only [List.mem_cons, forall_eq_or_imp]
        refine ⟨⟨List.ne_nil_of_length_pos (by omega), ?_⟩, areLabels⟩
        rw [length]
        exact label_length_le len isPlain
      · obtain ⟨within, octetEq⟩ := List.getElem?_eq_some_iff.mp first
        have lengthOctet : len.toNat.toUInt8 = len := UInt8.ofNat_toNat
        rw [wireName_cons, length, lengthOctet, List.drop_eq_getElem_cons within, octetEq]
        refine (List.prefix_cons_inj len).mpr ?_
        obtain ⟨behind, split⟩ := stands
        refine ⟨behind, ?_⟩
        calc (octets.drop (pos + 1)).take len.toNat ++ wireName raw ++ behind
            = (octets.drop (pos + 1)).take len.toNat ++ (wireName raw ++ behind) :=
              List.append_assoc _ _ _
          _ = (octets.drop (pos + 1)).take len.toNat ++ (octets.drop (pos + 1)).drop len.toNat := by
              rw [split, List.drop_drop]
          _ = octets.drop (pos + 1) := List.take_append_drop _ _
  | pointer => cases plain

theorem skipLabels_of_stands {raw : List (List UInt8)} {rounds : Nat}
    (areLabels : ∀ label ∈ raw, IsRawLabel label) (stands : wireName raw <+: octets.drop pos)
    (enough : raw.length < rounds) :
    skipLabels octets rounds pos = .ok (pos + (wireName raw).length) := by
  induction raw generalizing pos rounds with
  | nil =>
      obtain ⟨rounds, rfl⟩ : ∃ fewer, rounds = fewer + 1 := ⟨rounds - 1, by simp at enough; omega⟩
      have inside := length_of_stands stands (wireName_ne_nil [])
      have first : octets[pos]? = some 0 := getElem?_of_stands stands (by decide : 0 < 1)
      have zero : wireOctet octets pos = 0 := by
        rw [wireOctet, List.getD_eq_getElem?_getD, first]
        rfl
      refine skipLabels_eq_ok_iff.mpr ⟨inside, .inr (.inl ⟨?_, rfl⟩)⟩
      rw [zero]
      rfl
  | cons label raw ih =>
      obtain ⟨rounds, rfl⟩ : ∃ fewer, rounds = fewer + 1 := ⟨rounds - 1, by simp at enough; omega⟩
      obtain ⟨nonempty, short⟩ := areLabels label (by simp)
      obtain ⟨noPointer, -, notRoot, lengthEq⟩ :=
        wireLength_bits label.length (List.length_pos_of_ne_nil nonempty) short
      have inside := length_of_stands stands (wireName_ne_nil _)
      have positive := List.length_pos_of_ne_nil (wireName_ne_nil (label :: raw))
      rw [wireName_cons] at stands
      have first : octets[pos]? = some label.length.toUInt8 :=
        getElem?_of_stands stands (by simp : 0 < _)
      have octetEq : wireOctet octets pos = label.length.toUInt8 := by
        rw [wireOctet, List.getD_eq_getElem?_getD, first]
        rfl
      have later : skipLabels octets rounds _ = _ :=
        ih (fun other otherMem => areLabels other (by simp [otherMem]))
          (prefix_right (prefix_right stands)) (by simpa using enough)
      refine skipLabels_eq_ok_iff.mpr ⟨by omega, .inr (.inr ⟨?_, ?_, ?_⟩)⟩
      · rw [octetEq]
        exact fun pointer => noPointer ((pointer_iff _).mpr pointer)
      · rw [octetEq, lengthEq]
        exact Nat.ne_of_gt (List.length_pos_of_ne_nil nonempty)
      · rw [octetEq, lengthEq]
        rw [List.length_singleton] at later
        rw [later, wireName_cons, List.length_append, List.length_append, List.length_singleton]
        simp only [Nat.add_assoc]

theorem length_le_wireName {raw : List (List UInt8)} : raw.length ≤ (wireName raw).length := by
  induction raw with
  | nil => exact Nat.zero_le _
  | cons label raw ih =>
      rw [wireName_cons, List.length_append, List.length_append, List.length_singleton,
        List.length_cons]
      omega

theorem skipWireName_of_stands {raw : List (List UInt8)}
    (areLabels : ∀ label ∈ raw, IsRawLabel label) (stands : wireName raw <+: octets.drop pos) :
    skipWireName octets pos = .ok (pos + (wireName raw).length) := by
  have inside := length_of_stands stands (wireName_ne_nil raw)
  have length : raw.length ≤ (wireName raw).length := length_le_wireName
  exact skipLabels_of_stands areLabels stands (by omega)

end Plain

/-! ## The parts of the data -/

/-- A part of the data of a record. -/
inductive RdataPart
  | fixed (len : Nat)
  | name
  /-- Octets behind an octet with their number. -/
  | counted
  /-- All octets up to the end of the data. -/
  | rest

/-- The parts of the data of the types whose data have names, and of those that
the parser takes apart. -/
def rdataLayout (qtypeNum : UInt16) : List RdataPart :=
  match qtypeNum.toNat with
  | 1 => [.fixed 4]
  | 28 => [.fixed 16]
  -- NS, MD, MF, CNAME, MB, MG, MR, PTR and DNAME
  | 2 | 3 | 4 | 5 | 7 | 8 | 9 | 12 | 39 => [.name]
  -- SOA
  | 6 => [.name, .name, .fixed 4, .fixed 4, .fixed 4, .fixed 4, .fixed 4]
  -- MINFO and RP
  | 14 | 17 => [.name, .name]
  -- MX, AFSDB, RT and KX
  | 15 | 18 | 21 | 36 => [.fixed 2, .name]
  -- SIG and RRSIG
  | 24 | 46 =>
    [.fixed 2, .fixed 1, .fixed 1, .fixed 4, .fixed 4, .fixed 4, .fixed 2, .name, .rest]
  -- PX
  | 26 => [.fixed 2, .name, .name]
  -- NXT and NSEC
  | 30 | 47 => [.name, .rest]
  -- SRV
  | 33 => [.fixed 2, .fixed 2, .fixed 2, .name]
  -- NAPTR
  | 35 => [.fixed 2, .fixed 2, .counted, .counted, .counted, .name]
  -- DS and DNSKEY
  | 43 | 48 => [.fixed 2, .fixed 1, .fixed 1, .rest]
  -- NSEC3
  | 50 => [.fixed 1, .fixed 1, .fixed 2, .counted, .counted, .rest]
  -- SVCB and HTTPS
  | 64 | 65 => [.fixed 2, .name, .rest]
  | _ => [.rest]

/-- What a name denotes, and over how many jumps. -/
structure Denoted where
  labels : List (List UInt8)
  jumps : Nat
  deriving DecidableEq

/-- These parts stand from one position to another, before the end of the data,
and the names among them denote these. -/
inductive DataNames (octets : List UInt8) (limit : Nat) :
    List RdataPart → Nat → List Denoted → Nat → Prop
  | nil (pos : Nat) : DataNames octets limit [] pos [] pos
  | fixed {parts : List RdataPart} {pos last len : Nat} {names : List Denoted}
      (rest : DataNames octets limit parts (pos + len) names last) :
      DataNames octets limit (.fixed len :: parts) pos names last
  | name {parts : List RdataPart} {pos last next : Nat} {names : List Denoted} {name : Denoted}
      (denotes : NameAt octets name.jumps pos name.labels)
      (ends : skipWireName octets pos = .ok next)
      (rest : DataNames octets limit parts next names last) :
      DataNames octets limit (.name :: parts) pos (name :: names) last
  | counted {parts : List RdataPart} {pos last : Nat} {count : UInt8} {names : List Denoted}
      (first : octets[pos]? = some count)
      (rest : DataNames octets limit parts (pos + 1 + count.toNat) names last) :
      DataNames octets limit (.counted :: parts) pos names last
  | rest {pos : Nat} (inside : pos ≤ limit) : DataNames octets limit [.rest] pos [] limit

/-- The same without pointers: the octets of the parts, wherever they stand. -/
inductive PlainData : List RdataPart → List UInt8 → List (List (List UInt8)) → Prop
  | nil : PlainData [] [] []
  | fixed {parts : List RdataPart} {front later : List UInt8} {names : List (List (List UInt8))}
      (rest : PlainData parts later names) :
      PlainData (.fixed front.length :: parts) (front ++ later) names
  | name {parts : List RdataPart} {raw : List (List UInt8)} {later : List UInt8}
      {names : List (List (List UInt8))} (areLabels : ∀ label ∈ raw, IsRawLabel label)
      (rest : PlainData parts later names) :
      PlainData (.name :: parts) (wireName raw ++ later) (lowerLabels raw :: names)
  | counted {parts : List RdataPart} {count : UInt8} {front later : List UInt8}
      {names : List (List (List UInt8))} (length : front.length = count.toNat)
      (rest : PlainData parts later names) :
      PlainData (.counted :: parts) ([count] ++ (front ++ later)) names
  | rest (octets : List UInt8) : PlainData [.rest] octets []

section DataNames

variable {octets : List UInt8} {limit pos last : Nat} {parts : List RdataPart}
  {names : List Denoted}

theorem DataNames.unique {others : List Denoted} {otherLast : Nat}
    (first : DataNames octets limit parts pos names last)
    (second : DataNames octets limit parts pos others otherLast) :
    names = others ∧ last = otherLast := by
  induction first generalizing others otherLast with
  | nil => cases second; exact ⟨rfl, rfl⟩
  | fixed rest ih =>
      cases second with
      | fixed otherRest => exact ih otherRest
  | @name _ _ _ _ _ name denotes ends rest ih =>
      cases second with
      | @name _ _ _ _ _ other otherDenotes otherEnds otherRest =>
          cases ends.symm.trans otherEnds
          obtain ⟨labelsEq, jumpsEq⟩ := denotes.unique otherDenotes
          have nameEq : name = other := by
            cases name
            cases other
            simp_all
          obtain ⟨rfl, rfl⟩ := ih otherRest
          exact ⟨by rw [nameEq], rfl⟩
  | counted count rest ih =>
      cases second with
      | counted otherCount otherRest =>
          cases Option.some.inj (count.symm.trans otherCount)
          exact ih otherRest
  | rest => cases second; exact ⟨rfl, rfl⟩

theorem DataNames.le (named : DataNames octets limit parts pos names last) : pos ≤ last := by
  induction named with
  | nil => exact le_refl _
  | fixed rest ih => omega
  | name denotes ends rest ih =>
      have further := skipLabels_gt ends
      omega
  | counted first rest ih => omega
  | rest inside => exact inside

/-- Data without pointers denote the same names wherever they stand. -/
theorem PlainData.dataNames {data : List UInt8} {labels : List (List (List UInt8))}
    (plain : PlainData parts data labels) (stands : data <+: octets.drop pos)
    (ends : pos + data.length = limit) :
    DataNames octets limit parts pos (labels.map fun name => ⟨name, 0⟩) limit := by
  induction plain generalizing pos with
  | nil =>
      obtain rfl : pos = limit := by simpa using ends
      exact .nil pos
  | fixed rest ih =>
      rw [List.length_append] at ends
      exact .fixed (ih (prefix_right stands) (by omega))
  | name areLabels rest ih =>
      rw [List.length_append] at ends
      exact .name (nameAt_of_stands areLabels (prefix_left stands))
        (skipWireName_of_stands areLabels (prefix_left stands))
        (ih (prefix_right stands) (by omega))
  | counted length rest ih =>
      rw [List.length_append, List.length_append, List.length_singleton] at ends
      have later := ih (prefix_right (prefix_right stands)) (by
        rw [List.length_singleton]
        omega)
      rw [List.length_singleton, length] at later
      exact .counted (getElem?_of_stands stands (by simp : 0 < _)) later
  | rest data =>
      obtain rfl := ends
      exact .rest (Nat.le_add_right _ _)

theorem octetsAt_append (octets : List UInt8) (pos first second : Nat) :
    octetsAt octets pos (first + second) =
      octetsAt octets pos first ++ octetsAt octets (pos + first) second := by
  rw [octetsAt, octetsAt, octetsAt, List.take_add, List.drop_drop]

theorem length_octetsAt {len : Nat} (inside : pos + len ≤ octets.length) :
    (octetsAt octets pos len).length = len := by
  rw [octetsAt, List.length_take, List.length_drop]
  omega

/-- The octets of a range, of which the first ones are known to be another. -/
theorem octetsAt_split {first : Nat} (before : pos + first ≤ limit) :
    octetsAt octets pos (limit - pos) =
      octetsAt octets pos first ++ octetsAt octets (pos + first) (limit - (pos + first)) := by
  rw [← octetsAt_append]
  congr 1
  omega

/-- Data in which no name is read with a jump have no pointers. -/
theorem DataNames.plainData (named : DataNames octets limit parts pos names last)
    (whole : last = limit) (inside : limit ≤ octets.length)
    (plain : ∀ name ∈ names, name.jumps = 0) :
    PlainData parts (octetsAt octets pos (limit - pos)) (names.map Denoted.labels) := by
  induction named with
  | nil pos =>
      rw [whole, Nat.sub_self]
      exact .nil
  | @fixed _ pos _ len _ rest ih =>
      have before := rest.le
      have length : (octetsAt octets pos len).length = len := length_octetsAt (by omega)
      rw [octetsAt_split (by omega : pos + len ≤ limit)]
      have data : PlainData (.fixed (octetsAt octets pos len).length :: _)
          (octetsAt octets pos len ++ _) _ := .fixed (ih whole plain)
      rwa [length] at data
  | @name _ pos _ next _ name denotes ends rest ih =>
      simp only [List.mem_cons, forall_eq_or_imp] at plain
      obtain ⟨raw, areLabels, labelsEq, stands⟩ := denotes.stands_of_plain plain.1
      have nextEq : pos + (wireName raw).length = next :=
        Except.ok.inj ((skipWireName_of_stands areLabels stands).symm.trans ends)
      subst nextEq
      have before := rest.le
      have frontEq : octetsAt octets pos (wireName raw).length = wireName raw :=
        (List.prefix_iff_eq_take.mp stands).symm
      rw [octetsAt_split (by omega : pos + (wireName raw).length ≤ limit), frontEq, List.map_cons,
        labelsEq]
      exact .name areLabels (ih whole plain.2)
  | @counted _ pos _ count _ first rest ih =>
      have before := rest.le
      obtain ⟨within, octetEq⟩ := List.getElem?_eq_some_iff.mp first
      have one : octetsAt octets pos 1 = [count] := by
        rw [octetsAt, List.drop_eq_getElem_cons within, octetEq]
        rfl
      rw [octetsAt_split (by omega : pos + 1 ≤ limit), one,
        octetsAt_split (by omega : pos + 1 + count.toNat ≤ limit)]
      exact .counted (length_octetsAt (by omega)) (ih whole plain)
  | rest => exact .rest _

end DataNames

end Numa
