import Mathlib.Data.List.Flatten
import Numa.Exec
import Numa.NameCodec
import Numa.Svcb

/-!
# The parameters of SVCB record data

Record data in the form of RFC 9460: a priority, a target name without
pointers and parameters that fill the data.  The editors of `svcb.rs` take
parameters away and leave everything else as it is.
-/

namespace Numa

open BytePacketBuffer

/-- A key with a value. -/
abbrev SvcParam := UInt16 × List UInt8

/-- Record data of an SVCB or HTTPS record. -/
@[ext]
structure SvcbData where
  priority : UInt16
  target : List (List UInt8)
  params : List SvcParam
  target_short : ∀ label ∈ target, label ≠ [] ∧ label.length ≤ 63
  params_short : ∀ param ∈ params, param.2.length < 2 ^ 16

/-- The data as octets. -/
def SvcbData.octets (data : SvcbData) : List UInt8 :=
  beBytes16 data.priority ++ (wireName data.target ++ data.params.flatMap writeParam)

/-! ## Reading parameters -/

/-- Fewer than four octets are no parameter, and of more octets the first four
stand in front of its value. -/
theorem octets_cases (octets : List UInt8) :
    octets.length < 4 ∧ readParam octets = none ∨
      ∃ key1 key2 len1 len2 rest, octets = key1 :: key2 :: len1 :: len2 :: rest := by
  rcases octets with _ | ⟨key1, _ | ⟨key2, _ | ⟨len1, _ | ⟨len2, rest⟩⟩⟩⟩
  · exact .inl ⟨by simp, rfl⟩
  · exact .inl ⟨by simp, rfl⟩
  · exact .inl ⟨by simp, rfl⟩
  · exact .inl ⟨by simp, rfl⟩
  · exact .inr ⟨key1, key2, len1, len2, rest, rfl⟩

theorem readParam_writeParam {param : SvcParam} (short : param.2.length < 2 ^ 16)
    (rest : List UInt8) : readParam (writeParam param ++ rest) = some (param, rest) := by
  have len : param.2.length.toUInt16.toNat = param.2.length := by
    simp only [Nat.toUInt16_eq, UInt16.toNat_ofNat']
    exact Nat.mod_eq_of_lt short
  simp only [writeParam, beBytes16, List.cons_append, List.nil_append, readParam,
    join_beBytes16, len]
  rw [if_neg (by simp), List.take_left, List.drop_left]

theorem readParam_eq_some {octets rest : List UInt8} {param : SvcParam}
    (read : readParam octets = some (param, rest)) :
    octets = writeParam param ++ rest ∧ param.2.length < 2 ^ 16 := by
  unfold readParam at read
  split at read
  · rename_i key1 key2 len1 len2 behind
    dsimp only at read
    split at read
    · cases read
    · rename_i room
      obtain ⟨rfl, rfl⟩ := Prod.mk.inj (Option.some.inj read)
      have bound := (len1.toUInt16 <<< 8 ||| len2.toUInt16).toNat_lt
      have length : (behind.take (len1.toUInt16 <<< 8 ||| len2.toUInt16).toNat).length =
          (len1.toUInt16 <<< 8 ||| len2.toUInt16).toNat := by
        rw [List.length_take]
        omega
      refine ⟨?_, length.trans_lt bound⟩
      have again : (len1.toUInt16 <<< 8 ||| len2.toUInt16).toNat.toUInt16 =
          len1.toUInt16 <<< 8 ||| len2.toUInt16 := UInt16.ofNat_toNat
      rw [writeParam, length, again, beBytes16_join, beBytes16_join]
      simp
  · cases read

theorem length_writeParam (param : SvcParam) :
    (writeParam param).length = 4 + param.2.length := by
  simp [writeParam, beBytes16]
  omega

/-- Parameters are read from the octets that they are written to. -/
theorem readParams_eq_some_iff {octets : List UInt8} {params : List SvcParam} {left : Nat}
    (enough : octets.length ≤ left) :
    readParams left octets = some params ↔
      octets = params.flatMap writeParam ∧ ∀ param ∈ params, param.2.length < 2 ^ 16 := by
  induction left generalizing octets params with
  | zero =>
      obtain rfl := List.eq_nil_of_length_eq_zero (Nat.le_zero.mp enough)
      simp only [readParams, Option.some.injEq]
      constructor
      · rintro rfl
        simp
      · rintro ⟨nothing, -⟩
        cases params with
        | nil => rfl
        | cons param params => simp [writeParam, beBytes16] at nothing
  | succ left ih =>
      cases octets with
      | nil =>
          simp only [readParams, Option.some.injEq]
          constructor
          · rintro rfl
            simp
          · rintro ⟨nothing, -⟩
            cases params with
            | nil => rfl
            | cons param params => simp [writeParam, beBytes16] at nothing
      | cons octet rest =>
          rw [readParams]
          constructor
          · intro read
            obtain ⟨⟨param, behind⟩, first, read⟩ := Option.bind_eq_some_iff.mp read
            obtain ⟨later, readLater, same⟩ := Option.bind_eq_some_iff.mp read
            obtain rfl := Option.some.inj same
            obtain ⟨split, short⟩ := readParam_eq_some first
            have fewer : behind.length ≤ left := by
              have lengths := congrArg List.length split
              rw [List.length_append, length_writeParam] at lengths
              simp only [List.length_cons] at lengths enough
              omega
            obtain ⟨rfl, shorts⟩ := (ih fewer).mp readLater
            refine ⟨by rw [split, List.flatMap_cons], ?_⟩
            intro other otherMem
            rcases List.mem_cons.mp otherMem with rfl | inLater
            · exact short
            · exact shorts other inLater
          · rintro ⟨written, shorts⟩
            cases params with
            | nil => cases written
            | cons param params =>
                rw [List.flatMap_cons] at written
                have fewer : (params.flatMap writeParam).length ≤ left := by
                  have lengths := congrArg List.length written
                  rw [List.length_append, length_writeParam] at lengths
                  simp only [List.length_cons] at lengths enough
                  omega
                have later := (ih fewer).mpr
                  ⟨rfl, fun other otherMem => shorts other (List.mem_cons_of_mem _ otherMem)⟩
                rw [written, readParam_writeParam (shorts param (by simp))]
                simp [later]

/-! ## Reading the target -/

theorem skipTargetName_wireName {labels : List (List UInt8)}
    (short : ∀ label ∈ labels, label ≠ [] ∧ label.length ≤ 63) (rest : List UInt8) {left : Nat}
    (enough : (wireName labels).length ≤ left) :
    skipTargetName left (wireName labels ++ rest) = some rest := by
  induction labels generalizing left with
  | nil =>
      cases left with
      | zero => simp [wireName] at enough
      | succ left => simp [wireName, wireLabelsOf, skipTargetName]
  | cons label labels ih =>
      obtain ⟨nonempty, small⟩ := short label (by simp)
      obtain ⟨-, plain, notRoot, len⟩ :=
        wireLength_bits label.length (List.length_pos_of_ne_nil nonempty) small
      rw [wireName_eq_cons] at enough ⊢
      simp only [List.length_cons, List.length_append] at enough
      cases left with
      | zero => omega
      | succ left =>
          rw [List.cons_append, List.append_assoc, skipTargetName, if_neg notRoot,
            if_neg (not_not.mpr plain), len, if_neg (by simp), List.drop_left]
          exact ih (fun other otherMem => short other (List.mem_cons_of_mem _ otherMem)) (by omega)

/-- A target that is skipped is a name without pointers. -/
theorem exists_labels_of_skipTargetName {octets rest : List UInt8} {left : Nat}
    (skipped : skipTargetName left octets = some rest) :
    ∃ labels, (∀ label ∈ labels, label ≠ [] ∧ label.length ≤ 63) ∧
      octets = wireName labels ++ rest := by
  induction left generalizing octets with
  | zero => simp [skipTargetName] at skipped
  | succ left ih =>
      cases octets with
      | nil => simp [skipTargetName] at skipped
      | cons len behind =>
          rw [skipTargetName] at skipped
          split at skipped
          · rename_i root
            obtain rfl := Option.some.inj skipped
            exact ⟨[], by simp, by simp [root, wireName, wireLabelsOf]⟩
          · rename_i notRoot
            split at skipped
            · cases skipped
            · rename_i plain
              split at skipped
              · cases skipped
              · rename_i room
                obtain ⟨labels, short, split⟩ := ih skipped
                have length : (behind.take len.toNat).length = len.toNat := by
                  rw [List.length_take]
                  omega
                have positive : len.toNat ≠ 0 := fun zero => notRoot (UInt8.toNat_inj.mp zero)
                have small := label_length_le len (not_not.mp plain)
                refine ⟨behind.take len.toNat :: labels, ?_, ?_⟩
                · intro label labelMem
                  rcases List.mem_cons.mp labelMem with rfl | later
                  · exact ⟨List.ne_nil_of_length_pos (by omega), by omega⟩
                  · exact short label later
                · have again : len.toNat.toUInt8 = len := UInt8.ofNat_toNat
                  rw [wireName_eq_cons, length, again, List.cons_append, List.append_assoc, ← split,
                    List.take_append_drop]

/-! ## Record data -/

namespace SvcbData

/-- Octets are read as at most one priority, target and list of parameters. -/
theorem octets_injective : Function.Injective octets := by
  intro first second same
  obtain ⟨priorities, behind⟩ : beBytes16 first.priority = beBytes16 second.priority ∧
      wireName first.target ++ first.params.flatMap writeParam =
        wireName second.target ++ second.params.flatMap writeParam :=
    List.append_inj same rfl
  obtain ⟨targets, written⟩ :=
    wireName_append_inj first.target_short second.target_short behind
  have priority : first.priority = second.priority := by
    rw [← join_beBytes16 first.priority, ← join_beBytes16 second.priority]
    obtain ⟨high, low⟩ := List.cons.inj priorities
    rw [high, (List.cons.inj low).1]
  have firstRead := (readParams_eq_some_iff le_rfl).mpr ⟨rfl, first.params_short⟩
  have secondRead := (readParams_eq_some_iff le_rfl).mpr ⟨rfl, second.params_short⟩
  rw [written, secondRead] at firstRead
  exact SvcbData.ext priority targets (Option.some.inj firstRead).symm

/-- Data that some editor changes are well formed. -/
theorem exists_of_editSvcparams {rdata out : List UInt8}
    {edit : UInt16 → List UInt8 → Option Edit} (edited : editSvcparams rdata edit = some out) :
    ∃ data : SvcbData, data.octets = rdata := by
  unfold editSvcparams at edited
  split at edited
  · cases edited
  · rename_i long
    obtain ⟨rest, skipped, edited⟩ := Option.bind_eq_some_iff.mp edited
    obtain ⟨params, read, -⟩ := Option.bind_eq_some_iff.mp edited
    obtain ⟨target, targetShort, behind⟩ := exists_labels_of_skipTargetName skipped
    obtain ⟨rfl, paramsShort⟩ := (readParams_eq_some_iff le_rfl).mp read
    obtain ⟨high, low, named, rfl⟩ : ∃ high low named, rdata = high :: low :: named := by
      rcases rdata with _ | ⟨high, _ | ⟨low, named⟩⟩
      · simp at long
      · simp at long
      · exact ⟨high, low, named, rfl⟩
    have split : named = wireName target ++ params.flatMap writeParam := behind
    refine ⟨⟨high.toUInt16 <<< 8 ||| low.toUInt16, target, params, targetShort, paramsShort⟩, ?_⟩
    rw [octets, beBytes16_join, split]
    rfl

/-- An editor works through the parameters. -/
theorem editSvcparams_octets (data : SvcbData) (edit : UInt16 → List UInt8 → Option Edit) :
    editSvcparams data.octets edit =
      (data.params.mapM fun param => edit param.1 param.2).bind fun edits =>
        if edits.all (· == .keep) then none
        else
          some (beBytes16 data.priority ++ (wireName data.target ++
            (data.params.zip edits).flatMap fun both => writeEdited both.1 both.2)) := by
  have long : ¬ data.octets.length < 2 := by simp [octets, beBytes16]
  have behind : data.octets.drop 2 = wireName data.target ++ data.params.flatMap writeParam := rfl
  have skipped : skipTargetName data.octets.length (data.octets.drop 2) =
      some (data.params.flatMap writeParam) := by
    rw [behind]
    apply skipTargetName_wireName data.target_short
    simp only [octets, List.length_append]
    omega
  have read := (readParams_eq_some_iff le_rfl).mpr ⟨rfl, data.params_short⟩
  have head : data.octets.take (data.octets.length - (data.params.flatMap writeParam).length) =
      beBytes16 data.priority ++ wireName data.target := by
    rw [octets, ← List.append_assoc, List.length_append, Nat.add_sub_cancel, List.take_left]
  simp only [editSvcparams, if_neg long, skipped, read, head, Option.bind_eq_bind,
    Option.bind_some, List.append_assoc]

end SvcbData

/-! ## What is left of a parameter -/

/-- The parameter after its edit. -/
def Edit.applyTo (param : SvcParam) : Edit → Option SvcParam
  | .keep => some param
  | .rewrite value => if value = [] then none else some (param.1, value)

theorem writeEdited_eq (param : SvcParam) (change : Edit) :
    writeEdited param change = (change.applyTo param).toList.flatMap writeParam := by
  cases change with
  | keep => simp [writeEdited, Edit.applyTo]
  | rewrite value =>
      simp only [writeEdited, Edit.applyTo]
      split <;> simp

/-- An editor that decides on every parameter. -/
theorem SvcbData.editSvcparams_of_total {data : SvcbData}
    {edit : UInt16 → List UInt8 → Option Edit} {change : SvcParam → Edit}
    (total : ∀ param ∈ data.params, edit param.1 param.2 = some (change param)) :
    editSvcparams data.octets edit =
      if ∀ param ∈ data.params, change param = .keep then none
      else
        some (beBytes16 data.priority ++ (wireName data.target ++
          (data.params.filterMap fun param => (change param).applyTo param).flatMap
            writeParam)) := by
  have written : (data.params.zip (data.params.map change)).flatMap
      (fun both => writeEdited both.1 both.2) =
        (data.params.filterMap fun param => (change param).applyTo param).flatMap writeParam := by
    rw [← List.map_prod_left_eq_zip, List.flatMap_map, List.filterMap_eq_flatMap_toList,
      List.flatMap_assoc]
    simp only [writeEdited_eq]
  rw [editSvcparams_octets, mapM_eq_some_map total, Option.bind_some, written]
  simp only [List.all_map, List.all_eq_true, Function.comp_apply, beq_iff_eq]

/-! ## The editor of `filter_aaaa` -/

namespace SvcbData

/-- The data without the `ipv6hint` parameter. -/
def withoutIpv6hint (data : SvcbData) : SvcbData :=
  { data with
    params := data.params.filter fun param => param.1 ≠ ipv6HintKey
    params_short := fun param paramMem =>
      data.params_short param (List.mem_of_mem_filter paramMem) }

/-- `strip_ipv6hint` removes the hints if there are any. -/
theorem stripIpv6hint_octets (data : SvcbData) :
    stripIpv6hint data.octets =
      if ∀ param ∈ data.params, param.1 ≠ ipv6HintKey then none
      else some data.withoutIpv6hint.octets := by
  let change : SvcParam → Edit :=
    fun param => if param.1 = ipv6HintKey then .rewrite [] else .keep
  have keeps : ∀ param : SvcParam, change param = .keep ↔ param.1 ≠ ipv6HintKey := by
    intro param
    simp only [change]
    split <;> simp [*]
  have applied : (fun param => (change param).applyTo param) =
      Option.guard fun param : SvcParam => decide (param.1 ≠ ipv6HintKey) := by
    funext param
    simp only [change, Option.guard]
    split <;> simp [*, Edit.applyTo]
  have left : (data.params.filterMap fun param => (change param).applyTo param) =
      data.withoutIpv6hint.params := by
    rw [applied, List.filterMap_eq_filter]
    rfl
  have total : ∀ param ∈ data.params,
      (fun key _ => some (if key = ipv6HintKey then .rewrite [] else .keep) :
        UInt16 → List UInt8 → Option Edit) param.1 param.2 = some (change param) :=
    fun _ _ => rfl
  rw [stripIpv6hint, editSvcparams_of_total total, left]
  simp only [keeps]
  rfl

end SvcbData

/-! ## The addresses of a hint -/

/-- `chunks_exact`. -/
def chunksExact (stride : Nat) : (left : Nat) → List UInt8 → List (List UInt8)
  | 0, _ => []
  | left + 1, value =>
    if value.length < stride then []
    else value.take stride :: chunksExact stride left (value.drop stride)

/-- The addresses in the value of a hint. -/
def hintChunks (stride : Nat) (value : List UInt8) : List (List UInt8) :=
  chunksExact stride value.length value

theorem filterHint_eq (stride : Nat) (isPrivate : IpAddr → Bool) (left : Nat)
    (value : List UInt8) :
    filterHint stride isPrivate left value =
      ((chunksExact stride left value).filter fun chunk => !isPrivate (hintAddr chunk)).flatten := by
  induction left generalizing value with
  | zero => rfl
  | succ left ih =>
      rw [filterHint, chunksExact]
      split
      · rfl
      · rw [List.filter_cons, ih]
        cases found : isPrivate (hintAddr (value.take stride)) <;> simp [found]

section Chunks

variable {stride : Nat} {value : List UInt8}

theorem length_of_mem_chunksExact {left : Nat} {chunk : List UInt8}
    (chunkMem : chunk ∈ chunksExact stride left value) : chunk.length = stride := by
  induction left generalizing value with
  | zero => cases chunkMem
  | succ left ih =>
      rw [chunksExact] at chunkMem
      split at chunkMem
      · cases chunkMem
      · rcases List.mem_cons.mp chunkMem with rfl | later
        · rw [List.length_take]
          omega
        · exact ih later

theorem flatten_chunksExact_begins (left : Nat) (value : List UInt8) :
    (chunksExact stride left value).flatten <+: value := by
  induction left generalizing value with
  | zero => exact List.nil_prefix
  | succ left ih =>
      rw [chunksExact]
      split
      · exact List.nil_prefix
      · obtain ⟨rest, split⟩ := ih (value.drop stride)
        exact ⟨rest, by rw [List.flatten_cons, List.append_assoc, split, List.take_append_drop]⟩

/-- Addresses that fill the value are all of it. -/
theorem flatten_chunksExact (positive : 0 < stride) {left : Nat} (enough : value.length ≤ left)
    (fills : value.length % stride = 0) : (chunksExact stride left value).flatten = value := by
  induction left generalizing value with
  | zero =>
      obtain rfl := List.eq_nil_of_length_eq_zero (Nat.le_zero.mp enough)
      rfl
  | succ left ih =>
      rw [chunksExact]
      split
      · rename_i short
        rw [Nat.mod_eq_of_lt short] at fills
        rw [List.eq_nil_of_length_eq_zero fills, List.flatten_nil]
      · have rest : (value.drop stride).length % stride = 0 := by
          rw [List.length_drop, ← Nat.mod_eq_sub_mod (by omega), fills]
        have fewer : (value.drop stride).length ≤ left := by
          rw [List.length_drop]
          omega
        rw [List.flatten_cons, ih fewer rest, List.take_append_drop]

/-- Addresses put together are taken apart again. -/
theorem chunksExact_flatten {chunks : List (List UInt8)} {left : Nat}
    (enough : chunks.length ≤ left) (positive : 0 < stride)
    (lengths : ∀ chunk ∈ chunks, chunk.length = stride) :
    chunksExact stride left chunks.flatten = chunks := by
  induction chunks generalizing left with
  | nil =>
      cases left with
      | zero => rfl
      | succ left => rw [chunksExact, List.flatten_nil, List.length_nil, if_pos positive]
  | cons chunk chunks ih =>
      cases left with
      | zero => simp at enough
      | succ left =>
          have length := lengths chunk (by simp)
          have room : ¬ (chunk ++ chunks.flatten).length < stride := by
            rw [List.length_append]
            omega
          rw [List.flatten_cons, chunksExact, if_neg room, List.take_left' length,
            List.drop_left' length, ih (by simpa using enough)
            fun other otherMem => lengths other (List.mem_cons_of_mem _ otherMem)]

theorem hintChunks_flatten {chunks : List (List UInt8)} (positive : 0 < stride)
    (lengths : ∀ chunk ∈ chunks, chunk.length = stride) :
    hintChunks stride chunks.flatten = chunks := by
  apply chunksExact_flatten _ positive lengths
  rw [List.length_flatten, List.map_congr_left lengths, List.map_const', List.sum_replicate_nat]
  exact Nat.le_mul_of_pos_right _ positive

theorem flatten_hintChunks (positive : 0 < stride) (fills : value.length % stride = 0) :
    (hintChunks stride value).flatten = value :=
  flatten_chunksExact positive le_rfl fills

end Chunks

/-! ## The editor of the rebinding filter -/

section Private

variable (isPrivate : IpAddr → Bool)

/-- The value of a hint without its private addresses. -/
def publicValue (stride : Nat) (value : List UInt8) : List UInt8 :=
  ((hintChunks stride value).filter fun chunk => !isPrivate (hintAddr chunk)).flatten

/-- The parameter without the private addresses of a hint.  A hint that has
only these is dropped. -/
def publicParam (param : SvcParam) : Option SvcParam :=
  match hintStride param.1 with
  | none => some param
  | some stride =>
    let kept := publicValue isPrivate stride param.2
    if kept = [] ∧ param.2 ≠ [] then none else some (param.1, kept)

/-- Is there no private address in the parameter? -/
def IsPublic (param : SvcParam) : Prop :=
  ∀ stride, hintStride param.1 = some stride →
    ∀ chunk ∈ hintChunks stride param.2, isPrivate (hintAddr chunk) = false

/-- Are the values of hints full of addresses? -/
def FilledHints (params : List SvcParam) : Prop :=
  ∀ param ∈ params, ∀ stride, hintStride param.1 = some stride → param.2.length % stride = 0

variable {stride : Nat} {value : List UInt8}

theorem stride_pos {key : UInt16} (isHint : hintStride key = some stride) : 0 < stride := by
  unfold hintStride at isHint
  split at isHint
  · cases isHint
    decide
  · split at isHint
    · cases isHint
      decide
    · cases isHint

theorem hintChunks_publicValue (positive : 0 < stride) :
    hintChunks stride (publicValue isPrivate stride value) =
      (hintChunks stride value).filter fun chunk => !isPrivate (hintAddr chunk) :=
  hintChunks_flatten positive fun _ chunkMem =>
    length_of_mem_chunksExact (List.mem_of_mem_filter chunkMem)

theorem publicValue_sublist : (publicValue isPrivate stride value).Sublist value := by
  have kept : (publicValue isPrivate stride value).Sublist (hintChunks stride value).flatten :=
    List.filter_sublist.flatten
  exact kept.trans (flatten_chunksExact_begins _ _).sublist

/-- The value stays iff all of its addresses are public. -/
theorem publicValue_eq_self_iff (positive : 0 < stride) (fills : value.length % stride = 0) :
    publicValue isPrivate stride value = value ↔
      ∀ chunk ∈ hintChunks stride value, isPrivate (hintAddr chunk) = false := by
  constructor
  · intro same chunk chunkMem
    have chunks : hintChunks stride (publicValue isPrivate stride value) = _ :=
      hintChunks_publicValue isPrivate positive
    rw [same] at chunks
    rw [chunks] at chunkMem
    simpa using List.of_mem_filter chunkMem
  · intro allPublic
    have all : (hintChunks stride value).filter (fun chunk => !isPrivate (hintAddr chunk)) =
        hintChunks stride value :=
      List.filter_eq_self.mpr fun chunk chunkMem => by simp [allPublic chunk chunkMem]
    rw [publicValue, all, flatten_hintChunks positive fills]

theorem length_publicValue_mod :
    (publicValue isPrivate stride value).length % stride = 0 := by
  have lengths : ∀ chunk ∈ (hintChunks stride value).filter
      (fun chunk => !isPrivate (hintAddr chunk)), chunk.length = stride :=
    fun chunk chunkMem => length_of_mem_chunksExact (List.mem_of_mem_filter chunkMem)
  rw [publicValue, List.length_flatten, List.map_congr_left lengths, List.map_const',
    List.sum_replicate_nat, Nat.mul_mod_left]

theorem publicParam_eq_some {param kept : SvcParam} (isKept : publicParam isPrivate param = some kept) :
    kept.1 = param.1 ∧ kept.2.length ≤ param.2.length := by
  unfold publicParam at isKept
  split at isKept
  · cases isKept
    exact ⟨rfl, le_rfl⟩
  · dsimp only at isKept
    split at isKept
    · cases isKept
    · cases isKept
      exact ⟨rfl, (publicValue_sublist isPrivate).length_le⟩

/-- What is left of a parameter is public, and its value is full of addresses. -/
theorem isPublic_of_publicParam {param kept : SvcParam}
    (isKept : publicParam isPrivate param = some kept) :
    IsPublic isPrivate kept ∧
      ∀ stride, hintStride kept.1 = some stride → kept.2.length % stride = 0 := by
  unfold publicParam at isKept
  split at isKept
  · rename_i noHint
    cases isKept
    exact ⟨fun stride isHint => by simp [noHint] at isHint,
      fun stride isHint => by simp [noHint] at isHint⟩
  · rename_i stride isHint
    dsimp only at isKept
    split at isKept
    · cases isKept
    · cases isKept
      constructor
      · intro other isOther chunk chunkMem
        obtain rfl := Option.some.inj (isHint.symm.trans isOther)
        rw [hintChunks_publicValue isPrivate (stride_pos isHint)] at chunkMem
        simpa using List.of_mem_filter chunkMem
      · intro other isOther
        obtain rfl := Option.some.inj (isHint.symm.trans isOther)
        exact length_publicValue_mod isPrivate

/-- The decision of `strip_private_hints` on a parameter whose value is full of
addresses. -/
def privateEdit (param : SvcParam) : Edit :=
  match hintStride param.1 with
  | none => .keep
  | some stride =>
    if (publicValue isPrivate stride param.2).length = param.2.length then .keep
    else .rewrite (publicValue isPrivate stride param.2)

theorem privateEdit_eq_keep_iff {param : SvcParam}
    (filled : ∀ stride, hintStride param.1 = some stride → param.2.length % stride = 0) :
    privateEdit isPrivate param = .keep ↔ IsPublic isPrivate param := by
  unfold privateEdit
  split
  · rename_i noHint
    exact iff_of_true rfl fun stride isHint => by simp [noHint] at isHint
  · rename_i stride isHint
    have same : (publicValue isPrivate stride param.2).length = param.2.length ↔
        publicValue isPrivate stride param.2 = param.2 :=
      ⟨(publicValue_sublist isPrivate).eq_of_length, congrArg List.length⟩
    have isPublic : IsPublic isPrivate param ↔
        ∀ chunk ∈ hintChunks stride param.2, isPrivate (hintAddr chunk) = false := by
      constructor
      · exact fun allPublic => allPublic stride isHint
      · intro allPublic other isOther
        obtain rfl := Option.some.inj (isHint.symm.trans isOther)
        exact allPublic
    rw [isPublic, ← publicValue_eq_self_iff isPrivate (stride_pos isHint) (filled stride isHint),
      ← same]
    split
    · rename_i unchanged
      exact iff_of_true rfl unchanged
    · rename_i changed
      exact iff_of_false (by simp) changed

/-- The decision of `strip_private_hints` on any parameter. -/
def hintEdit (key : UInt16) (value : List UInt8) : Option Edit :=
  match hintStride key with
  | some stride =>
    if value.length % stride ≠ 0 then none
    else
      let kept := filterHint stride isPrivate value.length value
      some (if kept.length = value.length then .keep else .rewrite kept)
  | none => some .keep

theorem hintEdit_of_filled {param : SvcParam}
    (filled : ∀ stride, hintStride param.1 = some stride → param.2.length % stride = 0) :
    hintEdit isPrivate param.1 param.2 = some (privateEdit isPrivate param) := by
  unfold hintEdit privateEdit
  split
  · rename_i stride isHint
    rw [if_neg (not_not.mpr (filled stride isHint)), isHint]
    simp only [filterHint_eq]
    rfl
  · rename_i noHint
    rw [noHint]

theorem hintEdit_of_not_filled {param : SvcParam} (isHint : hintStride param.1 = some stride)
    (unfilled : param.2.length % stride ≠ 0) : hintEdit isPrivate param.1 param.2 = none := by
  rw [hintEdit, isHint]
  exact if_pos unfilled

theorem applyTo_privateEdit (param : SvcParam) :
    (privateEdit isPrivate param).applyTo param = publicParam isPrivate param := by
  unfold privateEdit publicParam
  cases hintStride param.1 with
  | none => rfl
  | some stride =>
      dsimp only
      by_cases same : (publicValue isPrivate stride param.2).length = param.2.length
      · have unchanged := (publicValue_sublist isPrivate).eq_of_length same
        rw [if_pos same, unchanged, if_neg (by simp)]
        rfl
      · have shorter : param.2 ≠ [] := by
          intro nothing
          have sublist : (publicValue isPrivate stride param.2).Sublist param.2 :=
            publicValue_sublist isPrivate
          rw [nothing, List.sublist_nil] at sublist
          rw [nothing] at same
          exact same (by rw [sublist])
        rw [if_neg same, Edit.applyTo]
        simp only [ne_eq, shorter, not_false_eq_true, and_true]

namespace SvcbData

/-- The data without the private addresses of hints. -/
def withoutPrivate (data : SvcbData) : SvcbData :=
  { data with
    params := data.params.filterMap (publicParam isPrivate)
    params_short := by
      intro kept keptMem
      obtain ⟨param, paramMem, isKept⟩ := List.mem_filterMap.mp keptMem
      exact (publicParam_eq_some isPrivate isKept).2.trans_lt (data.params_short param paramMem) }

/-- `strip_private_hints` removes the private addresses if there are any. -/
theorem stripPrivateHints_octets {data : SvcbData} (filled : FilledHints data.params) :
    ((∀ param ∈ data.params, IsPublic isPrivate param) →
      stripPrivateHints data.octets isPrivate = none) ∧
    (¬ (∀ param ∈ data.params, IsPublic isPrivate param) →
      stripPrivateHints data.octets isPrivate = some (data.withoutPrivate isPrivate).octets) := by
  have total : ∀ param ∈ data.params,
      hintEdit isPrivate param.1 param.2 = some (privateEdit isPrivate param) :=
    fun param paramMem => hintEdit_of_filled isPrivate (filled param paramMem)
  have keeps : (∀ param ∈ data.params, privateEdit isPrivate param = .keep) ↔
      ∀ param ∈ data.params, IsPublic isPrivate param :=
    forall₂_congr fun param paramMem => privateEdit_eq_keep_iff isPrivate (filled param paramMem)
  have edited := editSvcparams_of_total total
  simp only [applyTo_privateEdit] at edited
  constructor
  · intro allPublic
    rw [if_pos (keeps.mpr allPublic)] at edited
    exact edited
  · intro somePrivate
    rw [if_neg (keeps.not.mpr somePrivate)] at edited
    exact edited

/-- A hint that is not full of addresses keeps the record as it is. -/
theorem stripPrivateHints_of_not_filled {data : SvcbData} (unfilled : ¬ FilledHints data.params) :
    stripPrivateHints data.octets isPrivate = none := by
  simp only [FilledHints, not_forall] at unfilled
  obtain ⟨param, paramMem, stride, isHint, rest⟩ := unfilled
  have rejected : (data.params.mapM fun param => hintEdit isPrivate param.1 param.2) = none := by
    rw [← Option.not_isSome_iff_eq_none, mapM_isSome_iff]
    intro accepted
    have isSome := accepted param paramMem
    rw [hintEdit_of_not_filled isPrivate isHint rest] at isSome
    cases isSome
  have edited := data.editSvcparams_octets (hintEdit isPrivate)
  rw [rejected, Option.bind_none] at edited
  exact edited

end SvcbData

end Private

end Numa
