import Numa.SvcParams

/-!
# Indices into SVCB record data

The functions of `svcb.rs` with the indices and the slices of the source, which
panic outside of the record data.  The outer `none` is a panic, and also a loop
that does not end in time; the inner `none` is what the function returns.
-/

namespace Numa

namespace Svcb

/-- `&octets[start..stop]`. -/
def slice (octets : List UInt8) (start stop : Nat) : Option (List UInt8) :=
  if start ≤ stop ∧ stop ≤ octets.length then some ((octets.drop start).take (stop - start))
  else none

/-- `skip_target_name`, with the offset of the first parameter. -/
def skipTargetName (rdata : List UInt8) : (left pos : Nat) → Option (Option Nat)
  | 0, _ => none
  | left + 1, pos =>
    match rdata[pos]? with
    | none => some none
    | some len =>
      if len = 0 then some (some (pos + 1))
      else if len &&& 0xC0 ≠ 0 then some none
      else if rdata.length < pos + 1 + len.toNat then some none
      else skipTargetName rdata left (pos + 1 + len.toNat)

/-- `hint_addr`, which copies a chunk into an array of its size. -/
def hintAddr (chunk : List UInt8) : Option IpAddr :=
  if chunk.length = 4 then do
    let a ← chunk[0]?
    let b ← chunk[1]?
    let c ← chunk[2]?
    let d ← chunk[3]?
    some (.v4 (.new a b c d))
  else if chunk.length = 16 then some (.v6 (Vector.ofFn fun index => chunk.getD index 0))
  else none

/-- `filter_hint`. -/
def filterHint (stride : Nat) (isPrivate : IpAddr → Bool) :
    (left : Nat) → List UInt8 → Option (List UInt8)
  | 0, _ => some []
  | left + 1, value =>
    if value.length < stride then some []
    else do
      let chunk ← slice value 0 stride
      let addr ← hintAddr chunk
      let kept ← filterHint stride isPrivate left (value.drop stride)
      some (if isPrivate addr then kept else chunk ++ kept)

/-- `read_param`: the key, the value and the offset behind it. -/
def readParam (rdata : List UInt8) (pos : Nat) :
    Option (Option (UInt16 × List UInt8 × Nat)) :=
  if rdata.length < pos + 4 then some none
  else do
    let key1 ← rdata[pos]?
    let key2 ← rdata[pos + 1]?
    let len1 ← rdata[pos + 2]?
    let len2 ← rdata[pos + 3]?
    let stop := pos + 4 + (len1.toUInt16 <<< 8 ||| len2.toUInt16).toNat
    if rdata.length < stop then some none
    else do
      let value ← slice rdata (pos + 4) stop
      some (some (key1.toUInt16 <<< 8 ||| key2.toUInt16, value, stop))

section Edit

variable (rdata : List UInt8) (edit : UInt16 → List UInt8 → Option (Option Edit))

/-- The first pass of `edit_svcparams`: does a parameter change? -/
def scanParams : (left pos : Nat) → (changed : Bool) → Option (Option Bool)
  | 0, _, _ => none
  | left + 1, pos, changed =>
    if pos < rdata.length then do
      match ← readParam rdata pos with
      | none => some none
      | some (key, value, stop) =>
        match ← edit key value with
        | none => some none
        | some change => scanParams left stop (changed || change != .keep)
    else some (some changed)

/-- The second pass, which writes the parameters behind `out`. -/
def writeParams : (left pos : Nat) → (out : List UInt8) → Option (Option (List UInt8))
  | 0, _, _ => none
  | left + 1, pos, out =>
    if pos < rdata.length then do
      match ← readParam rdata pos with
      | none => some none
      | some (key, value, stop) =>
        match ← edit key value with
        | none => some none
        | some .keep => do
          let kept ← slice rdata pos stop
          writeParams left stop (out ++ kept)
        | some (.rewrite new) =>
          if new = [] then writeParams left stop out
          else
            writeParams left stop
              (out ++ (beBytes16 key ++ (beBytes16 new.length.toUInt16 ++ new)))
    else some (some out)

/-- `edit_svcparams`. -/
def editSvcparams : Option (Option (List UInt8)) :=
  if rdata.length < 2 then some none
  else do
    match ← skipTargetName rdata rdata.length 2 with
    | none => some none
    | some paramsStart =>
      match ← scanParams rdata edit (rdata.length + 1) paramsStart false with
      | none => some none
      | some false => some none
      | some true => do
        let head ← slice rdata 0 paramsStart
        writeParams rdata edit (rdata.length + 1) paramsStart head

end Edit

/-- `strip_private_hints`. -/
def stripPrivateHints (rdata : List UInt8) (isPrivate : IpAddr → Bool) :
    Option (Option (List UInt8)) :=
  editSvcparams rdata fun key value =>
    match hintStride key with
    | some stride =>
      if value.length % stride ≠ 0 then some none
      else do
        let kept ← filterHint stride isPrivate value.length value
        some (some (if kept.length = value.length then .keep else .rewrite kept))
    | none => some (some .keep)

/-- `strip_ipv6hint`. -/
def stripIpv6hint (rdata : List UInt8) : Option (Option (List UInt8)) :=
  editSvcparams rdata fun key _ =>
    some (some (if key = ipv6HintKey then .rewrite [] else .keep))

/-! ## No index is out of bounds -/

theorem slice_of_le {octets : List UInt8} {start stop : Nat} (ordered : start ≤ stop)
    (inside : stop ≤ octets.length) :
    slice octets start stop = some ((octets.drop start).take (stop - start)) :=
  if_pos ⟨ordered, inside⟩

/-- The target is skipped by its offset as by what is left behind it. -/
theorem skipTargetName_eq {rdata : List UInt8} {left pos : Nat}
    (enough : rdata.length < pos + left) (inside : pos ≤ rdata.length) :
    ∃ found, skipTargetName rdata left pos = some found ∧
      (∀ stop ∈ found, stop ≤ rdata.length) ∧
      Numa.skipTargetName left (rdata.drop pos) = found.map (rdata.drop ·) := by
  induction left generalizing pos with
  | zero => omega
  | succ left ih =>
      rw [skipTargetName]
      cases octet : rdata[pos]? with
      | none =>
          have nothing : rdata.drop pos = [] :=
            List.drop_eq_nil_of_le (List.getElem?_eq_none_iff.mp octet)
          exact ⟨none, rfl, by simp, by simp [nothing, Numa.skipTargetName]⟩
      | some len =>
          obtain ⟨within, lenEq⟩ := List.getElem?_eq_some_iff.mp octet
          have behind : rdata.drop pos = len :: rdata.drop (pos + 1) := by
            rw [List.drop_eq_getElem_cons within, lenEq]
          have length : (rdata.drop (pos + 1)).length = rdata.length - (pos + 1) :=
            List.length_drop
          dsimp only
          rw [behind, Numa.skipTargetName]
          by_cases root : len = 0
          · rw [if_pos root, if_pos root]
            refine ⟨some (pos + 1), rfl, fun stop isStop => ?_, rfl⟩
            cases isStop
            exact within
          · rw [if_neg root, if_neg root]
            by_cases reserved : len &&& 0xC0 ≠ 0
            · rw [if_pos reserved, if_pos reserved]
              exact ⟨none, rfl, by simp, rfl⟩
            · rw [if_neg reserved, if_neg reserved]
              by_cases room : rdata.length < pos + 1 + len.toNat
              · rw [if_pos room, if_pos (by omega)]
                exact ⟨none, rfl, by simp, rfl⟩
              · rw [if_neg room, if_neg (by omega), List.drop_drop]
                exact ih (by omega) (by omega)

/-- The address in a chunk of the right size. -/
theorem hintAddr_eq {chunk : List UInt8} (sized : chunk.length = 4 ∨ chunk.length = 16) :
    hintAddr chunk = some (Numa.hintAddr chunk) := by
  unfold hintAddr Numa.hintAddr
  rcases sized with four | sixteen
  · obtain ⟨a, b, c, d, rfl⟩ := List.length_eq_four.mp four
    rfl
  · rw [if_neg (by omega), if_pos sixteen, if_neg (by omega)]

theorem filterHint_eq {stride : Nat} (sized : stride = 4 ∨ stride = 16)
    (isPrivate : IpAddr → Bool) (left : Nat) (value : List UInt8) :
    filterHint stride isPrivate left value =
      some (Numa.filterHint stride isPrivate left value) := by
  induction left generalizing value with
  | zero => rfl
  | succ left ih =>
      rw [filterHint, Numa.filterHint]
      split
      · rfl
      · rename_i room
        have length : (value.take stride).length = stride := by
          rw [List.length_take]
          omega
        have addr : hintAddr (value.take stride) = some (Numa.hintAddr (value.take stride)) :=
          hintAddr_eq (by rwa [length])
        rw [slice_of_le (Nat.zero_le _) (by omega), List.drop_zero, Nat.sub_zero]
        simp only [Option.bind_eq_bind, Option.bind_some, addr, ih]

/-- The parameter at an offset is the first one of what is left. -/
theorem readParam_cases (rdata : List UInt8) (pos : Nat) :
    (readParam rdata pos = some none ∧ Numa.readParam (rdata.drop pos) = none) ∨
    ∃ key value stop, readParam rdata pos = some (some (key, value, stop)) ∧
      Numa.readParam (rdata.drop pos) = some ((key, value), rdata.drop stop) ∧
      pos < stop ∧ stop ≤ rdata.length := by
  unfold readParam
  rcases octets_cases (rdata.drop pos) with ⟨few, none⟩ | ⟨key1, key2, len1, len2, rest, behind⟩
  · rw [List.length_drop] at few
    rw [if_pos (by omega)]
    exact .inl ⟨rfl, none⟩
  · have enough := congrArg List.length behind
    rw [List.length_drop, List.length_cons, List.length_cons, List.length_cons,
      List.length_cons] at enough
    rw [if_neg (by omega)]
    have octet : ∀ index, rdata[pos + index]? = (key1 :: key2 :: len1 :: len2 :: rest)[index]? := by
      intro index
      rw [← behind, List.getElem?_drop]
    have restEq : rest = rdata.drop (pos + 4) := by
      rw [← List.drop_drop, behind]
      rfl
    have length : rest.length = rdata.length - (pos + 4) := by rw [restEq, List.length_drop]
    have first : rdata[pos]? = some key1 := octet 0
    have second : rdata[pos + 1]? = some key2 := octet 1
    have third : rdata[pos + 2]? = some len1 := octet 2
    have fourth : rdata[pos + 3]? = some len2 := octet 3
    rw [behind, Numa.readParam]
    simp only [Option.bind_eq_bind, Option.bind_some, first, second, third, fourth]
    by_cases room : rdata.length < pos + 4 + (len1.toUInt16 <<< 8 ||| len2.toUInt16).toNat
    · rw [if_pos room, if_pos (by omega)]
      exact .inl ⟨rfl, rfl⟩
    · rw [if_neg room, if_neg (by omega), slice_of_le (Nat.le_add_right _ _) (by omega)]
      refine .inr ⟨_, _, _, rfl, ?_, by omega, by omega⟩
      rw [Nat.add_sub_cancel_left, restEq, List.drop_drop]

/-- The parameters from an offset on. -/
def paramsFrom (rdata : List UInt8) (pos : Nat) : Option (List SvcParam) :=
  readParams (rdata.drop pos).length (rdata.drop pos)

theorem readParams_of_le {octets : List UInt8} {left : Nat} (enough : octets.length ≤ left) :
    readParams left octets = readParams octets.length octets := by
  ext params
  exact (readParams_eq_some_iff enough).trans (readParams_eq_some_iff le_rfl).symm

theorem paramsFrom_of_le {rdata : List UInt8} {pos : Nat} (beyond : rdata.length ≤ pos) :
    paramsFrom rdata pos = some [] := by
  rw [paramsFrom, List.drop_eq_nil_of_le beyond]
  rfl

theorem paramsFrom_of_lt {rdata : List UInt8} {pos : Nat} (inside : pos < rdata.length) :
    paramsFrom rdata pos = (Numa.readParam (rdata.drop pos)).bind fun first =>
      (readParams first.2.length first.2).map (first.1 :: ·) := by
  rw [paramsFrom]
  obtain ⟨octet, rest, behind⟩ := List.exists_cons_of_length_pos
    (by rw [List.length_drop]; omega : 0 < (rdata.drop pos).length)
  rw [behind, List.length_cons, readParams]
  cases found : Numa.readParam (octet :: rest) with
  | none => rfl
  | some first =>
      obtain ⟨param, later⟩ := first
      have fewer : later.length ≤ rest.length := by
        have split := congrArg List.length (readParam_eq_some found).1
        rw [List.length_append, length_writeParam, List.length_cons] at split
        omega
      simp only [Option.bind_eq_bind, Option.bind_some, readParams_of_le fewer]
      cases readParams later.length later <;> rfl

section Passes

variable {rdata : List UInt8} {edit : UInt16 → List UInt8 → Option (Option Edit)}
  {pure : UInt16 → List UInt8 → Option Edit}

theorem scanParams_eq (decides : ∀ key value, edit key value = some (pure key value))
    {left pos : Nat} (enough : rdata.length < pos + left) (within : pos ≤ rdata.length)
    (changed : Bool) :
    scanParams rdata edit left pos changed =
      some ((paramsFrom rdata pos).bind fun params =>
        (params.mapM fun param => pure param.1 param.2).map fun edits =>
          changed || !edits.all (· == .keep)) := by
  induction left generalizing pos changed with
  | zero => omega
  | succ left ih =>
      rw [scanParams]
      by_cases inside : pos < rdata.length
      · rw [if_pos inside, paramsFrom_of_lt inside]
        rcases readParam_cases rdata pos with ⟨broken, none⟩ |
          ⟨key, value, stop, read, first, further, stopWithin⟩
        · rw [broken, none]
          rfl
        · rw [read, first]
          have later : readParams (rdata.drop stop).length (rdata.drop stop) =
              paramsFrom rdata stop := rfl
          simp only [Option.bind_eq_bind, Option.bind_some, decides, later]
          cases decision : pure key value with
          | none =>
              cases paramsFrom rdata stop with
              | none => rfl
              | some params => simp [decision]
          | some change =>
              dsimp only
              rw [ih (by omega) stopWithin]
              cases paramsFrom rdata stop with
              | none => rfl
              | some params =>
                  cases edits : params.mapM fun param => pure param.1 param.2 with
                  | none => simp [decision, edits]
                  | some others =>
                      have both : (!(change :: others).all (· == .keep)) =
                          (change != .keep || !others.all (· == .keep)) := by
                        rw [List.all_cons, Bool.not_and]
                        rfl
                      simp only [Option.map_some, Option.bind_some, List.mapM_cons, decision,
                        edits, Option.bind_eq_bind, Option.pure_def, both, Bool.or_assoc]
      · rw [if_neg inside, paramsFrom_of_le (Nat.le_of_not_lt inside)]
        simp

/-- The parameter that is kept is copied from the data. -/
theorem slice_eq_writeParam {pos stop : Nat} {param : SvcParam}
    (first : Numa.readParam (rdata.drop pos) = some (param, rdata.drop stop))
    (further : pos < stop) (within : stop ≤ rdata.length) :
    slice rdata pos stop = some (writeParam param) := by
  rw [slice_of_le (Nat.le_of_lt further) within]
  obtain ⟨split, -⟩ := readParam_eq_some first
  have length : (writeParam param).length = stop - pos := by
    have lengths := congrArg List.length split
    rw [List.length_append, List.length_drop, List.length_drop] at lengths
    omega
  rw [split, List.take_left' length]

theorem writeParams_eq (decides : ∀ key value, edit key value = some (pure key value))
    {left pos : Nat} (enough : rdata.length < pos + left) (within : pos ≤ rdata.length)
    {params : List SvcParam} {edits : List Edit} (read : paramsFrom rdata pos = some params)
    (decided : (params.mapM fun param => pure param.1 param.2) = some edits) (out : List UInt8) :
    writeParams rdata edit left pos out =
      some (some (out ++ (params.zip edits).flatMap fun both => writeEdited both.1 both.2)) := by
  induction left generalizing pos params edits out with
  | zero => omega
  | succ left ih =>
      rw [writeParams]
      by_cases inside : pos < rdata.length
      · rw [paramsFrom_of_lt inside] at read
        obtain ⟨⟨param, behind⟩, first, readLater⟩ := Option.bind_eq_some_iff.mp read
        obtain ⟨later, readBehind, rfl⟩ := Option.map_eq_some_iff.mp readLater
        rcases readParam_cases rdata pos with ⟨-, none⟩ |
          ⟨key, value, stop, readFirst, found, further, stopWithin⟩
        · rw [none] at first
          cases first
        · rw [found] at first
          cases first
          rw [List.mapM_cons] at decided
          obtain ⟨change, decision, decided⟩ := Option.bind_eq_some_iff.mp decided
          obtain ⟨others, decidedLater, same⟩ := Option.bind_eq_some_iff.mp decided
          cases same
          have onward := fun out => ih (by omega) stopWithin readBehind decidedLater out
          rw [if_pos inside, readFirst]
          simp only [Option.bind_eq_bind, Option.bind_some, decides, decision, List.zip_cons_cons,
            List.flatMap_cons]
          cases change with
          | keep =>
              dsimp only
              rw [slice_eq_writeParam found further stopWithin, Option.bind_some, onward,
                List.append_assoc]
              rfl
          | rewrite new =>
              dsimp only
              by_cases empty : new = []
              · rw [if_pos empty, onward, empty]
                simp [writeEdited]
              · rw [if_neg empty, onward, writeEdited, if_neg empty, writeParam]
                simp only [List.append_assoc]
      · rw [paramsFrom_of_le (Nat.le_of_not_lt inside)] at read
        cases read
        cases decided
        rw [if_neg inside]
        simp

/-- The editor of the source stays inside of the record data and makes the same
edits. -/
theorem editSvcparams_eq (decides : ∀ key value, edit key value = some (pure key value)) :
    editSvcparams rdata edit = some (Numa.editSvcparams rdata pure) := by
  unfold editSvcparams Numa.editSvcparams
  by_cases short : rdata.length < 2
  · rw [if_pos short, if_pos short]
  · rw [if_neg short, if_neg short]
    obtain ⟨found, skipped, within, same⟩ :=
      skipTargetName_eq (by omega : rdata.length < 2 + rdata.length) (by omega)
    rw [skipped, same]
    cases found with
    | none => rfl
    | some start =>
        have inside := within start rfl
        simp only [Option.bind_eq_bind, Option.bind_some, Option.map_some]
        rw [scanParams_eq decides (by omega) inside]
        have read : readParams (rdata.drop start).length (rdata.drop start) =
            paramsFrom rdata start := rfl
        rw [read]
        cases parsed : paramsFrom rdata start with
        | none => rfl
        | some params =>
            cases decided : params.mapM fun param => pure param.1 param.2 with
            | none => simp [decided]
            | some edits =>
                have head : rdata.length - (rdata.drop start).length = start := by
                  rw [List.length_drop]
                  omega
                have copied : slice rdata 0 start = some (rdata.take start) :=
                  slice_of_le (Nat.zero_le _) inside
                have written := writeParams_eq decides
                  (by omega : rdata.length < start + (rdata.length + 1)) inside parsed decided
                  (rdata.take start)
                simp only [Option.bind_some, decided, Option.map_some, Bool.false_or, head]
                cases edits.all (· == .keep) with
                | false => simp [copied, written]
                | true => rfl

end Passes

theorem stripIpv6hint_eq (rdata : List UInt8) :
    stripIpv6hint rdata = some (Numa.stripIpv6hint rdata) :=
  editSvcparams_eq fun _ _ => rfl

theorem stripPrivateHints_eq (rdata : List UInt8) (isPrivate : IpAddr → Bool) :
    stripPrivateHints rdata isPrivate = some (Numa.stripPrivateHints rdata isPrivate) := by
  apply editSvcparams_eq
  intro key value
  cases isHint : hintStride key with
  | none => rfl
  | some stride =>
      have sized : stride = 4 ∨ stride = 16 := by
        unfold hintStride at isHint
        split at isHint
        · cases isHint
          exact .inl rfl
        · split at isHint
          · cases isHint
            exact .inr rfl
          · cases isHint
      dsimp only
      rw [filterHint_eq sized, Option.bind_eq_bind, Option.bind_some]
      split <;> rfl

end Svcb

/-! ## What the editors take away -/

namespace SvcbData

variable (isPrivate : IpAddr → Bool)

theorem length_octets_le {before after : SvcbData} (target : after.target = before.target)
    (params : (after.params.flatMap writeParam).length ≤ (before.params.flatMap writeParam).length) :
    after.octets.length ≤ before.octets.length := by
  simp only [octets, List.length_append, target]
  have same : (beBytes16 after.priority).length = (beBytes16 before.priority).length := rfl
  omega

theorem length_withoutIpv6hint_le (data : SvcbData) :
    data.withoutIpv6hint.octets.length ≤ data.octets.length :=
  length_octets_le rfl (List.filter_sublist.flatMap writeParam).length_le

theorem length_withoutPrivate_le (data : SvcbData) :
    (data.withoutPrivate isPrivate).octets.length ≤ data.octets.length := by
  have shorter : ∀ params : List SvcParam,
      ((params.filterMap (publicParam isPrivate)).flatMap writeParam).length ≤
        (params.flatMap writeParam).length := by
    intro params
    induction params with
    | nil => exact le_rfl
    | cons param params ih =>
        cases isKept : publicParam isPrivate param with
        | none =>
            rw [List.filterMap_cons_none isKept, List.flatMap_cons, List.length_append]
            omega
        | some kept =>
            have shrinks := (publicParam_eq_some isPrivate isKept).2
            rw [List.filterMap_cons_some isKept, List.flatMap_cons, List.flatMap_cons,
              List.length_append, List.length_append, length_writeParam, length_writeParam]
            omega
  exact length_octets_le rfl (shorter data.params)

theorem params_withoutPrivate (data : SvcbData) :
    FilledHints (data.withoutPrivate isPrivate).params ∧
      ∀ param ∈ (data.withoutPrivate isPrivate).params, IsPublic isPrivate param := by
  constructor
  · intro kept keptMem
    obtain ⟨param, -, isKept⟩ := List.mem_filterMap.mp keptMem
    exact (isPublic_of_publicParam isPrivate isKept).2
  · intro kept keptMem
    obtain ⟨param, -, isKept⟩ := List.mem_filterMap.mp keptMem
    exact (isPublic_of_publicParam isPrivate isKept).1

end SvcbData

/-- `strip_ipv6hint` removes the `ipv6hint` parameters of well-formed data and
nothing else. -/
theorem stripIpv6hint_eq_some_iff {rdata out : List UInt8} :
    stripIpv6hint rdata = some out ↔
      ∃ data : SvcbData, data.octets = rdata ∧
        ¬ (∀ param ∈ data.params, param.1 ≠ ipv6HintKey) ∧ data.withoutIpv6hint.octets = out := by
  constructor
  · intro stripped
    obtain ⟨data, rfl⟩ := SvcbData.exists_of_editSvcparams stripped
    rw [data.stripIpv6hint_octets] at stripped
    split at stripped
    · cases stripped
    · rename_i hinted
      exact ⟨data, rfl, hinted, Option.some.inj stripped⟩
  · rintro ⟨data, rfl, hinted, rfl⟩
    rw [data.stripIpv6hint_octets, if_neg hinted]

/-- `strip_private_hints` removes the private addresses of well-formed data and
nothing else. -/
theorem stripPrivateHints_eq_some_iff {rdata out : List UInt8} {isPrivate : IpAddr → Bool} :
    stripPrivateHints rdata isPrivate = some out ↔
      ∃ data : SvcbData, data.octets = rdata ∧ FilledHints data.params ∧
        ¬ (∀ param ∈ data.params, IsPublic isPrivate param) ∧
        (data.withoutPrivate isPrivate).octets = out := by
  constructor
  · intro stripped
    obtain ⟨data, rfl⟩ := SvcbData.exists_of_editSvcparams stripped
    by_cases filled : FilledHints data.params
    · obtain ⟨kept, removed⟩ := SvcbData.stripPrivateHints_octets isPrivate filled
      by_cases allPublic : ∀ param ∈ data.params, IsPublic isPrivate param
      · rw [kept allPublic] at stripped
        cases stripped
      · rw [removed allPublic] at stripped
        exact ⟨data, rfl, filled, allPublic, Option.some.inj stripped⟩
    · rw [SvcbData.stripPrivateHints_of_not_filled isPrivate filled] at stripped
      cases stripped
  · rintro ⟨data, rfl, filled, somePrivate, rfl⟩
    exact (SvcbData.stripPrivateHints_octets isPrivate filled).2 somePrivate

/-- For every octet string the editors stay inside of it.  They change nothing
where it is not well formed or where there is nothing to remove, and otherwise
give data that decode to the same priority, the same target and the other
parameters in their order, that are not longer and that are not edited again. -/
theorem svcparams_edited (rdata : List UInt8) (isPrivate : IpAddr → Bool) :
    (Svcb.stripIpv6hint rdata = some (stripIpv6hint rdata) ∧
      Svcb.stripPrivateHints rdata isPrivate = some (stripPrivateHints rdata isPrivate)) ∧
    ((stripIpv6hint rdata = none ↔
        ∀ data : SvcbData, data.octets = rdata → ∀ param ∈ data.params, param.1 ≠ ipv6HintKey) ∧
      ∀ out, stripIpv6hint rdata = some out → ∃ data : SvcbData, data.octets = rdata ∧
        (∀ decoded : SvcbData, decoded.octets = out ↔ decoded = data.withoutIpv6hint) ∧
        out.length ≤ rdata.length ∧ stripIpv6hint out = none) ∧
    ((stripPrivateHints rdata isPrivate = none ↔
        ∀ data : SvcbData, data.octets = rdata → FilledHints data.params →
          ∀ param ∈ data.params, IsPublic isPrivate param) ∧
      ∀ out, stripPrivateHints rdata isPrivate = some out → ∃ data : SvcbData,
        data.octets = rdata ∧ FilledHints data.params ∧
        (∀ decoded : SvcbData, decoded.octets = out ↔ decoded = data.withoutPrivate isPrivate) ∧
        FilledHints (data.withoutPrivate isPrivate).params ∧
        out.length ≤ rdata.length ∧ stripPrivateHints out isPrivate = none) := by
  refine ⟨⟨Svcb.stripIpv6hint_eq rdata, Svcb.stripPrivateHints_eq rdata isPrivate⟩, ⟨?_, ?_⟩, ?_, ?_⟩
  · rw [Option.eq_none_iff_forall_not_mem]
    constructor
    · intro unchanged data isData
      by_contra hinted
      exact unchanged _ (stripIpv6hint_eq_some_iff.mpr ⟨data, isData, hinted, rfl⟩)
    · intro hintless out stripped
      obtain ⟨data, isData, hinted, -⟩ := stripIpv6hint_eq_some_iff.mp stripped
      exact hinted (hintless data isData)
  · intro out stripped
    obtain ⟨data, rfl, -, rfl⟩ := stripIpv6hint_eq_some_iff.mp stripped
    refine ⟨data, rfl, fun _ => SvcbData.octets_injective.eq_iff, data.length_withoutIpv6hint_le, ?_⟩
    rw [SvcbData.stripIpv6hint_octets, if_pos]
    exact fun param paramMem => by simpa using List.of_mem_filter paramMem
  · rw [Option.eq_none_iff_forall_not_mem]
    constructor
    · intro unchanged data isData filled
      by_contra somePrivate
      exact unchanged _
        (stripPrivateHints_eq_some_iff.mpr ⟨data, isData, filled, somePrivate, rfl⟩)
    · intro allPublic out stripped
      obtain ⟨data, isData, filled, somePrivate, -⟩ := stripPrivateHints_eq_some_iff.mp stripped
      exact somePrivate (allPublic data isData filled)
  · intro out stripped
    obtain ⟨data, rfl, filled, -, rfl⟩ := stripPrivateHints_eq_some_iff.mp stripped
    obtain ⟨stillFilled, nonePrivate⟩ := data.params_withoutPrivate isPrivate
    exact ⟨data, rfl, filled, fun _ => SvcbData.octets_injective.eq_iff, stillFilled,
      data.length_withoutPrivate_le isPrivate,
      (SvcbData.stripPrivateHints_octets isPrivate stillFilled).1 nonePrivate⟩

end Numa
