import Numa.Packet

/-!
# Rules for buffer operations

What an operation writes and what it reads as lists of octets.  A writer
appends its octets when they fit and overflows when they do not; a reader that
finds its octets at the cursor returns their value and moves past them.
-/

namespace Numa

namespace BytePacketBuffer

variable {α β : Type} {buffer middle after : BytePacketBuffer}

@[simp]
theorem exec_pure (value : α) : exec (pure value) buffer = (.ok value, buffer) :=
  rfl

@[simp]
theorem exec_get : exec get buffer = (.ok buffer, buffer) :=
  rfl

@[simp]
theorem exec_set (state : BytePacketBuffer) : exec (set state) buffer = (.ok (), state) :=
  rfl

@[simp]
theorem exec_throw (error : BufferError) :
    exec (throw error : BufferM α) buffer = (.error error, buffer) :=
  rfl

theorem exec_bind (first : BufferM α) (next : α → BufferM β) :
    exec (first >>= next) buffer =
      match exec first buffer with
      | (.ok value, middle) => exec (next value) middle
      | (.error error, middle) => (.error error, middle) := by
  unfold exec
  rw [ExceptT.run_bind]
  simp only [bind, StateT.bind]
  rcases ExceptT.run first buffer with ⟨_ | _, _⟩ <;> rfl

theorem exec_bind_ok {first : BufferM α} {value : α} (ran : exec first buffer = (.ok value, middle))
    (next : α → BufferM β) : exec (first >>= next) buffer = exec (next value) middle := by
  rw [exec_bind, ran]

theorem exec_bind_error {first : BufferM α} {error : BufferError}
    (ran : exec first buffer = (.error error, middle)) (next : α → BufferM β) :
    exec (first >>= next) buffer = (.error error, middle) := by
  rw [exec_bind, ran]

theorem exec_eq_of_fst {action : BufferM α} {value : α} (ran : (exec action buffer).1 = .ok value) :
    exec action buffer = (.ok value, (exec action buffer).2) := by
  rw [← ran]

/-- A composed operation succeeds when its parts do. -/
theorem exec_bind_eq_ok {first : BufferM α} {next : α → BufferM β} {result : β} :
    exec (first >>= next) buffer = (.ok result, after) ↔
      ∃ value middle, exec first buffer = (.ok value, middle) ∧
        exec (next value) middle = (.ok result, after) := by
  rw [exec_bind]
  rcases exec first buffer with ⟨_ | value, middle⟩ <;> simp

@[simp]
theorem exec_get_bind (next : BytePacketBuffer → BufferM β) :
    exec (get >>= next) buffer = exec (next buffer) buffer :=
  rfl

/-! ## Writers -/

/-- The second buffer is the first one after these octets have been written at
its cursor. -/
structure Extends (before : BytePacketBuffer) (octets : List UInt8)
    (after : BytePacketBuffer) : Prop where
  buf : after.buf =
    before.buf.take before.pos ++ octets ++ before.buf.drop (before.pos + octets.length)
  pos : after.pos = before.pos + octets.length
  overflow : after.overflow = before.overflow

theorem Extends.refl (buffer : BytePacketBuffer) : Extends buffer [] buffer where
  buf := by simp
  pos := rfl
  overflow := rfl

theorem Extends.trans {first second : List UInt8} (earlier : Extends buffer first middle)
    (later : Extends middle second after) (inside : buffer.pos ≤ bufSize) :
    Extends buffer (first ++ second) after where
  buf := by
    have size := buffer.size_eq
    have before : (buffer.buf.take buffer.pos ++ first).length = middle.pos := by
      rw [List.length_append, List.length_take, earlier.pos]
      omega
    have kept : middle.buf.take middle.pos = buffer.buf.take buffer.pos ++ first := by
      rw [earlier.buf, ← before, List.take_left']
      rfl
    have rest : middle.buf.drop (middle.pos + second.length) =
        buffer.buf.drop (buffer.pos + (first ++ second).length) := by
      rw [earlier.buf, ← before, List.drop_append, List.drop_drop]
      simp only [List.length_append, List.length_take]
      rw [List.drop_eq_nil_of_le (by simp only [List.length_append, List.length_take]; omega),
        List.nil_append]
      congr 1
      omega
    rw [later.buf, kept, rest]
    simp
  pos := by
    rw [later.pos, earlier.pos, List.length_append]
    omega
  overflow := later.overflow.trans earlier.overflow

theorem Extends.filled {octets : List UInt8} (extended : Extends buffer octets after)
    (inside : buffer.pos ≤ bufSize) : after.filled = buffer.filled ++ octets := by
  have size := buffer.size_eq
  rw [BytePacketBuffer.filled, extended.buf, extended.pos, BytePacketBuffer.filled]
  apply List.take_left'
  rw [List.length_append, List.length_take]
  omega

/-- The operation writes these octets if they fit, and otherwise fails with the
overflow flag set. -/
def Writes (action : BufferM α) (octets : List UInt8) : Prop :=
  ∀ buffer : BytePacketBuffer, buffer.pos ≤ bufSize →
    (buffer.pos + octets.length ≤ bufSize →
      ∃ value after, exec action buffer = (.ok value, after) ∧ Extends buffer octets after) ∧
    (bufSize < buffer.pos + octets.length →
      ∃ after, exec action buffer = (.error .endOfBuffer, after) ∧ after.overflow = true)

theorem writes_pure (value : α) : Writes (pure value) [] := by
  intro buffer inside
  constructor
  · intro fits
    exact ⟨value, buffer, rfl, Extends.refl buffer⟩
  · intro overflows
    simp only [List.length_nil] at overflows
    omega

theorem Writes.bind {first : BufferM α} {next : α → BufferM β} {before later : List UInt8}
    (firstWrites : Writes first before) (nextWrites : ∀ value, Writes (next value) later) :
    Writes (first >>= next) (before ++ later) := by
  intro buffer inside
  obtain ⟨firstFits, firstOverflows⟩ := firstWrites buffer inside
  rw [List.length_append]
  by_cases room : buffer.pos + before.length ≤ bufSize
  · obtain ⟨value, middle, ran, extended⟩ := firstFits room
    have middleInside : middle.pos ≤ bufSize := extended.pos ▸ room
    obtain ⟨nextFits, nextOverflows⟩ := nextWrites value middle middleInside
    rw [exec_bind_ok ran]
    rw [extended.pos] at nextFits nextOverflows
    constructor
    · intro fits
      obtain ⟨result, after, ranNext, extendedNext⟩ := nextFits (by omega)
      exact ⟨result, after, ranNext, extended.trans extendedNext inside⟩
    · intro overflows
      exact nextOverflows (by omega)
  · obtain ⟨after, ran, overflowed⟩ := firstOverflows (by omega)
    rw [exec_bind_error ran]
    exact ⟨fun fits => by omega, fun _ => ⟨after, rfl, overflowed⟩⟩

/-- A writer that first looks at the buffer. -/
theorem writes_get_bind {next : BytePacketBuffer → BufferM β} {octets : List UInt8}
    (nextWrites : ∀ buffer, Writes (next buffer) octets) : Writes (get >>= next) octets := by
  intro buffer inside
  rw [exec_get_bind]
  exact nextWrites buffer buffer inside

theorem writes_discard {action : BufferM α} {octets : List UInt8} (writes : Writes action octets) :
    Writes (discard action) octets := by
  have discarded : Writes (action >>= fun _ => pure ()) (octets ++ []) :=
    writes.bind fun _ => writes_pure ()
  rw [List.append_nil] at discarded
  exact discarded

theorem writes_forM {item : α → BufferM PUnit} {encode : α → List UInt8} {items : List α}
    (itemWrites : ∀ entry ∈ items, Writes (item entry) (encode entry)) :
    Writes (items.forM item) (items.flatMap encode) := by
  induction items with
  | nil => exact writes_pure ()
  | cons entry items ih =>
      rw [List.flatMap_cons]
      apply (itemWrites entry (by simp)).bind
      intro _
      exact ih fun later laterMem => itemWrites later (by simp [laterMem])

theorem writes_write (val : UInt8) : Writes (write val) [val] := by
  intro buffer inside
  have size := buffer.size_eq
  simp only [List.length_singleton, write, exec_get_bind]
  by_cases full : bufSize ≤ buffer.pos
  · rw [if_pos full]
    exact ⟨fun fits => by omega, fun _ => ⟨_, rfl, rfl⟩⟩
  · rw [if_neg full]
    refine ⟨fun _ => ⟨(), _, rfl, ?_, rfl, rfl⟩, fun overflows => by omega⟩
    simp only [List.length_singleton]
    rw [List.set_eq_take_append_cons_drop, if_pos (by omega)]
    simp

theorem writes_writeBytes (data : List UInt8) : Writes (writeBytes data) data := by
  intro buffer inside
  simp only [writeBytes, exec_get_bind]
  by_cases fits : buffer.pos + data.length ≤ bufSize
  · rw [dif_pos fits]
    exact ⟨fun _ => ⟨(), _, rfl, rfl, rfl, rfl⟩, fun overflows => by omega⟩
  · rw [dif_neg fits]
    exact ⟨fun room => by omega, fun _ => ⟨_, rfl, rfl⟩⟩

theorem writes_writeU16 (val : UInt16) : Writes (writeU16 val) (beBytes16 val) := by
  rw [writeU16, toUInt8_and_mask16]
  exact (writes_write _).bind fun _ => writes_write _

theorem writes_writeU32 (val : UInt32) : Writes (writeU32 val) (beBytes32 val) := by
  rw [writeU32, toUInt8_and_mask32, toUInt8_and_mask32, toUInt8_and_mask32, toUInt8_and_mask32]
  exact (writes_write _).bind fun _ => (writes_write _).bind fun _ =>
    (writes_write _).bind fun _ => writes_write _

theorem exec_setAt {pos : Nat} (inside : pos < bufSize) (val : UInt8) :
    exec (setAt pos val) buffer =
      (.ok (),
        { buffer with
          buf := buffer.buf.set pos val
          size_eq := by rw [List.length_set, buffer.size_eq] }) := by
  simp only [setAt, exec_get_bind]
  rw [if_neg (by omega)]
  rfl

theorem exec_setU16 (buffer : BytePacketBuffer) {pos : Nat} (inside : pos + 1 < bufSize)
    (val : UInt16) :
    ∃ after, exec (setU16 pos val) buffer = (.ok (), after) ∧
      after.buf = (buffer.buf.set pos (val >>> 8).toUInt8).set (pos + 1) val.toUInt8 ∧
      after.pos = buffer.pos ∧ after.overflow = buffer.overflow := by
  rw [setU16, toUInt8_and_mask16, exec_bind_ok (exec_setAt (by omega) _), exec_setAt inside]
  exact ⟨_, rfl, rfl, rfl, rfl⟩

/-- Two octets written at the cursor and replaced later. -/
theorem Extends.patch {first second high low : UInt8} {octets : List UInt8}
    (extended : Extends buffer (first :: second :: octets) middle)
    (inside : buffer.pos ≤ bufSize)
    (bufEq : after.buf = (middle.buf.set buffer.pos high).set (buffer.pos + 1) low)
    (posEq : after.pos = middle.pos) (overflowEq : after.overflow = middle.overflow) :
    Extends buffer (high :: low :: octets) after where
  buf := by
    have size := buffer.size_eq
    have before : (buffer.buf.take buffer.pos).length = buffer.pos := by
      rw [List.length_take]
      omega
    rw [bufEq, extended.buf, List.append_assoc, List.append_assoc,
      List.set_append_right _ _ (by omega), List.set_append_right _ _ (by omega), before]
    simp
  pos := posEq.trans extended.pos
  overflow := overflowEq.trans extended.overflow

/-- The length patched in before some data is the length of the data. -/
theorem writes_writePatched {rdata : BufferM Unit} {octets : List UInt8}
    (writes : Writes rdata octets) :
    Writes (DnsRecord.writePatched rdata) (beBytes16 octets.length.toUInt16 ++ octets) := by
  have both : Writes (writeU16 0 >>= fun _ => rdata) (beBytes16 0 ++ octets) :=
    (writes_writeU16 0).bind fun _ => writes
  intro buffer inside
  obtain ⟨bothFit, bothOverflow⟩ := both buffer inside
  have patched : DnsRecord.writePatched rdata = get >>= fun start =>
      (writeU16 0 >>= fun _ => rdata) >>= fun _ => get >>= fun stop =>
        setU16 start.pos (stop.pos - (start.pos + 2)).toUInt16 := by
    simp only [DnsRecord.writePatched, bind_assoc]
  rw [patched, exec_get_bind]
  constructor
  · intro fits
    obtain ⟨value, middle, ran, extended⟩ := bothFit fits
    have posEq : middle.pos = buffer.pos + (2 + octets.length) := by
      rw [extended.pos, List.length_append]
      rfl
    have room : buffer.pos + (2 + octets.length) ≤ bufSize := by
      rwa [List.length_append] at fits
    obtain ⟨after, ranSet, bufEq, afterPos, afterOverflow⟩ :=
      exec_setU16 middle (by omega : buffer.pos + 1 < bufSize)
        (middle.pos - (buffer.pos + 2)).toUInt16
    refine ⟨(), after, ?_, ?_⟩
    · rw [exec_bind_ok ran, exec_get_bind, ranSet]
    · have sizeEq : middle.pos - (buffer.pos + 2) = octets.length := by omega
      rw [sizeEq] at bufEq
      exact extended.patch inside bufEq afterPos afterOverflow
  · intro overflows
    obtain ⟨after, ran, overflowed⟩ := bothOverflow overflows
    exact ⟨after, exec_bind_error ran _, overflowed⟩

/-! ## Readers -/

/-- These octets lie in the buffer from the position on. -/
structure Ahead (buffer : BytePacketBuffer) (pos : Nat) (octets : List UInt8) : Prop where
  inside : pos + octets.length ≤ bufSize
  isPrefix : octets <+: buffer.buf.drop pos

/-- The operation, started at this position with these octets ahead, returns
the value and moves past them. -/
def ReadsAt (pos : Nat) (action : BufferM α) (octets : List UInt8) (value : α) : Prop :=
  ∀ buffer : BytePacketBuffer, buffer.pos = pos → Ahead buffer pos octets →
    exec action buffer = (.ok value, { buffer with pos := pos + octets.length })

variable {pos : Nat} {octets before later : List UInt8}

theorem Ahead.left (ahead : Ahead buffer pos (before ++ later)) : Ahead buffer pos before where
  inside := by
    have inside := ahead.inside
    rw [List.length_append] at inside
    omega
  isPrefix := (List.prefix_append before later).trans ahead.isPrefix

theorem Ahead.right (ahead : Ahead buffer pos (before ++ later)) :
    Ahead buffer (pos + before.length) later where
  inside := by
    have inside := ahead.inside
    rw [List.length_append] at inside
    omega
  isPrefix := by
    obtain ⟨rest, split⟩ := ahead.isPrefix
    rw [← List.drop_drop, ← split, List.append_assoc, List.drop_left]
    exact List.prefix_append later rest

theorem Ahead.getD_eq (ahead : Ahead buffer pos octets) {index : Nat}
    (inside : index < octets.length) :
    buffer.buf.getD (pos + index) 0 = octets.getD index 0 := by
  obtain ⟨rest, split⟩ := ahead.isPrefix
  rw [List.getD_eq_getElem?_getD, ← List.getElem?_drop, ← split,
    List.getElem?_append_left inside, List.getD_eq_getElem?_getD]

theorem exec_getAt (ahead : Ahead buffer pos octets) {index : Nat}
    (inside : index < octets.length) :
    exec (getAt (pos + index)) buffer = (.ok (octets.getD index 0), buffer) := by
  have room := ahead.inside
  simp only [getAt, exec_get_bind]
  rw [if_neg (by omega), exec_pure, ahead.getD_eq inside]

theorem exec_getRange (ahead : Ahead buffer pos octets) :
    exec (getRange pos octets.length) buffer = (.ok octets, buffer) := by
  have room := ahead.inside
  simp only [getRange, exec_get_bind]
  rw [if_neg (by omega), exec_pure, ← List.prefix_iff_eq_take.mp ahead.isPrefix]

theorem readsAt_pure (value : α) : ReadsAt pos (pure value) [] value := by
  rintro buffer rfl -
  rfl

theorem ReadsAt.bind {first : BufferM α} {next : α → BufferM β} {value : α} {result : β}
    (firstReads : ReadsAt pos first before value)
    (nextReads : ReadsAt (pos + before.length) (next value) later result) :
    ReadsAt pos (first >>= next) (before ++ later) result := by
  intro buffer posEq ahead
  rw [exec_bind_ok (firstReads buffer posEq ahead.left),
    nextReads { buffer with pos := pos + before.length } rfl ⟨ahead.right.inside,
      ahead.right.isPrefix⟩, List.length_append, Nat.add_assoc]

/-- A reader that makes a value of what was read last. -/
theorem ReadsAt.last {first : BufferM α} {next : α → BufferM β} {value : α} {result : β}
    (firstReads : ReadsAt pos first octets value) (nextEq : next value = pure result) :
    ReadsAt pos (first >>= next) octets result := by
  have nextReads : ReadsAt (pos + octets.length) (next value) [] result := by
    rw [nextEq]
    exact readsAt_pure result
  have reads := firstReads.bind nextReads
  rwa [List.append_nil] at reads

theorem ReadsAt.map {first : BufferM α} {value : α} (firstReads : ReadsAt pos first octets value)
    (next : α → β) : ReadsAt pos (first >>= fun read => pure (next read)) octets (next value) :=
  firstReads.last rfl

theorem readsAt_get_bind {next : BytePacketBuffer → BufferM β} {value : β}
    (nextReads : ∀ buffer, buffer.pos = pos → ReadsAt pos (next buffer) octets value) :
    ReadsAt pos (get >>= next) octets value := by
  intro buffer posEq ahead
  rw [exec_get_bind]
  exact nextReads buffer posEq buffer posEq ahead

theorem readsAt_read (octet : UInt8) : ReadsAt pos read [octet] octet := by
  rintro buffer rfl ahead
  have inside : buffer.pos + 1 ≤ bufSize := ahead.inside
  have octetEq : buffer.buf.getD buffer.pos 0 = octet :=
    ahead.getD_eq (by simp : 0 < [octet].length)
  simp only [read, exec_get_bind]
  rw [if_neg (by omega), octetEq]
  rfl

theorem readsAt_step (octets : List UInt8) : ReadsAt pos (step octets.length) octets () := by
  rintro buffer rfl -
  rfl

theorem readsAt_readOctets (octets : List UInt8) :
    ReadsAt pos (readOctets octets.length) octets octets := by
  rintro buffer rfl ahead
  simp only [readOctets, exec_get_bind]
  rw [exec_bind_ok (exec_getRange ahead)]
  rfl

theorem readsAt_readU16 (val : UInt16) : ReadsAt pos readU16 (beBytes16 val) val := by
  have joined : ReadsAt pos readU16 (beBytes16 val)
      ((val >>> 8).toUInt8.toUInt16 <<< 8 ||| val.toUInt8.toUInt16) :=
    (readsAt_read _).bind ((readsAt_read _).map _)
  rwa [join_beBytes16] at joined

theorem readsAt_readU32 (val : UInt32) : ReadsAt pos readU32 (beBytes32 val) val := by
  have joined : ReadsAt pos readU32 (beBytes32 val)
      ((val >>> 24).toUInt8.toUInt32 <<< 24 ||| (val >>> 16).toUInt8.toUInt32 <<< 16 |||
        (val >>> 8).toUInt8.toUInt32 <<< 8 ||| val.toUInt8.toUInt32) :=
    (readsAt_read _).bind ((readsAt_read _).bind ((readsAt_read _).bind ((readsAt_read _).map _)))
  rwa [join_beBytes32] at joined

theorem readsAt_readRest {qtype : QueryType} {rdataStart : Nat} {dataLen : UInt16}
    (ends : rdataStart + dataLen.toNat = pos + octets.length) :
    ReadsAt pos (readRest qtype rdataStart dataLen) octets octets := by
  apply readsAt_get_bind
  intro buffer posEq
  rw [if_neg (by omega), show rdataStart + dataLen.toNat - buffer.pos = octets.length by omega]
  exact readsAt_readOctets octets

theorem length_le_flatMap {encode : α → List UInt8} {items : List α}
    (nonempty : ∀ entry ∈ items, encode entry ≠ []) :
    items.length ≤ (items.flatMap encode).length := by
  induction items with
  | nil => exact Nat.zero_le _
  | cons entry items ih =>
      have positive := List.length_pos_of_ne_nil (nonempty entry (by simp))
      have later := ih fun other otherMem => nonempty other (by simp [otherMem])
      rw [List.flatMap_cons, List.length_append, List.length_cons]
      omega

theorem length_le_flatMap_of_mem {encode : α → List UInt8} {items : List α} {entry : α}
    (entryMem : entry ∈ items) : (encode entry).length ≤ (items.flatMap encode).length := by
  have inMap : encode entry ∈ items.map encode := List.mem_map_of_mem entryMem
  exact (List.sublist_flatten_of_mem inMap).length_le

theorem readsAt_readMany {item : BufferM α} {encode : α → List UInt8} {items : List α}
    (itemReads : ∀ entry ∈ items, ∀ pos, ReadsAt pos item (encode entry) entry) :
    ReadsAt pos (readMany item items.length) (items.flatMap encode) items := by
  induction items generalizing pos with
  | nil => exact readsAt_pure []
  | cons entry items ih =>
      rw [List.flatMap_cons, List.length_cons, readMany]
      apply (itemReads entry (by simp) pos).bind
      exact (ih fun later laterMem => itemReads later (by simp [laterMem])).map _

theorem ahead_fromBytes {data : List UInt8} (fits : data.length ≤ bufSize) :
    Ahead (fromBytes data) 0 data where
  inside := by omega
  isPrefix := by
    have bufEq : (fromBytes data).buf = data ++ List.replicate (bufSize - data.length) 0 := by
      simp [fromBytes, List.take_of_length_le fits]
    rw [List.drop_zero, bufEq]
    exact List.prefix_append _ _

end BytePacketBuffer

end Numa
