import Numa.BufferRules

/-!
# Readers keep the octets

No reader changes the octets of the buffer, not even one that fails on its way.
What is read from the buffer after a failed parse is what was received.
-/

namespace Numa

open BytePacketBuffer

/-- The operation leaves the octets of every buffer alone. -/
def KeepsOctets {α : Type} (action : BufferM α) : Prop :=
  ∀ buffer, (exec action buffer).2.buf = buffer.buf

section Rules

variable {α β : Type}

theorem keepsOctets_pure (value : α) : KeepsOctets (pure value) :=
  fun _ => rfl

theorem keepsOctets_throw (error : BufferError) : KeepsOctets (throw error : BufferM α) :=
  fun _ => rfl

theorem KeepsOctets.bind {first : BufferM α} {next : α → BufferM β} (firstKeeps : KeepsOctets first)
    (nextKeeps : ∀ value, KeepsOctets (next value)) : KeepsOctets (first >>= next) := by
  intro buffer
  have kept := firstKeeps buffer
  rw [exec_bind]
  rcases ran : exec first buffer with ⟨error | value, middle⟩
  · rw [ran] at kept
    exact kept
  · rw [ran] at kept
    exact (nextKeeps value middle).trans kept

theorem KeepsOctets.get_bind {next : BytePacketBuffer → BufferM β}
    (nextKeeps : ∀ buffer, KeepsOctets (next buffer)) : KeepsOctets (get >>= next) :=
  fun buffer => nextKeeps buffer buffer

theorem KeepsOctets.ite {condition : Prop} [Decidable condition] {first second : BufferM α}
    (firstKeeps : KeepsOctets first) (secondKeeps : KeepsOctets second) :
    KeepsOctets (if condition then first else second) := by
  split
  · exact firstKeeps
  · exact secondKeeps

end Rules

theorem keepsOctets_seek (pos : Nat) : KeepsOctets (seek pos) :=
  fun _ => rfl

theorem keepsOctets_step (steps : Nat) : KeepsOctets (step steps) :=
  fun _ => rfl

theorem keepsOctets_read : KeepsOctets BytePacketBuffer.read := by
  intro buffer
  simp only [BytePacketBuffer.read, exec_get_bind]
  split <;> rfl

theorem keepsOctets_getAt (pos : Nat) : KeepsOctets (getAt pos) :=
  .get_bind fun _ => .ite (keepsOctets_throw _) (keepsOctets_pure _)

theorem keepsOctets_getRange (start len : Nat) : KeepsOctets (getRange start len) :=
  .get_bind fun _ => .ite (keepsOctets_throw _) (keepsOctets_pure _)

theorem keepsOctets_readOctets (len : Nat) : KeepsOctets (readOctets len) :=
  .get_bind fun _ => (keepsOctets_getRange _ _).bind fun _ =>
    (keepsOctets_step _).bind fun _ => keepsOctets_pure _

theorem keepsOctets_readU16 : KeepsOctets readU16 :=
  keepsOctets_read.bind fun _ => keepsOctets_read.bind fun _ => keepsOctets_pure _

theorem keepsOctets_readU32 : KeepsOctets readU32 :=
  keepsOctets_read.bind fun _ => keepsOctets_read.bind fun _ => keepsOctets_read.bind fun _ =>
    keepsOctets_read.bind fun _ => keepsOctets_pure _

theorem keepsOctets_readLabels (left : Nat) (cursor : NameCursor) :
    KeepsOctets (readLabels left cursor) := by
  induction left generalizing cursor with
  | zero => exact keepsOctets_throw _
  | succ left ih =>
      exact (keepsOctets_getAt _).bind fun len => .ite (keepsOctets_pure _)
        (.ite (keepsOctets_throw _) (.ite (keepsOctets_pure _)
          ((keepsOctets_getRange _ _).bind fun label => ih _)))

theorem keepsOctets_seekUnless (jumped : Bool) (pos : Nat) : KeepsOctets (seekUnless jumped pos) :=
  .ite (keepsOctets_pure _) (keepsOctets_seek pos)

theorem keepsOctets_readName (jumps : Nat) (jumped : Bool) (cursor : NameCursor) :
    KeepsOctets (readName jumps jumped cursor) := by
  induction jumps generalizing jumped cursor with
  | zero => exact keepsOctets_throw _
  | succ jumps ih =>
      refine (keepsOctets_readLabels _ _).bind fun ⟨stop, len⟩ => .ite ?_ ?_
      · exact (keepsOctets_seekUnless _ _).bind fun _ => (keepsOctets_getAt _).bind fun _ => ih _ _
      · exact (keepsOctets_seekUnless _ _).bind fun _ => keepsOctets_pure _

theorem keepsOctets_readQname : KeepsOctets readQname :=
  .get_bind fun _ => keepsOctets_readName _ _ _

theorem keepsOctets_readRest (qtype : QueryType) (rdataStart : Nat) (dataLen : UInt16) :
    KeepsOctets (readRest qtype rdataStart dataLen) :=
  .get_bind fun _ => .ite (keepsOctets_throw _) (keepsOctets_readOctets _)

theorem keepsOctets_readRdata (domain : Text) (qtypeNum : UInt16) (ttl : UInt32) (dataLen : UInt16)
    (rdataStart : Nat) : KeepsOctets (DnsRecord.readRdata domain qtypeNum ttl dataLen rdataStart) := by
  unfold DnsRecord.readRdata
  split
  all_goals
    with_reducible
      repeat' first
        | exact keepsOctets_pure _
        | refine KeepsOctets.bind keepsOctets_read fun _ => ?_
        | refine KeepsOctets.bind keepsOctets_readU16 fun _ => ?_
        | refine KeepsOctets.bind keepsOctets_readU32 fun _ => ?_
        | refine KeepsOctets.bind keepsOctets_readQname fun _ => ?_
        | refine KeepsOctets.bind (keepsOctets_readOctets _) fun _ => ?_
        | refine KeepsOctets.bind (keepsOctets_readRest _ _ _) fun _ => ?_

theorem keepsOctets_readRecord : KeepsOctets DnsRecord.read :=
  keepsOctets_readQname.bind fun _ => keepsOctets_readU16.bind fun _ =>
    keepsOctets_readU16.bind fun _ => keepsOctets_readU32.bind fun _ =>
      keepsOctets_readU16.bind fun _ => .get_bind fun _ => keepsOctets_readRdata _ _ _ _ _

theorem keepsOctets_readHeader : KeepsOctets DnsHeader.read :=
  keepsOctets_readU16.bind fun _ => keepsOctets_readU16.bind fun _ =>
    keepsOctets_readU16.bind fun _ => keepsOctets_readU16.bind fun _ =>
      keepsOctets_readU16.bind fun _ => keepsOctets_readU16.bind fun _ => keepsOctets_pure _

theorem keepsOctets_readQuestion : KeepsOctets DnsQuestion.read :=
  keepsOctets_readQname.bind fun _ => keepsOctets_readU16.bind fun _ =>
    keepsOctets_readU16.bind fun _ => keepsOctets_pure _

theorem keepsOctets_readEdns : KeepsOctets EdnsOpt.read :=
  (keepsOctets_step 1).bind fun _ => keepsOctets_readU16.bind fun _ =>
    keepsOctets_readU16.bind fun _ => keepsOctets_readU32.bind fun _ =>
      keepsOctets_readU16.bind fun _ => (keepsOctets_readOctets _).bind fun _ => keepsOctets_pure _

theorem keepsOctets_readMany {α : Type} {item : BufferM α} (keeps : KeepsOctets item) (count : Nat) :
    KeepsOctets (readMany item count) := by
  induction count with
  | zero => exact keepsOctets_pure _
  | succ count ih => exact keeps.bind fun _ => ih.bind fun _ => keepsOctets_pure _

theorem keepsOctets_isOptAt (peekPos : Nat) : KeepsOctets (DnsPacket.isOptAt peekPos) :=
  (keepsOctets_getAt _).bind fun _ => .ite
    ((keepsOctets_getAt _).bind fun _ => (keepsOctets_getAt _).bind fun _ => keepsOctets_pure _)
    (keepsOctets_pure _)

theorem keepsOctets_readResources (count : Nat) (edns : Option EdnsOpt) :
    KeepsOctets (DnsPacket.readResources count edns) := by
  induction count generalizing edns with
  | zero => exact keepsOctets_pure _
  | succ count ih =>
      refine .get_bind fun _ => (keepsOctets_isOptAt _).bind fun _ => .ite ?_ ?_
      · exact keepsOctets_readEdns.bind fun _ => ih _
      · exact keepsOctets_readRecord.bind fun _ => (ih _).bind fun _ => keepsOctets_pure _

theorem keepsOctets_fromBuffer : KeepsOctets DnsPacket.fromBuffer :=
  keepsOctets_readHeader.bind fun _ =>
    (keepsOctets_readMany keepsOctets_readQuestion _).bind fun _ =>
      (keepsOctets_readMany keepsOctets_readRecord _).bind fun _ =>
        (keepsOctets_readMany keepsOctets_readRecord _).bind fun _ =>
          (keepsOctets_readResources _ _).bind fun _ => keepsOctets_pure _

end Numa
