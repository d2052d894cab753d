import Numa.NameCodec
import Numa.WirePatch

/-!
# What a successful reader has read

A reader that succeeds leaves the octets of the buffer alone and moves the
cursor.  Each rule gives the value that was read and the new position in terms
of the octets from the old position on.
-/

namespace Numa

namespace BytePacketBuffer

variable {α β : Type} {buffer after : BytePacketBuffer}

/-- The buffer with its cursor elsewhere. -/
def movedTo (buffer : BytePacketBuffer) (pos : Nat) : BytePacketBuffer :=
  { buffer with pos := pos }

@[simp]
theorem movedTo_pos (buffer : BytePacketBuffer) (pos : Nat) : (buffer.movedTo pos).pos = pos :=
  rfl

@[simp]
theorem movedTo_buf (buffer : BytePacketBuffer) (pos : Nat) : (buffer.movedTo pos).buf = buffer.buf :=
  rfl

@[simp]
theorem movedTo_movedTo (buffer : BytePacketBuffer) (first second : Nat) :
    (buffer.movedTo first).movedTo second = buffer.movedTo second :=
  rfl

@[simp]
theorem movedTo_self (buffer : BytePacketBuffer) : buffer.movedTo buffer.pos = buffer :=
  rfl

theorem exec_read_eq_ok {octet : UInt8} :
    exec read buffer = (.ok octet, after) ↔
      buffer.pos + 1 ≤ bufSize ∧ octet = wireOctet buffer.buf buffer.pos ∧
        after = buffer.movedTo (buffer.pos + 1) := by
  simp only [read, exec_get_bind]
  split
  · simp
    omega
  · simp only [exec_bind, exec_set, exec_pure, Prod.mk.injEq, Except.ok.injEq, movedTo, wireOctet,
      eq_comm]
    constructor
    · rintro ⟨octetEq, afterEq⟩
      exact ⟨by omega, octetEq, afterEq⟩
    · rintro ⟨-, octetEq, afterEq⟩
      exact ⟨octetEq, afterEq⟩

theorem exec_readU16_eq_ok {value : UInt16} :
    exec readU16 buffer = (.ok value, after) ↔
      buffer.pos + 2 ≤ bufSize ∧ value = wireU16 buffer.buf buffer.pos ∧
        after = buffer.movedTo (buffer.pos + 2) := by
  simp only [readU16, exec_bind_eq_ok, exec_read_eq_ok]
  constructor
  · rintro ⟨high, _, ⟨-, rfl, rfl⟩, low, _, ⟨room, rfl, rfl⟩, result⟩
    cases result
    exact ⟨room, rfl, rfl⟩
  · rintro ⟨room, rfl, rfl⟩
    exact ⟨_, _, ⟨by omega, rfl, rfl⟩, _, _, ⟨room, rfl, rfl⟩, rfl⟩

theorem exec_readU32_eq_ok {value : UInt32} :
    exec readU32 buffer = (.ok value, after) ↔
      buffer.pos + 4 ≤ bufSize ∧ value = wireU32 buffer.buf buffer.pos ∧
        after = buffer.movedTo (buffer.pos + 4) := by
  simp only [readU32, exec_bind_eq_ok, exec_read_eq_ok]
  constructor
  · rintro ⟨_, _, ⟨-, rfl, rfl⟩, _, _, ⟨-, rfl, rfl⟩, _, _, ⟨-, rfl, rfl⟩, _, _,
      ⟨room, rfl, rfl⟩, result⟩
    cases result
    exact ⟨room, rfl, rfl⟩
  · rintro ⟨room, rfl, rfl⟩
    exact ⟨_, _, ⟨by omega, rfl, rfl⟩, _, _, ⟨by simp only [movedTo_pos]; omega, rfl, rfl⟩, _, _,
      ⟨by simp only [movedTo_pos]; omega, rfl, rfl⟩, _, _, ⟨room, rfl, rfl⟩, rfl⟩

/-- The octets of a range. -/
def octetsAt (buf : List UInt8) (pos len : Nat) : List UInt8 :=
  (buf.drop pos).take len

theorem exec_readOctets_eq_ok {len : Nat} {octets : List UInt8} :
    exec (readOctets len) buffer = (.ok octets, after) ↔
      buffer.pos + len ≤ bufSize ∧ octets = octetsAt buffer.buf buffer.pos len ∧
        after = buffer.movedTo (buffer.pos + len) := by
  simp only [readOctets, exec_get_bind, exec_bind_eq_ok, exec_getRange_eq_ok]
  constructor
  · rintro ⟨_, _, ⟨room, rfl, rfl⟩, _, _, stepped, result⟩
    cases stepped
    cases result
    exact ⟨room, rfl, rfl⟩
  · rintro ⟨room, rfl, rfl⟩
    exact ⟨_, _, ⟨room, rfl, rfl⟩, (), _, rfl, rfl⟩

theorem exec_readRest_eq_ok {qtype : QueryType} {rdataStart : Nat} {dataLen : UInt16}
    {octets : List UInt8} :
    exec (readRest qtype rdataStart dataLen) buffer = (.ok octets, after) ↔
      buffer.pos ≤ rdataStart + dataLen.toNat ∧ rdataStart + dataLen.toNat ≤ bufSize ∧
        octets = octetsAt buffer.buf buffer.pos (rdataStart + dataLen.toNat - buffer.pos) ∧
        after = buffer.movedTo (rdataStart + dataLen.toNat) := by
  simp only [readRest, exec_get_bind]
  split
  · rename_i short
    simp [Nat.not_le.mpr short]
  · rename_i long
    rw [exec_readOctets_eq_ok, Nat.add_sub_cancel' (by omega)]
    simp [Nat.not_lt.mp long]

/-! ## Names -/

/-- The parser and the scan take the same octets for pointers. -/
theorem pointer_iff : ∀ len : UInt8, len &&& 0xC0 = 0xC0 ↔ len.toNat &&& 0xC0 = 0xC0 := by
  intro len
  rw [← UInt8.toNat_inj, UInt8.toNat_and]
  rfl

theorem LabelsRead.skipLabels_eq {left : Nat} {cursor stop : NameCursor} {len : UInt8}
    (labelsRead : LabelsRead buffer left cursor stop len) :
    skipLabels buffer.buf left cursor.pos =
      .ok (if len &&& 0xC0 = 0xC0 then stop.pos + 2 else stop.pos) := by
  have size := buffer.size_eq
  induction labelsRead with
  | pointer got isPointer =>
      obtain ⟨inside, octetEq, -⟩ := exec_getAt_eq_ok.mp got
      rw [skipLabels_eq_ok_iff, wireOctet, ← octetEq, ← pointer_iff]
      exact ⟨by omega, .inl ⟨isPointer, by rw [if_pos isPointer]⟩⟩
  | root got =>
      obtain ⟨inside, octetEq, -⟩ := exec_getAt_eq_ok.mp got
      rw [skipLabels_eq_ok_iff, wireOctet, ← octetEq]
      exact ⟨by omega, .inr (.inl ⟨rfl, by rw [if_neg (by decide)]⟩)⟩
  | @label left cursor stop octet len label got plain notRoot gotLabel later ih =>
      obtain ⟨inside, octetEq, -⟩ := exec_getAt_eq_ok.mp got
      rw [skipLabels_eq_ok_iff, wireOctet, ← octetEq]
      refine ⟨by omega, .inr (.inr ⟨?_, ?_, ih⟩)⟩
      · exact fun pointer => notPointer_of_plain plain ((pointer_iff octet).mpr pointer)
      · exact fun zero => notRoot (UInt8.toNat_inj.mp zero)

theorem exec_readName_jumped {jumps : Nat} {cursor : NameCursor} {name : Text}
    (ran : exec (readName jumps true cursor) buffer = (.ok name, after)) : after = buffer := by
  induction jumps generalizing cursor with
  | zero => simp [readName] at ran
  | succ jumps ih =>
      rw [readName, exec_bind_eq_ok] at ran
      obtain ⟨⟨stop, len⟩, middle, ranLabels, ran⟩ := ran
      obtain ⟨rfl, -⟩ := exec_readLabels_eq_ok.mp ranLabels
      simp only [seekUnless, if_true, pure_bind] at ran
      split at ran
      · obtain ⟨second, last, got, ranRest⟩ := exec_bind_eq_ok.mp ran
        obtain ⟨-, -, rfl⟩ := exec_getAt_eq_ok.mp got
        exact ih ranRest
      · cases ran
        rfl

/-- A name that is read ends where the scan finds its end. -/
theorem exec_readQname_skip {name : Text}
    (ran : exec readQname buffer = (.ok name, after)) :
    ∃ stop, skipWireName buffer.buf buffer.pos = .ok stop ∧ after = buffer.movedTo stop := by
  rw [readQname, exec_get_bind, maxJumps, readName, exec_bind_eq_ok] at ran
  obtain ⟨⟨stop, len⟩, middle, ranLabels, ran⟩ := ran
  obtain ⟨rfl, labelsRead⟩ := exec_readLabels_eq_ok.mp ranLabels
  have size := middle.size_eq
  refine ⟨_, skipLabels_congr labelsRead.skipLabels_eq (by omega) (le_refl _) fun _ _ _ => rfl, ?_⟩
  simp only [seekUnless, Bool.false_eq_true, if_false] at ran
  split at ran
  · rename_i pointer
    obtain ⟨_, sought, seeked, ran⟩ := exec_bind_eq_ok.mp ran
    cases seeked
    obtain ⟨second, last, got, ranRest⟩ := exec_bind_eq_ok.mp ran
    obtain ⟨-, -, rfl⟩ := exec_getAt_eq_ok.mp got
    rw [if_pos pointer]
    exact exec_readName_jumped ranRest
  · rename_i notPointer
    obtain ⟨_, sought, seeked, ran⟩ := exec_bind_eq_ok.mp ran
    cases seeked
    cases ran
    rw [if_neg notPointer]
    rfl

end BytePacketBuffer

/-! ## Records -/

/-- Where the data of a type end by their own layout. -/
def layoutEnd (wire : List UInt8) (qtype : QueryType) (rdataStart dataLen : Nat) :
    Except WireError Nat :=
  match qtype with
  | .a => .ok (rdataStart + 4)
  | .aaaa => .ok (rdataStart + 16)
  | .ns | .cname | .ptr => skipWireName wire rdataStart
  | .mx => skipWireName wire (rdataStart + 2)
  | .soa => do
    let rname ← skipWireName wire rdataStart
    let serial ← skipWireName wire rname
    .ok (serial + 20)
  | _ => .ok (rdataStart + dataLen)

namespace DnsRecord

variable {buffer after : BytePacketBuffer} {domain : Text} {qtypeNum : UInt16} {ttl : UInt32}
  {dataLen : UInt16} {rdataStart : Nat} {record : DnsRecord}

open BytePacketBuffer

theorem exec_read_eq_ok :
    exec read buffer = (.ok record, after) ↔
      ∃ domain pos, exec readQname buffer = (.ok domain, buffer.movedTo pos) ∧
        skipWireName buffer.buf buffer.pos = .ok pos ∧ pos + 10 ≤ bufSize ∧
        exec (readRdata domain (wireU16 buffer.buf pos) (wireU32 buffer.buf (pos + 4))
          (wireU16 buffer.buf (pos + 8)) (pos + 10)) (buffer.movedTo (pos + 10)) =
            (.ok record, after) := by
  simp only [read, exec_bind_eq_ok, exec_readU16_eq_ok, exec_readU32_eq_ok, exec_get,
    Prod.mk.injEq, Except.ok.injEq]
  constructor
  · rintro ⟨domain, _, named, _, _, ⟨-, rfl, rfl⟩, _, _, ⟨-, -, rfl⟩, _, _, ⟨-, rfl, rfl⟩, _, _,
      ⟨room, rfl, rfl⟩, _, _, ⟨rfl, rfl⟩, ran⟩
    obtain ⟨pos, skipped, rfl⟩ := exec_readQname_skip named
    exact ⟨domain, pos, named, skipped, room, ran⟩
  · rintro ⟨domain, pos, named, -, room, ran⟩
    exact ⟨domain, _, named, _, _, ⟨by simp only [movedTo_pos]; omega, rfl, rfl⟩, _, _,
      ⟨by simp only [movedTo_pos]; omega, rfl, rfl⟩, _, _,
      ⟨by simp only [movedTo_pos]; omega, rfl, rfl⟩, _, _, ⟨room, rfl, rfl⟩, _, _,
      ⟨rfl, rfl⟩, ran⟩

/-- The data that are read end where their layout ends. -/
theorem exec_readRdata_end (atStart : buffer.pos = rdataStart)
    (ran : exec (readRdata domain qtypeNum ttl dataLen rdataStart) buffer = (.ok record, after)) :
    record.domain = domain ∧ record.ttl = ttl ∧
      ∃ stop, layoutEnd buffer.buf (.fromNum qtypeNum) rdataStart dataLen.toNat = .ok stop ∧
        after = buffer.movedTo stop := by
  subst atStart
  unfold readRdata at ran
  cases isType : QueryType.fromNum qtypeNum
  case a =>
    simp only [isType, exec_bind_eq_ok, exec_readU32_eq_ok] at ran
    obtain ⟨_, _, ⟨-, -, rfl⟩, result⟩ := ran
    cases result
    exact ⟨rfl, rfl, _, rfl, rfl⟩
  case aaaa =>
    simp only [isType, exec_bind_eq_ok, exec_readU32_eq_ok] at ran
    obtain ⟨_, _, ⟨-, -, rfl⟩, _, _, ⟨-, -, rfl⟩, _, _, ⟨-, -, rfl⟩, _, _, ⟨-, -, rfl⟩, result⟩ :=
      ran
    cases result
    exact ⟨rfl, rfl, _, rfl, rfl⟩
  case ns | cname | ptr =>
    simp only [isType, exec_bind_eq_ok] at ran
    obtain ⟨_, _, named, result⟩ := ran
    obtain ⟨stop, skipped, rfl⟩ := exec_readQname_skip named
    cases result
    exact ⟨rfl, rfl, stop, skipped, rfl⟩
  case mx =>
    simp only [isType, exec_bind_eq_ok, exec_readU16_eq_ok] at ran
    obtain ⟨_, _, ⟨-, -, rfl⟩, _, _, named, result⟩ := ran
    obtain ⟨stop, skipped, rfl⟩ := exec_readQname_skip named
    cases result
    exact ⟨rfl, rfl, stop, skipped, rfl⟩
  case soa =>
    simp only [isType, exec_bind_eq_ok, exec_readU32_eq_ok] at ran
    obtain ⟨_, _, mnamed, _, _, rnamed, _, _, ⟨-, -, rfl⟩, _, _, ⟨-, -, rfl⟩, _, _, ⟨-, -, rfl⟩,
      _, _, ⟨-, -, rfl⟩, _, _, ⟨-, -, rfl⟩, result⟩ := ran
    obtain ⟨rname, mskipped, rfl⟩ := exec_readQname_skip mnamed
    obtain ⟨serial, rskipped, rfl⟩ := exec_readQname_skip rnamed
    rw [movedTo_buf, movedTo_pos] at rskipped
    cases result
    refine ⟨rfl, rfl, serial + 20, ?_, rfl⟩
    simp [layoutEnd, mskipped, rskipped, bind, Except.bind]
  case dnskey | ds =>
    simp only [isType, exec_bind_eq_ok, exec_readU16_eq_ok, BytePacketBuffer.exec_read_eq_ok,
      exec_readRest_eq_ok] at ran
    obtain ⟨_, _, ⟨-, -, rfl⟩, _, _, ⟨-, -, rfl⟩, _, _, ⟨-, -, rfl⟩, _, _, ⟨-, -, -, rfl⟩,
      result⟩ := ran
    cases result
    exact ⟨rfl, rfl, _, rfl, rfl⟩
  case rrsig =>
    simp only [isType, exec_bind_eq_ok, exec_readU16_eq_ok, BytePacketBuffer.exec_read_eq_ok,
      exec_readU32_eq_ok, exec_readRest_eq_ok] at ran
    obtain ⟨_, _, ⟨-, -, rfl⟩, _, _, ⟨-, -, rfl⟩, _, _, ⟨-, -, rfl⟩, _, _, ⟨-, -, rfl⟩, _, _,
      ⟨-, -, rfl⟩, _, _, ⟨-, -, rfl⟩, _, _, ⟨-, -, rfl⟩, _, _, named, _, _, ⟨-, -, -, rfl⟩,
      result⟩ := ran
    obtain ⟨stop, skipped, rfl⟩ := exec_readQname_skip named
    cases result
    exact ⟨rfl, rfl, _, rfl, rfl⟩
  case nsec =>
    simp only [isType, exec_bind_eq_ok, exec_readRest_eq_ok] at ran
    obtain ⟨_, _, named, _, _, ⟨-, -, -, rfl⟩, result⟩ := ran
    obtain ⟨stop, skipped, rfl⟩ := exec_readQname_skip named
    cases result
    exact ⟨rfl, rfl, _, rfl, rfl⟩
  case nsec3 =>
    simp only [isType, exec_bind_eq_ok, exec_readU16_eq_ok, BytePacketBuffer.exec_read_eq_ok,
      exec_readOctets_eq_ok, exec_readRest_eq_ok] at ran
    obtain ⟨_, _, ⟨-, -, rfl⟩, _, _, ⟨-, -, rfl⟩, _, _, ⟨-, -, rfl⟩, _, _, ⟨-, -, rfl⟩, _, _,
      ⟨-, -, rfl⟩, _, _, ⟨-, -, rfl⟩, _, _, ⟨-, -, rfl⟩, _, _, ⟨-, -, -, rfl⟩, result⟩ := ran
    cases result
    exact ⟨rfl, rfl, _, rfl, rfl⟩
  all_goals
    simp only [isType, exec_bind_eq_ok, exec_readOctets_eq_ok] at ran
    obtain ⟨_, _, ⟨-, -, rfl⟩, result⟩ := ran
    cases result
    exact ⟨rfl, rfl, _, rfl, rfl⟩

end DnsRecord

end Numa
