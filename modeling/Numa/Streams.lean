import Mathlib.Algebra.GroupWithZero.Nat
import Mathlib.Data.List.TakeWhile
import Mathlib.Tactic.Common

/-!
# Streams that arrive in segments

A reader of a stream asks for an exact number of items and waits for them until
a deadline, while the stream arrives in segments that need not match what is
asked for.  What a read returns depends on the items alone, and whether it
returns in time depends on those that have arrived by the deadline.  The second
part is about streams of messages that stand behind their lengths.
-/

namespace Numa

/-- Items that arrive together. -/
structure Segment (α : Type) where
  time : Nat
  items : List α

/-- A stream that is being read: the time, the items that are there, and those
to come. -/
structure Inbox (α : Type) where
  now : Nat
  arrived : List α
  coming : List (Segment α)

namespace Inbox

variable {α : Type}

/-- All items that are left. -/
def content (inbox : Inbox α) : List α :=
  inbox.arrived ++ inbox.coming.flatMap Segment.items

/-- The items that are there by a deadline, when no later segment overtakes an
earlier one. -/
def contentBy (inbox : Inbox α) (deadline : Nat) : List α :=
  inbox.arrived ++
    (inbox.coming.takeWhile fun segment => segment.time ≤ deadline).flatMap Segment.items

/-- Read a number of items.  `none` is the end of the stream before them, or
the deadline. -/
def readFrom (deadline count : Nat) :
    (now : Nat) → (arrived : List α) → (coming : List (Segment α)) → Option (List α × Inbox α)
  | now, arrived, [] =>
    if count ≤ arrived.length then some (arrived.take count, ⟨now, arrived.drop count, []⟩)
    else none
  | now, arrived, segment :: later =>
    if count ≤ arrived.length then
      some (arrived.take count, ⟨now, arrived.drop count, segment :: later⟩)
    else if segment.time ≤ deadline then
      readFrom deadline count (max now segment.time) (arrived ++ segment.items) later
    else none

def readExact (inbox : Inbox α) (deadline count : Nat) : Option (List α × Inbox α) :=
  readFrom deadline count inbox.now inbox.arrived inbox.coming

/-- Time passes without a read. -/
def wait (inbox : Inbox α) (duration : Nat) : Inbox α :=
  { inbox with now := inbox.now + duration }

@[simp]
theorem content_wait (inbox : Inbox α) (duration : Nat) :
    (inbox.wait duration).content = inbox.content :=
  rfl

@[simp]
theorem contentBy_wait (inbox : Inbox α) (duration deadline : Nat) :
    (inbox.wait duration).contentBy deadline = inbox.contentBy deadline :=
  rfl

theorem contentBy_prefix (inbox : Inbox α) (deadline : Nat) :
    inbox.contentBy deadline <+: inbox.content := by
  obtain ⟨later, split⟩ := List.takeWhile_prefix (l := inbox.coming)
    (p := fun segment : Segment α => decide (segment.time ≤ deadline))
  refine ⟨later.flatMap Segment.items, ?_⟩
  rw [contentBy, content, List.append_assoc, ← List.flatMap_append, split]

/-- More items are there later. -/
theorem contentBy_length_mono (inbox : Inbox α) {first second : Nat} (later : first ≤ second) :
    (inbox.contentBy first).length ≤ (inbox.contentBy second).length := by
  have takes : ∀ coming : List (Segment α),
      ((coming.takeWhile fun segment => segment.time ≤ first).flatMap Segment.items).length ≤
        ((coming.takeWhile fun segment => segment.time ≤ second).flatMap Segment.items).length := by
    intro coming
    induction coming with
    | nil => exact le_refl _
    | cons segment coming ih =>
        by_cases inTime : segment.time ≤ first
        · simpa [inTime, inTime.trans later] using ih
        · simp [inTime]
  rw [contentBy, contentBy, List.length_append, List.length_append]
  exact Nat.add_le_add_left (takes inbox.coming) _

/-- A read takes the next items, whatever segments they come in, and ends when
they are there. -/
theorem eq_of_readExact {inbox after : Inbox α} {deadline count : Nat} {items : List α}
    (read : inbox.readExact deadline count = some (items, after)) :
    items = inbox.content.take count ∧ after.content = inbox.content.drop count ∧
      inbox.now ≤ after.now ∧ ∀ later, after.now ≤ later →
        count ≤ (inbox.contentBy later).length ∧
          after.contentBy later = (inbox.contentBy later).drop count := by
  obtain ⟨now, arrived, coming⟩ := inbox
  simp only [readExact] at read
  induction coming generalizing now arrived with
  | nil =>
      rw [readFrom] at read
      split at read
      · rename_i enough
        cases read
        simp [content, contentBy, enough]
      · cases read
  | cons segment later ih =>
      rw [readFrom] at read
      split at read
      · rename_i enough
        cases read
        have inFront : ∀ rest : List α, (arrived ++ rest).take count = arrived.take count ∧
            (arrived ++ rest).drop count = arrived.drop count ++ rest := by
          intro rest
          rw [List.take_append_of_le_length enough, List.drop_append_of_le_length enough]
          exact ⟨rfl, rfl⟩
        refine ⟨(inFront _).1.symm, (inFront _).2.symm, le_refl _, fun _ _ => ⟨?_, (inFront _).2.symm⟩⟩
        simp only [contentBy, List.length_append]
        omega
      · split at read
        · obtain ⟨itemsEq, afterEq, laterNow, byEq⟩ := ih _ _ read
          simp only [content, List.append_assoc] at itemsEq afterEq
          refine ⟨itemsEq, afterEq, le_trans (le_max_left _ _) laterNow, ?_⟩
          intro time isLater
          have kept : decide (segment.time ≤ time) = true :=
            decide_eq_true ((le_max_right now _).trans (laterNow.trans isLater))
          have same : contentBy ⟨now, arrived, segment :: later⟩ time =
              contentBy ⟨max now segment.time, arrived ++ segment.items, later⟩ time := by
            simp only [contentBy, List.takeWhile_cons, kept, if_true, List.flatMap_cons,
              List.append_assoc]
          rw [same]
          exact byEq time isLater
        · cases read

/-- A read returns when the items are there by the deadline. -/
theorem readExact_isSome_iff {inbox : Inbox α} {deadline count : Nat} :
    (inbox.readExact deadline count).isSome = true ↔
      count ≤ (inbox.contentBy deadline).length := by
  obtain ⟨now, arrived, coming⟩ := inbox
  simp only [readExact]
  induction coming generalizing now arrived with
  | nil =>
      rw [readFrom]
      split
      · simp [contentBy, *]
      · simp [contentBy, *]
  | cons segment later ih =>
      rw [readFrom]
      split
      · simp only [Option.isSome_some, true_iff, contentBy, List.length_append]
        omega
      · split
        · rename_i inTime
          have kept : decide (segment.time ≤ deadline) = true := decide_eq_true inTime
          rw [ih]
          simp only [contentBy, List.takeWhile_cons, kept, if_true, List.flatMap_cons,
            List.append_assoc]
        · rename_i tooLate
          have cut : decide (segment.time ≤ deadline) = false := decide_eq_false tooLate
          simp only [contentBy, List.takeWhile_cons, cut, Option.isSome_none]
          simp
          omega

end Inbox

/-! ## Messages behind their lengths -/

/-- A header of some width, and the length of the message that it announces.
Longer messages than the limit are not read. -/
structure Framing (α : Type) where
  width : Nat
  size : List α → Nat
  limit : Nat
  positive : 0 < width

namespace Framing

variable {α : Type} (framing : Framing α)

/-- The next message with the rest behind it. -/
def next (content : List α) : Option (List α × List α) :=
  let count := framing.size (content.take framing.width)
  if framing.width + count ≤ content.length ∧ count ≤ framing.limit then
    some ((content.drop framing.width).take count, content.drop (framing.width + count))
  else none

def messagesFrom : (fuel : Nat) → List α → List (List α)
  | 0, _ => []
  | fuel + 1, content =>
    match framing.next content with
    | some (message, rest) => message :: messagesFrom fuel rest
    | none => []

/-- The complete messages up to one that is too long or incomplete. -/
def messages (content : List α) : List (List α) :=
  framing.messagesFrom content.length content

/-- The number of items of some messages with their headers. -/
def offset (sent : List (List α)) : Nat :=
  (sent.map fun message => framing.width + message.length).sum

/-- Read a message, and wait for its header and then for the rest of it. -/
def read (inbox : Inbox α) (timeout : Nat) : Option (List α × Inbox α) := do
  let (header, inbox) ← inbox.readExact (inbox.now + timeout) framing.width
  if framing.limit < framing.size header then none
  else inbox.readExact (inbox.now + timeout) (framing.size header)

/-- Every message is there in time, if one waits for it from any time at which
those before it are there. -/
def Prompt (inbox : Inbox α) (timeout : Nat) : Prop :=
  ∀ count < (framing.messages inbox.content).length, ∀ time, inbox.now ≤ time →
    framing.offset ((framing.messages inbox.content).take count) ≤
      (inbox.contentBy time).length →
    framing.offset ((framing.messages inbox.content).take (count + 1)) ≤
      (inbox.contentBy (time + timeout)).length

variable {framing} {content more message rest : List α}

theorem next_eq_some_iff :
    framing.next content = some (message, rest) ↔
      ∃ header, content = header ++ message ++ rest ∧ header.length = framing.width ∧
        framing.size header = message.length ∧ message.length ≤ framing.limit := by
  unfold next
  constructor
  · intro found
    simp only [Option.ite_none_right_eq_some, Option.some.injEq, Prod.mk.injEq] at found
    obtain ⟨⟨enough, short⟩, rfl, rfl⟩ := found
    have length : ((content.drop framing.width).take
        (framing.size (content.take framing.width))).length =
        framing.size (content.take framing.width) := by
      rw [List.length_take, List.length_drop]
      omega
    refine ⟨content.take framing.width, ?_, ?_, length.symm, length.trans_le short⟩
    · rw [List.append_assoc, ← List.drop_drop, List.take_append_drop, List.take_append_drop]
    · rw [List.length_take]
      omega
  · rintro ⟨header, rfl, isHeader, size, short⟩
    have taken : (header ++ message ++ rest).take framing.width = header := by
      rw [List.append_assoc, ← isHeader, List.take_left]
    have dropped : (header ++ message ++ rest).drop framing.width = message ++ rest := by
      rw [List.append_assoc, ← isHeader, List.drop_left]
    have enough : framing.width + message.length ≤ (header ++ message ++ rest).length := by
      simp only [List.length_append]
      omega
    rw [taken, size, if_pos ⟨enough, short⟩, dropped, List.take_left, ← List.drop_drop, dropped,
      List.drop_left]

@[simp]
theorem offset_append (first second : List (List α)) :
    framing.offset (first ++ second) = framing.offset first + framing.offset second := by
  simp [offset]

@[simp]
theorem offset_singleton (message : List α) :
    framing.offset [message] = framing.width + message.length := by
  simp [offset]

theorem length_of_next (found : framing.next content = some (message, rest)) :
    rest.length < content.length := by
  obtain ⟨header, rfl, isHeader, -⟩ := next_eq_some_iff.mp found
  have positive := framing.positive
  simp only [List.length_append]
  omega

theorem next_append (found : framing.next content = some (message, rest)) :
    framing.next (content ++ more) = some (message, rest ++ more) := by
  obtain ⟨header, rfl, isHeader, size, short⟩ := next_eq_some_iff.mp found
  exact next_eq_some_iff.mpr ⟨header, by simp only [List.append_assoc], isHeader, size, short⟩

theorem messagesFrom_eq {first second : Nat} (enough : content.length ≤ first)
    (alsoEnough : content.length ≤ second) :
    framing.messagesFrom first content = framing.messagesFrom second content := by
  induction first generalizing second content with
  | zero =>
      obtain rfl : content = [] := List.length_eq_zero_iff.mp (by omega)
      have nothing : framing.next [] = none := by
        have positive := framing.positive
        simp only [next, List.length_nil, ite_eq_right_iff, reduceCtorEq, imp_false]
        omega
      cases second with
      | zero => rfl
      | succ second => simp only [messagesFrom, nothing]
  | succ first ih =>
      cases found : framing.next content with
      | none => cases second <;> simp only [messagesFrom, found]
      | some split =>
          obtain ⟨message, rest⟩ := split
          have shorter := length_of_next found
          cases second with
          | zero => omega
          | succ second =>
              simp only [messagesFrom, found]
              exact congrArg (message :: ·) (ih (by omega) (by omega))

theorem messages_of_next (found : framing.next content = some (message, rest)) :
    framing.messages content = message :: framing.messages rest := by
  have shorter := length_of_next found
  obtain ⟨fuel, length⟩ : ∃ fuel, content.length = fuel + 1 := ⟨content.length - 1, by omega⟩
  rw [messages, length]
  simp only [messagesFrom, found]
  rw [messages, messagesFrom_eq (by omega) (le_refl _)]

theorem messages_of_next_eq_none (nothing : framing.next content = none) :
    framing.messages content = [] := by
  rw [messages]
  cases content.length with
  | zero => rfl
  | succ fuel => simp only [messagesFrom, nothing]

theorem next_of_messages_eq_cons {later : List (List α)}
    (isMessages : framing.messages content = message :: later) :
    ∃ rest, framing.next content = some (message, rest) ∧ framing.messages rest = later := by
  cases found : framing.next content with
  | none =>
      rw [messages_of_next_eq_none found] at isMessages
      cases isMessages
  | some split =>
      obtain ⟨first, rest⟩ := split
      rw [messages_of_next found] at isMessages
      cases isMessages
      exact ⟨rest, rfl, rfl⟩

/-- More content adds messages behind those that are there. -/
theorem messages_prefix (longer : content <+: more) :
    framing.messages content <+: framing.messages more := by
  obtain ⟨added, rfl⟩ := longer
  induction length : content.length using Nat.strong_induction_on generalizing content with
  | _ size ih =>
      cases found : framing.next content with
      | none =>
          rw [messages_of_next_eq_none found]
          exact List.nil_prefix
      | some split =>
          obtain ⟨message, rest⟩ := split
          rw [messages_of_next found, messages_of_next (next_append found)]
          exact List.cons_prefix_cons.mpr
            ⟨rfl, ih rest.length (length ▸ length_of_next found) rfl⟩

/-! ### Reading them -/

section Read

variable {inbox after : Inbox α} {timeout : Nat}

/-- What is read is the next message. -/
theorem eq_of_read (ran : framing.read inbox timeout = some (message, after)) :
    framing.next inbox.content = some (message, after.content) ∧ inbox.now ≤ after.now ∧
      ∀ later, after.now ≤ later → framing.width + message.length ≤ (inbox.contentBy later).length ∧
        after.contentBy later = (inbox.contentBy later).drop (framing.width + message.length) := by
  simp only [read, Option.bind_eq_bind, Option.bind_eq_some_iff] at ran
  obtain ⟨⟨header, middle⟩, readHeader, ran⟩ := ran
  dsimp only at ran
  split at ran
  · cases ran
  · rename_i notLong
    obtain ⟨headerEq, middleContent, middleNow, middleBy⟩ := Inbox.eq_of_readExact readHeader
    obtain ⟨messageEq, afterContent, afterNow, afterBy⟩ := Inbox.eq_of_readExact ran
    have headerLength : header.length = framing.width := by
      have enough := (middleBy after.now afterNow).1.trans
        (inbox.contentBy_prefix after.now).length_le
      rw [headerEq, List.length_take]
      omega
    have messageLength : message.length = framing.size header := by
      have enough := (afterBy after.now (le_refl _)).1.trans
        (middle.contentBy_prefix after.now).length_le
      rw [messageEq, List.length_take]
      omega
    refine ⟨next_eq_some_iff.mpr ⟨header, ?_, headerLength, messageLength.symm, ?_⟩,
      middleNow.trans afterNow, fun later isLater => ?_⟩
    · rw [afterContent, messageEq, List.append_assoc, List.take_append_drop, middleContent, headerEq,
        List.take_append_drop]
    · omega
    · obtain ⟨headerThere, middleEq⟩ := middleBy later (afterNow.trans isLater)
      obtain ⟨messageThere, afterEq⟩ := afterBy later isLater
      rw [middleEq, List.length_drop] at messageThere
      rw [afterEq, middleEq, List.drop_drop, messageLength]
      exact ⟨by omega, rfl⟩

/-- The next message is read if it is there in time. -/
theorem exists_read (found : framing.next inbox.content = some (message, rest))
    (inTime : framing.width + message.length ≤ (inbox.contentBy (inbox.now + timeout)).length) :
    ∃ after, framing.read inbox timeout = some (message, after) := by
  obtain ⟨header, contentEq, headerLength, size, short⟩ := next_eq_some_iff.mp found
  have headerThere : (inbox.readExact (inbox.now + timeout) framing.width).isSome = true :=
    Inbox.readExact_isSome_iff.mpr (by omega)
  obtain ⟨⟨readHeader, middle⟩, ranHeader⟩ := Option.isSome_iff_exists.mp headerThere
  obtain ⟨headerEq, middleContent, middleNow, middleBy⟩ := Inbox.eq_of_readExact ranHeader
  have isHeader : readHeader = header := by
    rw [headerEq, contentEq, List.append_assoc, ← headerLength, List.take_left]
  have messageThere : (middle.readExact (middle.now + timeout) message.length).isSome = true := by
    rw [Inbox.readExact_isSome_iff, (middleBy _ (by omega)).2, List.length_drop]
    have longer := inbox.contentBy_length_mono (Nat.add_le_add_right middleNow timeout)
    omega
  obtain ⟨⟨readMessage, after⟩, ranMessage⟩ := Option.isSome_iff_exists.mp messageThere
  have messageEq : readMessage = message := by
    rw [(Inbox.eq_of_readExact ranMessage).1, middleContent, contentEq, List.append_assoc,
      ← headerLength, List.drop_left, List.take_left]
  refine ⟨after, ?_⟩
  simp only [read, ranHeader, Option.bind_eq_bind, Option.bind_some, isHeader, size]
  rw [if_neg (by omega), ranMessage, messageEq]

end Read

end Framing

end Numa
