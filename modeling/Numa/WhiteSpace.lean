import Numa.Text

/-!
# White space

`trim`, `split_whitespace` and `lines` of `str`.  A text in UTF-8 is cut into
its white space characters and the other octets, and no octet of another
character begins a white space character.
-/

namespace Numa

/-- The characters with the property `White_Space`. -/
def whiteSpaces : List Text :=
  [[0x09], [0x0A], [0x0B], [0x0C], [0x0D], [0x20], [0xC2, 0x85], [0xC2, 0xA0],
    [0xE1, 0x9A, 0x80], [0xE2, 0x80, 0x80], [0xE2, 0x80, 0x81], [0xE2, 0x80, 0x82],
    [0xE2, 0x80, 0x83], [0xE2, 0x80, 0x84], [0xE2, 0x80, 0x85], [0xE2, 0x80, 0x86],
    [0xE2, 0x80, 0x87], [0xE2, 0x80, 0x88], [0xE2, 0x80, 0x89], [0xE2, 0x80, 0x8A],
    [0xE2, 0x80, 0xA8], [0xE2, 0x80, 0xA9], [0xE2, 0x80, 0xAF], [0xE2, 0x81, 0x9F],
    [0xE3, 0x80, 0x80]]

/-- `char::is_whitespace`. -/
def isSpace (piece : Text) : Bool :=
  whiteSpaces.contains piece

/-- The white space character that a text begins with. -/
def spaceAhead (name : Text) : Option Text :=
  whiteSpaces.find? fun space => space.isPrefixOf name

namespace Text

/-- The white space characters and the other octets of a text. -/
def cut : (left : Nat) → Text → List Text
  | 0, _ => []
  | _ + 1, [] => []
  | left + 1, octet :: rest =>
    match spaceAhead (octet :: rest) with
    | some space => space :: cut left ((octet :: rest).drop space.length)
    | none => [octet] :: cut left rest

def pieces (name : Text) : List Text :=
  cut name.length name

/-- `trim_end`. -/
def trimEnd (name : Text) : Text :=
  (name.pieces.rdropWhile isSpace).flatten

def trim (name : Text) : Text :=
  ((name.pieces.dropWhile isSpace).rdropWhile isSpace).flatten

/-- The words in a text that has been cut. -/
def words (pieces : List Text) : List Text :=
  ((pieces.splitOnP isSpace).map List.flatten).filter fun word => !word.isEmpty

def splitWhitespace (name : Text) : List Text :=
  words name.pieces

/-- A line without the carriage return at its end. -/
def stripReturn (line : Text) : Text :=
  if line.getLast? = some 0x0D then line.dropLast else line

def lines (content : Text) : List Text :=
  let parts := content.splitOn 0x0A
  parts.dropLast.map stripReturn ++ (parts.getLast?.toList.filter fun line => !line.isEmpty)

end Text

/-! ## Cuts -/

theorem spaceAhead_eq_none_iff {name : Text} :
    spaceAhead name = none ↔ ∀ space ∈ whiteSpaces, ¬ space <+: name := by
  simp [spaceAhead, List.find?_eq_none]

/-- No white space character begins with another one. -/
theorem spaceAhead_append {space : Text} (isSpace : space ∈ whiteSpaces) (rest : Text) :
    spaceAhead (space ++ rest) = some space := by
  have prefixFree : ∀ first ∈ whiteSpaces, ∀ second ∈ whiteSpaces,
      first.isPrefixOf second = true → first = second := by decide
  cases found : spaceAhead (space ++ rest) with
  | none =>
      exact absurd (List.prefix_append space rest) (spaceAhead_eq_none_iff.mp found space isSpace)
  | some other =>
      have otherMem := List.mem_of_find?_eq_some found
      have ahead : other <+: space ++ rest := by
        simpa using List.find?_some found
      rcases List.prefix_or_prefix_of_prefix ahead (List.prefix_append space rest) with
        shorter | longer
      · rw [prefixFree other otherMem space isSpace (by simpa using shorter)]
      · rw [prefixFree space isSpace other otherMem (by simpa using longer)]

/-- Pieces that are cut again in the same way. -/
inductive IsCut : List Text → Prop
  | nil : IsCut []
  | space (space : Text) (rest : List Text) (isSpace : space ∈ whiteSpaces) (later : IsCut rest) :
      IsCut (space :: rest)
  | octet (octet : UInt8) (rest : List Text)
      (notSpace : spaceAhead (octet :: rest.flatten) = none) (later : IsCut rest) :
      IsCut ([octet] :: rest)

theorem ne_nil_of_mem_whiteSpaces {space : Text} (isSpace : space ∈ whiteSpaces) : space ≠ [] := by
  rintro rfl
  exact absurd isSpace (by decide)

theorem IsCut.cut_flatten {pieces : List Text} (isCut : IsCut pieces) {left : Nat}
    (enough : pieces.flatten.length ≤ left) : Text.cut left pieces.flatten = pieces := by
  induction isCut generalizing left with
  | nil => cases left <;> rfl
  | space space rest isSpace later ih =>
      obtain ⟨octet, behind, rfl⟩ := List.exists_cons_of_ne_nil (ne_nil_of_mem_whiteSpaces isSpace)
      simp only [List.flatten_cons, List.length_append, List.length_cons] at enough
      cases left with
      | zero => omega
      | succ left =>
          have ahead := spaceAhead_append isSpace rest.flatten
          rw [List.cons_append] at ahead
          rw [List.flatten_cons, List.cons_append, Text.cut, ahead]
          dsimp only
          rw [← List.cons_append, List.drop_left, ih (by omega)]
  | octet octet rest notSpace later ih =>
      simp only [List.flatten_cons, List.length_append, List.length_singleton] at enough
      cases left with
      | zero => omega
      | succ left =>
          rw [List.flatten_cons, List.singleton_append, Text.cut, notSpace]
          dsimp only
          rw [ih (by omega)]

theorem isCut_cut {left : Nat} {name : Text} (enough : name.length ≤ left) :
    IsCut (Text.cut left name) ∧ (Text.cut left name).flatten = name := by
  induction left generalizing name with
  | zero =>
      obtain rfl := List.eq_nil_of_length_eq_zero (Nat.le_zero.mp enough)
      exact ⟨.nil, rfl⟩
  | succ left ih =>
      cases name with
      | nil => exact ⟨.nil, rfl⟩
      | cons octet rest =>
          rw [List.length_cons] at enough
          rw [Text.cut]
          cases ahead : spaceAhead (octet :: rest) with
          | none =>
              obtain ⟨isCut, flattened⟩ := ih (by omega : rest.length ≤ left)
              exact ⟨.octet octet _ (by rw [flattened, ahead]) isCut, by simp [flattened]⟩
          | some space =>
              have isSpace := List.mem_of_find?_eq_some ahead
              have begins : space <+: octet :: rest := by simpa using List.find?_some ahead
              have positive := List.length_pos_of_ne_nil (ne_nil_of_mem_whiteSpaces isSpace)
              have fewer : ((octet :: rest).drop space.length).length ≤ left := by
                rw [List.length_drop, List.length_cons]
                omega
              obtain ⟨isCut, flattened⟩ := ih fewer
              refine ⟨.space space _ isSpace isCut, ?_⟩
              rw [List.flatten_cons, flattened]
              exact List.prefix_iff_eq_append.mp begins

theorem isCut_pieces (name : Text) : IsCut name.pieces :=
  (isCut_cut le_rfl).1

theorem flatten_pieces (name : Text) : name.pieces.flatten = name :=
  (isCut_cut le_rfl).2

theorem IsCut.pieces_flatten {pieces : List Text} (isCut : IsCut pieces) :
    Text.pieces pieces.flatten = pieces :=
  isCut.cut_flatten le_rfl

theorem IsCut.of_append {first second : List Text} (isCut : IsCut (first ++ second)) :
    IsCut first := by
  induction first with
  | nil => exact .nil
  | cons piece first ih =>
      rw [List.cons_append] at isCut
      cases isCut with
      | space _ _ isSpace later => exact .space _ _ isSpace (ih later)
      | octet octet _ notSpace later =>
          refine .octet octet first ?_ (ih later)
          rw [spaceAhead_eq_none_iff] at notSpace ⊢
          intro space spaceMem ahead
          apply notSpace space spaceMem
          rw [List.flatten_append, ← List.cons_append]
          exact ahead.trans (List.prefix_append _ _)

/-- Octets that no white space character has. -/
def IsSpaceFree (octet : UInt8) : Prop :=
  ∀ space ∈ whiteSpaces, octet ∉ space

theorem spaceAhead_of_isSpaceFree {octet : UInt8} (plain : IsSpaceFree octet) (rest : Text) :
    spaceAhead (octet :: rest) = none := by
  rw [spaceAhead_eq_none_iff]
  intro space spaceMem ahead
  obtain ⟨first, behind, rfl⟩ := List.exists_cons_of_ne_nil (ne_nil_of_mem_whiteSpaces spaceMem)
  obtain ⟨rfl, -⟩ := List.cons_prefix_cons.mp ahead
  exact plain _ spaceMem (by simp)

theorem isSpace_singleton {octet : UInt8} (plain : IsSpaceFree octet) : isSpace [octet] = false := by
  rw [isSpace, Bool.eq_false_iff]
  intro isSpace
  exact plain [octet] (by simpa using isSpace) (by simp)

theorem IsCut.plain_append {front : Text} (plain : ∀ octet ∈ front, IsSpaceFree octet)
    {rest : List Text} (isCut : IsCut rest) : IsCut (front.map (fun octet => [octet]) ++ rest) := by
  induction front with
  | nil => exact isCut
  | cons octet front ih =>
      refine .octet octet _ (spaceAhead_of_isSpaceFree (plain octet (by simp)) _) ?_
      exact ih fun other otherMem => plain other (List.mem_cons_of_mem _ otherMem)

namespace Text

theorem pieces_append {front : Text} (plain : ∀ octet ∈ front, IsSpaceFree octet) (rest : Text) :
    (front ++ rest).pieces = front.map (fun octet => [octet]) ++ rest.pieces := by
  have isCut := (isCut_pieces rest).plain_append plain
  have flattened : (front.map (fun octet => [octet]) ++ rest.pieces).flatten = front ++ rest := by
    rw [List.flatten_append, flatten_pieces, ← List.flatMap_def, List.flatMap_singleton']
  rw [← flattened, isCut.pieces_flatten]

theorem pieces_of_prefix {name : Text} {front : List Text} (begins : front <+: name.pieces) :
    Text.pieces front.flatten = front := by
  obtain ⟨rest, split⟩ := begins
  have isCut := isCut_pieces name
  rw [← split] at isCut
  exact isCut.of_append.pieces_flatten

/-! ## Trimming -/

theorem pieces_trimEnd (name : Text) : name.trimEnd.pieces = name.pieces.rdropWhile isSpace :=
  pieces_of_prefix (List.rdropWhile_prefix _ _)

theorem rdropWhile_append_of_last {α : Type} {p : α → Bool} {front rest : List α} {last : α}
    (stops : ¬ p last) :
    (front ++ [last] ++ rest).rdropWhile p = front ++ [last] ++ rest.rdropWhile p := by
  induction rest using List.reverseRecOn with
  | nil =>
      rw [List.append_nil, List.rdropWhile_nil, List.append_nil,
        List.rdropWhile_concat_neg _ _ _ stops]
  | append_singleton rest item ih =>
      rw [← List.append_assoc]
      by_cases drops : p item
      · rw [List.rdropWhile_concat_pos _ _ _ drops, List.rdropWhile_concat_pos _ _ _ drops, ih]
      · rw [List.rdropWhile_concat_neg _ _ _ drops, List.rdropWhile_concat_neg _ _ _ drops,
          List.append_assoc]

/-- White space is only trimmed behind a text that begins with other octets. -/
theorem trim_append {front : Text} (nonempty : front ≠ [])
    (plain : ∀ octet ∈ front, IsSpaceFree octet) (rest : Text) :
    (front ++ rest).trim = front ++ rest.trimEnd := by
  obtain ⟨octet, behind, rfl⟩ := List.exists_cons_of_ne_nil nonempty
  obtain ⟨others, last, split⟩ := (List.eq_nil_or_concat' (octet :: behind)).resolve_left nonempty
  have lastPlain : isSpace [last] = false :=
    isSpace_singleton (plain last (by rw [split]; simp))
  have dropped : (((octet :: behind).map (fun octet => [octet])) ++ rest.pieces).dropWhile isSpace =
      ((octet :: behind).map (fun octet => [octet])) ++ rest.pieces := by
    rw [List.map_cons, List.cons_append, List.dropWhile_cons_of_neg]
    rw [isSpace_singleton (plain octet (by simp))]
    exact Bool.false_ne_true
  have kept : (((octet :: behind).map (fun octet => [octet])) ++ rest.pieces).rdropWhile isSpace =
      ((octet :: behind).map (fun octet => [octet])) ++ rest.pieces.rdropWhile isSpace := by
    rw [split, List.map_append, List.map_singleton]
    exact rdropWhile_append_of_last (by simp [lastPlain])
  rw [trim, pieces_append plain, dropped, kept, List.flatten_append, ← List.flatMap_def,
    List.flatMap_singleton']
  rfl

theorem trimEnd_nil : trimEnd [] = [] :=
  rfl

theorem trim_of_plain {name : Text} (plain : ∀ octet ∈ name, IsSpaceFree octet) :
    name.trim = name := by
  by_cases nonempty : name = []
  · rw [nonempty]
    rfl
  · have trimmed := trim_append nonempty plain []
    rwa [List.append_nil, trimEnd_nil, List.append_nil] at trimmed

end Text

/-- A carriage return behind a text is a piece of its own. -/
theorem IsCut.concat_return {pieces : List Text} (isCut : IsCut pieces) :
    IsCut (pieces ++ [[0x0D]]) := by
  have alone : ∀ space ∈ whiteSpaces, space.getLast? = some 0x0D → space = [0x0D] := by decide
  induction isCut with
  | nil => exact .space _ _ (by decide) .nil
  | space space rest isSpace later ih => exact .space _ _ isSpace ih
  | octet octet rest notSpace later ih =>
      refine .octet octet (rest ++ [[0x0D]]) ?_ ih
      rw [spaceAhead_eq_none_iff] at notSpace ⊢
      intro space spaceMem ahead
      have flattened : octet :: (rest ++ [[0x0D]]).flatten =
          (octet :: rest.flatten) ++ [0x0D] := by simp
      rw [flattened, List.prefix_concat_iff] at ahead
      rcases ahead with whole | shorter
      · have single := alone space spaceMem (by rw [whole, List.getLast?_concat])
        rw [single] at whole
        simp at whole
      · exact notSpace space spaceMem shorter

namespace Text

theorem trim_concat_return (line : Text) : (line ++ [0x0D]).trim = line.trim := by
  have white : isSpace [0x0D] = true := by decide
  have cutAgain : (line ++ [0x0D]).pieces = line.pieces ++ [[0x0D]] := by
    rw [← (isCut_pieces line).concat_return.pieces_flatten, List.flatten_append, flatten_pieces]
    rfl
  rw [trim, trim, cutAgain, List.dropWhile_append]
  split
  · rename_i allWhite
    rw [List.isEmpty_iff] at allWhite
    rw [allWhite, List.dropWhile_cons_of_pos white]
    rfl
  · rw [List.rdropWhile_concat_pos _ _ _ white]

theorem trim_stripReturn (line : Text) : line.stripReturn.trim = line.trim := by
  unfold stripReturn
  split
  · rename_i returns
    obtain ⟨front, rfl⟩ := List.getLast?_eq_some_iff.mp returns
    rw [List.dropLast_concat, trim_concat_return]
  · rfl

/-! ## Words -/

/-- A text up to an octet that is no white space. -/
theorem pieces_takeWhile {octet : UInt8} (plain : IsSpaceFree octet) (name : Text) :
    Text.pieces (name.takeWhile (· != octet)) = name.pieces.takeWhile (· != [octet]) := by
  have flattened : ∀ {pieces : List Text}, IsCut pieces →
      pieces.flatten.takeWhile (· != octet) = (pieces.takeWhile (· != [octet])).flatten := by
    intro pieces isCut
    induction isCut with
    | nil => rfl
    | space space rest isSpace later ih =>
        have others : ∀ other ∈ space, (other != octet) = true := by
          intro other otherMem
          rw [bne_iff_ne]
          rintro rfl
          exact plain space isSpace otherMem
        have different : (space != [octet]) = true := by
          rw [bne_iff_ne]
          rintro rfl
          exact plain _ isSpace (by simp)
        rw [List.flatten_cons, List.takeWhile_append_of_pos others, ih, List.takeWhile_cons,
          if_pos different, List.flatten_cons]
    | octet other rest notSpace later ih =>
        by_cases same : other = octet
        · subst same
          rw [List.flatten_cons, List.singleton_append, List.takeWhile_cons_of_neg (by simp),
            List.takeWhile_cons_of_neg (by simp)]
          rfl
        · rw [List.flatten_cons, List.singleton_append,
            List.takeWhile_cons_of_pos (by simpa using same), ih,
            List.takeWhile_cons_of_pos (by simpa using same)]
          rfl
  have cutName := flattened (isCut_pieces name)
  rw [flatten_pieces] at cutName
  rw [cutName, pieces_of_prefix (List.takeWhile_prefix _)]

theorem words_nil : words [] = [] := by
  simp [words]

/-- The words in front of white space and those behind it. -/
theorem words_append_space {space : Text} (white : isSpace space = true) (front rest : List Text) :
    words (front ++ space :: rest) = words front ++ words rest := by
  rw [words, List.splitOnP_append_cons front rest white, List.map_append, List.filter_append]
  rfl

theorem words_concat_space {space : Text} (white : isSpace space = true) (front : List Text) :
    words (front ++ [space]) = words front := by
  rw [words_append_space white, words_nil, List.append_nil]

theorem words_of_plain {word : Text} (nonempty : word ≠ [])
    (plain : ∀ octet ∈ word, IsSpaceFree octet) : words (word.map fun octet => [octet]) = [word] := by
  have noSpace : ∀ piece ∈ word.map (fun octet => [octet]), isSpace piece = false := by
    intro piece pieceMem
    obtain ⟨octet, octetMem, rfl⟩ := List.mem_map.mp pieceMem
    exact isSpace_singleton (plain octet octetMem)
  have flattened : (word.map fun octet => [octet]).flatten = word := by
    rw [← List.flatMap_def, List.flatMap_singleton']
  rw [words, List.splitOnP_eq_singleton noSpace, List.map_singleton, flattened]
  simp [nonempty]

/-- Trimmed white space is in no word, also in front of an octet that is none. -/
theorem words_takeWhile_rdropWhile {octet : UInt8} (plain : IsSpaceFree octet) (pieces : List Text) :
    words ((pieces.rdropWhile isSpace).takeWhile (· != [octet])) =
      words (pieces.takeWhile (· != [octet])) := by
  induction pieces using List.reverseRecOn with
  | nil => rfl
  | append_singleton pieces piece ih =>
      by_cases white : isSpace piece = true
      · have different : (piece != [octet]) = true := by
          rw [bne_iff_ne]
          rintro rfl
          rw [isSpace_singleton plain] at white
          cases white
        rw [List.rdropWhile_concat_pos _ _ _ white, ih, List.takeWhile_append]
        split
        · rename_i whole
          rw [List.takeWhile_cons, if_pos different, List.takeWhile_nil, words_concat_space white]
          rw [(List.takeWhile_prefix _).eq_of_length whole]
        · rfl
      · rw [List.rdropWhile_concat_neg _ _ _ white]

/-- The words before an octet that is no white space, behind a first word. -/
theorem splitWhitespace_takeWhile_trimEnd {octet : UInt8} (plain : IsSpaceFree octet) (name : Text) :
    splitWhitespace (name.trimEnd.takeWhile (· != octet)) =
      splitWhitespace (name.takeWhile (· != octet)) := by
  rw [splitWhitespace, splitWhitespace, pieces_takeWhile plain, pieces_takeWhile plain,
    pieces_trimEnd, words_takeWhile_rdropWhile plain]

/-- A first word is split off at the white space behind it. -/
theorem splitWhitespace_append {word rest : Text} (nonempty : word ≠ [])
    (plain : ∀ octet ∈ word, IsSpaceFree octet)
    (behind : ∀ piece ∈ rest.pieces.head?, isSpace piece = true) :
    splitWhitespace (word ++ rest) = word :: splitWhitespace rest := by
  rw [splitWhitespace, splitWhitespace, pieces_append plain]
  cases split : rest.pieces with
  | nil => rw [List.append_nil, words_of_plain nonempty plain, words_nil]
  | cons space pieces =>
      have white : isSpace space = true := behind space (by simp [split])
      have behindSpace := words_append_space white [] pieces
      rw [List.nil_append, words_nil, List.nil_append] at behindSpace
      rw [words_append_space white, words_of_plain nonempty plain, behindSpace]
      rfl

end Text

end Numa
