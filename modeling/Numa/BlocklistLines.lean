import Mathlib.Data.Bool.AllAny
import Numa.BlocklistRefresh
import Numa.WhiteSpace

/-!
# The lines of a blocklist

`parse_blocklist` tells the dialects of blocklists apart by the beginnings of
lines.  This file says which lines it takes a domain from.
-/

namespace Numa

/-- What `str::to_lowercase` does to ASCII characters and to a text in lower
case. -/
structure LowersTexts (toLowercase : Text → Text) : Prop extends IsLowercasing toLowercase where
  ascii : ∀ name, (∀ octet ∈ name, octet < 0x80) → toLowercase name = name.toLowercase
  front : ∀ front rest, (∀ octet ∈ front, octet < 0x80) →
    front.toLowercase <+: toLowercase (front ++ rest)

/-- Letters and digits. -/
def isAlphanumeric (octet : UInt8) : Bool :=
  isAsciiDigit octet || isAsciiDigit (toAsciiLowercase octet) ||
    (0x61 ≤ toAsciiLowercase octet && toAsciiLowercase octet ≤ 0x7A)

/-- The octets of host names. -/
def isHostOctet (octet : UInt8) : Bool :=
  isAlphanumeric octet || octet == 0x2D || octet == 0x5F || octet == dot

/-- The octets of IPv6 addresses with their zones. -/
def isAddressOctet (octet : UInt8) : Bool :=
  isAlphanumeric octet || octet == 0x3A || octet == dot || octet == 0x25

/-- A host name with a dot, in any letter case and with any dots at its end. -/
structure IsHostName (domain : Text) : Prop where
  octets : ∀ octet ∈ domain, isHostOctet octet = true
  dotted : dot ∈ domain.trimEndDots

/-- The address at the beginning of a line of a hosts file. -/
def IsHostsAddress (address : Text) : Prop :=
  address = text "0.0.0.0" ∨ address = text "127.0.0.1" ∨
    0x3A ∈ address ∧ ∀ octet ∈ address, isAddressOctet octet = true

/-- The lines that list a domain. -/
inductive LineForm
  | plain
  | wildcard
  | anchored
  | anchoredWildcard
  | withOptions (options : Text)
  /-- A line of a hosts file, with what is behind its address. -/
  | hosts (address rest : Text)

namespace LineForm

def line (domain : Text) : LineForm → Text
  | plain => domain
  | wildcard => text "*." ++ domain
  | anchored => text "||" ++ domain ++ text "^"
  | anchoredWildcard => text "||*." ++ domain ++ text "^"
  | withOptions options => text "||" ++ domain ++ text "^$" ++ options
  | hosts address rest => address ++ rest

/-- Is the line one that lists the domain?  Behind an address there are white
space and the aliases, up to a comment. -/
def Lists (domain : Text) : LineForm → Prop
  | withOptions options => 0x0A ∉ options
  | hosts address rest => IsHostsAddress address ∧ 0x0A ∉ rest ∧ (spaceAhead rest).isSome = true ∧
    domain ∈ Text.splitWhitespace (rest.takeWhile (· != 0x23))
  | _ => True

/-- Is the domain taken from the line? -/
def IsRecognized (domain : Text) : LineForm → Prop
  | plain => ¬ text "0.0.0.0" <+: domain ∧ ¬ text "127.0.0.1" <+: domain
  | wildcard => True
  | anchored => True
  | anchoredWildcard => False
  | withOptions options => 0x20 ∉ options.trimEnd ∧ 0x09 ∉ options.trimEnd
  | hosts address _ =>
    text "0.0.0.0" <+: address ∨ text "127.0.0.1" <+: address ∨ text "::" <+: address

end LineForm

/-! ## Texts -/

section Lines

variable {toLowercase : Text → Text}

/-- The domains that `parse_blocklist` takes from a line. -/
def lineDomains (toLowercase : Text → Text) (line : Text) : List Text :=
  (listedNames Text.trim Text.splitWhitespace line).filterMap (validDomain toLowercase)

theorem lineDomains_congr {first second : Text} (same : first.trim = second.trim) :
    lineDomains toLowercase first = lineDomains toLowercase second := by
  rw [lineDomains, lineDomains, listedNames, listedNames, same]

theorem lineDomains_nil : lineDomains toLowercase [] = [] :=
  rfl

/-- A text lists what its lines list. -/
theorem mem_parseBlocklist_iff {content domain : Text} :
    domain ∈ parseBlocklist toLowercase Text.trim Text.splitWhitespace content ↔
      ∃ line ∈ content.lines, domain ∈ lineDomains toLowercase line := by
  have parsed : domain ∈ parseBlocklist toLowercase Text.trim Text.splitWhitespace content ↔
      ∃ line ∈ content.splitOn 0x0A, domain ∈ lineDomains toLowercase line := by
    rw [parseBlocklist, List.mem_toFinset, List.filterMap_flatMap, List.mem_flatMap]
    rfl
  obtain ⟨front, last, split⟩ := (List.eq_nil_or_concat' (content.splitOn 0x0A)).resolve_left
    (by rw [List.splitOn_eq_splitOnP]; exact List.splitOnP_ne_nil _ _)
  have stripped : ∀ line, lineDomains toLowercase line.stripReturn = lineDomains toLowercase line :=
    fun line => lineDomains_congr line.trim_stripReturn
  rw [parsed, Text.lines, split]
  simp only [List.dropLast_concat, List.getLast?_concat, Option.toList_some, List.mem_append,
    List.mem_map, List.mem_singleton, or_and_right, exists_or, exists_eq_left, List.filter_cons,
    List.filter_nil]
  constructor
  · rintro (⟨line, lineMem, isListed⟩ | isListed)
    · exact .inl ⟨_, ⟨line, lineMem, rfl⟩, by rwa [stripped]⟩
    · have nonempty : last ≠ [] := by
        rintro rfl
        rw [lineDomains_nil] at isListed
        cases isListed
      exact .inr ⟨last, by simp [nonempty], isListed⟩
  · rintro (⟨_, ⟨line, lineMem, rfl⟩, isListed⟩ | ⟨line, lineMem, isListed⟩)
    · exact .inl ⟨line, lineMem, by rwa [stripped] at isListed⟩
    · split at lineMem
      · rw [List.mem_singleton.mp lineMem] at isListed
        exact .inr isListed
      · cases lineMem

theorem lines_of_single {line : Text} (nonempty : line ≠ []) (noBreak : 0x0A ∉ line) :
    line.lines = [line] := by
  have split : line.splitOn 0x0A = [line] := by
    rw [List.splitOn_eq_splitOnP]
    apply List.splitOnP_eq_singleton
    intro octet octetMem
    rw [beq_eq_false_iff_ne]
    rintro rfl
    exact noBreak octetMem
  rw [Text.lines, split]
  simp [nonempty]

/-- Every text with the line lists the domain iff the line does. -/
theorem forall_content_iff {line domain : Text} (nonempty : line ≠ []) (noBreak : 0x0A ∉ line) :
    (∀ content : Text, line ∈ content.lines →
      domain ∈ parseBlocklist toLowercase Text.trim Text.splitWhitespace content) ↔
      domain ∈ lineDomains toLowercase line := by
  constructor
  · intro all
    have isSingle := lines_of_single nonempty noBreak
    obtain ⟨other, otherMem, isListed⟩ := mem_parseBlocklist_iff.mp (all line (by simp [isSingle]))
    rw [isSingle, List.mem_singleton] at otherMem
    rwa [otherMem] at isListed
  · exact fun isListed content lineMem => mem_parseBlocklist_iff.mpr ⟨line, lineMem, isListed⟩

end Lines

/-! ## Octets -/

/-- The octets that mark lines, and blanks. -/
def markers : List UInt8 :=
  [0x09, 0x0A, 0x20, 0x21, 0x23, 0x24, 0x2A, 0x5E, 0x7C]

instance (octet : UInt8) : Decidable (IsSpaceFree octet) :=
  List.decidableBAll (fun space => octet ∉ space) whiteSpaces

theorem isHostOctet_table {octet : UInt8} (host : isHostOctet octet = true) :
    (IsSpaceFree octet ∧ octet < 0x80 ∧ octet ∉ markers ∧ octet ≠ 0x3A) ∧
      toAsciiLowercase octet ≠ 0x2A ∧ toAsciiLowercase octet ≠ 0x3A := by
  have table : ∀ index : Fin 256, isHostOctet (.ofFin index) = true →
      (IsSpaceFree (.ofFin index) ∧ UInt8.ofFin index < 0x80 ∧ UInt8.ofFin index ∉ markers ∧
        UInt8.ofFin index ≠ 0x3A) ∧
        toAsciiLowercase (.ofFin index) ≠ 0x2A ∧ toAsciiLowercase (.ofFin index) ≠ 0x3A := by
    decide +kernel
  exact table octet.toFin host

theorem isAddressOctet_table {octet : UInt8} (address : isAddressOctet octet = true) :
    IsSpaceFree octet ∧ octet < 0x80 ∧ octet ∉ markers := by
  simp only [isAddressOctet, Bool.or_eq_true, beq_iff_eq] at address
  rcases address with ((alphanumeric | rfl) | rfl) | rfl
  · have host : isHostOctet octet = true := by simp [isHostOctet, alphanumeric]
    obtain ⟨⟨spaceFree, ascii, unmarked, -⟩, -⟩ := isHostOctet_table host
    exact ⟨spaceFree, ascii, unmarked⟩
  all_goals decide +kernel

theorem IsHostName.ne_nil {domain : Text} (host : IsHostName domain) : domain ≠ [] := by
  rintro rfl
  cases host.dotted

/-- The first octet of a host name is none of the markers. -/
theorem IsHostName.not_mem_markers {domain : Text} (host : IsHostName domain) {octet : UInt8}
    (octetMem : octet ∈ domain) : octet ∉ markers :=
  (isHostOctet_table (host.octets octet octetMem)).1.2.2.1

theorem IsHostsAddress.ne_nil {address : Text} (isAddress : IsHostsAddress address) :
    address ≠ [] := by
  rintro rfl
  rcases isAddress with same | same | ⟨colon, -⟩
  · exact absurd same (by decide)
  · exact absurd same (by decide)
  · cases colon

theorem IsHostsAddress.isAddressOctet {address : Text} (isAddress : IsHostsAddress address)
    {octet : UInt8} (octetMem : octet ∈ address) : isAddressOctet octet = true := by
  rcases isAddress with rfl | rfl | ⟨-, octets⟩
  · exact List.all_eq_true.mp (by decide : (text "0.0.0.0").all Numa.isAddressOctet = true) _ octetMem
  · exact List.all_eq_true.mp (by decide : (text "127.0.0.1").all Numa.isAddressOctet = true) _
      octetMem
  · exact octets octet octetMem

/-! ## Valid domains -/

theorem mem_rdropWhile_of_not {α : Type} {p : α → Bool} {items : List α} {item : α}
    (itemMem : item ∈ items) (stays : ¬ p item) : item ∈ items.rdropWhile p := by
  induction items using List.reverseRecOn with
  | nil => cases itemMem
  | append_singleton items last ih =>
      by_cases drops : p last
      · rw [List.rdropWhile_concat_pos _ _ _ drops]
        rcases List.mem_append.mp itemMem with inFront | isLast
        · exact ih inFront
        · rw [List.mem_singleton.mp isLast] at stays
          exact absurd drops stays
      · rwa [List.rdropWhile_concat_neg _ _ _ drops]

theorem toLowercase_trimEndDots (name : Text) :
    name.toLowercase.trimEndDots = name.trimEndDots.toLowercase := by
  have isDot : ∀ octet, toAsciiLowercase octet = dot ↔ octet = dot := by
    intro octet
    have table : ∀ index : Fin 256,
        toAsciiLowercase (.ofFin index) = dot ↔ UInt8.ofFin index = dot := by decide +kernel
    exact table octet.toFin
  induction name using List.reverseRecOn with
  | nil => rfl
  | append_singleton name last ih =>
      have mapped : Text.toLowercase (name ++ [last]) =
          Text.toLowercase name ++ [toAsciiLowercase last] := List.map_append
      by_cases same : last = dot
      · rw [mapped, Text.trimEndDots, Text.trimEndDots,
          List.rdropWhile_concat_pos _ _ _ (by simpa [isDot] using same),
          List.rdropWhile_concat_pos _ _ _ (by simpa using same)]
        exact ih
      · rw [mapped, Text.trimEndDots, Text.trimEndDots,
          List.rdropWhile_concat_neg _ _ _ (by simpa [isDot] using same),
          List.rdropWhile_concat_neg _ _ _ (by simpa using same), mapped]

section Valid

variable {toLowercase : Text → Text} (lowers : LowersTexts toLowercase) {domain : Text}
  (host : IsHostName domain)

include lowers host

theorem normalize_hostName : normalize toLowercase domain = domain.toLowercase.trimEndDots := by
  rw [normalize, lowers.ascii domain fun octet octetMem =>
    (isHostOctet_table (host.octets octet octetMem)).1.2.1]

theorem validDomain_hostName
    (notLocal : normalize toLowercase domain ≠ text "localhost.localdomain") :
    validDomain toLowercase domain = some (normalize toLowercase domain) := by
  have dotted : dot ∈ normalize toLowercase domain := by
    rw [normalize_hostName lowers host, toLowercase_trimEndDots]
    exact List.mem_map.mpr ⟨dot, host.dotted, rfl⟩
  have notLocalhost : normalize toLowercase domain ≠ text "localhost" := by
    intro same
    rw [same] at dotted
    exact absurd dotted (by decide)
  exact if_pos ⟨List.ne_nil_of_mem dotted, dotted, notLocalhost, notLocal⟩

/-- A name with an octet that host names do not have is another domain. -/
theorem validDomain_ne {name : Text} {octet : UInt8} (octetMem : octet ∈ toLowercase name)
    (notDot : octet ≠ dot)
    (foreign : ∀ other, isHostOctet other = true → toAsciiLowercase other ≠ octet) :
    validDomain toLowercase name ≠ some (normalize toLowercase domain) := by
  intro valid
  unfold validDomain at valid
  dsimp only at valid
  split at valid
  · have same := Option.some.inj valid
    have kept : octet ∈ normalize toLowercase name :=
      mem_rdropWhile_of_not octetMem (by simpa using notDot)
    rw [same, normalize_hostName lowers host] at kept
    have inDomain := (List.rdropWhile_prefix _ _).subset kept
    obtain ⟨other, otherMem, isOctet⟩ := List.mem_map.mp inDomain
    exact foreign other (host.octets other otherMem) isOctet
  · cases valid

end Valid

/-! ## The dialects -/

/-- Does the line begin like one of a hosts file? -/
def IsHostsLine (line : Text) : Prop :=
  text "0.0.0.0" <+: line ∨ text "127.0.0.1" <+: line ∨ text "::" <+: line

/-- The name in a line that is not one of a hosts file. -/
def filterName (line : Text) : Text :=
  ((trimStartPairs 0x7C 0x7C (trimStartPairs 0x2A dot line)).takeWhile (· != 0x24)).rdropWhile
    (· == 0x5E)

section Dialects

variable {line : Text} {octet : UInt8} {rest : Text} (trimmed : line.trim = octet :: rest)
  (noComment : octet ≠ 0x23 ∧ octet ≠ 0x21)

include trimmed noComment

theorem listedNames_of_hosts (hosts : IsHostsLine (octet :: rest)) :
    listedNames Text.trim Text.splitWhitespace line =
      (Text.splitWhitespace ((octet :: rest).takeWhile (· != 0x23))).drop 1 := by
  rw [listedNames, trimmed]
  dsimp only
  rw [if_neg (by simpa using noComment)]
  exact if_pos hosts

theorem listedNames_of_blank (noHosts : ¬ IsHostsLine (octet :: rest))
    (blank : 0x20 ∈ octet :: rest ∨ 0x09 ∈ octet :: rest) :
    listedNames Text.trim Text.splitWhitespace line = [] := by
  rw [listedNames, trimmed]
  dsimp only
  rw [if_neg (by simpa using noComment)]
  exact (if_neg noHosts).trans (if_pos blank)

theorem listedNames_of_filter (noHosts : ¬ IsHostsLine (octet :: rest))
    (noBlank : ¬ (0x20 ∈ octet :: rest ∨ 0x09 ∈ octet :: rest)) :
    listedNames Text.trim Text.splitWhitespace line = [filterName (octet :: rest)] := by
  rw [listedNames, trimmed]
  dsimp only
  rw [if_neg (by simpa using noComment)]
  exact (if_neg noHosts).trans (if_neg noBlank)

end Dialects

theorem trimStartPairs_of_ne {first second octet : UInt8} {rest : Text} (other : octet ≠ first) :
    trimStartPairs first second (octet :: rest) = octet :: rest := by
  cases rest with
  | nil => rfl
  | cons next rest => simp [trimStartPairs, other]

theorem trimStartPairs_pair (first second : UInt8) (rest : Text) :
    trimStartPairs first second (first :: second :: rest) = trimStartPairs first second rest := by
  simp [trimStartPairs]

/-- A line that begins with a marker or a star is none of a hosts file. -/
theorem not_isHostsLine {octet : UInt8} {rest : Text}
    (other : octet ≠ 0x30 ∧ octet ≠ 0x31 ∧ octet ≠ 0x3A) : ¬ IsHostsLine (octet :: rest) := by
  have zeros : text "0.0.0.0" = 0x30 :: text ".0.0.0" := by decide
  have loopback : text "127.0.0.1" = 0x31 :: text "27.0.0.1" := by decide
  have colons : text "::" = 0x3A :: text ":" := by decide
  rw [IsHostsLine, zeros, loopback, colons, List.cons_prefix_cons, List.cons_prefix_cons,
    List.cons_prefix_cons]
  rintro (⟨same, -⟩ | ⟨same, -⟩ | ⟨same, -⟩)
  · exact other.1 same.symm
  · exact other.2.1 same.symm
  · exact other.2.2 same.symm

section Filters

variable {domain : Text} (host : IsHostName domain)

include host

theorem rdropWhile_carets (carets : Nat) :
    (domain ++ List.replicate carets 0x5E).rdropWhile (· == 0x5E) = domain := by
  induction carets with
  | zero =>
      rw [List.replicate_zero, List.append_nil, List.rdropWhile_eq_self_iff]
      intro nonempty
      rw [beq_iff_eq]
      intro caret
      exact host.not_mem_markers (List.getLast_mem nonempty) (by rw [caret]; decide)
  | succ carets ih =>
      rw [List.replicate_succ', ← List.append_assoc, List.rdropWhile_concat_pos _ _ _ (by simp), ih]

/-- What is taken from behind a host name. -/
theorem strip_hostName (carets : Nat) {behind : Text}
    (ends : ∀ octet ∈ behind.head?, octet = 0x24) :
    ((domain ++ List.replicate carets 0x5E ++ behind).takeWhile (· != 0x24)).rdropWhile
      (· == 0x5E) = domain := by
  have noDollar : ∀ octet ∈ domain ++ List.replicate carets 0x5E, (octet != 0x24) = true := by
    intro octet octetMem
    rw [bne_iff_ne]
    rintro rfl
    rcases List.mem_append.mp octetMem with inDomain | isCaret
    · exact host.not_mem_markers inDomain (by decide)
    · exact absurd (List.eq_of_mem_replicate isCaret) (by decide)
  have nothing : behind.takeWhile (· != 0x24) = [] := by
    cases behind with
    | nil => rfl
    | cons octet behind =>
        obtain rfl := ends octet rfl
        rfl
  rw [List.takeWhile_append_of_pos noDollar, nothing, List.append_nil, rdropWhile_carets host]

end Filters

/-! ## The lines -/

section Forms

variable {toLowercase : Text → Text} (lowers : LowersTexts toLowercase) {domain : Text}
  (host : IsHostName domain)

include host

theorem filterName_hostName (carets : Nat) {behind : Text}
    (ends : ∀ octet ∈ behind.head?, octet = 0x24) :
    filterName (domain ++ List.replicate carets 0x5E ++ behind) = domain := by
  obtain ⟨octet, rest, rfl⟩ := List.exists_cons_of_ne_nil host.ne_nil
  have noMarker := host.not_mem_markers (by simp : octet ∈ octet :: rest)
  have noStar : octet ≠ 0x2A := fun same => noMarker (by rw [same]; decide)
  have noBar : octet ≠ 0x7C := fun same => noMarker (by rw [same]; decide)
  rw [filterName, List.cons_append, List.cons_append, trimStartPairs_of_ne noStar,
    trimStartPairs_of_ne noBar, ← List.cons_append, ← List.cons_append]
  exact strip_hostName host carets ends

theorem isSpaceFree_of_hostName : ∀ octet ∈ domain, IsSpaceFree octet :=
  fun octet octetMem => (isHostOctet_table (host.octets octet octetMem)).1.1

theorem isSpaceFree_between {front back : Text}
    (marks : ((front ++ back).all fun octet => decide (IsSpaceFree octet)) = true) :
    ∀ octet ∈ front ++ domain ++ back, IsSpaceFree octet := by
  intro octet octetMem
  have spaceFree := List.all_iff_forall_prop.mp marks octet
  simp only [List.mem_append] at octetMem spaceFree
  rcases octetMem with (inFront | inDomain) | inBack
  · exact spaceFree (.inl inFront)
  · exact isSpaceFree_of_hostName host octet inDomain
  · exact spaceFree (.inr inBack)

/-- A host name is left as it is. -/
theorem filterName_self : filterName domain = domain := by
  have same := filterName_hostName host 0 (by simp : ∀ octet ∈ ([] : Text).head?, octet = 0x24)
  rwa [List.replicate_zero, List.append_nil, List.append_nil] at same

theorem not_blank_of_hostName : ¬ (0x20 ∈ domain ∨ 0x09 ∈ domain) := by
  rintro (blank | tab)
  · exact host.not_mem_markers blank (by decide)
  · exact host.not_mem_markers tab (by decide)

theorem trim_barred (behind : Text) :
    (text "||" ++ domain ++ text "^" ++ text "$" ++ behind).trim =
      text "||" ++ domain ++ text "^" ++ text "$" ++ behind.trimEnd := by
  apply Text.trim_append
  · exact List.append_ne_nil_of_right_ne_nil _ (by decide)
  · rw [List.append_assoc _ (text "^") (text "$")]
    exact isSpaceFree_between host (by decide)

include lowers

theorem mem_lineDomains_of_mem
    (notLocal : normalize toLowercase domain ≠ text "localhost.localdomain") {line : Text}
    (nameMem : domain ∈ listedNames Text.trim Text.splitWhitespace line) :
    normalize toLowercase domain ∈ lineDomains toLowercase line :=
  List.mem_filterMap.mpr ⟨domain, nameMem, validDomain_hostName lowers host notLocal⟩

theorem plain_mem_iff
    (notLocal : normalize toLowercase domain ≠ text "localhost.localdomain") :
    normalize toLowercase domain ∈ lineDomains toLowercase domain ↔
      ¬ text "0.0.0.0" <+: domain ∧ ¬ text "127.0.0.1" <+: domain := by
  have spaceFree := isSpaceFree_of_hostName host
  obtain ⟨octet, rest, split⟩ := List.exists_cons_of_ne_nil host.ne_nil
  have trimmed : domain.trim = octet :: rest := by rw [Text.trim_of_plain spaceFree, split]
  have noMarker := host.not_mem_markers (by simp [split] : octet ∈ domain)
  have noComment : octet ≠ 0x23 ∧ octet ≠ 0x21 := by
    constructor
    · exact fun same => noMarker (by rw [same]; decide)
    · exact fun same => noMarker (by rw [same]; decide)
  have noColons : ¬ text "::" <+: domain := by
    intro colons
    have colon : (0x3A : UInt8) ∈ domain := colons.subset (by decide)
    exact (isHostOctet_table (host.octets _ colon)).1.2.2.2 rfl
  by_cases hosts : IsHostsLine domain
  · refine iff_of_false ?_ fun recognized => ?_
    · have noHash : ∀ other ∈ domain, (other != 0x23) = true := by
        intro other otherMem
        rw [bne_iff_ne]
        exact fun same => host.not_mem_markers otherMem (by rw [same]; decide)
      have word : Text.splitWhitespace domain = [domain] := by
        have words := Text.splitWhitespace_append host.ne_nil spaceFree
          (by simp [Text.pieces, Text.cut] : ∀ piece ∈ (Text.pieces []).head?, isSpace piece = true)
        rwa [List.append_nil] at words
      rw [lineDomains, listedNames_of_hosts trimmed noComment (split ▸ hosts), ← split,
        List.takeWhile_eq_self_iff.mpr noHash, word]
      simp
    · rcases hosts with zeros | loopback | colons
      · exact recognized.1 zeros
      · exact recognized.2 loopback
      · exact noColons colons
  · refine iff_of_true ?_ ⟨fun zeros => hosts (.inl zeros), fun loopback => hosts (.inr (.inl loopback))⟩
    apply mem_lineDomains_of_mem lowers host notLocal
    rw [listedNames_of_filter trimmed noComment (split ▸ hosts)
      (split ▸ not_blank_of_hostName host), ← split, List.mem_singleton]
    exact (filterName_self host).symm

/-- The lines of filters, which begin with a star or a bar. -/
theorem filter_mem_iff {octet : UInt8} {rest : Text}
    (notLocal : normalize toLowercase domain ≠ text "localhost.localdomain")
    (marker : octet = 0x2A ∨ octet = 0x7C) {line : Text} (trimmed : line.trim = octet :: rest)
    (named : filterName (octet :: rest) = domain) :
    normalize toLowercase domain ∈ lineDomains toLowercase line ↔
      ¬ (0x20 ∈ octet :: rest ∨ 0x09 ∈ octet :: rest) := by
  have noComment : octet ≠ 0x23 ∧ octet ≠ 0x21 := by
    rcases marker with rfl | rfl <;> decide
  have noHosts : ¬ IsHostsLine (octet :: rest) := by
    apply not_isHostsLine
    rcases marker with rfl | rfl <;> decide
  by_cases blank : 0x20 ∈ octet :: rest ∨ 0x09 ∈ octet :: rest
  · refine iff_of_false ?_ (not_not.mpr blank)
    rw [lineDomains, listedNames_of_blank trimmed noComment noHosts blank]
    simp
  · refine iff_of_true ?_ blank
    apply mem_lineDomains_of_mem lowers host notLocal
    rw [listedNames_of_filter trimmed noComment noHosts blank, named, List.mem_singleton]

theorem wildcard_mem
    (notLocal : normalize toLowercase domain ≠ text "localhost.localdomain") :
    normalize toLowercase domain ∈ lineDomains toLowercase (text "*." ++ domain) := by
  have marks : text "*." = [0x2A, dot] := by decide
  have spaceFree := isSpaceFree_between host (by decide : ((text "*." ++ []).all fun octet =>
    decide (IsSpaceFree octet)) = true)
  rw [List.append_nil] at spaceFree
  have named : filterName (0x2A :: dot :: domain) = domain := by
    rw [filterName, trimStartPairs_pair]
    exact filterName_self host
  have trimmed : (text "*." ++ domain).trim = 0x2A :: dot :: domain := by
    rw [Text.trim_of_plain spaceFree, marks]
    rfl
  rw [filter_mem_iff lowers host notLocal (.inl rfl) trimmed named]
  rintro (blank | tab)
  · simp only [List.mem_cons] at blank
    rcases blank with impossible | impossible | inDomain
    · exact absurd impossible (by decide)
    · exact absurd impossible (by decide)
    · exact not_blank_of_hostName host (.inl inDomain)
  · simp only [List.mem_cons] at tab
    rcases tab with impossible | impossible | inDomain
    · exact absurd impossible (by decide)
    · exact absurd impossible (by decide)
    · exact not_blank_of_hostName host (.inr inDomain)

/-- A filter with bars and a caret, and with what is behind the caret. -/
theorem barred_mem_iff
    (notLocal : normalize toLowercase domain ≠ text "localhost.localdomain") {behind : Text}
    (ends : ∀ octet ∈ behind.head?, octet = 0x24) {line : Text}
    (trimmed : line.trim = text "||" ++ domain ++ text "^" ++ behind) :
    normalize toLowercase domain ∈ lineDomains toLowercase line ↔
      0x20 ∉ behind ∧ 0x09 ∉ behind := by
  have bars : text "||" = [0x7C, 0x7C] := by decide
  have caret : text "^" = List.replicate 1 0x5E := by decide
  have shape : text "||" ++ domain ++ text "^" ++ behind =
      0x7C :: 0x7C :: (domain ++ List.replicate 1 0x5E ++ behind) := by
    rw [bars, caret]
    simp only [List.cons_append, List.nil_append]
  have named : filterName (0x7C :: 0x7C :: (domain ++ List.replicate 1 0x5E ++ behind)) =
      domain := by
    have same := filterName_hostName host 1 ends
    obtain ⟨octet, rest, rfl⟩ := List.exists_cons_of_ne_nil host.ne_nil
    have noMarker := host.not_mem_markers (by simp : octet ∈ octet :: rest)
    have noStar : octet ≠ 0x2A := fun same => noMarker (by rw [same]; decide)
    rw [List.cons_append, List.cons_append] at same ⊢
    rw [filterName, trimStartPairs_of_ne noStar] at same
    rw [filterName, trimStartPairs_of_ne (by decide), trimStartPairs_pair]
    exact same
  rw [filter_mem_iff lowers host notLocal (.inr rfl) (trimmed.trans shape) named, ← not_or, not_iff_not]
  have others : ∀ octet, octet ≠ 0x7C → octet ≠ 0x5E → octet ∉ domain →
      (octet ∈ 0x7C :: 0x7C :: (domain ++ List.replicate 1 0x5E ++ behind) ↔ octet ∈ behind) := by
    intro octet noBar noCaret notInside
    simp [noBar, noCaret, notInside]
  have noBlank := not_or.mp (not_blank_of_hostName host)
  rw [others 0x20 (by decide) (by decide) noBlank.1, others 0x09 (by decide) (by decide) noBlank.2]

theorem withOptions_mem_iff
    (notLocal : normalize toLowercase domain ≠ text "localhost.localdomain") (options : Text) :
    normalize toLowercase domain ∈
        lineDomains toLowercase (text "||" ++ domain ++ text "^$" ++ options) ↔
      0x20 ∉ options.trimEnd ∧ 0x09 ∉ options.trimEnd := by
  have dollar : text "$" = [0x24] := by decide
  have joined : text "^$" = text "^" ++ text "$" := by decide
  have trimmed := trim_barred host options
  rw [List.append_assoc _ (text "$") options.trimEnd] at trimmed
  rw [joined, ← List.append_assoc, barred_mem_iff lowers host notLocal _ trimmed]
  · simp [dollar]
  · rw [dollar]
    intro octet octetMem
    cases octetMem
    rfl

theorem anchored_mem
    (notLocal : normalize toLowercase domain ≠ text "localhost.localdomain") :
    normalize toLowercase domain ∈
      lineDomains toLowercase (text "||" ++ domain ++ text "^") := by
  have spaceFree : ∀ octet ∈ text "||" ++ domain ++ text "^", IsSpaceFree octet :=
    isSpaceFree_between host (by decide)
  have trimmed : (text "||" ++ domain ++ text "^").trim = text "||" ++ domain ++ text "^" ++ [] := by
    rw [Text.trim_of_plain spaceFree, List.append_nil]
  rw [barred_mem_iff lowers host notLocal (by simp) trimmed]
  simp

/-- The star behind the bars stays in the name. -/
theorem anchoredWildcard_not_mem :
    normalize toLowercase domain ∉
      lineDomains toLowercase (text "||*." ++ domain ++ text "^") := by
  have spaceFree : ∀ octet ∈ text "||*." ++ domain ++ text "^", IsSpaceFree octet :=
    isSpaceFree_between host (by decide)
  have shape : text "||*." ++ domain ++ text "^" =
      0x7C :: 0x7C :: 0x2A :: dot :: (domain ++ List.replicate 1 0x5E ++ []) := by
    have bars : text "||*." = [0x7C, 0x7C, 0x2A, dot] := by decide
    have caret : text "^" = List.replicate 1 0x5E := by decide
    rw [bars, caret, List.append_nil]
    simp only [List.cons_append, List.nil_append]
  have trimmed := Text.trim_of_plain spaceFree
  rw [shape] at trimmed
  have named : filterName
      (0x7C :: 0x7C :: 0x2A :: dot :: (domain ++ List.replicate 1 0x5E ++ [])) =
        0x2A :: dot :: domain := by
    rw [filterName, trimStartPairs_of_ne (by decide), trimStartPairs_pair,
      trimStartPairs_of_ne (by decide), List.takeWhile_cons_of_pos (by decide),
      List.takeWhile_cons_of_pos (by decide)]
    have noDollar : ∀ octet ∈ domain ++ List.replicate 1 0x5E, (octet != 0x24) = true := by
      intro octet octetMem
      rw [bne_iff_ne]
      rintro rfl
      rcases List.mem_append.mp octetMem with inDomain | isCaret
      · exact host.not_mem_markers inDomain (by decide)
      · exact absurd (List.eq_of_mem_replicate isCaret) (by decide)
    rw [List.append_nil, List.takeWhile_eq_self_iff.mpr noDollar]
    have concat : (0x2A : UInt8) :: dot :: (domain ++ List.replicate 1 0x5E) =
        (0x2A :: dot :: domain) ++ [0x5E] := by simp
    rw [concat, List.rdropWhile_concat_pos _ _ _ (by simp), List.rdropWhile_eq_self_iff]
    intro _
    rw [List.getLast_cons (by simp), List.getLast_cons host.ne_nil, beq_iff_eq]
    exact fun caret =>
      host.not_mem_markers (List.getLast_mem host.ne_nil) (by rw [caret]; decide)
  have noHosts : ¬ IsHostsLine
      (0x7C :: 0x7C :: 0x2A :: dot :: (domain ++ List.replicate 1 0x5E ++ [])) :=
    not_isHostsLine (by decide)
  intro listed
  obtain ⟨name, nameMem, valid⟩ := List.mem_filterMap.mp listed
  rw [shape] at nameMem
  by_cases blank : 0x20 ∈
      0x7C :: 0x7C :: 0x2A :: dot :: (domain ++ List.replicate 1 0x5E ++ []) ∨
    0x09 ∈ 0x7C :: 0x7C :: 0x2A :: dot :: (domain ++ List.replicate 1 0x5E ++ [])
  · rw [listedNames_of_blank trimmed (by decide) noHosts blank] at nameMem
    cases nameMem
  · rw [listedNames_of_filter trimmed (by decide) noHosts blank, named,
      List.mem_singleton] at nameMem
    subst nameMem
    have begins := lowers.front [0x2A] (dot :: domain) (by simp)
    exact validDomain_ne lowers host (begins.subset (by decide)) (by decide)
      (fun other isHost => (isHostOctet_table isHost).2.1) valid

/-! ### Lines of hosts files -/

omit lowers host in
theorem prefix_append_iff {first name rest : Text} (begins : ∀ octet ∈ rest.head?, octet ∉ first) :
    first <+: name ++ rest ↔ first <+: name := by
  constructor
  · intro ahead
    rcases List.prefix_or_prefix_of_prefix ahead (List.prefix_append name rest) with
      inside | ⟨behind, rfl⟩
    · exact inside
    · cases behind with
      | nil =>
          rw [List.append_nil]
      | cons octet behind =>
          rw [List.prefix_append_right_inj] at ahead
          obtain ⟨later, rfl⟩ := ahead
          exact absurd (by simp) (begins octet rfl)
  · exact fun inside => inside.trans (List.prefix_append _ _)

omit lowers host in
/-- What is left behind an address begins with white space. -/
theorem head_of_space {rest front : Text} (space : (spaceAhead rest).isSome = true)
    (begins : front.pieces <+: rest.pieces) :
    (∀ piece ∈ front.pieces.head?, isSpace piece = true) ∧
      ∀ octet ∈ front.head?, octet ∉ text "0.0.0.0" ∧ octet ∉ text "127.0.0.1" ∧
        octet ∉ text "::" := by
  obtain ⟨first, isFirst⟩ := Option.isSome_iff_exists.mp space
  have firstMem := List.mem_of_find?_eq_some isFirst
  have head : ∀ piece ∈ front.pieces.head?, piece = first := by
    intro piece isHead
    have nonempty : rest ≠ [] := by
      rintro rfl
      exact absurd space (by decide)
    obtain ⟨octet, behind, rfl⟩ := List.exists_cons_of_ne_nil nonempty
    obtain ⟨pieces, frontSplit⟩ : ∃ pieces, front.pieces = piece :: pieces :=
      List.head?_eq_some_iff.mp isHead
    rw [frontSplit, Text.pieces, List.length_cons, Text.cut, isFirst] at begins
    exact (List.cons_prefix_cons.mp begins).1
  refine ⟨fun piece isHead => ?_, fun octet isHead => ?_⟩
  · rw [head piece isHead, isSpace, List.contains_iff_mem]
    exact firstMem
  · have table : ∀ space ∈ whiteSpaces, (space.head?.all fun octet =>
        decide (octet ∉ text "0.0.0.0" ∧ octet ∉ text "127.0.0.1" ∧ octet ∉ text "::")) = true := by
      decide
    cases split : front.pieces with
    | nil =>
        rw [← flatten_pieces front, split] at isHead
        cases isHead
    | cons piece pieces =>
        have same := head piece (by rw [split]; rfl)
        subst same
        refine of_decide_eq_true ((Option.all_eq_true _ _).mp (table piece firstMem) octet ?_)
        rw [← flatten_pieces front, split, List.flatten_cons] at isHead
        obtain ⟨other, others, rfl⟩ :=
          List.exists_cons_of_ne_nil (ne_nil_of_mem_whiteSpaces firstMem)
        exact isHead

section Hosts

variable {address rest : Text} (isAddress : IsHostsAddress address)
  (space : (spaceAhead rest).isSome = true)

omit lowers host in
include space in
theorem isHostsLine_iff :
    IsHostsLine (address ++ rest.trimEnd) ↔
      text "0.0.0.0" <+: address ∨ text "127.0.0.1" <+: address ∨ text "::" <+: address := by
  have begins : rest.trimEnd.pieces <+: rest.pieces := by
    rw [Text.pieces_trimEnd]
    exact List.rdropWhile_prefix _ _
  have notInside := (head_of_space space begins).2
  rw [IsHostsLine, prefix_append_iff fun octet isHead => (notInside octet isHead).1,
    prefix_append_iff fun octet isHead => (notInside octet isHead).2.1,
    prefix_append_iff fun octet isHead => (notInside octet isHead).2.2]

include isAddress

omit lowers host in
theorem isSpaceFree_of_address : ∀ octet ∈ address, IsSpaceFree octet :=
  fun _ octetMem => (isAddressOctet_table (isAddress.isAddressOctet octetMem)).1

omit lowers host in
theorem not_mem_markers_of_address {octet : UInt8} (octetMem : octet ∈ address) :
    octet ∉ markers :=
  (isAddressOctet_table (isAddress.isAddressOctet octetMem)).2.2

omit lowers host in
/-- The first octet of an address begins no comment and no filter. -/
theorem head_of_address {octet : UInt8} {behind : Text} (split : address = octet :: behind) :
    (octet ≠ 0x23 ∧ octet ≠ 0x21) ∧ octet ≠ 0x2A ∧ octet ≠ 0x7C := by
  have noMarker := not_mem_markers_of_address isAddress (by rw [split]; simp : octet ∈ address)
  refine ⟨⟨?_, ?_⟩, ?_, ?_⟩ <;> exact fun same => noMarker (by rw [same]; decide)

omit lowers host in
include space in
/-- The words of the line behind its address, up to a comment. -/
theorem words_of_hosts :
    (Text.splitWhitespace ((address ++ rest.trimEnd).takeWhile (· != 0x23))).drop 1 =
      Text.splitWhitespace (rest.takeWhile (· != 0x23)) := by
  have noHash : ∀ octet ∈ address, (octet != 0x23) = true := by
    intro octet octetMem
    rw [bne_iff_ne]
    exact fun same => not_mem_markers_of_address isAddress octetMem (by rw [same]; decide)
  have hashPlain : IsSpaceFree 0x23 := by decide
  have begins : Text.pieces (rest.trimEnd.takeWhile (· != 0x23)) <+: rest.pieces := by
    rw [Text.pieces_takeWhile hashPlain, Text.pieces_trimEnd]
    exact (List.takeWhile_prefix _).trans (List.rdropWhile_prefix _ _)
  rw [List.takeWhile_append_of_pos noHash,
    Text.splitWhitespace_append isAddress.ne_nil (isSpaceFree_of_address isAddress)
      (head_of_space space begins).1,
    Text.splitWhitespace_takeWhile_trimEnd hashPlain]
  rfl

include space in
theorem hosts_mem_iff
    (notLocal : normalize toLowercase domain ≠ text "localhost.localdomain")
    (isAlias : domain ∈ Text.splitWhitespace (rest.takeWhile (· != 0x23))) :
    normalize toLowercase domain ∈ lineDomains toLowercase (address ++ rest) ↔
      text "0.0.0.0" <+: address ∨ text "127.0.0.1" <+: address ∨ text "::" <+: address := by
  have spaceFree := isSpaceFree_of_address isAddress
  obtain ⟨octet, behind, split⟩ := List.exists_cons_of_ne_nil isAddress.ne_nil
  obtain ⟨noComment, noStar, noBar⟩ := head_of_address isAddress split
  have trimmed : (address ++ rest).trim = octet :: (behind ++ rest.trimEnd) := by
    rw [Text.trim_append isAddress.ne_nil spaceFree, split, List.cons_append]
  have whole : octet :: (behind ++ rest.trimEnd) = address ++ rest.trimEnd := by
    rw [split, List.cons_append]
  rw [← isHostsLine_iff space]
  by_cases hosts : IsHostsLine (address ++ rest.trimEnd)
  · refine iff_of_true ?_ hosts
    apply mem_lineDomains_of_mem lowers host notLocal
    rw [listedNames_of_hosts trimmed noComment (whole ▸ hosts), whole,
      words_of_hosts isAddress space]
    exact isAlias
  · refine iff_of_false (fun listed => ?_) hosts
    obtain ⟨name, nameMem, valid⟩ := List.mem_filterMap.mp listed
    by_cases blank : 0x20 ∈ octet :: (behind ++ rest.trimEnd) ∨
        0x09 ∈ octet :: (behind ++ rest.trimEnd)
    · rw [listedNames_of_blank trimmed noComment (whole ▸ hosts) blank] at nameMem
      cases nameMem
    · -- Behind white space of another kind, the whole line is taken for a name.
      rw [listedNames_of_filter trimmed noComment (whole ▸ hosts) blank,
        List.mem_singleton] at nameMem
      subst nameMem
      have colon : 0x3A ∈ address := by
        rcases isAddress with rfl | rfl | ⟨colon, -⟩
        · exact absurd (.inl (List.prefix_append _ _)) hosts
        · exact absurd (.inr (.inl (List.prefix_append _ _))) hosts
        · exact colon
      have noMarker : ∀ other ∈ address, other ≠ 0x24 ∧ other ≠ 0x5E := by
        intro other otherMem
        have := not_mem_markers_of_address isAddress otherMem
        constructor <;> exact fun same => this (by rw [same]; decide)
      obtain ⟨others, last, lastSplit⟩ :=
        (List.eq_nil_or_concat' address).resolve_left isAddress.ne_nil
      have kept : ∃ later, filterName (octet :: (behind ++ rest.trimEnd)) = address ++ later := by
        rw [filterName, trimStartPairs_of_ne noStar, trimStartPairs_of_ne noBar, whole,
          List.takeWhile_append_of_pos fun other otherMem => by simpa using (noMarker other otherMem).1,
          lastSplit, Text.rdropWhile_append_of_last]
        · exact ⟨_, rfl⟩
        · simpa using (noMarker last (by rw [lastSplit]; simp)).2
      obtain ⟨later, isLater⟩ := kept
      have begins := lowers.front address later fun other otherMem =>
        (isAddressOctet_table (isAddress.isAddressOctet otherMem)).2.1
      rw [isLater] at valid
      exact validDomain_ne lowers host
        (begins.subset (List.mem_map.mpr ⟨0x3A, colon, by decide⟩)) (by decide)
        (fun other isHost => (isHostOctet_table isHost).2.2) valid

end Hosts

end Forms

namespace LineForm

variable {domain : Text}

theorem line_ne_nil (host : IsHostName domain) {form : LineForm} (lists : form.Lists domain) :
    form.line domain ≠ [] := by
  cases form with
  | plain => exact host.ne_nil
  | hosts address rest => exact List.append_ne_nil_of_left_ne_nil lists.1.ne_nil _
  | _ => simp [line, host.ne_nil]

theorem noBreak_line (host : IsHostName domain) {form : LineForm} (lists : form.Lists domain) :
    0x0A ∉ form.line domain := by
  have inDomain : 0x0A ∉ domain := fun isBreak => host.not_mem_markers isBreak (by decide)
  have bars : ∀ mark ∈ [text "*.", text "||", text "^", text "||*.", text "^$"], 0x0A ∉ mark := by
    decide
  cases form with
  | plain => exact inDomain
  | withOptions options =>
      simp only [line, List.mem_append, not_or]
      exact ⟨⟨⟨bars _ (by simp), inDomain⟩, bars _ (by simp)⟩, lists⟩
  | hosts address rest =>
      simp only [line, List.mem_append, not_or]
      exact ⟨fun isBreak => not_mem_markers_of_address lists.1 isBreak (by decide), lists.2.1⟩
  | _ =>
      simp only [line, List.mem_append, not_or]
      simp [inDomain, bars]

variable {toLowercase : Text → Text}

/-- The lines that a domain is taken from. -/
theorem mem_lineDomains_iff (lowers : LowersTexts toLowercase) (host : IsHostName domain)
    (notLocal : normalize toLowercase domain ≠ text "localhost.localdomain") {form : LineForm}
    (lists : form.Lists domain) :
    normalize toLowercase domain ∈ lineDomains toLowercase (form.line domain) ↔
      form.IsRecognized domain := by
  cases form with
  | plain => exact plain_mem_iff lowers host notLocal
  | wildcard => exact iff_of_true (wildcard_mem lowers host notLocal) trivial
  | anchored => exact iff_of_true (anchored_mem lowers host notLocal) trivial
  | anchoredWildcard => exact iff_of_false (anchoredWildcard_not_mem lowers host) not_false
  | withOptions options => exact withOptions_mem_iff lowers host notLocal options
  | hosts address rest =>
      obtain ⟨isAddress, -, space, isAlias⟩ := lists
      exact hosts_mem_iff lowers host isAddress space notLocal isAlias

end LineForm

/-- What a blocklist lists is normalized and has a dot. -/
theorem normalized_of_mem_parseBlocklist {toLowercase : Text → Text}
    (lowers : LowersTexts toLowercase) {content domain : Text}
    (listed : domain ∈ parseBlocklist toLowercase Text.trim Text.splitWhitespace content) :
    toLowercase domain = domain ∧ domain ≠ [] ∧ dot ∈ domain ∧ domain.getLast? ≠ some dot := by
  obtain ⟨line, -, inLine⟩ := mem_parseBlocklist_iff.mp listed
  obtain ⟨name, -, valid⟩ := List.mem_filterMap.mp inLine
  unfold validDomain at valid
  dsimp only at valid
  split at valid
  · rename_i kept
    obtain rfl := Option.some.inj valid
    refine ⟨lowers.lowered name, kept.1, kept.2.1, fun endsInDot => ?_⟩
    obtain ⟨front, split⟩ := List.getLast?_eq_some_iff.mp endsInDot
    have trimmed := trimEndDots_trimEndDots (toLowercase name)
    change (normalize toLowercase name).trimEndDots = normalize toLowercase name at trimmed
    rw [split, Text.trimEndDots, List.rdropWhile_concat_pos _ _ _ (by simp)] at trimmed
    have longer := congrArg List.length trimmed
    have shorter : (front.rdropWhile (· == dot)).length ≤ front.length :=
      (List.rdropWhile_prefix _ _).length_le
    rw [List.length_append, List.length_singleton] at longer
    omega
  · cases valid

/-- A line of each form puts its domain into every list that it is in iff it is
recognized: a plain domain does not begin like an address, a filter has no star
behind its bars and no blank in its options, and a line of a hosts file begins
with `0.0.0.0`, `127.0.0.1` or `::`. -/
theorem parseBlocklist_lists_iff {toLowercase : Text → Text} (lowers : LowersTexts toLowercase) :
    (∀ domain form, IsHostName domain →
      normalize toLowercase domain ≠ text "localhost.localdomain" → LineForm.Lists domain form →
      ((∀ content : Text, form.line domain ∈ content.lines →
        normalize toLowercase domain ∈
          parseBlocklist toLowercase Text.trim Text.splitWhitespace content) ↔
        form.IsRecognized domain)) ∧
    ∀ content, ∀ domain ∈ parseBlocklist toLowercase Text.trim Text.splitWhitespace content,
      toLowercase domain = domain ∧ domain ≠ [] ∧ dot ∈ domain ∧ domain.getLast? ≠ some dot := by
  constructor
  · intro domain form host notLocal lists
    rw [forall_content_iff (form.line_ne_nil host lists) (form.noBreak_line host lists)]
    exact LineForm.mem_lineDomains_iff lowers host notLocal lists
  · exact fun content domain => normalized_of_mem_parseBlocklist lowers

/-! ## Lines that are missed -/

theorem lowersTexts_ascii : LowersTexts Text.toLowercase where
  toIsLowercasing := StoredList.isLowercasing_ascii
  ascii _ _ := rfl
  front := by
    intro front rest _
    rw [Text.toLowercase, Text.toLowercase, List.map_append]
    exact List.prefix_append _ _

theorem isHostName_of_all {domain : Text} (octets : domain.all isHostOctet = true)
    (dotted : dot ∈ domain.trimEndDots) : IsHostName domain :=
  ⟨List.all_eq_true.mp octets, dotted⟩

/-- A filter with a star behind its bars lists its domain in no text, and one
without it does in each. -/
theorem parseBlocklist_lists_iff_filters :
    ¬ (∀ content : Text, LineForm.anchoredWildcard.line (text "ads.example") ∈ content.lines →
        normalize Text.toLowercase (text "ads.example") ∈
          parseBlocklist Text.toLowercase Text.trim Text.splitWhitespace content) ∧
      ∀ content : Text, LineForm.anchored.line (text "ads.example") ∈ content.lines →
        normalize Text.toLowercase (text "ads.example") ∈
          parseBlocklist Text.toLowercase Text.trim Text.splitWhitespace content := by
  have host : IsHostName (text "ads.example") := isHostName_of_all (by decide) (by decide +kernel)
  have lists := (parseBlocklist_lists_iff lowersTexts_ascii).1 (text "ads.example")
  exact ⟨(lists .anchoredWildcard host (by decide +kernel) trivial).not.mpr not_false,
    (lists .anchored host (by decide +kernel) trivial).mpr trivial⟩

/-- Not every line that lists a domain puts it into the list. -/
theorem not_all_listed :
    ¬ ∀ domain form, ∀ content : Text, IsHostName domain →
      normalize Text.toLowercase domain ≠ text "localhost.localdomain" →
      LineForm.Lists domain form → form.line domain ∈ content.lines →
      normalize Text.toLowercase domain ∈
        parseBlocklist Text.toLowercase Text.trim Text.splitWhitespace content := by
  intro claimed
  have listed := claimed (text "127.0.0.1.nip.io") .plain (text "127.0.0.1.nip.io")
    (isHostName_of_all (by decide) (by decide +kernel)) (by decide +kernel) trivial
    (by decide +kernel)
  exact absurd listed (by decide +kernel)

end Numa
