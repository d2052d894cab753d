import Numa.DomainList

/-!
# Refreshing the blocklist

`parse_blocklist` and `download_blocklists` of `blocklist.rs` and
`load_blocklists` of `serve.rs`.  A source that cannot be read or downloaded is
skipped, and the domains of the store are replaced by those of the others.
-/

namespace Numa

section Parse

/-! `str::trim` and `str::split_whitespace` follow the Unicode tables, as
`str::to_lowercase` does. -/

variable (toLowercase trim : Text → Text) (splitWhitespace : Text → List Text)

/-- `trim_start_matches`, of two octets. -/
def trimStartPairs (first second : UInt8) : Text → Text
  | a :: b :: rest => if a = first ∧ b = second then trimStartPairs first second rest else a :: b :: rest
  | name => name

/-- What `insert_if_valid` inserts. -/
def validDomain (raw : Text) : Option Text :=
  let domain := normalize toLowercase raw
  if domain ≠ [] ∧ dot ∈ domain ∧ domain ≠ text "localhost" ∧
      domain ≠ text "localhost.localdomain" then some domain
  else none

/-- The names that a line of a blocklist lists. -/
def listedNames (line : Text) : List Text :=
  let line := trim line
  if line = [] ∨ line.head? = some 0x23 ∨ line.head? = some 0x21 then []
  else if text "0.0.0.0" <+: line ∨ text "127.0.0.1" <+: line ∨ text "::" <+: line then
    -- A line of a hosts file: an address, its names and a comment.
    (splitWhitespace (line.takeWhile (· != 0x23))).drop 1
  else if 0x20 ∈ line ∨ 0x09 ∈ line then []
  else
    let name := trimStartPairs 0x7C 0x7C (trimStartPairs 0x2A dot line)
    [(name.takeWhile (· != 0x24)).rdropWhile (· == 0x5E)]

/-- `parse_blocklist`.  Of the carriage returns that `lines` takes off, `trim`
leaves nothing either. -/
def parseBlocklist (content : Text) : Finset Text :=
  (((content.splitOn 0x0A).flatMap (listedNames trim splitWhitespace)).filterMap
    (validDomain toLowercase)).toFinset

end Parse

/-! ## Downloads -/

/-- `RETRY_DELAYS_SECS`. -/
def retryDelaysSecs : List Nat := [2, 10, 30]

/-- Is the source the path of a local file? -/
def isLocalPath (source : Text) : Bool :=
  (text "file://").isPrefixOf source || source.head? == some 0x2F

/-- A source, with what comes of reading or fetching it. -/
structure Fetch where
  source : Text
  /-- `tokio::fs::read_to_string`. -/
  readToString : Option Text
  /-- `fetch_once`, for each attempt. -/
  fetchOnce : Nat → Option Text

/-- `fetch_with_retry_delays`: the first attempt that succeeds. -/
def fetchWithRetryDelays (fetchOnce : Nat → Option Text) (delays : List Nat) : Option Text :=
  (List.range (delays.length + 1)).findSome? fun index => fetchOnce (index + 1)

/-- The text of a source, unless it is skipped. -/
def Fetch.download (fetch : Fetch) : Option Text :=
  if isLocalPath fetch.source then fetch.readToString
  else fetchWithRetryDelays fetch.fetchOnce retryDelaysSecs

def downloadBlocklists (fetches : List Fetch) : List (Text × Text) :=
  fetches.filterMap fun fetch => fetch.download.map fun content => (fetch.source, content)

section Load

variable (toLowercase trim : Text → Text) (splitWhitespace : Text → List Text)

/-- `load_blocklists`. -/
def loadBlocklists (store : BlocklistStore) (now : Nat) (fetches : List Fetch) : BlocklistStore :=
  let downloaded := downloadBlocklists fetches
  let allDomains := downloaded.foldl
    (fun all (_, content) => all ∪ parseBlocklist toLowercase trim splitWhitespace content) ∅
  store.swapDomains now allDomains (downloaded.map Prod.fst)

variable {toLowercase trim splitWhitespace}

/-- A source that was downloaded in this refresh lists the domain. -/
def Refreshed (toLowercase trim : Text → Text) (splitWhitespace : Text → List Text)
    (fetches : List Fetch) (domain : Text) : Prop :=
  ∃ fetch ∈ fetches, ∃ content, fetch.download = some content ∧
    domain ∈ parseBlocklist toLowercase trim splitWhitespace content

theorem mem_foldl_union {α β : Type} [DecidableEq β] (parse : α → Finset β) (items : List α)
    (start : Finset β) (value : β) :
    value ∈ items.foldl (fun all item => all ∪ parse item) start ↔
      value ∈ start ∨ ∃ item ∈ items, value ∈ parse item := by
  induction items generalizing start with
  | nil => simp
  | cons item items ih => simp only [List.foldl_cons, ih, Finset.mem_union, List.mem_cons,
      exists_eq_or_imp, or_assoc]

theorem mem_downloadBlocklists {fetches : List Fetch} {source content : Text} :
    (source, content) ∈ downloadBlocklists fetches ↔
      ∃ fetch ∈ fetches, fetch.source = source ∧ fetch.download = some content := by
  simp only [downloadBlocklists, List.mem_filterMap, Option.map_eq_some_iff, Prod.mk.injEq]
  constructor
  · rintro ⟨fetch, fetchMem, _, found, sameSource, rfl⟩
    exact ⟨fetch, fetchMem, sameSource, found⟩
  · rintro ⟨fetch, fetchMem, sameSource, found⟩
    exact ⟨fetch, fetchMem, content, found, sameSource, rfl⟩

theorem mem_domains_loadBlocklists (store : BlocklistStore) (now : Nat) (fetches : List Fetch)
    (domain : Text) :
    domain ∈ (loadBlocklists toLowercase trim splitWhitespace store now fetches).domains ↔
      Refreshed toLowercase trim splitWhitespace fetches domain := by
  rw [loadBlocklists, BlocklistStore.swapDomains]
  dsimp only
  rw [mem_foldl_union (fun item : Text × Text =>
    parseBlocklist toLowercase trim splitWhitespace item.2)]
  constructor
  · rintro (impossible | ⟨⟨source, content⟩, downloaded, listed⟩)
    · cases impossible
    · obtain ⟨fetch, fetchMem, -, found⟩ := mem_downloadBlocklists.mp downloaded
      exact ⟨fetch, fetchMem, content, found, listed⟩
  · rintro ⟨fetch, fetchMem, content, found, listed⟩
    exact .inr ⟨_, mem_downloadBlocklists.mpr ⟨fetch, fetchMem, rfl, found⟩, listed⟩

theorem isBlocked_iff (store : BlocklistStore) (time : Nat) (domain : Text) :
    store.isBlocked toLowercase time domain = true ↔
      (store.enabled = true ∧ store.isPaused time = false ∧
        store.allowlist.findNormalized (normalize toLowercase domain) = none) ∧
      (store.manual.isMatch toLowercase domain = true ∨
        ∃ entry ∈ store.domains, IsParent entry (normalize toLowercase domain)) := by
  rw [← findInSet_isSome_iff, PersistedDomainList.isMatch, BlocklistStore.isBlocked]
  cases store.enabled <;> cases store.isPaused time <;>
    cases allowed : store.allowlist.findNormalized (normalize toLowercase domain) <;>
    simp [allowed]

variable (toLowercase trim splitWhitespace) in
/-- A refresh replaces the domains by those of the texts that were downloaded
and leaves the rest of the store.  A domain that was blocked stays blocked
exactly if it is blocked by hand or one of these texts lists it or a parent. -/
theorem loadBlocklists_blocks (store : BlocklistStore) (now : Nat) (fetches : List Fetch) :
    let after := loadBlocklists toLowercase trim splitWhitespace store now fetches
    (∀ domain, domain ∈ after.domains ↔
      Refreshed toLowercase trim splitWhitespace fetches domain) ∧
    after = { store with
      domains := after.domains
      listSources := (downloadBlocklists fetches).map Prod.fst
      lastRefresh := some now } ∧
    (∀ time domain, store.isBlocked toLowercase time domain = true →
      (after.isBlocked toLowercase time domain = true ↔
        store.manual.isMatch toLowercase domain = true ∨
          ∃ entry, Refreshed toLowercase trim splitWhitespace fetches entry ∧
            IsParent entry (normalize toLowercase domain))) ∧
    ((∀ fetch ∈ fetches, fetch.download = none) → after.domains = ∅) := by
  intro after
  have domains : ∀ domain, domain ∈ after.domains ↔
      Refreshed toLowercase trim splitWhitespace fetches domain :=
    mem_domains_loadBlocklists store now fetches
  refine ⟨domains, rfl, fun time domain blocked => ?_, fun allFailed => ?_⟩
  · have switches := (isBlocked_iff store time domain).mp blocked
    rw [isBlocked_iff]
    constructor
    · rintro ⟨-, byHand | ⟨entry, entryMem, isParent⟩⟩
      · exact .inl byHand
      · exact .inr ⟨entry, (domains entry).mp entryMem, isParent⟩
    · rintro (byHand | ⟨entry, refreshed, isParent⟩)
      · exact ⟨switches.1, .inl byHand⟩
      · exact ⟨switches.1, .inr ⟨entry, (domains entry).mpr refreshed, isParent⟩⟩
  · ext domain
    rw [domains]
    constructor
    · rintro ⟨fetch, fetchMem, content, found, -⟩
      rw [allFailed fetch fetchMem] at found
      cases found
    · intro impossible
      cases impossible

/-! ## A refresh that fails -/

/-- `trim` and `split_whitespace` of a text whose only white space are blanks. -/
def trimBlanks (line : Text) : Text :=
  (line.dropWhile (· == 0x20)).rdropWhile (· == 0x20)

def splitBlanks (line : Text) : List Text :=
  (line.splitOn 0x20).filter fun word => !word.isEmpty

def adList (content : Option Text) : Fetch where
  source := text "https://lists.example/hosts.txt"
  readToString := none
  fetchOnce _ := content

/-- The store after a first refresh. -/
def adStore : BlocklistStore :=
  loadBlocklists Text.toLowercase trimBlanks splitBlanks {} 0
    [adList (some (text "0.0.0.0 ads.example.com # tracker"))]

theorem loadBlocklists_blocks_adStore :
    adStore.isBlocked Text.toLowercase 5 (text "www.Ads.example.com") = true ∧
      ∃ entry, Refreshed Text.toLowercase trimBlanks splitBlanks
        [adList (some (text "ads.example.com"))] entry ∧
        IsParent entry (normalize Text.toLowercase (text "www.Ads.example.com")) := by
  have blocked : adStore.isBlocked Text.toLowercase 5 (text "www.Ads.example.com") = true := by
    decide +kernel
  refine ⟨blocked, ?_⟩
  have blocks := loadBlocklists_blocks Text.toLowercase trimBlanks splitBlanks adStore 3
    [adList (some (text "ads.example.com"))]
  have still := (blocks.2.2.1 5 (text "www.Ads.example.com") blocked).mp (by decide +kernel)
  exact still.resolve_left (by decide +kernel)

/-- When the only list cannot be downloaded, what it blocked is no longer
blocked. -/
theorem failedRefresh_unblocks :
    (∀ fetch ∈ [adList none], fetch.download = none) ∧
      adStore.isBlocked Text.toLowercase 5 (text "ads.example.com") = true ∧
      (loadBlocklists Text.toLowercase trimBlanks splitBlanks adStore 3 [adList none]).isBlocked
        Text.toLowercase 5 (text "ads.example.com") = false ∧
      (loadBlocklists Text.toLowercase trimBlanks splitBlanks adStore 3 [adList none]).domains ≠
        adStore.domains := by
  refine ⟨?_, ?_, ?_, ?_⟩ <;> decide +kernel

end Load

end Numa
