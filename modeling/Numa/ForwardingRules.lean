import Mathlib.Data.List.Infix
import Numa.Forward
import Numa.ResolvConf
import Numa.Sections
import Numa.SuffixMatching

/-!
# Forwarding rules

The rules of the configuration, `ForwardingRuleConfig` and
`merge_forwarding_rules` of `config.rs`, and those of a macOS host, which
`discover_macos` of `system_dns.rs` reads from the output of `scutil --dns`.
The output is read in one pass, and then a name is forwarded by its first rule.
`to_lowercase` and the debug form of a list are parameters.
-/

namespace Numa

open AddressParser

/-- A `ForwardingRule` with its upstreams.  `dot_suffix` is the suffix behind a
dot. -/
structure PooledRule where
  suffix : Text
  upstream : UpstreamPool

def suffixCovers (domain suffix : Text) : Bool :=
  domain == suffix || (dot :: suffix).isSuffixOf domain

/-- `match_forwarding_rule`. -/
def matchPool (domain : Text) (rules : List PooledRule) : Option UpstreamPool :=
  (rules.find? fun rule => suffixCovers domain rule.suffix).map (·.upstream)

/-- The rules as the resolver sees them. -/
theorem isSome_matchPool (domain : Text) (rules : List PooledRule) :
    (matchPool domain rules).isSome =
      matchForwardingRule domain (rules.map fun rule => ⟨rule.suffix⟩) := by
  rw [matchPool, Option.isSome_map, matchForwardingRule, List.any_map, Bool.eq_iff_iff,
    List.find?_isSome, List.any_eq_true]
  rfl

/-! ## Rules of the configuration -/

/-- `parse_upstream_addr` with the text of its error. -/
def parseUpstreamAddrOr (addr : Text) (defaultPort : UInt16) : Except Text SocketAddr :=
  match parseUpstreamAddr addr defaultPort with
  | some parsed => .ok parsed
  | none => .error (text "invalid upstream address: " ++ addr)

/-- `parse_upstream`, where connectors can be built. -/
def parseUpstream (upstream : Text) (defaultPort : UInt16) : Except Text Upstream :=
  if (text "https://").isPrefixOf upstream then .ok (.doh upstream)
  else if (text "tls://").isPrefixOf upstream then
    let rest := upstream.drop 6
    let addrPart := rest.takeWhile (· != 0x23)
    let tlsName := if rest.contains 0x23 then some (rest.drop (addrPart.length + 1)) else none
    (parseUpstreamAddrOr addrPart 853).map fun addr => .dot addr tlsName
  else if (text "tcp://").isPrefixOf upstream then
    (parseUpstreamAddrOr (upstream.drop 6) defaultPort).map .tcp
  else (parseUpstreamAddrOr upstream defaultPort).map .udp

structure ForwardingRuleConfig where
  suffix : List Text
  upstream : List Text

section Config

variable (debug : List Text → Text)

def ForwardingRuleConfig.toRuntimeRules (config : ForwardingRuleConfig) :
    Except Text (List PooledRule) :=
  if config.upstream.isEmpty then
    .error (text "forwarding rule for suffix " ++ debug config.suffix ++
      text ": upstream must not be empty")
  else
    (config.upstream.mapM fun upstream =>
      (parseUpstream upstream 53).mapError fun error =>
        text "forwarding rule for upstream '" ++ upstream ++ text "': " ++ error).map fun primary =>
          config.suffix.map fun suffix => ⟨suffix, ⟨primary, []⟩⟩

def mergeForwardingRules (configRules : List ForwardingRuleConfig) (discovered : List PooledRule) :
    Except Text (List PooledRule) :=
  (configRules.mapM (ForwardingRuleConfig.toRuntimeRules debug)).map fun rules =>
    rules.flatten ++ discovered

end Config

/-! ## The output of scutil -/

/-- What a line is read as. -/
inductive ScutilLine
  | heading
  | domain
  | nameserver
  | supplemental
  | forScoped
  | other
  deriving DecidableEq

/-- The conditions of `handle_line` in their order. -/
def ScutilLine.of (line : Text) : ScutilLine :=
  if (text "resolver #").isPrefixOf line then .heading
  else if (text "domain").isPrefixOf line && line.contains colon then .domain
  else if (text "nameserver[0]").isPrefixOf line && line.contains colon then .nameserver
  else if (text "flags").isPrefixOf line && decide (text "Supplemental" <:+: line) then
    .supplemental
  else if (text "DNS configuration (for scoped").isPrefixOf line then .forScoped
  else .other

/-- The fields of `ScutilState` that `flush` resets. -/
structure ScutilBlock where
  currentDomain : Option Text := none
  currentNameserver : Option Text := none
  isSupplemental : Bool := false

structure ScutilState extends ScutilBlock where
  rules : List DiscoveredRule := []
  defaultUpstream : Option Text := none

/-- What stands behind the first colon, up to the next one. -/
def scutilValue (line : Text) : Option Text :=
  ((line.splitOn colon)[1]?).map Text.trim

/-- The domain that a line names, if it is one to forward. -/
def scutilDomain (toLowercase : Text → Text) (line : Text) : Option Text := do
  let value ← scutilValue line
  let domain := toLowercase value.trimEndDots
  if !domain.isEmpty && domain != text "local" && !(text "in-addr.arpa").isSuffixOf domain &&
      !(text "ip6.arpa").isSuffixOf domain then
    some domain
  else none

def scutilNameserver (line : Text) : Option Text :=
  (scutilValue line).filter fun ns => (parseIpv4 ns).isSome

def ScutilBlock.rule (block : ScutilBlock) : Option DiscoveredRule :=
  match block.currentDomain, block.currentNameserver, block.isSupplemental with
  | some domain, some ns, true => makeRule domain ns
  | _, _, _ => none

namespace ScutilState

def flush (state : ScutilState) : ScutilState :=
  { rules := state.rules ++ state.rule.toList, defaultUpstream := state.defaultUpstream }

variable (toLowercase : Text → Text)

def setDomain (state : ScutilState) (line : Text) : ScutilState :=
  match scutilDomain toLowercase line with
  | some domain => { state with currentDomain := some domain }
  | none => state

def setNameserver (state : ScutilState) (line : Text) : ScutilState :=
  match scutilNameserver line with
  | some ns =>
    { state with
      defaultUpstream :=
        if !state.isSupplemental && state.defaultUpstream.isNone && !isLoopbackOrStub ns then
          some ns
        else state.defaultUpstream
      currentNameserver := some ns }
  | none => state

/-- `handle_line`, which says when to stop. -/
def handleLine (state : ScutilState) (line : Text) : ScutilState × Bool :=
  match ScutilLine.of line with
  | .heading => (state.flush, false)
  | .domain => (state.setDomain toLowercase line, false)
  | .nameserver => (state.setNameserver line, false)
  | .supplemental => ({ state with isSupplemental := true }, false)
  | .forScoped => (state.flush, true)
  | .other => (state, false)

/-- The loop over the lines. -/
def handleLines : List Text → ScutilState → ScutilState
  | [], state => state
  | line :: lines, state =>
    match state.handleLine toLowercase (Text.trim line) with
    | (state, true) => state
    | (state, false) => handleLines lines state

end ScutilState

/-- `discover_macos`, with what `scutil --dns` prints, if it runs. -/
def discoverMacos (toLowercase : Text → Text) (output : Option Text) : SystemDnsInfo :=
  match output with
  | none => ⟨none, []⟩
  | some printed =>
    let state := (ScutilState.handleLines toLowercase printed.lines {}).flush
    ⟨state.defaultUpstream, sortByLargest (·.suffix.length) state.rules⟩

/-- A discovered rule with its only upstream. -/
def DiscoveredRule.pooled (rule : DiscoveredRule) : PooledRule :=
  ⟨rule.suffix, ⟨[.udp rule.upstream], []⟩⟩

/-! ## What a section of the output says -/

theorem readIpv4Addr_bracket (rest : Text) : readIpv4Addr (0x5B :: rest) = none :=
  rfl

theorem readSocketAddrV6_eq_none {octets : Text} {read : Ipv4Addr × Text}
    (isRead : readIpv4Addr octets = some read) : readSocketAddrV6 octets = none := by
  cases octets with
  | nil => rfl
  | cons octet rest =>
      by_cases bracket : octet = 0x5B
      · subst bracket
        rw [readIpv4Addr_bracket] at isRead
        cases isRead
      · simp [readSocketAddrV6, readGivenChar, bracket]

theorem parseUpstreamAddr_of_parseIpv4 {ns : Text} {addr : Ipv4Addr} {port : UInt16}
    (isParsed : parseIpv4 ns = some addr) : parseUpstreamAddr ns port = some (.v4 addr port) := by
  have isRead : readIpv4Addr ns = some (addr, []) := by
    unfold parseIpv4 parseWith at isParsed
    split at isParsed
    · cases isParsed
    · split at isParsed
      next read => rw [read, Option.some.inj isParsed]
      next => cases isParsed
  have noPort : readSocketAddrV4 ns = none := by
    simp [readSocketAddrV4, isRead, readPort, readGivenChar]
  rw [parseUpstreamAddr, parseSocketAddr, parseWith, noPort, readSocketAddrV6_eq_none isRead,
    parseIpAddr, parseWith, readIpAddr, isRead]
  rfl

section Scutil

variable (toLowercase : Text → Text)

def ScutilLine.domain? (line : Text) : Option Text :=
  if ScutilLine.of line = .domain then scutilDomain toLowercase line else none

def ScutilLine.nameserver? (line : Text) : Option Text :=
  if ScutilLine.of line = .nameserver then scutilNameserver line else none

/-- The rule of a section that is supplemental: its last domain goes to its last
nameserver. -/
def sectionRule (lines : List Text) : Option DiscoveredRule :=
  if lines.any fun line => ScutilLine.of line = .supplemental then do
    let domain ← (lines.filterMap (ScutilLine.domain? toLowercase)).getLast?
    let ns ← (lines.filterMap ScutilLine.nameserver?).getLast?
    let addr ← parseIpv4 ns
    some ⟨domain, .v4 addr 53⟩
  else none

/-- The first real nameserver that stands in front of the flags of a
supplemental section. -/
def sectionUpstream (lines : List Text) : Option Text :=
  ((lines.takeWhile fun line => ScutilLine.of line ≠ .supplemental).filterMap
    ScutilLine.nameserver?).find? fun ns => !isLoopbackOrStub ns

/-- What a section has said so far, with the nameserver that may be the default
upstream. -/
structure ScutilSection extends ScutilBlock where
  upstream : Option Text := none

def ScutilSection.line (block : ScutilSection) (line : Text) : ScutilSection :=
  { currentDomain := (ScutilLine.domain? toLowercase line).or block.currentDomain
    currentNameserver := (ScutilLine.nameserver? line).or block.currentNameserver
    isSupplemental := block.isSupplemental || decide (ScutilLine.of line = .supplemental)
    upstream := block.upstream.or
      (if block.isSupplemental then none
       else (ScutilLine.nameserver? line).filter fun ns => !isLoopbackOrStub ns) }

def scutilReader : SectionReader Text ScutilSection (Option DiscoveredRule × Option Text) where
  isHeading line := ScutilLine.of line = .heading
  empty := {}
  line := ScutilSection.line toLowercase
  result block := some (block.rule, block.upstream)

/-- The sections of the output, up to the scoped ones. -/
def scutilSections (printed : Text) : List (List Text) :=
  ((printed.lines.map Text.trim).takeWhile fun line => ScutilLine.of line ≠ .forScoped).splitOnP
    fun line => ScutilLine.of line = .heading

theorem getLast?_filterMap_cons {α β : Type} (f : α → Option β) (first : α) (rest : List α)
    (before : Option β) :
    ((first :: rest).filterMap f).getLast?.or before =
      (rest.filterMap f).getLast?.or ((f first).or before) := by
  cases found : f first with
  | none => rw [List.filterMap_cons_none found, Option.none_or]
  | some value =>
      rw [List.filterMap_cons_some found, List.getLast?_cons]
      cases (rest.filterMap f).getLast? <;> rfl

theorem sectionUpstream_cons (line : Text) (lines : List Text) :
    sectionUpstream (line :: lines) =
      ((ScutilLine.nameserver? line).filter fun ns => !isLoopbackOrStub ns).or
        (if ScutilLine.of line = .supplemental then none else sectionUpstream lines) := by
  rw [sectionUpstream, sectionUpstream, List.takeWhile_cons]
  by_cases flags : ScutilLine.of line = .supplemental
  · have noNameserver : ScutilLine.nameserver? line = none := by
      rw [ScutilLine.nameserver?, flags]
      rfl
    rw [if_neg (by simp [flags]), if_pos flags, noNameserver]
    rfl
  · rw [if_pos (by simpa using flags), if_neg flags]
    cases found : ScutilLine.nameserver? line with
    | none => rw [List.filterMap_cons_none found]; rfl
    | some ns =>
        rw [List.filterMap_cons_some found, List.find?_cons]
        cases real : isLoopbackOrStub ns <;> simp [Option.filter, real]

theorem foldl_line (lines : List Text) (block : ScutilSection) :
    lines.foldl (ScutilSection.line toLowercase) block =
      { currentDomain :=
          (lines.filterMap (ScutilLine.domain? toLowercase)).getLast?.or block.currentDomain
        currentNameserver :=
          (lines.filterMap ScutilLine.nameserver?).getLast?.or block.currentNameserver
        isSupplemental :=
          block.isSupplemental || lines.any fun line => ScutilLine.of line = .supplemental
        upstream := block.upstream.or
          (if block.isSupplemental then none else sectionUpstream lines) } := by
  induction lines generalizing block with
  | nil => cases block; simp [sectionUpstream]
  | cons line lines ih =>
      rw [List.foldl_cons, ih, getLast?_filterMap_cons, getLast?_filterMap_cons,
        sectionUpstream_cons, List.any_cons, ScutilSection.line]
      cases block.isSupplemental <;>
        by_cases flags : ScutilLine.of line = .supplemental <;> simp [flags, Option.or_assoc]

theorem parseIpv4_of_nameserver? {lines : List Text} {ns : Text}
    (mem : ns ∈ lines.filterMap ScutilLine.nameserver?) : ∃ addr, parseIpv4 ns = some addr := by
  obtain ⟨line, _, isRead⟩ := List.mem_filterMap.mp mem
  rw [ScutilLine.nameserver?, Option.ite_none_right_eq_some, scutilNameserver,
    Option.filter_eq_some_iff] at isRead
  exact Option.isSome_iff_exists.mp isRead.2.2

theorem read_scutilReader (lines : List Text) :
    (scutilReader toLowercase).read lines =
      some (sectionRule toLowercase lines, sectionUpstream lines) := by
  have folded := foldl_line toLowercase lines {}
  have rule : ScutilBlock.rule ⟨(lines.filterMap (ScutilLine.domain? toLowercase)).getLast?,
      (lines.filterMap ScutilLine.nameserver?).getLast?,
      lines.any fun line => ScutilLine.of line = .supplemental⟩ = sectionRule toLowercase lines := by
    rw [sectionRule]
    cases supplemental : lines.any fun line => ScutilLine.of line = .supplemental with
    | false =>
        rw [if_neg Bool.false_ne_true]
        unfold ScutilBlock.rule
        split <;> simp_all
    | true =>
        rw [if_pos rfl]
        cases (lines.filterMap (ScutilLine.domain? toLowercase)).getLast? with
        | none => rfl
        | some domain =>
            cases last : (lines.filterMap ScutilLine.nameserver?).getLast? with
            | none => rfl
            | some ns =>
                obtain ⟨addr, isParsed⟩ := parseIpv4_of_nameserver? (List.mem_of_getLast? last)
                have made : makeRule domain ns = some ⟨domain, .v4 addr 53⟩ := by
                  rw [makeRule, parseUpstreamAddr_of_parseIpv4 isParsed]
                  rfl
                simpa [ScutilBlock.rule, isParsed] using made
  simp only [Option.or_none, Option.none_or, Bool.false_or, Bool.false_eq_true, if_false] at folded
  rw [SectionReader.read, ← rule]
  simp only [scutilReader, folded]

/-! ## The pass -/

/-- The state of the pass and what the sections have said so far. -/
structure ScutilState.Reads (state : ScutilState)
    (pass : List (Option DiscoveredRule × Option Text) × ScutilSection) : Prop where
  block : state.toScutilBlock = pass.2.toScutilBlock
  rules : state.rules = pass.1.filterMap Prod.fst
  defaultUpstream : state.defaultUpstream = (pass.1.findSome? Prod.snd).or pass.2.upstream

variable {toLowercase}

theorem ScutilState.Reads.flush {state : ScutilState}
    {pass : List (Option DiscoveredRule × Option Text) × ScutilSection} (reads : state.Reads pass) :
    state.flush.Reads (pass.1 ++ [(pass.2.rule, pass.2.upstream)], {}) where
  block := rfl
  rules := by
    rw [ScutilState.flush, reads.rules, reads.block]
    cases pass.2.rule <;> simp
  defaultUpstream := by
    rw [ScutilState.flush, reads.defaultUpstream, List.findSome?_append]
    cases pass.2.upstream <;> simp

theorem ScutilState.Reads.step (toLowercase : Text → Text) {state : ScutilState}
    {pass : List (Option DiscoveredRule × Option Text) × ScutilSection} (reads : state.Reads pass)
    {line : Text} (goesOn : ScutilLine.of line ≠ .forScoped) :
    ∃ next, state.handleLine toLowercase line = (next, false) ∧
      next.Reads ((scutilReader toLowercase).step pass line) := by
  have flushed := reads.flush
  obtain ⟨outs, block⟩ := pass
  obtain ⟨⟨domain, ns, supplemental⟩, rules, upstream⟩ := state
  obtain ⟨⟨domain', ns', supplemental'⟩, upstream'⟩ := block
  obtain ⟨sameBlock, sameRules, sameUpstream⟩ := reads
  simp only [ScutilBlock.mk.injEq] at sameBlock sameRules sameUpstream
  obtain ⟨rfl, rfl, rfl⟩ := sameBlock
  subst sameRules sameUpstream
  cases kind : ScutilLine.of line with
  | forScoped => exact absurd kind goesOn
  | heading =>
      have stepped : (scutilReader toLowercase).step
          (outs, ⟨⟨domain, ns, supplemental⟩, upstream'⟩) line =
          (outs ++ [(ScutilBlock.rule ⟨domain, ns, supplemental⟩, upstream')], {}) := by
        have isHeading : (scutilReader toLowercase).isHeading line = true := decide_eq_true kind
        rw [SectionReader.step, if_pos isHeading]
        rfl
      rw [stepped]
      exact ⟨_, by rw [ScutilState.handleLine, kind], flushed⟩
  | domain =>
      refine ⟨_, by rw [ScutilState.handleLine, kind], ?_⟩
      cases said : scutilDomain toLowercase line <;>
        constructor <;>
        simp [SectionReader.step, scutilReader, kind, ScutilSection.line, ScutilState.setDomain,
          ScutilLine.domain?, ScutilLine.nameserver?, said]
  | nameserver =>
      refine ⟨_, by rw [ScutilState.handleLine, kind], ?_⟩
      cases said : scutilNameserver line <;>
        constructor <;>
        simp [SectionReader.step, scutilReader, kind, ScutilSection.line, ScutilState.setNameserver,
          ScutilLine.domain?, ScutilLine.nameserver?, said]
      case some.defaultUpstream ns =>
        cases supplemental <;> cases outs.findSome? Prod.snd <;> cases upstream' <;>
          cases real : isLoopbackOrStub ns <;> simp [Option.filter, real]
  | supplemental =>
      refine ⟨_, by rw [ScutilState.handleLine, kind], ?_⟩
      constructor <;>
        simp [SectionReader.step, scutilReader, kind, ScutilSection.line, ScutilLine.domain?,
          ScutilLine.nameserver?]
  | other =>
      refine ⟨_, by rw [ScutilState.handleLine, kind], ?_⟩
      constructor <;>
        simp [SectionReader.step, scutilReader, kind, ScutilSection.line, ScutilLine.domain?,
          ScutilLine.nameserver?]

theorem ScutilState.Reads.handleLines (toLowercase : Text → Text) (lines : List Text)
    {state : ScutilState}
    {pass : List (Option DiscoveredRule × Option Text) × ScutilSection} (reads : state.Reads pass) :
    (ScutilState.handleLines toLowercase lines state).flush.Reads
      ((scutilReader toLowercase).finish
        (((lines.map Text.trim).takeWhile fun line => ScutilLine.of line ≠ .forScoped).foldl
          (scutilReader toLowercase).step pass), {}) := by
  induction lines generalizing state pass with
  | nil => exact reads.flush
  | cons line lines ih =>
      rw [List.map_cons, List.takeWhile_cons]
      by_cases isScoped : ScutilLine.of (Text.trim line) = .forScoped
      · have stops : ScutilState.handleLines toLowercase (line :: lines) state = state.flush := by
          rw [ScutilState.handleLines, ScutilState.handleLine, isScoped]
        have again : state.flush.flush = state.flush := by
          simp [ScutilState.flush, ScutilBlock.rule]
        rw [stops, again, if_neg (by simp [isScoped])]
        exact reads.flush
      · obtain ⟨next, handled, nextReads⟩ := reads.step toLowercase isScoped
        rw [if_pos (by simpa using isScoped), List.foldl_cons, ScutilState.handleLines, handled]
        exact ih nextReads

/-- What `discover_macos` reads from the output. -/
theorem discoverMacos_some (toLowercase : Text → Text) (printed : Text) :
    discoverMacos toLowercase (some printed) =
      ⟨(scutilSections printed).findSome? sectionUpstream,
        sortByLargest (·.suffix.length)
          ((scutilSections printed).filterMap (sectionRule toLowercase))⟩ := by
  have started : ScutilState.Reads {} ([], (scutilReader toLowercase).empty) := ⟨rfl, rfl, rfl⟩
  have reads := started.handleLines toLowercase printed.lines
  rw [SectionReader.finish_eq] at reads
  have readIs : (scutilReader toLowercase).read =
      fun lines => some (sectionRule toLowercase lines, sectionUpstream lines) :=
    funext (read_scutilReader toLowercase)
  have upstream := reads.defaultUpstream
  have rules := reads.rules
  rw [readIs, List.filterMap_eq_map'] at rules
  rw [readIs, List.filterMap_eq_map', List.findSome?_map, Option.or_none] at upstream
  rw [List.filterMap_map] at rules
  rw [discoverMacos]
  simp only [upstream, rules]
  rfl

/-! ## The rule of a name -/

theorem matchPool_append (domain : Text) (first second : List PooledRule) :
    matchPool domain (first ++ second) = (matchPool domain first).or (matchPool domain second) := by
  rw [matchPool, matchPool, matchPool, List.find?_append, Option.map_or]

/-- The upstreams of a rule of the configuration, if it covers the name. -/
def ForwardingRuleConfig.poolFor (domain : Text) (config : ForwardingRuleConfig) :
    Option UpstreamPool :=
  if config.suffix.any (suffixCovers domain) then
    (config.upstream.mapM fun upstream => (parseUpstream upstream 53).toOption).map (⟨·, []⟩)
  else none

theorem map_find?_const {α β : Type} (p : α → Bool) (items : List α) (value : β) :
    (items.find? p).map (fun _ => value) = if items.any p then some value else none := by
  induction items with
  | nil => rfl
  | cons item items ih =>
      rw [List.find?_cons, List.any_cons]
      cases p item with
      | true => rfl
      | false => exact ih

theorem toOption_mapM {ε α β : Type} (f : α → Except ε β) (items : List α) :
    (items.mapM f).toOption = items.mapM fun item => (f item).toOption := by
  induction items with
  | nil => rfl
  | cons item items ih =>
      rw [List.mapM_cons, List.mapM_cons, ← ih]
      cases f item with
      | error => rfl
      | ok value => cases items.mapM f <;> rfl

theorem toOption_mapError {ε δ β : Type} (result : Except ε β) (f : ε → δ) :
    (result.mapError f).toOption = result.toOption := by
  cases result <;> rfl

theorem matchPool_toRuntimeRules {debug : List Text → Text} {config : ForwardingRuleConfig}
    {rules : List PooledRule} (isRead : config.toRuntimeRules debug = .ok rules) (domain : Text) :
    matchPool domain rules = config.poolFor domain := by
  rw [ForwardingRuleConfig.toRuntimeRules] at isRead
  split at isRead
  · cases isRead
  · cases parsed : config.upstream.mapM fun upstream =>
        (parseUpstream upstream 53).mapError fun error =>
          text "forwarding rule for upstream '" ++ upstream ++ text "': " ++ error with
    | error => rw [parsed] at isRead; cases isRead
    | ok primary =>
        have pool : (config.upstream.mapM fun upstream => (parseUpstream upstream 53).toOption) =
            some primary := by
          have asOption := toOption_mapM (fun upstream =>
            (parseUpstream upstream 53).mapError fun error =>
              text "forwarding rule for upstream '" ++ upstream ++ text "': " ++ error)
            config.upstream
          simp only [parsed, toOption_mapError] at asOption
          exact asOption.symm
        rw [parsed] at isRead
        obtain rfl := Except.ok.inj isRead
        rw [ForwardingRuleConfig.poolFor, pool, matchPool, List.find?_map, Option.map_map]
        exact map_find?_const _ _ _

theorem matchPool_mergeForwardingRules {debug : List Text → Text}
    {configRules : List ForwardingRuleConfig} {discovered rules : List PooledRule}
    (isMerged : mergeForwardingRules debug configRules discovered = .ok rules) (domain : Text) :
    matchPool domain rules =
      (configRules.findSome? (·.poolFor domain)).or (matchPool domain discovered) := by
  induction configRules generalizing rules with
  | nil =>
      obtain rfl : discovered = rules := Except.ok.inj isMerged
      rfl
  | cons config configRules ih =>
      rw [mergeForwardingRules, List.mapM_cons] at isMerged
      cases first : config.toRuntimeRules debug with
      | error => rw [first] at isMerged; cases isMerged
      | ok read =>
          cases later : configRules.mapM (ForwardingRuleConfig.toRuntimeRules debug) with
          | error => rw [first, later] at isMerged; cases isMerged
          | ok others =>
              have mergedOthers : mergeForwardingRules debug configRules discovered =
                  .ok (others.flatten ++ discovered) := by
                rw [mergeForwardingRules, later]
                rfl
              have merged := ih mergedOthers
              rw [first, later] at isMerged
              obtain rfl : (read :: others).flatten ++ discovered = rules := Except.ok.inj isMerged
              rw [List.flatten_cons, List.append_assoc, matchPool_append, merged,
                matchPool_toRuntimeRules first, List.findSome?_cons]
              cases config.poolFor domain <;> rfl

theorem matchPool_pooled (domain : Text) (rules : List DiscoveredRule) :
    matchPool domain ((sortByLargest (·.suffix.length) rules).map DiscoveredRule.pooled) =
      ((rules.filter fun rule => suffixCovers domain rule.suffix).argmax (·.suffix.length)).map
        (·.pooled.upstream) := by
  rw [matchPool, List.find?_map, Option.map_map, ← find?_sortByLargest_eq_argmax]
  rfl

/-- What `scutil` prints decides the default upstream, the first real nameserver
of a section that does not call itself supplemental before it.  A name has the
upstreams of the first rule of the configuration that covers it, else those of
the longest suffix of a supplemental section, the first of them where two name
it. -/
theorem forwarding_of_scutil (toLowercase : Text → Text) {debug : List Text → Text}
    {printed : Text} {configRules : List ForwardingRuleConfig} {rules : List PooledRule}
    (isMerged : mergeForwardingRules debug configRules
      ((discoverMacos toLowercase (some printed)).forwardingRules.map DiscoveredRule.pooled) =
        .ok rules) :
    (discoverMacos toLowercase (some printed)).defaultUpstream =
        (scutilSections printed).findSome? sectionUpstream ∧
      ∀ domain, matchPool domain rules =
        (configRules.findSome? (·.poolFor domain)).or
          (((((scutilSections printed).filterMap (sectionRule toLowercase)).filter fun rule =>
            suffixCovers domain rule.suffix).argmax (·.suffix.length)).map (·.pooled.upstream)) := by
  rw [discoverMacos_some] at isMerged ⊢
  refine ⟨rfl, fun domain => ?_⟩
  rw [matchPool_mergeForwardingRules isMerged, matchPool_pooled]

def twoResolvers : Text :=
  text "resolver #1\n  nameserver[0] : 9.9.9.9\n\nresolver #2\n  domain   : corp.example.\n" ++
    text "  nameserver[0] : 10.0.0.1\n  flags    : Supplemental\n"

theorem forwarding_of_scutil_twoResolvers :
    (discoverMacos id (some twoResolvers)).defaultUpstream = some (text "9.9.9.9") ∧
      matchPool (text "git.corp.example")
        (⟨text "lan", ⟨[.tcp (.v4 #v[192, 168, 0, 1] 53)], []⟩⟩ ::
          (discoverMacos id (some twoResolvers)).forwardingRules.map DiscoveredRule.pooled) =
        some ⟨[.udp (.v4 #v[10, 0, 0, 1] 53)], []⟩ := by
  have merged (discovered : List PooledRule) :
      mergeForwardingRules (fun _ => []) [⟨[text "lan"], [text "tcp://192.168.0.1"]⟩] discovered =
        .ok (⟨text "lan", ⟨[.tcp (.v4 #v[192, 168, 0, 1] 53)], []⟩⟩ :: discovered) := by
    have addr : parseUpstreamAddr (text "192.168.0.1") 53 = some (.v4 #v[192, 168, 0, 1] 53) := by
      decide +kernel
    have parsed : parseUpstream (text "tcp://192.168.0.1") 53 =
        .ok (.tcp (.v4 #v[192, 168, 0, 1] 53)) := by
      rw [parseUpstream, if_neg (by decide +kernel), if_neg (by decide +kernel),
        if_pos (by decide +kernel)]
      have rest : (text "tcp://192.168.0.1").drop 6 = text "192.168.0.1" := by decide +kernel
      rw [rest, parseUpstreamAddrOr, addr]
      rfl
    simp [mergeForwardingRules, ForwardingRuleConfig.toRuntimeRules, parsed, pure, Except.pure,
      bind, Except.bind, Except.map, Except.mapError]
  have decided := forwarding_of_scutil id (merged
    ((discoverMacos id (some twoResolvers)).forwardingRules.map DiscoveredRule.pooled))
  rw [decided.1, decided.2]
  have longest : ((((scutilSections twoResolvers).filterMap (sectionRule id)).filter fun rule =>
      suffixCovers (text "git.corp.example") rule.suffix).argmax (·.suffix.length)) =
        some ⟨text "corp.example", .v4 #v[10, 0, 0, 1] 53⟩ := by
    decide +kernel
  have upstream : (scutilSections twoResolvers).findSome? sectionUpstream =
      some (text "9.9.9.9") := by
    decide +kernel
  rw [longest]
  exact ⟨upstream, rfl⟩

end Scutil

end Numa
