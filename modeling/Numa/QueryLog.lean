import Mathlib.Data.List.Infix
import Numa.NumberedLog
import Numa.Server
import Numa.SrttCache

/-!
# The query log and the counters

`QueryLog` of `query_log.rs`, `ServerStats` of `stats.rs` but its clock, and the
end of `resolve_query`, where a query is counted and then logged under another
lock.
-/

namespace Numa

inductive Transport
  | udp
  | tcp
  | dot
  | doh
  deriving DecidableEq

/-! ## The log -/

structure QueryLogEntry where
  seq : Nat
  timestamp : Nat
  srcAddr : SocketAddr
  domain : Text
  queryType : QueryType
  path : QueryPath
  transport : Transport
  rescode : ResultCode
  latencyUs : Nat
  dnssec : DnssecStatus
  rebindStripped : Bool

structure QueryLogFilter where
  domain : Option Text := none
  queryType : Option QueryType := none
  path : Option QueryPath := none
  limit : Option Nat := none

/-- Does the entry pass the filter? -/
def QueryLogFilter.admits (filter : QueryLogFilter) (entry : QueryLogEntry) : Bool :=
  filter.domain.all (fun domain => decide (domain <:+: entry.domain)) &&
    filter.queryType.all (fun qtype => decide (entry.queryType = qtype)) &&
    filter.path.all fun path => decide (entry.path = path)

structure QueryLog where
  entries : List QueryLogEntry
  capacity : Nat
  nextSeq : Nat

namespace QueryLog

def new (capacity : Nat) : QueryLog :=
  ⟨[], capacity, 0⟩

def push (log : QueryLog) (entry : QueryLogEntry) : QueryLog :=
  let entry := { entry with seq := log.nextSeq + 1 }
  let kept := if log.capacity ≤ log.entries.length then log.entries.tail else log.entries
  { log with entries := kept ++ [entry], nextSeq := log.nextSeq + 1 }

def query (log : QueryLog) (filter : QueryLogFilter) : List QueryLogEntry :=
  (log.entries.reverse.filter filter.admits).take (filter.limit.getD 50)

end QueryLog

/-! ## The counters -/

structure ServerStats where
  queriesTotal : Nat := 0
  queriesForwarded : Nat := 0
  queriesUpstream : Nat := 0
  queriesRecursive : Nat := 0
  queriesCoalesced : Nat := 0
  queriesCached : Nat := 0
  queriesBlocked : Nat := 0
  queriesLocal : Nat := 0
  queriesOverridden : Nat := 0
  upstreamErrors : Nat := 0
  transportUdp : Nat := 0
  transportTcp : Nat := 0
  transportDot : Nat := 0
  transportDoh : Nat := 0
  upstreamTransportUdp : Nat := 0
  upstreamTransportTcp : Nat := 0
  upstreamTransportDoh : Nat := 0
  upstreamTransportDot : Nat := 0
  upstreamTransportOdoh : Nat := 0
  proxyV2Accepted : Nat := 0
  proxyV2RejectedUntrusted : Nat := 0
  proxyV2RejectedSignature : Nat := 0
  proxyV2LocalCommand : Nat := 0
  proxyV2Timeout : Nat := 0
  rebindStripped : Nat := 0
  deriving DecidableEq

namespace ServerStats

def recordRebindStripped (stats : ServerStats) : ServerStats :=
  { stats with rebindStripped := stats.rebindStripped + 1 }

def recordPath (stats : ServerStats) : QueryPath → ServerStats
  | .localData => { stats with queriesLocal := stats.queriesLocal + 1 }
  | .cached => { stats with queriesCached := stats.queriesCached + 1 }
  | .forwarded => { stats with queriesForwarded := stats.queriesForwarded + 1 }
  | .upstream => { stats with queriesUpstream := stats.queriesUpstream + 1 }
  | .recursive => { stats with queriesRecursive := stats.queriesRecursive + 1 }
  | .coalesced => { stats with queriesCoalesced := stats.queriesCoalesced + 1 }
  | .blocked => { stats with queriesBlocked := stats.queriesBlocked + 1 }
  | .overridden => { stats with queriesOverridden := stats.queriesOverridden + 1 }
  | .upstreamError => { stats with upstreamErrors := stats.upstreamErrors + 1 }

def recordTransport (stats : ServerStats) : Transport → ServerStats
  | .udp => { stats with transportUdp := stats.transportUdp + 1 }
  | .tcp => { stats with transportTcp := stats.transportTcp + 1 }
  | .dot => { stats with transportDot := stats.transportDot + 1 }
  | .doh => { stats with transportDoh := stats.transportDoh + 1 }

def recordUpstreamTransport (stats : ServerStats) : UpstreamTransport → ServerStats
  | .udp => { stats with upstreamTransportUdp := stats.upstreamTransportUdp + 1 }
  | .tcp => { stats with upstreamTransportTcp := stats.upstreamTransportTcp + 1 }
  | .doh => { stats with upstreamTransportDoh := stats.upstreamTransportDoh + 1 }
  | .dot => { stats with upstreamTransportDot := stats.upstreamTransportDot + 1 }
  | .odoh => { stats with upstreamTransportOdoh := stats.upstreamTransportOdoh + 1 }

def record (stats : ServerStats) (path : QueryPath) (transport : Transport)
    (upstreamTransport : Option UpstreamTransport) : ServerStats :=
  let stats := { stats with queriesTotal := stats.queriesTotal + 1 }
  let stats := (stats.recordPath path).recordTransport transport
  match upstreamTransport with
  | some upstream => stats.recordUpstreamTransport upstream
  | none => stats

/-- The counter of a path. -/
def ofPath (stats : ServerStats) : QueryPath → Nat
  | .localData => stats.queriesLocal
  | .cached => stats.queriesCached
  | .forwarded => stats.queriesForwarded
  | .upstream => stats.queriesUpstream
  | .recursive => stats.queriesRecursive
  | .coalesced => stats.queriesCoalesced
  | .blocked => stats.queriesBlocked
  | .overridden => stats.queriesOverridden
  | .upstreamError => stats.upstreamErrors

/-- The counter of a transport of clients. -/
def ofTransport (stats : ServerStats) : Transport → Nat
  | .udp => stats.transportUdp
  | .tcp => stats.transportTcp
  | .dot => stats.transportDot
  | .doh => stats.transportDoh

/-- The counter of a transport to upstreams. -/
def ofUpstreamTransport (stats : ServerStats) : UpstreamTransport → Nat
  | .udp => stats.upstreamTransportUdp
  | .tcp => stats.upstreamTransportTcp
  | .doh => stats.upstreamTransportDoh
  | .dot => stats.upstreamTransportDot
  | .odoh => stats.upstreamTransportOdoh

end ServerStats

/-! ## The log over runs -/

namespace QueryLog

/-- The entries with their numbers. -/
def stamped (pushed : List QueryLogEntry) : List QueryLogEntry :=
  (pushed.zipIdx 1).map fun item => { item.1 with seq := item.2 }

theorem stamped_concat (pushed : List QueryLogEntry) (entry : QueryLogEntry) :
    stamped (pushed ++ [entry]) = stamped pushed ++ [{ entry with seq := pushed.length + 1 }] := by
  simp [stamped, List.zipIdx_append, Nat.add_comm]

theorem length_stamped (pushed : List QueryLogEntry) : (stamped pushed).length = pushed.length := by
  simp [stamped]

/-- Every stamped entry says where it stands. -/
theorem map_seq_stamped (pushed : List QueryLogEntry) :
    (stamped pushed).map (fun entry => (entry, entry.seq)) = (stamped pushed).zipIdx 1 := by
  induction pushed using List.reverseRecOn with
  | nil => rfl
  | append_singleton pushed entry ih =>
      rw [stamped_concat, List.map_append, ih, List.zipIdx_append, length_stamped]
      simp [Nat.add_comm]

/-- The log holds the last entries that were pushed. -/
structure Shows (capacity : Nat) (pushed : List QueryLogEntry) (log : QueryLog) : Prop where
  entries : log.entries = (stamped pushed).rtake (max capacity 1)
  capacity : log.capacity = capacity
  nextSeq : log.nextSeq = pushed.length

variable {capacity : Nat} {pushed : List QueryLogEntry} {log : QueryLog}

theorem shows_new (capacity : Nat) : Shows capacity [] (new capacity) :=
  ⟨by simp [new, stamped], rfl, rfl⟩

theorem Shows.push (shows : Shows capacity pushed log) (entry : QueryLogEntry) :
    Shows capacity (pushed ++ [entry]) (log.push entry) where
  entries := by
    rw [QueryLog.push, stamped_concat, ← rtake_concat]
    simp only [shows.entries, shows.capacity, shows.nextSeq]
  capacity := shows.capacity
  nextSeq := by
    rw [List.length_append, List.length_singleton, ← shows.nextSeq]
    rfl

theorem Shows.query (shows : Shows capacity pushed log) (filter : QueryLogFilter) :
    log.query filter =
      (((stamped pushed).rtake (max capacity 1)).reverse.filter filter.admits).take
        (filter.limit.getD 50) := by
  rw [QueryLog.query, shows.entries]

/-- A query without a filter but its limit, as a page of a numbered log. -/
theorem Shows.page (shows : Shows capacity pushed log) (limit : Nat) :
    (log.query { limit := some limit }).map (fun entry => (entry, entry.seq)) =
      newest (min limit (max capacity 1)) (stamped pushed) := by
  have all : ∀ entry, QueryLogFilter.admits { limit := some limit } entry = true := fun _ => rfl
  rw [shows.query, List.filter_eq_self.mpr fun entry _ => all entry, Option.getD_some, newest]
  simp only [List.rtake_eq_reverse_take_reverse, List.reverse_reverse, List.map_take,
    List.map_reverse, map_seq_stamped, List.take_take]

end QueryLog

/-- What is done with a query log that somebody follows. -/
inductive LogUse
  | push (entry : QueryLogEntry)
  | poll (limit : Nat)

/-- A poll asks for the newest entries and takes in those that are new by their
`seq`. -/
def LogUse.apply : QueryLog × Follower QueryLogEntry → LogUse → QueryLog × Follower QueryLogEntry
  | (log, follower), push entry => (log.push entry, follower)
  | (log, follower), poll limit =>
    (log, follower.takeIn
      ((log.query { limit := some limit }).map fun entry => (entry, entry.seq)))

/-- The entries that are pushed. -/
def LogUse.pushes (uses : List LogUse) : List QueryLogEntry :=
  uses.filterMap fun
    | push entry => some entry
    | poll _ => none

theorem LogUse.pushes_append (first second : List LogUse) :
    pushes (first ++ second) = pushes first ++ pushes second :=
  List.filterMap_append

open QueryLog (stamped Shows shows_new)

/-- The log and its follower after some uses. -/
structure Followed (capacity : Nat) (uses : List LogUse)
    (after : QueryLog × Follower QueryLogEntry) : Prop where
  shows : Shows capacity (LogUse.pushes uses) after.1
  follows : Follows (stamped (LogUse.pushes uses)) after.2

theorem followed_of_uses (capacity : Nat) (uses : List LogUse) :
    Followed capacity uses (uses.foldl LogUse.apply (.new capacity, .start)) := by
  induction uses using List.reverseRecOn with
  | nil => exact ⟨shows_new capacity, follows_start⟩
  | append_singleton uses use ih =>
      rw [List.foldl_append, List.foldl_cons, List.foldl_nil]
      have added := LogUse.pushes_append uses [use]
      cases use with
      | push entry =>
          refine ⟨?_, ?_⟩
          · rw [added]
            exact ih.shows.push entry
          · rw [added]
            exact (QueryLog.stamped_concat _ entry).symm ▸ ih.follows.push _
      | poll limit =>
          have same : LogUse.pushes (uses ++ [.poll limit]) = LogUse.pushes uses := by
            rw [added]
            exact List.append_nil _
          refine ⟨?_, ?_⟩
          · rw [same]
            exact ih.shows
          · rw [same, LogUse.apply, ih.shows.page]
            exact ih.follows.poll _

/-- Whoever polls the log gets every entry once and in the order of the
queries, but for those that a jump of `seq` tells of, and is up to date after
every poll, whenever the polls are and whatever they ask for. -/
theorem followQueryLog_complete (capacity : Nat) (uses : List LogUse) :
    let follower := (uses.foldl LogUse.apply (.new capacity, .start)).2
    let entries := stamped (LogUse.pushes uses)
    List.Sublist follower.received (entries.take follower.last) ∧
      follower.received.length + follower.lost = follower.last ∧
      (follower.lost = 0 → follower.received = entries.take follower.last) ∧
      ∀ earlier limit, uses = earlier ++ [.poll limit] → 0 < limit →
        follower.last = entries.length := by
  have followed := followed_of_uses capacity uses
  refine ⟨followed.follows.inOrder, followed.follows.counted, followed.follows.received_eq, ?_⟩
  rintro earlier limit rfl positive
  have before := followed_of_uses capacity earlier
  have same : LogUse.pushes (earlier ++ [.poll limit]) = LogUse.pushes earlier := by
    rw [LogUse.pushes_append]
    exact List.append_nil _
  rw [List.foldl_append, List.foldl_cons, List.foldl_nil, same, LogUse.apply, before.shows.page]
  exact before.follows.upToDate (by omega)

/-! ## The counters over runs -/

/-- What a query has to report when it is answered. -/
structure Report where
  entry : QueryLogEntry
  upstreamTransport : Option UpstreamTransport

/-- The counters and the log, with the reports that have been counted and not
yet logged, and those that have been logged. -/
structure Accounts where
  stats : ServerStats
  log : QueryLog
  between : List Report
  logged : List Report

/-- The accounts of a new server. -/
def Accounts.new (capacity : Nat) : Accounts where
  stats := {}
  log := .new capacity
  between := []
  logged := []

/-- What a task does under one lock. -/
inductive Accounts.Step (accounts : Accounts) : Accounts → Prop
  /-- Addresses are taken out of a response. -/
  | rebind : Step accounts { accounts with stats := accounts.stats.recordRebindStripped }
  | count (report : Report) :
      Step accounts
        { accounts with
          stats := accounts.stats.record report.entry.path report.entry.transport
            report.upstreamTransport
          between := report :: accounts.between }
  | log {before after : List Report} (report : Report)
      (isBetween : accounts.between = before ++ report :: after) :
      Step accounts
        { accounts with
          log := accounts.log.push report.entry
          between := before ++ after
          logged := accounts.logged ++ [report] }

namespace ServerStats

variable (stats : ServerStats)

theorem ofPath_recordPath (path other : QueryPath) :
    (stats.recordPath path).ofPath other = stats.ofPath other + if path = other then 1 else 0 := by
  cases path <;> cases other <;> rfl

theorem ofPath_recordTransport (transport : Transport) (path : QueryPath) :
    (stats.recordTransport transport).ofPath path = stats.ofPath path := by
  cases transport <;> cases path <;> rfl

theorem ofPath_recordUpstreamTransport (upstream : UpstreamTransport) (path : QueryPath) :
    (stats.recordUpstreamTransport upstream).ofPath path = stats.ofPath path := by
  cases upstream <;> cases path <;> rfl

theorem ofTransport_recordPath (path : QueryPath) (transport : Transport) :
    (stats.recordPath path).ofTransport transport = stats.ofTransport transport := by
  cases path <;> cases transport <;> rfl

theorem ofTransport_recordTransport (transport other : Transport) :
    (stats.recordTransport transport).ofTransport other =
      stats.ofTransport other + if transport = other then 1 else 0 := by
  cases transport <;> cases other <;> rfl

theorem ofTransport_recordUpstreamTransport (upstream : UpstreamTransport) (transport : Transport) :
    (stats.recordUpstreamTransport upstream).ofTransport transport = stats.ofTransport transport := by
  cases upstream <;> cases transport <;> rfl

theorem ofUpstreamTransport_recordPath (path : QueryPath) (upstream : UpstreamTransport) :
    (stats.recordPath path).ofUpstreamTransport upstream = stats.ofUpstreamTransport upstream := by
  cases path <;> cases upstream <;> rfl

theorem ofUpstreamTransport_recordTransport (transport : Transport) (upstream : UpstreamTransport) :
    (stats.recordTransport transport).ofUpstreamTransport upstream =
      stats.ofUpstreamTransport upstream := by
  cases transport <;> cases upstream <;> rfl

theorem ofUpstreamTransport_recordUpstreamTransport (upstream other : UpstreamTransport) :
    (stats.recordUpstreamTransport upstream).ofUpstreamTransport other =
      stats.ofUpstreamTransport other + if upstream = other then 1 else 0 := by
  cases upstream <;> cases other <;> rfl

theorem queriesTotal_recordPath (path : QueryPath) :
    (stats.recordPath path).queriesTotal = stats.queriesTotal := by
  cases path <;> rfl

theorem queriesTotal_recordTransport (transport : Transport) :
    (stats.recordTransport transport).queriesTotal = stats.queriesTotal := by
  cases transport <;> rfl

theorem queriesTotal_recordUpstreamTransport (upstream : UpstreamTransport) :
    (stats.recordUpstreamTransport upstream).queriesTotal = stats.queriesTotal := by
  cases upstream <;> rfl

/-- A report adds one to the total, to its path, to its transport and to its
upstream transport, if it has one. -/
theorem record_counts (path : QueryPath) (transport : Transport)
    (upstreamTransport : Option UpstreamTransport) :
    let after := stats.record path transport upstreamTransport
    after.queriesTotal = stats.queriesTotal + 1 ∧
      (∀ other, after.ofPath other = stats.ofPath other + if path = other then 1 else 0) ∧
      (∀ other, after.ofTransport other =
        stats.ofTransport other + if transport = other then 1 else 0) ∧
      ∀ other, after.ofUpstreamTransport other =
        stats.ofUpstreamTransport other + if upstreamTransport = some other then 1 else 0 := by
  cases upstreamTransport with
  | none =>
      refine ⟨?_, fun other => ?_, fun other => ?_, fun other => ?_⟩
      · rw [record, queriesTotal_recordTransport, queriesTotal_recordPath]
      · rw [record, ofPath_recordTransport, ofPath_recordPath]
        rfl
      · rw [record, ofTransport_recordTransport, ofTransport_recordPath]
        rfl
      · rw [record, ofUpstreamTransport_recordTransport, ofUpstreamTransport_recordPath]
        rfl
  | some upstream =>
      refine ⟨?_, fun other => ?_, fun other => ?_, fun other => ?_⟩
      · rw [record, queriesTotal_recordUpstreamTransport, queriesTotal_recordTransport,
          queriesTotal_recordPath]
      · rw [record, ofPath_recordUpstreamTransport, ofPath_recordTransport, ofPath_recordPath]
        rfl
      · rw [record, ofTransport_recordUpstreamTransport, ofTransport_recordTransport,
          ofTransport_recordPath]
        rfl
      · rw [record, ofUpstreamTransport_recordUpstreamTransport,
          ofUpstreamTransport_recordTransport, ofUpstreamTransport_recordPath]
        simp only [Option.some.injEq]
        rfl

end ServerStats

/-- The counters count these reports. -/
structure ServerStats.Counts (stats : ServerStats) (reports : List Report) : Prop where
  total : stats.queriesTotal = reports.length
  path : ∀ path, stats.ofPath path = reports.countP fun report => report.entry.path = path
  transport : ∀ transport,
    stats.ofTransport transport = reports.countP fun report => report.entry.transport = transport
  upstreamTransport : ∀ upstream, stats.ofUpstreamTransport upstream =
    reports.countP fun report => report.upstreamTransport = some upstream

theorem ServerStats.Counts.record {stats : ServerStats} {reports : List Report}
    (counts : stats.Counts reports) (report : Report) :
    (stats.record report.entry.path report.entry.transport report.upstreamTransport).Counts
      (report :: reports) := by
  obtain ⟨total, path, transport, upstreamTransport⟩ := stats.record_counts report.entry.path
    report.entry.transport report.upstreamTransport
  refine ⟨?_, fun other => ?_, fun other => ?_, fun other => ?_⟩
  · rw [total, counts.total, List.length_cons]
  · simp only [path, counts.path, List.countP_cons, decide_eq_true_eq]
  · simp only [transport, counts.transport, List.countP_cons, decide_eq_true_eq]
  · simp only [upstreamTransport, counts.upstreamTransport, List.countP_cons, decide_eq_true_eq]

theorem ServerStats.Counts.perm {stats : ServerStats} {first second : List Report}
    (counts : stats.Counts first) (same : first.Perm second) : stats.Counts second where
  total := counts.total.trans same.length_eq
  path path := (counts.path path).trans (same.countP_eq _)
  transport transport := (counts.transport transport).trans (same.countP_eq _)
  upstreamTransport upstream := (counts.upstreamTransport upstream).trans (same.countP_eq _)

/-- The counters count every report, and the log shows those that are logged. -/
structure Accounts.Balanced (capacity : Nat) (accounts : Accounts) : Prop where
  counts : accounts.stats.Counts (accounts.between ++ accounts.logged)
  shows : Shows capacity (accounts.logged.map Report.entry) accounts.log

theorem Accounts.Balanced.step {capacity : Nat} {accounts after : Accounts}
    (balanced : accounts.Balanced capacity) (step : accounts.Step after) :
    after.Balanced capacity := by
  cases step with
  | rebind =>
      exact ⟨⟨balanced.counts.total, balanced.counts.path, balanced.counts.transport,
        balanced.counts.upstreamTransport⟩, balanced.shows⟩
  | count report => exact ⟨balanced.counts.record report, balanced.shows⟩
  | @log before behind report isBetween =>
      constructor
      · refine balanced.counts.perm ?_
        rw [isBetween]
        calc
          (before ++ report :: behind ++ accounts.logged).Perm
              (report :: (before ++ behind ++ accounts.logged)) := by
            rw [List.append_assoc, List.append_assoc, List.cons_append]
            exact List.perm_middle
          List.Perm _ (before ++ behind ++ (accounts.logged ++ [report])) := by
            rw [← List.append_assoc]
            exact (List.perm_append_singleton _ _).symm
      · rw [List.map_append]
        exact balanced.shows.push report.entry

/-- However the tasks interleave, the counters agree with one another and with
the log: each counts the reports that are logged and those between the two
locks, and the log answers every query with the newest entries that match. -/
theorem accounts_of_run {capacity : Nat} {accounts : Accounts}
    (run : Relation.ReflTransGen Accounts.Step (.new capacity) accounts) :
    accounts.stats.Counts (accounts.between ++ accounts.logged) ∧
      accounts.log.nextSeq + accounts.between.length = accounts.stats.queriesTotal ∧
      ∀ filter, accounts.log.query filter =
        (((stamped (accounts.logged.map Report.entry)).rtake (max capacity 1)).reverse.filter
          filter.admits).take (filter.limit.getD 50) := by
  have balanced : accounts.Balanced capacity := by
    induction run with
    | refl => exact ⟨⟨rfl, fun path => by cases path <;> rfl, fun transport => by cases transport <;> rfl,
        fun upstream => by cases upstream <;> rfl⟩, shows_new capacity⟩
    | tail _ step ih => exact ih.step step
  refine ⟨balanced.counts, ?_, balanced.shows.query⟩
  rw [balanced.counts.total, balanced.shows.nextSeq, List.length_map, List.length_append,
    Nat.add_comm]

def sampleReport : Report where
  entry :=
    { seq := 0
      timestamp := 0
      srcAddr := .v4 (.new 192 0 2 1) 5353
      domain := text "example.org"
      queryType := .a
      path := .upstream
      transport := .udp
      rescode := .noerror
      latencyUs := 1200
      dnssec := .indeterminate
      rebindStripped := false }
  upstreamTransport := some .doh

theorem accounts_of_run_sampleReport : ∃ accounts : Accounts,
    Relation.ReflTransGen Accounts.Step (.new 0) accounts ∧
      accounts.stats.Counts [sampleReport, sampleReport] ∧ accounts.log.nextSeq = 1 := by
  have counted : Accounts.Step (.new 0) _ := .count sampleReport
  have again : Accounts.Step { Accounts.new 0 with
      stats := (Accounts.new 0).stats.record .upstream .udp (some .doh)
      between := [sampleReport] } _ := .count sampleReport
  have isBetween : [sampleReport, sampleReport] = [] ++ sampleReport :: [sampleReport] := rfl
  have run := ((Relation.ReflTransGen.single counted).tail again).tail (.log sampleReport isBetween)
  exact ⟨_, run, (accounts_of_run run).1, rfl⟩

end Numa
