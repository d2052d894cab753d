import Numa.LanPeers

/-!
# What hosts know of their peers

A host finds a service that another host announced, at the address and port
that it announced last, until it has not been heard of for too long.  It never
takes its own announcements for those of a peer, whatever is sent, lost, repeated
or reordered on the network.
-/

namespace Numa

open scoped List

open Interaction (ask done)

/-! ## Announcements that are read -/

theorem stripPrefix_eq_none {start val : String} {first : Char}
    (isFirst : start.toList.head? = some first)
    (differs : val.toList.head? ≠ some first) : stripPrefix start val = none := by
  refine if_neg fun isPrefix => differs ?_
  obtain ⟨rest, isStart⟩ := List.head?_eq_some_iff.mp isFirst
  obtain ⟨behind, isVal⟩ := isPrefix
  rw [← isVal, isStart]
  rfl

/-- A string that starts otherwise announces nothing. -/
theorem silent_of_head {val : String} (notServices : val.toList.head? ≠ some 's')
    (notId : val.toList.head? ≠ some 'i') :
    txtServicesOf (text val) = none ∧ txtIdOf (text val) = none := by
  have services : stripPrefix txtServices val = none := stripPrefix_eq_none rfl notServices
  have named : stripPrefix txtId val = none := stripPrefix_eq_none rfl notId
  simp [txtServicesOf, txtIdOf, fromUTF8?_text, services, named]

theorem head_of_mem_metaStrings {health : HealthMeta} {val : String}
    (mem : val ∈ metaStrings health) :
    val.toList.head? ∈ [some 'v', some 'a', some 'p', some 'd', some 'c'] := by
  simp only [metaStrings, List.mem_append, List.mem_cons, List.not_mem_nil, or_false,
    List.mem_map, Option.mem_toList] at mem
  rcases mem with ((rfl | rfl) | dot) | ⟨fingerprint, -, rfl⟩
  · simp
  · simp
  · split_ifs at dot
    · simp only [List.mem_cons, List.not_mem_nil, or_false] at dot
      rcases dot with rfl | rfl <;> simp
    · simp only [List.mem_cons, List.not_mem_nil, or_false] at dot
      subst dot
      simp
  · simp

theorem LanHost.silent_metaChunks (host : LanHost) :
    lastSaid txtServicesOf (metaChunks host.health) = none ∧
      lastSaid txtIdOf (metaChunks host.health) = none := by
  have silent : ∀ string ∈ metaChunks host.health,
      txtServicesOf string = none ∧ txtIdOf string = none := by
    intro string mem
    obtain ⟨val, valMem, isChunk⟩ := List.mem_flatMap.mp mem
    have first := head_of_mem_metaStrings valMem
    have nonempty : text val ≠ [] := by
      intro empty
      rw [empty, txtChunks, if_pos rfl] at isChunk
      cases isChunk
    rw [txtChunks_of_short nonempty (host.shortMeta val valMem), List.mem_singleton] at isChunk
    subst isChunk
    refine silent_of_head ?_ ?_ <;> (intro same; rw [same] at first; revert first; decide)
  constructor
  · rcases said : lastSaid txtServicesOf (metaChunks host.health) with _ | services
    · rfl
    · obtain ⟨string, mem, isSaid⟩ := exists_mem_of_lastSaid said
      rw [(silent string mem).1] at isSaid
      cases isSaid
  · rcases said : lastSaid txtIdOf (metaChunks host.health) with _ | instId
    · rfl
    · obtain ⟨string, mem, isSaid⟩ := exists_mem_of_lastSaid said
      rw [(silent string mem).2] at isSaid
      cases isSaid

/-- The services can be announced: they go into one string, and their names
have no commas and colons. -/
structure Announceable (services : List (String × UInt16)) : Prop where
  nonempty : services ≠ []
  plain : ∀ service ∈ services, ',' ∉ service.1.toList ∧ ':' ∉ service.1.toList
  short : (text (txtServices ++ servicesText services)).length ≤ 255

section Announcement

variable {ι : Type} {lan : Lan ι} {host : ι} {services : List (String × UInt16)} {ip : Ipv4Addr}
  {octets : List UInt8}

/-- Whatever the services are, the instance ID is read. -/
theorem Lan.instanceId_of_announcement {ann : MdnsAnnouncement}
    (built : lan.announcement host services ip = .ok octets)
    (parsed : parseMdnsResponse octets = some ann) :
    ann.instanceId = some (lan.hosts host).instId ∧ ann.peerIp = .v4 ip := by
  rw [Lan.announcement] at built
  rw [parseMdnsResponse_of_built built, Option.map_eq_some_iff] at parsed
  obtain ⟨said, -, rfl⟩ := parsed
  refine ⟨?_, rfl⟩
  have isId : text (txtId ++ (lan.hosts host).instId) ≠ [] := by
    rw [text_eq_flatMap, String.toList_append]
    exact List.cons_ne_nil _ _
  have chunks : announcedChunks services (lan.hosts host).instId (lan.hosts host).health =
      txtChunks (text (txtServices ++ servicesText services)) ++
        [text (txtId ++ (lan.hosts host).instId)] ++ metaChunks (lan.hosts host).health := by
    simp only [announcedChunks, announcedStrings, metaChunks, List.flatMap_append,
      List.flatMap_cons, List.flatMap_nil, txtChunks_of_short isId (lan.hosts host).shortId,
      List.append_nil]
  rw [chunks, lastSaid_append, lastSaid_append, (lan.hosts host).silent_metaChunks.2]
  simp [lastSaid, txtIdOf_text]

theorem Lan.parse_announcement (built : lan.announcement host services ip = .ok octets)
    (announceable : Announceable services) :
    parseMdnsResponse octets = some ⟨services, .v4 ip, some (lan.hosts host).instId⟩ := by
  rw [Lan.announcement] at built
  obtain ⟨noServices, noId⟩ := (lan.hosts host).silent_metaChunks
  refine (parseMdnsResponse_buildAnnouncement_iff built announceable.nonempty
    announceable.plain).mpr ⟨announceable.short, (lan.hosts host).shortId, ?_, ?_⟩
  · intro others said
    rw [noServices] at said
    cases said
  · intro other said
    rw [noId] at said
    cases said

end Announcement

/-! ## The store and the news -/

/-- What an update puts into the store. -/
def heardEntries (toLowercase : Text → Text) (now : Nat) (host : IpAddr)
    (services : List (String × UInt16)) : List (Text × IpAddr × UInt16 × Nat) :=
  services.map fun (name, port) => (toLowercase (text name), host, port, now)

namespace PeerStore

variable {toLowercase : Text → Text} {store : PeerStore} {now : Nat}
  {news : List (News Text (IpAddr × UInt16 × Nat))}

/-- The store follows the news: what is held was heard last of a name, and not
before its time. -/
structure Knows (store : PeerStore) (now : Nat) (news : List (News Text (IpAddr × UInt16 × Nat))) :
    Prop where
  remembers : Remembers (fun value => value.2.2 + store.timeout) now store.peers news
  past : ∀ {key value}, store.peers.lookup key = some value → value.2.2 ≤ now

theorem update_eq (store : PeerStore) (now : Nat) (host : IpAddr)
    (services : List (String × UInt16)) :
    (store.update toLowercase now host services).2 =
      { store with
        peers := Table.hear store.peers (heardEntries toLowercase now host services) } := by
  unfold update
  generalize false = changed
  induction services generalizing store changed with
  | nil => rfl
  | cons service services ih => exact ih _ _

theorem lookup_eq_some_iff {name : Text} {ip : IpAddr} {port : UInt16} :
    (store.lookup toLowercase now name).1 = some (ip, port) ↔
      ∃ seen, store.peers.lookup (toLowercase name) = some (ip, port, seen) ∧
        now ≤ seen + store.timeout := by
  unfold lookup
  rcases found : store.peers.lookup (toLowercase name) with _ | ⟨address, number, seen⟩
  · simp [found]
  · simp only [found, Option.some.injEq, Prod.mk.injEq]
    split
    · simp
      omega
    · simp
      omega

theorem peers_retainFresh (store : PeerStore) (now : Nat) :
    (store.retainFresh now).peers =
      Table.retain (fun value => decide (now - value.2.2 < store.timeout)) store.peers :=
  rfl

theorem timeout_lookup {name : Text} :
    (store.lookup toLowercase now name).2.timeout = store.timeout := by
  unfold lookup
  dsimp only
  split
  · rfl
  · split_ifs <;> rfl

namespace Knows

theorem later {after : Nat} (knows : store.Knows now news) (order : now ≤ after) :
    store.Knows after news where
  remembers := knows.remembers.later order
  past found := (knows.past found).trans order

theorem update (knows : store.Knows now news) (host : IpAddr) (services : List (String × UInt16)) :
    (store.update toLowercase now host services).2.Knows now
      (.heard (heardEntries toLowercase now host services) :: news) := by
  rw [update_eq]
  refine ⟨knows.remembers.hear _, fun {key value} found => ?_⟩
  rw [Table.lookup_hear] at found
  rcases Option.or_eq_some_iff.mp found with last | ⟨-, before⟩
  · obtain ⟨service, -, isEntry⟩ := List.mem_map.mp (mem_of_lastOf last)
    cases isEntry
    exact le_rfl
  · exact knows.past before

theorem clear : store.clear.Knows now (.cleared :: news) where
  remembers := .clear
  past found := nomatch found

theorem lookup (knows : store.Knows now news) (name : Text) :
    (store.lookup toLowercase now name).2.Knows now news := by
  unfold PeerStore.lookup
  rcases found : store.peers.lookup (toLowercase name) with _ | ⟨address, number, seen⟩
  · simpa only [found] using knows
  · simp only [found]
    split_ifs with expired
    · refine ⟨knows.remembers.erase fun value isHeld => ?_, fun {key value} isHeld => ?_⟩
      · rw [found] at isHeld
        cases isHeld
        dsimp only
        omega
      · exact knows.past (Table.lookup_of_lookup_erase isHeld).2
    · exact knows

theorem retainFresh (knows : store.Knows now news) : (store.retainFresh now).Knows now news := by
  have remembers : Remembers (fun value : IpAddr × UInt16 × Nat => value.2.2 + store.timeout) now
      (store.retainFresh now).peers news := by
    rw [peers_retainFresh]
    refine knows.remembers.retain fun {_ value} isHeld fresh => ?_
    have before : value.2.2 ≤ now := knows.past isHeld
    exact decide_eq_true (by omega)
  exact ⟨remembers, fun isHeld => knows.past (Table.lookup_retain_eq_some_iff.mp isHeld).1⟩

end Knows

end PeerStore

/-! ## What the tasks keep to -/

section Phases

variable {ι : Type} (lan : Lan ι)

/-- What the receiver makes of a datagram, if it does not drop it. -/
@[irreducible]
def Lan.accepted (host : ι) (data : List UInt8) : Option MdnsAnnouncement :=
  (parseMdnsResponse data).filter fun ann =>
    decide (ann.instanceId ≠ some (lan.hosts host).instId) && !ann.services.isEmpty

variable {lan} in
theorem Lan.accepted_eq_some_iff {host : ι} {data : List UInt8} {ann : MdnsAnnouncement} :
    lan.accepted host data = some ann ↔ parseMdnsResponse data = some ann ∧
      ann.instanceId ≠ some (lan.hosts host).instId ∧ ann.services ≠ [] := by
  rw [Lan.accepted, Option.filter_eq_some_iff]
  simp

/-- Where a task is in an announcement. -/
inductive LanPhase (ι : Type)
  | idle
  | listed (host : ι) (services : List (String × UInt16))
  | built (host : ι) (services : List (String × UInt16)) (ip : Ipv4Addr) (octets : List UInt8)
  | taking (host : ι) (data : List UInt8) (ann : MdnsAnnouncement)

namespace LanPhase

def next : LanPhase ι → (effect : LanEffect ι) → effect.Answer → LanPhase ι
  | idle, .listServices host, services => listed host services
  | listed host services, .readLanIp _, ip =>
    match lan.announcement host services ip with
    | .ok octets => built host services ip octets
    | .error _ => idle
  | idle, .recvFrom host, some data =>
    match lan.accepted host data with
    | some ann => taking host data ann
    | none => idle
  | _, _, _ => idle

def Allowed : LanPhase ι → LanEffect ι → Prop
  | idle, effect => (∀ host octets, effect ≠ .sendTo host octets) ∧
    ∀ host peerIp services, effect ≠ .updatePeers host peerIp services
  | listed host _, effect => effect = .readLanIp host
  | built host _ _ octets, effect => effect = .sendTo host octets
  | taking host _ ann, effect => effect = .updatePeers host ann.peerIp ann.services

end LanPhase

variable [DecidableEq ι]

def lanRules : TaskRules (LanEffect ι) LanEffect.Answer (LanState ι) (LanPhase ι) where
  happens := LanState.Happens lan
  allowed := LanPhase.Allowed
  next := LanPhase.next lan
  idle := .idle

namespace LanTask

/-- A program goes from idle to idle. -/
def StaysIdle (program : LanTask ι Unit) : Prop :=
  program.Obeys (lanRules lan).protocol (fun last _ => last = .idle) .idle

variable {lan}

theorem staysIdle_done : StaysIdle lan (done ()) :=
  rfl

/-- Other effects than those of an announcement leave a task idle. -/
theorem staysIdle_ask {effect : LanEffect ι} {rest : effect.Answer → LanTask ι Unit}
    (allowed : LanPhase.Allowed .idle effect)
    (plain : ∀ answer, LanPhase.next lan .idle effect answer = .idle)
    (idle : ∀ answer, StaysIdle lan (rest answer)) : StaysIdle lan (ask effect rest) := by
  refine ⟨allowed, ?_⟩
  rintro answer _ rfl
  change (rest answer).Obeys _ _ (LanPhase.next lan .idle effect answer)
  rw [plain answer]
  exact idle answer

theorem staysIdle_loop {body : Nat → LanTask ι Unit} (idle : ∀ tick, StaysIdle lan (body tick))
    (left tick : Nat) : StaysIdle lan (loop body left tick) := by
  induction left generalizing tick with
  | zero => exact staysIdle_done
  | succ left ih =>
      refine (idle (tick + 1)).bind ?_
      rintro _ _ rfl
      exact ih (tick + 1)

theorem staysIdle_announce (host : ι) : StaysIdle lan (announce lan host) := by
  refine ⟨⟨nofun, nofun⟩, ?_⟩
  rintro services _ rfl
  refine ⟨rfl, ?_⟩
  rintro ip _ rfl
  change Interaction.Obeys _ _ _ (match lan.announcement host services ip with
    | .ok octets => LanPhase.built host services ip octets
    | .error _ => .idle)
  dsimp only
  cases lan.announcement host services ip with
  | error error => exact staysIdle_done
  | ok octets =>
      refine ⟨rfl, ?_⟩
      rintro _ _ rfl
      rfl

omit [DecidableEq ι] in
/-- The receiver takes in what it accepts. -/
theorem takeIn_eq (host : ι) (data : List UInt8) :
    takeIn lan host data =
      match lan.accepted host data with
      | none => done ()
      | some ann =>
        ask (.updatePeers host ann.peerIp ann.services) fun changed =>
          if changed then ask (.regenerateTls host) fun _ => done () else done () := by
  rw [takeIn, Lan.accepted]
  cases parseMdnsResponse data with
  | none => rfl
  | some ann =>
      by_cases own : ann.instanceId = some (lan.hosts host).instId
      · simp [Option.filter, own]
      · by_cases empty : ann.services = []
        · simp [Option.filter, empty]
        · simp [Option.filter, own, empty]

theorem staysIdle_receive (host : ι) : StaysIdle lan (receive lan host) := by
  refine ⟨⟨nofun, nofun⟩, ?_⟩
  rintro (_ | data) _ rfl
  · rfl
  · change Interaction.Obeys _ _ (takeIn lan host data) (match lan.accepted host data with
      | some ann => LanPhase.taking host data ann
      | none => .idle)
    rw [takeIn_eq]
    cases lan.accepted host data with
    | none => exact staysIdle_done
    | some ann =>
        refine ⟨rfl, ?_⟩
        rintro (_ | _) _ rfl
        · rfl
        · exact staysIdle_ask ⟨nofun, nofun⟩ (fun _ => rfl) fun _ => staysIdle_done

theorem staysIdle_probeAtTick (host : ι) (tick : Nat) :
    StaysIdle lan (probeAtTick host tick) := by
  unfold probeAtTick
  split
  · exact staysIdle_ask ⟨nofun, nofun⟩ (fun _ => rfl) fun _ => staysIdle_done
  · exact staysIdle_done

theorem staysIdle_flushIfChanged (host : ι) (tick : Nat) (changed : Bool) :
    StaysIdle lan (flushIfChanged host tick changed) := by
  unfold flushIfChanged
  split
  · exact staysIdle_ask ⟨nofun, nofun⟩ (fun _ => rfl) fun _ => staysIdle_probeAtTick host tick
  · exact staysIdle_probeAtTick host tick

theorem staysIdle_detectUpstream (host : ι) (tick : Nat) (changed : Bool) :
    StaysIdle lan (detectUpstream lan host tick changed) := by
  unfold detectUpstream
  split
  · exact staysIdle_ask ⟨nofun, nofun⟩ (fun _ => rfl) fun _ =>
      staysIdle_flushIfChanged host tick _
  · exact staysIdle_flushIfChanged host tick changed

theorem staysIdle_watch (host : ι) (tick : Nat) : StaysIdle lan (watch lan host tick) := by
  refine staysIdle_ask ⟨nofun, nofun⟩ (fun _ => rfl) ?_
  rintro (_ | newIp)
  · exact staysIdle_detectUpstream host tick false
  · refine staysIdle_ask ⟨nofun, nofun⟩ (fun _ => rfl) ?_
    rintro (_ | _)
    · exact staysIdle_detectUpstream host tick false
    · exact staysIdle_ask ⟨nofun, nofun⟩ (fun _ => rfl) fun _ =>
        staysIdle_detectUpstream host tick true

theorem staysIdle_of_isTask {program : LanTask ι Unit} (isTask : IsTask lan program) :
    StaysIdle lan program := by
  cases isTask with
  | sender host left => exact staysIdle_loop (fun _ => staysIdle_announce host) left 0
  | receiver host left => exact staysIdle_loop (fun _ => staysIdle_receive host) left 0
  | watcher host left => exact staysIdle_loop (staysIdle_watch host) left 0
  | lookup | list | names | change | other =>
      exact staysIdle_ask ⟨nofun, nofun⟩ (fun _ => rfl) fun _ => staysIdle_done

end LanTask

end Phases

/-! ## What has happened -/

section Runs

variable {ι : Type} (lan : Lan ι)

/-- Where a datagram comes from, the last first: others have sent it, or a host
has listed its services, read its address and sent it. -/
inductive Lan.Origin (octets : List UInt8) : List (LanEvent ι) → Prop
  | other (sent : Nat) : Lan.Origin octets [⟨sent, .transmit octets, ()⟩]
  | host {sender : ι} {services : List (String × UInt16)} {ip : Ipv4Addr} (sent read listed : Nat)
      (built : lan.announcement sender services ip = .ok octets) :
      Lan.Origin octets [⟨sent, .sendTo sender octets, ()⟩, ⟨read, .readLanIp sender, ip⟩,
        ⟨listed, .listServices sender, services⟩]

/-- A host has received the octets of a datagram. -/
def Lan.Heard (log : List (LanEvent ι)) (host : ι) (data : List UInt8) : Prop :=
  ∃ received datagram trail, lan.Origin datagram trail ∧ data = datagram.take 4096 ∧
    (⟨received, .recvFrom host, some data⟩ :: trail) <+ log

/-- What a phase rests on. -/
def LanPhase.Backed (log : List (LanEvent ι)) : LanPhase ι → Prop
  | idle => True
  | listed host services => ∃ listed, [⟨listed, .listServices host, services⟩] <+ log
  | built host services ip octets => lan.announcement host services ip = .ok octets ∧
    ∃ read listed, [⟨read, .readLanIp host, ip⟩, ⟨listed, .listServices host, services⟩] <+ log
  | taking host data ann => lan.accepted host data = some ann ∧ lan.Heard log host data

variable [DecidableEq ι]

/-- What an event tells the peers of a host. -/
def LanEvent.news (host : ι) (event : LanEvent ι) : Option (News Text (IpAddr × UInt16 × Nat)) :=
  match event.effect with
  | .updatePeers peer ip services =>
    if peer = host then some (.heard (heardEntries lan.toLowercase event.time ip services))
    else none
  | .clearPeers peer => if peer = host then some .cleared else none
  | _ => none

/-- Every datagram has an origin, and what the hosts know of their peers follows
from the datagrams they have received. -/
structure LanState.Sound (state : LanState ι) (phases : Nat → LanPhase ι) : Prop where
  air : ∀ datagram ∈ state.air, ∃ trail, lan.Origin datagram trail ∧ trail <+ state.log
  backed : ∀ id, (phases id).Backed lan state.log
  timeouts : ∀ host, (state.peers host).timeout = (lan.hosts host).peerTimeout
  knows : ∀ host, (state.peers host).Knows state.now (state.log.filterMap (LanEvent.news lan host))
  taken : ∀ {after event before host ip services}, state.log = after ++ event :: before →
    event.effect = .updatePeers host ip services →
      ∃ data ann, lan.accepted host data = some ann ∧ ann.peerIp = ip ∧ ann.services = services ∧
        lan.Heard before host data
  caught : ∀ {after received host data before ann},
    state.log = after ++ ⟨received, .recvFrom host, some data⟩ :: before →
      lan.accepted host data = some ann →
        (∃ id, phases id = .taking host data ann) ∨
          ∃ event ∈ after, event.effect = .updatePeers host ann.peerIp ann.services
  past : ∀ event ∈ state.log, event.time ≤ state.now
  ordered : state.log.Pairwise fun later earlier => earlier.time ≤ later.time

variable {lan}

omit [DecidableEq ι] in
theorem LanPhase.Backed.cons {log : List (LanEvent ι)} {phase : LanPhase ι}
    (backed : phase.Backed lan log) (event : LanEvent ι) : phase.Backed lan (event :: log) := by
  cases phase with
  | idle => trivial
  | listed host services =>
      obtain ⟨listed, isSublist⟩ := backed
      exact ⟨listed, isSublist.cons event⟩
  | built host services ip octets =>
      obtain ⟨isBuilt, read, listed, isSublist⟩ := backed
      exact ⟨isBuilt, read, listed, isSublist.cons event⟩
  | taking host data ann =>
      obtain ⟨accepted, received, datagram, trail, origin, cut, isSublist⟩ := backed
      exact ⟨accepted, received, datagram, trail, origin, cut, isSublist.cons event⟩

section Step

variable {state : LanState ι} {phases : Nat → LanPhase ι} {id : Nat} {effect : LanEffect ι}
  {answer : effect.Answer} {now : Nat}

theorem LanState.Sound.air_apply (sound : state.Sound lan phases)
    (allowed : (phases id).Allowed effect) :
    ∀ datagram ∈ (state.apply lan now effect).air,
      ∃ trail, lan.Origin datagram trail ∧ trail <+ ⟨now, effect, answer⟩ :: state.log := by
  intro datagram mem
  have old : datagram ∈ state.air →
      ∃ trail, lan.Origin datagram trail ∧ trail <+ ⟨now, effect, answer⟩ :: state.log := by
    intro sent
    obtain ⟨trail, origin, isSublist⟩ := sound.air datagram sent
    exact ⟨trail, origin, isSublist.cons _⟩
  cases effect with
  | sendTo host octets =>
      rcases List.mem_cons.mp mem with rfl | sent
      · have backed := sound.backed id
        cases phase : phases id with
        | idle =>
            rw [phase] at allowed
            exact absurd rfl (allowed.1 host datagram)
        | built sender services ip octets =>
            rw [phase] at allowed backed
            cases allowed
            obtain ⟨isBuilt, read, listed, isSublist⟩ := backed
            exact ⟨_, .host now read listed isBuilt, isSublist.cons_cons _⟩
        | listed | taking =>
            rw [phase] at allowed
            cases allowed
      · exact old sent
  | transmit octets =>
      rcases List.mem_cons.mp mem with rfl | sent
      · exact ⟨_, .other now, (List.nil_sublist _).cons_cons _⟩
      · exact old sent
  | _ => exact old mem

theorem LanState.Sound.backed_next (sound : state.Sound lan phases)
    (allowed : (phases id).Allowed effect) (gives : state.Gives lan now effect answer) :
    (LanPhase.next lan (phases id) effect answer).Backed lan
      (⟨now, effect, answer⟩ :: state.log) := by
  have backed := sound.backed id
  cases phase : phases id with
  | idle =>
      cases effect with
      | listServices host => exact ⟨now, (List.nil_sublist _).cons_cons _⟩
      | recvFrom host =>
          cases answer with
          | none => trivial
          | some data =>
              obtain ⟨datagram, sent, cut⟩ := gives data rfl
              obtain ⟨trail, origin, isSublist⟩ := sound.air datagram sent
              rw [LanPhase.next]
              split
              · exact ⟨‹_›, now, datagram, trail, origin, cut, isSublist.cons_cons _⟩
              · trivial
      | _ => trivial
  | listed host services =>
      rw [phase] at allowed backed
      cases allowed
      obtain ⟨listed, isSublist⟩ := backed
      rw [LanPhase.next]
      split
      · exact ⟨‹_›, now, listed, isSublist.cons_cons _⟩
      · trivial
  | built | taking =>
      rw [phase] at allowed
      cases allowed
      trivial

theorem LanState.Sound.timeouts_apply (sound : state.Sound lan phases) (host : ι) :
    ((state.apply lan now effect).peers host).timeout = (lan.hosts host).peerTimeout := by
  have kept : ∀ (peer : ι) (store : PeerStore), store.timeout = (state.peers peer).timeout →
      ((state.withPeers peer store).peers host).timeout = (lan.hosts host).peerTimeout := by
    intro peer store same
    rw [LanState.peers_withPeers]
    split_ifs with isPeer
    · rw [same, isPeer, sound.timeouts]
    · exact sound.timeouts host
  cases effect with
  | updatePeers peer ip services => exact kept peer _ (by rw [PeerStore.update_eq])
  | clearPeers peer => exact kept peer _ rfl
  | lookupPeer peer name => exact kept peer _ PeerStore.timeout_lookup
  | listPeers peer => exact kept peer _ rfl
  | peerNames peer => exact kept peer _ rfl
  | _ => exact sound.timeouts host

theorem LanState.Sound.knows_apply (sound : state.Sound lan phases) (order : state.now ≤ now)
    (host : ι) :
    ((state.apply lan now effect).peers host).Knows now
      ((⟨now, effect, answer⟩ :: state.log).filterMap (LanEvent.news lan host)) := by
  have before := (sound.knows host).later order
  have silent : LanEvent.news lan host ⟨now, effect, answer⟩ = none →
      ∀ {store : PeerStore}, store.Knows now (state.log.filterMap (LanEvent.news lan host)) →
      store.Knows now
        ((⟨now, effect, answer⟩ :: state.log).filterMap (LanEvent.news lan host)) := by
    intro isSilent store knows
    rwa [List.filterMap_cons_none isSilent]
  -- A store that follows the same news takes the place of one.
  have replaced : LanEvent.news lan host ⟨now, effect, answer⟩ = none →
      ∀ (peer : ι) (store : PeerStore),
      (peer = host → store.Knows now (state.log.filterMap (LanEvent.news lan host))) →
      ((state.withPeers peer store).peers host).Knows now
        ((⟨now, effect, answer⟩ :: state.log).filterMap (LanEvent.news lan host)) := by
    intro isSilent peer store knows
    refine silent isSilent ?_
    rw [LanState.peers_withPeers]
    split_ifs with isPeer
    · exact knows isPeer.symm
    · exact before
  cases effect with
  | updatePeers peer ip services =>
      by_cases same : peer = host
      · subst same
        have heard : LanEvent.news lan peer ⟨now, .updatePeers peer ip services, answer⟩ =
            some (.heard (heardEntries lan.toLowercase now ip services)) := if_pos rfl
        rw [List.filterMap_cons_some heard]
        change (Function.update state.peers peer _ peer).Knows _ _
        rw [Function.update_self]
        exact before.update ip services
      · exact replaced (if_neg same) peer _ fun isPeer => absurd isPeer same
  | clearPeers peer =>
      by_cases same : peer = host
      · subst same
        have cleared : LanEvent.news lan peer ⟨now, .clearPeers peer, answer⟩ = some .cleared :=
          if_pos rfl
        rw [List.filterMap_cons_some cleared]
        change (Function.update state.peers peer _ peer).Knows _ _
        rw [Function.update_self]
        exact .clear
      · exact replaced (if_neg same) peer _ fun isPeer => absurd isPeer same
  | lookupPeer peer name =>
      refine replaced rfl peer _ fun isPeer => ?_
      subst isPeer
      exact before.lookup name
  | listPeers peer => exact replaced rfl peer _ fun isPeer => isPeer ▸ before.retainFresh
  | peerNames peer => exact replaced rfl peer _ fun isPeer => isPeer ▸ before.retainFresh
  | _ => exact silent rfl before

theorem LanState.Sound.taken_cons (sound : state.Sound lan phases)
    (allowed : (phases id).Allowed effect) {after before : List (LanEvent ι)} {event : LanEvent ι}
    {host : ι} {ip : IpAddr} {services : List (String × UInt16)}
    (logEq : ⟨now, effect, answer⟩ :: state.log = after ++ event :: before)
    (isUpdate : event.effect = .updatePeers host ip services) :
    ∃ data ann, lan.accepted host data = some ann ∧ ann.peerIp = ip ∧ ann.services = services ∧
      lan.Heard before host data := by
  cases after with
  | nil =>
      obtain ⟨rfl, rfl⟩ := List.cons_eq_cons.mp logEq
      dsimp only at isUpdate
      subst isUpdate
      have backed := sound.backed id
      cases phase : phases id with
      | idle =>
          rw [phase] at allowed
          exact absurd rfl (allowed.2 host ip services)
      | taking peer data ann =>
          rw [phase] at allowed backed
          cases allowed
          exact ⟨data, ann, backed.1, rfl, rfl, backed.2⟩
      | listed | built =>
          rw [phase] at allowed
          cases allowed
  | cons _ after => exact sound.taken (List.cons_eq_cons.mp logEq).2 isUpdate

theorem LanState.Sound.caught_cons (sound : state.Sound lan phases)
    (allowed : (phases id).Allowed effect) {after before : List (LanEvent ι)} {received : Nat}
    {host : ι} {data : List UInt8} {ann : MdnsAnnouncement}
    (logEq : ⟨now, effect, answer⟩ :: state.log =
      after ++ ⟨received, .recvFrom host, some data⟩ :: before)
    (accepted : lan.accepted host data = some ann) :
    (∃ other, Function.update phases id (LanPhase.next lan (phases id) effect answer) other =
        .taking host data ann) ∨
      ∃ event ∈ after, event.effect = .updatePeers host ann.peerIp ann.services := by
  cases after with
  | nil =>
      obtain ⟨isEvent, rfl⟩ := List.cons_eq_cons.mp logEq
      cases isEvent
      refine .inl ⟨id, ?_⟩
      rw [Function.update_self]
      cases phase : phases id with
      | idle => rw [LanPhase.next, accepted]
      | listed | built | taking =>
          rw [phase] at allowed
          cases allowed
  | cons first after =>
      obtain ⟨isEvent, logEq⟩ := List.cons_eq_cons.mp logEq
      rcases sound.caught logEq accepted with ⟨other, isTaking⟩ | ⟨event, eventMem, isUpdate⟩
      · by_cases same : other = id
        · subst same
          rw [isTaking] at allowed
          exact .inr ⟨first, List.mem_cons_self, isEvent ▸ allowed⟩
        · exact .inl ⟨other, by rwa [Function.update_of_ne same]⟩
      · exact .inr ⟨event, List.mem_cons_of_mem _ eventMem, isUpdate⟩

end Step

theorem LanState.keeps_sound : (lanRules lan).Keeps (LanState.Sound lan) := by
  intro state phases id effect answer after sound allowed happens
  change (phases id).Allowed effect at allowed
  obtain ⟨now, order, gives, rfl⟩ := happens
  refine ⟨sound.air_apply allowed, fun other => ?_, sound.timeouts_apply,
    sound.knows_apply order, fun logEq isUpdate => sound.taken_cons allowed logEq isUpdate,
    fun logEq accepted => sound.caught_cons allowed logEq accepted, ?_, ?_⟩
  · change (Function.update phases id (LanPhase.next lan (phases id) effect answer) other).Backed
      _ _
    rw [Function.update_apply]
    split_ifs
    · exact sound.backed_next allowed gives
    · exact (sound.backed other).cons _
  · exact List.forall_mem_cons.mpr
      ⟨le_rfl, fun event eventMem => (sound.past event eventMem).trans order⟩
  · exact List.pairwise_cons.mpr
      ⟨fun event eventMem => (sound.past event eventMem).trans order, sound.ordered⟩

theorem LanState.sound_init (start : Nat) (services : ι → List (String × UInt16)) (lanIp : ι → Ipv4Addr) :
    (LanState.init lan start services lanIp).Sound lan fun _ => .idle where
  air := nofun
  backed _ := trivial
  timeouts _ := rfl
  knows _ := ⟨.nil, nofun⟩
  taken logEq := by simp [LanState.init] at logEq
  caught logEq := by simp [LanState.init] at logEq
  past := nofun
  ordered := .nil

end Runs

/-! ## Lookups -/

section Lookups

variable {ι : Type} (lan : Lan ι)

theorem length_le_of_announcement {lan : Lan ι} {host : ι} {services : List (String × UInt16)}
    {ip : Ipv4Addr} {octets : List UInt8}
    (built : lan.announcement host services ip = .ok octets) : octets.length ≤ 4096 := by
  rw [Lan.announcement, buildAnnouncement] at built
  split at built
  · cases built
    rw [BytePacketBuffer.filled, List.length_take, BytePacketBuffer.size_eq]
    exact min_le_right _ _
  · cases built

variable [DecidableEq ι]

/-- The event leaves what a host knows of a name. -/
def LanEvent.Leaves (host : ι) (key : Text) (event : LanEvent ι) : Prop :=
  ∀ item, event.news lan host = some item → item.Silent key

/-- What a host was told last of a name, and when: it had received a datagram
that says so, and took it in. -/
structure Lan.Told (log : List (LanEvent ι)) (host : ι) (key : Text) (seen : Nat) (ip : IpAddr)
    (port : UInt16) (announced : List (String × UInt16)) (datagram : List UInt8) : Prop where
  accepted : ∃ ann, lan.accepted host (datagram.take 4096) = some ann ∧ ann.peerIp = ip ∧
    ann.services = announced
  named : ∃ service ∈ announced, lan.toLowercase (text service.1) = key ∧ service.2 = port
  last : ∃ after changed before received trail,
    log = after ++ ⟨seen, .updatePeers host ip announced, changed⟩ :: before ∧
      (∀ event ∈ after, event.Leaves lan host key) ∧ lan.Origin datagram trail ∧
      (⟨received, .recvFrom host, some (datagram.take 4096)⟩ :: trail) <+ before

variable {lan} {start : Nat} {services : ι → List (String × UInt16)} {lanIp : ι → Ipv4Addr}
  {crew : Crew (LanEffect ι) LanEffect.Answer (LanState ι) (LanPhase ι)}

theorem sound_of_run
    (run : Relation.ReflTransGen ((lanRules lan).Step (LanTask.IsTask lan))
      ((lanRules lan).init (.init lan start services lanIp)) crew) :
    crew.shared.Sound lan crew.phases :=
  TaskRules.holds_of_run LanState.keeps_sound (fun _ => LanTask.staysIdle_of_isTask)
    (LanState.sound_init start services lanIp) run

theorem news_eq_heard {host : ι} {event : LanEvent ι}
    {entries : List (Text × IpAddr × UInt16 × Nat)}
    (isHeard : event.news lan host = some (.heard entries)) :
    ∃ ip announced, event.effect = .updatePeers host ip announced ∧
      entries = heardEntries lan.toLowercase event.time ip announced := by
  unfold LanEvent.news at isHeard
  split at isHeard
  · split_ifs at isHeard with same
    cases isHeard
    subst same
    exact ⟨_, _, ‹_›, rfl⟩
  · split_ifs at isHeard
    cases isHeard
  · cases isHeard

theorem news_eq_cleared {host : ι} {event : LanEvent ι}
    (isCleared : event.news lan host = some .cleared) : event.effect = .clearPeers host := by
  unfold LanEvent.news at isCleared
  split at isCleared
  · split_ifs at isCleared
    cases isCleared
  · split_ifs at isCleared with same
    exact same ▸ ‹_›
  · cases isCleared

theorem mem_heardEntries {toLowercase : Text → Text} {time seen : Nat} {host ip : IpAddr}
    {announced : List (String × UInt16)} {key : Text} {port : UInt16}
    (last : lastOf (heardEntries toLowercase time host announced) key = some (ip, port, seen)) :
    ip = host ∧ seen = time ∧
      ∃ service ∈ announced, toLowercase (text service.1) = key ∧ service.2 = port := by
  obtain ⟨service, mem, isEntry⟩ := List.mem_map.mp (mem_of_lastOf last)
  cases isEntry
  exact ⟨rfl, rfl, service, mem, rfl, rfl⟩

theorem told_of_lastNews {state : LanState ι} {phases : Nat → LanPhase ι}
    (sound : state.Sound lan phases) {host : ι} {key : Text} {ip : IpAddr} {port : UInt16}
    {seen : Nat}
    (last : lastNews (state.log.filterMap (LanEvent.news lan host)) key = some (ip, port, seen)) :
    ∃ announced datagram, lan.Told state.log host key seen ip port announced datagram := by
  obtain ⟨later, entries, earlier, newsEq, lastEntry, silent⟩ := lastNews_eq_some_iff.mp last
  obtain ⟨front, rest, logEq, frontEq, restEq⟩ := List.filterMap_eq_append_iff.mp newsEq
  obtain ⟨skipped, event, before, rfl, noNews, isHeard, -⟩ := List.filterMap_eq_cons_iff.mp restEq
  obtain ⟨address, announced, isUpdate, rfl⟩ := news_eq_heard isHeard
  obtain ⟨rfl, rfl, named⟩ := mem_heardEntries lastEntry
  have logParts : state.log = (front ++ skipped) ++ event :: before := by
    rw [logEq, List.append_assoc]
  obtain ⟨data, ann, accepted, isIp, isAnnounced, received, datagram, trail, origin, cut, heard⟩ :=
    sound.taken logParts isUpdate
  obtain ⟨time, effect, changed⟩ := event
  dsimp only at isUpdate
  subst isUpdate
  subst cut
  refine ⟨announced, datagram, ⟨ann, accepted, isIp, isAnnounced⟩, named, front ++ skipped, changed,
    before, received, trail, logParts, ?_, origin, heard⟩
  intro other otherMem item isNews
  rcases List.mem_append.mp otherMem with inFront | inSkipped
  · exact silent item (frontEq ▸ List.mem_filterMap.mpr ⟨other, inFront, isNews⟩)
  · rw [noNews other inSkipped] at isNews
    cases isNews

/-- In every interleaving on every network, a lookup finds what the host was
told last of the name, within the timeout.  If a host sent that, it is another
one, and the address is its own; what it announces in one string is what is
told. -/
theorem lookupPeer_of_run
    (run : Relation.ReflTransGen ((lanRules lan).Step (LanTask.IsTask lan))
      ((lanRules lan).init (.init lan start services lanIp)) crew)
    {host : ι} {asked : Text} {ip : IpAddr} {port : UInt16} {now : Nat}
    (later : crew.shared.now ≤ now)
    (found : ((crew.shared.peers host).lookup lan.toLowercase now asked).1 = some (ip, port)) :
    ∃ seen announced datagram,
      lan.Told crew.shared.log host (lan.toLowercase asked) seen ip port announced datagram ∧
      now ≤ seen + (lan.hosts host).peerTimeout ∧
      ∀ sender offered address, lan.announcement sender offered address = .ok datagram →
        sender ≠ host ∧ ip = .v4 address ∧ (Announceable offered → announced = offered) := by
  have sound := sound_of_run run
  obtain ⟨seen, isHeld, inTime⟩ := PeerStore.lookup_eq_some_iff.mp found
  obtain ⟨announced, datagram, told⟩ :=
    told_of_lastNews sound ((sound.knows host).later later |>.remembers.known isHeld)
  refine ⟨seen, announced, datagram, told, sound.timeouts host ▸ inTime, ?_⟩
  intro sender offered address built
  obtain ⟨ann, accepted, rfl, rfl⟩ := told.accepted
  rw [List.take_of_length_le (length_le_of_announcement built)] at accepted
  obtain ⟨parsed, notOwn, -⟩ := Lan.accepted_eq_some_iff.mp accepted
  obtain ⟨isId, isAddress⟩ := Lan.instanceId_of_announcement built parsed
  refine ⟨?_, isAddress, fun announceable => ?_⟩
  · rintro rfl
    exact notOwn isId
  · rw [Lan.parse_announcement built announceable] at parsed
    cases parsed
    rfl

/-- Once a host has taken in what it received of another one, it finds every
service announced there, until the timeout or until it clears its peers. -/
theorem isSome_lookupPeer_of_run
    (run : Relation.ReflTransGen ((lanRules lan).Step (LanTask.IsTask lan))
      ((lanRules lan).init (.init lan start services lanIp)) crew)
    {host sender : ι} {after before : List (LanEvent ι)} {received : Nat} {octets : List UInt8}
    {offered : List (String × UInt16)} {address : Ipv4Addr}
    (logEq : crew.shared.log = after ++ ⟨received, .recvFrom host, some octets⟩ :: before)
    (built : lan.announcement sender offered address = .ok octets)
    (announceable : Announceable offered) (other : sender ≠ host)
    (settled : ∀ id, crew.phases id = .idle)
    (kept : ∀ event ∈ after, event.effect ≠ .clearPeers host)
    {service : String × UInt16} (mem : service ∈ offered) {asked : Text} {now : Nat}
    (sameName : lan.toLowercase (text service.1) = lan.toLowercase asked)
    (later : crew.shared.now ≤ now) (fresh : now < received + (lan.hosts host).peerTimeout) :
    ((crew.shared.peers host).lookup lan.toLowercase now asked).1.isSome = true := by
  have sound := sound_of_run run
  have accepted : lan.accepted host octets =
      some ⟨offered, .v4 address, some (lan.hosts sender).instId⟩ :=
    Lan.accepted_eq_some_iff.mpr ⟨Lan.parse_announcement built announceable,
      fun same => other (lan.distinct _ _ (Option.some.inj same)), announceable.nonempty⟩
  rcases sound.caught logEq accepted with ⟨id, isTaking⟩ | ⟨event, eventMem, isUpdate⟩
  · rw [settled id] at isTaking
    cases isTaking
  have heard : ∃ item ∈ after.filterMap (LanEvent.news lan host),
      ¬ item.Silent (lan.toLowercase asked) := by
    refine ⟨.heard (heardEntries lan.toLowercase event.time (.v4 address) offered),
      List.mem_filterMap.mpr ⟨event, eventMem, ?_⟩, fun silent => ?_⟩
    · rw [LanEvent.news, isUpdate]
      exact if_pos rfl
    · exact lastOf_eq_none_iff.mp silent _ (List.mem_map.mpr ⟨service, mem, rfl⟩) sameName
  have notCleared : ∀ item ∈ after.filterMap (LanEvent.news lan host), item ≠ .cleared := by
    rintro _ itemMem rfl
    obtain ⟨clearing, clearingMem, isNews⟩ := List.mem_filterMap.mp itemMem
    exact kept clearing clearingMem (news_eq_cleared isNews)
  obtain ⟨entries, ⟨ip, port, seen⟩, entriesMem, lastEntry, isLast⟩ :=
    exists_lastNews_append ((_ :: before).filterMap (LanEvent.news lan host)) heard notCleared
  obtain ⟨update, updateMem, isNews⟩ := List.mem_filterMap.mp entriesMem
  obtain ⟨_, _, -, rfl⟩ := news_eq_heard isNews
  obtain ⟨rfl, rfl, -⟩ := mem_heardEntries lastEntry
  have order : received ≤ update.time := by
    have ordered := sound.ordered
    rw [logEq] at ordered
    exact (List.pairwise_append.mp ordered).2.2 update updateMem _ List.mem_cons_self
  have knows := (sound.knows host).later later
  rw [logEq, List.filterMap_append] at knows
  have timeout := sound.timeouts host
  have isHeld := knows.remembers.kept isLast (by dsimp only; omega)
  exact Option.isSome_iff_exists.mpr
    ⟨_, PeerStore.lookup_eq_some_iff.mpr ⟨_, isHeld, by omega⟩⟩

end Lookups

/-! ## Two hosts on a network -/

section TwoHosts

/-- A datagram that others send is taken in. -/
theorem exists_run_takeIn {ι : Type} [DecidableEq ι] {lan : Lan ι} {host : ι} {data : List UInt8}
    {ann : MdnsAnnouncement} (accepted : lan.accepted host data = some ann)
    (short : data.length ≤ 4096) (services : ι → List (String × UInt16)) (lanIp : ι → Ipv4Addr) :
    ∃ crew, Relation.ReflTransGen ((lanRules lan).Step (LanTask.IsTask lan))
        ((lanRules lan).init (.init lan 0 services lanIp)) crew ∧
      crew.shared.now = 0 ∧ (∀ id, crew.phases id = .idle) ∧
      (∃ changed, crew.shared.log =
        [⟨0, .updatePeers host ann.peerIp ann.services, changed⟩, ⟨0, .recvFrom host, some data⟩,
          ⟨0, .transmit data, ()⟩]) ∧
      crew.shared.peers host = (PeerStore.update lan.toLowercase
        ⟨∅, (lan.hosts host).peerTimeout⟩ 0 ann.peerIp ann.services).2 := by
  have sends : (lanRules lan).Step (LanTask.IsTask lan)
      ((lanRules lan).init (.init lan 0 services lanIp)) _ :=
    .start 0 rfl (.other data)
  have sent := (Relation.ReflTransGen.single sends).tail
    (@TaskRules.Step.run _ _ _ _ _ _ _ 0 _ _ () _ rfl ⟨0, le_rfl, trivial, rfl⟩)
  have listens := sent.tail (.start 1 rfl (.receiver host 1))
  have received := listens.tail
    (@TaskRules.Step.run _ _ _ _ _ _ _ 1 _ _ (some data) _ rfl
      ⟨0, le_rfl, by
        rintro _ ⟨⟩
        exact ⟨data, List.mem_cons_self, (List.take_of_length_le short).symm⟩, rfl⟩)
  have taken := received.tail
    (@TaskRules.Step.run _ _ _ _ _ _ _ 1 (LanEffect.updatePeers host ann.peerIp ann.services)
      (fun changed => (if changed then ask (.regenerateTls host) fun _ => done () else done ()) >>=
        fun _ => LanTask.loop (fun _ => LanTask.receive lan host) 0 1)
      (PeerStore.update lan.toLowercase ⟨∅, (lan.hosts host).peerTimeout⟩ 0 ann.peerIp
        ann.services).1 _
      (by
        change some (LanTask.takeIn lan host data >>= fun _ =>
          LanTask.loop (fun _ => LanTask.receive lan host) 0 1) = _
        rw [LanTask.takeIn_eq, accepted]
        rfl)
      ⟨0, le_rfl, rfl, rfl⟩)
  have idle : ∀ phase changed,
      LanPhase.next lan phase (.updatePeers host ann.peerIp ann.services) changed = .idle := by
    intro phase changed
    cases phase <;> rfl
  refine ⟨_, taken, rfl, fun id => ?_, ⟨_, rfl⟩, Function.update_self ..⟩
  simp only [Crew.set, Function.update_apply]
  split_ifs
  · exact idle _ _
  · exact idle _ _
  · rfl
  · rfl

/-- A host that has an instance ID only. -/
def plainLanHost (instId : String) (shortId : (text (txtId ++ instId)).length ≤ 255) : LanHost where
  hostname := "macbook"
  instId := instId
  health := plainHealth
  peerTimeout := fromSecs 90
  upstreamAuto := false
  shortId := shortId
  shortMeta := by decide +kernel

def twoHosts : Lan Bool where
  hosts
    | true => plainLanHost "17:4" (by decide +kernel)
    | false => plainLanHost "18:5" (by decide +kernel)
  distinct := by
    rintro (_ | _) (_ | _) <;> simp [plainLanHost]
  toLowercase := id

theorem announceable_oneService : Announceable oneService where
  nonempty := by decide
  plain := by decide
  short := by decide +kernel

theorem exists_announcement_oneService :
    ∃ data, twoHosts.announcement true oneService (.new 192 168 1 2) = .ok data := by
  simp only [Lan.announcement]
  exact exists_built [text "macbook", text "_numa", text "_tcp", text "local"]
    [text "macbook", text "local"] (by decide +kernel) (by decide +kernel) (by decide +kernel) _

theorem accepted_oneService {data : List UInt8}
    (built : twoHosts.announcement true oneService (.new 192 168 1 2) = .ok data) :
    twoHosts.accepted false data = some ⟨oneService, .v4 (.new 192 168 1 2), some "17:4"⟩ :=
  Lan.accepted_eq_some_iff.mpr
    ⟨Lan.parse_announcement built announceable_oneService, by decide, by decide⟩

theorem lookupPeer_of_run_twoHosts :
    ∃ crew : Crew (LanEffect Bool) LanEffect.Answer (LanState Bool) (LanPhase Bool),
      Relation.ReflTransGen ((lanRules twoHosts).Step (LanTask.IsTask twoHosts))
        ((lanRules twoHosts).init
          (.init twoHosts 0 (fun _ => oneService) fun _ => .new 192 168 1 2)) crew ∧
      ∃ seen announced datagram, twoHosts.Told crew.shared.log false (text "web") seen
        (.v4 (.new 192 168 1 2)) 8080 announced datagram := by
  obtain ⟨data, built⟩ := exists_announcement_oneService
  obtain ⟨crew, run, now, -, -, peers⟩ := exists_run_takeIn (accepted_oneService built)
    (length_le_of_announcement built) (fun _ => oneService) fun _ => .new 192 168 1 2
  have found : ((crew.shared.peers false).lookup twoHosts.toLowercase 0 (text "web")).1 =
      some (.v4 (.new 192 168 1 2), 8080) := by
    rw [peers]
    decide +kernel
  obtain ⟨seen, announced, datagram, told, -⟩ := lookupPeer_of_run run now.le found
  exact ⟨crew, run, seen, announced, datagram, told⟩

theorem isSome_lookupPeer_of_run_twoHosts :
    ∃ crew : Crew (LanEffect Bool) LanEffect.Answer (LanState Bool) (LanPhase Bool),
      Relation.ReflTransGen ((lanRules twoHosts).Step (LanTask.IsTask twoHosts))
        ((lanRules twoHosts).init
          (.init twoHosts 0 (fun _ => oneService) fun _ => .new 192 168 1 2)) crew ∧
      ((crew.shared.peers false).lookup twoHosts.toLowercase 0 (text "web")).1.isSome = true := by
  obtain ⟨data, built⟩ := exists_announcement_oneService
  obtain ⟨crew, run, now, settled, ⟨changed, logEq⟩, -⟩ :=
    exists_run_takeIn (accepted_oneService built) (length_le_of_announcement built)
      (fun _ => oneService) fun _ => .new 192 168 1 2
  have kept : ∀ event ∈ [(⟨0, .updatePeers false (.v4 (.new 192 168 1 2)) oneService, changed⟩ :
      LanEvent Bool)], event.effect ≠ .clearPeers false := by
    rintro event mem
    rw [List.mem_singleton.mp mem]
    exact nofun
  exact ⟨crew, run, isSome_lookupPeer_of_run run logEq built announceable_oneService (by decide)
    settled kept (List.mem_singleton_self _) rfl now.le (by decide +kernel)⟩

end TwoHosts

end Numa
