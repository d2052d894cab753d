import Numa.Calls
import Numa.Recursive

/-!
# The recursion of iterative resolution

`resolve_iterative` once more, by its depth counters: its body calls itself for
the target of a CNAME and for nameservers without glue, and a round of its loop
goes on to the next one.  Every call is below the call it is made in.
-/

namespace Numa

open Interaction

/-- A call of `resolve_iterative`, or a round of its loop. -/
inductive ResolverPoint
  | entry (caller : Caller)
  /-- With the rounds left, this one included. -/
  | round (rounds : Nat) (currentZone : Text) (nsAddrs : List SocketAddr) (nsIdx : Nat)

structure ResolverCall where
  referralDepth : Nat
  cnameDepth : Nat
  qname : Text
  qtype : QueryType
  point : ResolverPoint

abbrev CallingResolver (α : Type) :=
  Calling ResolverCall (Except ResolveError DnsPacket) Effect.Answer α

section Body

variable (env : ResolverEnv) (site : ResolverCall)

def plain {α : Type} (action : Resolver α) : CallingResolver α :=
  action.lift ResolverCall (Except ResolveError DnsPacket)

/-- The next round of the loop. -/
def nextRound (rounds : Nat) (currentZone : Text) (nsAddrs : List SocketAddr) (nsIdx : Nat) :
    CallingResolver (Except ResolveError DnsPacket) :=
  call Effect.Answer { site with point := .round rounds currentZone nsAddrs nsIdx }

/-- The loop over the types of addresses of a nameserver. -/
def callNsTypes (nsName : Text) : List QueryType → CallingResolver (List SocketAddr)
  | [] => pure []
  | qt :: qts => do
    match ← call Effect.Answer (R := Except ResolveError DnsPacket)
        ⟨site.referralDepth + 1, site.cnameDepth, nsName, qt, .entry .nameserver⟩ with
    | .ok nsResp =>
      let addrs := nsResp.answers.filterMap recordToAddr
      if addrs = [] then callNsTypes nsName qts else pure addrs
    | .error _ => callNsTypes nsName qts

def callNsName (nsName : Text) : CallingResolver (List SocketAddr) :=
  if site.referralDepth < maxReferralDepth then callNsTypes site nsName [.a, .aaaa] else pure []

/-- The loop over the nameservers without glue. -/
def callNsNames : List Text → CallingResolver (List SocketAddr)
  | [] => pure []
  | nsName :: nsNames => do
    let addrs ← callNsName site nsName
    if addrs = [] then callNsNames nsNames else pure addrs

/-- The addresses to go on with after a referral. -/
def callReferralAddrs (response : DnsPacket) (nsNames : List Text) :
    CallingResolver (List SocketAddr) := do
  let glueAddrs ← plain (resolveNsAddrsFromGlue env response nsNames)
  if glueAddrs = [] then callNsNames site nsNames else pure glueAddrs

/-- The answer to a minimized query. -/
def roundMinimized (rounds : Nat) (currentZone : Text) (nsAddrs : List SocketAddr) (nsIdx : Nat)
    (response : DnsPacket) : CallingResolver (Except ResolveError DnsPacket) := do
  let currentZone ← plain (enterZone env currentZone response)
  let answerNs := extractNsFromRecords response.answers
  let allNs := if answerNs = [] then extractNsNames response else answerNs
  let newAddrs ← plain (resolveNsAddrsFromGlue env response allNs)
  if newAddrs = [] then nextRound site rounds currentZone nsAddrs (nsIdx + 1)
  else do
    let sorted ← plain (Resolver.sortByUdpRtt newAddrs)
    nextRound site rounds currentZone sorted 0

/-- A response with answers. -/
def roundAnswers (response : DnsPacket) : CallingResolver (Except ResolveError DnsPacket) :=
  if response.answers.any (fun record => record.queryType == site.qtype) || site.qtype == .cname then
    plain (keepResponse env site.qname site.qtype response)
  else
    match extractCnameTarget response site.qname with
    | some cnameTarget =>
      if maxCnameDepth ≤ site.cnameDepth then pure (.error .maxCnameDepthExceeded)
      else do
        match ← call Effect.Answer (R := Except ResolveError DnsPacket)
            ⟨0, site.cnameDepth + 1, cnameTarget, site.qtype, .entry .cnameChase⟩ with
        | .ok finalResp =>
          plain (keepResponse env site.qname site.qtype (combineResponse response finalResp))
        | .error error => pure (.error error)
    | none => plain (keepResponse env site.qname site.qtype response)

/-- A referral. -/
def roundReferral (rounds : Nat) (currentZone : Text) (response : DnsPacket) :
    CallingResolver (Except ResolveError DnsPacket) :=
  let currentZone := (referralZone response).getD currentZone
  let nsNames := extractNsNames response
  if nsNames = [] then pure (.ok response)
  else do
    plain (insertPackets env
      (cacheNsDelegation currentZone response ++ cacheDsFromAuthority response))
    let newNsAddrs ← callReferralAddrs env site response nsNames
    if newNsAddrs = [] then pure (.error (.couldNotResolveAnyNs site.qname))
    else do
      let sorted ← plain (Resolver.sortByUdpRtt newNsAddrs)
      nextRound site rounds currentZone sorted 0

def roundResponse (rounds : Nat) (minimized : Bool) (currentZone : Text)
    (nsAddrs : List SocketAddr) (nsIdx : Nat) (response : DnsPacket) :
    CallingResolver (Except ResolveError DnsPacket) :=
  if minimized ∧ (response.authorities ≠ [] ∨ response.answers ≠ []) then
    roundMinimized env site rounds currentZone nsAddrs nsIdx response
  else if response.answers ≠ [] then roundAnswers env site response
  else if response.header.rescode = .nxdomain ∨ response.header.rescode = .refused then
    plain (keepResponse env site.qname site.qtype response)
  else roundReferral env site rounds currentZone response

/-- The body of the loop. -/
def roundBody (currentZone : Text) (nsAddrs : List SocketAddr) (nsIdx : Nat) :
    (rounds : Nat) → CallingResolver (Except ResolveError DnsPacket)
  | 0 => pure (.error (.exhausted site.qname))
  | rounds + 1 =>
    if nsAddrs.length ≤ nsIdx then pure (.error .noNameserverAvailable)
    else do
      let (qName, qType) := minimizeQuery site.qname site.qtype currentZone
      match ← plain (Resolver.sendQueryHedged qName qType (nsAddrs.drop nsIdx)) with
      | .error _ =>
        nextRound site rounds currentZone nsAddrs (nsIdx + min (nsAddrs.length - nsIdx) 2)
      | .ok response =>
        let minimized := decide (qType ≠ site.qtype) || !qName.eqIgnoreAsciiCase site.qname
        roundResponse env site rounds minimized currentZone nsAddrs nsIdx response

/-- What comes before the loop. -/
def entryBody (caller : Caller) : CallingResolver (Except ResolveError DnsPacket) :=
  if maxReferralDepth < site.referralDepth then pure (.error .maxReferralDepthExceeded)
  else do
    match ← plain (Resolver.lookup caller site.qname site.qtype) with
    | some cached => pure (.ok cached)
    | none =>
      let view ← plain Resolver.readCache
      let (currentZone, nsAddrs) := findClosestNs view env.rootHints site.qname
      let sorted ← plain (Resolver.sortByUdpRtt nsAddrs)
      nextRound site maxReferralDepth currentZone sorted 0

def resolverBody : CallingResolver (Except ResolveError DnsPacket) :=
  match site.point with
  | .entry caller => entryBody env site caller
  | .round rounds currentZone nsAddrs nsIdx => roundBody env site currentZone nsAddrs nsIdx rounds

end Body

/-! ## The measure -/

def ResolverPoint.roundsLeft : ResolverPoint → Nat
  | entry _ => maxReferralDepth + 1
  | round rounds .. => rounds

/-- CNAMEs, levels of nameservers and rounds that are left. -/
def ResolverCall.measure (site : ResolverCall) : Nat ×ₗ Nat ×ₗ Nat :=
  toLex (maxCnameDepth - site.cnameDepth,
    toLex (maxReferralDepth + 1 - site.referralDepth, site.point.roundsLeft))

section Calls

variable {env : ResolverEnv} {site : ResolverCall} {good : ResolverCall → Prop}

theorem callsIn_plain {α : Type} (action : Resolver α) : CallsIn good (plain action) :=
  callsIn_lift action

/-- What a body calls: the next round, a nameserver or the target of a CNAME. -/
structure CallsGood (good : ResolverCall → Prop) (site : ResolverCall) (rounds : Nat) : Prop where
  round : ∀ currentZone nsAddrs nsIdx,
    good { site with point := .round rounds currentZone nsAddrs nsIdx }
  nameserver : site.referralDepth < maxReferralDepth → ∀ nsName qt,
    good ⟨site.referralDepth + 1, site.cnameDepth, nsName, qt, .entry .nameserver⟩
  cname : site.cnameDepth < maxCnameDepth → ∀ cnameTarget,
    good ⟨0, site.cnameDepth + 1, cnameTarget, site.qtype, .entry .cnameChase⟩

theorem callsIn_callNsTypes
    (nameserver : ∀ nsName qt,
      good ⟨site.referralDepth + 1, site.cnameDepth, nsName, qt, .entry .nameserver⟩)
    (nsName : Text) (qts : List QueryType) : CallsIn good (callNsTypes site nsName qts) := by
  induction qts with
  | nil => trivial
  | cons qt qts ih =>
      apply (callsIn_call (nameserver nsName qt)).bind
      intro result
      cases result with
      | ok nsResp =>
          simp only
          split
          · exact ih
          · trivial
      | error error => exact ih

variable {rounds : Nat}

theorem CallsGood.callNsName (calls : CallsGood good site rounds) (nsName : Text) :
    CallsIn good (callNsName site nsName) := by
  rw [Numa.callNsName]
  split
  · rename_i above
    exact callsIn_callNsTypes (calls.nameserver above) nsName _
  · trivial

theorem CallsGood.callNsNames (calls : CallsGood good site rounds) (nsNames : List Text) :
    CallsIn good (callNsNames site nsNames) := by
  induction nsNames with
  | nil => trivial
  | cons nsName nsNames ih =>
      apply (calls.callNsName nsName).bind
      intro addrs
      split
      · exact ih
      · trivial

theorem CallsGood.callReferralAddrs (calls : CallsGood good site rounds) (response : DnsPacket)
    (nsNames : List Text) : CallsIn good (callReferralAddrs env site response nsNames) := by
  apply (callsIn_plain _).bind
  intro glueAddrs
  split
  · exact calls.callNsNames nsNames
  · trivial

theorem CallsGood.roundMinimized (calls : CallsGood good site rounds) (currentZone : Text)
    (nsAddrs : List SocketAddr) (nsIdx : Nat) (response : DnsPacket) :
    CallsIn good (roundMinimized env site rounds currentZone nsAddrs nsIdx response) := by
  apply (callsIn_plain _).bind
  intro zone
  apply (callsIn_plain _).bind
  intro newAddrs
  split
  · exact callsIn_call (calls.round _ _ _)
  · apply (callsIn_plain _).bind
    intro sorted
    exact callsIn_call (calls.round _ _ _)

theorem CallsGood.roundAnswers (calls : CallsGood good site rounds) (response : DnsPacket) :
    CallsIn good (roundAnswers env site response) := by
  rw [Numa.roundAnswers]
  split
  · exact callsIn_plain _
  · split
    · split
      · trivial
      · rename_i below
        apply (callsIn_call (calls.cname (Nat.lt_of_not_le below) _)).bind
        intro result
        cases result with
        | ok finalResp => exact callsIn_plain _
        | error error => trivial
    · exact callsIn_plain _

theorem CallsGood.roundReferral (calls : CallsGood good site rounds) (currentZone : Text)
    (response : DnsPacket) : CallsIn good (roundReferral env site rounds currentZone response) := by
  simp only [Numa.roundReferral]
  split
  · trivial
  · apply (callsIn_plain _).bind
    intro _
    apply (calls.callReferralAddrs _ _).bind
    intro newNsAddrs
    split
    · trivial
    · apply (callsIn_plain _).bind
      intro sorted
      exact callsIn_call (calls.round _ _ _)

theorem CallsGood.roundBody (calls : CallsGood good site rounds) (currentZone : Text)
    (nsAddrs : List SocketAddr) (nsIdx : Nat) :
    CallsIn good (roundBody env site currentZone nsAddrs nsIdx (rounds + 1)) := by
  simp only [Numa.roundBody]
  split
  · trivial
  · apply (callsIn_plain _).bind
    intro answer
    cases answer with
    | error error => exact callsIn_call (calls.round _ _ _)
    | ok response =>
        simp only [roundResponse]
        split
        · exact calls.roundMinimized _ _ _ _
        · split
          · exact calls.roundAnswers _
          · split
            · exact callsIn_plain _
            · exact calls.roundReferral _ _

theorem callsIn_entryBody {caller : Caller}
    (round : site.referralDepth ≤ maxReferralDepth → ∀ currentZone nsAddrs nsIdx,
      good { site with point := .round maxReferralDepth currentZone nsAddrs nsIdx }) :
    CallsIn good (entryBody env site caller) := by
  rw [entryBody]
  split
  · trivial
  · rename_i within
    apply (callsIn_plain _).bind
    intro cached
    cases cached with
    | some cached => trivial
    | none =>
        apply (callsIn_plain _).bind
        intro view
        apply (callsIn_plain _).bind
        intro sorted
        exact callsIn_call (round (Nat.le_of_not_lt within) _ _ _)

end Calls

/-- Every call is below the one it is made in. -/
theorem measure_decreases (env : ResolverEnv) (site : ResolverCall) :
    CallsIn (fun next => next.measure < site.measure) (resolverBody env site) := by
  obtain ⟨referralDepth, cnameDepth, qname, qtype, point⟩ := site
  cases point with
  | entry caller =>
      apply callsIn_entryBody
      intro within currentZone nsAddrs nsIdx
      simp [ResolverCall.measure, ResolverPoint.roundsLeft, Prod.Lex.toLex_lt_toLex]
  | round rounds currentZone nsAddrs nsIdx =>
      cases rounds with
      | zero => trivial
      | succ rounds =>
          apply CallsGood.roundBody
          constructor
          · intro currentZone nsAddrs nsIdx
            simp [ResolverCall.measure, ResolverPoint.roundsLeft, Prod.Lex.toLex_lt_toLex]
          · intro below nsName qt
            have fewer : maxReferralDepth + 1 - (referralDepth + 1) <
                maxReferralDepth + 1 - referralDepth := by
              have isBelow : referralDepth < maxReferralDepth := below
              omega
            exact Prod.Lex.toLex_lt_toLex.mpr
              (.inr ⟨rfl, Prod.Lex.toLex_lt_toLex.mpr (.inl fewer)⟩)
          · intro below cnameTarget
            have fewer : maxCnameDepth - (cnameDepth + 1) < maxCnameDepth - cnameDepth := by
              have isBelow : cnameDepth < maxCnameDepth := below
              omega
            exact Prod.Lex.toLex_lt_toLex.mpr (.inl fewer)

/-- Neither depth exceeds its maximum. -/
def ResolverCall.WithinDepths (site : ResolverCall) : Prop :=
  site.referralDepth ≤ maxReferralDepth ∧ site.cnameDepth ≤ maxCnameDepth

theorem callsIn_withinDepths (env : ResolverEnv) (site : ResolverCall)
    (within : site.WithinDepths) :
    CallsIn ResolverCall.WithinDepths (resolverBody env site) := by
  obtain ⟨referralDepth, cnameDepth, qname, qtype, point⟩ := site
  obtain ⟨referrals, cnames⟩ := within
  cases point with
  | entry caller => exact callsIn_entryBody fun _ _ _ _ => ⟨referrals, cnames⟩
  | round rounds currentZone nsAddrs nsIdx =>
      cases rounds with
      | zero => trivial
      | succ rounds =>
          apply CallsGood.roundBody
          exact
            { round := fun _ _ _ => ⟨referrals, cnames⟩
              nameserver := fun below _ _ => ⟨below, cnames⟩
              cname := fun below _ => ⟨Nat.zero_le _, below⟩ }

/-! ## The same resolution -/

/-- What a call comes to by the levels that are left. -/
def ResolverCall.resolution (env : ResolverEnv) (site : ResolverCall) : Resolution :=
  match site.point with
  | .entry caller =>
    resolveIterative env caller site.qname site.qtype site.referralDepth site.cnameDepth
  | .round rounds currentZone nsAddrs nsIdx =>
    let chase := chaseCname env (maxCnameDepth - site.cnameDepth)
    serverLoop env chase (resolveWith env chase (maxReferralDepth - site.referralDepth) .nameserver)
      site.qname site.qtype rounds currentZone nsAddrs nsIdx

section Resolution

variable {env : ResolverEnv} {site : ResolverCall}

/-- The chase of a CNAME that the rounds of a call have. -/
abbrev ResolverCall.chase (env : ResolverEnv) (site : ResolverCall) :
    Text → QueryType → Resolution :=
  chaseCname env (maxCnameDepth - site.cnameDepth)

/-- The resolution of nameservers that the rounds of a call have. -/
abbrev ResolverCall.resolveNs (env : ResolverEnv) (site : ResolverCall) :
    Text → QueryType → Resolution :=
  resolveWith env (site.chase env) (maxReferralDepth - site.referralDepth) .nameserver

@[simp]
theorem interpret_plain {α : Type} (action : Resolver α) :
    interpret (ResolverCall.resolution env) (plain action) = action :=
  interpret_lift action

@[simp]
theorem interpret_nextRound (rounds : Nat) (currentZone : Text) (nsAddrs : List SocketAddr)
    (nsIdx : Nat) :
    interpret (ResolverCall.resolution env) (nextRound site rounds currentZone nsAddrs nsIdx) =
      serverLoop env (site.chase env) (site.resolveNs env) site.qname site.qtype rounds currentZone
        nsAddrs nsIdx :=
  interpret_call _

/-- Below the maximum, a nameserver is resolved one level deeper. -/
theorem resolution_nameserver (below : site.referralDepth < maxReferralDepth) (nsName : Text)
    (qt : QueryType) :
    ResolverCall.resolution env
        ⟨site.referralDepth + 1, site.cnameDepth, nsName, qt, .entry .nameserver⟩ =
      site.resolveNs env nsName qt := by
  have levels : maxReferralDepth + 1 - (site.referralDepth + 1) =
      maxReferralDepth - site.referralDepth := by
    omega
  simp only [ResolverCall.resolution, resolveIterative, levels]

theorem resolution_cnameChase (below : site.cnameDepth < maxCnameDepth) (cnameTarget : Text) :
    ResolverCall.resolution env
        ⟨0, site.cnameDepth + 1, cnameTarget, site.qtype, .entry .cnameChase⟩ =
      site.chase env cnameTarget site.qtype := by
  obtain ⟨cnames, isLeft⟩ : ∃ cnames, maxCnameDepth - site.cnameDepth = cnames + 1 :=
    Nat.exists_eq_succ_of_ne_zero (by omega)
  have left : maxCnameDepth - (site.cnameDepth + 1) = cnames := by
    omega
  simp only [ResolverCall.resolution, resolveIterative, ResolverCall.chase, isLeft, left,
    chaseCname, Nat.sub_zero]

theorem interpret_callNsTypes (below : site.referralDepth < maxReferralDepth) (nsName : Text)
    (qts : List QueryType) :
    interpret (ResolverCall.resolution env) (callNsTypes site nsName qts) =
      resolveNsName (site.resolveNs env) nsName qts := by
  induction qts with
  | nil => rfl
  | cons qt qts ih =>
      simp only [callNsTypes, resolveNsName, interpret_bind, interpret_call,
        resolution_nameserver below]
      congr 1
      funext result
      cases result with
      | ok nsResp =>
          simp only
          split
          · exact ih
          · rfl
      | error error => exact ih

/-- At the maximum no nameserver has an address. -/
theorem resolveNsName_of_failing (nsName : Text) (qts : List QueryType) :
    resolveNsName (fun _ _ => pure (.error .maxReferralDepthExceeded)) nsName qts = pure [] := by
  induction qts with
  | nil => rfl
  | cons qt qts ih => exact ih

theorem interpret_callNsName (nsName : Text) :
    interpret (ResolverCall.resolution env) (callNsName site nsName) =
      resolveNsName (site.resolveNs env) nsName [.a, .aaaa] := by
  rw [callNsName]
  split
  · rename_i below
    exact interpret_callNsTypes below nsName _
  · rename_i above
    have noLevel : maxReferralDepth - site.referralDepth = 0 := by
      omega
    simp only [ResolverCall.resolveNs, noLevel]
    exact (resolveNsName_of_failing nsName [.a, .aaaa]).symm

@[simp]
theorem interpret_callNsNames (nsNames : List Text) :
    interpret (ResolverCall.resolution env) (callNsNames site nsNames) =
      resolveNsNames (site.resolveNs env) nsNames := by
  induction nsNames with
  | nil => rfl
  | cons nsName nsNames ih =>
      simp only [callNsNames, resolveNsNames, interpret_bind, interpret_callNsName]
      congr 1
      funext addrs
      split
      · exact ih
      · rfl

@[simp]
theorem interpret_callReferralAddrs (response : DnsPacket) (nsNames : List Text) :
    interpret (ResolverCall.resolution env) (callReferralAddrs env site response nsNames) =
      referralAddrs env (site.resolveNs env) response nsNames := by
  simp only [callReferralAddrs, referralAddrs, interpret_bind, interpret_plain]
  congr 1
  funext glueAddrs
  split
  · exact interpret_callNsNames nsNames
  · rfl

/-- The rounds that are left. -/
abbrev ResolverCall.again (env : ResolverEnv) (site : ResolverCall) (rounds : Nat) :
    Text → List SocketAddr → Nat → Resolution :=
  serverLoop env (site.chase env) (site.resolveNs env) site.qname site.qtype rounds

theorem interpret_roundMinimized (rounds : Nat) (currentZone : Text) (nsAddrs : List SocketAddr)
    (nsIdx : Nat) (response : DnsPacket) :
    interpret (ResolverCall.resolution env)
        (roundMinimized env site rounds currentZone nsAddrs nsIdx response) =
      followMinimized env (site.again env rounds) currentZone nsAddrs nsIdx response := by
  simp only [roundMinimized, followMinimized, interpret_bind, interpret_plain]
  congr 1
  funext zone
  congr 1
  funext newAddrs
  split
  · exact interpret_nextRound _ _ _ _
  · simp only [interpret_bind, interpret_plain, interpret_nextRound]

theorem interpret_roundAnswers (response : DnsPacket) :
    interpret (ResolverCall.resolution env) (roundAnswers env site response) =
      handleAnswers env (site.chase env) site.qname site.qtype response := by
  rw [roundAnswers, handleAnswers]
  split
  · exact interpret_plain _
  · cases extractCnameTarget response site.qname with
    | some cnameTarget =>
      simp only
      split
      · rename_i above
        have noCname : maxCnameDepth - site.cnameDepth = 0 := by
          omega
        simp only [ResolverCall.chase, noCname]
        rfl
      · rename_i below
        simp only [interpret_bind, interpret_call,
          resolution_cnameChase (Nat.lt_of_not_le below)]
        congr 1
        funext result
        cases result with
        | ok finalResp => exact interpret_plain _
        | error error => rfl
    | none => exact interpret_plain _

theorem interpret_roundReferral (rounds : Nat) (currentZone : Text) (response : DnsPacket) :
    interpret (ResolverCall.resolution env) (roundReferral env site rounds currentZone response) =
      followReferral env (site.resolveNs env) site.qname (site.again env rounds) currentZone
        response := by
  simp only [roundReferral, followReferral]
  split
  · rfl
  · simp only [interpret_bind, interpret_plain, interpret_callReferralAddrs]
    congr 1
    funext _
    congr 1
    funext newNsAddrs
    split
    · rfl
    · simp only [interpret_bind, interpret_plain, interpret_nextRound]

theorem interpret_roundBody (currentZone : Text) (nsAddrs : List SocketAddr) (nsIdx rounds : Nat) :
    interpret (ResolverCall.resolution env) (roundBody env site currentZone nsAddrs nsIdx rounds) =
      site.again env rounds currentZone nsAddrs nsIdx := by
  cases rounds with
  | zero => rfl
  | succ rounds =>
      simp only [roundBody, ResolverCall.again, serverLoop]
      split
      · rfl
      · simp only [interpret_bind, interpret_plain]
        congr 1
        funext answer
        cases answer with
        | error error => exact interpret_nextRound _ _ _ _
        | ok response =>
            simp only [roundResponse, handleResponse]
            split
            · exact interpret_roundMinimized _ _ _ _ _
            · split
              · exact interpret_roundAnswers _
              · split
                · exact interpret_plain _
                · exact interpret_roundReferral _ _ _

theorem interpret_entryBody (caller : Caller) :
    interpret (ResolverCall.resolution env) (entryBody env site caller) =
      resolveIterative env caller site.qname site.qtype site.referralDepth site.cnameDepth := by
  rw [entryBody, resolveIterative]
  split
  · rename_i above
    have noLevel : maxReferralDepth + 1 - site.referralDepth = 0 := by
      omega
    rw [noLevel]
    rfl
  · rename_i within
    have levels : maxReferralDepth + 1 - site.referralDepth =
        maxReferralDepth - site.referralDepth + 1 := by
      omega
    rw [levels, resolveWith]
    simp only [interpret_bind, interpret_plain]
    congr 1
    funext cached
    cases cached with
    | some cached => rfl
    | none => simp only [interpret_bind, interpret_plain, interpret_nextRound]

/-- The levels that are left say what every body comes to. -/
theorem resolution_solves (site : ResolverCall) :
    site.resolution env = interpret (ResolverCall.resolution env) (resolverBody env site) := by
  obtain ⟨referralDepth, cnameDepth, qname, qtype, point⟩ := site
  cases point with
  | entry caller => exact (interpret_entryBody caller).symm
  | round rounds currentZone nsAddrs nsIdx =>
      exact (interpret_roundBody currentZone nsAddrs nsIdx rounds).symm

end Resolution

instance : (effect : Effect) → Nonempty effect.Answer
  | .lookup .. => ⟨(none : Option DnsPacket)⟩
  | .lookupWithStatus .. => ⟨(none : Option (DnsPacket × DnssecStatus × Freshness))⟩
  | .readCache => ⟨fun _ _ => none⟩
  | .insertWires _ => ⟨()⟩
  | .sortByUdpRtt _ => ⟨([] : List SocketAddr)⟩
  | .sendQueryHedged .. => ⟨(.error () : Except Unit DnsPacket)⟩
  | .forwardRaw => ⟨(.error () : Except Unit Wire)⟩
  | .markRefreshing _ => ⟨true⟩
  | .spawnRefresh _ => ⟨()⟩
  | .unmarkRefreshing _ => ⟨()⟩
  | .acquireInflight _ => ⟨Disposition.leader⟩
  | .releaseInflight _ => ⟨()⟩
  | .broadcast .. => ⟨()⟩
  | .receive _ => ⟨(none : Option DnsPacket)⟩

/-- The machine before a client's resolution. -/
def resolverStart (caller : Caller) (qname : Text) (qtype : QueryType) :
    CallStack ResolverCall (Except ResolveError DnsPacket) Effect.Answer :=
  .start Effect.Answer ⟨0, 0, qname, qtype, .entry caller⟩

theorem calls_resolverStart (caller : Caller) (qname : Text) (qtype : QueryType) :
    (resolverStart caller qname qtype).Calls ResolverCall.WithinDepths where
  running := callsIn_call ⟨Nat.zero_le _, Nat.zero_le _⟩
  waiting next mem := by cases mem

theorem ends_resolverStart (env : ResolverEnv) (caller : Caller) (qname : Text)
    (qtype : QueryType) :
    CallStack.Ends (resolverBody env) (resolverStart caller qname qtype) :=
  CallStack.ends_of_decreases (InvImage.wf ResolverCall.measure wellFounded_lt)
    (measure_decreases env) _

/-- Iterative resolution terminates whatever its surroundings answer: calls decrease in the
measure, no run is infinite, a run that cannot go on has returned, and the depths of the calls
never exceed their maxima.  What the machine does is what `resolveIterative` does. -/
theorem resolveIterative_terminates (env : ResolverEnv) (caller : Caller) (qname : Text)
    (qtype : QueryType) :
    (∀ site, CallsIn (fun next => next.measure < site.measure) (resolverBody env site)) ∧
    (¬ ∃ run : Nat → CallStack ResolverCall (Except ResolveError DnsPacket) Effect.Answer,
      run 0 = resolverStart caller qname qtype ∧
        ∀ n, ∃ label, CallStack.Step (resolverBody env) (run n) label (run (n + 1))) ∧
    (∀ trace stack,
      CallStack.Steps (resolverBody env) (resolverStart caller qname qtype) trace stack →
        ((∃ label after, CallStack.Step (resolverBody env) stack label after) ∨
          ∃ result, stack = ⟨.done result, []⟩) ∧
        stack.Calls fun site =>
          site.referralDepth ≤ maxReferralDepth ∧ site.cnameDepth ≤ maxCnameDepth) ∧
    ∀ trace result,
      CallStack.Steps (resolverBody env) (resolverStart caller qname qtype) trace
          ⟨.done result, []⟩ ↔
        (resolveIterative env caller qname qtype 0 0).Runs trace result := by
  have calls := calls_resolverStart caller qname qtype
  have ends := ends_resolverStart env caller qname qtype
  have isMeaning : (resolverStart caller qname qtype).meaning (ResolverCall.resolution env) =
      resolveIterative env caller qname qtype 0 0 :=
    interpret_call _
  refine ⟨measure_decreases env, ends.not_exists_run, ?_, ?_⟩
  · intro trace stack steps
    exact ⟨stack.exists_step_or_done, calls.steps (callsIn_withinDepths env) steps⟩
  · intro trace result
    rw [← isMeaning]
    constructor
    · intro steps
      exact CallStack.runs_of_steps (fun site _ => resolution_solves site)
        (callsIn_withinDepths env) steps rfl calls
    · intro runs
      exact CallStack.steps_of_runs (fun site _ => resolution_solves site)
        (callsIn_withinDepths env) ends calls runs

end Numa
