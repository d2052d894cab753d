import Numa.BlocklistLines
import Numa.Census
import Numa.Forward
import Numa.WhiteSpace

/-!
# The relay

`handle_relay` of `relay.rs` hands the sealed messages of clients to targets and
counts what it does.  Requests share the counters, which are atomic, and
interleave between any two accesses; the future of a request is dropped where
it waits for the target when its client goes away.  How `axum` takes a request
apart is left out.
-/

namespace Numa

/-! ## Targets -/

def dash : UInt8 := 0x2D

def isValidHostname (host : Text) : Bool :=
  if host.isEmpty || decide (253 < host.length) || !host.contains dot then false
  else if host.head? == some dot || host.head? == some dash || host.getLast? == some dot ||
      host.getLast? == some dash then false
  else host.all fun octet => isAlphanumeric octet || octet == dot || octet == dash

/-- `HeaderValue::to_str` takes visible octets and tabs. -/
def isHeaderText (value : List UInt8) : Bool :=
  value.all fun octet => (0x20 ≤ octet && octet < 0x7F) || octet == 0x09

/-- `content_type_matches`, with the first header of that name. -/
def contentTypeMatches (header : Option (List UInt8)) (expected : Text) : Bool :=
  match header with
  | none => false
  | some value => isHeaderText value && Text.trim (value.takeWhile (· != 0x3B)) == expected

/-- `ODOH_CONTENT_TYPE`. -/
def odohContentType : Text := text "application/oblivious-dns-message"

def plainContentType : Text := text "text/plain; charset=utf-8"

/-- `MAX_BODY_BYTES`. -/
def maxBodyBytes : Nat := 4 * 1024

/-- `MAX_TARGET_RESPONSE_BYTES`. -/
def maxTargetResponseBytes : Nat := 8 * 1024

theorem mem_of_isValidHostname {host : Text} (valid : isValidHostname host = true) {octet : UInt8}
    (mem : octet ∈ host) : isAlphanumeric octet = true ∨ octet = dot ∨ octet = dash := by
  rw [isValidHostname] at valid
  split at valid
  · cases valid
  · split at valid
    · cases valid
    · simpa [or_assoc] using List.all_eq_true.mp valid octet mem

structure RelayRequest where
  targethost : Text
  targetpath : Text
  contentType : Option (List UInt8)
  body : List UInt8

/-- The host that the URL standard reads from a URL with `https`: it ends at a
port or a path and begins behind any user. -/
def urlHost (url : Text) : Option Text :=
  if (text "https://").isPrefixOf url then
    let authority := (url.drop 8).takeWhile fun octet =>
      octet != 0x2F && octet != 0x5C && octet != 0x3F && octet != 0x23
    some (((authority.splitOn 0x40).getLastD []).takeWhile (· != 0x3A))
  else none

def RelayRequest.targetUrl (request : RelayRequest) : Text :=
  text "https://" ++ request.targethost ++ request.targetpath

/-- A valid host is the host of the URL, whatever the path is. -/
theorem urlHost_targetUrl {request : RelayRequest}
    (valid : isValidHostname request.targethost = true)
    (rooted : (text "/").isPrefixOf request.targetpath = true) :
    urlHost request.targetUrl = some request.targethost := by
  have plain : ∀ octet ∈ request.targethost, octet ≠ 0x2F ∧ octet ≠ 0x5C ∧ octet ≠ 0x3F ∧
      octet ≠ 0x23 ∧ octet ≠ 0x40 ∧ octet ≠ 0x3A := by
    intro octet mem
    have isHost := mem_of_isValidHostname valid mem
    refine ⟨?_, ?_, ?_, ?_, ?_, ?_⟩ <;> rintro rfl <;> revert isHost <;> decide
  obtain ⟨path, isPath⟩ : ∃ path, request.targetpath = 0x2F :: path := by
    obtain ⟨path, isPath⟩ := List.isPrefixOf_iff_prefix.mp rooted
    exact ⟨path, isPath.symm⟩
  have authority : (request.targethost ++ request.targetpath).takeWhile (fun octet =>
      octet != 0x2F && octet != 0x5C && octet != 0x3F && octet != 0x23) = request.targethost := by
    rw [isPath, List.takeWhile_append_of_pos, List.takeWhile_cons_of_neg (by decide),
      List.append_nil]
    intro octet mem
    obtain ⟨notSlash, notBackslash, notQuery, notFragment, -⟩ := plain octet mem
    simp [notSlash, notBackslash, notQuery, notFragment]
  have noUser : request.targethost.splitOn 0x40 = [request.targethost] := by
    rw [List.splitOn_eq_splitOnP]
    exact List.splitOnP_eq_singleton fun octet mem => by simp [(plain octet mem).2.2.2.2.1]
  have noPort : request.targethost.takeWhile (· != 0x3A) = request.targethost :=
    List.takeWhile_eq_self_iff.mpr fun octet mem => by simp [(plain octet mem).2.2.2.2.2]
  have rest : request.targetUrl.drop 8 = request.targethost ++ request.targetpath := by
    rw [RelayRequest.targetUrl, List.append_assoc]
    exact List.drop_left' (by decide)
  have isHttps : (text "https://").isPrefixOf request.targetUrl = true := by
    rw [RelayRequest.targetUrl, List.append_assoc]
    exact List.isPrefixOf_iff_prefix.mpr (List.prefix_append _ _)
  rw [urlHost, if_pos isHttps, rest]
  simp only [authority, noUser]
  exact congrArg some noPort

structure RelayResponse where
  status : Nat
  contentType : Text
  body : List UInt8
  deriving DecidableEq

/-! ## The tasks -/

inductive RelayCounter
  | totalRequests
  | forwardedOk
  | forwardedErr
  | rejectedBadRequest
  deriving DecidableEq

inductive RelayEffect
  /-- `fetch_add(1)`. -/
  | count (counter : RelayCounter)
  | load (counter : RelayCounter)
  | post (url : Text) (body : List UInt8)
  /-- The response of the target, if the request is not dropped before. -/
  | receive
  | respond (response : RelayResponse)

@[reducible]
def RelayEffect.Answer : RelayEffect → Type
  | load _ => UInt64
  | receive => Option (Except Unit HttpResponse)
  | count _ | post _ _ | respond _ => Unit

abbrev RelayTask (α : Type) := Interaction RelayEffect RelayEffect.Answer α

open Interaction (ask done)

/-- The text of `handle_health`. -/
def healthBody (total ok err rejected : UInt64) : Text :=
  text s!"ok\ntotal {total}\nforwarded_ok {ok}\nforwarded_err {err}\nrejected_bad_request {rejected}\n"

namespace RelayTask

/-- `forward_to_target`, unless it is dropped. -/
def forwardToTarget (url : Text) (body : List UInt8) :
    RelayTask (Option (Except Unit HttpResponse)) :=
  ask (.post url body) fun _ => ask .receive fun
    | none => done none
    | some (.error error) => done (some (.error error))
    | some (.ok response) =>
      if maxTargetResponseBytes < response.body.length then done (some (.error ()))
      else done (some (.ok response))

def respond (response : RelayResponse) : RelayTask Unit :=
  ask (.respond response) fun _ => done ()

def reject (status : Nat) (message : Text) : RelayTask Unit :=
  ask (.count .rejectedBadRequest) fun _ => respond ⟨status, plainContentType, message⟩

/-- The end of `handle_relay` with the result of `forward_to_target`. -/
def finish : Option (Except Unit HttpResponse) → RelayTask Unit
  | none => done ()
  | some (.ok response) =>
    ask (.count .forwardedOk) fun _ => respond ⟨response.status, odohContentType, response.body⟩
  | some (.error _) =>
    ask (.count .forwardedErr) fun _ => respond ⟨502, plainContentType, text "target unreachable"⟩

def handleRelay (request : RelayRequest) : RelayTask Unit :=
  ask (.count .totalRequests) fun _ =>
    if !contentTypeMatches request.contentType odohContentType then
      reject 415 (text "expected application/oblivious-dns-message")
    else if maxBodyBytes < request.body.length then
      reject 413 (text "body exceeds 4 KiB cap")
    else if !isValidHostname request.targethost ||
        !(text "/").isPrefixOf request.targetpath then
      reject 400 (text "invalid targethost or targetpath")
    else
      forwardToTarget request.targetUrl request.body >>= finish

def handleHealth : RelayTask Unit :=
  ask (.load .totalRequests) fun total =>
    ask (.load .forwardedOk) fun ok =>
      ask (.load .forwardedErr) fun err =>
        ask (.load .rejectedBadRequest) fun rejected =>
          respond ⟨200, plainContentType, healthBody total ok err rejected⟩

/-- The requests of the relay. -/
inductive IsRequest : RelayTask Unit → Prop
  | relay (request : RelayRequest) : IsRequest (handleRelay request)
  | health : IsRequest handleHealth

end RelayTask

/-! ## What the requests do together -/

/-- The relay with the number of times each counter was counted up, the posts to
targets, the responses of targets, those to clients, and the number of requests
that were dropped while they waited. -/
structure Relay where
  counters : RelayCounter → UInt64
  counts : RelayCounter → Nat
  posts : List (Text × List UInt8)
  answers : List HttpResponse
  responses : List RelayResponse
  dropped : Nat

namespace Relay

def new : Relay where
  counters _ := 0
  counts _ := 0
  posts := []
  answers := []
  responses := []
  dropped := 0

def count (relay : Relay) (counter : RelayCounter) : Relay :=
  { relay with
    counters := Function.update relay.counters counter (relay.counters counter + 1)
    counts := Function.update relay.counts counter (relay.counts counter + 1) }

def post (relay : Relay) (url : Text) (body : List UInt8) : Relay :=
  { relay with posts := relay.posts ++ [(url, body)] }

def drop (relay : Relay) : Relay :=
  { relay with dropped := relay.dropped + 1 }

def receive (relay : Relay) (answer : HttpResponse) : Relay :=
  { relay with answers := relay.answers ++ [answer] }

def respond (relay : Relay) (response : RelayResponse) : Relay :=
  { relay with responses := relay.responses ++ [response] }

def Happens (relay : Relay) : (effect : RelayEffect) → effect.Answer → Relay → Prop
  | .count counter, _, after => after = relay.count counter
  | .load counter, value, after => value = relay.counters counter ∧ after = relay
  | .post url body, _, after => after = relay.post url body
  | .receive, none, after => after = relay.drop
  | .receive, some (.ok answer), after => after = relay.receive answer
  | .receive, some (.error _), after => after = relay
  | .respond response, _, after => after = relay.respond response

end Relay

/-- How far a request is. -/
inductive RelayPhase
  | idle
  | checking
  | awaiting
  /-- It has the response of the target, or none in time. -/
  | received (answer : Option HttpResponse)
  | rejected
  | forwarded (answer : HttpResponse)
  | failed

/-- A response of a target that is passed on. -/
def Forwardable (answer : HttpResponse) : Prop :=
  answer.body.length ≤ maxTargetResponseBytes

instance (answer : HttpResponse) : Decidable (Forwardable answer) :=
  inferInstanceAs (Decidable (_ ≤ _))

def HttpResponse.relayed (answer : HttpResponse) : RelayResponse :=
  ⟨answer.status, odohContentType, answer.body⟩

def rejections : List RelayResponse :=
  [⟨415, plainContentType, text "expected application/oblivious-dns-message"⟩,
    ⟨413, plainContentType, text "body exceeds 4 KiB cap"⟩,
    ⟨400, plainContentType, text "invalid targethost or targetpath"⟩]

def badGateway : RelayResponse :=
  ⟨502, plainContentType, text "target unreachable"⟩

def IsHealth (response : RelayResponse) : Prop :=
  ∃ total ok err rejected, response = ⟨200, plainContentType, healthBody total ok err rejected⟩

/-- A post has the body of a request, and the host of its URL is the valid one
that the request names. -/
def SafePost (post : Text × List UInt8) : Prop :=
  post.2.length ≤ maxBodyBytes ∧ ∃ host path, isValidHostname host = true ∧
    post.1 = text "https://" ++ host ++ path ∧ urlHost post.1 = some host

namespace RelayPhase

def next : RelayPhase → (effect : RelayEffect) → effect.Answer → RelayPhase
  | idle, .count _, _ => checking
  | checking, .count _, _ => rejected
  | checking, .post _ _, _ => awaiting
  | awaiting, .receive, none => idle
  | awaiting, .receive, some (.ok answer) => received (some answer)
  | awaiting, .receive, some (.error _) => received none
  | received (some answer), .count .forwardedOk, _ => forwarded answer
  | received _, .count _, _ => failed
  | rejected, .respond _, _ | forwarded _, .respond _, _ | failed, .respond _, _ => idle
  | phase, _, _ => phase

def Allowed : RelayPhase → RelayEffect → Prop
  | idle, effect => effect = .count .totalRequests ∨ (∃ counter, effect = .load counter) ∨
      ∃ response, IsHealth response ∧ effect = .respond response
  | checking, effect => effect = .count .rejectedBadRequest ∨
      ∃ url body, SafePost (url, body) ∧ effect = .post url body
  | awaiting, effect => effect = .receive
  | received none, effect => effect = .count .forwardedErr
  | received (some answer), effect =>
    effect = .count (if Forwardable answer then .forwardedOk else .forwardedErr)
  | rejected, effect => ∃ response ∈ rejections, effect = .respond response
  | forwarded answer, effect => effect = .respond answer.relayed
  | failed, effect => effect = .respond badGateway

end RelayPhase

def relayRules : TaskRules RelayEffect RelayEffect.Answer Relay RelayPhase where
  happens := Relay.Happens
  allowed := RelayPhase.Allowed
  next := RelayPhase.next
  idle := .idle

namespace RelayTask

/-- Where a request is when it has its result. -/
def HasResult (phase : RelayPhase) : Option (Except Unit HttpResponse) → Prop
  | none => phase = .idle
  | some (.ok answer) => phase = .received (some answer) ∧ Forwardable answer
  | some (.error _) => phase = .received none ∨
      ∃ answer, phase = .received (some answer) ∧ ¬Forwardable answer

theorem obeys_forwardToTarget {url : Text} {body : List UInt8} (safe : SafePost (url, body)) :
    (forwardToTarget url body).Obeys relayRules.protocol HasResult .checking := by
  refine ⟨.inr ⟨url, body, safe, rfl⟩, ?_⟩
  rintro _ _ rfl
  refine ⟨rfl, ?_⟩
  rintro (_ | error | answer) _ rfl
  · rfl
  · exact .inl rfl
  · dsimp only
    split
    next long => exact .inr ⟨answer, rfl, Nat.not_le.mpr long⟩
    next fits => exact ⟨rfl, Nat.not_lt.mp fits⟩

/-- The last step of a request. -/
theorem obeys_respond {phase : RelayPhase} {response : RelayResponse}
    (allowed : phase.Allowed (.respond response))
    (isLast : phase.next (.respond response) () = .idle) :
    (respond response).Obeys relayRules.protocol (fun last _ => last = .idle) phase := by
  refine ⟨allowed, ?_⟩
  rintro _ _ rfl
  exact isLast

theorem obeys_reject {status : Nat} {message : Text}
    (isRejection : ⟨status, plainContentType, message⟩ ∈ rejections) :
    (reject status message).Obeys relayRules.protocol (fun last _ => last = .idle) .checking := by
  refine ⟨.inl rfl, ?_⟩
  rintro _ _ rfl
  exact obeys_respond ⟨_, isRejection, rfl⟩ rfl

theorem runs_handleRelay (request : RelayRequest) : relayRules.Runs (handleRelay request) := by
  refine ⟨.inl rfl, ?_⟩
  rintro _ _ rfl
  dsimp only
  split
  · exact obeys_reject (by simp [rejections])
  split
  · exact obeys_reject (by simp [rejections])
  split
  · exact obeys_reject (by simp [rejections])
  next fits checked =>
    simp only [Bool.or_eq_true, Bool.not_eq_true', not_or, Bool.not_eq_false] at checked
    have safe : SafePost (request.targetUrl, request.body) :=
      ⟨Nat.not_lt.mp fits, _, _, checked.1, rfl, urlHost_targetUrl checked.1 checked.2⟩
    refine (obeys_forwardToTarget safe).bind ?_
    rintro phase (_ | error | answer) result
    · exact result
    · obtain rfl | ⟨answer, rfl, long⟩ := result
      · refine ⟨rfl, ?_⟩
        rintro _ _ rfl
        exact obeys_respond rfl rfl
      · refine ⟨congrArg RelayEffect.count (if_neg long).symm, ?_⟩
        rintro _ _ rfl
        exact obeys_respond rfl rfl
    · obtain ⟨rfl, fits⟩ := result
      refine ⟨congrArg RelayEffect.count (if_pos fits).symm, ?_⟩
      rintro _ _ rfl
      exact obeys_respond rfl rfl

theorem runs_handleHealth : relayRules.Runs handleHealth := by
  refine ⟨.inr (.inl ⟨_, rfl⟩), ?_⟩
  rintro total _ rfl
  refine ⟨.inr (.inl ⟨_, rfl⟩), ?_⟩
  rintro ok _ rfl
  refine ⟨.inr (.inl ⟨_, rfl⟩), ?_⟩
  rintro err _ rfl
  refine ⟨.inr (.inl ⟨_, rfl⟩), ?_⟩
  rintro rejected _ rfl
  exact obeys_respond (.inr (.inr ⟨_, ⟨total, ok, err, rejected, rfl⟩, rfl⟩)) rfl

theorem runs_of_isRequest {task : RelayTask Unit} (isRequest : IsRequest task) :
    relayRules.Runs task := by
  cases isRequest with
  | relay request => exact runs_handleRelay request
  | health => exact runs_handleHealth

end RelayTask

/-! ## What holds in every run -/

/-- A request that is counted and not finished. -/
def RelayPhase.IsOpen : RelayPhase → Prop
  | checking | awaiting | received _ => True
  | idle | rejected | forwarded _ | failed => False

/-- A request that is posted and not finished. -/
def RelayPhase.IsPosted : RelayPhase → Prop
  | awaiting | received _ => True
  | idle | checking | rejected | forwarded _ | failed => False

instance : DecidablePred RelayPhase.IsOpen := fun phase => by
  cases phase <;> unfold RelayPhase.IsOpen <;> infer_instance

instance : DecidablePred RelayPhase.IsPosted := fun phase => by
  cases phase <;> unfold RelayPhase.IsPosted <;> infer_instance

/-- Requests that are counted, less those that are finished. -/
def Relay.unfinished (relay : Relay) : Int :=
  relay.counts .totalRequests - relay.counts .rejectedBadRequest - relay.counts .forwardedOk -
    relay.counts .forwardedErr - relay.dropped

/-- Posts less those that have ended. -/
def Relay.unanswered (relay : Relay) : Int :=
  relay.posts.length - relay.counts .forwardedOk - relay.counts .forwardedErr - relay.dropped

/-- What a request does next. -/
inductive Relay.Moves (relay : Relay) : RelayPhase → Relay → RelayPhase → Prop
  | arrive : Moves relay .idle (relay.count .totalRequests) .checking
  | look : Moves relay .idle relay .idle
  | report (response : RelayResponse) (isHealth : IsHealth response) :
      Moves relay .idle (relay.respond response) .idle
  | reject : Moves relay .checking (relay.count .rejectedBadRequest) .rejected
  | post (url : Text) (body : List UInt8) (safe : SafePost (url, body)) :
      Moves relay .checking (relay.post url body) .awaiting
  | drop : Moves relay .awaiting relay.drop .idle
  | receive (answer : HttpResponse) :
      Moves relay .awaiting (relay.receive answer) (.received (some answer))
  | receiveNone : Moves relay .awaiting relay (.received none)
  | forward (answer : HttpResponse) (fits : Forwardable answer) :
      Moves relay (.received (some answer)) (relay.count .forwardedOk) (.forwarded answer)
  | giveUp (answer : Option HttpResponse) :
      Moves relay (.received answer) (relay.count .forwardedErr) .failed
  | respondRejected (response : RelayResponse) (isRejection : response ∈ rejections) :
      Moves relay .rejected (relay.respond response) .idle
  | respondForwarded (answer : HttpResponse) :
      Moves relay (.forwarded answer) (relay.respond answer.relayed) .idle
  | respondFailed : Moves relay .failed (relay.respond badGateway) .idle

theorem Relay.moves_of_allowed {relay after : Relay} {phase : RelayPhase} {effect : RelayEffect}
    {answer : effect.Answer} (allowed : phase.Allowed effect)
    (happens : relay.Happens effect answer after) :
    relay.Moves phase after (phase.next effect answer) := by
  cases phase with
  | idle =>
      obtain rfl | ⟨counter, rfl⟩ | ⟨response, isHealth, rfl⟩ := allowed
      · cases happens
        exact .arrive
      · obtain ⟨rfl, rfl⟩ := happens
        exact .look
      · cases happens
        exact .report response isHealth
  | checking =>
      obtain rfl | ⟨url, body, safe, rfl⟩ := allowed
      · cases happens
        exact .reject
      · cases happens
        exact .post url body safe
  | awaiting =>
      cases allowed
      obtain _ | _ | answer := answer <;> cases happens
      · exact .drop
      · exact .receiveNone
      · exact .receive answer
  | received found =>
      cases found with
      | none =>
          cases allowed
          cases happens
          exact .giveUp none
      | some found =>
          by_cases fits : Forwardable found
          · rw [RelayPhase.Allowed, if_pos fits] at allowed
            subst allowed
            cases happens
            exact .forward found fits
          · rw [RelayPhase.Allowed, if_neg fits] at allowed
            subst allowed
            cases happens
            exact .giveUp (some found)
  | rejected =>
      obtain ⟨response, isRejection, rfl⟩ := allowed
      cases happens
      exact .respondRejected response isRejection
  | forwarded found =>
      cases allowed
      cases happens
      exact .respondForwarded found
  | failed =>
      cases allowed
      cases happens
      exact .respondFailed

theorem counts_unfinished : relayRules.Counts RelayPhase.IsOpen Relay.unfinished := by
  intro relay phase effect answer after allowed happens
  have moves := Relay.moves_of_allowed allowed happens
  change after.unfinished + (if phase.IsOpen then 1 else 0) =
    relay.unfinished + (if (phase.next effect answer).IsOpen then 1 else 0)
  generalize phase.next effect answer = later at moves ⊢
  cases moves <;>
    simp [Relay.unfinished, RelayPhase.IsOpen, Relay.count, Relay.post, Relay.drop, Relay.receive,
      Relay.respond] <;>
    omega

theorem counts_unanswered : relayRules.Counts RelayPhase.IsPosted Relay.unanswered := by
  intro relay phase effect answer after allowed happens
  have moves := Relay.moves_of_allowed allowed happens
  change after.unanswered + (if phase.IsPosted then 1 else 0) =
    relay.unanswered + (if (phase.next effect answer).IsPosted then 1 else 0)
  generalize phase.next effect answer = later at moves ⊢
  cases moves <;>
    simp [Relay.unanswered, RelayPhase.IsPosted, Relay.count, Relay.post, Relay.drop,
      Relay.receive, Relay.respond] <;>
    omega

/-- A response that a target, the relay or its health may give. -/
def Relay.Explains (relay : Relay) (response : RelayResponse) : Prop :=
  (∃ answer ∈ relay.answers, Forwardable answer ∧ response = answer.relayed) ∨
    response ∈ rejections ∨ response = badGateway ∨ IsHealth response

theorem Relay.Explains.mono {relay after : Relay} {response : RelayResponse}
    (explains : relay.Explains response) (more : relay.answers ⊆ after.answers) :
    after.Explains response :=
  explains.imp_left fun ⟨answer, mem, rest⟩ => ⟨answer, more mem, rest⟩

/-- A phase that has a response has one of a target. -/
def RelayPhase.Holds (answers : List HttpResponse) : RelayPhase → Prop
  | received (some answer) => answer ∈ answers
  | forwarded answer => answer ∈ answers ∧ Forwardable answer
  | _ => True

theorem RelayPhase.Holds.mono {first second : List HttpResponse} {phase : RelayPhase}
    (holds : phase.Holds first) (more : first ⊆ second) : phase.Holds second := by
  cases phase with
  | received found =>
      cases found with
      | none => trivial
      | some answer => exact more holds
  | forwarded answer => exact ⟨more holds.1, holds.2⟩
  | _ => trivial

/-- What the relay has sent to targets and to clients. -/
structure Relay.Sound (relay : Relay) (phases : Nat → RelayPhase) : Prop where
  counters : ∀ counter, relay.counters counter = .ofNat (relay.counts counter)
  posts : ∀ post ∈ relay.posts, SafePost post
  holds : ∀ id, (phases id).Holds relay.answers
  responses : ∀ response ∈ relay.responses, relay.Explains response

section Keep

variable {relay : Relay} {phases : Nat → RelayPhase} {id : Nat} {phase : RelayPhase}

theorem Relay.Sound.moved (sound : relay.Sound phases) (holds : phase.Holds relay.answers) :
    relay.Sound (Function.update phases id phase) where
  counters := sound.counters
  posts := sound.posts
  holds other := by
    by_cases same : other = id
    · rw [same, Function.update_self]
      exact holds
    · rw [Function.update_of_ne same]
      exact sound.holds other
  responses := sound.responses

theorem Relay.Sound.count (sound : relay.Sound phases) (counter : RelayCounter) :
    (relay.count counter).Sound phases where
  counters other := by
    by_cases same : other = counter
    · subst same
      simp only [Relay.count, Function.update_self, sound.counters, UInt64.ofNat_add]
      rfl
    · simp only [Relay.count, Function.update_of_ne same, sound.counters]
  posts := sound.posts
  holds := sound.holds
  responses := sound.responses

theorem Relay.Sound.post (sound : relay.Sound phases) {url : Text} {body : List UInt8}
    (safe : SafePost (url, body)) : (relay.post url body).Sound phases where
  counters := sound.counters
  posts post mem := by
    rcases List.mem_append.mp mem with before | isNew
    · exact sound.posts post before
    · rwa [List.mem_singleton.mp isNew]
  holds := sound.holds
  responses := sound.responses

theorem Relay.Sound.drop (sound : relay.Sound phases) : relay.drop.Sound phases :=
  ⟨sound.counters, sound.posts, sound.holds, sound.responses⟩

theorem Relay.Sound.receive (sound : relay.Sound phases) (answer : HttpResponse) :
    (relay.receive answer).Sound phases where
  counters := sound.counters
  posts := sound.posts
  holds other := (sound.holds other).mono (List.subset_append_left _ _)
  responses response mem := (sound.responses response mem).mono (List.subset_append_left _ _)

theorem Relay.Sound.respond (sound : relay.Sound phases) {response : RelayResponse}
    (explains : relay.Explains response) : (relay.respond response).Sound phases where
  counters := sound.counters
  posts := sound.posts
  holds := sound.holds
  responses other mem := by
    rcases List.mem_append.mp mem with before | isNew
    · exact sound.responses other before
    · rwa [List.mem_singleton.mp isNew]

theorem keeps_sound : relayRules.Keeps Relay.Sound := by
  intro relay phases id effect answer after sound allowed happens
  have moves := Relay.moves_of_allowed allowed happens
  change after.Sound (Function.update phases id ((phases id).next effect answer))
  generalize (phases id).next effect answer = later at moves ⊢
  have holds := sound.holds id
  generalize phases id = before at moves holds
  cases moves with
  | arrive => exact (sound.count _).moved trivial
  | look => exact sound.moved trivial
  | report response isHealth => exact (sound.respond (.inr (.inr (.inr isHealth)))).moved trivial
  | reject => exact (sound.count _).moved trivial
  | post url body safe => exact (sound.post safe).moved trivial
  | drop => exact sound.drop.moved trivial
  | receive found =>
      exact (sound.receive found).moved (List.mem_append_right _ (List.mem_singleton_self found))
  | receiveNone => exact sound.moved trivial
  | forward found fits => exact (sound.count _).moved ⟨holds, fits⟩
  | giveUp found => exact (sound.count _).moved trivial
  | respondRejected response isRejection =>
      exact (sound.respond (.inr (.inl isRejection))).moved trivial
  | respondForwarded found =>
      exact (sound.respond (.inl ⟨found, holds.1, holds.2, rfl⟩)).moved trivial
  | respondFailed => exact (sound.respond (.inr (.inr (.inl rfl)))).moved trivial

end Keep

theorem sound_new : Relay.new.Sound fun _ => .idle where
  counters _ := rfl
  posts := by rintro _ ⟨⟩
  holds _ := trivial
  responses := by rintro _ ⟨⟩

def sealedRequest : RelayRequest :=
  ⟨text "odoh.example", text "/dns-query",
    some (text "application/oblivious-dns-message; charset=x"), [1, 2, 3]⟩

theorem handleRelay_sealedRequest :
    RelayTask.handleRelay sealedRequest = ask (.count .totalRequests) fun _ =>
      RelayTask.forwardToTarget sealedRequest.targetUrl sealedRequest.body >>= RelayTask.finish := by
  have isSealed : contentTypeMatches sealedRequest.contentType odohContentType = true := by
    decide +kernel
  have short : ¬maxBodyBytes < sealedRequest.body.length := by decide
  have isTarget : (!isValidHostname sealedRequest.targethost ||
      !(text "/").isPrefixOf sealedRequest.targetpath) = false := by
    decide +kernel
  simp only [RelayTask.handleRelay, isSealed, short, isTarget]
  rfl

end Numa
