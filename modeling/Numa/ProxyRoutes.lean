import Mathlib.Data.List.Infix
import Numa.LanServices
import Numa.ServiceStore

/-!
# Routes of the reverse proxy

`resolve_route` of `service_store.rs` compares paths by their octets and cuts a
prefix off at an octet index.  Read as characters, it picks the longest route
that is the path of the request or a prefix of it up to a `/`.
-/

namespace Numa

/-- The octet of `/`. -/
def slash : UInt8 := 0x2F

/-- `max_by_key`: of several maxima the last. -/
def maxByKey {α : Type} (key : α → Nat) : List α → Option α
  | [] => none
  | first :: rest =>
    some (rest.foldl (fun best next => if key next < key best then best else next) first)

/-- `is_char_boundary`. -/
def isCharBoundary (val : Text) (index : Nat) : Bool :=
  index == 0 ||
    match val[index]? with
    | none => index == val.length
    | some octet => octet < 0x80 || 0xC0 ≤ octet

/-- `&val[index..]`, which panics inside a character. -/
def sliceFrom (val : Text) (index : Nat) : Option Text :=
  if isCharBoundary val index then some (val.drop index) else none

/-- The filter of `resolve_route`. -/
def RouteEntry.isMatch (route : RouteEntry) (requestPath : String) : Bool :=
  requestPath == route.path ||
    ((text route.path).isPrefixOf (text requestPath) &&
      ((text route.path).getLast? == some slash ||
        (text requestPath)[(text route.path).length]? == some slash))

/-- The port and the path for a request; nothing where the code panics. -/
def ServiceEntry.resolveRoute (entry : ServiceEntry) (requestPath : String) :
    Option (UInt16 × Text) :=
  let matched := maxByKey (fun route : RouteEntry => (text route.path).length)
    (entry.routes.filter fun route => route.isMatch requestPath)
  match matched with
  | some route =>
    if route.strip then
      (sliceFrom (text requestPath) (text route.path).length).map fun stripped =>
        if stripped.isEmpty || stripped.head? != some slash then
          (route.port, slash :: stripped.dropWhile (· == slash))
        else (route.port, stripped)
    else some (route.port, text requestPath)
  | none => some (entry.targetPort, text requestPath)

/-! ## Maxima -/

section MaxByKey

variable {α : Type} (key : α → Nat)

theorem maxByKey_foldl_spec (first : α) (rest : List α) :
    let best := rest.foldl (fun best next => if key next < key best then best else next) first
    best ∈ first :: rest ∧ ∀ other ∈ first :: rest, key other ≤ key best := by
  induction rest generalizing first with
  | nil => simp
  | cons next rest ih =>
      obtain ⟨mem, largest⟩ := ih (if key next < key first then first else next)
      have seen : (if key next < key first then first else next) ∈ [first, next] := by
        split <;> simp
      have covers : key first ≤ key (if key next < key first then first else next) ∧
          key next ≤ key (if key next < key first then first else next) := by
        split <;> omega
      have start := largest _ List.mem_cons_self
      rw [List.foldl_cons]
      refine ⟨?_, fun other otherMem => ?_⟩
      · rcases List.mem_cons.mp mem with same | later
        · rw [same]
          exact List.mem_append_left rest seen
        · exact List.mem_append_right [first, next] later
      · rcases List.mem_cons.mp otherMem with rfl | otherMem
        · exact covers.1.trans start
        · rcases List.mem_cons.mp otherMem with rfl | later
          · exact covers.2.trans start
          · exact largest other (List.mem_cons_of_mem _ later)

theorem mem_of_maxByKey {key : α → Nat} {items : List α} {best : α}
    (found : maxByKey key items = some best) :
    best ∈ items ∧ ∀ other ∈ items, key other ≤ key best := by
  cases items with
  | nil => cases found
  | cons first rest =>
      cases found
      exact maxByKey_foldl_spec key first rest

theorem maxByKey_eq_none_iff {key : α → Nat} {items : List α} :
    maxByKey key items = none ↔ items = [] := by
  cases items <;> simp [maxByKey]

end MaxByKey

/-! ## Octets and characters -/

theorem utf8EncodeChar_ne_nil (char : Char) : String.utf8EncodeChar char ≠ [] :=
  List.ne_nil_of_length_pos (by simpa using char.utf8Size_pos)

/-- The octets of a character are those of no other, whatever follows. -/
theorem eq_of_utf8EncodeChar_append_eq {first second : Char} {rest other : List UInt8}
    (same : String.utf8EncodeChar first ++ rest = String.utf8EncodeChar second ++ other) :
    first = second := by
  have decoded := congrArg (fun octets : List UInt8 => octets.toByteArray.utf8DecodeChar? 0) same
  simpa [List.toByteArray_append, ByteArray.utf8DecodeChar?_utf8EncodeChar_append] using decoded

theorem isPrefix_of_flatMap {first second : List Char}
    (isPrefix : first.flatMap String.utf8EncodeChar <+: second.flatMap String.utf8EncodeChar) :
    first <+: second := by
  induction first generalizing second with
  | nil => exact List.nil_prefix
  | cons char first ih =>
      obtain ⟨behind, same⟩ := isPrefix
      rw [List.flatMap_cons, List.append_assoc] at same
      cases second with
      | nil => exact absurd (List.append_eq_nil_iff.mp same).1 (utf8EncodeChar_ne_nil char)
      | cons other second =>
          rw [List.flatMap_cons] at same
          obtain rfl := eq_of_utf8EncodeChar_append_eq same
          exact (List.prefix_cons_inj char).mpr (ih ⟨behind, List.append_cancel_left same⟩)

theorem text_prefix_iff {first second : String} :
    text first <+: text second ↔ first.toList <+: second.toList := by
  rw [text_eq_flatMap, text_eq_flatMap]
  refine ⟨isPrefix_of_flatMap, ?_⟩
  rintro ⟨rest, same⟩
  rw [← same, List.flatMap_append]
  exact List.prefix_append _ _

theorem utf8EncodeChar_slash : String.utf8EncodeChar '/' = [slash] := by
  decide

/-- The octet of `/` is in no other character. -/
theorem slash_mem_utf8EncodeChar_iff {char : Char} :
    slash ∈ String.utf8EncodeChar char ↔ char = '/' := by
  constructor
  · intro mem
    obtain ⟨index, bound, atIndex⟩ := List.mem_iff_getElem.mp mem
    have isFirst : (String.utf8EncodeChar char)[index].IsUTF8FirstByte := by
      rw [atIndex]
      decide
    obtain rfl := UInt8.isUTF8FirstByte_getElem_utf8EncodeChar.mp isFirst
    have split : String.utf8EncodeChar char ++ [] =
        String.utf8EncodeChar '/' ++ (String.utf8EncodeChar char).drop 1 := by
      rw [utf8EncodeChar_slash, ← atIndex, List.append_nil, List.singleton_append]
      exact (List.getElem_cons_drop bound).symm
    exact eq_of_utf8EncodeChar_append_eq split
  · rintro rfl
    rw [utf8EncodeChar_slash]
    exact List.mem_singleton_self _

theorem head?_text_eq_slash_iff (val : String) :
    (text val).head? = some slash ↔ val.toList.head? = some '/' := by
  rw [text_eq_flatMap]
  cases val.toList with
  | nil => simp
  | cons char rest =>
      rw [List.flatMap_cons, List.head?_append_of_ne_nil _ (utf8EncodeChar_ne_nil char),
        List.head?_cons, Option.some.injEq, ← slash_mem_utf8EncodeChar_iff]
      refine ⟨List.mem_of_mem_head?, fun mem => ?_⟩
      rw [slash_mem_utf8EncodeChar_iff.mp mem, utf8EncodeChar_slash]
      rfl

theorem getLast?_text_eq_slash_iff (val : String) :
    (text val).getLast? = some slash ↔ val.toList.getLast? = some '/' := by
  rw [text_eq_flatMap]
  rcases List.eq_nil_or_concat val.toList with nil | ⟨front, char, split⟩
  · simp [nil]
  · rw [split, List.concat_eq_append, List.flatMap_append, List.flatMap_singleton,
      List.getLast?_append_of_ne_nil _ (utf8EncodeChar_ne_nil char), List.getLast?_concat,
      Option.some.injEq, ← slash_mem_utf8EncodeChar_iff]
    refine ⟨List.mem_of_mem_getLast?, fun mem => ?_⟩
    rw [slash_mem_utf8EncodeChar_iff.mp mem, utf8EncodeChar_slash]
    rfl

/-- A text can be cut in front of any of its characters. -/
theorem isCharBoundary_text_append (front rest : String) :
    isCharBoundary (text front ++ text rest) (text front).length = true := by
  rw [isCharBoundary, List.getElem?_append_right le_rfl, Nat.sub_self, text_eq_flatMap rest]
  cases rest.toList with
  | nil => simp
  | cons char chars =>
      have isFirst := UInt8.isUTF8FirstByte_getElem_zero_utf8EncodeChar (c := char)
      have positive : 0 < (String.utf8EncodeChar char).length := by
        simpa using char.utf8Size_pos
      rw [List.flatMap_cons, List.getElem?_append_left positive, List.getElem?_eq_getElem positive]
      have table : ∀ index : Fin 256, (UInt8.ofFin index).IsUTF8FirstByte →
          (UInt8.ofFin index < 0x80 || 0xC0 ≤ UInt8.ofFin index) = true := by
        decide +kernel
      rw [Bool.or_eq_true]
      exact .inr (table _ isFirst)

/-! ## Matching -/

/-- A path that is followed by some characters in a request, and ends where the
request does or at a `/`. -/
def RouteEntry.Covers (route : RouteEntry) (requestPath : String) (rest : String) : Prop :=
  requestPath = route.path ++ rest ∧
    (rest = "" ∨ route.path.toList.getLast? = some '/' ∨ rest.toList.head? = some '/')

theorem text_append (first second : String) : text (first ++ second) = text first ++ text second := by
  rw [text_eq_flatMap, text_eq_flatMap, text_eq_flatMap, String.toList_append, List.flatMap_append]

theorem RouteEntry.isMatch_iff (route : RouteEntry) (requestPath : String) :
    route.isMatch requestPath = true ↔ ∃ rest, route.Covers requestPath rest := by
  rw [isMatch, Bool.or_eq_true, Bool.and_eq_true, Bool.or_eq_true, beq_iff_eq, beq_iff_eq, beq_iff_eq,
    List.isPrefixOf_iff_prefix, text_prefix_iff, getLast?_text_eq_slash_iff]
  constructor
  · rintro (same | ⟨⟨rest, split⟩, boundary⟩)
    · exact ⟨"", by rw [same, String.append_empty], .inl rfl⟩
    · have request : requestPath = route.path ++ String.ofList rest := by
        rw [← String.toList_inj, String.toList_append, String.toList_ofList, split]
      refine ⟨String.ofList rest, request, .inr (boundary.imp_right fun next => ?_)⟩
      rw [request, text_append, List.getElem?_append_right le_rfl, Nat.sub_self,
        ← List.head?_eq_getElem?] at next
      exact (head?_text_eq_slash_iff _).mp next
  · rintro ⟨rest, rfl, rfl | boundary⟩
    · exact .inl (String.append_empty)
    · refine .inr ⟨?_, boundary.imp_right fun next => ?_⟩
      · rw [String.toList_append]
        exact List.prefix_append _ _
      · rw [text_append, List.getElem?_append_right le_rfl, Nat.sub_self, ← List.head?_eq_getElem?]
        exact (head?_text_eq_slash_iff _).mpr next

/-! ## Routing -/

/-- The path that a route passes on: the request's, or what follows the prefix,
behind a `/`. -/
def RouteEntry.passedPath (route : RouteEntry) (requestPath rest : String) : String :=
  if route.strip then
    if rest.toList.head? = some '/' then rest else "/" ++ rest
  else requestPath

/-- The longest route that covers a request is taken, or the default port. -/
def ServiceEntry.Resolves (entry : ServiceEntry) (requestPath : String) : Prop :=
  (∃ route ∈ entry.routes, ∃ rest, route.Covers requestPath rest ∧
    (∀ other ∈ entry.routes, other ≠ route → ∀ behind, other.Covers requestPath behind →
      other.path.length < route.path.length) ∧
    entry.resolveRoute requestPath =
      some (route.port, text (route.passedPath requestPath rest))) ∨
  ((∀ route ∈ entry.routes, ∀ rest, ¬ route.Covers requestPath rest) ∧
    entry.resolveRoute requestPath = some (entry.targetPort, text requestPath))

theorem RouteEntry.Covers.text_prefix {route : RouteEntry} {requestPath rest : String}
    (covers : route.Covers requestPath rest) : text route.path <+: text requestPath := by
  rw [covers.1, text_append]
  exact List.prefix_append _ _

theorem RouteEntry.Covers.rest_eq {route : RouteEntry} {requestPath rest other : String}
    (covers : route.Covers requestPath rest) (also : route.Covers requestPath other) :
    rest = other := by
  have same := congrArg String.toList (covers.1.symm.trans also.1)
  rw [String.toList_append, String.toList_append] at same
  exact String.toList_inj.mp (List.append_cancel_left same)

/-- A slash is put in front of what does not begin with one. -/
theorem text_slash_append {rest : String} (noSlash : rest.toList.head? ≠ some '/') :
    text ("/" ++ rest) = slash :: (text rest).dropWhile (· == slash) := by
  have kept : (text rest).dropWhile (· == slash) = text rest := by
    have start := (head?_text_eq_slash_iff rest).not.mpr noSlash
    cases octets : text rest with
    | nil => rfl
    | cons octet rest =>
        rw [octets, List.head?_cons, Option.some.injEq] at start
        exact List.dropWhile_cons_of_neg (by simpa using start)
  rw [kept, text_append]
  rfl

section Resolve

variable {entry : ServiceEntry} {requestPath : String}

theorem resolveRoute_of_maxByKey {route : RouteEntry} {rest : String}
    (found : maxByKey (fun route : RouteEntry => (text route.path).length)
      (entry.routes.filter fun route => route.isMatch requestPath) = some route)
    (covers : route.Covers requestPath rest) :
    entry.resolveRoute requestPath = some (route.port, text (route.passedPath requestPath rest)) := by
  rw [ServiceEntry.resolveRoute, found]
  dsimp only
  rw [RouteEntry.passedPath]
  split
  · rw [covers.1, text_append, sliceFrom, if_pos (isCharBoundary_text_append _ _), Option.map_some,
      List.drop_left]
    by_cases start : rest.toList.head? = some '/'
    · have octet := (head?_text_eq_slash_iff rest).mpr start
      have notEmpty : (text rest).isEmpty = false := by
        cases octets : text rest with
        | nil => rw [octets] at octet; cases octet
        | cons _ _ => rfl
      rw [if_pos start, octet, notEmpty]
      rfl
    · have octet := (head?_text_eq_slash_iff rest).not.mpr start
      rw [if_neg start, text_slash_append start, if_pos (by simp [octet])]
  · rfl

theorem length_lt_of_covers {route other : RouteEntry} {rest behind : String}
    (distinct : entry.Distinct) (mem : route ∈ entry.routes) (otherMem : other ∈ entry.routes)
    (ne : other ≠ route) (covers : route.Covers requestPath rest)
    (otherCovers : other.Covers requestPath behind)
    (le : (text other.path).length ≤ (text route.path).length) :
    other.path.length < route.path.length := by
  have isPrefix : other.path.toList <+: route.path.toList :=
    text_prefix_iff.mp
      (List.prefix_of_prefix_length_le otherCovers.text_prefix covers.text_prefix le)
  rw [← String.length_toList, ← String.length_toList]
  refine lt_of_le_of_ne isPrefix.length_le fun same => ne ?_
  exact distinct.eq_of_path_eq otherMem mem
    (String.toList_inj.mp (isPrefix.eq_of_length same))

/-- A service whose routes have different paths routes every request. -/
theorem ServiceEntry.Distinct.resolves (distinct : entry.Distinct) : entry.Resolves requestPath := by
  cases found : maxByKey (fun route : RouteEntry => (text route.path).length)
      (entry.routes.filter fun route => route.isMatch requestPath) with
  | none =>
      refine .inr ⟨fun route mem rest covers => ?_, by rw [ServiceEntry.resolveRoute, found]⟩
      have matching : route ∈ entry.routes.filter fun route => route.isMatch requestPath :=
        List.mem_filter.mpr ⟨mem, (route.isMatch_iff requestPath).mpr ⟨rest, covers⟩⟩
      rw [maxByKey_eq_none_iff.mp found] at matching
      cases matching
  | some route =>
      obtain ⟨mem, largest⟩ := mem_of_maxByKey found
      obtain ⟨routeMem, isMatch⟩ := List.mem_filter.mp mem
      obtain ⟨rest, covers⟩ := (route.isMatch_iff requestPath).mp isMatch
      refine .inl ⟨route, routeMem, rest, covers, ?_, resolveRoute_of_maxByKey found covers⟩
      intro other otherMem ne behind otherCovers
      refine length_lt_of_covers distinct routeMem otherMem ne covers otherCovers (largest other ?_)
      exact List.mem_filter.mpr ⟨otherMem, (other.isMatch_iff requestPath).mpr ⟨behind, otherCovers⟩⟩

/-- The order of the routes makes no difference. -/
theorem ServiceEntry.Distinct.resolveRoute_congr {other : ServiceEntry} (distinct : entry.Distinct)
    (samePort : other.targetPort = entry.targetPort) (perm : other.routes.Perm entry.routes) :
    other.resolveRoute requestPath = entry.resolveRoute requestPath := by
  have otherDistinct : other.Distinct := ((perm.map _).nodup_iff).mpr distinct
  have resolves : entry.Resolves requestPath := distinct.resolves
  have otherResolves : other.Resolves requestPath := otherDistinct.resolves
  rcases resolves with ⟨route, mem, rest, covers, longest, resolved⟩ | ⟨none, resolved⟩
  · rcases otherResolves with ⟨taken, takenMem, behind, takenCovers, takenLongest, taking⟩ |
      ⟨none, -⟩
    · have same : taken = route := by
        by_contra ne
        have shorter := longest taken (perm.mem_iff.mp takenMem) ne behind takenCovers
        have longer := takenLongest route (perm.mem_iff.mpr mem) (Ne.symm ne) rest covers
        omega
      subst same
      rw [resolved, taking, covers.rest_eq takenCovers]
    · exact absurd covers (none route (perm.mem_iff.mpr mem) rest)
  · rcases otherResolves with ⟨taken, takenMem, behind, takenCovers, -⟩ | ⟨-, taking⟩
    · exact absurd takenCovers (none taken (perm.mem_iff.mp takenMem) behind)
    · rw [resolved, taking, samePort]

end Resolve

/-- A service that was inserted, after any operations on the services, sends
every request along its longest covering route, in whatever order its routes
were added. -/
theorem ServiceStore.resolveRoute_correct (toLowercase : String → String) (store : ServiceStore)
    (name : String) (targetPort : UInt16) (targetHost : Option String)
    (operations : List ServiceOperation) {later : ServiceStore} {entry : ServiceEntry}
    (reached : later = operations.foldl (perform toLowercase)
      (store.insert toLowercase name targetPort targetHost))
    (found : later.lookup toLowercase name = some entry) (requestPath : String) :
    entry.Resolves requestPath ∧
      (∀ other : ServiceEntry, other.targetPort = entry.targetPort →
        other.routes.Perm entry.routes →
          other.resolveRoute requestPath = entry.resolveRoute requestPath) ∧
      ∀ added arranged : List RouteEntry, (added.map (·.path)).Nodup → arranged.Perm added →
        ∃ first second,
          (added.foldl (fun store route => (store.addRoute toLowercase name route).1) later).lookup
            toLowercase name = some first ∧
          (arranged.foldl (fun store route => (store.addRoute toLowercase name route).1) later).lookup
            toLowercase name = some second ∧
          second.resolveRoute requestPath = first.resolveRoute requestPath := by
  have distinct : entry.Distinct := by
    have distinctAt := distinctAt_of_insert toLowercase store name targetPort targetHost operations
    rw [← reached] at distinctAt
    exact distinctAt entry found
  refine ⟨distinct.resolves, fun other => distinct.resolveRoute_congr, ?_⟩
  intro added arranged nodup perm
  refine ⟨_, _, lookup_foldl_addRoute found added, lookup_foldl_addRoute found arranged, ?_⟩
  have arrangedNodup : (arranged.map (·.path)).Nodup := ((perm.map _).nodup_iff).mpr nodup
  refine ServiceEntry.Distinct.resolveRoute_congr (distinct.foldl_addRoute added) ?_ ?_
  · rw [ServiceEntry.targetPort_foldl_addRoute, ServiceEntry.targetPort_foldl_addRoute]
  · rw [ServiceEntry.routes_foldl_addRoute _ arrangedNodup, ServiceEntry.routes_foldl_addRoute _ nodup]
    refine List.Perm.append (List.Perm.of_eq (List.filter_congr fun other _ => ?_)) perm
    rw [decide_eq_decide, (perm.map _).mem_iff]

/-- Of two routes the longer one is taken, and its prefix cut off. -/
theorem ServiceStore.resolveRoute_correct_sample :
    (⟨"app", 3000, none, [⟨"/api", 4000, false⟩, ⟨"/api/v2", 5000, true⟩]⟩ : ServiceEntry).Resolves
      "/api/v2/users" :=
  (resolveRoute_correct id ⟨∅⟩ "app" 3000 none
    [.addRoute "app" ⟨"/api", 4000, false⟩, .addRoute "app" ⟨"/api/v2", 5000, true⟩] rfl rfl
    "/api/v2/users").1

end Numa
