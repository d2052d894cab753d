import Mathlib.Data.List.DropRight
import Mathlib.Data.Finset.Insert
import Numa.ProxyRoutes
import Numa.WhiteSpace

/-!
# Services of the configuration and of users

`ServiceStore` of `service_store.rs` with the names that the configuration has
taken and the listing that it saves, and the requests of `api.rs` that change
it, but for the certificate and the probes of a new service.  `to_lowercase` is
a parameter.
-/

namespace Numa

structure StoredServices where
  store : ServiceStore
  configServices : Finset String

namespace StoredServices

variable (toLowercase : String → String)

def new : StoredServices :=
  ⟨⟨∅⟩, ∅⟩

def insertFromConfig (services : StoredServices) (service : ServiceEntry) : StoredServices :=
  let key := toLowercase service.name
  ⟨⟨services.store.entries.insert key { service with name := key }⟩,
    insert key services.configServices⟩

/-- What `load_persisted` does with an entry of the file. -/
def loadEntry (services : StoredServices) (entry : ServiceEntry) : StoredServices :=
  let key := toLowercase entry.name
  if key ∈ services.configServices then services
  else { services with store := ⟨services.store.entries.insert key entry⟩ }

def loadPersisted (services : StoredServices) (entries : List ServiceEntry) : StoredServices :=
  entries.foldl (loadEntry toLowercase) services

/-- What `save` writes, in the order in which the map is iterated. -/
def userServices (services : StoredServices) : List ServiceEntry :=
  (services.store.entries.entries.map Sigma.snd).filter fun entry =>
    entry.name ∉ services.configServices

def lookup (services : StoredServices) (key : String) : Option ServiceEntry :=
  services.store.entries.lookup key

/-- What `serve` sets up before it loads the file: numa's own interface, and the
services of the configuration. -/
def configured (apiPort : UInt16) (services : List ServiceEntry) : StoredServices :=
  services.foldl (insertFromConfig toLowercase)
    (insertFromConfig toLowercase new ⟨"numa", apiPort, none, []⟩)

end StoredServices

/-! ## Requests -/

/-- `char::is_whitespace`. -/
def isWhitespaceChar (char : Char) : Bool :=
  isSpace (text char.toString)

/-- `char::is_control`. -/
def isControlChar (char : Char) : Bool :=
  char.toNat < 0x20 || (0x7F ≤ char.toNat && char.toNat < 0xA0)

/-- `str::trim`. -/
def trimString (value : String) : String :=
  .ofList ((value.toList.dropWhile isWhitespaceChar).rdropWhile isWhitespaceChar)

inductive ServiceRequest
  | createService (name : String) (targetPort : UInt16) (targetHost : Option String)
  | removeService (name : String)
  | addRoute (name : String) (route : RouteEntry)
  | removeRoute (name path : String)

/-- How a request was handled: the status, the text of an error, the services
after it, and whether they have been saved. -/
structure Handled where
  status : Nat
  message : String := ""
  services : StoredServices
  saves : Bool := false

namespace ServiceRequest

variable (toLowercase : String → String)

/-- Why a new service's name is refused. -/
def nameError (name : String) : Option String :=
  if name.isEmpty || 63 < (text name).length then some "name must be 1-63 characters"
  else if !name.toList.all (fun char => char.isAlphanum || char == '-') then
    some "name must contain only alphanumeric characters and hyphens"
  else none

/-- The host of a new service, without the usual ones. -/
def checkHost (targetHost : Option String) : Except String (Option String) :=
  match targetHost.map trimString with
  | none => .ok none
  | some host =>
    if host == "" || host == "localhost" || host == "127.0.0.1" then .ok none
    else if 253 < (text host).length then .error "target_host must be at most 253 characters"
    else if host.toList.any fun char =>
        isControlChar char || isWhitespaceChar char || char == '/' || char == ':' then
      .error "target_host must be a bare hostname or IP (no scheme, port, or path)"
    else .ok (some host)

def handleCreate (services : StoredServices) (name : String) (targetPort : UInt16)
    (targetHost : Option String) : Handled :=
  let name := toLowercase name
  match nameError name with
  | some message => { status := 400, message, services }
  | none =>
    if targetPort == 0 then { status := 400, message := "target_port must be > 0", services }
    else
      match checkHost targetHost with
      | .error message => { status := 400, message, services }
      | .ok host =>
        let store := services.store.insert toLowercase name targetPort host
        { status := 201, services := { services with store }, saves := true }

/-- `eq_ignore_ascii_case`. -/
def eqIgnoreAsciiCase (first second : String) : Bool :=
  first.toList.map Char.toLower == second.toList.map Char.toLower

def handleRemove (services : StoredServices) (name : String) : Handled :=
  if eqIgnoreAsciiCase name "numa" then { status := 403, services }
  else
    let (store, removed) := services.store.remove toLowercase name
    if removed then { status := 204, services := { services with store }, saves := true }
    else { status := 404, services }

/-- Why the path of a new route is refused. -/
def pathError (path : String) : Option String :=
  let octets := text path
  if octets.isEmpty || octets.head? != some slash then some "path must start with /"
  else if decide (text "/../" <:+: octets) || (text "/..").isSuffixOf octets ||
      octets.contains 0x25 then
    some "path must not contain '..' or percent-encoding"
  else none

def handleAddRoute (services : StoredServices) (name : String) (route : RouteEntry) : Handled :=
  match pathError route.path with
  | some message => { status := 400, message, services }
  | none =>
    if route.port == 0 then { status := 400, message := "port must be > 0", services }
    else
      let (store, added) := services.store.addRoute toLowercase name route
      if added then { status := 201, services := { services with store }, saves := true }
      else { status := 404, message := "service '" ++ name ++ "' not found", services }

def handleRemoveRoute (services : StoredServices) (name path : String) : Handled :=
  let (store, removed) := services.store.removeRoute toLowercase name path
  if removed then { status := 204, services := { services with store }, saves := true }
  else { status := 404, services }

def handle (services : StoredServices) : ServiceRequest → Handled
  | createService name targetPort targetHost =>
    handleCreate toLowercase services name targetPort targetHost
  | removeService name => handleRemove toLowercase services name
  | addRoute name route => handleAddRoute toLowercase services name route
  | removeRoute name path => handleRemoveRoute toLowercase services name path

end ServiceRequest

/-! ## Saving and loading -/

namespace StoredServices

variable {toLowercase : String → String} {services : StoredServices}

@[simp]
theorem configServices_loadPersisted (entries : List ServiceEntry) :
    (services.loadPersisted toLowercase entries).configServices = services.configServices := by
  induction entries generalizing services with
  | nil => rfl
  | cons entry entries ih =>
      rw [loadPersisted, List.foldl_cons]
      apply ih.trans
      unfold loadEntry
      dsimp only
      split <;> rfl

theorem lookup_loadEntry (entry : ServiceEntry) (key : String) :
    (services.loadEntry toLowercase entry).lookup key =
      if toLowercase entry.name = key ∧ key ∉ services.configServices then some entry
      else services.lookup key := by
  unfold loadEntry
  dsimp only
  split
  · rename_i inConfig
    rw [if_neg]
    rintro ⟨rfl, notConfig⟩
    exact notConfig inConfig
  · rename_i notConfig
    by_cases same : toLowercase entry.name = key
    · subst same
      rw [if_pos ⟨rfl, notConfig⟩]
      exact AList.lookup_insert _
    · rw [if_neg fun both => same both.1]
      exact AList.lookup_insert_ne (Ne.symm same)

/-- Names that are not loaded, or that the configuration has. -/
theorem lookup_loadPersisted_of_absent {entries : List ServiceEntry} {key : String}
    (absent : ∀ entry ∈ entries, toLowercase entry.name = key → key ∈ services.configServices) :
    (services.loadPersisted toLowercase entries).lookup key = services.lookup key := by
  induction entries generalizing services with
  | nil => rfl
  | cons entry entries ih =>
      obtain ⟨first, later⟩ := List.forall_mem_cons.mp absent
      have same : (services.loadEntry toLowercase entry).configServices = services.configServices :=
        configServices_loadPersisted [entry]
      rw [loadPersisted, List.foldl_cons]
      refine (ih (by rwa [same])).trans ?_
      rw [lookup_loadEntry, if_neg]
      rintro ⟨isKey, notConfig⟩
      exact notConfig (first isKey)

/-- Each loaded entry is found under its name. -/
theorem lookup_loadPersisted {entries : List ServiceEntry}
    (distinct : (entries.map fun entry => toLowercase entry.name).Nodup) {entry : ServiceEntry}
    (mem : entry ∈ entries) (notConfig : toLowercase entry.name ∉ services.configServices) :
    (services.loadPersisted toLowercase entries).lookup (toLowercase entry.name) = some entry := by
  induction entries generalizing services with
  | nil => cases mem
  | cons first entries ih =>
      obtain ⟨isNew, distinct⟩ := List.nodup_cons.mp distinct
      have same : (services.loadEntry toLowercase first).configServices = services.configServices :=
        configServices_loadPersisted [first]
      rw [loadPersisted, List.foldl_cons]
      rcases List.mem_cons.mp mem with rfl | mem
      · refine (lookup_loadPersisted_of_absent fun other otherMem isKey => ?_).trans ?_
        · exact absurd (List.mem_map.mpr ⟨other, otherMem, isKey⟩) isNew
        · rw [lookup_loadEntry, if_pos ⟨rfl, notConfig⟩]
      · exact ih distinct mem (by rwa [same])

/-- Every service is under its name. -/
def Keyed (toLowercase : String → String) (services : StoredServices) : Prop :=
  ∀ key entry, services.lookup key = some entry → toLowercase entry.name = key

/-- What a restart leaves of the services: those of the configuration are reset,
and the others are kept. -/
def Restarts (configured services restarted : StoredServices) : Prop :=
  ∀ key, restarted.lookup key =
    if key ∈ configured.configServices then configured.lookup key else services.lookup key

/-- What has just been loaded is what another restart leaves. -/
theorem restarts_loadPersisted (entries : List ServiceEntry) :
    Restarts services (services.loadPersisted toLowercase entries)
      (services.loadPersisted toLowercase entries) := by
  intro key
  split
  · rename_i inConfig
    exact lookup_loadPersisted_of_absent fun _ _ _ => inConfig
  · rfl

/-- The configuration has taken the names of all its services. -/
def TakesNames (configured : StoredServices) : Prop :=
  ∀ key, key ∉ configured.configServices → configured.lookup key = none

theorem mem_values_iff {entry : ServiceEntry} :
    entry ∈ services.store.entries.entries.map Sigma.snd ↔
      ∃ key, services.lookup key = some entry := by
  rw [List.mem_map]
  constructor
  · rintro ⟨⟨key, value⟩, mem, rfl⟩
    exact ⟨key, AList.mem_lookup_iff.mpr mem⟩
  · rintro ⟨key, found⟩
    exact ⟨⟨key, entry⟩, AList.mem_lookup_iff.mp found, rfl⟩

theorem Keyed.nodup (keyed : services.Keyed toLowercase) :
    ((services.store.entries.entries.map Sigma.snd).map fun entry =>
      toLowercase entry.name).Nodup := by
  have keys : (services.store.entries.entries.map Sigma.snd).map
      (fun entry => toLowercase entry.name) = services.store.entries.keys := by
    rw [List.map_map]
    refine List.map_congr_left fun pair mem => ?_
    exact keyed pair.1 pair.2 (AList.mem_lookup_iff.mpr mem)
  rw [keys]
  exact services.store.entries.nodupKeys

/-- What has been saved in any order is what a restart leaves. -/
theorem Keyed.restarts_of_perm {configured : StoredServices} (keyed : services.Keyed toLowercase)
    (takesNames : configured.TakesNames)
    (same : services.configServices = configured.configServices)
    (isConfigured : ∀ key ∈ configured.configServices, toLowercase key = key)
    {listed : List ServiceEntry} (perm : listed.Perm services.userServices) :
    Restarts configured services (configured.loadPersisted toLowercase listed) := by
  intro key
  have listedMem : ∀ entry, entry ∈ listed ↔
      (∃ key, services.lookup key = some entry) ∧ entry.name ∉ services.configServices := by
    intro entry
    rw [perm.mem_iff, userServices, List.mem_filter, mem_values_iff]
    simp
  split
  · rename_i inConfig
    exact lookup_loadPersisted_of_absent fun _ _ _ => inConfig
  · rename_i notConfig
    cases found : services.lookup key with
    | none =>
        rw [lookup_loadPersisted_of_absent, takesNames key notConfig]
        rintro entry mem rfl
        obtain ⟨⟨other, otherFound⟩, -⟩ := (listedMem entry).mp mem
        rw [keyed other entry otherFound, otherFound] at found
        cases found
    | some entry =>
        have isKey := keyed key entry found
        have distinct : (listed.map fun entry => toLowercase entry.name).Nodup := by
          rw [(perm.map _).nodup_iff]
          exact (List.filter_sublist.map _).nodup keyed.nodup
        have mem : entry ∈ listed := by
          refine (listedMem entry).mpr ⟨⟨key, found⟩, fun inConfig => ?_⟩
          rw [same] at inConfig
          rw [isConfigured _ inConfig] at isKey
          exact notConfig (isKey ▸ inConfig)
        rw [← isKey]
        exact lookup_loadPersisted distinct mem (by rwa [isKey])

end StoredServices

/-! ## What requests change -/

/-- A text in lower case stays what it is, and only the spellings of `numa` have
it in lower case. -/
structure LowersNames (toLowercase : String → String) : Prop where
  lowered : ∀ name, toLowercase (toLowercase name) = toLowercase name
  numa : toLowercase "numa" = "numa"
  spelled : ∀ name, toLowercase name = "numa" → ServiceRequest.eqIgnoreAsciiCase name "numa" = true

theorem toLower_toLower (char : Char) : char.toLower.toLower = char.toLower := by
  unfold Char.toLower
  split
  · rename_i upper
    have above : ¬ (char.val + ('a'.val - 'A'.val) ≤ 'Z'.val) := by
      have low : 65 ≤ char.val.toNat := UInt32.le_iff_toNat_le.mp upper.1
      have high : char.val.toNat ≤ 90 := UInt32.le_iff_toNat_le.mp upper.2
      rw [UInt32.le_iff_toNat_le, UInt32.toNat_add, Nat.not_le]
      change 90 < (char.val.toNat + 32) % 2 ^ 32
      omega
    rw [dif_neg fun both => above both.2]
  · rfl

/-- `to_lowercase` of an ASCII string. -/
def asciiLowercase (name : String) : String :=
  .ofList (name.toList.map Char.toLower)

theorem lowersNames_asciiLowercase : LowersNames asciiLowercase where
  lowered name := by
    simp only [asciiLowercase, String.toList_ofList, List.map_map]
    exact congrArg String.ofList (List.map_congr_left fun char _ => toLower_toLower char)
  numa := by decide
  spelled name same := by
    have lowered : name.toList.map Char.toLower = "numa".toList := by
      rw [← same, asciiLowercase, String.toList_ofList]
    rw [ServiceRequest.eqIgnoreAsciiCase, lowered]
    decide

/-- A path that a route may have. -/
structure RouteEntry.IsValid (route : RouteEntry) : Prop where
  absolute : (text route.path).head? = some slash
  inside : ¬ text "/../" <:+: text route.path
  ends : ¬ text "/.." <:+ text route.path
  plain : 0x25 ∉ text route.path
  port : route.port ≠ 0

/-- A service as a user may define it. -/
structure ServiceEntry.IsValid (entry : ServiceEntry) : Prop where
  named : entry.name ≠ ""
  short : (text entry.name).length ≤ 63
  plain : ∀ char ∈ entry.name.toList, char.isAlphanum = true ∨ char = '-'
  port : entry.targetPort ≠ 0
  host : ∀ host ∈ entry.targetHost, host ≠ "" ∧ (text host).length ≤ 253 ∧ ∀ char ∈ host.toList,
    isControlChar char = false ∧ isWhitespaceChar char = false ∧ char ≠ '/' ∧ char ≠ ':'
  routes : ∀ route ∈ entry.routes, route.IsValid
  distinct : entry.Distinct

namespace ServiceRequest

theorem of_nameError {name : String} (noError : nameError name = none) :
    name ≠ "" ∧ (text name).length ≤ 63 ∧
      ∀ char ∈ name.toList, char.isAlphanum = true ∨ char = '-' := by
  unfold nameError at noError
  split at noError
  · cases noError
  · rename_i fits
    split at noError
    · cases noError
    · rename_i plain
      simp only [Bool.or_eq_true, decide_eq_true_eq, not_or, Nat.not_lt] at fits
      simp only [Bool.not_eq_true', Bool.not_eq_false, List.all_eq_true, Bool.or_eq_true,
        beq_iff_eq] at plain
      exact ⟨fun isEmpty => fits.1 (by rw [isEmpty]; rfl), fits.2, plain⟩

theorem of_checkHost {targetHost checked : Option String}
    (isOk : checkHost targetHost = .ok checked) :
    ∀ host ∈ checked, host ≠ "" ∧ (text host).length ≤ 253 ∧ ∀ char ∈ host.toList,
      isControlChar char = false ∧ isWhitespaceChar char = false ∧ char ≠ '/' ∧ char ≠ ':' := by
  unfold checkHost at isOk
  split at isOk
  · cases isOk
    nofun
  · split at isOk
    · cases isOk
      nofun
    · rename_i unusual
      split at isOk
      · cases isOk
      · rename_i fits
        split at isOk
        · cases isOk
        · rename_i plain
          cases isOk
          rintro host ⟨⟩
          simp only [Bool.or_eq_true, beq_iff_eq, not_or] at unusual
          simp only [Bool.not_eq_true, List.any_eq_false, Bool.or_eq_true, beq_iff_eq, not_or]
            at plain
          refine ⟨unusual.1.1, Nat.le_of_not_lt fits, fun char mem => ?_⟩
          simpa [and_assoc] using plain char mem

theorem of_pathError {route : RouteEntry} (noError : pathError route.path = none)
    (port : route.port ≠ 0) : route.IsValid := by
  unfold pathError at noError
  dsimp only at noError
  split at noError
  · cases noError
  · rename_i absolute
    split at noError
    · cases noError
    · rename_i plain
      simp only [Bool.or_eq_true, bne_iff_ne, not_or, not_not] at absolute
      simp only [Bool.or_eq_true, decide_eq_true_eq, List.isSuffixOf_iff_suffix,
        List.contains_iff_mem, not_or] at plain
      exact ⟨absolute.2, plain.1.1, plain.1.2, plain.2, port⟩

end ServiceRequest

/-- What a request may do to a service. -/
inductive ServiceChange (toLowercase : String → String) (services : StoredServices) :
    String → Option ServiceEntry → Prop
  | created {entry : ServiceEntry} (valid : entry.IsValid)
      (lowered : toLowercase entry.name = entry.name) :
      ServiceChange toLowercase services entry.name (some entry)
  | routeAdded {key : String} {entry : ServiceEntry} {route : RouteEntry}
      (found : services.lookup key = some entry) (valid : route.IsValid) :
      ServiceChange toLowercase services key (some (entry.addRoute route))
  | routeRemoved {key : String} {entry : ServiceEntry} {path : String}
      (found : services.lookup key = some entry) :
      ServiceChange toLowercase services key (some (entry.removeRoute path))
  | removed {key : String} (apart : key ≠ "numa") : ServiceChange toLowercase services key none

/-- A request changes one service and saves, or nothing. -/
inductive HandledAs (toLowercase : String → String) (services : StoredServices) :
    Handled → Prop
  | nothing {handled : Handled} (saves : handled.saves = false)
      (same : handled.services = services) : HandledAs toLowercase services handled
  | change {handled : Handled} {key : String} {entry : Option ServiceEntry}
      (saves : handled.saves = true)
      (change : ServiceChange toLowercase services key entry)
      (configServices : handled.services.configServices = services.configServices)
      (lookup : handled.services.lookup = Function.update services.lookup key entry) :
      HandledAs toLowercase services handled

namespace ServiceRequest

variable {toLowercase : String → String} {services : StoredServices}

theorem lookup_insert (key : String) (entry : ServiceEntry) :
    StoredServices.lookup { services with store := ⟨services.store.entries.insert key entry⟩ } =
      Function.update services.lookup key (some entry) := by
  funext other
  by_cases same : other = key
  · subst same
    rw [Function.update_self]
    exact AList.lookup_insert _
  · rw [Function.update_of_ne same]
    exact AList.lookup_insert_ne same

theorem lookup_erase (key : String) :
    StoredServices.lookup { services with store := ⟨services.store.entries.erase key⟩ } =
      Function.update services.lookup key none := by
  funext other
  by_cases same : other = key
  · subst same
    rw [Function.update_self]
    exact AList.lookup_erase _ _
  · rw [Function.update_of_ne same]
    exact AList.lookup_erase_ne same

theorem handledAs_handleCreate (lowers : LowersNames toLowercase) (name : String)
    (targetPort : UInt16) (targetHost : Option String) :
    HandledAs toLowercase services (handleCreate toLowercase services name targetPort targetHost) := by
  unfold handleCreate
  dsimp only
  cases named : nameError (toLowercase name) with
  | some message => exact .nothing rfl rfl
  | none =>
      dsimp only
      split
      · exact .nothing rfl rfl
      · rename_i port
        cases hosted : checkHost targetHost with
        | error message => exact .nothing rfl rfl
        | ok host =>
            obtain ⟨nonempty, short, plain⟩ := of_nameError named
            have lowered := lowers.lowered name
            have valid : ServiceEntry.IsValid ⟨toLowercase name, targetPort, host, []⟩ := by
              refine ⟨nonempty, short, plain, by simpa using port, of_checkHost hosted, nofun, ?_⟩
              exact List.nodup_nil
            refine .change rfl (.created valid lowered) rfl ?_
            dsimp only [ServiceStore.insert]
            rw [lowered]
            exact lookup_insert _ _

theorem handledAs_handleRemove (lowers : LowersNames toLowercase) (name : String) :
    HandledAs toLowercase services (handleRemove toLowercase services name) := by
  unfold handleRemove
  split
  · exact .nothing rfl rfl
  · rename_i notNuma
    dsimp only [ServiceStore.remove]
    split
    · exact .change rfl (.removed fun same => notNuma (lowers.spelled name same)) rfl
        (lookup_erase _)
    · exact .nothing rfl rfl

theorem handledAs_handleAddRoute (name : String) (route : RouteEntry) :
    HandledAs toLowercase services (handleAddRoute toLowercase services name route) := by
  unfold handleAddRoute
  cases allowed : pathError route.path with
  | some message => exact .nothing rfl rfl
  | none =>
      dsimp only
      split
      · exact .nothing rfl rfl
      · rename_i port
        have valid := of_pathError allowed (by simpa using port)
        cases found : services.store.entries.lookup (toLowercase name) with
        | none =>
            have absent : services.store.addRoute toLowercase name route = (services.store, false) := by
              simp only [ServiceStore.addRoute, found]
            rw [absent]
            exact .nothing rfl rfl
        | some entry =>
            have added : services.store.addRoute toLowercase name route =
                (⟨services.store.entries.insert (toLowercase name) (entry.addRoute route)⟩, true) := by
              simp only [ServiceStore.addRoute, found]
            rw [added]
            exact .change rfl (.routeAdded found valid) rfl (lookup_insert _ _)

theorem handledAs_handleRemoveRoute (name path : String) :
    HandledAs toLowercase services (handleRemoveRoute toLowercase services name path) := by
  unfold handleRemoveRoute ServiceStore.removeRoute
  dsimp only
  cases found : services.store.entries.lookup (toLowercase name) with
  | none => exact .nothing rfl rfl
  | some entry =>
      dsimp only
      split
      · exact .change rfl (.routeRemoved found) rfl (lookup_insert _ _)
      · exact .nothing rfl rfl

theorem handledAs_handle (lowers : LowersNames toLowercase) (request : ServiceRequest) :
    HandledAs toLowercase services (request.handle toLowercase services) := by
  cases request with
  | createService name targetPort targetHost =>
      exact handledAs_handleCreate lowers name targetPort targetHost
  | removeService name => exact handledAs_handleRemove lowers name
  | addRoute name route => exact handledAs_handleAddRoute name route
  | removeRoute name path => exact handledAs_handleRemoveRoute name path

end ServiceRequest

/-! ## What requests keep -/

namespace ServiceEntry.IsValid

variable {entry : ServiceEntry}

theorem addRoute (valid : entry.IsValid) {route : RouteEntry} (routeValid : route.IsValid) :
    (entry.addRoute route).IsValid where
  named := valid.named
  short := valid.short
  plain := valid.plain
  port := valid.port
  host := valid.host
  routes other mem := by
    rcases List.mem_append.mp mem with kept | added
    · exact valid.routes other (List.mem_of_mem_filter kept)
    · rw [List.mem_singleton.mp added]
      exact routeValid
  distinct := valid.distinct.addRoute route

theorem removeRoute (valid : entry.IsValid) (path : String) : (entry.removeRoute path).IsValid where
  named := valid.named
  short := valid.short
  plain := valid.plain
  port := valid.port
  host := valid.host
  routes other mem := valid.routes other (List.mem_of_mem_filter mem)
  distinct := valid.distinct.removeRoute path

end ServiceEntry.IsValid

namespace StoredServices

/-- What the configuration sets up. -/
structure IsConfigured (toLowercase : String → String) (configured : StoredServices) : Prop where
  taken : ∀ key, (configured.lookup key).isSome = true ↔ key ∈ configured.configServices
  keyed : configured.Keyed toLowercase
  lowered : ∀ key ∈ configured.configServices, toLowercase key = key
  numa : "numa" ∈ configured.configServices

/-- Numa's own service is there, and those that the configuration does not have
are as users may define them. -/
structure Sound (toLowercase : String → String) (configured services : StoredServices) : Prop where
  configServices : services.configServices = configured.configServices
  keyed : services.Keyed toLowercase
  numa : (services.lookup "numa").isSome = true
  valid : ∀ key entry, key ∉ configured.configServices → services.lookup key = some entry →
    entry.IsValid ∧ entry.name = key

variable {toLowercase : String → String} {configured services after : StoredServices}

theorem lookup_insertFromConfig (service : ServiceEntry) :
    (services.insertFromConfig toLowercase service).lookup =
      Function.update services.lookup (toLowercase service.name)
        (some { service with name := toLowercase service.name }) := by
  funext key
  by_cases same : key = toLowercase service.name
  · subst same
    rw [Function.update_self]
    exact AList.lookup_insert _
  · rw [Function.update_of_ne same]
    exact AList.lookup_insert_ne same

theorem isConfigured_configured (lowers : LowersNames toLowercase) (apiPort : UInt16)
    (services : List ServiceEntry) :
    (StoredServices.configured toLowercase apiPort services).IsConfigured toLowercase := by
  have inserted : ∀ {before : StoredServices} (service : ServiceEntry),
      (∀ key, (before.lookup key).isSome = true ↔ key ∈ before.configServices) →
      before.Keyed toLowercase → (∀ key ∈ before.configServices, toLowercase key = key) →
      "numa" ∈ insert (toLowercase service.name) before.configServices →
      (before.insertFromConfig toLowercase service).IsConfigured toLowercase := by
    intro before service taken keyed lowered numa
    refine ⟨fun key => ?_, fun key entry found => ?_, fun key mem => ?_, numa⟩
    · rw [lookup_insertFromConfig]
      by_cases same : key = toLowercase service.name
      · simp [same, insertFromConfig]
      · simp [same, insertFromConfig, taken]
    · rw [lookup_insertFromConfig] at found
      by_cases same : key = toLowercase service.name
      · rw [same, Function.update_self] at found
        cases found
        rw [same]
        exact lowers.lowered service.name
      · rw [Function.update_of_ne same] at found
        exact keyed key entry found
    · rcases Finset.mem_insert.mp mem with rfl | mem
      · exact lowers.lowered service.name
      · exact lowered key mem
  have start : (insertFromConfig toLowercase new ⟨"numa", apiPort, none, []⟩).IsConfigured
      toLowercase := by
    refine inserted ⟨"numa", apiPort, none, []⟩ (fun key => ?_) nofun nofun ?_
    · simp [new, lookup]
    · rw [lowers.numa]
      exact Finset.mem_insert_self ..
  unfold StoredServices.configured
  generalize insertFromConfig toLowercase new ⟨"numa", apiPort, none, []⟩ = before at start
  induction services generalizing before with
  | nil => exact start
  | cons service services ih =>
      refine ih _ (inserted service start.taken start.keyed start.lowered ?_)
      exact Finset.mem_insert_of_mem start.numa

theorem IsConfigured.takesNames (isConfigured : configured.IsConfigured toLowercase) :
    configured.TakesNames := by
  intro key notConfig
  rwa [← isConfigured.taken, Bool.not_eq_true, Option.isSome_eq_false_iff,
    Option.isNone_iff_eq_none] at notConfig

theorem IsConfigured.sound (isConfigured : configured.IsConfigured toLowercase) :
    Sound toLowercase configured configured where
  configServices := rfl
  keyed := isConfigured.keyed
  numa := (isConfigured.taken "numa").mpr isConfigured.numa
  valid key entry notConfig found := by
    rw [isConfigured.takesNames key notConfig] at found
    cases found

theorem Sound.handledAs {handled : Handled} (sound : Sound toLowercase configured services)
    (handledAs : HandledAs toLowercase services handled) :
    Sound toLowercase configured handled.services := by
  cases handledAs with
  | nothing saves same =>
      rw [same]
      exact sound
  | @change key entry saves change configServices lookup =>
      refine ⟨configServices.trans sound.configServices, fun other found otherFound => ?_, ?_,
        fun other found notConfig otherFound => ?_⟩
      · rw [lookup] at otherFound
        by_cases same : other = key
        · subst same
          rw [Function.update_self] at otherFound
          subst otherFound
          cases change with
          | created valid lowered => exact lowered
          | routeAdded before | routeRemoved before =>
              have isKey := sound.keyed other _ before
              exact isKey
        · rw [Function.update_of_ne same] at otherFound
          exact sound.keyed other found otherFound
      · rw [lookup]
        by_cases same : "numa" = key
        · subst same
          rw [Function.update_self]
          generalize isNuma : "numa" = key at change
          cases change with
          | created | routeAdded | routeRemoved => rfl
          | removed apart => exact absurd isNuma.symm apart
        · rw [Function.update_of_ne same]
          exact sound.numa
      · rw [lookup] at otherFound
        by_cases same : other = key
        · subst same
          rw [Function.update_self] at otherFound
          subst otherFound
          cases change with
          | created valid lowered => exact ⟨valid, rfl⟩
          | routeAdded before routeValid =>
              obtain ⟨valid, named⟩ := sound.valid other _ notConfig before
              exact ⟨valid.addRoute routeValid, named⟩
          | routeRemoved before =>
              obtain ⟨valid, named⟩ := sound.valid other _ notConfig before
              exact ⟨valid.removeRoute _, named⟩
        · rw [Function.update_of_ne same] at otherFound
          exact sound.valid other found notConfig otherFound

theorem Sound.restarts (sound : Sound toLowercase configured services)
    (isConfigured : configured.IsConfigured toLowercase)
    (same : after.configServices = configured.configServices)
    (restarts : Restarts configured services after) : Sound toLowercase configured after where
  configServices := same
  keyed key entry found := by
    rw [restarts key] at found
    split at found
    · exact isConfigured.keyed key entry found
    · exact sound.keyed key entry found
  numa := by
    rw [restarts "numa", if_pos isConfigured.numa]
    exact (isConfigured.taken "numa").mpr isConfigured.numa
  valid key entry notConfig found := by
    rw [restarts key, if_neg notConfig] at found
    exact sound.valid key entry notConfig found

end StoredServices

end Numa
