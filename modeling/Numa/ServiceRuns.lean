import Numa.Persist
import Numa.StoredServices

/-!
# Services over restarts

Runs of the requests that change services, with the file that they are saved
to.  The lock on the services orders the requests, and a request may end with
the program anywhere in its save.
-/

namespace Numa

open Interaction (CarriedOut done)
open Disk (Drifts LosesPower MovesOn)
open StoredServices (Restarts Sound)

structure ServiceHost (Path Content : Type) where
  disk : Disk Path Content
  services : StoredServices
  /-- The services before, the last first. -/
  before : List StoredServices

/-- What is given to the services.  On a reliable host the disk does not fail
and never loses power. -/
structure ServiceEnv (Path Content : Type) where
  toLowercase : String → String
  toJson : List ServiceEntry → Option Content
  fromJson : Content → Option (List ServiceEntry)
  path : JsonPath Path
  apiPort : UInt16
  configServices : List ServiceEntry
  reliable : Bool

variable {Path Content : Type}

namespace ServiceEnv

def configured (env : ServiceEnv Path Content) : StoredServices :=
  .configured env.toLowercase env.apiPort env.configServices

/-- A listing is read back as it was written. -/
structure Lawful (env : ServiceEnv Path Content) : Prop where
  lowers : LowersNames env.toLowercase
  readBack : ∀ entries, ∃ json, env.toJson entries = some json ∧ env.fromJson json = some entries

/-- The services after a request. -/
def handled (env : ServiceEnv Path Content) (services : StoredServices)
    (request : ServiceRequest) : Handled :=
  request.handle env.toLowercase services

end ServiceEnv

section Steps

variable [DecidableEq Path] (env : ServiceEnv Path Content)

/-- The program has been asked for a change, and is saving it. -/
structure Saving (services : StoredServices) (request : ServiceRequest) (disk : Disk Path Content)
    (rest : DiskTask Path Content Bool) (after : Disk Path Content) : Prop where
  saves : (env.handled services request).saves = true
  carriedOut : ∃ listed, List.Perm listed (env.handled services request).services.userServices ∧
    CarriedOut (MovesOn env.path.mine) (saveJson env.toJson env.path listed) disk rest after

/-- The program ends, perhaps with the power. -/
inductive Ends (disk : Disk Path Content) : Disk Path Content → Prop
  | killed : Ends disk disk
  | powerLost {after : Disk Path Content} (unreliable : env.reliable = false)
      (loses : LosesPower disk after) : Ends disk after

/-- The program starts, with what it can read of its file. -/
structure Boots (disk : Disk Path Content) (services : StoredServices)
    (after : Disk Path Content) : Prop where
  loads : ∃ entries, services = env.configured.loadPersisted env.toLowercase entries ∧
    CarriedOut (MovesOn env.path.mine) (loadJsonVec env.fromJson env.path) disk (done entries) after ∧
    (env.reliable = true → entries = loaded env.fromJson (disk.found env.path.file))

inductive ServiceStep (host : ServiceHost Path Content) : ServiceHost Path Content → Prop
  | refused {request : ServiceRequest} (saves : (env.handled host.services request).saves = false) :
      ServiceStep host { host with services := (env.handled host.services request).services }
  | handled {request : ServiceRequest} {saved : Bool} {after : Disk Path Content}
      (succeeds : env.reliable = true → saved = true)
      (saving : Saving env host.services request host.disk (done saved) after) :
      ServiceStep host
        ⟨after, (env.handled host.services request).services, host.services :: host.before⟩
  | killed {request : ServiceRequest} {rest : DiskTask Path Content Bool}
      {stopped restarted after : Disk Path Content} {services : StoredServices}
      (saving : Saving env host.services request host.disk rest stopped)
      (ends : Ends env stopped restarted) (boots : Boots env restarted services after) :
      ServiceStep host ⟨after, services,
        (env.handled host.services request).services :: host.services :: host.before⟩
  | restarted {restarted after : Disk Path Content} {services : StoredServices}
      (ends : Ends env host.disk restarted) (boots : Boots env restarted services after) :
      ServiceStep host ⟨after, services, host.services :: host.before⟩
  | meanwhile {after : Disk Path Content} (drifts : Drifts env.path.mine host.disk after) :
      ServiceStep host { host with disk := after }

end Steps

/-! ## What a run keeps -/

section ServicesKept

variable (env : ServiceEnv Path Content)

/-- A program that finds this starts with these services. -/
def Restores (found : Option Content) (services : StoredServices) : Prop :=
  Restarts env.configured services
    (env.configured.loadPersisted env.toLowercase (loaded env.fromJson found))

/-- Each version of the file restores services of before, and on a reliable host
the current one restores the present ones. -/
structure Versions (disk : Disk Path Content) (document : Document Content)
    (services : StoredServices) (all : List StoredServices) : Prop where
  refines : Refines env.path disk document
  restores : ∀ content ∈ document.current :: document.past,
    ∃ earlier ∈ all, Restores env content earlier
  current : env.reliable = true → Restores env document.current services

structure ServicesKept (host : ServiceHost Path Content) : Prop where
  sound : ∀ services ∈ host.services :: host.before,
    Sound env.toLowercase env.configured services
  versions : ∃ document, Versions env host.disk document host.services (host.services :: host.before)

end ServicesKept

section Keep

variable {env : ServiceEnv Path Content} {disk after : Disk Path Content} {document : Document Content}
  {services : StoredServices} {all more : List StoredServices} {request : ServiceRequest}

theorem ServiceEnv.Lawful.isConfigured (lawful : env.Lawful) :
    env.configured.IsConfigured env.toLowercase :=
  StoredServices.isConfigured_configured lawful.lowers env.apiPort env.configServices

theorem ServiceEnv.Lawful.sound_handled (lawful : env.Lawful)
    (sound : Sound env.toLowercase env.configured services) (request : ServiceRequest) :
    Sound env.toLowercase env.configured (env.handled services request).services :=
  sound.handledAs (ServiceRequest.handledAs_handle lawful.lowers request)

/-- What has been saved restores the services. -/
theorem ServiceEnv.Lawful.restores (lawful : env.Lawful)
    (sound : Sound env.toLowercase env.configured services) {listed : List ServiceEntry}
    (perm : listed.Perm services.userServices) {json : Content}
    (serialized : env.toJson listed = some json) : Restores env (some json) services := by
  have isConfigured := lawful.isConfigured
  obtain ⟨written, same, readBack⟩ := lawful.readBack listed
  obtain rfl : json = written := Option.some_inj.mp (serialized.symm.trans same)
  have found : loaded env.fromJson (some json) = listed := by
    rw [loaded, Option.bind_some, readBack, Option.getD_some]
  rw [Restores, found]
  exact sound.keyed.restarts_of_perm isConfigured.takesNames sound.configServices
    isConfigured.lowered perm

theorem Versions.mono (versions : Versions env disk document services all) (subset : all ⊆ more) :
    Versions env disk document services more where
  refines := versions.refines
  restores content mem := by
    obtain ⟨earlier, earlierMem, restores⟩ := versions.restores content mem
    exact ⟨earlier, subset earlierMem, restores⟩
  current := versions.current

theorem Versions.ends (versions : Versions env disk document services all)
    (ends : Ends env disk after) : ∃ last, Versions env after last services all := by
  cases ends with
  | killed => exact ⟨document, versions⟩
  | powerLost unreliable loses =>
      obtain ⟨atRest, mem⟩ := versions.refines.keeps.atRest loses
      refine ⟨_, refines_atRest atRest, fun content contentMem => ?_, fun reliable => ?_⟩
      · rw [List.mem_singleton.mp contentMem]
        exact versions.restores _ mem
      · rw [unreliable] at reliable
        cases reliable

variable [DecidableEq Path]

/-- A save that has not come to its end has saved nothing. -/
theorem Versions.saving (lawful : env.Lawful) (versions : Versions env disk document services all)
    (sound : Sound env.toLowercase env.configured services) {rest : DiskTask Path Content Bool}
    (saving : Saving env services request disk rest after) :
    rest ≠ done true ∧ Versions env after document services all ∨
      rest = done true ∧ ∃ last, Versions env after last (env.handled services request).services
        ((env.handled services request).services :: all) := by
  obtain ⟨listed, perm, carriedOut⟩ := saving.carriedOut
  obtain ⟨notSaved, refines⟩ | ⟨isSaved, json, serialized, refines⟩ :=
    refines_of_carriedOut versions.refines carriedOut
  · exact .inl ⟨notSaved, refines, versions.restores, versions.current⟩
  · have restores := lawful.restores (lawful.sound_handled sound request) perm serialized
    refine .inr ⟨isSaved, _, refines, fun content mem => ?_, fun _ => restores⟩
    rcases List.mem_cons.mp mem with rfl | mem
    · exact ⟨_, List.mem_cons_self, restores⟩
    · obtain ⟨earlier, earlierMem, restores⟩ := versions.restores content mem
      exact ⟨earlier, List.mem_cons_of_mem _ earlierMem, restores⟩

theorem Versions.boots (versions : Versions env disk document services all)
    {booted : StoredServices} (boots : Boots env disk booted after) :
    Versions env after document booted (booted :: all) ∧
      (booted = env.configured ∨ ∃ earlier ∈ all, Restarts env.configured earlier booted) ∧
      (env.reliable = true → Restarts env.configured services booted) := by
  obtain ⟨entries, rfl, carriedOut, readable⟩ := boots.loads
  obtain ⟨refines, found⟩ := loaded_of_carriedOut versions.refines carriedOut
  rw [versions.refines.found] at readable
  refine ⟨⟨refines, (versions.mono (List.subset_cons_self _ all)).restores, fun reliable => ?_⟩, ?_,
    fun reliable => ?_⟩
  · rw [Restores, ← readable reliable]
    exact StoredServices.restarts_loadPersisted entries
  · rcases found with rfl | rfl
    · exact .inl rfl
    · exact .inr (versions.restores _ List.mem_cons_self)
  · rw [readable reliable]
    exact versions.current reliable

/-- Wherever a save is stopped, the file restores the services before or after
the request. -/
theorem Versions.stopped (lawful : env.Lawful) (versions : Versions env disk document services all)
    (sound : Sound env.toLowercase env.configured services) {rest : DiskTask Path Content Bool}
    (saving : Saving env services request disk rest after) :
    ∃ last found, (found = services ∨ found = (env.handled services request).services) ∧
      Versions env after last found ((env.handled services request).services :: all) := by
  obtain ⟨-, kept⟩ | ⟨-, last, kept⟩ := versions.saving lawful sound saving
  · exact ⟨document, services, .inl rfl, kept.mono (List.subset_cons_self _ all)⟩
  · exact ⟨last, _, .inr rfl, kept⟩

theorem Versions.kept_boots (lawful : env.Lawful)
    (versions : Versions env disk document services all)
    (sound : ∀ services ∈ all, Sound env.toLowercase env.configured services)
    {booted : StoredServices} (boots : Boots env disk booted after) :
    ServicesKept env ⟨after, booted, all⟩ := by
  have isConfigured := lawful.isConfigured
  have same : booted.configServices = env.configured.configServices := by
    obtain ⟨entries, rfl, -⟩ := boots.loads
    exact StoredServices.configServices_loadPersisted entries
  obtain ⟨kept, origin, -⟩ := versions.boots boots
  refine ⟨List.forall_mem_cons.mpr ⟨?_, sound⟩, document, kept⟩
  rcases origin with rfl | ⟨earlier, earlierMem, restarts⟩
  · exact isConfigured.sound
  · exact (sound earlier earlierMem).restarts isConfigured same restarts

theorem kept_of_step (lawful : env.Lawful) {host next : ServiceHost Path Content}
    (kept : ServicesKept env host) (step : ServiceStep env host next) : ServicesKept env next := by
  obtain ⟨allSound, document, versions⟩ := kept
  have sound := allSound _ List.mem_cons_self
  have handledSound : ∀ request, ∀ services ∈
      (env.handled host.services request).services :: host.services :: host.before,
      Sound env.toLowercase env.configured services := fun request =>
    List.forall_mem_cons.mpr ⟨lawful.sound_handled sound request, allSound⟩
  cases step with
  | @refused request saves =>
      have same : (env.handled host.services request).services = host.services := by
        have handled : HandledAs env.toLowercase host.services (env.handled host.services request) :=
          ServiceRequest.handledAs_handle lawful.lowers request
        cases handled with
        | nothing _ same => exact same
        | change saved => exact absurd (saves.symm.trans saved) Bool.false_ne_true
      rw [same]
      exact ⟨allSound, document, versions⟩
  | @handled request saved after succeeds saving =>
      refine ⟨handledSound request, ?_⟩
      obtain ⟨notSaved, kept⟩ | ⟨-, last, kept⟩ := versions.saving lawful sound saving
      · have more := kept.mono (List.subset_cons_self (env.handled host.services request).services _)
        refine ⟨document, more.refines, more.restores, fun reliable => ?_⟩
        rw [succeeds reliable] at notSaved
        exact absurd rfl notSaved
      · exact ⟨last, kept⟩
  | @killed request rest stopped restarted after services saving ends boots =>
      obtain ⟨last, found, -, kept⟩ := versions.stopped lawful sound saving
      obtain ⟨last, kept⟩ := kept.ends ends
      exact kept.kept_boots lawful (handledSound request) boots
  | restarted ends boots =>
      obtain ⟨last, kept⟩ := versions.ends ends
      exact kept.kept_boots lawful allSound boots
  | meanwhile drifts =>
      exact ⟨allSound, document, versions.refines.drifts (.single drifts), versions.restores,
        versions.current⟩

omit [DecidableEq Path] in
theorem kept_start (lawful : env.Lawful) (atRest : disk.AtRest env.path.file)
    (fresh : disk.found env.path.file = none) : ServicesKept env ⟨disk, env.configured, []⟩ := by
  have restores : Restores env (disk.found env.path.file) env.configured := by
    rw [fresh]
    exact StoredServices.restarts_loadPersisted []
  refine ⟨List.forall_mem_singleton.mpr lawful.isConfigured.sound, _, refines_atRest atRest, ?_,
    fun _ => restores⟩
  exact List.forall_mem_singleton.mpr ⟨_, List.mem_cons_self, restores⟩

theorem kept_of_run (lawful : env.Lawful) (atRest : disk.AtRest env.path.file)
    (fresh : disk.found env.path.file = none) {host : ServiceHost Path Content}
    (run : Relation.ReflTransGen (ServiceStep env) ⟨disk, env.configured, []⟩ host) :
    ServicesKept env host := by
  induction run with
  | refl => exact kept_start lawful atRest fresh
  | tail _ step ih => exact kept_of_step lawful ih step

end Keep

/-! ## A host -/

/-- A host that has no services in its configuration. -/
def plainHost : ServiceEnv Bool (List ServiceEntry) where
  toLowercase := asciiLowercase
  toJson := some
  fromJson := some
  path := ⟨false, true, none, by decide⟩
  apiPort := 5380
  configServices := []
  reliable := true

theorem lawful_plainHost : plainHost.Lawful where
  lowers := lowersNames_asciiLowercase
  readBack entries := ⟨entries, rfl, rfl⟩

/-- A request whose save is about to begin. -/
theorem saving_plainHost (disk : Disk Bool (List ServiceEntry)) :
    Saving plainHost plainHost.configured (.createService "web" 8080 none) disk
      (saveJson some plainHost.path
        (plainHost.handled plainHost.configured (.createService "web" 8080 none)).services.userServices)
      disk where
  saves := by decide +kernel
  carriedOut := ⟨_, .refl _, .start _ _⟩

theorem boots_plainHost : Boots plainHost (emptyDisk []) plainHost.configured (emptyDisk []) where
  loads := ⟨[], rfl, .ask false ⟨_, ⟨rfl, nofun⟩, .refl⟩ (.start _ _), fun _ => rfl⟩

/-! ## Runs -/

section Runs

variable {env : ServiceEnv Path Content} [DecidableEq Path] {disk after : Disk Path Content}

/-- Whatever is asked for, however saves fail and wherever the program ends,
numa's own service is there, and every service that the configuration does not
have is as users may define it. -/
theorem services_of_run (lawful : env.Lawful) (atRest : disk.AtRest env.path.file)
    (fresh : disk.found env.path.file = none) {host : ServiceHost Path Content}
    (run : Relation.ReflTransGen (ServiceStep env) ⟨disk, env.configured, []⟩ host) :
    (host.services.lookup "numa").isSome = true ∧
      ∀ key entry, key ∉ env.configured.configServices → host.services.lookup key = some entry →
        entry.IsValid ∧ entry.name = key := by
  have sound := (kept_of_run lawful atRest fresh run).sound _ List.mem_cons_self
  exact ⟨sound.numa, sound.valid⟩

theorem services_of_run_plainHost :
    ∃ host, Relation.ReflTransGen (ServiceStep plainHost) ⟨emptyDisk [], plainHost.configured, []⟩
        host ∧ host.before.length = 2 ∧ (host.services.lookup "numa").isSome = true := by
  have step : ServiceStep plainHost ⟨emptyDisk [], plainHost.configured, []⟩ _ :=
    .killed (saving_plainHost (emptyDisk [])) .killed boots_plainHost
  have kept := services_of_run lawful_plainHost (atRest_emptyDisk [] false) rfl (.single step)
  exact ⟨_, .single step, rfl, kept.1⟩

end Runs

end Numa
