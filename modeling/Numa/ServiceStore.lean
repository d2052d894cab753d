import Mathlib.Data.List.AList
import Mathlib.Data.List.Nodup
import Numa.Text

/-!
# Local services

`ServiceStore` of `service_store.rs`, in memory: the services by their lower
case names, and their routes.  What `save` writes to disk is left out.
`to_lowercase` is a parameter.
-/

namespace Numa

structure RouteEntry where
  path : String
  port : UInt16
  strip : Bool
  deriving DecidableEq

structure ServiceEntry where
  name : String
  targetPort : UInt16
  targetHost : Option String
  routes : List RouteEntry
  deriving DecidableEq

namespace ServiceEntry

/-- What `add_route` does to its service. -/
def addRoute (entry : ServiceEntry) (route : RouteEntry) : ServiceEntry :=
  { entry with routes := entry.routes.filter (fun other => other.path ≠ route.path) ++ [route] }

/-- What `remove_route` does to its service. -/
def removeRoute (entry : ServiceEntry) (path : String) : ServiceEntry :=
  { entry with routes := entry.routes.filter fun other => other.path ≠ path }

/-- No two routes have the same path. -/
def Distinct (entry : ServiceEntry) : Prop :=
  (entry.routes.map (·.path)).Nodup

theorem Distinct.removeRoute {entry : ServiceEntry} (distinct : entry.Distinct) (path : String) :
    (entry.removeRoute path).Distinct :=
  (List.filter_sublist.map _).nodup distinct

theorem Distinct.addRoute {entry : ServiceEntry} (distinct : entry.Distinct) (route : RouteEntry) :
    (entry.addRoute route).Distinct := by
  rw [Distinct, ServiceEntry.addRoute, List.map_append, List.nodup_append]
  refine ⟨distinct.removeRoute route.path, List.nodup_singleton _, ?_⟩
  intro path mem other otherMem
  obtain ⟨kept, keptMem, rfl⟩ := List.mem_map.mp mem
  rw [List.map_singleton, List.mem_singleton] at otherMem
  rw [otherMem]
  simpa using List.of_mem_filter keptMem

theorem Distinct.foldl_addRoute {entry : ServiceEntry} (distinct : entry.Distinct)
    (added : List RouteEntry) : (added.foldl ServiceEntry.addRoute entry).Distinct := by
  induction added generalizing entry with
  | nil => exact distinct
  | cons route added ih => exact ih (distinct.addRoute route)

theorem Distinct.eq_of_path_eq {entry : ServiceEntry} (distinct : entry.Distinct)
    {first second : RouteEntry} (firstMem : first ∈ entry.routes) (secondMem : second ∈ entry.routes)
    (same : first.path = second.path) : first = second :=
  List.inj_on_of_nodup_map distinct firstMem secondMem same

/-- Routes with different paths are added behind those whose paths they lack. -/
theorem routes_foldl_addRoute (entry : ServiceEntry) {added : List RouteEntry}
    (distinct : (added.map (·.path)).Nodup) :
    (added.foldl addRoute entry).routes =
      entry.routes.filter (fun other => other.path ∉ added.map (·.path)) ++ added := by
  induction added generalizing entry with
  | nil => simp
  | cons route added ih =>
      rw [List.map_cons, List.nodup_cons] at distinct
      have kept : decide (route.path ∉ added.map (·.path)) = true := decide_eq_true distinct.1
      rw [List.foldl_cons, ih _ distinct.2, addRoute, List.filter_append, List.filter_singleton, kept,
        List.filter_filter, cond_true, List.append_assoc, List.singleton_append]
      congr 1
      refine List.filter_congr fun other _ => ?_
      rw [List.map_cons, ← Bool.decide_and, decide_eq_decide, List.mem_cons, not_or, and_comm]

theorem targetPort_foldl_addRoute (entry : ServiceEntry) (added : List RouteEntry) :
    (added.foldl addRoute entry).targetPort = entry.targetPort := by
  induction added generalizing entry with
  | nil => rfl
  | cons route added ih => exact ih _

end ServiceEntry

structure ServiceStore where
  entries : AList fun _ : String => ServiceEntry

namespace ServiceStore

variable (toLowercase : String → String)

def lookup (store : ServiceStore) (name : String) : Option ServiceEntry :=
  store.entries.lookup (toLowercase name)

def insert (store : ServiceStore) (name : String) (targetPort : UInt16)
    (targetHost : Option String) : ServiceStore :=
  let key := toLowercase name
  { store with entries := store.entries.insert key ⟨key, targetPort, targetHost, []⟩ }

def addRoute (store : ServiceStore) (service : String) (route : RouteEntry) :
    ServiceStore × Bool :=
  let key := toLowercase service
  match store.entries.lookup key with
  | some entry => ({ store with entries := store.entries.insert key (entry.addRoute route) }, true)
  | none => (store, false)

def removeRoute (store : ServiceStore) (service path : String) : ServiceStore × Bool :=
  let key := toLowercase service
  match store.entries.lookup key with
  | some entry =>
    let left := entry.removeRoute path
    ({ store with entries := store.entries.insert key left },
      decide (left.routes.length < entry.routes.length))
  | none => (store, false)

def remove (store : ServiceStore) (name : String) : ServiceStore × Bool :=
  let key := toLowercase name
  ({ store with entries := store.entries.erase key }, (store.entries.lookup key).isSome)

end ServiceStore

inductive ServiceOperation
  | insert (name : String) (targetPort : UInt16) (targetHost : Option String)
  | addRoute (service : String) (route : RouteEntry)
  | removeRoute (service path : String)
  | remove (name : String)

namespace ServiceStore

variable (toLowercase : String → String)

def perform (store : ServiceStore) : ServiceOperation → ServiceStore
  | .insert name targetPort targetHost => store.insert toLowercase name targetPort targetHost
  | .addRoute service route => (store.addRoute toLowercase service route).1
  | .removeRoute service path => (store.removeRoute toLowercase service path).1
  | .remove name => (store.remove toLowercase name).1

/-- The service of a name, if there is one, has no two routes with one path. -/
def DistinctAt (store : ServiceStore) (key : String) : Prop :=
  ∀ entry ∈ store.entries.lookup key, entry.Distinct

section Step

variable {toLowercase} {store : ServiceStore} {key : String}

theorem distinctAt_insert (distinct : store.DistinctAt key) (other : String) {entry : ServiceEntry}
    (entryDistinct : key = other → entry.Distinct) :
    DistinctAt ⟨store.entries.insert other entry⟩ key := by
  intro found lookup
  by_cases same : key = other
  · rw [same, AList.lookup_insert] at lookup
    cases lookup
    exact entryDistinct same
  · rw [AList.lookup_insert_ne same] at lookup
    exact distinct found lookup

theorem DistinctAt.perform (distinct : store.DistinctAt key) (operation : ServiceOperation) :
    (store.perform toLowercase operation).DistinctAt key := by
  cases operation with
  | insert name targetPort targetHost =>
      exact distinctAt_insert distinct _ fun _ => List.nodup_nil
  | addRoute service route =>
      rw [ServiceStore.perform, ServiceStore.addRoute]
      split
      · rename_i entry found
        exact distinctAt_insert distinct _ fun same =>
          (distinct entry (by rwa [same])).addRoute route
      · exact distinct
  | removeRoute service path =>
      rw [ServiceStore.perform, ServiceStore.removeRoute]
      split
      · rename_i entry found
        exact distinctAt_insert distinct _ fun same =>
          (distinct entry (by rwa [same])).removeRoute path
      · exact distinct
  | remove name =>
      intro entry found
      by_cases same : key = toLowercase name
      · rw [same, ServiceStore.perform, ServiceStore.remove, AList.lookup_erase] at found
        cases found
      · rw [ServiceStore.perform, ServiceStore.remove, AList.lookup_erase_ne same] at found
        exact distinct entry found

theorem DistinctAt.foldl_perform {store : ServiceStore} (distinct : store.DistinctAt key)
    (operations : List ServiceOperation) :
    (operations.foldl (ServiceStore.perform toLowercase) store).DistinctAt key := by
  induction operations generalizing store with
  | nil => exact distinct
  | cons operation operations ih => exact ih (distinct.perform operation)

/-- A service that was inserted without routes has no two routes with one path
after any operations. -/
theorem distinctAt_of_insert (toLowercase : String → String) (store : ServiceStore) (name : String)
    (targetPort : UInt16) (targetHost : Option String) (operations : List ServiceOperation) :
    (operations.foldl (perform toLowercase)
      (store.insert toLowercase name targetPort targetHost)).DistinctAt (toLowercase name) := by
  refine DistinctAt.foldl_perform (fun entry found => ?_) operations
  rw [ServiceStore.insert, AList.lookup_insert] at found
  cases found
  exact List.nodup_nil

end Step

/-- Adding routes to a service changes its entry alone. -/
theorem lookup_foldl_addRoute {toLowercase : String → String} {store : ServiceStore} {name : String}
    {entry : ServiceEntry} (found : store.lookup toLowercase name = some entry)
    (added : List RouteEntry) :
    (added.foldl (fun store route => (store.addRoute toLowercase name route).1) store).lookup
      toLowercase name = some (added.foldl ServiceEntry.addRoute entry) := by
  induction added generalizing store entry with
  | nil => exact found
  | cons route added ih =>
      have step : (store.addRoute toLowercase name route).1 =
          ⟨store.entries.insert (toLowercase name) (entry.addRoute route)⟩ := by
        rw [lookup] at found
        simp only [ServiceStore.addRoute, found]
      refine ih ?_
      beta_reduce
      rw [step]
      exact AList.lookup_insert _

end ServiceStore

end Numa
