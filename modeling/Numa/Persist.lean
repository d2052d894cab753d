import Numa.JournaledDisk

/-!
# Persistence

`write_atomic`, `save_json` and `load_json_vec` of `persist.rs`, but for their
logs.  A save that is logged as failed returns `false` here.  Over any run, a
file that is saved this way is an atomic document, of which a loss of power can
at worst bring back an earlier version.
-/

namespace Numa

open Interaction (CarriedOut ask done)

abbrev DiskTask (Path Content α : Type) :=
  Interaction (DiskOp Path Content) DiskOp.Answer α

/-- A file with its directory and the temporary file beside it. -/
structure JsonPath (Path : Type) where
  file : Path
  /-- `path.with_extension("json.tmp")`. -/
  temporary : Path
  parent : Option Path
  apart : file ≠ temporary

section Program

variable {Path Content α : Type}

/-- The paths that a save works on. -/
def JsonPath.mine (path : JsonPath Path) : Set Path :=
  {path.file, path.temporary}

theorem JsonPath.file_mem (path : JsonPath Path) : path.file ∈ path.mine :=
  .inl rfl

theorem JsonPath.temporary_mem (path : JsonPath Path) : path.temporary ∈ path.mine :=
  .inr rfl

def writeAtomic (path : JsonPath Path) (contents : Content) : DiskTask Path Content Bool :=
  ask (.create path.temporary) fun
    | false => done false
    | true =>
      ask (.writeAll path.temporary contents) fun
        | false => done false
        | true =>
          ask (.syncAll path.temporary) fun
            | false => done false
            | true => ask (.rename path.temporary path.file) fun renamed => done renamed

/-- What `save_json` does once there is a directory. -/
def saveIn (toJson : α → Option Content) (path : JsonPath Path) (value : α) :
    DiskTask Path Content Bool :=
  match toJson value with
  | some json => writeAtomic path json
  | none => done false

def saveJson (toJson : α → Option Content) (path : JsonPath Path) (value : α) :
    DiskTask Path Content Bool :=
  match path.parent with
  | some parent => ask (.createDirAll parent) fun _ => saveIn toJson path value
  | none => saveIn toJson path value

def loadJsonVec (fromJson : Content → Option (List α)) (path : JsonPath Path) :
    DiskTask Path Content (List α) :=
  ask (.exists path.file) fun
    | false => done []
    | true =>
      ask (.readToString path.file) fun
        | some contents => done ((fromJson contents).getD [])
        | none => done []

/-- What a load makes of the content that it finds. -/
def loaded (fromJson : Content → Option (List α)) (found : Option Content) : List α :=
  (found.bind fromJson).getD []

end Program

/-! ## Documents -/

/-- What a file is for: a content, with those that it may fall back to. -/
structure Document (Content : Type) where
  current : Option Content
  past : List (Option Content)

/-- What happens to a document. -/
inductive SaveEvent (α : Type)
  | saved (value : α)
  | failed (value : α)
  /-- The program ends while it saves. -/
  | killed (value : α)
  | powerLost

namespace Document

variable {Content α : Type}

def save (document : Document Content) (content : Content) : Document Content :=
  ⟨some content, document.current :: document.past⟩

inductive Step (toJson : α → Option Content) (document : Document Content) :
    SaveEvent α → Document Content → Prop
  | saved {value : α} {json : Content} (serialized : toJson value = some json) :
      Step toJson document (.saved value) (document.save json)
  | failed {value : α} : Step toJson document (.failed value) document
  | killedBefore {value : α} : Step toJson document (.killed value) document
  | killedAfter {value : α} {json : Content} (serialized : toJson value = some json) :
      Step toJson document (.killed value) (document.save json)
  | powerLost {content : Option Content}
      (mem : content ∈ document.current :: document.past) :
      Step toJson document .powerLost ⟨content, []⟩

inductive Run (toJson : α → Option Content) (document : Document Content) :
    List (SaveEvent α) → Document Content → Prop
  | start : Run toJson document [] document
  | step {events : List (SaveEvent α)} {event : SaveEvent α} {middle after : Document Content}
      (run : Run toJson document events middle) (step : Step toJson middle event after) :
      Run toJson document (events ++ [event]) after

end Document

/-! ## Runs over a disk -/

section Disk

variable {Path Content α : Type} [DecidableEq Path] {path : JsonPath Path}
  {toJson : α → Option Content} {fromJson : Content → Option (List α)}

open Disk (Drifts LosesPower MovesOn)

/-- What may happen to a file on the disk, whatever others do to their files in
between. -/
inductive SavesTo (toJson : α → Option Content) (path : JsonPath Path) (disk : Disk Path Content) :
    List (SaveEvent α) → Disk Path Content → Prop
  | start : SavesTo toJson path disk [] disk
  | meanwhile {events : List (SaveEvent α)} {middle after : Disk Path Content}
      (run : SavesTo toJson path disk events middle) (drifts : Drifts path.mine middle after) :
      SavesTo toJson path disk events after
  | saved {events : List (SaveEvent α)} {middle after : Disk Path Content} {value : α}
      (run : SavesTo toJson path disk events middle)
      (carriedOut : CarriedOut (MovesOn path.mine) (saveJson toJson path value) middle
        (done true) after) :
      SavesTo toJson path disk (events ++ [.saved value]) after
  | failed {events : List (SaveEvent α)} {middle after : Disk Path Content} {value : α}
      (run : SavesTo toJson path disk events middle)
      (carriedOut : CarriedOut (MovesOn path.mine) (saveJson toJson path value) middle
        (done false) after) :
      SavesTo toJson path disk (events ++ [.failed value]) after
  | killed {events : List (SaveEvent α)} {middle after : Disk Path Content} {value : α}
      {rest : DiskTask Path Content Bool} (run : SavesTo toJson path disk events middle)
      (carriedOut : CarriedOut (MovesOn path.mine) (saveJson toJson path value) middle
        rest after) :
      SavesTo toJson path disk (events ++ [.killed value]) after
  | powerLost {events : List (SaveEvent α)} {middle after : Disk Path Content}
      (run : SavesTo toJson path disk events middle) (loses : LosesPower middle after) :
      SavesTo toJson path disk (events ++ [.powerLost]) after

/-- The file is the document. -/
structure Refines (path : JsonPath Path) (disk : Disk Path Content) (document : Document Content) :
    Prop where
  found : disk.found path.file = document.current
  keeps : disk.Keeps path.file {content | content ∈ document.current :: document.past}

section Refines

variable {disk after : Disk Path Content} {document : Document Content} {mine : Set Path}

/-- Nothing but the file matters for the document. -/
theorem Refines.movesOn (refines : Refines path disk document) {op : DiskOp Path Content}
    {answer : op.Answer} (moves : MovesOn path.mine disk op answer after)
    (apart : ¬ op.Touches path.file) : Refines path after document := by
  obtain ⟨keeps, same⟩ := refines.keeps.movesOn path.file_mem apart moves
  exact ⟨by rw [Disk.found, same, ← Disk.found, refines.found], keeps⟩

theorem Refines.drifts (refines : Refines path disk document)
    (drifts : Relation.ReflTransGen (Drifts path.mine) disk after) :
    Refines path after document := by
  obtain ⟨keeps, same⟩ := refines.keeps.drifts path.file_mem drifts
  exact ⟨by rw [Disk.found, same _ path.file_mem, ← Disk.found, refines.found], keeps⟩

omit [DecidableEq Path] in
theorem refines_atRest (atRest : disk.AtRest path.file) :
    Refines path disk ⟨disk.found path.file, []⟩ where
  found := rfl
  keeps := atRest.keeps.mono fun _ same => List.mem_singleton.mpr same

section Program

variable {json : Content} {value : α}

/-- Until it is renamed, what is written is another file. -/
theorem obeys_writeAtomic (refines : Refines path disk document) (json : Content) :
    (writeAtomic path json).Obeys (Disk.protocol path.mine (Refines path · document))
      (fun after saved => Refines path after (if saved then document.save json else document))
      disk := by
  refine ⟨refines, ?_⟩
  rintro (_ | _) created moves
  · exact refines.movesOn moves path.apart
  have refines := refines.movesOn moves path.apart
  refine ⟨refines, ?_⟩
  rintro (_ | _) written moves
  · exact refines.movesOn moves path.apart
  have holds := refines.keeps.inodeAt_writeAll path.file_mem path.temporary_mem path.apart moves
  have refines := refines.movesOn moves path.apart
  refine ⟨refines, ?_⟩
  rintro (_ | _) synced moves
  · exact refines.movesOn moves path.apart
  have holds := refines.keeps.inodeAt_syncAll path.file_mem path.temporary_mem path.apart holds moves
  have refines := refines.movesOn moves path.apart
  refine ⟨refines, ?_⟩
  rintro (_ | _) renamed moves
  · obtain ⟨_, rfl, drifts⟩ := moves
    exact refines.drifts drifts
  · have more : {content | content ∈ document.current :: document.past} ⊆
        {content | content ∈ (document.save json).current :: (document.save json).past} :=
      fun content mem => List.mem_cons_of_mem _ mem
    have keeps := refines.keeps.mono more
    obtain ⟨keeps, found⟩ := keeps.rename_movesOn path.file_mem holds List.mem_cons_self moves
    exact ⟨found, keeps⟩

theorem obeys_saveIn (refines : Refines path disk document) (value : α) :
    (saveIn toJson path value).Obeys (Disk.protocol path.mine (Refines path · document))
      (fun after saved => if saved then
        ∃ json, toJson value = some json ∧ Refines path after (document.save json)
        else Refines path after document) disk := by
  unfold saveIn
  cases serialized : toJson value with
  | none => exact refines
  | some json =>
      refine (obeys_writeAtomic refines json).mono fun after saved holds => ?_
      cases saved with
      | false => exact holds
      | true => exact ⟨json, rfl, holds⟩

theorem obeys_saveJson (refines : Refines path disk document) (value : α) :
    (saveJson toJson path value).Obeys (Disk.protocol path.mine (Refines path · document))
      (fun after saved => if saved then
        ∃ json, toJson value = some json ∧ Refines path after (document.save json)
        else Refines path after document) disk := by
  unfold saveJson
  cases path.parent with
  | none => exact obeys_saveIn refines value
  | some parent =>
      refine ⟨refines, fun answer after moves => ?_⟩
      exact obeys_saveIn (refines.movesOn moves id) value

/-- Only a save that has succeeded has saved something. -/
theorem refines_of_carriedOut {rest : DiskTask Path Content Bool}
    (refines : Refines path disk document)
    (carriedOut : CarriedOut (MovesOn path.mine) (saveJson toJson path value) disk rest after) :
    rest ≠ done true ∧ Refines path after document ∨
      rest = done true ∧
        ∃ json, toJson value = some json ∧ Refines path after (document.save json) := by
  have carried : CarriedOut (Disk.protocol path.mine (Refines path · document)).moves
      (saveJson toJson path value) disk rest after := carriedOut
  have obeys := carried.obeys (obeys_saveJson refines value)
  cases rest with
  | ask op next => exact .inl ⟨nofun, obeys.1⟩
  | done saved =>
      cases saved with
      | false => exact .inl ⟨nofun, obeys⟩
      | true => exact .inr ⟨rfl, obeys⟩

end Program

theorem refines_of_run {events : List (SaveEvent α)} (refines : Refines path disk document)
    (run : SavesTo toJson path disk events after) :
    ∃ last, Document.Run toJson document events last ∧ Refines path after last := by
  induction run with
  | start => exact ⟨document, .start, refines⟩
  | meanwhile _ drifts ih =>
      obtain ⟨last, run, refines⟩ := ih
      exact ⟨last, run, refines.drifts (.single drifts)⟩
  | saved _ carriedOut ih =>
      obtain ⟨last, run, refines⟩ := ih
      obtain ⟨notSaved, -⟩ | ⟨-, json, serialized, refines⟩ := refines_of_carriedOut refines carriedOut
      · exact absurd rfl notSaved
      · exact ⟨_, run.step (.saved serialized), refines⟩
  | failed _ carriedOut ih =>
      obtain ⟨last, run, refines⟩ := ih
      obtain ⟨-, refines⟩ | ⟨isSaved, -⟩ := refines_of_carriedOut refines carriedOut
      · exact ⟨_, run.step .failed, refines⟩
      · cases isSaved
  | killed _ carriedOut ih =>
      obtain ⟨last, run, refines⟩ := ih
      obtain ⟨-, refines⟩ | ⟨-, json, serialized, refines⟩ := refines_of_carriedOut refines carriedOut
      · exact ⟨_, run.step .killedBefore, refines⟩
      · exact ⟨_, run.step (.killedAfter serialized), refines⟩
  | powerLost _ loses ih =>
      obtain ⟨last, run, refines⟩ := ih
      obtain ⟨atRest, mem⟩ := refines.keeps.atRest loses
      exact ⟨_, run.step (.powerLost mem), refines_atRest atRest⟩

/-- A load finds what is there, or nothing when it cannot read, and leaves it. -/
theorem loaded_of_carriedOut {fromJson : Content → Option (List α)}
    (refines : Refines path disk document) {entries : List α}
    (carriedOut : CarriedOut (MovesOn path.mine) (loadJsonVec fromJson path) disk (done entries)
      after) :
    Refines path after document ∧
      (entries = [] ∨ entries = loaded fromJson document.current) := by
  cases carriedOut with
  | ask there moved later =>
      have refines := refines.movesOn moved id
      cases there with
      | false =>
          cases later
          exact ⟨refines, .inl rfl⟩
      | true =>
          cases later with
          | ask answer moved later =>
              have left := refines.movesOn moved id
              cases answer with
              | none =>
                  cases later
                  exact ⟨left, .inl rfl⟩
              | some contents =>
                  cases later
                  obtain ⟨_, ⟨rfl, reads⟩, -⟩ := moved
                  rw [← refines.found, reads contents rfl]
                  exact ⟨left, .inr rfl⟩

end Refines

/-- Whatever others do in between, saves that succeed, fail or are interrupted
anywhere and losses of power do to the file what they do to a document that is
saved at once, and a load finds it or nothing. -/
theorem document_of_run (fromJson : Content → Option (List α)) {disk after : Disk Path Content}
    {events : List (SaveEvent α)} (atRest : disk.AtRest path.file) (run : SavesTo toJson path disk events after) :
    ∃ document, Document.Run toJson ⟨disk.found path.file, []⟩ events document ∧
      after.found path.file = document.current ∧
      ∀ entries last, CarriedOut (MovesOn path.mine) (loadJsonVec fromJson path) after
        (done entries) last → entries = [] ∨ entries = loaded fromJson document.current := by
  obtain ⟨document, run, refines⟩ := refines_of_run (refines_atRest atRest) run
  exact ⟨document, run, refines.found, fun entries last carriedOut =>
    (loaded_of_carriedOut refines carriedOut).2⟩

/-- A disk without files. -/
def emptyDisk (blank : Content) : Disk Path Content where
  inodes _ := ⟨blank, false⟩
  directory _ := none
  older := []

omit [DecidableEq Path] in
theorem atRest_emptyDisk (blank : Content) (file : Path) :
    (emptyDisk blank).AtRest file where
  namedOnce directory mem first second number named := by
    rw [Disk.eq_directory_of_mem rfl mem] at named
    cases named
  older := rfl
  synced := nofun

/-- A first save on a disk without files. -/
theorem document_of_run_firstSave :
    ∃ (after : Disk Bool Nat) (document : Document Nat),
      SavesTo some ⟨false, true, none, by decide⟩ (emptyDisk 0) [.saved 7] after ∧
        Document.Run some ⟨none, []⟩ [.saved 7] document ∧
        after.found false = document.current := by
  have carriedOut : CarriedOut (MovesOn (JsonPath.mine ⟨false, true, none, by decide⟩))
      (saveJson some ⟨false, true, none, by decide⟩ 7) (emptyDisk 0) (done true) _ :=
    .ask true ⟨_, ⟨0, 0, .inr ⟨rfl, by simp [Disk.IsFree, Disk.directories, emptyDisk], rfl⟩⟩, .refl⟩
      (.ask true ⟨_, ⟨0, rfl, rfl⟩, .refl⟩ (.ask true ⟨_, ⟨0, rfl, rfl⟩, .refl⟩
        (.ask true ⟨_, ⟨0, rfl, rfl⟩, .refl⟩ (.start _ _))))
  have run := SavesTo.saved .start carriedOut
  obtain ⟨document, ran, found, -⟩ :=
    document_of_run (fun _ => none) (atRest_emptyDisk 0 false) run
  exact ⟨_, document, run, ran, found⟩

end Disk

end Numa
