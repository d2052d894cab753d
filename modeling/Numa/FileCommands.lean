import Mathlib.Logic.Function.Basic
import Numa.Interaction

/-!
# Commands on files

A command is an interaction with the files of a host.  Every operation that
changes a file may fail, a write that fails may leave a part of what it was to
write, and a command may be interrupted between any two operations.  Reads find
what is there.
-/

namespace Numa

inductive ErrorKind
  | notFound
  | other
  deriving DecidableEq

/-- Why an operation fails, and how it says so. -/
structure FileError (Content : Type) where
  kind : ErrorKind
  message : Content

inductive FileOp (Path Content : Type)
  | createDirAll (directory : Content)
  | exists (path : Path)
  | read (path : Path)
  | write (path : Path) (content : Content)
  | copy (source target : Path)
  | remove (path : Path)

@[reducible]
def FileOp.Answer {Path Content : Type} : FileOp Path Content → Type
  | .exists _ => Bool
  | .read _ => Except (FileError Content) Content
  | .createDirAll _ | .write _ _ | .copy _ _ | .remove _ => Except (FileError Content) Unit

/-- The files that are there. -/
abbrev Files (Path Content : Type) :=
  Path → Option Content

/-- A command, which returns an error as a text. -/
abbrev FileCommand (Path Content : Type) :=
  Interaction (FileOp Path Content) FileOp.Answer (Except Content Unit)

namespace FileCommand

variable {Path Content : Type}

/-- Go on after an operation that has not failed, as with `map_err` and `?`. -/
def orFail (describe : Content → Content) (next : FileCommand Path Content) :
    Except (FileError Content) Unit → FileCommand Path Content
  | .ok () => next
  | .error error => .done (.error (describe error.message))

end FileCommand

/-! ## What the operations do -/

namespace Files

open Interaction (CarriedOut)

variable {Path Content : Type} [DecidableEq Path]

/-- What a write leaves: all of the content, or after an error what was there
before or a part that a failed write leaves. -/
def Writes (torn : Path → Content → Content → Prop) (files : Files Path Content) (path : Path)
    (content : Content) (answer : Except (FileError Content) Unit)
    (after : Files Path Content) : Prop :=
  match answer with
  | .ok () => after = Function.update files path (some content)
  | .error error => error.kind = .other ∧
      (after = files ∨ ∃ part, torn path content part ∧
        after = Function.update files path (some part))

def Moves (torn : Path → Content → Content → Prop) (files : Files Path Content) :
    (op : FileOp Path Content) → op.Answer → Files Path Content → Prop
  | .createDirAll _, _, after => after = files
  | .exists path, found, after => found = (files path).isSome ∧ after = files
  | .read path, answer, after => after = files ∧
      match files path, answer with
      | some content, .ok found => found = content
      | none, .error error => error.kind = .notFound
      | _, _ => False
  | .write path content, answer, after => Writes torn files path content answer after
  | .copy source target, answer, after =>
    match files source with
    | some content => Writes torn files target content answer after
    | none => after = files ∧ ∃ error, answer = .error error ∧ error.kind = .notFound
  | .remove path, .ok (), after => (files path).isSome ∧ after = Function.update files path none
  | .remove _, .error _, after => after = files

/-- Commands on files, which must be safe whenever a command asks for an
operation, as it may be interrupted there. -/
def protocol (torn : Path → Content → Content → Prop) (safe : Files Path Content → Prop) :
    Protocol (FileOp Path Content) FileOp.Answer (Files Path Content) where
  allowed files _ := safe files
  moves files op answer after := Moves torn files op answer after

variable {torn : Path → Content → Content → Prop} {safe : Files Path Content → Prop}
  {post : Files Path Content → Except Content Unit → Prop}
  {command rest : FileCommand Path Content} {files after : Files Path Content}

/-- Wherever a command is interrupted, the files are safe. -/
theorem isSafe_of_carriedOut (carriedOut : CarriedOut (Moves torn) command files rest after)
    (obeys : command.Obeys (protocol torn safe) post files)
    (implies : ∀ last result, post last result → safe last) : safe after := by
  have carried : CarriedOut (protocol torn safe).moves command files rest after := carriedOut
  exact carried.isSafe obeys (fun _ _ isSafe => isSafe) implies

theorem post_of_carriedOut {result : Except Content Unit}
    (carriedOut : CarriedOut (Moves torn) command files (.done result) after)
    (obeys : command.Obeys (protocol torn safe) post files) : post after result := by
  have carried : CarriedOut (protocol torn safe).moves command files (.done result) after :=
    carriedOut
  exact carried.obeys obeys

/-! ## The rules of the operations -/

variable {describe : Content → Content} {next : FileCommand Path Content} {path : Path}
  {content : Content}

theorem obeys_createDirAll {directory : Content} {next : _ → FileCommand Path Content}
    (isSafe : safe files) (later : ∀ answer, (next answer).Obeys (protocol torn safe) post files) :
    Interaction.Obeys (protocol torn safe) post (.ask (.createDirAll directory) next) files := by
  refine ⟨isSafe, ?_⟩
  rintro answer after rfl
  exact later answer

theorem obeys_exists {next : _ → FileCommand Path Content} (isSafe : safe files)
    (later : (next (files path).isSome).Obeys (protocol torn safe) post files) :
    Interaction.Obeys (protocol torn safe) post (.ask (.exists path) next) files := by
  refine ⟨isSafe, ?_⟩
  rintro answer after ⟨rfl, rfl⟩
  exact later

theorem obeys_read {next : _ → FileCommand Path Content} (isSafe : safe files)
    (found : ∀ content, files path = some content →
      (next (.ok content)).Obeys (protocol torn safe) post files)
    (missing : ∀ error, files path = none →
      (next (.error error)).Obeys (protocol torn safe) post files) :
    Interaction.Obeys (protocol torn safe) post (.ask (.read path) next) files := by
  refine ⟨isSafe, ?_⟩
  rintro answer after ⟨rfl, reads⟩
  cases there : after path with
  | none =>
      cases answer with
      | ok content => simp [there] at reads
      | error error => exact missing error there
  | some content =>
      cases answer with
      | ok other =>
          simp only [there] at reads
          exact found other (by rw [there, reads])
      | error error => simp [there] at reads

theorem obeys_write {next : _ → FileCommand Path Content} (isSafe : safe files)
    (written : (next (.ok ())).Obeys (protocol torn safe) post
      (Function.update files path (some content)))
    (failed : ∀ error, (next (.error error)).Obeys (protocol torn safe) post files)
    (partly : ∀ error part, torn path content part →
      (next (.error error)).Obeys (protocol torn safe) post
        (Function.update files path (some part))) :
    Interaction.Obeys (protocol torn safe) post (.ask (.write path content) next) files := by
  refine ⟨isSafe, ?_⟩
  rintro (error | ⟨⟩) after moves
  · rcases moves with ⟨-, rfl | ⟨part, isTorn, rfl⟩⟩
    · exact failed error
    · exact partly error part isTorn
  · cases moves
    exact written

theorem obeys_copy {source target : Path} {next : _ → FileCommand Path Content}
    (isSafe : safe files)
    (missing : files source = none → ∀ error, error.kind = .notFound →
      (next (.error error)).Obeys (protocol torn safe) post files)
    (written : ∀ content, files source = some content →
      (next (.ok ())).Obeys (protocol torn safe) post
        (Function.update files target (some content)))
    (failed : ∀ error, error.kind = .other →
      (next (.error error)).Obeys (protocol torn safe) post files)
    (partly : ∀ error content part, error.kind = .other → files source = some content →
      torn target content part → (next (.error error)).Obeys (protocol torn safe) post
        (Function.update files target (some part))) :
    Interaction.Obeys (protocol torn safe) post (.ask (.copy source target) next) files := by
  refine ⟨isSafe, fun answer after moves => ?_⟩
  simp only [protocol, Moves] at moves
  cases there : files source with
  | none =>
      rw [there] at moves
      obtain ⟨rfl, error, rfl, isMissing⟩ := moves
      exact missing there error isMissing
  | some content =>
      rw [there] at moves
      rcases answer with error | ⟨⟩
      · rcases moves with ⟨isOther, rfl | ⟨part, isTorn, rfl⟩⟩
        · exact failed error isOther
        · exact partly error content part isOther there isTorn
      · cases moves
        exact written content there

theorem obeys_remove {next : _ → FileCommand Path Content} (isSafe : safe files)
    (removed : (next (.ok ())).Obeys (protocol torn safe) post (Function.update files path none))
    (failed : ∀ error, (next (.error error)).Obeys (protocol torn safe) post files) :
    Interaction.Obeys (protocol torn safe) post (.ask (.remove path) next) files := by
  refine ⟨isSafe, ?_⟩
  rintro (error | ⟨⟩) after moves
  · cases moves
    exact failed error
  · rw [moves.2]
    exact removed

/-- An operation with `map_err` and `?`: a failure ends the command. -/
theorem obeys_orFail {answer : Except (FileError Content) Unit}
    (succeeded : answer = .ok () → next.Obeys (protocol torn safe) post files)
    (ended : ∀ message, post files (.error message)) :
    (FileCommand.orFail describe next answer).Obeys (protocol torn safe) post files := by
  cases answer with
  | ok value => exact succeeded rfl
  | error error => exact ended (describe error.message)

end Files

end Numa
