import Mathlib.Data.Set.Insert
import Mathlib.Logic.Function.Basic
import Mathlib.Logic.Relation
import Numa.Interaction

/-!
# Files on a disk that loses power

A path names an inode, and the inode has the data.  The data of an inode stays
on the disk once it is synced.  The changes of the names reach the disk later
but in their order, as with a journal, so that a loss of power returns to one
of the directories before.  Operations may fail, a write that fails leaves
anything, and other programs work on other files in between.
-/

namespace Numa

structure Inode (Content : Type) where
  data : Content
  synced : Bool

/-- Which inode has the path. -/
abbrev Directory (Path : Type) :=
  Path → Option Nat

structure Disk (Path Content : Type) where
  inodes : Nat → Inode Content
  directory : Directory Path
  /-- The directories to which a loss of power may return. -/
  older : List (Directory Path)

inductive DiskOp (Path Content : Type)
  | createDirAll (path : Path)
  | exists (path : Path)
  | readToString (path : Path)
  /-- `File::create`, which truncates a file that is there. -/
  | create (path : Path)
  | writeAll (path : Path) (content : Content)
  | syncAll (path : Path)
  | rename (source target : Path)

/-- Reads find a content or fail, and the others say whether they succeed. -/
@[reducible]
def DiskOp.Answer {Path Content : Type} : DiskOp Path Content → Type
  | .readToString _ => Option Content
  | _ => Bool

/-- The operation changes the path or its file. -/
def DiskOp.Touches {Path Content : Type} : DiskOp Path Content → Path → Prop
  | .create path, touched | .writeAll path _, touched | .syncAll path, touched => touched = path
  | .rename source target, touched => touched = source ∨ touched = target
  | .createDirAll _, _ | .exists _, _ | .readToString _, _ => False

namespace Disk

variable {Path Content : Type}

def directories (disk : Disk Path Content) : List (Directory Path) :=
  disk.directory :: disk.older

def inodeAt (disk : Disk Path Content) (path : Path) : Option (Inode Content) :=
  (disk.directory path).map disk.inodes

/-- What a read of the path finds. -/
def found (disk : Disk Path Content) (path : Path) : Option Content :=
  (disk.inodeAt path).map Inode.data

/-- The disk with another inode of this number. -/
def setInode (disk : Disk Path Content) (number : Nat) (inode : Inode Content) :
    Disk Path Content :=
  { disk with inodes := Function.update disk.inodes number inode }

/-- The disk with another directory, from which it may return. -/
def setDirectory (disk : Disk Path Content) (directory : Directory Path) : Disk Path Content :=
  { disk with directory := directory, older := disk.directories }

/-- No directory names the inode. -/
def IsFree (disk : Disk Path Content) (number : Nat) : Prop :=
  ∀ directory ∈ disk.directories, ∀ path, directory path ≠ some number

/-! ## Operations -/

section Operations

variable [DecidableEq Path]

/-- The directory after a file has got another name. -/
def renamed (directory : Directory Path) (source target : Path) (number : Nat) : Directory Path :=
  Function.update (Function.update directory source none) target (some number)

def Moves (disk : Disk Path Content) :
    (op : DiskOp Path Content) → op.Answer → Disk Path Content → Prop
  | .createDirAll _, _, after => after = disk
  | .exists path, found, after => after = disk ∧ (found = true → (disk.directory path).isSome)
  | .readToString path, answer, after => after = disk ∧
      ∀ content, answer = some content → disk.found path = some content
  | .create path, true, after => ∃ number data,
      disk.directory path = some number ∧ after = disk.setInode number ⟨data, false⟩ ∨
      disk.directory path = none ∧ disk.IsFree number ∧
        after = (disk.setInode number ⟨data, false⟩).setDirectory
          (Function.update disk.directory path (some number))
  | .writeAll path content, true, after => ∃ number,
      disk.directory path = some number ∧ after = disk.setInode number ⟨content, false⟩
  | .writeAll path _, false, after => after = disk ∨ ∃ number data,
      disk.directory path = some number ∧ after = disk.setInode number ⟨data, false⟩
  | .syncAll path, true, after => ∃ number, disk.directory path = some number ∧
      after = disk.setInode number { disk.inodes number with synced := true }
  | .rename source target, true, after => ∃ number, disk.directory source = some number ∧
      after = disk.setDirectory (renamed disk.directory source target number)
  | .create _, false, after | .syncAll _, false, after | .rename _ _, false, after => after = disk

/-- What happens meanwhile: others work on other paths, and directories reach
the disk. -/
inductive Drifts (mine : Set Path) (disk : Disk Path Content) : Disk Path Content → Prop
  | others {op : DiskOp Path Content} {answer : op.Answer} {after : Disk Path Content}
      (apart : ∀ path ∈ mine, ¬ op.Touches path) (moves : Moves disk op answer after) :
      Drifts mine disk after
  | settle {kept : List (Directory Path)} (subset : kept ⊆ disk.older) :
      Drifts mine disk { disk with older := kept }

/-- A loss of power: the disk returns to one of its directories, and data that
is not synced may be anything. -/
structure LosesPower (disk after : Disk Path Content) : Prop where
  directory : after.directory ∈ disk.directories
  older : after.older = []
  inodes : ∀ number, (disk.inodes number).synced = true →
    after.inodes number = disk.inodes number

/-- An operation, and what happens until the next one. -/
def MovesOn (mine : Set Path) (disk : Disk Path Content) (op : DiskOp Path Content)
    (answer : op.Answer) (after : Disk Path Content) : Prop :=
  ∃ middle, Moves disk op answer middle ∧ Relation.ReflTransGen (Drifts mine) middle after

/-- Programs with these paths, which must keep the disk safe all the time. -/
def protocol (mine : Set Path) (safe : Disk Path Content → Prop) :
    Protocol (DiskOp Path Content) DiskOp.Answer (Disk Path Content) where
  allowed disk _ := safe disk
  moves := MovesOn mine

/-- What an operation may do, at the paths that it touches. -/
inductive Changes (op : DiskOp Path Content) (disk : Disk Path Content) :
    Disk Path Content → Prop
  | nothing : Changes op disk disk
  | write {path : Path} {number : Nat} (touched : op.Touches path)
      (named : disk.directory path = some number) (inode : Inode Content) :
      Changes op disk (disk.setInode number inode)
  | create {path : Path} {number : Nat} (touched : op.Touches path) (isFree : disk.IsFree number)
      (inode : Inode Content) :
      Changes op disk ((disk.setInode number inode).setDirectory
        (Function.update disk.directory path (some number)))
  | rename {source target : Path} {number : Nat} (sourceTouched : op.Touches source)
      (targetTouched : op.Touches target) (named : disk.directory source = some number) :
      Changes op disk (disk.setDirectory (renamed disk.directory source target number))

theorem changes_of_moves {disk after : Disk Path Content} {op : DiskOp Path Content}
    {answer : op.Answer} (moves : Moves disk op answer after) : Changes op disk after := by
  cases op with
  | createDirAll =>
      cases moves
      exact .nothing
  | «exists» | readToString =>
      rw [moves.1]
      exact .nothing
  | create path =>
      cases answer with
      | false =>
          cases moves
          exact .nothing
      | true =>
          obtain ⟨number, data, ⟨named, rfl⟩ | ⟨-, isFree, rfl⟩⟩ := moves
          · exact .write (by rfl) named _
          · exact .create (by rfl) isFree _
  | writeAll path content =>
      cases answer with
      | false =>
          obtain rfl | ⟨number, data, named, rfl⟩ := moves
          · exact .nothing
          · exact .write (by rfl) named _
      | true =>
          obtain ⟨number, named, rfl⟩ := moves
          exact .write (by rfl) named _
  | syncAll path =>
      cases answer with
      | false =>
          cases moves
          exact .nothing
      | true =>
          obtain ⟨number, named, rfl⟩ := moves
          exact .write (by rfl) named _
  | rename source target =>
      cases answer with
      | false =>
          cases moves
          exact .nothing
      | true =>
          obtain ⟨number, named, rfl⟩ := moves
          exact .rename (.inl rfl) (.inr rfl) named

end Operations

/-! ## What may be found under a path -/

/-- Every inode has one name, in each of the directories. -/
def NamedOnce (disk : Disk Path Content) : Prop :=
  ∀ directory ∈ disk.directories, ∀ first second number,
    directory first = some number → directory second = some number → first = second

/-- Whatever happens to the power, one of these contents is found under the
path, and the inodes it has there cannot be written under another. -/
structure Keeps (disk : Disk Path Content) (path : Path) (contents : Set (Option Content)) :
    Prop where
  namedOnce : disk.NamedOnce
  apart : ∀ directory ∈ disk.directories, ∀ number, directory path = some number →
    ∀ other, disk.directory other = some number → other = path
  missing : ∀ directory ∈ disk.directories, directory path = none → none ∈ contents
  whole : ∀ directory ∈ disk.directories, ∀ number, directory path = some number →
    (disk.inodes number).synced = true ∧ some (disk.inodes number).data ∈ contents

/-- All changes have reached the disk, and the file at the path too. -/
structure AtRest (disk : Disk Path Content) (path : Path) : Prop where
  namedOnce : disk.NamedOnce
  older : disk.older = []
  synced : ∀ inode, disk.inodeAt path = some inode → inode.synced = true

section Directory

variable [DecidableEq Path] {directory : Directory Path} {path other source target : Path} {number named : Nat}

theorem update_eq_some_iff :
    Function.update directory path (some number) other = some named ↔
      other = path ∧ named = number ∨ other ≠ path ∧ directory other = some named := by
  by_cases same : other = path
  · subst same
    simp [eq_comm]
  · simp [same]

theorem update_none_eq_some_iff :
    Function.update directory source none other = some named ↔
      other ≠ source ∧ directory other = some named := by
  by_cases same : other = source
  · subst same
    simp
  · simp [same]

end Directory

section Keep

variable {disk after : Disk Path Content} {path other source target : Path}
  {contents : Set (Option Content)} {number : Nat}

theorem Keeps.mono {more : Set (Option Content)} (keeps : disk.Keeps path contents)
    (subset : contents ⊆ more) : disk.Keeps path more where
  namedOnce := keeps.namedOnce
  apart := keeps.apart
  missing directory mem isMissing := subset (keeps.missing directory mem isMissing)
  whole directory mem number named := (keeps.whole directory mem number named).imp_right (subset ·)

theorem Keeps.found_mem (keeps : disk.Keeps path contents) : disk.found path ∈ contents := by
  have current : disk.directory ∈ disk.directories := List.mem_cons_self
  rw [found, inodeAt]
  cases named : disk.directory path with
  | none => exact keeps.missing _ current named
  | some number => exact (keeps.whole _ current number named).2

theorem eq_directory_of_mem (older : disk.older = []) {directory : Directory Path}
    (mem : directory ∈ disk.directories) : directory = disk.directory := by
  rw [directories, older] at mem
  exact List.mem_singleton.mp mem

/-- Nothing else can be found on a disk at rest. -/
theorem AtRest.keeps (atRest : disk.AtRest path) : disk.Keeps path {disk.found path} where
  namedOnce := atRest.namedOnce
  apart directory mem number named other otherNamed := by
    rw [eq_directory_of_mem atRest.older mem] at named
    exact atRest.namedOnce _ List.mem_cons_self other path number otherNamed named
  missing directory mem isMissing := by
    rw [eq_directory_of_mem atRest.older mem] at isMissing
    simp [found, inodeAt, isMissing]
  whole directory mem number named := by
    rw [eq_directory_of_mem atRest.older mem] at named
    refine ⟨atRest.synced _ ?_, ?_⟩ <;> simp [found, inodeAt, named]

theorem setInode_inodes_of_ne {found : Nat} (apart : found ≠ number) :
    (disk.setInode number inode).inodes found = disk.inodes found :=
  Function.update_of_ne apart ..

/-- An inode is written that the path never had. -/
theorem Keeps.setInode (keeps : disk.Keeps path contents)
    (apart : ∀ directory ∈ disk.directories, directory path ≠ some number)
    (inode : Inode Content) : (disk.setInode number inode).Keeps path contents where
  namedOnce := keeps.namedOnce
  apart := keeps.apart
  missing := keeps.missing
  whole directory mem found named := by
    have different : found ≠ number := by
      rintro rfl
      exact apart directory mem named
    rw [setInode_inodes_of_ne different]
    exact keeps.whole directory mem found named

theorem inodeAt_setInode (apart : disk.directory path ≠ some number) (inode : Inode Content) :
    (disk.setInode number inode).inodeAt path = disk.inodeAt path := by
  refine Option.map_congr fun found named => ?_
  have different : found ≠ number := by
    rintro rfl
    exact apart named
  rw [setInode_inodes_of_ne different]

theorem inodeAt_setInode_self (named : disk.directory path = some number) (inode : Inode Content) :
    (disk.setInode number inode).inodeAt path = some inode := by
  have here : (disk.setInode number inode).directory path = some number := named
  rw [inodeAt, here]
  exact congrArg some (Function.update_self ..)

theorem inodeAt_setDirectory {directory : Directory Path}
    (same : directory path = disk.directory path) :
    (disk.setDirectory directory).inodeAt path = disk.inodeAt path :=
  congrArg (Option.map _) same

/-- What has another name now never had the path. -/
theorem Keeps.never_named (keeps : disk.Keeps path contents)
    (named : disk.directory other = some number) (different : other ≠ path) :
    ∀ directory ∈ disk.directories, directory path ≠ some number :=
  fun directory mem pathNamed => different (keeps.apart directory mem number pathNamed other named)

theorem Keeps.setDirectory {directory : Directory Path} (keeps : disk.Keeps path contents)
    (namedOnce : ∀ first second number,
      directory first = some number → directory second = some number → first = second)
    (apart : ∀ old ∈ disk.directories, ∀ number, old path = some number →
      ∀ other, directory other = some number → other = path)
    (missing : directory path = none → none ∈ contents)
    (whole : ∀ number, directory path = some number →
      (disk.inodes number).synced = true ∧ some (disk.inodes number).data ∈ contents) :
    (disk.setDirectory directory).Keeps path contents where
  namedOnce := List.forall_mem_cons.mpr ⟨namedOnce, keeps.namedOnce⟩
  apart := List.forall_mem_cons.mpr
    ⟨fun number named other otherNamed => namedOnce other path number otherNamed named, apart⟩
  missing := List.forall_mem_cons.mpr ⟨missing, keeps.missing⟩
  whole := List.forall_mem_cons.mpr ⟨whole, keeps.whole⟩

/-- A directory in which the path has what it had. -/
theorem Keeps.setDirectory_same {directory : Directory Path} (keeps : disk.Keeps path contents)
    (namedOnce : ∀ first second number,
      directory first = some number → directory second = some number → first = second)
    (apart : ∀ old ∈ disk.directories, ∀ number, old path = some number →
      ∀ other, directory other = some number → other = path)
    (same : directory path = disk.directory path) :
    (disk.setDirectory directory).Keeps path contents := by
  refine keeps.setDirectory namedOnce apart (fun isMissing => ?_) fun number named => ?_
  · rw [same] at isMissing
    exact keeps.missing _ List.mem_cons_self isMissing
  · rw [same] at named
    exact keeps.whole _ List.mem_cons_self number named

theorem Keeps.settle {kept : List (Directory Path)} (keeps : disk.Keeps path contents)
    (subset : kept ⊆ disk.older) :
    ({ disk with older := kept } : Disk Path Content).Keeps path contents := by
  have fewer : disk.directory :: kept ⊆ disk.directories := List.cons_subset_cons _ subset
  exact ⟨fun directory mem => keeps.namedOnce directory (fewer mem),
    fun directory mem => keeps.apart directory (fewer mem),
    fun directory mem => keeps.missing directory (fewer mem),
    fun directory mem => keeps.whole directory (fewer mem)⟩

/-- After a loss of power, the disk is at rest. -/
theorem Keeps.atRest (keeps : disk.Keeps path contents) (loses : LosesPower disk after) :
    after.AtRest path ∧ after.found path ∈ contents := by
  have whole := keeps.whole _ loses.directory
  refine ⟨⟨?_, loses.older, ?_⟩, ?_⟩
  · intro directory mem
    rw [eq_directory_of_mem loses.older mem]
    exact keeps.namedOnce _ loses.directory
  · intro inode holds
    obtain ⟨number, named, rfl⟩ := Option.map_eq_some_iff.mp holds
    rw [loses.inodes number (whole number named).1]
    exact (whole number named).1
  · rw [found, inodeAt]
    cases named : after.directory path with
    | none => exact keeps.missing _ loses.directory named
    | some number =>
        rw [Option.map_some, Option.map_some, loses.inodes number (whole number named).1]
        exact (whole number named).2

variable [DecidableEq Path] {op : DiskOp Path Content} {mine : Set Path}

variable {disk after : Disk Path Content} {path other source target : Path}
  {contents : Set (Option Content)} {number : Nat} {inode : Inode Content}

/-- A file is created under another path. -/
theorem Keeps.create (keeps : disk.Keeps path contents) (isFree : disk.IsFree number)
    (different : other ≠ path) :
    (disk.setDirectory (Function.update disk.directory other (some number))).Keeps path contents := by
  have current : disk.directory ∈ disk.directories := List.mem_cons_self
  apply keeps.setDirectory_same
  · intro first second found firstNamed secondNamed
    rw [update_eq_some_iff] at firstNamed secondNamed
    rcases firstNamed with ⟨rfl, rfl⟩ | ⟨-, firstNamed⟩
    · rcases secondNamed with ⟨rfl, -⟩ | ⟨-, secondNamed⟩
      · rfl
      · exact absurd secondNamed (isFree _ current second)
    · rcases secondNamed with ⟨-, rfl⟩ | ⟨-, secondNamed⟩
      · exact absurd firstNamed (isFree _ current first)
      · exact keeps.namedOnce _ current first second found firstNamed secondNamed
  · intro old oldMem found oldNamed name named
    rw [update_eq_some_iff] at named
    rcases named with ⟨-, rfl⟩ | ⟨-, named⟩
    · exact absurd oldNamed (isFree old oldMem path)
    · exact keeps.apart old oldMem found oldNamed name named
  · exact Function.update_of_ne different.symm ..

theorem renamed_eq_some_iff {directory : Directory Path} {found : Nat} :
    renamed directory source target number other = some found ↔
      other = target ∧ found = number ∨
        other ≠ target ∧ other ≠ source ∧ directory other = some found := by
  rw [renamed, update_eq_some_iff, update_none_eq_some_iff]

theorem inodeAt_renamed :
    (disk.setDirectory (renamed disk.directory source target number)).inodeAt target =
      some (disk.inodes number) := by
  have here : renamed disk.directory source target number target = some number :=
    Function.update_self ..
  exact congrArg (Option.map disk.inodes) here

theorem renamed_of_ne {directory : Directory Path} (sourceApart : path ≠ source)
    (targetApart : path ≠ target) : renamed directory source target number path = directory path := by
  rw [renamed, Function.update_of_ne targetApart, Function.update_of_ne sourceApart]

theorem NamedOnce.renamed (namedOnce : disk.NamedOnce) (named : disk.directory source = some number)
    {first second : Path} {found : Nat}
    (firstNamed : renamed disk.directory source target number first = some found)
    (secondNamed : renamed disk.directory source target number second = some found) :
    first = second := by
  have current : disk.directory ∈ disk.directories := List.mem_cons_self
  rw [renamed_eq_some_iff] at firstNamed secondNamed
  rcases firstNamed with ⟨rfl, rfl⟩ | ⟨-, firstApart, firstNamed⟩
  · rcases secondNamed with ⟨rfl, -⟩ | ⟨-, secondApart, secondNamed⟩
    · rfl
    · exact absurd (namedOnce _ current second source found secondNamed named) secondApart
  · rcases secondNamed with ⟨-, rfl⟩ | ⟨-, -, secondNamed⟩
    · exact absurd (namedOnce _ current first source found firstNamed named) firstApart
    · exact namedOnce _ current first second found firstNamed secondNamed

/-- Another file is renamed. -/
theorem Keeps.rename (keeps : disk.Keeps path contents)
    (named : disk.directory source = some number) (sourceApart : source ≠ path)
    (targetApart : target ≠ path) :
    (disk.setDirectory (renamed disk.directory source target number)).Keeps path contents := by
  apply keeps.setDirectory_same
  · exact fun _ _ _ => keeps.namedOnce.renamed named
  · intro old oldMem found oldNamed name nameNamed
    rcases renamed_eq_some_iff.mp nameNamed with ⟨-, rfl⟩ | ⟨-, -, nameNamed⟩
    · exact absurd (keeps.apart old oldMem found oldNamed source named) sourceApart
    · exact keeps.apart old oldMem found oldNamed name nameNamed
  · exact renamed_of_ne sourceApart.symm targetApart.symm

/-- A file takes the place of the one at the path. -/
theorem Keeps.replace (keeps : disk.Keeps path contents)
    (named : disk.directory source = some number) (synced : (disk.inodes number).synced = true)
    (mem : some (disk.inodes number).data ∈ contents) :
    (disk.setDirectory (renamed disk.directory source path number)).Keeps path contents := by
  have atPath : renamed disk.directory source path number path = some number :=
    renamed_eq_some_iff.mpr (.inl ⟨rfl, rfl⟩)
  apply keeps.setDirectory
  · exact fun _ _ _ => keeps.namedOnce.renamed named
  · intro old oldMem found oldNamed name nameNamed
    rcases renamed_eq_some_iff.mp nameNamed with ⟨rfl, -⟩ | ⟨-, -, nameNamed⟩
    · rfl
    · exact keeps.apart old oldMem found oldNamed name nameNamed
  · intro isMissing
    rw [atPath] at isMissing
    cases isMissing
  · intro found foundNamed
    rw [atPath] at foundNamed
    cases foundNamed
    exact ⟨synced, mem⟩

/-- The inode of a path that is not touched is the same. -/
theorem Changes.inodeAt_eq (namedOnce : disk.NamedOnce) (changes : Changes op disk after)
    (apart : ¬ op.Touches path) : after.inodeAt path = disk.inodeAt path := by
  have different : ∀ {other}, op.Touches other → path ≠ other := by
    rintro other touched rfl
    exact apart touched
  have current : disk.directory ∈ disk.directories := List.mem_cons_self
  cases changes with
  | nothing => rfl
  | @write other number touched named inode =>
      apply inodeAt_setInode
      intro pathNamed
      exact different touched (namedOnce _ current path other number pathNamed named)
  | create touched isFree inode =>
      rw [← inodeAt_setInode (isFree _ current path) inode]
      exact inodeAt_setDirectory (Function.update_of_ne (different touched) ..)
  | rename sourceTouched targetTouched named =>
      exact inodeAt_setDirectory (renamed_of_ne (different sourceTouched) (different targetTouched))

/-- Changes of other paths do not change what may be found. -/
theorem Keeps.changes (keeps : disk.Keeps path contents) (changes : Changes op disk after)
    (apart : ¬ op.Touches path) : after.Keeps path contents := by
  have different : ∀ {other}, op.Touches other → other ≠ path := by
    rintro other touched rfl
    exact apart touched
  cases changes with
  | nothing => exact keeps
  | write touched named inode =>
      exact keeps.setInode (keeps.never_named named (different touched)) inode
  | create touched isFree inode =>
      have unnamed := keeps.setInode (fun directory mem => isFree directory mem path) inode
      exact unnamed.create isFree (different touched)
  | rename sourceTouched targetTouched named =>
      exact keeps.rename named (different sourceTouched) (different targetTouched)

theorem Keeps.drifts (keeps : disk.Keeps path contents) (mem : path ∈ mine)
    (drifts : Relation.ReflTransGen (Drifts mine) disk after) :
    after.Keeps path contents ∧ ∀ other ∈ mine, after.inodeAt other = disk.inodeAt other := by
  induction drifts with
  | refl => exact ⟨keeps, fun _ _ => rfl⟩
  | tail _ step ih =>
      obtain ⟨keeps, same⟩ := ih
      cases step with
      | others apart moves =>
          have changes := changes_of_moves moves
          refine ⟨keeps.changes changes (apart path mem), fun other otherMem => ?_⟩
          rw [changes.inodeAt_eq keeps.namedOnce (apart other otherMem), same other otherMem]
      | settle subset => exact ⟨keeps.settle subset, same⟩

/-! ## Rules for programs -/

/-- An operation on another path. -/
theorem Keeps.movesOn {answer : op.Answer} (keeps : disk.Keeps path contents) (mem : path ∈ mine)
    (apart : ¬ op.Touches path) (moves : MovesOn mine disk op answer after) :
    after.Keeps path contents ∧ after.inodeAt path = disk.inodeAt path := by
  obtain ⟨middle, moves, drifts⟩ := moves
  have changes := changes_of_moves moves
  obtain ⟨kept, same⟩ := (keeps.changes changes apart).drifts mem drifts
  exact ⟨kept, (same path mem).trans (changes.inodeAt_eq keeps.namedOnce apart)⟩

theorem Keeps.inodeAt_writeAll {content : Content} (keeps : disk.Keeps path contents)
    (mem : path ∈ mine) (otherMem : other ∈ mine) (apart : path ≠ other)
    (moves : MovesOn mine disk (.writeAll other content) true after) :
    after.inodeAt other = some ⟨content, false⟩ := by
  obtain ⟨middle, moves, drifts⟩ := moves
  have kept := keeps.changes (changes_of_moves moves) apart
  obtain ⟨number, named, rfl⟩ := moves
  rw [(kept.drifts mem drifts).2 other otherMem]
  exact inodeAt_setInode_self named _

theorem Keeps.inodeAt_syncAll {inode : Inode Content} (keeps : disk.Keeps path contents)
    (mem : path ∈ mine) (otherMem : other ∈ mine) (apart : path ≠ other)
    (holds : disk.inodeAt other = some inode)
    (moves : MovesOn mine disk (.syncAll other) true after) :
    after.inodeAt other = some { inode with synced := true } := by
  obtain ⟨middle, moves, drifts⟩ := moves
  have kept := keeps.changes (changes_of_moves moves) apart
  obtain ⟨number, named, rfl⟩ := moves
  rw [inodeAt, named] at holds
  cases holds
  rw [(kept.drifts mem drifts).2 other otherMem]
  exact inodeAt_setInode_self named _

/-- What has been synced elsewhere takes the place of the file. -/
theorem Keeps.rename_movesOn {content : Content} (keeps : disk.Keeps path contents)
    (mem : path ∈ mine) (holds : disk.inodeAt source = some ⟨content, true⟩)
    (contentMem : some content ∈ contents)
    (moves : MovesOn mine disk (.rename source path) true after) :
    after.Keeps path contents ∧ after.found path = some content := by
  obtain ⟨middle, ⟨number, named, rfl⟩, drifts⟩ := moves
  rw [inodeAt, named] at holds
  have inode : disk.inodes number = ⟨content, true⟩ := Option.some_inj.mp holds
  have replaced : (disk.setDirectory (renamed disk.directory source path number)).Keeps
      path contents := by
    apply keeps.replace named <;> rw [inode]
    exact contentMem
  obtain ⟨kept, same⟩ := replaced.drifts mem drifts
  refine ⟨kept, ?_⟩
  rw [found, same path mem, inodeAt_renamed, inode, Option.map_some]

end Keep

end Disk

end Numa
