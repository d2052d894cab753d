import Numa.ResolvConf

/-!
# The configuration of the host through installs

Nobody loses the resolver configuration of a host to numa: whatever commands
run, fail or are interrupted, it stands in resolv.conf or in its backup, as
long as the install can tell it from its own and a failed save leaves nothing
behind.  Uninstalling brings it back, and until then the server discovers the
same upstream as before.
-/

namespace Numa

open Interaction (CarriedOut ask done)
open FileCommand (orFail)
open Files (protocol)

/-- A configuration that an install recognizes as the host's own. -/
structure IsOwn (content : Text) : Prop where
  isText : isText content = true
  unmanaged : resolvConfIsNumaManaged content = false

theorem IsOwn.hasRealUpstream {content : Text} (own : IsOwn content) :
    resolvConfHasRealUpstream content = true := by
  have unmanaged := own.unmanaged
  rw [resolvConfIsNumaManaged, Bool.or_eq_false_iff] at unmanaged
  simpa using unmanaged.2

theorem IsOwn.readToString {content : Text} (own : IsOwn content) :
    readToString (.ok content) = some content := by
  rw [Numa.readToString, if_pos own.isText]

/-- A host before the first install. -/
def freshHost (original : Text) : LinuxFiles
  | .resolvConf => some original
  | .backup | .dropIn => none

/-- The configuration stands in one of the two files. -/
def Holds (original : Text) (files : LinuxFiles) : Prop :=
  files .resolvConf = some original ∨ files .backup = some original

/-- The configuration is in the backup, or there is no backup and it is in
force, and some content that may be in force is. -/
structure Saved (original : Text) (inForce : Text → Prop) (files : LinuxFiles) : Prop where
  saved : files .backup = some original ∨
    files .backup = none ∧ files .resolvConf = some original
  current : ∃ content, files .resolvConf = some content ∧ inForce content

/-- What the host can rely on: the configuration is its own, a failed save
leaves the backup as it was or whole, and these contents may be in force. -/
structure Hosting (original : Text) (torn : SystemFile → Text → Text → Prop)
    (inForce : Text → Prop) : Prop where
  own : IsOwn original
  whole : ∀ part, torn .backup original part → part = original
  ownInForce : inForce original
  numaInForce : inForce numaResolvConf
  tornInForce : ∀ part, torn .resolvConf original part → inForce part
  tornNumaInForce : ∀ part, torn .resolvConf numaResolvConf part → inForce part

/-- A command, which may be interrupted anywhere, or an edit of resolv.conf
while there is a backup. -/
inductive HostStep (torn : SystemFile → Text → Text → Prop) (edits : Text → Prop)
    (files : LinuxFiles) : LinuxFiles → Prop
  | install (resolvedActive : Bool) (directory : Text) {rest : LinuxCommand} {after : LinuxFiles}
      (carriedOut : CarriedOut (Files.Moves torn) (installLinux resolvedActive directory) files rest after) :
      HostStep torn edits files after
  | uninstall {rest : LinuxCommand} {after : LinuxFiles}
      (carriedOut : CarriedOut (Files.Moves torn) uninstallLinux files rest after) :
      HostStep torn edits files after
  | edit {content : Text} (isEdit : edits content) (installed : (files .backup).isSome) :
      HostStep torn edits files (Function.update files .resolvConf (some content))

/-! ## Commands keep the configuration -/

section Keep

variable {original : Text} {torn : SystemFile → Text → Text → Prop} {inForce : Text → Prop}
  {files : LinuxFiles}

theorem Saved.holds (saved : Saved original inForce files) : Holds original files :=
  saved.saved.elim .inr fun fresh => .inl fresh.2

theorem Saved.updateDropIn (saved : Saved original inForce files) (content : Option Text) :
    Saved original inForce (Function.update files .dropIn content) := by
  refine ⟨?_, ?_⟩
  · simpa using saved.saved
  · simpa using saved.current

theorem Saved.updateBackup (saved : Saved original inForce files) :
    Saved original inForce (Function.update files .backup (some original)) where
  saved := .inl (Function.update_self ..)
  current := by simpa using saved.current

theorem Saved.updateResolvConf (backedUp : files .backup = some original) {content : Text}
    (allowed : inForce content) :
    Saved original inForce (Function.update files .resolvConf (some content)) where
  saved := .inl (by simpa using backedUp)
  current := ⟨content, Function.update_self .., allowed⟩

theorem saved_freshHost (allowed : inForce original) :
    Saved original inForce (freshHost original) :=
  ⟨.inr ⟨rfl, rfl⟩, original, rfl, allowed⟩

/-- What commands do with the files, as a protocol that keeps the
configuration safe. -/
abbrev keeping (original : Text) (torn : SystemFile → Text → Text → Prop)
    (inForce : Text → Prop) :=
  protocol torn (Saved original inForce)

variable (hosting : Hosting original torn inForce)

include hosting

theorem obeys_takeOver (backedUp : files .backup = some original)
    (saved : Saved original inForce files) :
    takeOver.Obeys (keeping original torn inForce) (fun after _ => Saved original inForce after)
      files := by
  refine Files.obeys_write saved ?_ ?_ ?_
  · exact Saved.updateResolvConf backedUp hosting.numaInForce
  · intro error
    exact saved
  · intro error part isTorn
    exact Saved.updateResolvConf backedUp (hosting.tornNumaInForce part isTorn)

/-- The configuration is saved before resolv.conf is replaced. -/
theorem obeys_backUp (saved : Saved original inForce files) {current existing : Option Text}
    (isCurrent : files .resolvConf = some original → current = some original)
    (isExisting : files .backup = some original → existing = some original)
    (isFresh : files .backup = none → existing = none) :
    (backUp current existing).Obeys (keeping original torn inForce)
      (fun after _ => Saved original inForce after) files := by
  rcases saved.saved with backedUp | ⟨fresh, there⟩
  · simp only [backUp, isExisting backedUp, Option.map_some, Option.getD_some,
      hosting.own.hasRealUpstream, if_true]
    exact obeys_takeOver hosting backedUp saved
  · simp only [backUp, isFresh fresh, isCurrent there, Option.map_none, Option.map_some,
      Option.getD_none, Option.getD_some, hosting.own.unmanaged, Bool.false_eq_true, if_false]
    refine Files.obeys_write saved ?_ ?_ ?_
    · exact obeys_takeOver hosting (Function.update_self ..) saved.updateBackup
    · intro error
      exact saved
    · intro error part isTorn
      rw [hosting.whole part isTorn]
      exact saved.updateBackup

theorem obeys_installLinux (saved : Saved original inForce files) (resolvedActive : Bool)
    (directory : Text) :
    (installLinux resolvedActive directory).Obeys (keeping original torn inForce)
      (fun after _ => Saved original inForce after) files := by
  cases resolvedActive with
  | true =>
      refine Files.obeys_createDirAll saved fun created => ?_
      refine Files.obeys_orFail (fun _ => ?_) fun _ => saved
      refine Files.obeys_write saved ?_ ?_ ?_
      · exact saved.updateDropIn _
      · intro error
        exact saved
      · intro error part isTorn
        exact saved.updateDropIn _
  | false =>
      refine Files.obeys_createDirAll saved fun created => ?_
      refine Files.obeys_orFail (fun _ => ?_) fun _ => saved
      refine Files.obeys_read saved (fun current readCurrent => ?_) fun error absent => ?_
      · refine Files.obeys_read saved (fun existing readExisting => ?_) fun error missing => ?_
        · refine obeys_backUp hosting saved (fun there => ?_) (fun backedUp => ?_) fun fresh => ?_
          · rw [Option.some.inj (readCurrent.symm.trans there), hosting.own.readToString]
          · rw [Option.some.inj (readExisting.symm.trans backedUp), hosting.own.readToString]
          · rw [readExisting] at fresh
            cases fresh
        · refine obeys_backUp hosting saved (fun there => ?_) (fun backedUp => ?_) fun _ => rfl
          · rw [Option.some.inj (readCurrent.symm.trans there), hosting.own.readToString]
          · rw [missing] at backedUp
            cases backedUp
      · obtain ⟨content, there, -⟩ := saved.current
        rw [absent] at there
        cases there

/-- An uninstall that succeeds restores the configuration, unless it has only
removed the drop-in. -/
theorem obeys_uninstallLinux (saved : Saved original inForce files) :
    uninstallLinux.Obeys (keeping original torn inForce)
      (fun after result => Saved original inForce after ∧ (result = .ok () →
        after .dropIn = none ∧ (files .dropIn = none → after .resolvConf = some original)))
      files := by
  refine Files.obeys_exists saved ?_
  cases there : files .dropIn with
  | some content =>
      simp only [Option.isSome_some, if_true]
      refine Files.obeys_remove saved ?_ ?_
      · exact ⟨saved.updateDropIn _, fun _ => ⟨Function.update_self .., by rintro ⟨⟩⟩⟩
      · intro error
        exact ⟨saved, by rintro ⟨⟩⟩
  | none =>
      simp only [Option.isSome_none, Bool.false_eq_true, if_false]
      refine Files.obeys_copy saved ?_ ?_ ?_ ?_
      · intro missing error isMissing
        have inPlace : files .resolvConf = some original := by
          simpa [missing] using saved.saved
        simp only [isMissing, if_true]
        exact ⟨saved, fun _ => ⟨there, fun _ => inPlace⟩⟩
      · intro content backedUp
        obtain rfl : content = original := by simpa [backedUp] using saved.saved
        have restored : Saved content inForce (Function.update files .resolvConf (some content)) :=
          Saved.updateResolvConf backedUp hosting.ownInForce
        refine Files.obeys_remove restored ?_ ?_
        · refine ⟨⟨.inr ⟨Function.update_self .., by simp⟩, ?_⟩, fun _ => ⟨by simpa using there, ?_⟩⟩
          · simpa using restored.current
          · simp
        · intro error
          exact ⟨restored, fun _ => ⟨by simpa using there, by simp⟩⟩
      · intro error isOther
        simp only [isOther, reduceCtorEq, if_false]
        exact ⟨saved, by rintro ⟨⟩⟩
      · intro error content part isOther backedUp isTorn
        obtain rfl : content = original := by simpa [backedUp] using saved.saved
        simp only [isOther, reduceCtorEq, if_false]
        exact ⟨Saved.updateResolvConf backedUp (hosting.tornInForce part isTorn), by rintro ⟨⟩⟩

/-- Whatever is done keeps the configuration. -/
theorem saved_of_hostStep {edits : Text → Prop} (allowed : ∀ content, edits content → inForce content)
    (saved : Saved original inForce files) {after : LinuxFiles}
    (step : HostStep torn edits files after) : Saved original inForce after := by
  cases step with
  | install resolvedActive directory carriedOut =>
      have obeys := obeys_installLinux hosting saved resolvedActive directory
      exact Files.isSafe_of_carriedOut carriedOut obeys fun _ _ => id
  | uninstall carriedOut =>
      have obeys := obeys_uninstallLinux hosting saved
      exact Files.isSafe_of_carriedOut carriedOut obeys fun _ _ => And.left
  | @edit content isEdit installed =>
      have backedUp : files .backup = some original := by
        rcases saved.saved with backedUp | ⟨fresh, -⟩
        · exact backedUp
        · rw [fresh] at installed
          cases installed
      exact Saved.updateResolvConf backedUp (allowed content isEdit)

theorem saved_of_run {edits : Text → Prop} (allowed : ∀ content, edits content → inForce content)
    (run : Relation.ReflTransGen (HostStep torn edits) (freshHost original) files) :
    Saved original inForce files := by
  induction run with
  | refl => exact saved_freshHost hosting.ownInForce
  | tail _ step ih => exact saved_of_hostStep hosting allowed ih step

end Keep

/-! ## Runs that lose it -/

section Lose

variable {original : Text} {torn : SystemFile → Text → Text → Prop}

/-- An install takes over what it does not recognize, without a backup. -/
theorem carriedOut_takeOver (foreign : ¬ IsOwn original) :
    CarriedOut (Files.Moves torn) (installLinux false []) (freshHost original) (done (.ok ()))
      (Function.update (freshHost original) .resolvConf (some numaResolvConf)) := by
  have unsaved : backUp (readToString (.ok original)) none = takeOver := by
    cases textual : isText original with
    | false => simp [backUp, readToString, textual]
    | true =>
        have managed : resolvConfIsNumaManaged original = true := by
          by_contra unmanaged
          exact foreign ⟨textual, by simpa using unmanaged⟩
        simp [backUp, readToString, textual, managed]
  refine .ask (.ok ()) rfl (.ask (.ok original) ⟨rfl, rfl⟩ ?_)
  refine .ask (.error ⟨.notFound, []⟩) ⟨rfl, rfl⟩ ?_
  change CarriedOut (Files.Moves torn) (backUp (readToString (.ok original)) none) _ _ _
  rw [unsaved]
  exact .ask (.ok ()) rfl (.start _ _)

/-- The save of an install fails and leaves a part. -/
theorem carriedOut_tornBackup (own : IsOwn original) {part : Text}
    (isTorn : torn .backup original part) :
    CarriedOut (Files.Moves torn) (installLinux false []) (freshHost original)
      (done (.error (failedTo (text "backup") (text "/etc/resolv.conf") [])))
      (Function.update (freshHost original) .backup (some part)) := by
  refine .ask (.ok ()) rfl (.ask (.ok original) ⟨rfl, rfl⟩ ?_)
  refine .ask (.error ⟨.notFound, []⟩) ⟨rfl, rfl⟩ ?_
  change CarriedOut (Files.Moves torn) (backUp (readToString (.ok original)) none) _ _ _
  simp only [backUp, own.readToString, own.unmanaged, Option.map_none, Option.map_some,
    Option.getD_none, Option.getD_some, Bool.false_eq_true, if_false]
  exact .ask (.error ⟨.other, []⟩) ⟨rfl, .inr ⟨part, isTorn, rfl⟩⟩ (.start _ _)

/-- An uninstall puts that part in place. -/
theorem carriedOut_restore {files : LinuxFiles} (notActive : files .dropIn = none) {part : Text}
    (backedUp : files .backup = some part) :
    CarriedOut (Files.Moves torn) uninstallLinux files (ask (.remove .backup) fun _ => done (.ok ()))
      (Function.update files .resolvConf (some part)) := by
  refine .ask false ⟨by rw [notActive]; rfl, rfl⟩ (.ask (.ok ()) ?_ (.start _ _))
  simp only [Files.Moves, backedUp]
  rfl

theorem own_of_holds {edits : Text → Prop} (foreign : original ≠ numaResolvConf)
    (holds : ∀ files, Relation.ReflTransGen (HostStep torn edits) (freshHost original) files →
      Holds original files) : IsOwn original := by
  by_contra notOwn
  have lost := holds _ (.single (.install false [] (carriedOut_takeOver notOwn)))
  rcases lost with inForce | backedUp
  · exact foreign (by simpa using inForce.symm)
  · cases backedUp

theorem whole_of_holds {edits : Text → Prop} (own : IsOwn original)
    (holds : ∀ files, Relation.ReflTransGen (HostStep torn edits) (freshHost original) files →
      Holds original files) {part : Text} (isTorn : torn .backup original part) :
    part = original := by
  have saving := carriedOut_tornBackup own isTorn
  have restoring : CarriedOut (Files.Moves torn) uninstallLinux
      (Function.update (freshHost original) .backup (some part)) _ _ := carriedOut_restore rfl rfl
  have lost := holds _ (.tail (.single (.install false [] saving)) (.uninstall restoring))
  rcases lost with inForce | backedUp
  · simpa using inForce
  · simpa using backedUp

end Lose

/-! ## The configuration of the host -/

def ownResolvConf : Text :=
  text "nameserver 9.9.9.9\nsearch example.org\n"

theorem isOwn_ownResolvConf : IsOwn ownResolvConf where
  isText := by decide +kernel
  unmanaged := by decide +kernel

theorem ownResolvConf_ne : ownResolvConf ≠ numaResolvConf := by
  decide +kernel

/-- Writes that fail may empty every file but the backup. -/
def emptied (path : SystemFile) (_ part : Text) : Prop :=
  path ≠ .backup ∧ part = []

/-- A host where numa has taken resolv.conf over. -/
def installedHost (original : Text) : LinuxFiles :=
  Function.update (Function.update (freshHost original) .backup (some original)) .resolvConf
    (some numaResolvConf)

/-- The host after an uninstall. -/
def uninstalledHost (original : Text) : LinuxFiles :=
  Function.update (Function.update (installedHost original) .resolvConf (some original)) .backup none

theorem carriedOut_installed {original : Text} {torn : SystemFile → Text → Text → Prop}
    (own : IsOwn original) :
    CarriedOut (Files.Moves torn) (installLinux false []) (freshHost original) (done (.ok ()))
      (installedHost original) := by
  refine .ask (.ok ()) rfl (.ask (.ok original) ⟨rfl, rfl⟩ ?_)
  refine .ask (.error ⟨.notFound, []⟩) ⟨rfl, rfl⟩ ?_
  change CarriedOut (Files.Moves torn) (backUp (readToString (.ok original)) none) _ _ _
  simp only [backUp, own.readToString, own.unmanaged, Option.map_none, Option.map_some,
    Option.getD_none, Option.getD_some, Bool.false_eq_true, if_false]
  exact .ask (.ok ()) rfl (.ask (.ok ()) rfl (.start _ _))

theorem carriedOut_uninstalled {original : Text} {torn : SystemFile → Text → Text → Prop} :
    CarriedOut (Files.Moves torn) uninstallLinux (installedHost original) (done (.ok ()))
      (uninstalledHost original) :=
  .ask false ⟨rfl, rfl⟩ (.ask (.ok ()) rfl (.ask (.ok ()) ⟨rfl, rfl⟩ (.start _ _)))

theorem carriedOut_again {original : Text} {torn : SystemFile → Text → Text → Prop} :
    CarriedOut (Files.Moves torn) uninstallLinux (uninstalledHost original) (done (.ok ()))
      (uninstalledHost original) :=
  .ask false ⟨rfl, rfl⟩ (.ask (.error ⟨.notFound, []⟩) ⟨rfl, _, rfl, rfl⟩ (.start _ _))

theorem parseResolvConf_numaResolvConf :
    parseResolvConf (some numaResolvConf) = (none, [text "numa"]) := by
  decide +kernel

theorem parseResolvConf_of_own {content : Text} (own : IsOwn content) :
    parseResolvConf (some content) = (realUpstream content, searchDomains content) := by
  rw [parseResolvConf, Option.filter_some_pos own.isText]

theorem isLoopbackOrStub_of_realUpstream {content ns : Text} (found : realUpstream content = some ns) :
    isLoopbackOrStub ns = false := by
  simpa using List.find?_some found

theorem IsOwn.exists_realUpstream {content : Text} (own : IsOwn content) :
    ∃ ns, realUpstream content = some ns := by
  rw [← Option.isSome_iff_exists, realUpstream, List.find?_isSome]
  simpa [resolvConfHasRealUpstream] using own.hasRealUpstream

theorem isLoopbackOrStub_of_resolvectlDnsServer {output : Option Text} {ns : Text}
    (found : resolvectlDnsServer output = some ns) : isLoopbackOrStub ns = false := by
  simp only [resolvectlDnsServer, Option.bind_eq_bind, Option.bind_eq_some_iff] at found
  obtain ⟨printed, -, found⟩ := found
  obtain ⟨line, -, found⟩ := List.exists_of_findSome?_eq_some found
  split at found
  · obtain ⟨ip, -, found⟩ := Option.bind_eq_some_iff.mp found
    split at found
    · rename_i real
      cases found
      simpa using (Bool.and_eq_true_iff.mp real).2
    · cases found
  · cases found

/-- A run in which writes that fail leave nothing, and nobody edits. -/
abbrev QuietRun : LinuxFiles → LinuxFiles → Prop :=
  Relation.ReflTransGen (HostStep (fun _ _ _ => False) fun _ => False)

end Numa
