import PageBinding.Proofs.Traversal
import PageBinding.Workspace

/-!
This module contains why a project cannot be loaded. A fault in the syntax or in the data of its
own file is reported. What else keeps the file from being read is not, nor is anything that is wrong
with the settings.
-/

namespace PageBinding

variable [FileFormat]

namespace Settings

inductive Spoils (document : Document) : Failure → Prop where
  | malformed {fault : Malformed} : document.read = .error (.malformed fault) →
      Spoils document (.malformedSettings fault)
  | numeral {digits : Nat} : document.read = .error (.numeral digits) →
      Spoils document (.numeralTooLong (some digits))
  | raised {kind message : Text} : document.read = .error (.raised kind message) →
      Spoils document (.raised kind message)
  | invalid {v : Value} {problems : List Problem} : document.read = .ok v →
      Settings.read [] v = .error problems → Spoils document (.invalidData problems)

inductive Breaks (disk : Disk) (start : Location) : Failure → Prop where
  | directory {location : Location} : disk.findAbove start fileName = some location →
      disk.entry? location = some .directory →
      Breaks disk start (.isDirectory (disk.pathOf location))
  | document {location : Location} {document : Document} {failure : Failure} :
      disk.findAbove start fileName = some location →
      disk.entry? location = some (.file document) → Spoils document failure →
      Breaks disk start failure

variable {document : Document} {disk : Disk} {start : Location} {failure : Failure}

theorem ofDocument_eq_error_iff :
    ofDocument document = .error failure ↔ Spoils document failure := by
  constructor
  . intro h
    unfold ofDocument at h
    split at h
    . next fault hread =>
      cases h
      cases fault with
      | malformed fault => exact .malformed hread
      | numeral digits => exact .numeral hread
      | raised kind message => exact .raised hread
    . next v hread =>
      split at h
      . next problems hinvalid =>
        cases h
        exact .invalid hread hinvalid
      . cases h
  . intro h
    cases h with
    | malformed hread | numeral hread | raised hread =>
      simp only [ofDocument, hread, Unreadable.failure]
    | invalid hread hinvalid => simp only [ofDocument, hread, hinvalid]

theorem discover_eq_error_iff :
    discover disk start = .error failure ↔ Breaks disk start failure := by
  constructor
  . intro h
    unfold discover at h
    split at h
    . cases h
    . next location hfound =>
      unfold load at h
      split at h
      . cases h
      . next hentry =>
        cases h
        exact .directory hfound hentry
      . next document hentry => exact .document hfound hentry (ofDocument_eq_error_iff.mp h)
  . intro h
    cases h with
    | directory hfound hentry => simp only [discover, load, hfound, hentry]
    | document hfound hentry hspoils =>
      simp only [discover, load, hfound, hentry]
      exact ofDocument_eq_error_iff.mpr hspoils

theorem Breaks.isReported_eq (h : Breaks disk start failure) : failure.isReported = false := by
  cases h with
  | directory => rfl
  | document _ _ hspoils => cases hspoils <;> rfl

end Settings

namespace Project

/--
What is at the location of a project cannot be read, but not for a fault of its syntax.
-/
inductive Obstructs (disk : Disk) (path : Text) (location : Option Location) : Failure → Prop where
  | directory : location.bind disk.entry? = some .directory →
      Obstructs disk path location (.isDirectory path)
  | numeral {document : Document} {digits : Nat} :
      location.bind disk.entry? = some (.file document) →
      document.read = .error (.numeral digits) →
      Obstructs disk path location (.numeralTooLong (some digits))
  | raised {document : Document} {kind message : Text} :
      location.bind disk.entry? = some (.file document) →
      document.read = .error (.raised kind message) →
      Obstructs disk path location (.raised kind message)

variable {disk : Disk} {supply : IdSupply} {path : Text} {location : Option Location}
  {failure : Failure}

theorem load_eq_error_cases (h : load disk supply path location = .error failure) :
    (∃ fault, failure = .projectFile path fault) ∨ Obstructs disk path location failure := by
  unfold load at h
  split at h
  . cases h
    exact .inl ⟨_, rfl⟩
  . next hentry =>
    cases h
    exact .inr (.directory hentry)
  . next document hentry =>
    unfold ofDocument at h
    split at h
    . next fault hread =>
      cases h
      cases fault with
      | malformed fault => exact .inl ⟨_, rfl⟩
      | numeral digits => exact .inr (.numeral hentry hread)
      | raised kind message => exact .inr (.raised hentry hread)
    . split at h
      . cases h
        exact .inl ⟨_, rfl⟩
      . cases h

theorem Obstructs.load_eq (h : Obstructs disk path location failure) :
    load disk supply path location = .error failure := by
  cases h with
  | directory hentry => simp only [load, hentry]
  | numeral hentry hread | raised hentry hread =>
    simp only [load, hentry, ofDocument, hread, Unreadable.failure]

theorem Obstructs.isReported_eq (h : Obstructs disk path location failure) :
    failure.isReported = false := by
  cases h <;> rfl

end Project

namespace Workspace

/--
A project cannot be loaded, and nobody is told: what is at its place cannot be read, or there is
nothing wrong with it but the settings above it cannot be used.
-/
inductive Unreported (disk : Disk) (supplies : IdSupplies) (working : Location)
    (given : Option Text) : Failure → Prop where
  | project {path : Text} {location : Option Location} {failure : Failure} :
      target disk working given = .ok (path, location) →
      Project.Obstructs disk path location failure →
      Unreported disk supplies working given failure
  | settings {path : Text} {location : Option Location} {project : Project} {ids : IdSupply}
      {failure : Failure} :
      target disk working given = .ok (path, location) →
      Project.load disk supplies.entities path location = .ok (project, ids) →
      Settings.Breaks disk (location.getD []).dropLast failure →
      Unreported disk supplies working given failure

variable {disk : Disk} {supplies : IdSupplies} {working : Location} {given : Option Text}
  {failure : Failure}

theorem Unreported.isReported_eq (h : Unreported disk supplies working given failure) :
    failure.isReported = false := by
  cases h with
  | project _ hobstructs => exact hobstructs.isReported_eq
  | settings _ _ hbreaks => exact hbreaks.isReported_eq

omit [FileFormat] in
theorem target_eq_error (h : target disk working given = .error failure) :
    ∃ path fault, failure = .projectFile path fault := by
  unfold target at h
  split at h
  . cases h
  . split at h
    . cases h
    . cases h
      exact ⟨_, _, rfl⟩

theorem load_eq_error_cases (h : load disk supplies working given = .error failure) :
    (∃ path fault, failure = .projectFile path fault) ∨
      Unreported disk supplies working given failure := by
  unfold load at h
  rw [Traversal.bind_eq_error_iff] at h
  rcases h with htarget | ⟨⟨path, location⟩, htarget, h⟩
  . exact .inl (target_eq_error htarget)
  rw [Traversal.bind_eq_error_iff] at h
  rcases h with hproject | ⟨⟨project, ids⟩, hproject, h⟩
  . rcases Project.load_eq_error_cases hproject with ⟨fault, rfl⟩ | hobstructs
    . exact .inl ⟨path, fault, rfl⟩
    . exact .inr (.project htarget hobstructs)
  rw [Traversal.bind_eq_error_iff] at h
  rcases h with hsettings | ⟨settings, -, h⟩
  . exact .inr (.settings htarget hproject (Settings.discover_eq_error_iff.mp hsettings))
  . cases h

theorem Unreported.load_eq (h : Unreported disk supplies working given failure) :
    load disk supplies working given = .error failure := by
  cases h with
  | project htarget hobstructs =>
    rw [load, htarget]
    simp only [bind, Except.bind, hobstructs.load_eq]
  | settings htarget hproject hbreaks =>
    rw [load, htarget]
    simp only [bind, Except.bind, hproject, Settings.discover_eq_error_iff.mpr hbreaks]

theorem unreported_iff : Unreported disk supplies working given failure ↔
    load disk supplies working given = .error failure ∧ failure.isReported = false := by
  constructor
  . exact fun h => ⟨h.load_eq, h.isReported_eq⟩
  . rintro ⟨hload, hreported⟩
    rcases load_eq_error_cases hload with ⟨path, fault, rfl⟩ | h
    . cases hreported
    . exact h

end Workspace

end PageBinding
