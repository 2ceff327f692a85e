import PageBinding.Proofs.Value
import PageBinding.Workspace

/-!
This module contains what the files of a disk hold after something has been written or appended to
one of them.
-/

namespace PageBinding

namespace Disk

variable {disk : Disk} {location other : Location}

theorem document?_write (disk : Disk) (location : Location) (document : Document) :
    (disk.write location document).document? location = some document := by
  unfold write
  split
  . next hsome =>
    have hreplaced : ((fun file : Location × Document => decide (file.1 = location)) ∘
        fun file => if file.1 = location then (location, document) else file) =
          fun file => decide (file.1 = location) := by
      funext file
      by_cases hfile : file.1 = location <;> simp [hfile]
    unfold document? at hsome ⊢
    rw [List.find?_map, hreplaced]
    cases hfind : disk.files.find? (·.1 = location) with
    | none => simp [hfind] at hsome
    | some file =>
      have hfile := List.find?_some hfind
      simp [of_decide_eq_true hfile]
  . next hnone =>
    unfold document? at hnone ⊢
    simp only [Option.isSome_map, Bool.not_eq_true, Option.isSome_eq_false_iff,
      Option.isNone_iff_eq_none] at hnone
    simp [List.find?_append, hnone]

theorem document?_write_of_ne (h : other ≠ location) (document : Document) :
    (disk.write location document).document? other = disk.document? other := by
  unfold write
  split
  . have hsame : ((fun file : Location × Document => decide (file.1 = other)) ∘
        fun file => if file.1 = location then (location, document) else file) =
          fun file => decide (file.1 = other) := by
      funext file
      by_cases hfile : file.1 = location
      . simp [hfile]
      . simp [hfile]
    unfold document?
    rw [List.find?_map, hsame]
    cases hfind : disk.files.find? (·.1 = other) with
    | none => rfl
    | some file =>
      have hfile := List.find?_some hfind
      have hne : file.1 ≠ location := of_decide_eq_true hfile ▸ h
      simp [hne]
  . unfold document?
    simp [List.find?_append, Ne.symm h]

def textAt (disk : Disk) (location : Location) : Text :=
  match disk.document? location with
  | some (.text t) => t
  | _ => []

def Gains (disk disk' : Disk) (location : Location) (lines : List Text) : Prop :=
  disk'.document? location = disk.document? location ∨
    disk'.document? location =
      some (.text (disk.textAt location ++ lines.flatMap fun line => line ++ ("\n" : Text)))

theorem append_cases (disk : Disk) (location : Location) (lines : List Text) :
    disk.append location lines = disk ∨ disk.append location lines = disk.write location
      (.text (disk.textAt location ++ lines.flatMap fun line => line ++ ("\n" : Text))) := by
  have hadded : Text.concat (lines.map fun line => Text.concat [line, "\n"]) =
      lines.flatMap fun line => line ++ ("\n" : Text) := by
    simp [Text.concat, List.flatMap]
  unfold append textAt
  rw [hadded]
  dsimp only
  split
  . exact .inl rfl
  . right
    rcases disk.document? location with _ | v | t
    . rfl
    . rfl
    . rfl

theorem gains_append (disk : Disk) (location : Location) (lines : List Text) :
    disk.Gains (disk.append location lines) location lines := by
  rcases append_cases disk location lines with heq | heq
  . exact .inl (by rw [heq])
  . exact .inr (by rw [heq, document?_write])

theorem document?_append_of_ne (h : other ≠ location) (lines : List Text) :
    (disk.append location lines).document? other = disk.document? other := by
  rcases append_cases disk location lines with heq | heq
  . rw [heq]
  . rw [heq, document?_write_of_ne h]

end Disk

end PageBinding
