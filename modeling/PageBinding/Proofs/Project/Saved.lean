import PageBinding.Proofs.Disk
import PageBinding.Proofs.Model.Described
import PageBinding.Proofs.Project

/-!
This module contains what is loaded of a project that has been saved: the project, as long as all
numbers in its structured data are finite. The others are saved as null, which is loaded again, but
as something else.
-/

namespace PageBinding

namespace Project

variable {p : Project}

def finite (p : Project) : Project :=
  { p with vars := p.vars.map Variable.finite, props := p.props.map Property.finite }

def IsFinite (p : Project) : Prop :=
  (∀ v ∈ p.vars, v.IsFinite) ∧ ∀ q ∈ p.props, q.IsFinite

theorem map_eq_self_iff {α : Type} {f : α → α} {as : List α} :
    as.map f = as ↔ ∀ a ∈ as, f a = a := by
  conv_lhs => rhs; rw [← List.map_id as]
  exact List.map_inj_left

theorem finite_eq_self_iff : p.finite = p ↔ p.IsFinite := by
  have hparts : p.finite = p ↔
      p.vars.map Variable.finite = p.vars ∧ p.props.map Property.finite = p.props := by
    obtain ⟨instances, vars, resources, props⟩ := p
    simp [finite]
  rw [hparts, map_eq_self_iff, map_eq_self_iff]
  simp only [Variable.finite_eq_self_iff, Property.finite_eq_self_iff, IsFinite]

theorem conflict?_finite (h : p.conflict? = none) : p.finite.conflict? = none := by
  have hvars : (p.vars.map Variable.finite).map Variable.id = p.vars.map Variable.id := by
    rw [List.map_map]
    exact List.map_congr_left fun v _ => v.id_finite
  have hprops : (p.props.map Property.finite).map Property.id = p.props.map Property.id := by
    rw [List.map_map]
    exact List.map_congr_left fun q _ => q.id_finite
  rw [conflict?_eq_none_iff] at h ⊢
  obtain ⟨hids, hscopes⟩ := h
  refine ⟨?_, ?_⟩
  . simp only [finite, hvars, hprops]
    exact hids
  . intro v hv
    obtain ⟨w, hw, rfl⟩ := List.mem_map.mp hv
    rw [Variable.scope_finite]
    exact hscopes w hw

theorem describeWith_toCollections (h : p.conflict? = none) :
    p.describeWith p.toCollections = .object [
      ("instances", .list (p.instances.map Instance.describe)),
      ("variables", .list (p.vars.map Variable.describe)),
      ("resources", .list (p.resources.map Resource.describe)),
      ("props", .list (p.props.map Property.describe))] := by
  obtain ⟨⟨-, hvars, hresources, hprops⟩, -⟩ := conflict?_eq_none_iff.mp h
  simp only [describeWith, toCollections, Collection.FiledAs.values_ofPairs hvars,
    Collection.FiledAs.values_ofPairs hresources, Collection.FiledAs.values_ofPairs hprops,
    List.map_map]
  rfl

theorem read_describeWith (h : p.conflict? = none) (supply : IdSupply) :
    Project.read supply (p.describeWith p.toCollections) = (.ok p.finite, supply) := by
  rw [describeWith_toCollections h]
  generalize hentries : [
    (Text.ofString "instances", Value.list (p.instances.map Instance.describe)),
    (Text.ofString "variables", Value.list (p.vars.map Variable.describe)),
    (Text.ofString "resources", Value.list (p.resources.map Resource.describe)),
    (Text.ofString "props", Value.list (p.props.map Property.describe))] = entries
  have hinstances : Reader.optional "instances" [] (Reader.list (Instance.read true)) [] entries =
      .ok p.instances := by
    subst hentries
    exact Reader.list_map Instance.read_describe _ p.instances
  have hvars : Reader.entities "variables" Variable.read supply [] entries =
      (.ok (p.vars.map Variable.finite), supply) := by
    subst hentries
    exact Reader.entityItems_map Variable.read_describe supply _ 0 p.vars
  have hresources : Reader.entities "resources" Resource.read supply [] entries =
      (.ok p.resources, supply) := by
    subst hentries
    have hitems := Reader.entityItems_map Resource.read_describe supply
      (Path.field [] "resources") 0 p.resources
    rw [List.map_id'] at hitems
    exact hitems
  have hprops : Reader.entities "props" Property.read supply [] entries =
      (.ok (p.props.map Property.finite), supply) := by
    subst hentries
    exact Reader.entityItems_map Property.read_describe supply _ 0 p.props
  simp only [Project.read, Reader.entries, hinstances, hvars, hresources, hprops]
  have hcheck : p.finite.check = .ok p.finite := check_eq_ok_iff.mpr (conflict?_finite h)
  exact congrArg (·, supply) hcheck

theorem conflict?_of_bind_check {parts : Checked Project} (h : parts.bind check = .ok p) :
    p.conflict? = none := by
  cases parts with
  | error problems => cases h
  | ok q =>
    simp only [Except.bind, check] at h
    split at h
    . cases h
    . next haccepted =>
      cases h
      exact haccepted

theorem conflict?_of_read {supply supply' : IdSupply} {v : Value}
    (h : Project.read supply v = (.ok p, supply')) : p.conflict? = none := by
  unfold Project.read at h
  split at h
  . cases h
  . exact conflict?_of_bind_check (Prod.mk.inj h).1

theorem conflict?_of_load [FileFormat] {disk : Disk} {supply supply' : IdSupply} {path : Text}
    {location : Option Location} (h : load disk supply path location = .ok (p, supply')) :
    p.conflict? = none := by
  unfold load at h
  split at h
  . cases h
  . cases h
  . unfold ofDocument at h
    split at h
    . cases h
    . split at h
      . cases h
      . next hread =>
        cases h
        exact conflict?_of_read hread

end Project

namespace Project

variable {p : Project}

section Written

variable [FileFormat]

theorem load_write (disk : Disk) (supply : IdSupply) (path : Text) (location : Location)
    (document : Document) :
    load (disk.write location document) supply path (some location) =
      ofDocument supply path document := by
  have hentry : Disk.entry? (disk.write location document) location = some (.file document) := by
    unfold Disk.entry?
    rw [Disk.document?_write]
  rw [load, Option.bind_some, hentry]

theorem load_write_fileWith (h : p.conflict? = none)
    (kept : (p.describeWith p.toCollections).kept = p.describeWith p.toCollections) (disk : Disk)
    (supply : IdSupply) (path : Text) (location : Location) :
    load (disk.write location (.data (p.fileWith p.toCollections))) supply path (some location) =
      .ok (p.finite, supply) := by
  have hread : (Document.data (p.fileWith p.toCollections)).read =
      .ok (p.describeWith p.toCollections) := by
    rw [fileWith, kept, describeWith_toCollections h]
    rfl
  rw [load_write]
  simp only [ofDocument, hread, read_describeWith h]

/--
A project that has been loaded can be saved and loaded again, where files keep its data as it is.
Structured data has texts for its keys, as in JSON, or it would not be a value. What is loaded then
has null in place of the numbers in structured data that are not finite, and is the same project if
and only if there are none.
-/
theorem load_saved {disk : Disk} {supply supply' : IdSupply} {path : Text}
    {location : Option Location} (h : load disk supply path location = .ok (p, supply'))
    (kept : (p.describeWith p.toCollections).kept = p.describeWith p.toCollections)
    (disk' : Disk) (ids : IdSupply) (path' : Text) (target : Location) :
    load (disk'.write target (.data (p.fileWith p.toCollections))) ids path' (some target) =
        .ok (p.finite, ids) ∧
      (p.finite = p ↔ p.IsFinite) :=
  ⟨load_write_fileWith (conflict?_of_load h) kept disk' ids path' target, finite_eq_self_iff⟩

end Written

/--
What is kept of a project whose only variable holds an infinite number as structured data.
-/
def limitData : Value :=
  .object [
    ("instances", .list [.object [("id", .text "body"), ("component", .text "Body")]]),
    ("variables", .list [.object [
      ("kind", .text "value"), ("id", .text "v"), ("name", .text "limit"),
      ("scope_instance_id", .text "body"),
      ("value", .object [
        ("type", .text "json"), ("value", .number (.float (.infinite false)))])]])]

def limitDisk : Disk where
  root := []
  made := []
  files := [(["project"], .data limitData)]

def limitProject : Project where
  instances := [⟨"body", "Body", none, none⟩]
  vars := [⟨"v", "limit", "body", .value (.json (.number (.float (.infinite false))))⟩]
  resources := []
  props := []

theorem load_limitDisk :
    load limitDisk ⟨"v", 0⟩ "project" (some ["project"]) = .ok (limitProject, ⟨"v", 0⟩) := by
  rfl

theorem kept_limitProject : (limitProject.describeWith limitProject.toCollections).kept =
    limitProject.describeWith limitProject.toCollections := by
  decide

theorem load_saved_limitProject :
    load (limitDisk.write ["copy"] (.data (limitProject.fileWith limitProject.toCollections)))
        ⟨"w", 0⟩ "copy" (some ["copy"]) = .ok (limitProject.finite, ⟨"w", 0⟩) ∧
      (limitProject.finite = limitProject ↔ limitProject.IsFinite) :=
  load_saved load_limitDisk kept_limitProject limitDisk ⟨"w", 0⟩ "copy" ["copy"]

/--
What is loaded of a project that has been saved need not be the project.
-/
theorem not_load_saved_limitProject :
    ¬ ∀ (p : Project) (disk : Disk) (supply supply' : IdSupply) (path : Text)
      (location : Location), load disk supply path (some location) = .ok (p, supply') →
        (p.describeWith p.toCollections).kept = p.describeWith p.toCollections →
          load (disk.write location (.data (p.fileWith p.toCollections))) supply' path
            (some location) = .ok (p, supply') := by
  intro hsame
  have hloaded := load_write_fileWith (p := limitProject) (by decide) kept_limitProject limitDisk
    ⟨"v", 0⟩ "project" ["project"]
  rw [hsame limitProject limitDisk _ _ _ _ load_limitDisk kept_limitProject] at hloaded
  have heq : limitProject = limitProject.finite := by
    injection hloaded with hloaded
    exact congrArg Prod.fst hloaded
  revert heq
  decide

end Project

end PageBinding
