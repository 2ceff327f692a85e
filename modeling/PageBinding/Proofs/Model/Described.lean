import PageBinding.Model.Instance
import PageBinding.Model.Property
import PageBinding.Model.Resource
import PageBinding.Model.Variable

/-!
This module contains what is read of the data that describes an entity. It is the entity, but for
the numbers in its structured data that are not finite, which are described as null.
-/

namespace PageBinding

namespace Value

mutual

def isFinite (v : Value) : Bool :=
  match v with
  | .number (.float x) => x.isFinite
  | .list items => isFiniteList items
  | .object entries => isFiniteEntries entries
  | _ => true

def isFiniteList (vs : List Value) : Bool :=
  match vs with
  | [] => true
  | v :: rest => isFinite v && isFiniteList rest

def isFiniteEntries (entries : List (Text × Value)) : Bool :=
  match entries with
  | [] => true
  | (_, v) :: rest => isFinite v && isFiniteEntries rest

end

mutual

theorem finite_eq_self_iff (v : Value) : v.finite = v ↔ v.isFinite = true := by
  match v with
  | .null | .bool _ | .text _ | .number (.int _) => simp [finite, isFinite]
  | .number (.float x) =>
    simp only [finite, isFinite]
    split
    . next h => simp [h]
    . next h => simp [h]
  | .list items => simp [finite, isFinite, finiteList_eq_self_iff items]
  | .object entries => simp [finite, isFinite, finiteEntries_eq_self_iff entries]

theorem finiteList_eq_self_iff (vs : List Value) :
    finiteList vs = vs ↔ isFiniteList vs = true := by
  match vs with
  | [] => simp [finiteList, isFiniteList]
  | v :: rest =>
    simp [finiteList, isFiniteList, finite_eq_self_iff v, finiteList_eq_self_iff rest]

theorem finiteEntries_eq_self_iff (entries : List (Text × Value)) :
    finiteEntries entries = entries ↔ isFiniteEntries entries = true := by
  match entries with
  | [] => simp [finiteEntries, isFiniteEntries]
  | (key, v) :: rest =>
    simp [finiteEntries, isFiniteEntries, finite_eq_self_iff v, finiteEntries_eq_self_iff rest]

end

end Value

namespace Reader

variable {α : Type}

theorem items_map {reader : Reader α} {describe : α → Value}
    (h : ∀ path a, reader path (describe a) = .ok a) (path : Path) (i : Nat) (as : List α) :
    items reader path i (as.map describe) = .ok as := by
  induction as generalizing i with
  | nil => rfl
  | cons a rest ih =>
    rw [List.map_cons, items, h, ih]
    rfl

theorem list_map {reader : Reader α} {describe : α → Value}
    (h : ∀ path a, reader path (describe a) = .ok a) (path : Path) (as : List α) :
    list reader path (.list (as.map describe)) = .ok as :=
  items_map h path 0 as

theorem entityItems_map {reader : IdSupply → Path → Value → Checked α × IdSupply}
    {describe : α → Value} {f : α → α}
    (h : ∀ supply path a, reader supply path (describe a) = (.ok (f a), supply))
    (supply : IdSupply) (path : Path) (i : Nat) (as : List α) :
    entityItems reader supply path i (as.map describe) = (.ok (as.map f), supply) := by
  induction as generalizing i with
  | nil => rfl
  | cons a rest ih =>
    simp only [List.map_cons, entityItems, h, ih]
    rfl

theorem text_eq_ok (path : Path) (t : Text) : text path (.text t) = .ok t :=
  rfl

end Reader

namespace Header

theorem read_describe (path : Path) (h : Header) : Header.read path h.describe = .ok h :=
  rfl

end Header

namespace Resource

theorem method_eq_ok (path : Path) (m : Method) :
    Reader.word Method.table path (.text m.name) = .ok m := by
  cases m <;> rfl

theorem read_describe (supply : IdSupply) (path : Path) (r : Resource) :
    Resource.read supply path r.describe = (.ok r, supply) := by
  obtain ⟨id, name, method, url, headers, body⟩ := r
  have hread : Resource.read supply path (describe ⟨id, name, method, url, headers, body⟩) =
      ((Checked.apply Resource.mk (.ok id)).and (.ok name)
        |>.and (Reader.word Method.table (path.field "method") (.text method.name))
        |>.and (.ok url)
        |>.and (Reader.list Header.read (path.field "headers")
          (.list (headers.map Header.describe)))
        |>.and (.ok body), supply) := by
    cases body <;> rfl
  rw [hread, method_eq_ok, Reader.list_map Header.read_describe]
  rfl

end Resource

namespace TypedValue

def finite : TypedValue → TypedValue
  | .json v => .json v.finite
  | v => v

end TypedValue

namespace Variable

def finite (v : Variable) : Variable :=
  match v.content with
  | .value literal => { v with content := .value literal.finite }
  | _ => v

def IsFinite (v : Variable) : Prop :=
  ∀ data, v.content = .value (.json data) → data.isFinite = true

theorem id_finite (v : Variable) : v.finite.id = v.id := by
  unfold finite
  split <;> rfl

theorem scope_finite (v : Variable) : v.finite.scope = v.scope := by
  unfold finite
  split <;> rfl

theorem finite_eq_self_iff (v : Variable) : v.finite = v ↔ v.IsFinite := by
  obtain ⟨id, name, scope, content⟩ := v
  cases content with
  | value literal =>
    cases literal with
    | json data => simp [finite, TypedValue.finite, IsFinite, Value.finite_eq_self_iff]
    | string t => simp [finite, TypedValue.finite, IsFinite]
    | number n => simp [finite, TypedValue.finite, IsFinite]
    | boolean b => simp [finite, TypedValue.finite, IsFinite]
  | resource resourceId => simp [finite, IsFinite]
  | parameter => simp [finite, IsFinite]

theorem read_describe (supply : IdSupply) (path : Path) (v : Variable) :
    Variable.read supply path v.describe = (.ok v.finite, supply) := by
  obtain ⟨id, name, scope, content⟩ := v
  cases content with
  | value literal => cases literal <;> rfl
  | resource resourceId => rfl
  | parameter => rfl

end Variable

namespace ActionStep

theorem read_describe (path : Path) (step : ActionStep) :
    ActionStep.read path step.describe = .ok step := by
  obtain ⟨args, code⟩ := step
  have hread : ActionStep.read path (describe ⟨args, code⟩) =
      ((Checked.apply (fun _ => ActionStep.mk) (.ok ())).and
        (Reader.list Reader.text (path.field "args") (.list (args.map Value.text)))
        |>.and (.ok code)) := rfl
  rw [hread, Reader.list_map Reader.text_eq_ok]
  rfl

end ActionStep

namespace Property

def finite (p : Property) : Property :=
  match p.value with
  | .literal type v => { p with value := .literal type v.finite }
  | _ => p

def IsFinite (p : Property) : Prop :=
  ∀ type data, p.value = .literal type data → data.isFinite = true

theorem id_finite (p : Property) : p.finite.id = p.id := by
  unfold finite
  split <;> rfl

theorem finite_eq_self_iff (p : Property) : p.finite = p ↔ p.IsFinite := by
  obtain ⟨id, instanceId, name, value⟩ := p
  cases value with
  | literal type data => simp [finite, IsFinite, Value.finite_eq_self_iff]
  | expression t => simp [finite, IsFinite]
  | action steps => simp [finite, IsFinite]

theorem read_describe (supply : IdSupply) (path : Path) (p : Property) :
    Property.read supply path p.describe = (.ok p.finite, supply) := by
  obtain ⟨id, instanceId, name, value⟩ := p
  cases value with
  | literal type data => cases type <;> rfl
  | expression t => rfl
  | action steps =>
    have hread : Property.read supply path (describe ⟨id, instanceId, name, .action steps⟩) =
        ((Checked.apply (fun value id instanceId name => ⟨id, instanceId, name, value⟩)
            ((Reader.list ActionStep.read ((path.field "action").field "value")
              (.list (steps.map ActionStep.describe))).map .action)).and (.ok id)
          |>.and (.ok instanceId)
          |>.and (.ok name), supply) := rfl
    rw [hread, Reader.list_map ActionStep.read_describe]
    rfl

end Property

namespace Instance

theorem read_describe (path : Path) (i : Instance) :
    Instance.read true path i.describe = .ok i := by
  obtain ⟨id, component, label, parent⟩ := i
  cases label <;> cases parent <;> rfl

end Instance

end PageBinding
