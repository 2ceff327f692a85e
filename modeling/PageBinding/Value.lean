import PageBinding.Entries
import PageBinding.Number
import PageBinding.Text.Kept

/-!
This module contains the data that variables hold and expressions evaluate to.
-/

namespace PageBinding

/--
A piece of data. The keys of an object are texts only, as in JSON, and in order of insertion. Dates
and objects with other keys are left out.
-/
inductive Value where
  | null
  | bool (b : Bool)
  | number (n : Number)
  | text (t : Text)
  | list (items : List Value)
  | object (entries : List (Text × Value))
  deriving Repr

namespace Value

instance : Inhabited Value := ⟨null⟩

mutual

/--
Whether two pieces of data are the same, the forms of their numbers and the order of their keys
included.
-/
def decEq (a b : Value) : Decidable (a = b) :=
  match a, b with
  | .null, .null => .isTrue rfl
  | .bool x, .bool y => decidable_of_iff (x = y) (by simp)
  | .number x, .number y => decidable_of_iff (x = y) (by simp)
  | .text x, .text y => decidable_of_iff (x = y) (by simp)
  | .list xs, .list ys =>
    match decEqList xs ys with
    | .isTrue h => .isTrue (by rw [h])
    | .isFalse h => .isFalse (by simpa using h)
  | .object xs, .object ys =>
    match decEqEntries xs ys with
    | .isTrue h => .isTrue (by rw [h])
    | .isFalse h => .isFalse (by simpa using h)
  | .null, .bool _ | .null, .number _ | .null, .text _ | .null, .list _ | .null, .object _
  | .bool _, .null | .bool _, .number _ | .bool _, .text _ | .bool _, .list _ | .bool _, .object _
  | .number _, .null | .number _, .bool _ | .number _, .text _ | .number _, .list _
  | .number _, .object _
  | .text _, .null | .text _, .bool _ | .text _, .number _ | .text _, .list _ | .text _, .object _
  | .list _, .null | .list _, .bool _ | .list _, .number _ | .list _, .text _ | .list _, .object _
  | .object _, .null | .object _, .bool _ | .object _, .number _ | .object _, .text _
  | .object _, .list _ => .isFalse nofun

def decEqList (xs ys : List Value) : Decidable (xs = ys) :=
  match xs, ys with
  | [], [] => .isTrue rfl
  | [], _ :: _ => .isFalse nofun
  | _ :: _, [] => .isFalse nofun
  | x :: xs, y :: ys =>
    match decEq x y, decEqList xs ys with
    | .isTrue h₁, .isTrue h₂ => .isTrue (by rw [h₁, h₂])
    | .isFalse h, _ => .isFalse fun e => h (List.cons.inj e).1
    | _, .isFalse h => .isFalse fun e => h (List.cons.inj e).2

def decEqEntries (xs ys : List (Text × Value)) : Decidable (xs = ys) :=
  match xs, ys with
  | [], [] => .isTrue rfl
  | [], _ :: _ => .isFalse nofun
  | _ :: _, [] => .isFalse nofun
  | (k, x) :: xs, (l, y) :: ys =>
    if hk : k = l then
      match decEq x y, decEqEntries xs ys with
      | .isTrue h₁, .isTrue h₂ => .isTrue (by rw [hk, h₁, h₂])
      | .isFalse h, _ => .isFalse fun e => h (Prod.mk.inj (List.cons.inj e).1).2
      | _, .isFalse h => .isFalse fun e => h (List.cons.inj e).2
    else
      .isFalse fun e => hk (Prod.mk.inj (List.cons.inj e).1).1

end

instance : DecidableEq Value := decEq

def kindName : Value → Text
  | .null => "NoneType"
  | .bool _ => "bool"
  | .number (.int _) => "int"
  | .number (.float _) => "float"
  | .text _ => "str"
  | .list _ => "list"
  | .object _ => "dict"

def numeric? : Value → Option Number
  | .bool b => some (.int (if b then 1 else 0))
  | .number n => some n
  | _ => none

def field? (key : Text) : Value → Option Value
  | .object entries => Entries.lookup key entries
  | _ => none

mutual

/--
The data with null in place of every number that is not finite.
-/
def finite (v : Value) : Value :=
  match v with
  | .number (.float x) => if x.isFinite then v else .null
  | .list items => .list (finiteList items)
  | .object entries => .object (finiteEntries entries)
  | v => v

def finiteList (vs : List Value) : List Value :=
  match vs with
  | [] => []
  | v :: rest => finite v :: finiteList rest

def finiteEntries (entries : List (Text × Value)) : List (Text × Value) :=
  match entries with
  | [] => []
  | (key, v) :: rest => (key, finite v) :: finiteEntries rest

end

mutual

def kept (v : Value) : Value :=
  match v with
  | .text t => .text t.kept
  | .list items => .list (keptList items)
  | .object entries => .object (Entries.ofPairs (keptEntries entries))
  | v => v

def keptList (vs : List Value) : List Value :=
  match vs with
  | [] => []
  | v :: rest => kept v :: keptList rest

def keptEntries (entries : List (Text × Value)) : List (Text × Value) :=
  match entries with
  | [] => []
  | (key, v) :: rest => (key.kept, kept v) :: keptEntries rest

end

mutual

/--
Whether two pieces of data are worth the same: numbers and truth values go by their value, the order
of keys does not matter. Data that holds a value that is not a number agrees with nothing.
-/
def agrees (a b : Value) : Bool :=
  match a with
  | .null => b = .null
  | .bool x => numbersAgree (.int (if x then 1 else 0)) b
  | .number x => numbersAgree x b
  | .text x => b = .text x
  | .list xs =>
    match b with
    | .list ys => agreesList xs ys
    | _ => false
  | .object xs =>
    match b with
    | .object ys => xs.length == ys.length && agreesEntries xs ys
    | _ => false
where
  numbersAgree (x : Number) (b : Value) : Bool :=
    match b.numeric? with
    | some y => x.agrees y
    | none => false

def agreesList (xs ys : List Value) : Bool :=
  match xs, ys with
  | [], [] => true
  | x :: xs, y :: ys => agrees x y && agreesList xs ys
  | _, _ => false

def agreesEntries (xs ys : List (Text × Value)) : Bool :=
  match xs with
  | [] => true
  | (key, x) :: xs =>
    (match Entries.lookup key ys with
      | some y => agrees x y
      | none => false) && agreesEntries xs ys

end

end Value

end PageBinding
