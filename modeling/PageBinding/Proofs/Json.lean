import Mathlib.Data.List.Chain
import PageBinding.Expression.Literal
import PageBinding.Value

/-!
This module contains JSON documents in every form in which they may be written, with their texts and
with the data that they denote. All numbers are integers whose digits are not too many to be read.
-/

namespace PageBinding

namespace Json

def isSpace (c : CodePoint) : Bool :=
  c.is ' ' || c.is '\t' || c.is '\n' || c.is '\r'

structure Gap where
  text : Text
  blank : text.all isSpace = true

def Gap.empty : Gap :=
  ⟨[], rfl⟩

def shortEscapes : List (Char × Char) :=
  [('\x22', '\x22'), ('\\', '\\'), ('/', '/'), ('b', '\x08'), ('f', '\x0c'), ('n', '\n'),
    ('r', '\r'), ('t', '\t')]

/--
A part of a string: a character that stands for itself, a short escape, or the four hexadecimal
digits of an escape by number.
-/
inductive Symbol where
  | plain (c : CodePoint) (h : 32 ≤ c.val ∧ c.is '\x22' = false ∧ c.is '\\' = false)
  | short (letter c : Char) (h : (letter, c) ∈ shortEscapes)
  | numbered (digits : Text)
      (h : digits.length = 4 ∧ digits.all Expression.Literal.isHex = true)

namespace Symbol

def text : Symbol → Text
  | plain c _ => [c]
  | short letter _ _ => [.ofChar '\\', .ofChar letter]
  | numbered digits _ => .ofChar '\\' :: .ofChar 'u' :: digits

def codePoint : Symbol → CodePoint
  | plain c _ => c
  | short _ c _ => .ofChar c
  | numbered digits _ => .ofNat (Expression.Literal.hexValue digits)

/--
The character that two escapes denote together if they are the halves of a UTF-16 pair.
-/
def pair? : Symbol → Symbol → Option CodePoint
  | numbered digits _, numbered digits' _ =>
    let high := Expression.Literal.hexValue digits
    let low := Expression.Literal.hexValue digits'
    if 0xd800 ≤ high ∧ high < 0xdc00 ∧ 0xdc00 ≤ low ∧ low < 0xe000 then
      some (.ofNat (0x10000 + (high - 0xd800) * 0x400 + (low - 0xdc00)))
    else none
  | _, _ => none

end Symbol

/--
The text that a string denotes: the halves of a pair are one character.
-/
def joined (symbols : List Symbol) : Text :=
  match symbols with
  | [] => []
  | [s] => [s.codePoint]
  | s :: s' :: rest =>
    match s.pair? s' with
    | some c => c :: joined rest
    | none => s.codePoint :: joined (s' :: rest)

/--
The text that is left when every escape denotes a code point of its own.
-/
def separate (symbols : List Symbol) : Text :=
  symbols.map Symbol.codePoint

theorem length_joined_le (symbols : List Symbol) : (joined symbols).length ≤ symbols.length := by
  fun_induction joined symbols with
  | case1 => exact Nat.le_refl _
  | case2 s => exact Nat.le_refl _
  | case3 s s' rest c hpair ih =>
    simp only [List.length_cons]
    omega
  | case4 s s' rest hpair ih =>
    simp only [List.length_cons] at ih ⊢
    omega

theorem joined_eq_separate_iff {symbols : List Symbol} :
    joined symbols = separate symbols ↔ symbols.IsChain fun s s' => s.pair? s' = none := by
  fun_induction joined symbols with
  | case1 => simp [separate]
  | case2 s => simp [separate]
  | case3 s s' rest c hpair ih =>
    have hle := length_joined_le rest
    simp only [List.isChain_cons_cons, hpair, reduceCtorEq, false_and, iff_false]
    intro h
    have hlength := congrArg List.length h
    simp only [separate, List.length_cons, List.length_map] at hlength
    omega
  | case4 s s' rest hpair ih =>
    rw [List.isChain_cons_cons, ← ih, separate, separate, List.map_cons, List.cons.injEq]
    simp [hpair]

mutual

/--
A piece of data with the white space around it. Documents are such pieces.
-/
inductive Element where
  | mk (before : Gap) (content : Content) (after : Gap)

inductive Content where
  | null
  | bool (b : Bool)
  | number (negative : Bool) (magnitude : Nat) (h : Number.fitsText magnitude = true)
  | string (symbols : List Symbol)
  | emptyArray (gap : Gap)
  | array (items : Items)
  | emptyObject (gap : Gap)
  | object (members : Members)

inductive Items where
  | last (item : Element)
  | more (item : Element) (rest : Items)

inductive Members where
  | last (before : Gap) (key : List Symbol) (after : Gap) (value : Element)
  | more (before : Gap) (key : List Symbol) (after : Gap) (value : Element) (rest : Members)

end

def stringText (symbols : List Symbol) : Text :=
  Text.concat ["\"", symbols.flatMap Symbol.text, "\""]

def memberText (before : Gap) (key : List Symbol) (after : Gap) (value : Text) : Text :=
  Text.concat [before.text, stringText key, after.text, ":", value]

mutual

def Element.text : Element → Text
  | .mk before content after => Text.concat [before.text, content.text, after.text]

def Content.text : Content → Text
  | .null => "null"
  | .bool b => if b then "true" else "false"
  | .number negative magnitude _ =>
    Text.concat [if negative then "-" else "", Text.ofNat magnitude]
  | .string symbols => stringText symbols
  | .emptyArray gap => Text.concat ["[", gap.text, "]"]
  | .array items => Text.concat ["[", items.text]
  | .emptyObject gap => Text.concat ["\x7b", gap.text, "\x7d"]
  | .object members => Text.concat ["\x7b", members.text]

def Items.text : Items → Text
  | .last item => Text.concat [item.text, "]"]
  | .more item rest => Text.concat [item.text, ",", rest.text]

def Members.text : Members → Text
  | .last before key after value => Text.concat [memberText before key after value.text, "\x7d"]
  | .more before key after value rest =>
    Text.concat [memberText before key after value.text, ",", rest.text]

end

section Data

variable (read : List Symbol → Text)

mutual

/--
The data that a document denotes, for a way to read its strings. A key that is repeated has its last
value.
-/
def Element.data : Element → Value
  | .mk _ content _ => content.data

def Content.data : Content → Value
  | .null => .null
  | .bool b => .bool b
  | .number negative magnitude _ =>
    .number (.int (if negative then -magnitude else magnitude))
  | .string symbols => .text (read symbols)
  | .emptyArray _ => .list []
  | .array items => .list items.data
  | .emptyObject _ => .object []
  | .object members => .object (Entries.ofPairs members.data)

def Items.data : Items → List Value
  | .last item => [item.data]
  | .more item rest => item.data :: rest.data

def Members.data : Members → List (Text × Value)
  | .last _ key _ value => [(read key, value.data)]
  | .more _ key _ value rest => (read key, value.data) :: rest.data

end

end Data

mutual

def Element.depth : Element → Nat
  | .mk _ content _ => content.depth

def Content.depth : Content → Nat
  | .null | .bool _ | .number _ _ _ | .string _ | .emptyArray _ | .emptyObject _ => 1
  | .array items => items.depth + 1
  | .object members => members.depth + 1

def Items.depth : Items → Nat
  | .last item => item.depth
  | .more item rest => max item.depth rest.depth

def Members.depth : Members → Nat
  | .last _ _ _ value => value.depth
  | .more _ _ _ value rest => max value.depth rest.depth

end

mutual

def Element.strings : Element → List (List Symbol)
  | .mk _ content _ => content.strings

def Content.strings : Content → List (List Symbol)
  | .null | .bool _ | .number _ _ _ | .emptyArray _ | .emptyObject _ => []
  | .string symbols => [symbols]
  | .array items => items.strings
  | .object members => members.strings

def Items.strings : Items → List (List Symbol)
  | .last item => item.strings
  | .more item rest => item.strings ++ rest.strings

def Members.strings : Members → List (List Symbol)
  | .last _ key _ value => key :: value.strings
  | .more _ key _ value rest => key :: (value.strings ++ rest.strings)

end

section Congr

variable {read read' : List Symbol → Text}

mutual

theorem Element.data_congr (e : Element) (h : ∀ s ∈ e.strings, read s = read' s) :
    e.data read = e.data read' := by
  match e with
  | .mk _ content _ => exact content.data_congr h

theorem Content.data_congr (content : Content) (h : ∀ s ∈ content.strings, read s = read' s) :
    content.data read = content.data read' := by
  match content with
  | .null | .bool _ | .number _ _ _ | .emptyArray _ | .emptyObject _ => rfl
  | .string symbols => exact congrArg Value.text (h symbols (List.mem_singleton_self _))
  | .array items => exact congrArg Value.list (items.data_congr h)
  | .object members =>
    exact congrArg (fun entries => Value.object (Entries.ofPairs entries)) (members.data_congr h)

theorem Items.data_congr (items : Items) (h : ∀ s ∈ items.strings, read s = read' s) :
    items.data read = items.data read' := by
  match items with
  | .last item => exact congrArg ([·]) (item.data_congr h)
  | .more item rest =>
    obtain ⟨hitem, hrest⟩ := List.forall_mem_append.mp h
    rw [Items.data, Items.data, item.data_congr hitem, rest.data_congr hrest]

theorem Members.data_congr (members : Members) (h : ∀ s ∈ members.strings, read s = read' s) :
    members.data read = members.data read' := by
  match members with
  | .last _ key _ value =>
    obtain ⟨hkey, hvalue⟩ := List.forall_mem_cons.mp h
    rw [Members.data, Members.data, hkey, value.data_congr hvalue]
  | .more _ key _ value rest =>
    obtain ⟨hkey, htail⟩ := List.forall_mem_cons.mp h
    obtain ⟨hvalue, hrest⟩ := List.forall_mem_append.mp htail
    rw [Members.data, Members.data, hkey, value.data_congr hvalue, rest.data_congr hrest]

end

end Congr

end Json

end PageBinding
