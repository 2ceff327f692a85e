import Mathlib.Data.List.Sort
import Mathlib.Data.List.TakeDrop
import PageBinding.Proofs.Expression.Occurrences
import PageBinding.Proofs.Usage.Mentions

/-!
This module contains what becomes of a text when its identifiers are replaced by what a callback
answers: which questions the callback is asked, and how its answers and the text between the
identifiers make up the result.
-/

namespace PageBinding

namespace Expression

def Identifier.written (id : Identifier) (answer : Text) : Text :=
  if id.shorthand ∧ answer ≠ id.name then Text.concat [id.name, ": ", answer] else answer

/--
The text from an offset on, with what the answers make of the identifiers and all that stands
between them.
-/
def interleave (t : Text) (offset : Nat) : List (Identifier × Text) → Text
  | [] => t.drop offset
  | (id, answer) :: rest =>
    (t.take id.start).drop offset ++ id.written answer ++ interleave t id.stop rest

namespace Placed

variable {t : Text} {id : Identifier} {ids : List Identifier}

theorem of_cons (h : Placed t (id :: ids)) : Placed t ids :=
  ⟨(List.forall_mem_cons.mp h.bounds).2, (List.forall_mem_cons.mp h.slice).2, h.ordered.tail⟩

theorem sublist {others : List Identifier} (h : Placed t ids) (hsublist : others.Sublist ids) :
    Placed t others :=
  ⟨fun id hid => h.bounds id (hsublist.subset hid), fun id hid => h.slice id (hsublist.subset hid),
    h.ordered.sublist hsublist⟩

theorem stop_le (h : Placed t (id :: ids)) :
    ∀ other ∈ ids, id.stop ≤ other.start ∧ other.start ≤ other.stop := by
  intro other hmem
  have hbounds := h.bounds other (List.mem_cons_of_mem id hmem)
  exact ⟨(List.pairwise_cons.mp h.ordered).1 other hmem, Nat.le_of_lt hbounds.1⟩

end Placed

theorem drop_eq_append {t : Text} {m n : Nat} (h : m ≤ n) :
    t.drop m = (t.take n).drop m ++ t.drop n := by
  have happend := List.drop_take_append_drop t m (n - m)
  rwa [Nat.add_sub_cancel' h, ← List.drop_take, eq_comm] at happend

section Splice

variable {t : Text} {pairs sorted : List (Identifier × Text)}

def replaceAt (t : Text) (pair : Identifier × Text) : Text :=
  t.take pair.1.start ++ replacement pair.1 pair.2 ++ t.drop pair.1.stop

theorem splice_eq_interleave {offset : Nat} (h : Placed t (pairs.map Prod.fst))
    (hoffset : ∀ pair ∈ pairs, offset ≤ pair.1.start) :
    splice offset (t.drop offset) (pairs.filter fun (id, name) => name ≠ id.name) =
      interleave t offset pairs := by
  induction pairs generalizing offset with
  | nil => rfl
  | cons pair pairs ih =>
    obtain ⟨id, answer⟩ := pair
    obtain ⟨hstart, -⟩ := List.forall_mem_cons.mp hoffset
    obtain ⟨hlt, hstop⟩ := h.bounds id List.mem_cons_self
    have hnext : ∀ pair ∈ pairs, id.stop ≤ pair.1.start ∧ pair.1.start ≤ pair.1.stop :=
      fun pair hpair => h.stop_le pair.1 (List.mem_map_of_mem hpair)
    have hrest := ih h.of_cons fun pair hpair => (hnext pair hpair).1
    dsimp only at hstart
    by_cases heq : answer = id.name
    . -- The name stays, as a part of what stands in front of the next identifier.
      have hname : (t.take id.stop).drop offset = (t.take id.start).drop offset ++ id.name := by
        rw [← h.slice id List.mem_cons_self, drop_eq_append hstart, List.take_take,
          Nat.min_eq_left (Nat.le_of_lt hlt)]
      have hlength : offset + ((t.take id.stop).drop offset).length = id.stop := by
        rw [List.length_drop, List.length_take]
        omega
      have hwritten : id.written answer = id.name := by simp [Identifier.written, heq]
      rw [List.filter_cons_of_neg (by simpa using heq), interleave, hwritten, ← hname, ← hrest,
        drop_eq_append (Nat.le_trans hstart (Nat.le_of_lt hlt)), splice_append, hlength]
      rw [hlength]
      exact fun pair hpair => hnext pair (List.mem_of_mem_filter hpair)
    . have hwritten : id.written answer = replacement id answer := by
        simp [Identifier.written, replacement, heq]
      have hstart' : offset + (id.stop - offset) = id.stop := by omega
      rw [List.filter_cons_of_pos (by simpa using heq), splice, interleave, hwritten, ← hrest,
        List.drop_take, List.drop_drop, hstart']

theorem splice_eq_foldr (h : Placed t (pairs.map Prod.fst)) :
    splice 0 t pairs = pairs.foldr (fun pair t => replaceAt t pair) t := by
  induction pairs with
  | nil => rfl
  | cons pair pairs ih =>
    obtain ⟨id, name⟩ := pair
    obtain ⟨hlt, hstop⟩ := h.bounds id List.mem_cons_self
    have hlength : (t.take id.stop).length = id.stop := by
      rw [List.length_take]
      omega
    -- What comes later in the text leaves alone what stands up to the end of this identifier.
    have hrest : splice 0 t pairs = t.take id.stop ++ splice id.stop (t.drop id.stop) pairs := by
      conv_lhs => rw [← List.take_append_drop id.stop t]
      rw [splice_append, Nat.zero_add, hlength]
      rw [Nat.zero_add, hlength]
      exact fun pair hpair => h.stop_le pair.1 (List.mem_map_of_mem hpair)
    rw [List.foldr_cons, ← ih h.of_cons, hrest, replaceAt, splice]
    dsimp only
    rw [List.take_append_of_le_length (by omega), List.take_take,
      Nat.min_eq_left (Nat.le_of_lt hlt), List.drop_left' hlength, Nat.sub_zero, Nat.sub_zero]

theorem foldl_replaceAt_eq_splice (h : Placed t (pairs.map Prod.fst)) (hperm : sorted.Perm pairs)
    (hsorted : sorted.Pairwise fun pair other => other.1.start ≤ pair.1.start) :
    sorted.foldl replaceAt t = splice 0 t pairs := by
  have hstarts : pairs.Pairwise fun pair other => pair.1.start < other.1.start := by
    refine (List.pairwise_map.mp h.ordered).imp_of_mem fun hpair _ hle => ?_
    exact Nat.lt_of_lt_of_le (h.bounds _ (List.mem_map_of_mem hpair)).1 hle
  have hnodup : (pairs.map fun pair => pair.1.start).Nodup :=
    List.pairwise_map.mpr (hstarts.imp Nat.ne_of_lt)
  -- No two identifiers start at the same place, so there is only one such order.
  have hreverse : sorted = pairs.reverse := by
    have hdescending : pairs.reverse.Pairwise fun pair other => other.1.start ≤ pair.1.start :=
      List.pairwise_reverse.mpr (hstarts.imp Nat.le_of_lt)
    refine List.Perm.eq_of_pairwise (fun pair other hpair hother hle hge => ?_) hsorted hdescending
      (hperm.trans (List.reverse_perm pairs).symm)
    exact List.inj_on_of_nodup_map hnodup (hperm.mem_iff.mp hpair) (List.mem_reverse.mp hother)
      (Nat.le_antisymm hge hle)
  rw [hreverse, List.foldl_reverse, splice_eq_foldr h]

/--
The text that the answers make can also be had by replacing the identifiers whose answers differ
from their names in the text itself, one at a time, from the last one to the first.
-/
theorem foldl_replaceAt_eq_interleave (h : Placed t (pairs.map Prod.fst))
    (hperm : sorted.Perm (pairs.filter fun (id, name) => name ≠ id.name))
    (hsorted : sorted.Pairwise fun pair other => other.1.start ≤ pair.1.start) :
    sorted.foldl replaceAt t = interleave t 0 pairs := by
  have hsublist : (pairs.filter fun (id, name) => name ≠ id.name).Sublist pairs :=
    List.filter_sublist
  rw [foldl_replaceAt_eq_splice (h.sublist (hsublist.map Prod.fst)) hperm hsorted,
    ← splice_eq_interleave h fun pair _ => Nat.zero_le pair.1.start, List.drop_zero]

end Splice

/--
A text is accepted in a mode, with the identifiers in it. An action has to have effects, all calls
among which are allowed.
-/
inductive Accepts [Limits] : Mode → Text → List Identifier → Prop where
  | expression {t : Text} {e : Expr} : parse t = .ok e → Accepts .expression t e.identifiers
  | action {allowed : List Text} {t : Text} {effects : List Effect} :
      parseAction t = .ok effects → effects ≠ [] →
      (∀ called args, .call called args ∈ effects → called ∈ allowed) →
      Accepts (.action allowed) t (identifiersOfEffects effects)

theorem accepts_iff [Limits] {mode : Mode} {t : Text} {ids : List Identifier} :
    Accepts mode t ids ↔ identifiers? mode false t = .ok (some ids) := by
  constructor
  . intro h
    cases h with
    | expression hparse => exact identifiers?_expression_iff.mpr ⟨_, hparse, rfl⟩
    | action hparse hne hallowed =>
      exact identifiers?_action_iff.mpr ⟨_, hparse, hne, hallowed, rfl⟩
  . intro h
    cases mode with
    | expression =>
      obtain ⟨e, hparse, rfl⟩ := identifiers?_expression_iff.mp h
      exact .expression hparse
    | action allowed =>
      obtain ⟨effects, hparse, hne, hallowed, rfl⟩ := identifiers?_action_iff.mp h
      exact .action hparse hne hallowed

namespace Accepts

variable {mode : Mode} {t : Text} {ids : List Identifier}

theorem identifiers?_eq [Limits] (h : Accepts mode t ids) (optional : Bool) :
    identifiers? mode optional t = .ok (some ids) := by
  cases optional with
  | false => exact accepts_iff.mp h
  | true => exact identifiers?_eq_some_iff.mpr (accepts_iff.mp h)

theorem placed [Limits] (h : Accepts mode t ids) : Placed t ids := by
  cases h with
  | expression hparse => exact placed_of_parse hparse
  | action hparse _ _ => exact placed_of_parseAction hparse

end Accepts

section Callback

variable {ε : Type}

/--
A function that answers names by names, and may refuse to. Both can depend on all that it has been
asked before.
-/
def Callback (ε : Type) : Type :=
  List Text → Text → Except ε Text

namespace Callback

def ask (callback : Callback ε) (name : Text) : ExceptT ε (StateM (List Text)) Text :=
  ExceptT.mk fun asked => (callback asked name, asked ++ [name])

inductive Answers (callback : Callback ε) : List Text → List Text → List Text → Prop where
  | nil (asked : List Text) : Answers callback asked [] []
  | cons {asked names answers : List Text} {name answer : Text} :
      callback asked name = .ok answer → Answers callback (asked ++ [name]) names answers →
      Answers callback asked (name :: names) (answer :: answers)

/--
What asking for names in order comes to, and all that has been asked for by then: each name once and
all of them answered, or each once up to the first one that is refused.
-/
inductive Asked (callback : Callback ε) (asked names : List Text) :
    Except ε (List Text) → List Text → Prop where
  | answered {answers : List Text} : callback.Answers asked names answers →
      Asked callback asked names (.ok answers) (asked ++ names)
  | refused {before after answers : List Text} {name : Text} {exception : ε} :
      names = before ++ name :: after → callback.Answers asked before answers →
      callback (asked ++ before) name = .error exception →
      Asked callback asked names (.error exception) (asked ++ before ++ [name])

variable {callback : Callback ε} {asked names answers : List Text}

theorem Answers.length_eq (h : callback.Answers asked names answers) :
    answers.length = names.length := by
  induction h with
  | nil => rfl
  | cons _ _ ih => rw [List.length_cons, List.length_cons, ih]

theorem run_bind {α β : Type} (x : ExceptT ε (StateM (List Text)) α)
    (f : α → ExceptT ε (StateM (List Text)) β) (asked : List Text) :
    (x >>= f).run.run asked =
      match x.run.run asked with
      | (.error exception, asked) => (.error exception, asked)
      | (.ok a, asked) => (f a).run.run asked := by
  simp only [ExceptT.run_bind, StateT.run_bind]
  rcases x.run.run asked with ⟨_ | a, asked⟩ <;> rfl

theorem asked_mapM (callback : Callback ε) (ids : List Identifier) (asked : List Text) :
    ∃ answers all, callback.Asked asked (ids.map Identifier.name) answers all ∧
      (ids.mapM fun id => callback.ask id.name).run.run asked = (answers, all) := by
  induction ids generalizing asked with
  | nil => exact ⟨.ok [], asked ++ [], .answered (.nil asked), by rw [List.append_nil]; rfl⟩
  | cons id ids ih =>
    have hask : (callback.ask id.name).run.run asked =
        (callback asked id.name, asked ++ [id.name]) := rfl
    rw [List.mapM_cons, run_bind, hask]
    cases hanswer : callback asked id.name with
    | error exception =>
      refine ⟨.error exception, asked ++ [id.name], ?_, rfl⟩
      have hrefused := @Asked.refused ε callback asked (id.name :: ids.map Identifier.name) []
        (ids.map Identifier.name) [] id.name exception rfl (.nil asked)
      simp only [List.append_nil] at hrefused
      exact hrefused hanswer
    | ok answer =>
      obtain ⟨answers, all, hasked, hrun⟩ := ih (asked ++ [id.name])
      dsimp only
      rw [run_bind, hrun]
      cases hasked with
      | answered hanswers =>
        rw [List.append_assoc, List.singleton_append]
        exact ⟨_, _, .answered (.cons hanswer hanswers), rfl⟩
      | @refused before after answers name exception heq hanswers hrefused =>
        have happend : asked ++ [id.name] ++ before = asked ++ (id.name :: before) := by
          rw [List.append_assoc, List.singleton_append]
        rw [happend] at hrefused ⊢
        have hnames : (id :: ids).map Identifier.name = id.name :: before ++ name :: after := by
          rw [List.map_cons, heq, List.cons_append]
        exact ⟨_, _, .refused hnames (.cons hanswer hanswers) hrefused, rfl⟩

end Callback

/--
The identifiers of every text that is read stand in it where they say, each behind the one before.
Where the text is accepted, a callback is asked for their names in this order, once for each, up to
the first one that it refuses, and its refusal is the outcome. If it refuses none, the text is left
as it is but for the answers in place of the identifiers.
-/
theorem replaceNames_eq_interleave [Limits] [MonadExceptOf Failure (ExceptT ε (StateM (List Text)))]
    (t : Text) :
    (∀ e, parse t = .ok e → Placed t e.identifiers) ∧
    (∀ effects, parseAction t = .ok effects → Placed t (identifiersOfEffects effects)) ∧
    ∀ mode ids, Accepts mode t ids → ∀ (optional : Bool) (callback : Callback ε),
      ∃ answers asked, callback.Asked [] (ids.map Identifier.name) answers asked ∧
        (replaceNames mode optional callback.ask t).run.run [] =
          (answers.map fun answers => interleave t 0 (ids.zip answers), asked) := by
  refine ⟨fun _ => placed_of_parse, fun _ => placed_of_parseAction, ?_⟩
  intro mode ids haccepts optional callback
  obtain ⟨answers, asked, hasked, hrun⟩ := callback.asked_mapM ids []
  refine ⟨answers, asked, hasked, ?_⟩
  simp only [replaceNames, haccepts.identifiers?_eq optional]
  rw [Callback.run_bind, hrun]
  cases hasked with
  | refused => rfl
  | @answered answers hanswers =>
    have hzip : (ids.zip answers).map Prod.fst = ids :=
      List.map_fst_zip (by rw [hanswers.length_eq, List.length_map])
    have hplaced : Placed t ((ids.zip answers).map Prod.fst) := by
      rw [hzip]
      exact haccepts.placed
    have hsplice := splice_eq_interleave hplaced fun pair _ => Nat.zero_le pair.1.start
    rw [List.drop_zero] at hsplice
    rw [Except.map, ← hsplice]
    rfl

/--
An action with a shorthand, with a key that is an expression, with a property that is called like a
variable, and with a call.
-/
def sampleAction : Text :=
  "a=\x7bb,[c]:d.a\x7d;emit(b,e)"

def renameFirst : Callback Failure :=
  fun asked name => .ok (if name ∈ asked then name else name ++ ("1" : Text))

theorem replaceNames_eq_interleave_sampleAction :
    ∃ ids, Accepts (.action defaultEffects) sampleAction ids ∧ Placed sampleAction ids ∧
      ∃ answers, renameFirst.Asked [] (ids.map Identifier.name) (.ok answers)
          ["a", "b", "c", "d", "b", "e"] ∧
        interleave sampleAction 0 (ids.zip answers) =
          "a1=\x7bb: b1,[c1]:d1.a\x7d;emit(b,e1)" := by
  have hread : (identifiers? (.action defaultEffects) false sampleAction).toOption.join.isSome := by
    decide +kernel
  have htext :
      ((replaceNames (.action defaultEffects) false renameFirst.ask sampleAction).run.run
        []).1.toOption = some "a1=\x7bb: b1,[c1]:d1.a\x7d;emit(b,e1)" := by
    decide +kernel
  have hasked :
      ((replaceNames (.action defaultEffects) false renameFirst.ask sampleAction).run.run []).2 =
        ["a", "b", "c", "d", "b", "e"] := by
    decide +kernel
  rcases hids : identifiers? (.action defaultEffects) false sampleAction with failure | _ | ids
  . rw [hids] at hread
    cases hread
  . rw [hids] at hread
    cases hread
  . have haccepts := accepts_iff.mpr hids
    obtain ⟨-, -, hrun⟩ := @replaceNames_eq_interleave Failure _ _ sampleAction
    obtain ⟨answers, asked, hanswers, hrun⟩ := hrun _ _ haccepts false renameFirst
    rw [hrun] at htext hasked
    cases answers with
    | error failure => cases htext
    | ok answers =>
      cases hasked
      exact ⟨ids, haccepts, haccepts.placed, answers, hanswers, Option.some.inj htext⟩

end Callback

end Expression

end PageBinding
