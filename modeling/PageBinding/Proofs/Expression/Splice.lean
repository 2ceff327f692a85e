import Mathlib.Data.List.Chain
import PageBinding.Proofs.Expression.Names
import PageBinding.Proofs.Expression.Renaming
import PageBinding.Proofs.Expression.Spelling

/-!
This module contains what becomes of the tokens of a text when other names are put in place of its
identifiers: the text is cut into the same tokens again, but for the names. No token runs into a new
name, because a name stood there before.
-/

namespace PageBinding

namespace Expression

/--
What can come one after the other in a phrase. A name behind a number could be taken for its
exponent.
-/
def Item.Precedes (i j : Item) : Prop :=
  i.token.terminal = .number → j.token.terminal.base ≠ .name

section Chain

variable {token : Token} {is js : List Item}

theorem not_number_of_mem_marks {w : Lexeme} (h : w ∈ Lexeme.marks) :
    w.terminal ≠ .number ∧ w.terminal.base ≠ .name := by
  have hmarks : ∀ w ∈ Lexeme.marks, w.terminal ≠ .number ∧ w.terminal.base ≠ .name := by decide
  exact hmarks w h

theorem isChain_cons_plain (hnumber : token.terminal ≠ .number) (h : is.IsChain Item.Precedes) :
    (token.plain :: is).IsChain Item.Precedes := by
  rw [List.isChain_cons]
  exact ⟨fun _ _ heq => absurd heq hnumber, h⟩

theorem isChain_cons_mark (hmark : token.lexeme ∈ Lexeme.marks) (h : is.IsChain Item.Precedes) :
    (token.plain :: is).IsChain Item.Precedes :=
  isChain_cons_plain (not_number_of_mem_marks hmark).1 h

theorem isChain_append_mark (h : is.IsChain Item.Precedes) (hmark : token.lexeme ∈ Lexeme.marks)
    (hrest : js.IsChain Item.Precedes) : (is ++ token.plain :: js).IsChain Item.Precedes := by
  rw [List.isChain_append]
  refine ⟨h, isChain_cons_mark hmark hrest, ?_⟩
  rintro i - _ ⟨⟩ -
  exact (not_number_of_mem_marks hmark).2

end Chain

theorem Spells.isChain {part : Part} {is : List Item} (h : Spells part is) :
    is.IsChain Item.Precedes := by
  have hmark {token : Token} {w : Lexeme} (htoken : token.lexeme = w) (hw : w ∈ Lexeme.marks) :
      token.lexeme ∈ Lexeme.marks := by rwa [htoken]
  have hnil : ([] : List Item).IsChain Item.Precedes := .nil
  induction h with
  | weaken _ _ ih => exact ih
  | number _ | string _ | name _ _ | bool _ | null _ | shorthand _ _ => exact .singleton _
  | closeItems _ | closeEntries _ => exact .singleton _
  | group hleft _ hright ih =>
    apply isChain_cons_mark (hmark hleft (by decide))
    exact isChain_append_mark ih (hmark hright (by decide)) hnil
  | array hleft _ ih => exact isChain_cons_mark (hmark hleft (by decide)) ih
  | object hleft _ ih => exact isChain_cons_mark (hmark hleft (by decide)) ih
  | @unary token op _ _ htoken _ ih =>
    apply isChain_cons_plain _ ih
    rw [show token.terminal = (Lexeme.unary op).terminal from congrArg Lexeme.terminal htoken]
    cases op <;> decide
  | @binary _ op _ _ _ _ _ htoken _ ihleft ihright =>
    exact isChain_append_mark ihleft (hmark htoken (by cases op <;> decide)) ihright
  | conditional _ hquestion _ hcolon _ ihtest ihconsequent ihalternate =>
    apply isChain_append_mark ihtest (hmark hquestion (by decide))
    exact isChain_append_mark ihconsequent (hmark hcolon (by decide)) ihalternate
  | @member _ _ optional _ _ _ hdot _ ih =>
    exact isChain_append_mark ih (hmark hdot (by cases optional <;> decide)) (.singleton _)
  | index _ hleft _ hright ih ihkey =>
    apply isChain_append_mark ih (hmark hleft (by decide))
    exact isChain_append_mark ihkey (hmark hright (by decide)) hnil
  | optionalIndex _ hdot hleft _ hright ih ihkey =>
    apply isChain_append_mark ih (hmark hdot (by decide))
    apply isChain_cons_mark (hmark hleft (by decide))
    exact isChain_append_mark ihkey (hmark hright (by decide)) hnil
  | lastItem _ hright ih => exact isChain_append_mark ih (hmark hright (by decide)) hnil
  | moreItems _ hcomma _ ih ihrest => exact isChain_append_mark ih (hmark hcomma (by decide)) ihrest
  | @keyed key _ _ _ _ hcolon _ ih =>
    have hkey : [key.plain].IsChain Item.Precedes := .singleton _
    exact isChain_append_mark hkey (hmark hcolon (by decide)) ih
  | computed hleft _ hright hcolon _ ihkey ih =>
    rw [List.cons_append, List.append_assoc]
    apply isChain_cons_mark (hmark hleft (by decide))
    apply isChain_append_mark ihkey (hmark hright (by decide))
    exact isChain_cons_mark (hmark hcolon (by decide)) ih
  | lastEntry _ hright ih => exact isChain_append_mark ih (hmark hright (by decide)) hnil
  | moreEntries _ hcomma _ ih ihrest =>
    exact isChain_append_mark ih (hmark hcomma (by decide)) ihrest

def Item.Names (item : Item) : Prop :=
  item.role ≠ .plain →
    item.token.terminal = .name ∧ ∀ keyword : Keyword, keyword.text ≠ item.token.text

theorem Token.names_plain (token : Token) : token.plain.Names :=
  fun hrole => absurd rfl hrole

theorem Spells.names {part : Part} {is : List Item} (h : Spells part is) :
    ∀ item ∈ is, item.Names := by
  induction h with
  | name hterminal hkeyword | shorthand hterminal hkeyword =>
    exact List.forall_mem_singleton.mpr fun _ => ⟨hterminal, hkeyword⟩
  | _ =>
    simp_all only [List.forall_mem_append, List.forall_mem_cons, List.not_mem_nil,
      Token.names_plain, implies_true, false_implies, and_self]

def changes (f : Text → Text) (ids : List Identifier) : List (Identifier × Text) :=
  (ids.zip (ids.map fun id => f id.name)).filter fun (id, name) => name ≠ id.name

def Identifier.rewritten (f : Text → Text) (id : Identifier) : Text :=
  if f id.name = id.name then id.name else replacement id (f id.name)

section Changes

variable {f : Text → Text} {id : Identifier} {ids : List Identifier} {offset : Nat} {g t : Text}

theorem changes_cons (f : Text → Text) (id : Identifier) (ids : List Identifier) :
    changes f (id :: ids) =
      if f id.name = id.name then changes f ids else (id, f id.name) :: changes f ids := by
  unfold changes
  rw [List.map_cons, List.zip_cons_cons]
  split
  . next heq => rw [List.filter_cons_of_neg (by simpa using heq)]
  . next hne => rw [List.filter_cons_of_pos (by simpa using hne)]

theorem mem_of_mem_changes {pair : Identifier × Text} (h : pair ∈ changes f ids) :
    pair.1 ∈ ids :=
  (List.of_mem_zip (List.mem_of_mem_filter h)).1

theorem splice_append {pairs : List (Identifier × Text)}
    (h : ∀ pair ∈ pairs, offset + g.length ≤ pair.1.start ∧ pair.1.start ≤ pair.1.stop) :
    splice offset (g ++ t) pairs = g ++ splice (offset + g.length) t pairs := by
  cases pairs with
  | nil => rfl
  | cons pair rest =>
    obtain ⟨id, name⟩ := pair
    obtain ⟨hstart, hstop⟩ := h (id, name) List.mem_cons_self
    dsimp only at hstart hstop
    have htake : (g ++ t).take (id.start - offset) =
        g ++ t.take (id.start - (offset + g.length)) := by
      rw [List.take_append, List.take_of_length_le (by omega)]
      congr 2
      omega
    have hdrop : (g ++ t).drop (id.stop - offset) = t.drop (id.stop - (offset + g.length)) := by
      rw [List.drop_append, List.drop_of_length_le (by omega), List.nil_append]
      congr 1
      omega
    simp only [splice, htake, hdrop, List.append_assoc]

theorem splice_changes_cons (hstart : id.start = offset) (hstop : id.stop = offset + id.name.length)
    (h : ∀ other ∈ ids, id.stop ≤ other.start ∧ other.start ≤ other.stop) :
    splice offset (id.name ++ t) (changes f (id :: ids)) =
      id.rewritten f ++ splice id.stop t (changes f ids) := by
  rw [changes_cons, Identifier.rewritten]
  split
  . rw [splice_append, ← hstop]
    intro pair hpair
    rw [← hstop]
    exact h pair.1 (mem_of_mem_changes hpair)
  . have hlength : id.stop - offset = id.name.length := by omega
    rw [splice, hstart, Nat.sub_self, List.take_zero, List.nil_append, hlength, List.drop_left]

end Changes

def SameStart (t u : Text) : Prop :=
  t.head? = u.head? ∨
    (∃ c ∈ t.head?, isNameStart c = true) ∧ ∃ d ∈ u.head?, isNameStart d = true

theorem sameStart_append {t : Text} (hne : t ≠ []) (u u' : Text) :
    SameStart (t ++ u) (t ++ u') := by
  left
  rw [List.head?_append_of_ne_nil _ hne, List.head?_append_of_ne_nil _ hne]

theorem is_eq_false_of_isNameStart {c : CodePoint} {char : Char} (hc : isNameStart c = false)
    (hchar : isNameStart (CodePoint.ofChar char) = true) : c.is char = false := by
  cases his : c.is char with
  | false => rfl
  | true =>
    rw [CodePoint.eq_ofChar_of_is his, hchar] at hc
    cases hc

theorem Lexeme.Fits.of_sameStart {lexeme : Lexeme} {rest rest' : Text} (h : lexeme.Fits rest)
    (hsame : SameStart rest rest')
    (hnumber : lexeme.terminal = .number → ∀ c ∈ rest.head?, isNameStart c = false) :
    lexeme.Fits rest' := by
  rcases hsame with hhead | ⟨⟨c, hc, hstart⟩, d, hd, hstart'⟩
  . cases rest with
    | nil =>
      rw [List.head?_nil, eq_comm, List.head?_eq_none_iff] at hhead
      rwa [hhead]
    | cons c rest =>
      obtain ⟨tail, rfl⟩ := List.head?_eq_some_iff.mp hhead.symm
      apply h.of_head
      intro hterminal
      have hstart := hnumber hterminal c rfl
      exact ⟨is_eq_false_of_isNameStart hstart (by decide),
        is_eq_false_of_isNameStart hstart (by decide)⟩
  . obtain ⟨tail, rfl⟩ := List.head?_eq_some_iff.mp hc
    obtain ⟨tail', rfl⟩ := List.head?_eq_some_iff.mp hd
    apply h.of_nameStart _ hstart hstart'
    intro hterminal
    rw [hnumber hterminal c rfl] at hstart
    cases hstart

theorem Lexeme.Fits.base_eq_name {lexeme : Lexeme} {rest : Text} (h : lexeme.Fits rest)
    {c : CodePoint} (hc : c ∈ (lexeme.text ++ rest).head?) (hstart : isNameStart c = true) :
    lexeme.terminal.base = .name := by
  have hname : ∀ terminal ∈ Terminal.order, headClass (CodePoint.ofChar 'a') ∈ terminal.heads →
      terminal = .name := by
    decide
  obtain ⟨tail, htext⟩ := List.head?_eq_some_iff.mp hc
  have hlength : 0 < lexeme.terminal.base.lengthAt (c :: tail) := by
    rw [← htext]
    exact h.length ▸ List.length_pos_iff.mpr h.ne_nil
  have hheads := Terminal.headClass_mem_heads (Terminal.base_mem_order _) hlength
  apply hname _ (Terminal.base_mem_order _)
  have hclass : headClass c = headClass (CodePoint.ofChar 'a') := by
    simp only [headClass, hstart, if_true]
    rfl
  rwa [hclass] at hheads

theorem Gap.of_sameStart {g rest rest' : Text} (h : Gap rest g) (hsame : SameStart rest rest') :
    Gap rest' g := by
  cases h with
  | blank hblank => exact .blank hblank
  | block hbody => exact .block hbody
  | line hbody hrest =>
    apply Gap.line hbody
    rcases hsame with hhead | ⟨⟨c, hc, hstart⟩, -⟩
    . rwa [← hhead]
    . have hline := hrest c hc
      rw [CodePoint.eq_ofChar_of_is hline] at hstart
      exact absurd hstart (by decide)

theorem Gap.ne_nil {rest g : Text} (h : Gap rest g) : g ≠ [] := by
  cases h with
  | blank _ => exact List.cons_ne_nil _ _
  | line _ _ => exact List.cons_ne_nil _ _
  | block _ => exact List.cons_ne_nil _ _

namespace Layout

variable {pos : Position} {t : Text} {ts : List Token}

theorem offset_le (h : Layout pos t ts) : ∀ token ∈ ts, pos.offset ≤ token.start.offset := by
  induction h with
  | nil => exact nofun
  | gap _ _ ih =>
    intro token hmem
    have hle := ih token hmem
    rw [Position.advance_offset] at hle
    omega
  | token _ _ ih =>
    rw [List.forall_mem_cons]
    refine ⟨Nat.le_refl _, fun token hmem => ?_⟩
    have hle := ih token hmem
    rw [Position.advance_offset] at hle
    omega

theorem le_of_mem_identifiers (h : Layout pos t ts) {is : List Item}
    (his : is.map Item.token = ts) :
    ∀ id ∈ is.flatMap Item.identifiers, pos.offset ≤ id.start ∧ id.start ≤ id.stop := by
  intro id hid
  obtain ⟨item, hitem, hmem⟩ := List.mem_flatMap.mp hid
  have hle := h.offset_le item.token (his ▸ List.mem_map_of_mem hitem)
  unfold Item.identifiers at hmem
  split at hmem
  . cases hmem
  . rw [List.mem_singleton.mp hmem]
    exact ⟨hle, Nat.le_add_right _ _⟩
  . rw [List.mem_singleton.mp hmem]
    exact ⟨hle, Nat.le_add_right _ _⟩

theorem isNameStart_eq_false_of_gap {g rest : Text} (h : Gap rest g) (u : Text) :
    ∀ c ∈ (g ++ u).head?, isNameStart c = false := by
  cases h with
  | @blank c hblank =>
    rintro _ ⟨⟩
    cases hstart : isNameStart c with
    | false => rfl
    | true =>
      rw [(not_space_of_isNameStart hstart).1] at hblank
      cases hblank
  | line | block =>
    rintro c ⟨⟩
    decide

theorem base_eq_name (h : Layout pos t ts) {c : CodePoint} (hc : c ∈ t.head?)
    (hstart : isNameStart c = true) :
    ∃ token us, ts = token :: us ∧ token.terminal.base = .name := by
  cases h with
  | nil => cases hc
  | gap hgap _ =>
    rw [isNameStart_eq_false_of_gap hgap _ c hc] at hstart
    cases hstart
  | @token token rest us hfits _ => exact ⟨token, us, rfl, hfits.base_eq_name hc hstart⟩

end Layout

namespace Item

def rewritten (f : Text → Text) (item : Item) : Text :=
  let name := item.token.text
  match item.role with
  | .plain => name
  | .name => f name
  | .shorthand => if f name = name then name else Text.concat [name, ": ", f name]

variable {f : Text → Text} {item : Item} {ids : List Identifier} {rest rest' t : Text}
  {ws : List Lexeme}

theorem splice_eq (h : ∀ id ∈ ids, item.token.stop ≤ id.start ∧ id.start ≤ id.stop) :
    splice item.token.start.offset (item.token.text ++ t) (changes f (item.identifiers ++ ids)) =
      item.rewritten f ++ splice item.token.stop t (changes f ids) := by
  have hcons (shorthand : Bool) : splice item.token.start.offset (item.token.text ++ t)
      (changes f (⟨item.token.text, item.token.start.offset, item.token.stop, shorthand⟩ :: ids)) =
      Identifier.rewritten f ⟨item.token.text, _, _, shorthand⟩ ++
        splice item.token.stop t (changes f ids) :=
    @splice_changes_cons f ⟨item.token.text, _, _, shorthand⟩ ids _ t rfl rfl h
  cases hrole : item.role with
  | plain =>
    rw [identifiers, rewritten, hrole]
    apply splice_append
    exact fun pair hpair => h pair.1 (mem_of_mem_changes hpair)
  | name =>
    simp only [identifiers, rewritten, hrole, List.singleton_append, hcons]
    unfold Identifier.rewritten replacement
    split
    . next heq => rw [show f item.token.text = item.token.text from heq]
    . rfl
  | shorthand =>
    simp only [identifiers, rewritten, hrole, List.singleton_append, hcons]
    rfl

theorem lexes_name {name : Text} (h : IsWord name) (hpart : ∀ c ∈ rest.head?, isNamePart c = false)
    (hrest : Lexes rest ws) : Lexes (name ++ rest) (⟨.name, name⟩ :: ws) :=
  @Lexes.token _ ⟨.name, name⟩ _ (Lexeme.fits_of_isWord h rfl nofun hpart) hrest

theorem exists_mem_identifiers (h : item.role ≠ .plain) :
    ∃ id ∈ item.identifiers, id.name = item.token.text := by
  unfold identifiers
  split
  . next hplain => exact absurd hplain h
  . exact ⟨_, List.mem_singleton_self _, rfl⟩
  . exact ⟨_, List.mem_singleton_self _, rfl⟩

theorem lexes (hfits : item.token.lexeme.Fits rest) (hsame : SameStart rest rest')
    (hnumber : item.token.terminal = .number → ∀ c ∈ rest.head?, isNameStart c = false)
    (hname : item.role ≠ .plain → item.token.terminal = .name ∧ IsWord (f item.token.text))
    (hrest : Lexes rest' ws) :
    SameStart (item.token.text ++ rest) (item.rewritten f ++ rest') ∧
      Lexes (item.rewritten f ++ rest') (item.renamed f ++ ws) := by
  have hne : item.token.text ≠ [] := hfits.ne_nil
  have hfits' : item.token.lexeme.Fits rest' := hfits.of_sameStart hsame hnumber
  have hword (hrole : item.role ≠ .plain) :
      IsWord item.token.text ∧ ∀ c ∈ rest'.head?, isNamePart c = false :=
    hfits'.isWord (show item.token.terminal.base = .name by rw [(hname hrole).1]; rfl)
  cases hrole : item.role with
  | plain =>
    simp only [rewritten, renamed, hrole]
    exact ⟨sameStart_append hne _ _, .token hfits' hrest⟩
  | name =>
    have hplain : item.role ≠ .plain := by rw [hrole]; decide
    obtain ⟨hold, hpart⟩ := hword hplain
    obtain ⟨-, hnew⟩ := hname hplain
    simp only [rewritten, renamed, hrole]
    refine ⟨.inr ⟨?_, ?_⟩, lexes_name hnew hpart hrest⟩
    . obtain ⟨c, tail, htext, hstart, -⟩ := hold
      exact ⟨c, by rw [htext]; rfl, hstart⟩
    . obtain ⟨c, tail, htext, hstart, -⟩ := hnew
      exact ⟨c, by rw [htext]; rfl, hstart⟩
  | shorthand =>
    have hplain : item.role ≠ .plain := by rw [hrole]; decide
    obtain ⟨hold, hpart⟩ := hword hplain
    obtain ⟨hterminal, hnew⟩ := hname hplain
    simp only [rewritten, renamed, hrole]
    split
    . exact ⟨sameStart_append hne _ _, .token hfits' hrest⟩
    . -- The key and the colon are new, with a blank behind them.
      have hblank : isBlank (CodePoint.ofChar ' ') = true := by decide
      have hcolon : isNamePart (CodePoint.ofChar ':') = false := by decide
      have hclosed : Lexeme.IsClosed .colon := Lexeme.isClosed_of_mem_marks (by decide)
      have hvalue : Lexes _ (_ :: ws) := lexes_name hnew hpart hrest
      have hspace := @Lexes.gap [CodePoint.ofChar ' '] _ _ (.blank hblank) hvalue
      have hmark := Lexes.token
        (hclosed _ (by rintro _ ⟨⟩; exact mem_stops_of_isBlank hblank)) hspace
      have hkey := lexes_name hold (by rintro _ ⟨⟩; exact hcolon) hmark
      have htext : Text.concat [item.token.text, ": ", f item.token.text] ++ rest' =
          item.token.text ++ (Lexeme.colon.text ++ ([CodePoint.ofChar ' '] ++
            (f item.token.text ++ rest'))) := by
        simp only [Text.concat, List.flatten_cons, List.flatten_nil, List.append_nil,
          List.append_assoc]
        rfl
      rw [htext, Token.lexeme, hterminal]
      exact ⟨sameStart_append hne _ _, hkey⟩

end Item

theorem Layout.lexes_splice {f : Text → Text} {pos : Position} {t : Text} {ts : List Token}
    (h : Layout pos t ts) {is : List Item} (his : is.map Item.token = ts)
    (hchain : is.IsChain Item.Precedes)
    (hnames : ∀ item ∈ is, item.role ≠ .plain →
      item.token.terminal = .name ∧ IsWord (f item.token.text)) :
    SameStart t (splice pos.offset t (changes f (is.flatMap Item.identifiers))) ∧
      Lexes (splice pos.offset t (changes f (is.flatMap Item.identifiers)))
        (is.flatMap (Item.renamed f)) := by
  -- That the rest starts as before is what the token in front of it needs to end where it did.
  induction h generalizing is with
  | nil pos =>
    obtain rfl := List.map_eq_nil_iff.mp his
    exact ⟨.inl rfl, .nil⟩
  | @gap pos g rest ts hgap hlayout ih =>
    obtain ⟨hsame, hlexes⟩ := ih his hchain hnames
    have hplaced := hlayout.le_of_mem_identifiers his
    rw [Position.advance_offset] at hsame hlexes hplaced
    rw [splice_append fun pair hpair => hplaced pair.1 (mem_of_mem_changes hpair)]
    exact ⟨sameStart_append hgap.ne_nil _ _, .gap (hgap.of_sameStart hsame) hlexes⟩
  | @token token rest ts hfits hlayout ih =>
    obtain ⟨item, is, rfl, rfl, hrest⟩ := List.map_eq_cons_iff.mp his
    obtain ⟨hitem, hitems⟩ := List.forall_mem_cons.mp hnames
    obtain ⟨hsame, hlexes⟩ := ih hrest hchain.tail hitems
    have hplaced := hlayout.le_of_mem_identifiers hrest
    rw [Position.advance_offset] at hsame hlexes hplaced
    have hnumber (hterminal : item.token.terminal = .number) :
        ∀ c ∈ rest.head?, isNameStart c = false := by
      intro c hc
      cases hstart : isNameStart c with
      | false => rfl
      | true =>
        -- There would be a name right behind the number.
        obtain ⟨next, us, hts, hbase⟩ := hlayout.base_eq_name hc hstart
        rw [hts] at hrest
        obtain ⟨j, js, rfl, rfl, -⟩ := List.map_eq_cons_iff.mp hrest
        exact absurd hbase ((List.isChain_cons_cons.mp hchain).1 hterminal)
    rw [List.flatMap_cons, List.flatMap_cons, Item.splice_eq hplaced]
    exact Item.lexes hfits hsame hnumber hitem hlexes

theorem replaceNames_eq [Limits] {t : Text} {e : Expr} (h : parse t = .ok e) (optional : Bool)
    (f : Text → Text) :
    replaceNames .expression optional (fun name => (.ok (f name) : Except Failure Text)) t =
      .ok (splice 0 t (changes f e.identifiers)) := by
  have hids : identifiers? .expression optional t = .ok (some e.identifiers) := by
    simp only [identifiers?, isBlank_eq_false_of_parse h, Bool.false_eq_true, if_false, h]
    rfl
  have hnames : e.identifiers.mapM (fun id => (.ok (f id.name) : Except Failure Text)) =
      .ok (e.identifiers.map fun id => f id.name) :=
    Traversal.mapM_eq_ok fun _ _ => rfl
  simp only [replaceNames, hids, hnames]
  rfl

/--
Replacing the identifiers of a text by names gives a text of the expression with those names. Its
own identifiers can be replaced by themselves.
-/
theorem parse_replaceNames [Limits] {t : Text} {e : Expr} {f : Text → Text} (h : parse t = .ok e)
    (hnames : ∀ id ∈ e.identifiers, IsName (f id.name)) (optional : Bool) :
    ∃ t' e', replaceNames (m := Except Failure) .expression optional (fun name => .ok (f name)) t =
        .ok t' ∧
      parse t' = .ok e' ∧ e'.bare = (e.rename f).bare ∧
      replaceNames (m := Except Failure) .expression optional (fun name => .ok name) t' =
        .ok t' := by
  have hparse := h
  rw [parse, Traversal.bind_eq_ok_iff] at hparse
  obtain ⟨p, hread, hresolve⟩ := hparse
  obtain ⟨is, hlayout, hspells⟩ := exists_spells_of_read hread
  have hids : e.identifiers = is.flatMap Item.identifiers := hspells.hasIdentifiers _ _ hresolve
  rw [hids] at hnames
  have hitems : ∀ item ∈ is, item.role ≠ .plain →
      item.token.terminal = .name ∧ IsWord (f item.token.text) := by
    intro item hmem hrole
    obtain ⟨id, hid, hname⟩ := Item.exists_mem_identifiers hrole
    refine ⟨(hspells.names item hmem hrole).1, ?_⟩
    rw [← hname]
    exact (hnames id (List.mem_flatMap.mpr ⟨item, hmem, hid⟩)).start
  have hlexes : Lexes (splice 0 t (changes f (is.flatMap Item.identifiers))) _ :=
    (hlayout.lexes_splice rfl hspells.isChain hitems).2
  have hdepth : (e.rename f).depth ≤ Limits.maxDepth := by
    rw [Expr.rename, Expr.depth_mapIdentifiers]
    exact depth_le_of_resolve hresolve
  obtain ⟨e', hparse', heq⟩ := (hspells.renames hnames _ _ hresolve).parse hlexes hdepth
  refine ⟨_, e', replaceNames_eq h optional f, ?_, heq, ?_⟩
  . rw [hids]
    exact hparse'
  . rw [hids, replaceNames_eq hparse' optional fun name => name]
    exact congrArg Except.ok (splice_names _ _)

/--
A text with a shorthand, with a comment behind a name and with a property that is called like a
variable.
-/
def sampleText : Text :=
  "typeof a?\x7ba,'b':1\x7d:[a/* a */.a]"

theorem parse_replaceNames_sampleText : ∃ e, parse sampleText = .ok e ∧
    (∀ id ∈ e.identifiers, IsName (id.name ++ ("1" : Text))) ∧
    ∃ t' e', replaceNames (m := Except Failure) .expression false
        (fun name => .ok (name ++ ("1" : Text))) sampleText = .ok t' ∧
      parse t' = .ok e' ∧ e'.bare = (e.rename (· ++ ("1" : Text))).bare ∧
      replaceNames (m := Except Failure) .expression false (fun name => .ok name) t' =
        .ok t' := by
  have hsample : (parse sampleText).toOption.map Expr.identifiers =
      some [⟨"a", 7, 8, false⟩, ⟨"a", 10, 11, true⟩, ⟨"a", 20, 21, false⟩] := by
    decide +kernel
  obtain ⟨e, h, hids⟩ := Traversal.exists_of_map_toOption hsample
  have hnames : ∀ id ∈ e.identifiers, IsName (id.name ++ ("1" : Text)) := by
    rw [hids]
    decide
  exact ⟨e, h, hnames, parse_replaceNames h hnames false⟩

end Expression

end PageBinding
