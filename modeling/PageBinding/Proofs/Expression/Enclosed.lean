import PageBinding.Proofs.Expression.Format
import PageBinding.Proofs.Expression.Splice

/-!
This module contains what becomes of the text of an expression inside of a larger text: it is cut
into the same tokens there, unless it ends in a comment that takes in what is behind it on the line.
-/

namespace PageBinding

namespace Expression

section Stops

variable {w rest extra : Text} {lexeme : Lexeme}

theorem opensGap_append (h : opensGap w = false) (hw : w ≠ [])
    (hextra : ∀ c ∈ extra.head?, c ∈ stops) : opensGap (w ++ extra) = false := by
  have hstop : ∀ c ∈ stops, c.is '/' = false ∧ c.is '*' = false := forall_mem_stops (by decide)
  cases extra with
  | nil => rwa [List.append_nil]
  | cons c extra =>
    obtain ⟨hslash, hstar⟩ := hstop c (hextra c rfl)
    match w with
    | [] => exact absurd rfl hw
    | [x] =>
      have hblank : isBlank x = false := h
      simp [opensGap, hblank, hslash, hstar]
    | x :: y :: v => exact h

namespace Lexeme

theorem isClosed_of_fits_nil (h : lexeme.Fits []) (hnumber : lexeme.terminal ≠ .number) :
    lexeme.IsClosed := by
  have hspelled : ∀ terminal ∈ Terminal.order, terminal ∉ [.name, .number, .string] →
      ∀ text ∈ terminal.spellings, Fits ⟨terminal, text⟩ [] →
        stops.all (fun c => decide (Fits ⟨terminal, text⟩ [c])) = true := by decide
  obtain ⟨terminal, text⟩ := lexeme
  have hlength := h.length
  cases terminal with
  | name | word => exact isClosed_of_isWord (h.isWord rfl).1 rfl h.keyword
  | number => exact absurd rfl hnumber
  | string =>
    rw [List.append_nil] at hlength
    exact fun rest _ => fits_of_stringLength h.ne_nil hlength rest
  | _ =>
    dsimp only [Terminal.base] at hlength
    have hmem := Terminal.mem_spellings_of_lengthAt (by decide) h.ne_nil hlength
    exact isClosed_of_fits h (forall_mem_stops (hspelled _ (by decide) (by decide) text hmem h))

theorem Fits.append (h : lexeme.Fits rest) (hextra : ∀ c ∈ extra.head?, c ∈ stops) :
    lexeme.Fits (rest ++ extra) := by
  by_cases hnumber : lexeme.terminal = .number
  . have hstops : ∀ c ∈ stops, Numeral.Stops c := forall_mem_stops (by decide)
    constructor
    . exact h.ne_nil
    . rw [← List.append_assoc]
      exact opensGap_append h.gap (List.append_ne_nil_of_left_ne_nil h.ne_nil rest) hextra
    . have hlength := h.length
      rw [hnumber] at hlength ⊢
      rw [← List.append_assoc]
      show Numeral.length _ = _
      rw [Numeral.length_append_of_stops fun c hc => hstops c (hextra c hc)]
      exact hlength
    . exact h.keyword
    . intro hquestion
      rw [hnumber] at hquestion
      cases hquestion
  . cases rest with
    | nil => exact isClosed_of_fits_nil h hnumber extra hextra
    | cons c rest => exact h.of_head (fun heq => absurd heq hnumber) _

end Lexeme

end Stops

def IsNumeral (t : Text) : Prop :=
  t ≠ [] ∧ Numeral.length t = t.length

instance (t : Text) : Decidable (IsNumeral t) :=
  inferInstanceAs (Decidable (_ ∧ _))

theorem isClosed_numeral {numeral : Text} (h : IsNumeral numeral) :
    Lexeme.IsClosed ⟨.number, numeral⟩ := by
  have hfits : Lexeme.Fits ⟨.number, numeral⟩ [] :=
    Lexeme.fits_of_numeral h.1 (by rw [List.append_nil, h.2])
  exact fun rest hrest => hfits.append hrest

def EndsInComment (t : Text) (ws : List Lexeme) : Prop :=
  ∀ rest, (∀ c ∈ rest.head?, c ∈ stops) → (∀ c ∈ rest, c.is '\n' = false) → Lexes (t ++ rest) ws

theorem Layout.eq_nil {pos : Position} {ts : List Token} (h : Layout pos [] ts) : ts = [] := by
  generalize ht : ([] : Text) = t at h
  cases h with
  | nil => rfl
  | gap hgap _ => exact absurd (List.append_eq_nil_iff.mp ht.symm).1 hgap.ne_nil
  | token hfits _ => exact absurd (List.append_eq_nil_iff.mp ht.symm).1 hfits.ne_nil

theorem Layout.writes_or_endsInComment {pos : Position} {t : Text} {ts : List Token}
    (h : Layout pos t ts) :
    Writes t (ts.map Token.lexeme) ∨ EndsInComment t (ts.map Token.lexeme) := by
  induction h with
  | nil => exact .inl fun rest us _ hlexes => hlexes
  | @gap pos g rest ts hgap hlayout ih =>
    by_cases hrest : rest = []
    . subst hrest
      rw [hlayout.eq_nil, List.append_nil]
      cases hgap with
      | blank hblank => exact .inl fun rest us _ hlexes => .gap (.blank hblank) hlexes
      | block hbody => exact .inl fun rest us _ hlexes => .gap (.block hbody) hlexes
      | @line body hbody _ =>
        right
        intro extra _ hextra
        have hline : Gap [] (("//" : Text) ++ (body ++ extra)) :=
          .line (List.forall_mem_append.mpr ⟨hbody, hextra⟩) nofun
        have hlexes := Lexes.gap hline .nil
        rwa [List.append_nil, ← List.append_assoc] at hlexes
    . have hgap' (extra : Text) : Gap (rest ++ extra) g := by
        apply hgap.of_sameStart
        have hsame := sameStart_append hrest [] extra
        rwa [List.append_nil] at hsame
      rcases ih with hwrites | hcomment
      . left
        intro extra us hextra hlexes
        rw [List.append_assoc]
        exact .gap (hgap' extra) (hwrites extra us hextra hlexes)
      . right
        intro extra hextra hline
        rw [List.append_assoc]
        exact .gap (hgap' extra) (hcomment extra hextra hline)
  | @token token rest ts hfits hlayout ih =>
    rcases ih with hwrites | hcomment
    . left
      intro extra us hextra hlexes
      rw [List.append_assoc, List.map_cons, List.cons_append]
      exact .token (hfits.append hextra) (hwrites extra us hextra hlexes)
    . right
      intro extra hextra hline
      rw [List.append_assoc, List.map_cons]
      exact .token (hfits.append hextra) (hcomment extra hextra hline)

mutual

theorem Phrase.isReserved_of_resolve {room : Nat} {p : Phrase} {e : Expr}
    (h : p.resolve room = .ok e) : ∀ id ∈ e.identifiers, isReserved id.name = false := by
  match p with
  | .number _ | .string _ | .bool _ | .null =>
    cases Phrase.becomes_of_resolve h
    exact nofun
  | .name _ =>
    cases Phrase.becomes_of_resolve h with
    | name hid =>
      obtain ⟨hreserved, rfl⟩ := Token.identifier_eq_ok_iff.mp hid
      exact List.forall_mem_singleton.mpr hreserved
  | .array _ =>
    cases Phrase.becomes_of_resolve h with
    | array hes => exact isReserved_of_resolveList hes
  | .object _ =>
    cases Phrase.becomes_of_resolve h with
    | object hes => exact isReserved_of_resolveEntries hes
  | .unary _ p =>
    cases Phrase.becomes_of_resolve h with
    | unary ha =>
      rw [Expr.identifiers]
      exact Phrase.isReserved_of_resolve ha
  | .binary _ p q =>
    cases Phrase.becomes_of_resolve h with
    | binary ha hb =>
      exact List.forall_mem_append.mpr
        ⟨Phrase.isReserved_of_resolve ha, Phrase.isReserved_of_resolve hb⟩
  | .conditional p q r =>
    cases Phrase.becomes_of_resolve h with
    | conditional ha hb hc =>
      have hbefore := List.forall_mem_append.mpr
        ⟨Phrase.isReserved_of_resolve ha, Phrase.isReserved_of_resolve hb⟩
      exact List.forall_mem_append.mpr ⟨hbefore, Phrase.isReserved_of_resolve hc⟩
  | .member p _ _ =>
    cases Phrase.becomes_of_resolve h with
    | member ha =>
      rw [Expr.identifiers]
      exact Phrase.isReserved_of_resolve ha
  | .index p q _ =>
    cases Phrase.becomes_of_resolve h with
    | index ha hb =>
      exact List.forall_mem_append.mpr
        ⟨Phrase.isReserved_of_resolve ha, Phrase.isReserved_of_resolve hb⟩

theorem isReserved_of_resolveList {room : Nat} {ps : List Phrase} {es : List Expr}
    (h : resolveList room ps = .ok es) :
    ∀ id ∈ identifiersOfList es, isReserved id.name = false := by
  match ps with
  | [] =>
    cases h
    exact nofun
  | p :: ps =>
    obtain ⟨a, as, ha, has, rfl⟩ := exists_of_resolveList h
    exact List.forall_mem_append.mpr
      ⟨Phrase.isReserved_of_resolve ha, isReserved_of_resolveList has⟩

theorem PhraseEntry.isReserved_of_resolve {room : Nat} {p : PhraseEntry} {entry : Entry}
    (h : p.resolve room = .ok entry) :
    ∀ id ∈ identifiersOfEntry entry, isReserved id.name = false := by
  match p with
  | .keyed _ p =>
    cases PhraseEntry.becomes_of_resolve h with
    | keyed hkey ha => exact Phrase.isReserved_of_resolve ha
  | .computed p q =>
    cases PhraseEntry.becomes_of_resolve h with
    | computed ha hb =>
      exact List.forall_mem_append.mpr
        ⟨Phrase.isReserved_of_resolve ha, Phrase.isReserved_of_resolve hb⟩
  | .shorthand _ =>
    cases PhraseEntry.becomes_of_resolve h with
    | shorthand hid =>
      obtain ⟨hreserved, rfl⟩ := Token.identifier_eq_ok_iff.mp hid
      exact List.forall_mem_singleton.mpr hreserved

theorem isReserved_of_resolveEntries {room : Nat} {ps : List PhraseEntry} {es : List Entry}
    (h : resolveEntries room ps = .ok es) :
    ∀ id ∈ identifiersOfEntries es, isReserved id.name = false := by
  match ps with
  | [] =>
    cases h
    exact nofun
  | p :: ps =>
    obtain ⟨a, as, ha, has, rfl⟩ := exists_of_resolveEntries h
    exact List.forall_mem_append.mpr
      ⟨PhraseEntry.isReserved_of_resolve ha, isReserved_of_resolveEntries has⟩

end

theorem Spells.isName {p : Phrase} {level : Nat} {is : List Item} {room : Nat} {e : Expr}
    (h : Spells (.phrase level p) is) (hresolve : p.resolve room = .ok e)
    (hfits : ∀ token ∈ is.map Item.token, ∃ rest, token.lexeme.Fits rest) :
    ∀ id ∈ is.flatMap Item.identifiers, IsName id.name := by
  intro id hid
  have hids : e.identifiers = is.flatMap Item.identifiers := h.hasIdentifiers _ _ hresolve
  have hreserved := Phrase.isReserved_of_resolve hresolve id (hids ▸ hid)
  obtain ⟨item, hmem, hitem⟩ := List.mem_flatMap.mp hid
  have hrole : item.role ≠ .plain := by
    intro hrole
    simp [Item.identifiers, hrole] at hitem
  have hname : id.name = item.token.text := by
    unfold Item.identifiers at hitem
    split at hitem
    . cases hitem
    . rw [List.mem_singleton.mp hitem]
    . rw [List.mem_singleton.mp hitem]
  obtain ⟨rest, hrest⟩ := hfits item.token (List.mem_map_of_mem hmem)
  obtain ⟨hterminal, hkeyword⟩ := h.names item hmem hrole
  have hword := (hrest.isWord (by simp [Token.lexeme, hterminal, Terminal.base])).1
  rw [hname] at hreserved ⊢
  exact ⟨hword, hkeyword, hreserved⟩

theorem Spells.denotes {p : Phrase} {level : Nat} {is : List Item} {room : Nat} {e : Expr}
    (h : Spells (.phrase level p) is) (hresolve : p.resolve room = .ok e)
    (hfits : ∀ token ∈ is.map Item.token, ∃ rest, token.lexeme.Fits rest) :
    Denotes Identifier.bare level e ((is.map Item.token).map Token.lexeme) := by
  have hitem (item : Item) (hmem : item ∈ is) :
      item.renamed (fun name => name) = [item.token.lexeme] := by
    unfold Item.renamed
    split
    . rfl
    . next hrole => rw [Token.lexeme, (h.names item hmem (by simp [hrole])).1]
    . exact if_pos rfl
  have hrenamed : is.flatMap (Item.renamed fun name => name) =
      (is.map Item.token).map Token.lexeme := by
    rw [List.flatMap_congr hitem, List.map_map, List.map_eq_flatMap]
    rfl
  have hdenotes :=
    @Spells.renames (fun name => name) _ _ h (h.isName hresolve hfits) room e hresolve
  rwa [hrenamed, Expr.rename, show Identifier.rename (fun name => name) = id from rfl,
    Expr.mapIdentifiers_id] at hdenotes

theorem denotes_of_parse [Limits] {t : Text} {e : Expr} (h : parse t = .ok e) :
    ∃ ws, Denotes Identifier.bare 0 e ws ∧ (Writes t ws ∨ EndsInComment t ws) := by
  rw [parse, Traversal.bind_eq_ok_iff] at h
  obtain ⟨p, hread, hresolve⟩ := h
  obtain ⟨is, hlayout, hspells⟩ := exists_spells_of_read hread
  exact ⟨_, hspells.denotes hresolve hlayout.fits, hlayout.writes_or_endsInComment⟩

theorem evaluate_eq_ok_iff [Limits] {t : Text} {v : Value} :
    evaluate t = .ok v ↔ ∃ e, parse t = .ok e ∧ e.identifiers = [] ∧ e.evaluate = .ok v ∧
      checkData v = .ok () := by
  unfold evaluate
  constructor
  . intro h
    split at h
    . cases h
    . obtain ⟨e, hparse, h⟩ := Traversal.bind_eq_ok_iff.mp h
      dsimp only at h
      split at h
      . cases h
      . next hnames =>
        obtain ⟨v', hv, h⟩ := Traversal.bind_eq_ok_iff.mp h
        obtain ⟨⟨⟩, hcheck, h⟩ := Traversal.bind_eq_ok_iff.mp h
        cases h
        refine ⟨e, hparse, ?_, hv, hcheck⟩
        simp only [Bool.not_eq_true', Bool.not_eq_false, List.isEmpty_iff] at hnames
        rw [List.eq_nil_iff_forall_not_mem]
        intro id hid
        have hmem := Text.mem_distinct.mpr (List.mem_map_of_mem (f := Identifier.name) hid)
        rw [hnames] at hmem
        cases hmem
  . rintro ⟨e, hparse, hnone, hv, hcheck⟩
    rw [isBlank_eq_false_of_parse hparse, hparse]
    simp only [bind, Except.bind, hnone, hv, hcheck]
    rfl

namespace Denotes

variable {g : Identifier → Identifier} {a : Expr} {ws : List Lexeme} {t : Text}

theorem parse_eq_tooDeep [Limits] (h : Denotes g 0 a ws) (hlexes : Lexes t ws)
    (hdeep : Limits.maxDepth < a.depth) : Expression.parse t = .error tooDeep := by
  obtain ⟨ts, hlayout, hts⟩ := hlexes .start
  obtain ⟨p, hparses, hresolves⟩ := h ts hts
  obtain ⟨e, rest, hsteps, -, hsettle⟩ := hparses [] [] (.nil 0)
  have hread : Phrase.read t = .ok p :=
    read_eq_ok_iff.mpr ⟨ts, e, rest, [], hlayout, hsteps, hsettle 0 (Nat.le_refl 0)⟩
  obtain ⟨e', hresolve, heq⟩ := hresolves a.depth (Nat.le_refl _)
  have hdepth : e'.depth = a.depth := by
    rw [← Expr.depth_mapIdentifiers, heq, Expr.depth_mapIdentifiers]
  rw [Expression.parse, hread]
  show p.resolve Limits.maxDepth = _
  rw [Phrase.resolve_eq hresolve, hdepth, if_neg (Nat.not_le.mpr hdeep)]

theorem isBlank_eq_false (h : Denotes g 0 a ws) (hlexes : Lexes t ws) : t.isBlank = false := by
  obtain ⟨ts, hlayout, hts⟩ := hlexes .start
  obtain ⟨p, hparses, -⟩ := h ts hts
  obtain ⟨e, rest, hsteps, -⟩ := hparses [] [] (.nil 0)
  apply hlayout.isBlank_eq_false
  rintro rfl
  cases hsteps

variable [Limits]

theorem evaluate_eq_tooDeep (h : Denotes g 0 a ws) (hlexes : Lexes t ws)
    (hdeep : Limits.maxDepth < a.depth) : Expression.evaluate t = .error tooDeep := by
  rw [Expression.evaluate, h.isBlank_eq_false hlexes, h.parse_eq_tooDeep hlexes hdeep]
  rfl

theorem depth_le (h : Denotes g 0 a ws) (hlexes : Lexes t ws) {e : Expr}
    (hparse : Expression.parse t = .ok e) : a.depth ≤ Limits.maxDepth := by
  by_contra hdeep
  rw [h.parse_eq_tooDeep hlexes (Nat.not_le.mp hdeep)] at hparse
  cases hparse

theorem evaluate_eq_ok_iff (h : Denotes g 0 a ws) (hlexes : Lexes t ws) {v : Value} :
    Expression.evaluate t = .ok v ↔
      a.depth ≤ Limits.maxDepth ∧ a.identifiers = [] ∧ a.evaluate = .ok v ∧
        checkData v = .ok () := by
  rw [Expression.evaluate_eq_ok_iff]
  constructor
  . rintro ⟨e, hparse, hnone, hv, hcheck⟩
    have hdepth := h.depth_le hlexes hparse
    obtain ⟨e', hparse', heq⟩ := h.parse hlexes hdepth
    rw [hparse] at hparse'
    cases hparse'
    obtain rfl := Expr.eq_of_mapIdentifiers_eq heq hnone
    exact ⟨hdepth, hnone, hv, hcheck⟩
  . rintro ⟨hdepth, hnone, hv, hcheck⟩
    obtain ⟨e, hparse, heq⟩ := h.parse hlexes hdepth
    obtain rfl := Expr.eq_of_mapIdentifiers_eq heq.symm hnone
    exact ⟨a, hparse, hnone, hv, hcheck⟩

theorem parse_ne_ok_of_unclosed {key : Text} (h : Denotes g 0 a ws)
    (hlexes : Lexes t (.leftBrace :: ⟨.number, key⟩ :: .colon :: ws)) (e : Expr) :
    Expression.parse t ≠ .ok e := by
  intro hparse
  rw [Expression.parse, Traversal.bind_eq_ok_iff] at hparse
  obtain ⟨q, hread, -⟩ := hparse
  obtain ⟨tokens, hlayout, htokens⟩ := hlexes .start
  obtain ⟨start, behindBrace, rfl, hbehindBrace⟩ := map_lexeme_eq_cons htokens
  obtain ⟨start', behindKey, rfl, hbehindKey⟩ := map_lexeme_eq_cons hbehindBrace
  obtain ⟨start'', ts, rfl, hts⟩ := map_lexeme_eq_cons hbehindKey
  obtain ⟨p, hparses, -⟩ := h ts hts
  obtain ⟨e, rest, hsteps, hsettle⟩ :=
    hparses.enclosed (.value [] (Lexeme.token ⟨.number, key⟩ start')) (fun _ => rfl) [] []
  have hall : Config.Steps .expression
      (Lexeme.leftBrace.token start :: Lexeme.token ⟨.number, key⟩ start' ::
        Lexeme.colon.token start'' :: ts) ⟨.ended e, rest, []⟩ := by
    refine .cons rfl ?_ rfl (.cons rfl ?_ rfl (.cons rfl ?_ rfl hsteps))
    all_goals
      intro h
      cases h
  obtain ⟨place, hrun⟩ := Config.run_of_layout hlayout hall Position.start.place
  rw [Phrase.read, hrun] at hread
  simp only [bind, Except.bind, hsettle] at hread
  cases hread

end Denotes

end Expression

end PageBinding
