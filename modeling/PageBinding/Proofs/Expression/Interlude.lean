import PageBinding.Proofs.Expression.Splice

/-!
This module contains what stands between the tokens of a text. A piece of a text from one of its
tokens to another one is cut into the same tokens in front of any other text, as long as that text
does not go on with its last token.
-/

namespace PageBinding

namespace Expression

inductive Gaps (rest : Text) : Text → Prop where
  | nil : Gaps rest []
  | cons {g more : Text} : Gap (more ++ rest) g → Gaps rest more → Gaps rest (g ++ more)

/--
White space, comments and semicolons in front of the rest of a text.
-/
inductive Interlude (rest : Text) : Text → Prop where
  | gaps {g : Text} : Gaps rest g → Interlude rest g
  | semicolon {g more : Text} :
      Gaps (Lexeme.semicolon.text ++ (more ++ rest)) g → Interlude rest more →
      Interlude rest (g ++ (Lexeme.semicolon.text ++ more))

/--
A piece of a text, from its first token to its last one, in front of the rest.
-/
inductive Framed (rest : Text) : Text → List Lexeme → Prop where
  | last {w : Lexeme} : w.Fits rest → Framed rest w.text [w]
  | more {w : Lexeme} {g t : Text} {ws : List Lexeme} :
      w.Fits (g ++ (t ++ rest)) → Gaps (t ++ rest) g → Framed rest t ws →
      Framed rest (w.text ++ (g ++ t)) (w :: ws)

/--
What can come one after the other in a phrase. A name behind a number could be taken for its
exponent.
-/
def Lexeme.Precedes (v w : Lexeme) : Prop :=
  v.terminal = .number → w.terminal.base ≠ .name

def Lexeme.Ends (w : Lexeme) : Prop :=
  w.terminal.base ∈ [.name, .number, .string, .rightParen, .rightBracket, .rightBrace]

instance (w : Lexeme) : Decidable w.Ends :=
  inferInstanceAs (Decidable (_ ∈ _))

/--
The code points that can follow every token that a phrase or a call can end with.
-/
def breaks : List CodePoint :=
  stops ++ Text.ofString "/;"

section Gaps

variable {rest rest' t g : Text} {us : List Lexeme}

namespace Gaps

theorem lexes (h : Gaps rest g) (hrest : Lexes rest us) : Lexes (g ++ rest) us := by
  induction h with
  | nil => exact hrest
  | cons hgap _ ih =>
    rw [List.append_assoc]
    exact .gap hgap ih

theorem of_sameStart (h : Gaps rest g) (hsame : SameStart rest rest') : Gaps rest' g := by
  induction h with
  | nil => exact nil
  | @cons g more hgap _ ih =>
    refine cons (hgap.of_sameStart ?_) ih
    by_cases hmore : more = []
    . rwa [hmore]
    . exact sameStart_append hmore _ _

theorem isNameStart_eq_false (h : Gaps rest g) (hne : g ≠ []) (u : Text) :
    ∀ c ∈ (g ++ u).head?, isNameStart c = false := by
  cases h with
  | nil => exact absurd rfl hne
  | cons hgap _ =>
    rw [List.append_assoc]
    exact Layout.isNameStart_eq_false_of_gap hgap _

end Gaps

theorem mem_breaks_of_gap (h : Gap rest g) (u : Text) : ∀ c ∈ (g ++ u).head?, c ∈ breaks := by
  cases h with
  | blank hblank =>
    rintro _ ⟨⟩
    exact List.mem_append_left _ (mem_stops_of_isBlank hblank)
  | line | block =>
    rintro _ ⟨⟩
    decide

namespace Interlude

theorem head_mem_breaks (h : Interlude rest t) (hne : t ≠ []) (u : Text) :
    ∀ c ∈ (t ++ u).head?, c ∈ breaks := by
  have hgaps {g v : Text} (h : Gaps v g) (hne : g ≠ []) (u : Text) :
      ∀ c ∈ (g ++ u).head?, c ∈ breaks := by
    cases h with
    | nil => exact absurd rfl hne
    | cons hgap _ =>
      rw [List.append_assoc]
      exact mem_breaks_of_gap hgap _
  cases h with
  | gaps h => exact hgaps h hne u
  | @semicolon g more h _ =>
    rw [List.append_assoc]
    by_cases hnil : g = []
    . rw [hnil]
      rintro _ ⟨⟩
      decide
    . exact hgaps h hnil _

theorem lexes (h : Interlude rest t) (hrest : Lexes rest us) :
    ∃ n, Lexes (t ++ rest) (List.replicate n .semicolon ++ us) := by
  induction h with
  | gaps h => exact ⟨0, h.lexes hrest⟩
  | semicolon h _ ih =>
    obtain ⟨n, hlexes⟩ := ih
    refine ⟨n + 1, ?_⟩
    rw [List.append_assoc, List.append_assoc]
    exact h.lexes (.token (Lexeme.fits_of_mem_punctuation (by decide) _) hlexes)

end Interlude

end Gaps

namespace Layout

variable {pos : Position} {t : Text} {token : Token} {ts us : List Token}

theorem gaps (h : Layout pos t []) : Gaps [] t := by
  generalize hts : ([] : List Token) = ts at h
  induction h with
  | nil => exact .nil
  | gap hgap _ ih =>
    apply Gaps.cons _ (ih hts)
    rwa [List.append_nil]
  | token _ _ => cases hts

theorem exists_token (h : Layout pos t (token :: ts)) :
    ∃ g rest pos', t = g ++ (token.text ++ rest) ∧ Gaps (token.text ++ rest) g ∧
      token.lexeme.Fits rest ∧ Layout pos' rest ts := by
  generalize hts : token :: ts = us at h
  induction h with
  | nil => cases hts
  | gap hgap _ ih =>
    obtain ⟨g, rest, pos', rfl, hgaps, hfits, hlayout⟩ := ih hts
    refine ⟨_, rest, pos', (List.append_assoc _ _ _).symm, .cons hgap hgaps, hfits, hlayout⟩
  | token hfits hlayout =>
    cases hts
    exact ⟨[], _, _, rfl, .nil, hfits, hlayout⟩

theorem exists_framed (hne : ts ≠ []) (h : Layout pos t (ts ++ us)) :
    ∃ g body rest pos', t = g ++ (body ++ rest) ∧ Gaps (body ++ rest) g ∧
      Framed rest body (ts.map Token.lexeme) ∧ Layout pos' rest us := by
  induction ts generalizing pos t with
  | nil => exact absurd rfl hne
  | cons token ts ih =>
    obtain ⟨g, rest, pos', rfl, hgaps, hfits, hlayout⟩ := h.exists_token
    by_cases hts : ts = []
    . subst hts
      exact ⟨g, _, rest, pos', rfl, hgaps, .last hfits, hlayout⟩
    . obtain ⟨g', body, rest', pos'', rfl, hgaps', hframed, hlayout'⟩ := ih hts hlayout
      have happend :
          token.text ++ (g' ++ (body ++ rest')) = token.text ++ (g' ++ body) ++ rest' := by
        simp only [List.append_assoc]
      rw [happend] at hgaps ⊢
      exact ⟨g, _, rest', pos'', rfl, hgaps, .more hfits hgaps' hframed, hlayout'⟩

end Layout

theorem forall_mem_breaks {p : CodePoint → Prop} [DecidablePred p]
    (h : breaks.all (fun c => decide (p c)) = true) : ∀ c ∈ breaks, p c :=
  fun c hc => of_decide_eq_true (List.all_eq_true.mp h c hc)

theorem Lexeme.Fits.of_ends {w : Lexeme} {rest rest' : Text} (h : w.Fits rest) (hends : w.Ends)
    (hrest : ∀ c ∈ rest'.head?, c ∈ breaks) : w.Fits rest' := by
  have hpart : ∀ c ∈ breaks, isNamePart c = false := forall_mem_breaks (by decide)
  have hstops : ∀ c ∈ breaks, Numeral.Stops c := forall_mem_breaks (by decide)
  obtain ⟨terminal, text⟩ := w
  have hlength := h.length
  cases terminal with
  | name | word =>
    exact fits_of_isWord (h.isWord rfl).1 rfl h.keyword fun c hc => hpart c (hrest c hc)
  | number =>
    have hnumeral : Numeral.length (text ++ []) = text.length :=
      Numeral.length_congr h.ne_nil hlength nofun
    rw [List.append_nil] at hnumeral
    apply fits_of_numeral h.ne_nil
    rwa [Numeral.length_append_of_stops fun c hc => hstops c (hrest c hc)]
  | string =>
    have hnil := stringLength_append h.ne_nil hlength []
    rw [List.append_nil] at hnil
    exact fits_of_stringLength h.ne_nil hnil rest'
  | rightParen | rightBracket | rightBrace =>
    dsimp only [Terminal.base] at hlength
    have hmem := Terminal.mem_spellings_of_lengthAt (by decide) h.ne_nil hlength
    obtain rfl := List.mem_singleton.mp hmem
    exact fits_of_mem_punctuation (by decide) rest'
  | _ => exact absurd hends (by simp [Ends, Terminal.base])

namespace Framed

variable {rest rest' t : Text} {ws us : List Lexeme}

theorem ne_nil (h : Framed rest t ws) : t ≠ [] := by
  cases h with
  | last hfits => exact hfits.ne_nil
  | more hfits _ _ => exact List.append_ne_nil_of_left_ne_nil hfits.ne_nil _

theorem lexes (h : Framed rest t ws) (hrest : Lexes rest us) : Lexes (t ++ rest) (ws ++ us) := by
  induction h with
  | last hfits => exact .token hfits hrest
  | more hfits hgaps _ ih =>
    rw [List.append_assoc, List.append_assoc]
    exact .token hfits (hgaps.lexes ih)

theorem base_eq_name (h : Framed rest t ws) {c : CodePoint} (hc : c ∈ (t ++ rest).head?)
    (hstart : isNameStart c = true) : ∃ w ∈ ws.head?, w.terminal.base = .name := by
  cases h with
  | last hfits => exact ⟨_, rfl, hfits.base_eq_name hc hstart⟩
  | more hfits _ _ =>
    rw [List.append_assoc, List.append_assoc] at hc
    exact ⟨_, rfl, hfits.base_eq_name hc hstart⟩

theorem fits_getLast (h : Framed rest t ws) : ∀ w ∈ ws.getLast?, w.Fits rest := by
  induction h with
  | last hfits =>
    rintro _ ⟨⟩
    exact hfits
  | more _ _ hframed ih =>
    cases hframed with
    | last => exact ih
    | more => exact ih

theorem isNameStart_of_head (h : Framed rest t ws)
    (hname : ∃ name ∈ ws.head?, name.terminal = .name) (u : Text) :
    ∀ c ∈ (t ++ u).head?, isNameStart c = true := by
  have hword {w : Lexeme} {v : Text} (hfits : w.Fits v) (hname : w.terminal = .name) (u : Text) :
      ∀ c ∈ (w.text ++ u).head?, isNameStart c = true := by
    obtain ⟨c, tail, htext, hstart, -⟩ := (hfits.isWord (by rw [hname]; rfl)).1
    rw [htext]
    rintro _ ⟨⟩
    exact hstart
  obtain ⟨name, hmem, hname⟩ := hname
  cases h with
  | last hfits =>
    cases hmem
    exact hword hfits hname u
  | more hfits _ _ =>
    cases hmem
    rw [List.append_assoc]
    exact hword hfits hname _

theorem of_ends (h : Framed rest t ws) (hchain : ws.IsChain Lexeme.Precedes)
    (hends : ∃ w ∈ ws.getLast?, w.Ends) (hrest : ∀ c ∈ rest'.head?, c ∈ breaks) :
    Framed rest' t ws := by
  induction h with
  | last hfits =>
    obtain ⟨_, ⟨⟩, hends⟩ := hends
    exact .last (hfits.of_ends hends hrest)
  | @more w g t ws hfits hgaps hframed ih =>
    have hne := hframed.ne_nil
    have hsame : SameStart (t ++ rest) (t ++ rest') := sameStart_append hne rest rest'
    have hsame' : SameStart (g ++ (t ++ rest)) (g ++ (t ++ rest')) := by
      rw [← List.append_assoc, ← List.append_assoc]
      exact sameStart_append (List.append_ne_nil_of_right_ne_nil g hne) rest rest'
    have hnumber (hterminal : w.terminal = .number) :
        ∀ c ∈ (g ++ (t ++ rest)).head?, isNameStart c = false := by
      by_cases hnil : g = []
      . subst hnil
        intro c hc
        rw [Bool.eq_false_iff]
        intro hstart
        -- There would be a name right behind the number.
        obtain ⟨next, hnext, hbase⟩ := hframed.base_eq_name hc hstart
        exact (List.isChain_cons.mp hchain).1 next hnext hterminal hbase
      . exact hgaps.isNameStart_eq_false hnil _
    have hlast : ∃ w ∈ ws.getLast?, w.Ends := by
      cases hframed with
      | last => exact hends
      | more => exact hends
    exact .more (hfits.of_sameStart hsame' hnumber) (hgaps.of_sameStart hsame)
      (ih hchain.tail hlast)

end Framed

end Expression

end PageBinding
