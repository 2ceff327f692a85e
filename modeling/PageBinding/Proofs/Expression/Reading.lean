import PageBinding.Proofs.Expression.Steps

/-!
This module contains how the parser reads the tokens of each construct. What has been read is
settled as late as possible, so one operand can end in several configurations: they agree on all
that an operator sees whose operand it can be.
-/

namespace PageBinding

namespace Expression

/--
A token can be the name of a property. A word that means something elsewhere counts as that word.
-/
def Token.IsLabel (token : Token) : Prop :=
  token.terminal = .name ∧ (∀ keyword : Keyword, keyword.text ≠ token.text) ∨
    ∃ keyword, token.terminal = .word keyword

def Token.IsKey (token : Token) : Prop :=
  token.IsLabel ∨ token.terminal = .string ∨ token.terminal = .number

/--
Tokens are read as a phrase where an operand of at least the given level is to come. An operand that
binds tighter than every operator stands complete; every other one is settled as soon as what
follows is known.
-/
def Parses (level : Nat) (p : Phrase) (ts : List Token) : Prop :=
  ∀ frames effects, Config.Awaits level frames → ∃ e rest,
    Config.Steps ⟨.operand, frames, effects⟩ ts ⟨.ended e, rest, effects⟩ ∧
    (9 ≤ level → e = p ∧ rest = frames) ∧
    ∀ l ≤ level, Config.settle l e rest = Config.settle l p frames

namespace Parses

open Config

variable {level : Nat} {p q r : Phrase} {ts us vs : List Token} {token : Token}

theorem mono {low high : Nat} (h : Parses high p ts) (hle : low ≤ high) : Parses low p ts := by
  intro frames effects hawaits
  obtain ⟨e, rest, hsteps, hwhole, hsettle⟩ := h frames effects (hawaits.mono hle)
  refine ⟨e, rest, hsteps, ?_, ?_⟩
  . intro hlow
    exact hwhole (by omega)
  . intro l hl
    exact hsettle l (by omega)

theorem of_steps (h : ∀ frames effects,
    Steps ⟨.operand, frames, effects⟩ ts ⟨.ended p, frames, effects⟩) : Parses level p ts :=
  fun frames effects _ => ⟨p, frames, h frames effects, fun _ => ⟨rfl, rfl⟩, fun _ _ => rfl⟩

theorem steps (h : Parses 9 p ts) (frames : List Frame) (effects : List Clause) :
    Steps ⟨.operand, frames, effects⟩ ts ⟨.ended p, frames, effects⟩ := by
  obtain ⟨e, rest, hsteps, hwhole, -⟩ := h frames effects (fun hle => absurd hle (by decide))
  obtain ⟨rfl, rfl⟩ := hwhole (by decide)
  exact hsteps

theorem enclosed (h : Parses 0 p ts) (frame : Frame) (hframe : ∀ level, frame.closes level = false)
    (frames : List Frame) (effects : List Clause) :
    ∃ e rest, Steps ⟨.operand, frame :: frames, effects⟩ ts ⟨.ended e, rest, effects⟩ ∧
      settle 0 e rest = (p, frame :: frames) := by
  -- No operator completes the frame, so what is settled in it stays in it.
  have hhead : ∀ level, ∀ inner ∈ (frame :: frames).head?, inner.closes level = false := by
    intro level inner hmem
    cases hmem
    exact hframe level
  obtain ⟨e, rest, hsteps, -, hsettle⟩ := h (frame :: frames) effects (fun _ => hhead _)
  refine ⟨e, rest, hsteps, ?_⟩
  rw [hsettle 0 (by omega), settle_eq_self (hhead 0)]

theorem number (text : Text) (pos : Position) :
    Parses 9 (.number ⟨.number, text, pos⟩) [⟨.number, text, pos⟩] :=
  of_steps fun _ _ => .single rfl nofun rfl

theorem string (text : Text) (pos : Position) :
    Parses 9 (.string ⟨.string, text, pos⟩) [⟨.string, text, pos⟩] :=
  of_steps fun _ _ => .single rfl nofun rfl

theorem name {text : Text} (htext : ∀ keyword : Keyword, keyword.text ≠ text) (pos : Position) :
    Parses 9 (.name ⟨.name, text, pos⟩) [⟨.name, text, pos⟩] := by
  apply of_steps
  intro frames effects
  exact .step ⟨rfl, fun _ keyword heq => absurd heq (htext keyword)⟩ rfl (.refl _)

theorem bool (b : Bool) (pos : Position) : Parses 9 (.bool b) [(Lexeme.bool b).token pos] := by
  cases b with
  | true => exact of_steps fun _ _ => .single rfl nofun rfl
  | false => exact of_steps fun _ _ => .single rfl nofun rfl

theorem null (pos : Position) : Parses 9 .null [Lexeme.null.token pos] :=
  of_steps fun _ _ => .single rfl nofun rfl

theorem group (h : Parses 0 p ts) (pos pos' : Position) :
    Parses 9 p (Lexeme.leftParen.token pos :: (ts ++ [Lexeme.rightParen.token pos'])) := by
  apply of_steps
  intro frames effects
  obtain ⟨e, rest, hsteps, hsettle⟩ := h.enclosed .group (fun _ => rfl) frames effects
  refine .cons rfl nofun rfl (hsteps.append (.single rfl nofun ?_))
  simp only [step, stepEnded, hsettle]
  rfl

theorem unary (op : UnaryOp) (h : Parses 8 p ts) (pos : Position) :
    Parses 8 (.unary op p) ((Lexeme.unary op).token pos :: ts) := by
  intro frames effects hawaits
  obtain ⟨e, rest, hsteps, -, hsettle⟩ := h (.unary op :: frames) effects (by intro; omega)
  refine ⟨e, rest, ?_, by omega, fun l hl => by rw [hsettle l hl]; rfl⟩
  cases op <;> exact .cons rfl nofun rfl hsteps

theorem binary (op : BinaryOp) (hleft : Parses op.level p ts) (hright : Parses (op.level + 1) q us)
    (pos : Position) :
    Parses op.level (.binary op p q) (ts ++ (Lexeme.binary op).token pos :: us) := by
  have hpos := op.level_pos
  have hle : op.level ≤ 7 := by cases op <;> decide
  intro frames effects hawaits
  obtain ⟨e, rest, hsteps, -, hsettle⟩ := hleft frames effects hawaits
  -- The operator settles what its left operand has left open.
  have hsettled : settle op.level e rest = (p, frames) := by
    rw [hsettle _ (Nat.le_refl _), hawaits.settle_eq hpos hle]
  have hstep : Config.step ⟨.ended e, rest, effects⟩ ((Lexeme.binary op).token pos) =
      some ⟨.operand, .binary op p :: frames, effects⟩ := by
    have htext : BinaryOp.ofText? ((Lexeme.binary op).token pos).text = some op := by
      cases op <;> rfl
    simp only [step, stepEnded, htext, hsettled]
  obtain ⟨e', rest', hsteps', -, hsettle'⟩ := hright (.binary op p :: frames) effects (by
    intro hlt frame hmem
    cases hmem
    simp only [Frame.closes, decide_eq_false_iff_not]
    omega)
  refine ⟨e', rest', hsteps.append ?_, by omega, ?_⟩
  . have hname : (Lexeme.binary op).terminal ≠ .name := by cases op <;> decide
    cases op <;> exact .cons rfl hname hstep hsteps'
  . intro l hl
    rw [hsettle' l (by omega), settle, if_pos hl]

theorem conditional (htest : Parses 1 p ts) (hconsequent : Parses 0 q us)
    (halternate : Parses 0 r vs) (pos pos' : Position) :
    Parses 0 (.conditional p q r)
      (ts ++ Lexeme.question.token pos :: (us ++ Lexeme.colon.token pos' :: vs)) := by
  intro frames effects hawaits
  obtain ⟨e, rest, hsteps, -, hsettle⟩ := htest frames effects (hawaits.mono (by omega))
  -- The test binds tighter than the question mark, which settles it; the colon settles the rest.
  have htested : settle 1 e rest = (p, frames) := by
    rw [hsettle 1 (Nat.le_refl _), (hawaits.mono (by omega)).settle_eq (by omega) (by omega)]
  have hquestion : Config.step ⟨.ended e, rest, effects⟩ (Lexeme.question.token pos) =
      some ⟨.operand, .test p :: frames, effects⟩ := by
    simp only [step, stepEnded, Lexeme.question, Lexeme.token, htested]
    rfl
  obtain ⟨e', rest', hsteps', hsettle'⟩ :=
    hconsequent.enclosed (.test p) (fun _ => rfl) frames effects
  have hcolon : Config.step ⟨.ended e', rest', effects⟩ (Lexeme.colon.token pos') =
      some ⟨.operand, .alternate p q :: frames, effects⟩ := by
    simp only [step, stepEnded, Lexeme.colon, Lexeme.token, hsettle']
    rfl
  obtain ⟨e'', rest'', hsteps'', -, hsettle''⟩ := halternate (.alternate p q :: frames) effects (by
    intro _ frame hmem
    cases hmem
    rfl)
  refine ⟨e'', rest'', hsteps.append (.cons rfl nofun hquestion (hsteps'.append
    (.cons rfl nofun hcolon hsteps''))), by omega, ?_⟩
  intro l hl
  obtain rfl : l = 0 := by omega
  rw [hsettle'' 0 (Nat.le_refl _), settle, if_pos rfl]

theorem member (h : Parses 9 p ts) (optional : Bool) {word : Token} (hword : word.IsLabel)
    (pos : Position) :
    Parses 9 (.member p word.text optional) (ts ++ [(Lexeme.access optional).token pos, word]) := by
  apply of_steps
  intro frames effects
  have hdot : Config.step ⟨.ended p, frames, effects⟩ ((Lexeme.access optional).token pos) =
      some ⟨.member p optional, frames, effects⟩ := by
    cases optional <;> rfl
  have hnamed : Steps ⟨.member p optional, frames, effects⟩ [word]
      ⟨.ended (.member p word.text optional), frames, effects⟩ := by
    obtain ⟨terminal, text, start⟩ := word
    rcases hword with ⟨rfl, htext⟩ | ⟨keyword, rfl⟩
    . exact .step ⟨rfl, fun _ keyword heq => absurd heq (htext keyword)⟩ rfl (.refl _)
    . exact .single rfl nofun rfl
  refine (h.steps frames effects).append ?_
  cases optional <;> exact .cons rfl nofun hdot hnamed

theorem index (h : Parses 9 p ts) (hkey : Parses 0 q us) (pos pos' : Position) :
    Parses 9 (.index p q false)
      (ts ++ Lexeme.leftBracket.token pos :: (us ++ [Lexeme.rightBracket.token pos'])) := by
  apply of_steps
  intro frames effects
  obtain ⟨e, rest, hsteps, hsettle⟩ := hkey.enclosed (.index p false) (fun _ => rfl) frames effects
  refine (h.steps frames effects).append (.cons rfl nofun rfl
    (hsteps.append (.single rfl nofun ?_)))
  simp only [step, stepEnded, hsettle]
  rfl

theorem optionalIndex (h : Parses 9 p ts) (hkey : Parses 0 q us) (pos pos' pos'' : Position) :
    Parses 9 (.index p q true)
      (ts ++ Lexeme.optionalDot.token pos :: Lexeme.leftBracket.token pos' ::
        (us ++ [Lexeme.rightBracket.token pos''])) := by
  apply of_steps
  intro frames effects
  obtain ⟨e, rest, hsteps, hsettle⟩ := hkey.enclosed (.index p true) (fun _ => rfl) frames effects
  refine (h.steps frames effects).append (.cons rfl nofun rfl (.cons rfl nofun rfl
    (hsteps.append (.single rfl nofun ?_))))
  simp only [step, stepEnded, hsettle]
  rfl

end Parses

def ParsesItems (ps : List Phrase) (ts : List Token) : Prop :=
  ∀ items frames effects, Config.Steps ⟨.operand, .array items :: frames, effects⟩ ts
    ⟨.ended (.array (items.reverse ++ ps)), frames, effects⟩

namespace ParsesItems

open Config

variable {p : Phrase} {ps : List Phrase} {ts us : List Token}

theorem close (pos : Position) : ParsesItems [] [Lexeme.rightBracket.token pos] := by
  intro items frames effects
  rw [List.append_nil]
  exact .single rfl nofun rfl

theorem last (h : Parses 0 p ts) (pos : Position) :
    ParsesItems [p] (ts ++ [Lexeme.rightBracket.token pos]) := by
  intro items frames effects
  obtain ⟨e, rest, hsteps, hsettle⟩ := h.enclosed (.array items) (fun _ => rfl) frames effects
  refine hsteps.append (.single rfl nofun ?_)
  simp only [step, stepEnded, hsettle, ← List.reverse_cons]
  rfl

theorem more (h : Parses 0 p ts) (hrest : ParsesItems ps us) (pos : Position) :
    ParsesItems (p :: ps) (ts ++ Lexeme.comma.token pos :: us) := by
  intro items frames effects
  obtain ⟨e, rest, hsteps, hsettle⟩ := h.enclosed (.array items) (fun _ => rfl) frames effects
  have hitems := hrest (p :: items) frames effects
  rw [List.reverse_cons, List.append_assoc, List.singleton_append] at hitems
  refine hsteps.append (.cons rfl nofun ?_ hitems)
  simp only [step, stepEnded, hsettle]
  rfl

theorem array (h : ParsesItems ps ts) (pos : Position) :
    Parses 9 (.array ps) (Lexeme.leftBracket.token pos :: ts) :=
  .of_steps fun frames effects => .cons rfl nofun rfl (h [] frames effects)

end ParsesItems

structure ParsesEntry (entry : PhraseEntry) (ts : List Token) : Prop where
  comma : ∀ entries frames effects pos,
    Config.Steps ⟨.entry entries, frames, effects⟩ (ts ++ [Lexeme.comma.token pos])
      ⟨.entry (entry :: entries), frames, effects⟩
  close : ∀ entries frames effects pos,
    Config.Steps ⟨.entry entries, frames, effects⟩ (ts ++ [Lexeme.rightBrace.token pos])
      ⟨.ended (.object (entry :: entries).reverse), frames, effects⟩

def ParsesEntries (es : List PhraseEntry) (ts : List Token) : Prop :=
  ∀ entries frames effects, Config.Steps ⟨.entry entries, frames, effects⟩ ts
    ⟨.ended (.object (entries.reverse ++ es)), frames, effects⟩

namespace ParsesEntry

open Config

variable {p q : Phrase} {ts us : List Token}

theorem shorthand {text : Text} (htext : ∀ keyword : Keyword, keyword.text ≠ text)
    (pos : Position) : ParsesEntry (.shorthand ⟨.name, text, pos⟩) [⟨.name, text, pos⟩] := by
  constructor
  all_goals
    intro entries frames effects pos'
    exact .step ⟨rfl, fun _ keyword heq => absurd heq (htext keyword)⟩ rfl (.single rfl nofun rfl)

theorem keyed {key : Token} (hkey : key.IsKey) (h : Parses 0 p ts) (pos : Position) :
    ParsesEntry (.keyed key p) (key :: Lexeme.colon.token pos :: ts) := by
  have hsteps (entries : List PhraseEntry) (frames : List Frame) (effects : List Clause) :
      Steps ⟨.entry entries, frames, effects⟩ [key, Lexeme.colon.token pos]
        ⟨.operand, .value entries key :: frames, effects⟩ := by
    obtain ⟨terminal, text, start⟩ := key
    rcases hkey with (⟨rfl, htext⟩ | ⟨keyword, rfl⟩) | rfl | rfl
    . exact .step ⟨rfl, fun _ keyword heq => absurd heq (htext keyword)⟩ rfl (.single rfl nofun rfl)
    all_goals exact .cons rfl nofun rfl (.single rfl nofun rfl)
  constructor
  all_goals
    intro entries frames effects pos'
    obtain ⟨e, rest, hvalue, hsettle⟩ :=
      h.enclosed (.value entries key) (fun _ => rfl) frames effects
    refine (hsteps entries frames effects).append (hvalue.append (.single rfl nofun ?_))
    simp only [step, stepEnded, hsettle]
    rfl

theorem computed (hkey : Parses 0 p ts) (h : Parses 0 q us) (pos pos' pos'' : Position) :
    ParsesEntry (.computed p q)
      (Lexeme.leftBracket.token pos :: (ts ++ [Lexeme.rightBracket.token pos',
        Lexeme.colon.token pos'']) ++ us) := by
  have hsteps (entries : List PhraseEntry) (frames : List Frame) (effects : List Clause) :
      Steps ⟨.entry entries, frames, effects⟩
        (Lexeme.leftBracket.token pos :: (ts ++ [Lexeme.rightBracket.token pos',
          Lexeme.colon.token pos'']))
        ⟨.operand, .computedValue entries p :: frames, effects⟩ := by
    obtain ⟨e, rest, hread, hsettle⟩ :=
      hkey.enclosed (.computedKey entries) (fun _ => rfl) frames effects
    have hbracket : Config.step ⟨.ended e, rest, effects⟩ (Lexeme.rightBracket.token pos') =
        some ⟨.entryBracket entries p, frames, effects⟩ := by
      simp only [step, stepEnded, hsettle]
      rfl
    exact .cons rfl nofun rfl (hread.append (.cons rfl nofun hbracket (.single rfl nofun rfl)))
  constructor
  all_goals
    intro entries frames effects pos'
    obtain ⟨e, rest, hvalue, hsettle⟩ :=
      h.enclosed (.computedValue entries p) (fun _ => rfl) frames effects
    rw [List.append_assoc]
    refine (hsteps entries frames effects).append (hvalue.append (.single rfl nofun ?_))
    simp only [step, stepEnded, hsettle]
    rfl

end ParsesEntry

namespace ParsesEntries

open Config

variable {entry : PhraseEntry} {es : List PhraseEntry} {ts us : List Token}

theorem close (pos : Position) : ParsesEntries [] [Lexeme.rightBrace.token pos] := by
  intro entries frames effects
  rw [List.append_nil]
  exact .single rfl nofun rfl

theorem last (h : ParsesEntry entry ts) (pos : Position) :
    ParsesEntries [entry] (ts ++ [Lexeme.rightBrace.token pos]) := by
  intro entries frames effects
  rw [← List.reverse_cons]
  exact h.close entries frames effects pos

theorem more (h : ParsesEntry entry ts) (hrest : ParsesEntries es us) (pos : Position) :
    ParsesEntries (entry :: es) (ts ++ Lexeme.comma.token pos :: us) := by
  intro entries frames effects
  have hentries := hrest (entry :: entries) frames effects
  rw [List.reverse_cons, List.append_assoc, List.singleton_append] at hentries
  rw [← List.singleton_append, ← List.append_assoc]
  exact (h.comma entries frames effects pos).append hentries

theorem object (h : ParsesEntries es ts) (pos : Position) :
    Parses 9 (.object es) (Lexeme.leftBrace.token pos :: ts) :=
  .of_steps fun frames effects => .cons rfl nofun rfl (h [] frames effects)

end ParsesEntries

end Expression

end PageBinding
