import ArrowLang.Proofs.Formatting

/-!
# ArrowLang.Proofs.Extents

Which lexemes a node of a parsed term was read from.

* `Laid source l ts`: the terms `ts` stand in `l` one after the other, each over lexemes that are a
  program of its own, and there are other lexemes between any two of them. The children of a term
  are laid out in the same way over the lexemes of the term.
* `Spread l p q`: the lexemes start at `p` and stop at `q`.
* `Laid.node_of_mem`: a node of a term that is laid out has its own lexemes among those of the
  term, next to each other.
* `node_of_parse`: what follows for the nodes of a parsed term.
-/

namespace ArrowLang

/-! ## Terms over lexemes -/

inductive Laid (source : String) : List Lexeme → List Term → Prop where
  | nil {l : List Lexeme} : Laid source l []
  | cons {gap l between rest : List Lexeme} {p q : Position} {tree : ParseTree} {layer : Layer Term}
      {ts : List Term} :
      Placed source l p q (.program tree) → tree.term = .node layer (p.spanTo source q) →
      Laid source l layer.children → Laid source rest ts → (ts ≠ [] → between ≠ []) →
      Laid source (gap ++ (l ++ (between ++ rest))) (.node layer (p.spanTo source q) :: ts)

namespace Laid

variable {source : String} {l l₁ l₂ : List Lexeme} {ts us : List Term}

/-- Lexemes around those that the terms stand in do no harm. -/
theorem pad (h : Laid source l ts) (before after : List Lexeme) :
    Laid source (before ++ (l ++ after)) ts := by
  induction h generalizing before with
  | nil => exact .nil
  | @cons gap l between rest p q tree layer ts hp ht hc _ hb _ ih =>
    have h : Laid source ((before ++ gap) ++ (l ++ (between ++ (rest ++ after))))
        (.node layer (p.spanTo source q) :: ts) := .cons hp ht hc (ih []) hb
    simpa only [List.append_assoc] using h

/-- Terms on the two sides of a lexeme. -/
theorem append (h₁ : Laid source l₁ ts) (lx : Lexeme) (h₂ : Laid source l₂ us) :
    Laid source (l₁ ++ lx :: l₂) (ts ++ us) := by
  induction h₁ with
  | @nil l => simpa using h₂.pad (l ++ [lx]) []
  | @cons gap l between rest p q tree layer ts hp ht hc _ hb _ ih =>
    by_cases hts : ts = []
    · -- what was left over on this side belongs to what is between the terms now
      subst hts
      have h : Laid source (gap ++ (l ++ ((between ++ (rest ++ [lx])) ++ l₂)))
          (.node layer (p.spanTo source q) :: us) := .cons hp ht hc h₂ (by simp)
      simpa using h
    · have h : Laid source (gap ++ (l ++ (between ++ (rest ++ lx :: l₂))))
          (.node layer (p.spanTo source q) :: (ts ++ us)) := .cons hp ht hc ih fun _ => hb hts
      simpa using h

/-- A term over all of the lexemes. -/
theorem single {p q : Position} {tree : ParseTree} {layer : Layer Term}
    (hp : Placed source l p q (.program tree)) (ht : tree.term = .node layer (p.spanTo source q))
    (hc : Laid source l layer.children) : Laid source l [tree.term] := by
  have h : Laid source ([] ++ (l ++ ([] ++ []))) [.node layer (p.spanTo source q)] :=
    .cons hp ht hc (.nil (l := [])) (by simp)
  simpa [ht] using h

theorem node {p q : Position} {layer : Layer ParseTree}
    (hp : Placed source l p q (.program (.node layer (p.spanTo source q))))
    (hc : Laid source l (layer.children.map ParseTree.term)) :
    Laid source l [(ParseTree.node layer (p.spanTo source q)).term] := by
  rw [← Layer.children_map] at hc
  exact .single hp (ParseTree.term_node _ _) hc

/-- Each node of the terms stands over lexemes that are next to each other and a program of their
own, and its children are laid out over these. -/
theorem node_of_mem {t u : Term} (h : Laid source l ts) (ht : t ∈ ts) (hu : u ∈ t.preorder) :
    ∃ before mid after p q tree layer, l = before ++ (mid ++ after) ∧
      u = .node layer (p.spanTo source q) ∧ tree.term = u ∧
      Placed source mid p q (.program tree) ∧ Laid source mid layer.children := by
  induction h generalizing t with
  | nil => cases ht
  | @cons gap l between rest p q tree layer ts hp htree hc _ _ ihc ih =>
    rcases List.mem_cons.mp ht with rfl | ht
    · rw [Term.preorder_node, List.mem_cons, List.mem_flatMap] at hu
      rcases hu with rfl | ⟨t, ht, hu⟩
      · exact ⟨gap, l, between ++ rest, p, q, tree, layer, rfl, rfl, htree, hp, hc⟩
      · obtain ⟨before, mid, after, p', q', tree', layer', rfl, hrest⟩ := ihc ht hu
        exact ⟨gap ++ before, mid, after ++ (between ++ rest), p', q', tree', layer', by simp,
          hrest⟩
    · obtain ⟨before, mid, after, p', q', tree', layer', rfl, hrest⟩ := ih ht hu
      exact ⟨gap ++ (l ++ (between ++ before)), mid, after, p', q', tree', layer', by simp, hrest⟩

end Laid

/-! ## Phrases over lexemes -/

theorem Placed.laid {source : String} {l : List Lexeme} {p q : Position} {x : Phrase ParseTree}
    (h : Placed source l p q x) : Laid source l (x.parts.map ParseTree.term) := by
  induction h with
  | expr _ ih | sum _ ih | operand _ ih | atom _ ih | arg _ ih => exact ih
  | statement _ _ ih => exact ih.pad [] _
  | seq ht hsemi hu iht ihu => exact .node (.seq ht hsemi hu) (iht.append _ ihu)
  | const h₁ h₂ h₃ ht hsemi hu iht ihu =>
    refine .node (.const h₁ h₂ h₃ ht hsemi hu) ?_
    simpa [Phrase.parts, Layer.children] using (iht.append _ ihu).pad [_, _, _] []
  | ite hc h₁ ha h₂ hb ihc iha ihb =>
    exact .node (.expr (.ite hc h₁ ha h₂ hb)) (ihc.append _ (iha.append _ ihb))
  | thunk h₁ h₂ h₃ ht ih =>
    refine .node (.expr (.thunk h₁ h₂ h₃ ht)) ?_
    simpa [Phrase.parts, Layer.children] using ih.pad [_, _, _] []
  | @func l₁ _ _ _ _ _ _ _ opener closer arrow h₁ hps h₂ h₃ ht _ iht =>
    refine .node (.expr (.func h₁ hps h₂ h₃ ht)) ?_
    simpa [Phrase.parts, Layer.children] using iht.pad (opener :: (l₁ ++ [closer, arrow])) []
  | add ha hplus hb iha ihb =>
    exact .node (.expr (.sum (.add ha hplus hb))) (iha.append _ ihb)
  | run hf h₁ h₂ ih =>
    exact .node (.expr (.sum (.operand (.run hf h₁ h₂)))) (ih.pad [] _)
  | call hf h₁ hts h₂ ihf ihts =>
    exact .node (.expr (.sum (.operand (.call hf h₁ hts h₂)))) (ihf.append _ (ihts.pad [] _))
  | args _ _ _ iht ihts => exact iht.append _ ihts
  | trueLit h => exact .node (.expr (.sum (.operand (.atom (.trueLit h))))) .nil
  | falseLit h => exact .node (.expr (.sum (.operand (.atom (.falseLit h))))) .nil
  | int h => exact .single (.expr (.sum (.operand (.atom (.int h))))) rfl .nil
  | name h => exact .node (.expr (.sum (.operand (.atom (.name h))))) .nil
  | group _ _ _ ih => exact ih.pad [_] [_]
  | param | params | boolean | number | thunkType | funcType | typeGroup => exact .nil

/-! ## The ends of a phrase -/

/-- The first of the lexemes starts at `p`, and the last stops at `q`. -/
structure Spread (l : List Lexeme) (p q : Position) : Prop where
  start : ∃ lx rest, l = lx :: rest ∧ lx.start = p
  stop : ∃ front lx, l = front ++ [lx] ∧ lx.stop = q

namespace Spread

theorem single (lx : Lexeme) : Spread [lx] lx.start lx.stop :=
  ⟨⟨lx, [], rfl, rfl⟩, ⟨[], lx, rfl, rfl⟩⟩

theorem join {l₁ l₂ : List Lexeme} {p₁ q₁ p₂ q₂ : Position} (h₁ : Spread l₁ p₁ q₁)
    (between : List Lexeme) (h₂ : Spread l₂ p₂ q₂) : Spread (l₁ ++ (between ++ l₂)) p₁ q₂ := by
  obtain ⟨lx, rest, rfl, hstart⟩ := h₁.start
  obtain ⟨front, lx', rfl, hstop⟩ := h₂.stop
  exact ⟨⟨lx, rest ++ (between ++ (front ++ [lx'])), rfl, hstart⟩,
    ⟨(lx :: rest) ++ (between ++ front), lx', by simp, hstop⟩⟩

end Spread

/-- A phrase takes up the stretch from its first lexeme to its last. -/
theorem Placed.spread {source : String} {l : List Lexeme} {p q : Position} {x : Phrase ParseTree}
    (h : Placed source l p q x) : Spread l p q := by
  induction h with
  | expr _ ih | sum _ ih | operand _ ih | atom _ ih | arg _ ih => exact ih
  | statement _ _ ih => exact ih.join [] (.single _)
  | seq _ _ _ iht ihu => exact iht.join [_] ihu
  | @const l₁ _ _ _ _ _ _ _ _ const bound equals semi _ _ _ _ _ _ _ ihu =>
    simpa using (Spread.single const).join (bound :: equals :: (l₁ ++ [semi])) ihu
  | @ite _ l₂ _ _ _ _ _ _ _ _ _ _ question colon _ _ _ _ _ ihc _ ihb =>
    simpa using ihc.join (question :: (l₂ ++ [colon])) ihb
  | thunk _ _ _ _ ih => exact (Spread.single _).join [_, _] ih
  | @func l₁ _ _ _ _ _ _ _ opener closer arrow _ _ _ _ _ _ iht =>
    simpa using (Spread.single opener).join (l₁ ++ [closer, arrow]) iht
  | add _ _ _ iha ihb => exact iha.join [_] ihb
  | run _ _ _ ih => exact ih.join [_] (.single _)
  | @call _ l₂ _ _ _ _ _ _ opener _ _ _ _ _ ihf _ => exact ihf.join (opener :: l₂) (.single _)
  | args _ _ _ iht ihts => exact iht.join [_] ihts
  | trueLit | falseLit | int | name | boolean | number => exact .single _
  | group | typeGroup => exact (Spread.single _).join _ (.single _)
  | param _ _ _ ih => exact (Spread.single _).join [_] ih
  | @params l₁ _ _ _ _ _ _ _ _ bound colon comma _ _ _ _ _ _ ihps =>
    simpa using (Spread.single bound).join (colon :: (l₁ ++ [comma])) ihps
  | thunkType _ _ _ _ ih => exact (Spread.single _).join [_, _] ih
  | @funcType l₁ _ _ _ _ _ _ _ opener closer arrow _ _ _ _ _ _ ihτ =>
    simpa using (Spread.single opener).join (l₁ ++ [closer, arrow]) ihτ

/-! ## Parsed terms -/

theorem placed_of_parse {text : String} {source : Option String} {t : Term}
    (h : parse text source = .ok t) :
    ∃ lxs stop p q tree, Lexes .origin text.toList lxs stop [] ∧ tree.term = t ∧
      Placed (sourceName source) lxs p q (.program tree) ∧
      ∀ lx ∈ lxs, lx.token.excessDigits? = none := by
  obtain ⟨lxs, stop, hlex, _, hfits⟩ := lexes_of_parse h
  obtain ⟨haccepts, _⟩ := (parse_ok_iff hlex.ofText_eq).mp h
  obtain ⟨p, q, tree, hplaced, ht⟩ := Parser.accepts_iff_placed.mp haccepts
  exact ⟨lxs, stop, p, q, tree, hlex, ht, hplaced, hfits⟩

/-- Each node of a parsed term stands over lexemes of the text that are next to each other and a
program of their own, and its children are laid out over these. -/
theorem node_of_parse {text : String} {source : Option String} {t u : Term}
    (h : parse text source = .ok t) (hu : u ∈ t.preorder) :
    ∃ before mid after stop p q tree layer,
      Lexes .origin text.toList (before ++ (mid ++ after)) stop [] ∧
      u = .node layer (p.spanTo (sourceName source) q) ∧ tree.term = u ∧
      Placed (sourceName source) mid p q (.program tree) ∧
      Laid (sourceName source) mid layer.children ∧
      ∀ lx ∈ mid, lx.token.excessDigits? = none := by
  obtain ⟨lxs, stop, _, _, tree, hlex, rfl, hplaced, hfits⟩ := placed_of_parse h
  obtain ⟨before, mid, after, p, q, tree', layer, rfl, hu, htree, hp, hl⟩ :=
    hplaced.laid.node_of_mem (List.mem_singleton_self tree.term) hu
  exact ⟨before, mid, after, stop, p, q, tree', layer, hlex, hu, htree, hp, hl,
    fun lx hlx => hfits lx (by simp [hlx])⟩

end ArrowLang
