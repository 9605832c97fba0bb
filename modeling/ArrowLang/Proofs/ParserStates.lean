import ArrowLang.Proofs.ParserAccepts

/-!
# ArrowLang.Proofs.ParserStates

What the states of the parser stand for, told in terms of the grammar.

* `Around gap frames w`: the tokens `w` lead up to a gap of that kind, and `frames` are the phrases
  that they have begun.
* `Fills gap x frames u`: the tokens `u` lead up to a gap and fill it with the phrase `x`.
* `After s u`: in the state `s` the tokens `u` have been read.
* `Viable u`: some program starts with the tokens `u`.

`After.feed` is the step lemma: reading one more token keeps `After`. A state from which the parser
may finish is one in which a whole program has been read, and in every state some program goes on.
-/

namespace ArrowLang
namespace Parser

/-- What can stand in a gap. An operand can stand wherever an expression can, and an expression
wherever a program can. -/
inductive Gap where
  | program
  | expr
  | operand
  | type

def Owner.gap : Owner → Gap
  | .func _ => .expr
  | .type => .type

/-- The tokens `u`, which end with a comma unless they are none, can stand in front of further
arguments. The newest argument comes first. -/
def ArgsBefore (u : List Token) (args : List ParseTree) : Prop :=
  ∀ (v : List Token) (ts : List Term), Derives v (.args ts) →
    Derives (u ++ v) (.args (args.reverse.map ParseTree.bare ++ ts))

def ParamsBefore (u : List Token) (params : List (Param Ty)) : Prop :=
  ∀ (v : List Token) (ps : List (Param Ty)), Derives v (.params ps) →
    Derives (u ++ v) (.params (params.reverse ++ ps))

/-- A parameter list, which may be empty. -/
def ParamList (v : List Token) (params : List (Param Ty)) : Prop :=
  params = [] ∧ v = [] ∨ Derives v (.params params)

inductive Around : Gap → List Frame → List Token → Prop where
  | start : Around .program [] []
  | ofProgram {frames : List Frame} {w : List Token} :
      Around .program frames w → Around .expr frames w
  | ofExpr {frames : List Frame} {w : List Token} :
      Around .expr frames w → Around .operand frames w
  | sum {left : Piece} {frames : List Frame} {w v : List Token} :
      Around .expr frames w → Derives v (.sum left.tree.bare) →
      Around .operand (.sum left :: frames) (w ++ (v ++ [.symbol .plus]))
  | onTrue {cond : Piece} {frames : List Frame} {w v : List Token} :
      Around .expr frames w → Derives v (.sum cond.tree.bare) →
      Around .expr (.onTrue cond :: frames) (w ++ (v ++ [.symbol .question]))
  | onFalse {cond onTrue : Piece} {frames : List Frame} {w v u : List Token} :
      Around .expr frames w → Derives v (.sum cond.tree.bare) →
      Derives u (.expr onTrue.tree.bare) →
      Around .expr (.onFalse cond onTrue :: frames)
        (w ++ (v ++ .symbol .question :: (u ++ [.symbol .colon])))
  | body {start : Position} {params : List (Param Ty)} {frames : List Frame} {w v : List Token} :
      Around .expr frames w → ParamList v params →
      Around .expr (.body start params :: frames)
        (w ++ .symbol .openParen :: (v ++ [.symbol .closeParen, .symbol .arrow]))
  | argument {callee : Piece} {args : List ParseTree} {frames : List Frame} {w v u : List Token} :
      Around .operand frames w → Derives v (.operand callee.tree.bare) →
      ArgsBefore u args →
      Around .expr (.argument callee args :: frames) (w ++ (v ++ .symbol .openParen :: u))
  | group {start : Position} {frames : List Frame} {w : List Token} :
      Around .operand frames w →
      Around .program (.group start :: frames) (w ++ [.symbol .openParen])
  | rest {first : Piece} {frames : List Frame} {w v : List Token} :
      Around .program frames w → Derives v (.expr first.tree.bare) →
      Around .program (.rest first :: frames) (w ++ (v ++ [.symbol .semicolon]))
  | init {start : Position} {name : String} {frames : List Frame} {w : List Token} :
      Around .program frames w →
      Around .expr (.init start name :: frames)
        (w ++ [.keyword .const, .name name, .symbol .equals])
  | scope {start : Position} {name : String} {init : ParseTree} {frames : List Frame}
      {w v : List Token} :
      Around .program frames w → Derives v (.expr init.bare) →
      Around .program (.scope start name init :: frames)
        (w ++ .keyword .const :: .name name :: .symbol .equals :: (v ++ [.symbol .semicolon]))
  | paramType {owner : Owner} {params : List (Param Ty)} {name : String} {frames : List Frame}
      {w u : List Token} :
      Around owner.gap frames w → ParamsBefore u params →
      Around .type (.paramType owner params name :: frames)
        (w ++ .symbol .openParen :: (u ++ [.name name, .symbol .colon]))
  | result {params : List (Param Ty)} {frames : List Frame} {w v : List Token} :
      Around .type frames w → ParamList v params →
      Around .type (.result params :: frames)
        (w ++ .symbol .openParen :: (v ++ [.symbol .closeParen, .symbol .arrow]))
  | typeGroup {frames : List Frame} {w : List Token} :
      Around .type frames w → Around .type (.typeGroup :: frames) (w ++ [.symbol .openParen])

def Fills (gap : Gap) (x : Phrase Term) (frames : List Frame) (u : List Token) : Prop :=
  ∃ w v, u = w ++ v ∧ Around gap frames w ∧ Derives v x

/-! ## Lists with commas -/

theorem ArgsBefore.nil : ArgsBefore [] [] := fun _ _ h => h

theorem ArgsBefore.cons {u v : List Token} {args : List ParseTree} {t : ParseTree}
    (h : ArgsBefore u args) (ht : Derives v (.expr t.bare)) :
    ArgsBefore (u ++ (v ++ [.symbol .comma])) (t :: args) := by
  intro v' ts hts
  have hrest := h _ _ (Derives.args ht hts)
  simpa using hrest

theorem ParamsBefore.nil : ParamsBefore [] [] := fun _ _ h => h

theorem ParamsBefore.cons {u v : List Token} {params : List (Param Ty)} {name : String} {τ : Ty}
    (h : ParamsBefore u params) (hτ : Derives v (.type τ)) :
    ParamsBefore (u ++ .name name :: .symbol .colon :: (v ++ [.symbol .comma]))
      (⟨name, τ⟩ :: params) := by
  intro v' ps hps
  have hrest := h _ _ (@Derives.params name _ _ _ _ hτ hps)
  simpa using hrest

theorem ParamList.func {v w : List Token} {params : List (Param Ty)} {t : Term}
    (h : ParamList v params) (ht : Derives w (.expr t)) :
    Derives (.symbol .openParen :: (v ++ .symbol .closeParen :: .symbol .arrow :: w))
      (.expr (.bare (.func params t))) := by
  rcases h with ⟨rfl, rfl⟩ | h
  · exact .thunk ht
  · exact .func h ht

theorem ParamList.funcType {v w : List Token} {params : List (Param Ty)} {τ : Ty}
    (h : ParamList v params) (hτ : Derives w (.type τ)) :
    Derives (.symbol .openParen :: (v ++ .symbol .closeParen :: .symbol .arrow :: w))
      (.type (.func params τ)) := by
  rcases h with ⟨rfl, rfl⟩ | h
  · exact .thunkType hτ
  · exact .funcType h hτ

/-! ## Closing phrases -/

@[simp] theorem bare_ofLayer {source : String} (layer : Layer ParseTree) (start stop : Position) :
    (Piece.ofLayer source layer start stop).tree.bare = .bare (layer.map ParseTree.bare) :=
  ParseTree.bare_node layer _

@[simp] theorem bare_ofDigits {source : String} (digits : String) (start stop : Position) :
    (Piece.ofDigits source digits start stop).tree.bare =
      .bare (.number (literalValue digits)) :=
  ParseTree.bare_literal digits _

section Close

variable (source : String) {p : Piece} {frames : List Frame} {u : List Token}

/-- A frame that a program stands in has a gap for programs. -/
theorem Around.of_inProgram {w : List Token} (h : Around .expr frames w)
    (hp : inProgram frames = true) : Around .program frames w := by
  cases h with
  | ofProgram h => exact h
  | _ => cases hp

theorem inProgram_of_closeProgram (h : inProgram (closeProgram source p frames).2 = true) :
    inProgram frames = true := by
  cases frames with
  | nil => rfl
  | cons f frames =>
    cases f with
    | group | rest | scope => rfl
    | _ => exact h

theorem Fills.closeSum (h : Fills .operand (.operand p.tree.bare) frames u) :
    Fills .expr (.sum (closeSum source p frames).1.tree.bare) (closeSum source p frames).2
      u := by
  obtain ⟨w, v, rfl, ha, hd⟩ := h
  unfold Parser.closeSum
  split
  · rename_i left frames
    cases ha with
    | ofExpr ha => cases ha with
      | ofProgram ha => cases ha
    | @sum _ _ w v' ha hl =>
      refine ⟨w, v' ++ .symbol .plus :: v, by simp, ha, ?_⟩
      rw [bare_ofLayer]
      exact .add hl hd
  · rename_i hsum
    cases ha with
    | ofExpr ha => exact ⟨w, v, rfl, ha, .operand hd⟩
    | sum => exact absurd rfl (hsum _ _)

theorem Fills.closeExpr (h : Fills .expr (.expr p.tree.bare) frames u) :
    Fills .expr (.expr (closeExpr source p frames).1.tree.bare) (closeExpr source p frames).2
      u := by
  fun_induction Parser.closeExpr source p frames with
  | case1 p cond onTrue frames ih =>
    obtain ⟨w, v, rfl, ha, hd⟩ := h
    cases ha with
    | ofProgram ha => cases ha
    | @onFalse _ _ _ w v₁ v₂ ha hc ht =>
      refine ih ⟨w, v₁ ++ .symbol .question :: v₂ ++ .symbol .colon :: v, by simp, ha, ?_⟩
      rw [bare_ofLayer]
      exact .ite hc ht hd
  | case2 p start params frames ih =>
    obtain ⟨w, v, rfl, ha, hd⟩ := h
    cases ha with
    | ofProgram ha => cases ha
    | @body _ _ _ w v' ha hps =>
      refine ih ⟨w, .symbol .openParen :: (v' ++ .symbol .closeParen :: .symbol .arrow :: v),
        by simp, ha, ?_⟩
      rw [bare_ofLayer]
      exact hps.func hd
  | case3 => exact h

theorem Fills.closeProgram (h : Fills .program (.program p.tree.bare) frames u) :
    Fills .program (.program (closeProgram source p frames).1.tree.bare)
      (closeProgram source p frames).2 u := by
  fun_induction Parser.closeProgram source p frames with
  | case1 p first frames ih =>
    obtain ⟨w, v, rfl, ha, hd⟩ := h
    cases ha with
    | @rest _ _ w v' ha hf =>
      refine ih ⟨w, v' ++ .symbol .semicolon :: v, by simp, ha, ?_⟩
      rw [bare_ofLayer]
      exact .seq hf hd
  | case2 p start name init frames ih =>
    obtain ⟨w, v, rfl, ha, hd⟩ := h
    cases ha with
    | @scope _ _ _ _ w v' ha hi =>
      refine ih ⟨w, .keyword .const :: .name name :: .symbol .equals :: v' ++
        .symbol .semicolon :: v, by simp, ha, ?_⟩
      rw [bare_ofLayer]
      exact .const hi hd
  | case3 => exact h

theorem Fills.closeType {τ : Ty} (h : Fills .type (.type τ) frames u) :
    Fills .type (.type (closeType τ frames).1) (closeType τ frames).2 u := by
  fun_induction Parser.closeType τ frames with
  | case1 τ params frames ih =>
    obtain ⟨w, v, rfl, ha, hd⟩ := h
    cases ha with
    | @result _ _ w v' ha hps =>
      exact ih ⟨w, .symbol .openParen :: (v' ++ .symbol .closeParen :: .symbol .arrow :: v),
        by simp, ha, hps.funcType hd⟩
  | case2 => exact h

end Close

/-! ## States -/

inductive After : State → List Token → Prop where
  | program {frames : List Frame} {u : List Token} :
      Around .program frames u → After ⟨.program, frames⟩ u
  | expr {frames : List Frame} {u : List Token} :
      Around .expr frames u → After ⟨.expr, frames⟩ u
  | operand {frames : List Frame} {u : List Token} :
      Around .operand frames u → After ⟨.operand, frames⟩ u
  | operandEnd {p : Piece} {frames : List Frame} {u : List Token} :
      Fills .operand (.operand p.tree.bare) frames u → After ⟨.operandEnd p, frames⟩ u
  | statementEnd {p : Piece} {stop : Position} {frames : List Frame} {u : List Token} :
      Fills .program (.expr p.tree.bare) frames u →
      After ⟨.statementEnd p stop, frames⟩ (u ++ [.symbol .semicolon])
  | callOpen {callee : Piece} {frames : List Frame} {u : List Token} :
      Fills .operand (.operand callee.tree.bare) frames u →
      After ⟨.callOpen callee, frames⟩ (u ++ [.symbol .openParen])
  | opened {start : Position} {frames : List Frame} {w : List Token} :
      Around .expr frames w → After ⟨.opened start, frames⟩ (w ++ [.symbol .openParen])
  | openedName {start : Position} {p : Piece} {name : String} {frames : List Frame}
      {w : List Token} :
      Around .expr frames w → p.tree.bare = .bare (.var name) →
      After ⟨.openedName start p name, frames⟩ (w ++ [.symbol .openParen, .name name])
  | constOpen {start : Position} {frames : List Frame} {w : List Token} :
      Around .program frames w → After ⟨.constOpen start, frames⟩ (w ++ [.keyword .const])
  | constName {start : Position} {name : String} {frames : List Frame} {w : List Token} :
      Around .program frames w →
      After ⟨.constName start name, frames⟩ (w ++ [.keyword .const, .name name])
  | paramOpen {owner : Owner} {params : List (Param Ty)} {frames : List Frame} {w u : List Token} :
      Around owner.gap frames w → ParamsBefore u params →
      After ⟨.paramOpen owner params, frames⟩ (w ++ .symbol .openParen :: u)
  | paramName {owner : Owner} {params : List (Param Ty)} {name : String} {frames : List Frame}
      {w u : List Token} :
      Around owner.gap frames w → ParamsBefore u params →
      After ⟨.paramName owner params name, frames⟩
        (w ++ .symbol .openParen :: (u ++ [.name name]))
  | arrow {owner : Owner} {params : List (Param Ty)} {frames : List Frame} {w v : List Token} :
      Around owner.gap frames w → ParamList v params →
      After ⟨.arrow owner params, frames⟩ (w ++ .symbol .openParen :: (v ++ [.symbol .closeParen]))
  | type {frames : List Frame} {u : List Token} :
      Around .type frames u → After ⟨.type, frames⟩ u
  | typeOpen {frames : List Frame} {w : List Token} :
      Around .type frames w → After ⟨.typeOpen, frames⟩ (w ++ [.symbol .openParen])
  | typeEnd {τ : Ty} {frames : List Frame} {u : List Token} :
      Fills .type (.type τ) frames u → After ⟨.typeEnd τ, frames⟩ u

section Feed

variable {source : String} {p : Piece} {frames : List Frame} {u w : List Token} {lx : Lexeme}
  {s : State}

theorem atom?_derives (h : atom? source lx = some p) :
    Derives [lx.token] (.atom p.tree.bare) := by
  unfold atom? at h
  split at h
  · rename_i ht
    cases h
    rw [ht, bare_ofLayer]
    exact .trueLit
  · rename_i ht
    cases h
    rw [ht, bare_ofLayer]
    exact .falseLit
  · rename_i ht
    cases h
    rw [ht, bare_ofDigits]
    exact .int
  · rename_i ht
    cases h
    rw [ht, bare_ofLayer]
    exact .name
  · cases h

theorem Around.feed_atom (ha : Around .operand frames w)
    (h : (atom? source lx).map (fun p => State.mk (.operandEnd p) frames) = some s) :
    After s (w ++ [lx.token]) := by
  obtain ⟨p, hp, rfl⟩ := Option.map_eq_some_iff.mp h
  exact .operandEnd ⟨w, [lx.token], rfl, ha, .atom (atom?_derives hp)⟩

theorem Around.feedOperand (ha : Around .operand frames w)
    (h : feedOperand source frames lx = some s) : After s (w ++ [lx.token]) := by
  unfold Parser.feedOperand at h
  split at h
  · rename_i ht
    cases h
    rw [ht]
    exact .program (.group ha)
  · exact ha.feed_atom h

theorem Around.feedExpr (ha : Around .expr frames w) (h : feedExpr source frames lx = some s) :
    After s (w ++ [lx.token]) := by
  unfold Parser.feedExpr at h
  split at h
  · rename_i ht
    cases h
    rw [ht]
    exact .opened ha
  · exact ha.ofExpr.feed_atom h

theorem Around.feedProgram (ha : Around .program frames w)
    (h : feedProgram source frames lx = some s) : After s (w ++ [lx.token]) := by
  unfold Parser.feedProgram at h
  split at h
  · rename_i ht
    cases h
    rw [ht]
    exact .constOpen ha
  · exact ha.ofProgram.feedExpr h

theorem Fills.closeGroup (hf : Fills .program (.program p.tree.bare) frames u)
    (hlx : lx.token = .symbol .closeParen) (h : closeGroup source p frames lx = some s) :
    After s (u ++ [lx.token]) := by
  have hc := hf.closeProgram source
  unfold Parser.closeGroup at h
  split at h
  · rename_i q start frames' heq
    cases h
    rw [heq] at hc
    obtain ⟨w, v, rfl, ha, hd⟩ := hc
    cases ha with
    | @group _ _ w ha =>
      refine .operandEnd ⟨w, .symbol .openParen :: v ++ [.symbol .closeParen], ?_, ha,
        .atom (.group hd)⟩
      simp [hlx]
  · cases h

theorem Fills.feedExprEnd (hf : Fills .expr (.expr p.tree.bare) frames u)
    (h : feedExprEnd source p frames lx = some s) : After s (u ++ [lx.token]) := by
  have hc := hf.closeExpr source
  unfold Parser.feedExprEnd at h
  generalize Parser.closeExpr source p frames = closed at h hc
  obtain ⟨q, around⟩ := closed
  obtain ⟨w, v, rfl, ha, hd⟩ := hc
  split at h
  · -- the `:` of a conditional
    rename_i ht heq
    cases h
    cases heq
    cases ha with
    | ofProgram ha => cases ha
    | onTrue ha hcond => simpa [ht] using After.expr (.onFalse ha hcond hd)
  · -- the next argument
    rename_i ht heq
    cases h
    cases heq
    cases ha with
    | ofProgram ha => cases ha
    | argument ha hcallee hargs =>
      simpa [ht] using After.expr (.argument ha hcallee (hargs.cons hd))
  · -- the end of a call
    rename_i callee args _ ht heq
    cases h
    cases heq
    cases ha with
    | ofProgram ha => cases ha
    | @argument _ _ _ w v' u ha hcallee hargs =>
      refine .operandEnd ⟨w, v' ++ .symbol .openParen :: (u ++ v) ++ [.symbol .closeParen],
        by simp [ht], ha, ?_⟩
      rw [bare_ofLayer]
      simpa [Layer.map] using Derives.call hcallee (hargs _ _ (.arg hd))
  · -- the `;` of a binding
    rename_i ht heq
    cases h
    cases heq
    cases ha with
    | ofProgram ha => cases ha
    | init ha => simpa [ht] using After.program (.scope ha hd)
  · -- the `;` of a statement
    rename_i ht heq
    cases heq
    split at h
    · rename_i hin
      cases h
      rw [ht]
      exact .statementEnd ⟨w, v, rfl, ha.of_inProgram hin, hd⟩
    · cases h
  · -- the end of a group
    rename_i ht heq
    cases heq
    have hin : inProgram around = true := by
      unfold Parser.closeGroup at h
      split at h
      · rename_i hclose
        exact inProgram_of_closeProgram source (by rw [hclose]; rfl)
      · cases h
    have hfill : Fills .program (.program q.tree.bare) around (w ++ v) :=
      ⟨w, v, rfl, ha.of_inProgram hin, .expr hd⟩
    exact hfill.closeGroup ht h
  · cases h

theorem Fills.feedOperandEnd (hf : Fills .operand (.operand p.tree.bare) frames u)
    (h : feedOperandEnd source p frames lx = some s) : After s (u ++ [lx.token]) := by
  obtain ⟨w, v, hu, ha, hd⟩ := hf.closeSum source
  unfold Parser.feedOperandEnd at h
  split at h
  · rename_i ht
    cases h
    rw [ht]
    exact .callOpen hf
  · rename_i ht
    cases h
    rw [hu, ht, List.append_assoc]
    exact .operand (.sum ha hd)
  · rename_i ht
    cases h
    rw [hu, ht, List.append_assoc]
    exact .expr (.onTrue ha hd)
  · have hexpr : Fills .expr (.expr (Parser.closeSum source p frames).1.tree.bare)
        (Parser.closeSum source p frames).2 u := ⟨w, v, hu, ha, .sum hd⟩
    exact hexpr.feedExprEnd h

theorem Around.feedType (ha : Around .type frames w) (h : feedType frames lx = some s) :
    After s (w ++ [lx.token]) := by
  unfold Parser.feedType at h
  split at h
  · rename_i ht
    cases h
    rw [ht]
    exact .typeEnd ⟨w, _, rfl, ha, .boolean⟩
  · rename_i ht
    cases h
    rw [ht]
    exact .typeEnd ⟨w, _, rfl, ha, .number⟩
  · rename_i ht
    cases h
    rw [ht]
    exact .typeOpen ha
  · cases h

theorem Fills.feedTypeEnd {τ : Ty} (hf : Fills .type (.type τ) frames u)
    (h : feedTypeEnd τ frames lx = some s) : After s (u ++ [lx.token]) := by
  have hc := hf.closeType
  unfold Parser.feedTypeEnd at h
  generalize Parser.closeType τ frames = closed at h hc
  obtain ⟨υ, around⟩ := closed
  obtain ⟨w, v, rfl, ha, hd⟩ := hc
  split at h
  · rename_i ht heq
    cases h
    cases heq
    cases ha with
    | @typeGroup _ w ha =>
      exact .typeEnd ⟨w, .symbol .openParen :: v ++ [.symbol .closeParen], by simp [ht], ha,
        .typeGroup hd⟩
  · rename_i ht heq
    cases h
    cases heq
    cases ha with
    | paramType ha hps => simpa [ht] using After.paramOpen ha (hps.cons hd)
  · rename_i owner params name _ ht heq
    cases h
    cases heq
    cases ha with
    | paramType ha hps =>
      have hlist : ParamList _ (⟨name, υ⟩ :: params).reverse :=
        .inr (by simpa using hps _ _ (@Derives.param name _ _ hd))
      simpa [ht] using After.arrow ha hlist
  · cases h

/-- Reading one more token. -/
theorem After.feed (hs : After s u) {s' : State} (h : feed source s lx = some s') :
    After s' (u ++ [lx.token]) := by
  cases hs with
  | program ha => exact ha.feedProgram h
  | expr ha => exact ha.feedExpr h
  | operand ha => exact ha.feedOperand h
  | operandEnd hf => exact hf.feedOperandEnd h
  | @statementEnd p stop frames u hf =>
    obtain ⟨w, v, rfl, ha, hd⟩ := hf
    simp only [Parser.feed] at h
    split at h
    · rename_i ht
      have hfill : Fills .program (.program { p with stop }.tree.bare) frames
          (w ++ v ++ [.symbol .semicolon]) :=
        ⟨w, v ++ [.symbol .semicolon], by simp, ha, .statement hd⟩
      exact hfill.closeGroup ht h
    · rw [List.append_assoc w v]
      exact (Around.rest ha hd).feedProgram h
  | @callOpen callee frames u hf =>
    obtain ⟨w, v, rfl, ha, hd⟩ := hf
    simp only [Parser.feed] at h
    split at h
    · rename_i ht
      cases h
      refine .operandEnd ⟨w, v ++ [.symbol .openParen, .symbol .closeParen], by simp [ht], ha, ?_⟩
      rw [bare_ofLayer]
      exact .run hd
    · rw [List.append_assoc w v]
      exact (Around.argument ha hd .nil).feedExpr h
  | @opened start frames w ha =>
    -- only the next token can tell a parameter list from a group, and a name does not
    simp only [Parser.feed] at h
    split at h
    · rename_i ht
      cases h
      simpa [ht] using @After.arrow (.func start) _ _ _ _ ha (.inl ⟨rfl, rfl⟩)
    · rename_i ht
      cases h
      simpa [ht] using After.openedName ha (bare_ofLayer _ _ _)
    · exact (Around.group ha.ofExpr).feedProgram h
  | @openedName start p name frames w ha hp =>
    simp only [Parser.feed] at h
    split at h
    · rename_i ht
      cases h
      simpa [ht] using After.type (@Around.paramType (.func start) _ name _ _ _ ha .nil)
    · -- without a `:` the name was the first operand of a group
      have hfill : Fills .operand (.operand p.tree.bare) (.group start :: frames)
          (w ++ [.symbol .openParen, .name name]) := by
        refine ⟨w ++ [.symbol .openParen], [.name name], by simp,
          .ofExpr (.ofProgram (.group ha.ofExpr)), ?_⟩
        rw [hp]
        exact .atom .name
      exact hfill.feedOperandEnd h
  | constOpen ha =>
    simp only [Parser.feed] at h
    split at h
    · rename_i ht
      cases h
      simpa [ht] using After.constName ha
    · cases h
  | constName ha =>
    simp only [Parser.feed] at h
    split at h
    · rename_i ht
      cases h
      simpa [ht] using After.expr (.init ha)
    · cases h
  | paramOpen ha hps =>
    simp only [Parser.feed] at h
    split at h
    · rename_i ht
      cases h
      simpa [ht] using After.paramName ha hps
    · cases h
  | paramName ha hps =>
    simp only [Parser.feed] at h
    split at h
    · rename_i ht
      cases h
      simpa [ht] using After.type (.paramType ha hps)
    · cases h
  | @arrow owner params frames w v ha hps =>
    simp only [Parser.feed] at h
    split at h
    · rename_i ht
      cases h
      simpa [ht] using After.expr (.body ha hps)
    · rename_i ht
      cases h
      simpa [ht] using After.type (.result ha hps)
    · cases h
  | type ha => exact ha.feedType h
  | typeOpen ha =>
    simp only [Parser.feed] at h
    split at h
    · rename_i ht
      cases h
      simpa [ht] using @After.arrow .type _ _ _ _ ha (.inl ⟨rfl, rfl⟩)
    · rename_i name ht
      cases h
      simpa [ht] using @After.paramName .type _ name _ _ _ ha .nil
    · exact (Around.typeGroup ha).feedType h
  | typeEnd hf => exact hf.feedTypeEnd h

theorem After.feedAll {lxs : List Lexeme} (hs : After s u) {s' : State}
    (h : feedAll source s lxs = .ok s') : After s' (u ++ lxs.map Lexeme.token) := by
  induction lxs generalizing s u with
  | nil =>
    cases h
    simpa using hs
  | cons lx lxs ih =>
    unfold Parser.feedAll at h
    split at h
    · rename_i hf
      simpa using ih (hs.feed hf) h
    · cases h

end Feed

/-! ## Ends -/

section Finish

variable {source : String} {p : Piece} {frames : List Frame} {u : List Token} {t : ParseTree}

theorem Fills.closeAll (hf : Fills .program (.program p.tree.bare) frames u)
    (h : closeAll source p frames = some t) : Derives u (.program t.bare) := by
  have hc := hf.closeProgram source
  unfold Parser.closeAll at h
  split at h
  · rename_i hclose
    cases h
    rw [hclose] at hc
    obtain ⟨w, v, rfl, ha, hd⟩ := hc
    cases ha
    exact hd
  · cases h

/-- Where the parser may finish, a program has been read. -/
theorem After.finish {s : State} (hs : After s u) (h : finish source s = some t) :
    Derives u (.program t.bare) := by
  cases hs with
  | @operandEnd p frames u hf =>
    obtain ⟨w, v, hu, ha, hd⟩ := hf.closeSum source
    have hsum : Fills .expr (.expr (closeSum source p frames).1.tree.bare)
        (closeSum source p frames).2 u := ⟨w, v, hu, ha, .sum hd⟩
    obtain ⟨w', v', hu', ha', hd'⟩ := hsum.closeExpr source
    simp only [Parser.finish] at h
    generalize closeExpr source (closeSum source p frames).1 (closeSum source p frames).2 = closed
      at h ha' hd'
    obtain ⟨q, around⟩ := closed
    have hin : inProgram around = true := by
      unfold Parser.closeAll at h
      split at h
      · rename_i hclose
        exact inProgram_of_closeProgram source (by rw [hclose]; rfl)
      · cases h
    have hfill : Fills .program (.program q.tree.bare) around u :=
      ⟨w', v', hu', ha'.of_inProgram hin, .expr hd'⟩
    exact hfill.closeAll h
  | @statementEnd p stop frames u hf =>
    obtain ⟨w, v, rfl, ha, hd⟩ := hf
    have hfill : Fills .program (.program { p with stop }.tree.bare) frames
        (w ++ v ++ [.symbol .semicolon]) :=
      ⟨w, v ++ [.symbol .semicolon], by simp, ha, .statement hd⟩
    exact hfill.closeAll h
  | _ => cases h

end Finish

/-! ## Going on -/

def Viable (u : List Token) : Prop := ∃ v t, Derives (u ++ v) (.program t)

theorem Viable.of_append {u v : List Token} (h : Viable (u ++ v)) : Viable u := by
  obtain ⟨v', t, h⟩ := h
  exact ⟨v ++ v', t, by simpa using h⟩

/-- The tokens are a phrase that fits into the gap. -/
def Gap.Takes : Gap → List Token → Prop
  | .program, v => ∃ t, Derives v (.program t)
  | .expr, v => ∃ t, Derives v (.expr t)
  | .operand, v => ∃ t, Derives v (.operand t)
  | .type, v => ∃ τ, Derives v (.type τ)

/-- The simplest operand. -/
abbrev filler : List Token := [.name "x"]

theorem filler_operand : Derives filler (.operand (.bare (.var "x"))) := .atom .name

theorem filler_expr : Derives filler (.expr (.bare (.var "x"))) := .sum (.operand filler_operand)

theorem filler_program : Derives filler (.program (.bare (.var "x"))) := .expr filler_expr

/-- What may follow the arrow of a parameter list. -/
def Owner.filler : Owner → List Token
  | .func _ => Parser.filler
  | .type => [.keyword .number]

theorem ParamList.takes {v : List Token} {params : List (Param Ty)} (h : ParamList v params)
    (owner : Owner) :
    owner.gap.Takes (.symbol .openParen :: (v ++ .symbol .closeParen :: .symbol .arrow ::
      owner.filler)) := by
  cases owner with
  | func start => exact ⟨_, h.func filler_expr⟩
  | type => exact ⟨_, h.funcType .number⟩

/-- Whatever fits into the gap can be read next. Each frame is closed in the simplest way. -/
theorem Around.viable {gap : Gap} {frames : List Frame} {w : List Token}
    (h : Around gap frames w) : ∀ v, gap.Takes v → Viable (w ++ v) := by
  induction h with
  | start =>
    rintro v ⟨t, ht⟩
    exact ⟨[], t, by simpa using ht⟩
  | ofProgram _ ih =>
    rintro v ⟨t, ht⟩
    exact ih v ⟨t, .expr ht⟩
  | ofExpr _ ih =>
    rintro v ⟨t, ht⟩
    exact ih v ⟨t, .sum (.operand ht)⟩
  | sum _ hl ih =>
    rintro v ⟨t, ht⟩
    simpa using ih _ ⟨_, .sum (.add hl ht)⟩
  | onTrue _ hc ih =>
    rintro v ⟨t, ht⟩
    have hwhole := ih _ ⟨_, .ite hc ht filler_expr⟩
    exact .of_append (v := .symbol .colon :: filler) (by simpa using hwhole)
  | onFalse _ hc ha ih =>
    rintro v ⟨t, ht⟩
    simpa using ih _ ⟨_, .ite hc ha ht⟩
  | body _ hps ih =>
    rintro v ⟨t, ht⟩
    simpa using ih _ ⟨_, hps.func ht⟩
  | argument _ hcallee hargs ih =>
    rintro v ⟨t, ht⟩
    have hwhole := ih _ ⟨_, .call hcallee (hargs _ _ (.arg ht))⟩
    exact .of_append (v := [.symbol .closeParen]) (by simpa using hwhole)
  | group _ ih =>
    rintro v ⟨t, ht⟩
    have hwhole := ih _ ⟨_, .atom (.group ht)⟩
    exact .of_append (v := [.symbol .closeParen]) (by simpa using hwhole)
  | rest _ hf ih =>
    rintro v ⟨t, ht⟩
    simpa using ih _ ⟨_, .seq hf ht⟩
  | @init start name frames w _ ih =>
    rintro v ⟨t, ht⟩
    have hwhole := ih _ ⟨_, @Derives.const name _ _ _ _ ht filler_program⟩
    exact .of_append (v := .symbol .semicolon :: filler) (by simpa using hwhole)
  | @scope start name init frames w v₁ _ hi ih =>
    rintro v ⟨t, ht⟩
    simpa using ih _ ⟨_, @Derives.const name _ _ _ _ hi ht⟩
  | @paramType owner params name frames w u _ hps ih =>
    rintro v ⟨τ, hτ⟩
    have hlist : ParamList (u ++ .name name :: .symbol .colon :: v) _ :=
      .inr (hps _ _ (.param hτ))
    have hwhole := ih _ (hlist.takes owner)
    exact .of_append (v := .symbol .closeParen :: .symbol .arrow :: owner.filler)
      (by simpa using hwhole)
  | result _ hps ih =>
    rintro v ⟨τ, hτ⟩
    simpa using ih _ ⟨_, hps.funcType hτ⟩
  | typeGroup _ ih =>
    rintro v ⟨τ, hτ⟩
    have hwhole := ih _ ⟨_, .typeGroup hτ⟩
    exact .of_append (v := [.symbol .closeParen]) (by simpa using hwhole)

/-- In every state some program goes on. -/
theorem After.viable {s : State} {u : List Token} (h : After s u) : Viable u := by
  cases h with
  | program ha => exact (ha.viable _ ⟨_, filler_program⟩).of_append
  | expr ha => exact (ha.viable _ ⟨_, filler_expr⟩).of_append
  | operand ha => exact (ha.viable _ ⟨_, filler_operand⟩).of_append
  | operandEnd hf =>
    obtain ⟨w, v, rfl, ha, hd⟩ := hf
    exact ha.viable v ⟨_, hd⟩
  | statementEnd hf =>
    obtain ⟨w, v, rfl, ha, hd⟩ := hf
    simpa using ha.viable _ ⟨_, .statement hd⟩
  | callOpen hf =>
    obtain ⟨w, v, rfl, ha, hd⟩ := hf
    have hwhole := ha.viable _ ⟨_, .run hd⟩
    exact .of_append (v := [.symbol .closeParen]) (by simpa using hwhole)
  | opened ha =>
    have hwhole := ha.viable _ ⟨_, .thunk filler_expr⟩
    exact .of_append (v := .symbol .closeParen :: .symbol .arrow :: filler) (by simpa using hwhole)
  | @openedName start p name frames w ha _ =>
    have hname : Derives [.name name] (.program (.bare (.var name))) :=
      .expr (.sum (.operand (.atom .name)))
    have hwhole := ha.ofExpr.viable _ ⟨_, .atom (.group hname)⟩
    exact .of_append (v := [.symbol .closeParen]) (by simpa using hwhole)
  | constOpen ha =>
    have hwhole := ha.viable _ ⟨_, @Derives.const "x" _ _ _ _ filler_expr filler_program⟩
    exact .of_append (v := .name "x" :: .symbol .equals :: filler ++ .symbol .semicolon :: filler)
      (by simpa using hwhole)
  | @constName start name frames w ha =>
    have hwhole := ha.viable _ ⟨_, @Derives.const name _ _ _ _ filler_expr filler_program⟩
    exact .of_append (v := .symbol .equals :: filler ++ .symbol .semicolon :: filler)
      (by simpa using hwhole)
  | @paramOpen owner params frames w u ha hps =>
    have hlist : ParamList (u ++ [.name "x", .symbol .colon, .keyword .number]) _ :=
      .inr (hps _ _ (.param .number))
    have hwhole := ha.viable _ (hlist.takes owner)
    exact .of_append (v := .name "x" :: .symbol .colon :: .keyword .number ::
      .symbol .closeParen :: .symbol .arrow :: owner.filler) (by simpa using hwhole)
  | @paramName owner params name frames w u ha hps =>
    have hlist : ParamList (u ++ [.name name, .symbol .colon, .keyword .number]) _ :=
      .inr (hps _ _ (.param .number))
    have hwhole := ha.viable _ (hlist.takes owner)
    exact .of_append (v := .symbol .colon :: .keyword .number ::
      .symbol .closeParen :: .symbol .arrow :: owner.filler) (by simpa using hwhole)
  | @arrow owner params frames w v ha hps =>
    have hwhole := ha.viable _ (hps.takes owner)
    exact .of_append (v := .symbol .arrow :: owner.filler) (by simpa using hwhole)
  | type ha => exact (ha.viable _ ⟨_, .number⟩).of_append
  | typeOpen ha =>
    have hwhole := ha.viable _ ⟨_, .thunkType .number⟩
    exact .of_append (v := [.symbol .closeParen, .symbol .arrow, .keyword .number])
      (by simpa using hwhole)
  | typeEnd hf =>
    obtain ⟨w, v, rfl, ha, hd⟩ := hf
    exact ha.viable v ⟨_, hd⟩

end Parser
end ArrowLang
