import ArrowLang.Proofs.PlacedGrammar

/-!
# ArrowLang.Proofs.ParserAccepts

The parser accepts every phrase of the grammar, with what the phrase stands for where it stands.

* `Reaches`: reading lexemes leads from one state to another.
* `Ready`: the states in which a phrase of some level may start. The frames that the phrase will
  stand in are not always on the stack yet: after a `(` it is open for one more token whether a
  function or a group has begun.
* `Ended s p frames`: in the state `s` the operand `p` has been read, with `frames` around it.
* `Reads`: what it means that lexemes are read as a phrase, for each kind of phrase.

A phrase that has been read may be left with further phrases that end together with it. What counts
is what they are when they are closed, so `Reads` speaks of `settle`, `closeProgram` and `closeType`
and not of the frames as they are.
-/

namespace ArrowLang

namespace Parser

/-! ## Reading lexemes -/

def Reaches (source : String) (s : State) (lxs : List Lexeme) (s' : State) : Prop :=
  feedAll source s lxs = .ok s'

theorem Reaches.step {source : String} {s s' s'' : State} {lx : Lexeme} {lxs : List Lexeme}
    (h : feed source s lx = some s') (hr : Reaches source s' lxs s'') :
    Reaches source s (lx :: lxs) s'' := by
  simp only [Reaches, feedAll, h]
  exact hr

theorem Reaches.single {source : String} {s s' : State} {lx : Lexeme}
    (h : feed source s lx = some s') : Reaches source s [lx] s' := .step h rfl

theorem Reaches.trans {source : String} {s s' s'' : State} {l₁ l₂ : List Lexeme}
    (h₁ : Reaches source s l₁ s') (h₂ : Reaches source s' l₂ s'') :
    Reaches source s (l₁ ++ l₂) s'' := by
  induction l₁ generalizing s with
  | nil => cases h₁; exact h₂
  | cons lx l₁ ih =>
    simp only [Reaches, feedAll] at h₁
    split at h₁
    · rename_i hf; exact .step hf (ih h₁)
    · cases h₁

/-! ## Where a phrase starts -/

/-- The gap that is open is the right operand of a `+`. -/
def sumOpen : List Frame → Bool
  | .sum _ :: _ => true
  | _ => false

/-- How much may start: an operand, an expression, or a whole program. -/
inductive Level where
  | operand
  | expr
  | program

/-- In the state `s` a phrase of that level may start, and `frames` will be around it. -/
inductive Ready : Level → State → List Frame → Prop where
  | operand {frames : List Frame} : Ready .operand ⟨.operand, frames⟩ frames
  | expr {frames : List Frame} : sumOpen frames = false → Ready .expr ⟨.expr, frames⟩ frames
  | callOpen {callee : Piece} {frames : List Frame} :
      Ready .expr ⟨.callOpen callee, frames⟩ (.argument callee [] :: frames)
  | program {frames : List Frame} :
      inProgram frames = true → Ready .program ⟨.program, frames⟩ frames
  | opened {start : Position} {frames : List Frame} :
      Ready .program ⟨.opened start, frames⟩ (.group start :: frames)
  | statementEnd {p : Piece} {stop : Position} {frames : List Frame} :
      Ready .program ⟨.statementEnd p stop, frames⟩ (.rest p :: frames)

/-- In the state `s` a parameter may start, after the parameters `done`, newest first. -/
inductive ReadyParam : Owner → List (Param Ty) → State → List Frame → Prop where
  | opened {start : Position} {frames : List Frame} :
      ReadyParam (.func start) [] ⟨.opened start, frames⟩ frames
  | typeOpen {frames : List Frame} : ReadyParam .type [] ⟨.typeOpen, frames⟩ frames
  | paramOpen {owner : Owner} {done : List (Param Ty)} {frames : List Frame} :
      ReadyParam owner done ⟨.paramOpen owner done, frames⟩ frames

inductive ReadyType : State → List Frame → Prop where
  | type {frames : List Frame} : ReadyType ⟨.type, frames⟩ frames
  | typeOpen {frames : List Frame} : ReadyType ⟨.typeOpen, frames⟩ (.typeGroup :: frames)

theorem sumOpen_of_inProgram {frames : List Frame} (h : inProgram frames = true) :
    sumOpen frames = false := by
  unfold sumOpen
  split
  · cases h
  · rfl

theorem Ready.inProgram {s : State} {frames : List Frame} (hs : Ready .program s frames) :
    inProgram frames = true := by
  cases hs with
  | program h => exact h
  | opened => rfl
  | statementEnd => rfl

theorem Ready.sumOpen {level : Level} {s : State} {frames : List Frame}
    (hs : Ready level s frames) (hl : level ≠ .operand) : sumOpen frames = false := by
  cases hs with
  | operand => exact absurd rfl hl
  | expr h => exact h
  | callOpen => rfl
  | program h => exact sumOpen_of_inProgram h
  | opened => rfl
  | statementEnd => rfl

/-! ## Where a phrase ends -/

/-- The operand `p` has been read. A name right after a `(` counts as read although it may turn out
to be that of a parameter. -/
inductive Ended : State → Piece → List Frame → Prop where
  | operand {p : Piece} {frames : List Frame} : Ended ⟨.operandEnd p, frames⟩ p frames
  | name {start : Position} {p : Piece} {text : String} {frames : List Frame} :
      Ended ⟨.openedName start p text, frames⟩ p (.group start :: frames)

/-- Closes the sum and the expressions that end with the operand `p`. -/
def settle (source : String) (p : Piece) (frames : List Frame) : Piece × List Frame :=
  closeExpr source (closeSum source p frames).1 (closeSum source p frames).2

/-- The program `p` has been read, as far as its last statement. -/
inductive ProgramEnded (source : String) : State → Piece → List Frame → Prop where
  | expr {s : State} {p q : Piece} {frames frames' : List Frame} :
      Ended s p frames → settle source p frames = (q, frames') → ProgramEnded source s q frames'
  | statement {p : Piece} {stop : Position} {frames : List Frame} :
      ProgramEnded source ⟨.statementEnd p stop, frames⟩ { p with stop } frames

variable {source : String} {s : State} {frames : List Frame}

theorem closeSum_of_not_sumOpen (h : sumOpen frames = false) (p : Piece) :
    closeSum source p frames = (p, frames) := by
  unfold closeSum
  split
  · cases h
  · rfl

theorem closeExpr_of_inProgram (h : inProgram frames = true) (p : Piece) :
    closeExpr source p frames = (p, frames) := by
  unfold closeExpr
  split
  · cases h
  · cases h
  · rfl

/-! ## One token -/

section Feed

variable {lx : Lexeme} {level : Level} {p q : Piece} {around : List Frame}

theorem feed_atom (hs : Ready level s frames) (ha : atom? source lx = some p) :
    ∃ s', feed source s lx = some s' ∧ Ended s' p frames := by
  unfold atom? at ha
  split at ha <;> cases ha <;> cases hs <;>
    simp [feed, feedOperand, feedExpr, feedProgram, atom?, *] <;> constructor

theorem feed_openParen (hs : Ready level s frames) (hlx : lx.token = .symbol .openParen) :
    ∃ s', feed source s lx = some s' ∧ Ready .program s' (.group lx.start :: frames) := by
  cases hs with
  | operand => exact ⟨⟨.program, _⟩, by simp [feed, feedOperand, hlx], .program rfl⟩
  | _ => exact ⟨⟨.opened lx.start, _⟩, by simp [feed, feedExpr, feedProgram, hlx], .opened⟩

theorem feed_opened (hs : Ready level s frames) (hl : level ≠ .operand)
    (hlx : lx.token = .symbol .openParen) :
    feed source s lx = some ⟨.opened lx.start, frames⟩ := by
  cases hs with
  | operand => exact absurd rfl hl
  | _ => simp [feed, feedExpr, feedProgram, hlx]

theorem feed_const (hs : Ready .program s frames) (hlx : lx.token = .keyword .const) :
    feed source s lx = some ⟨.constOpen lx.start, frames⟩ := by
  cases hs <;> simp [feed, feedProgram, hlx]

/-- After an operand only a `:` depends on how the operand was read. -/
theorem Ended.feed (hs : Ended s p frames) (hlx : lx.token ≠ .symbol .colon) :
    feed source s lx = feedOperandEnd source p frames lx := by
  cases hs with
  | operand => rfl
  | name =>
    simp only [Parser.feed]

theorem Ended.feed_call (hs : Ended s p frames) (hlx : lx.token = .symbol .openParen) :
    Parser.feed source s lx = some ⟨.callOpen p, frames⟩ := by
  rw [hs.feed (by simp [hlx])]
  simp [feedOperandEnd, hlx]

theorem Ended.feed_plus (hs : Ended s p frames) (hc : closeSum source p frames = (q, around))
    (hlx : lx.token = .symbol .plus) :
    Parser.feed source s lx = some ⟨.operand, .sum q :: around⟩ := by
  rw [hs.feed (by simp [hlx])]
  simp [feedOperandEnd, hlx, hc]

theorem Ended.feed_question (hs : Ended s p frames) (hc : closeSum source p frames = (q, around))
    (hlx : lx.token = .symbol .question) :
    Parser.feed source s lx = some ⟨.expr, .onTrue q :: around⟩ := by
  rw [hs.feed (by simp [hlx])]
  simp [feedOperandEnd, hlx, hc]

theorem Ended.feed_end (hs : Ended s p frames)
    (hlx : lx.token = .symbol .comma ∨ lx.token = .symbol .closeParen ∨
      lx.token = .symbol .semicolon) :
    Parser.feed source s lx = feedExprEnd source (closeSum source p frames).1
      (closeSum source p frames).2 lx := by
  rcases hlx with hlx | hlx | hlx <;>
  · rw [hs.feed (by simp [hlx])]
    simp [feedOperandEnd, hlx]

theorem Ended.feed_comma {callee : Piece} {args : List ParseTree} (hs : Ended s p frames)
    (hc : settle source p frames = (q, .argument callee args :: around))
    (hlx : lx.token = .symbol .comma) :
    Parser.feed source s lx = some ⟨.expr, .argument callee (q.tree :: args) :: around⟩ := by
  rw [hs.feed_end (.inl hlx)]
  unfold settle at hc
  simp [feedExprEnd, hlx, hc]

theorem Ended.feed_callEnd {callee : Piece} {args : List ParseTree} (hs : Ended s p frames)
    (hc : settle source p frames = (q, .argument callee args :: around))
    (hlx : lx.token = .symbol .closeParen) :
    Parser.feed source s lx = some ⟨.operandEnd (.ofLayer source
      (.call callee.tree (q.tree :: args).reverse) callee.start lx.stop), around⟩ := by
  rw [hs.feed_end (.inr (.inl hlx))]
  unfold settle at hc
  simp [feedExprEnd, hlx, hc]

theorem Ended.feed_init {start : Position} {name : String} (hs : Ended s p frames)
    (hc : settle source p frames = (q, .init start name :: around))
    (hlx : lx.token = .symbol .semicolon) :
    Parser.feed source s lx = some ⟨.program, .scope start name q.tree :: around⟩ := by
  rw [hs.feed_end (.inr (.inr hlx))]
  unfold settle at hc
  simp [feedExprEnd, hlx, hc]

theorem Ended.feed_statement (hs : Ended s p frames)
    (hc : settle source p frames = (q, around)) (ha : inProgram around = true)
    (hlx : lx.token = .symbol .semicolon) :
    Parser.feed source s lx = some ⟨.statementEnd q lx.stop, around⟩ := by
  rw [hs.feed_end (.inr (.inr hlx))]
  unfold settle at hc
  unfold feedExprEnd
  rw [hlx, hc]
  cases around with
  | nil => rfl
  | cons f around =>
    cases f with
    | group | rest | scope => rfl
    | _ => cases ha

theorem Ended.feed_colon {cond : Piece} (hs : Ended s p frames)
    (hc : settle source p frames = (q, .onTrue cond :: around))
    (hlx : lx.token = .symbol .colon) :
    Parser.feed source s lx = some ⟨.expr, .onFalse cond q :: around⟩ := by
  cases hs with
  | operand =>
    unfold settle at hc
    simp [Parser.feed, feedOperandEnd, feedExprEnd, hlx, hc]
  | name => cases hc

theorem ProgramEnded.feed_close {start : Position} (hs : ProgramEnded source s p frames)
    (hc : closeProgram source p frames = (q, .group start :: around))
    (hlx : lx.token = .symbol .closeParen) :
    feed source s lx = some ⟨.operandEnd ⟨q.tree, start, lx.stop⟩, around⟩ := by
  cases hs with
  | statement => simp [feed, closeGroup, hlx, hc]
  | expr hs hp =>
    rw [hs.feed_end (.inr (.inl hlx))]
    unfold settle at hp
    unfold feedExprEnd
    rw [hlx, hp]
    -- an argument list around the program would be left open by `closeProgram`
    cases frames with
    | nil => cases hc
    | cons f frames =>
      cases f with
      | argument => cases hc
      | _ => simp [closeGroup, hc]

theorem ProgramEnded.finish (hs : ProgramEnded source s p frames)
    (hc : closeProgram source p frames = (q, [])) :
    Parser.finish source s = some q.tree := by
  cases hs with
  | statement => simp [Parser.finish, closeAll, hc]
  | expr hs hp =>
    cases hs with
    | operand =>
      unfold settle at hp
      simp [Parser.finish, closeAll, hp, hc]
    | name => cases hp; cases hc

theorem ReadyParam.feed_name {owner : Owner} {done : List (Param Ty)} {name : String}
    {l₁ l₂ : Lexeme} (hs : ReadyParam owner done s frames) (h₁ : l₁.token = .name name)
    (h₂ : l₂.token = .symbol .colon) :
    Reaches source s [l₁, l₂] ⟨.type, .paramType owner done name :: frames⟩ := by
  cases hs <;> simp [Reaches, feedAll, feed, h₁, h₂]

theorem ReadyType.feed_openParen (hs : ReadyType s frames)
    (hlx : lx.token = .symbol .openParen) :
    feed source s lx = some ⟨.typeOpen, frames⟩ := by
  cases hs <;> simp [feed, feedType, hlx]

end Feed

/-! ## Phrases -/

/-- Wherever a phrase of that kind may start, the lexemes are read as one, over the stretch from `p`
to `q`, and what they are read as is what the phrase stands for. -/
def Reads (source : String) (lxs : List Lexeme) (p q : Position) : Phrase ParseTree → Prop
  | .program t => ∀ (s : State) (frames : List Frame), Ready .program s frames →
      ∃ (s' : State) (r : Piece) (around : List Frame), Reaches source s lxs s' ∧
        ProgramEnded source s' r around ∧
        closeProgram source r around = closeProgram source ⟨t, p, q⟩ frames
  | .expr t => ∀ (level : Level) (s : State) (frames : List Frame), Ready level s frames →
      level ≠ .operand →
      ∃ (s' : State) (r : Piece) (around : List Frame), Reaches source s lxs s' ∧
        Ended s' r around ∧ settle source r around = closeExpr source ⟨t, p, q⟩ frames
  | .sum t => ∀ (level : Level) (s : State) (frames : List Frame), Ready level s frames →
      level ≠ .operand →
      ∃ (s' : State) (r : Piece) (around : List Frame), Reaches source s lxs s' ∧
        Ended s' r around ∧ closeSum source r around = (⟨t, p, q⟩, frames)
  | .operand t | .atom t => ∀ (level : Level) (s : State) (frames : List Frame),
      Ready level s frames →
      ∃ s' : State, Reaches source s lxs s' ∧ Ended s' ⟨t, p, q⟩ frames
  | .args ts => ∀ (level : Level) (s : State) (callee : Piece) (done : List ParseTree)
      (frames : List Frame), Ready level s (.argument callee done :: frames) → level ≠ .operand →
      ∃ (s' : State) (r last : Piece) (around : List Frame) (done' : List ParseTree),
        Reaches source s lxs s' ∧ Ended s' r around ∧
        settle source r around = (last, .argument callee done' :: frames) ∧
        (last.tree :: done').reverse = done.reverse ++ ts
  | .params ps => ∀ (owner : Owner) (done : List (Param Ty)) (s : State) (frames : List Frame),
      ReadyParam owner done s frames →
      ∃ (υ τ : Ty) (around : List Frame) (done' : List (Param Ty)) (name : String),
        Reaches source s lxs ⟨.typeEnd υ, around⟩ ∧
        closeType υ around = (τ, .paramType owner done' name :: frames) ∧
        (⟨name, τ⟩ :: done').reverse = done.reverse ++ ps
  | .type τ => ∀ (s : State) (frames : List Frame), ReadyType s frames →
      ∃ (υ : Ty) (around : List Frame), Reaches source s lxs ⟨.typeEnd υ, around⟩ ∧
        closeType υ around = closeType τ frames

namespace Reads

variable {l l₁ l₂ l₃ : List Lexeme} {lx lx' lx'' : Lexeme} {t u a b : ParseTree}
variable {p q p₁ q₁ p₂ q₂ p₃ q₃ : Position}

theorem program_of_expr (h : Reads source l p q (.expr t)) : Reads source l p q (.program t) := by
  intro s frames hs
  obtain ⟨s', r, around, hr, he, hc⟩ := h _ s frames hs (by simp)
  rw [closeExpr_of_inProgram hs.inProgram] at hc
  exact ⟨s', _, frames, hr, .expr he hc, rfl⟩

theorem statement (h : Reads source l p q (.expr t)) (hlx : lx.token = .symbol .semicolon) :
    Reads source (l ++ [lx]) p lx.stop (.program t) := by
  intro s frames hs
  obtain ⟨s', r, around, hr, he, hc⟩ := h _ s frames hs (by simp)
  rw [closeExpr_of_inProgram hs.inProgram] at hc
  exact ⟨_, _, frames, hr.trans (.single (he.feed_statement hc hs.inProgram hlx)), .statement, rfl⟩

theorem seq (ht : Reads source l₁ p₁ q₁ (.expr t)) (hlx : lx.token = .symbol .semicolon)
    (hu : Reads source l₂ p₂ q₂ (.program u)) :
    Reads source (l₁ ++ lx :: l₂) p₁ q₂ (.program (.node (.seq t u) (p₁.spanTo source q₂))) := by
  intro s frames hs
  obtain ⟨s₁, r, around, hr, he, hc⟩ := ht _ s frames hs (by simp)
  rw [closeExpr_of_inProgram hs.inProgram] at hc
  obtain ⟨s₂, r', around', hr', he', hc'⟩ := hu _ _ (Ready.statementEnd (p := ⟨t, p₁, q₁⟩))
  exact ⟨s₂, r', around', hr.trans (.step (he.feed_statement hc hs.inProgram hlx) hr'), he', hc'⟩

theorem const {name : String} {semi : Lexeme} (h₁ : lx.token = .keyword .const)
    (h₂ : lx'.token = .name name) (h₃ : lx''.token = .symbol .equals)
    (ht : Reads source l₁ p₁ q₁ (.expr t)) (hsemi : semi.token = .symbol .semicolon)
    (hu : Reads source l₂ p₂ q₂ (.program u)) :
    Reads source (lx :: lx' :: lx'' :: (l₁ ++ semi :: l₂)) lx.start q₂
      (.program (.node (.const name t u) (lx.start.spanTo source q₂))) := by
  intro s frames hs
  have hname : feed source ⟨.constOpen lx.start, frames⟩ lx' =
      some ⟨.constName lx.start name, frames⟩ := by simp only [feed, h₂]
  have hequals : feed source ⟨.constName lx.start name, frames⟩ lx'' =
      some ⟨.expr, .init lx.start name :: frames⟩ := by simp only [feed, h₃]
  obtain ⟨s₁, r, around, hr, he, hc⟩ :=
    ht _ _ (.init lx.start name :: frames) (.expr rfl) (by simp)
  obtain ⟨s₂, r', around', hr', he', hc'⟩ :=
    hu _ (.scope lx.start name t :: frames) (.program rfl)
  exact ⟨s₂, r', around', .step (feed_const hs h₁) (.step hname (.step hequals
    (hr.trans (.step (he.feed_init hc hsemi) hr')))), he', hc'⟩

theorem expr_of_sum (h : Reads source l p q (.sum t)) : Reads source l p q (.expr t) := by
  intro level s frames hs hl
  obtain ⟨s', r, around, hr, he, hc⟩ := h level s frames hs hl
  exact ⟨s', r, around, hr, he, by simp only [settle, hc]⟩

theorem ite {c : ParseTree} (hc : Reads source l₁ p₁ q₁ (.sum c))
    (h₁ : lx.token = .symbol .question) (ha : Reads source l₂ p₂ q₂ (.expr a))
    (h₂ : lx'.token = .symbol .colon) (hb : Reads source l₃ p₃ q₃ (.expr b)) :
    Reads source (l₁ ++ lx :: (l₂ ++ lx' :: l₃)) p₁ q₃
      (.expr (.node (.ite c a b) (p₁.spanTo source q₃))) := by
  intro level s frames hs hl
  obtain ⟨s₁, r₁, around₁, hr₁, he₁, hc₁⟩ := hc level s frames hs hl
  obtain ⟨s₂, r₂, around₂, hr₂, he₂, hc₂⟩ :=
    ha _ _ (.onTrue ⟨c, p₁, q₁⟩ :: frames) (.expr rfl) (by simp)
  obtain ⟨s₃, r₃, around₃, hr₃, he₃, hc₃⟩ :=
    hb _ _ (.onFalse ⟨c, p₁, q₁⟩ ⟨a, p₂, q₂⟩ :: frames) (.expr rfl) (by simp)
  exact ⟨s₃, r₃, around₃, hr₁.trans (.step (he₁.feed_question hc₁ h₁)
    (hr₂.trans (.step (he₂.feed_colon hc₂ h₂) hr₃))), he₃, hc₃⟩

/-- A function, from the `=>` on. -/
theorem body (hlx : lx.token = .symbol .arrow) (ht : Reads source l p q (.expr t))
    (start : Position) (ps : List (Param Ty)) (frames : List Frame) :
    ∃ (s' : State) (r : Piece) (around : List Frame),
      Reaches source ⟨.arrow (.func start) ps, frames⟩ (lx :: l) s' ∧ Ended s' r around ∧
      settle source r around =
        closeExpr source (.ofLayer source (.func ps t) start q) frames := by
  obtain ⟨s', r, around, hr, he, hc⟩ :=
    ht _ _ (.body start ps :: frames) (.expr rfl) (by simp)
  exact ⟨s', r, around, .step (by simp only [feed, hlx]) hr, he, hc⟩

theorem thunk (h₁ : lx.token = .symbol .openParen) (h₂ : lx'.token = .symbol .closeParen)
    (h₃ : lx''.token = .symbol .arrow) (ht : Reads source l p q (.expr t)) :
    Reads source (lx :: lx' :: lx'' :: l) lx.start q
      (.expr (.node (.func [] t) (lx.start.spanTo source q))) := by
  intro level s frames hs hl
  obtain ⟨s', r, around, hr, hrest⟩ := body h₃ ht lx.start [] frames
  exact ⟨s', r, around,
    .step (feed_opened hs hl h₁) (.step (by simp only [feed, h₂]) hr), hrest⟩

theorem func {ps : List (Param Ty)} (h₁ : lx.token = .symbol .openParen)
    (hps : Reads source l₁ p₁ q₁ (.params ps)) (h₂ : lx'.token = .symbol .closeParen)
    (h₃ : lx''.token = .symbol .arrow) (ht : Reads source l₂ p₂ q₂ (.expr t)) :
    Reads source (lx :: (l₁ ++ lx' :: lx'' :: l₂)) lx.start q₂
      (.expr (.node (.func ps t) (lx.start.spanTo source q₂))) := by
  intro level s frames hs hl
  obtain ⟨υ, τ, around, done, name, hr, hc, hps⟩ :=
    hps (.func lx.start) [] _ frames .opened
  obtain ⟨s', r, around', hr', hrest⟩ := body h₃ ht lx.start ps frames
  refine ⟨s', r, around', .step (feed_opened hs hl h₁) (hr.trans (.step ?_ hr')), hrest⟩
  simp only [feed, feedTypeEnd, h₂, hc, hps, List.reverse_nil, List.nil_append]

theorem sum_of_operand (h : Reads source l p q (.operand t)) : Reads source l p q (.sum t) := by
  intro level s frames hs hl
  obtain ⟨s', hr, he⟩ := h level s frames hs
  exact ⟨s', _, frames, hr, he, closeSum_of_not_sumOpen (hs.sumOpen hl) _⟩

theorem add (ha : Reads source l₁ p₁ q₁ (.sum a)) (hlx : lx.token = .symbol .plus)
    (hb : Reads source l₂ p₂ q₂ (.operand b)) :
    Reads source (l₁ ++ lx :: l₂) p₁ q₂ (.sum (.node (.add a b) (p₁.spanTo source q₂))) := by
  intro level s frames hs hl
  obtain ⟨s₁, r, around, hr, he, hc⟩ := ha level s frames hs hl
  obtain ⟨s₂, hr', he'⟩ := hb _ _ (.sum ⟨a, p₁, q₁⟩ :: frames) .operand
  exact ⟨s₂, _, _, hr.trans (.step (he.feed_plus hc hlx) hr'), he', rfl⟩

theorem run {f : ParseTree} (hf : Reads source l p q (.operand f))
    (h₁ : lx.token = .symbol .openParen) (h₂ : lx'.token = .symbol .closeParen) :
    Reads source (l ++ [lx, lx']) p lx'.stop
      (.operand (.node (.call f []) (p.spanTo source lx'.stop))) := by
  intro level s frames hs
  obtain ⟨s', hr, he⟩ := hf level s frames hs
  have hclose : feed source ⟨.callOpen ⟨f, p, q⟩, frames⟩ lx' =
      some ⟨.operandEnd (.ofLayer source (.call f []) p lx'.stop), frames⟩ := by
    simp only [feed, h₂]
  exact ⟨_, hr.trans (.step (he.feed_call h₁) (.single hclose)), .operand⟩

theorem call {f : ParseTree} {ts : List ParseTree} (hf : Reads source l₁ p₁ q₁ (.operand f))
    (h₁ : lx.token = .symbol .openParen) (hts : Reads source l₂ p₂ q₂ (.args ts))
    (h₂ : lx'.token = .symbol .closeParen) :
    Reads source (l₁ ++ lx :: (l₂ ++ [lx'])) p₁ lx'.stop
      (.operand (.node (.call f ts) (p₁.spanTo source lx'.stop))) := by
  intro level s frames hs
  obtain ⟨s₁, hr, he⟩ := hf level s frames hs
  obtain ⟨s₂, r, last, around, done, hr', he', hc, rfl⟩ :=
    hts _ _ ⟨f, p₁, q₁⟩ [] frames .callOpen (by simp)
  exact ⟨_, hr.trans (.step (he.feed_call h₁)
    (hr'.trans (.single (he'.feed_callEnd hc h₂)))), .operand⟩

theorem arg (ht : Reads source l p q (.expr t)) : Reads source l p q (.args [t]) := by
  intro level s callee done frames hs hl
  obtain ⟨s', r, around, hr, he, hc⟩ := ht level s _ hs hl
  exact ⟨s', r, _, around, done, hr, he, hc, List.reverse_cons⟩

theorem args {ts : List ParseTree} (ht : Reads source l₁ p₁ q₁ (.expr t))
    (hlx : lx.token = .symbol .comma) (hts : Reads source l₂ p₂ q₂ (.args ts)) :
    Reads source (l₁ ++ lx :: l₂) p₁ q₂ (.args (t :: ts)) := by
  intro level s callee done frames hs hl
  obtain ⟨s₁, r, around, hr, he, hc⟩ := ht level s _ hs hl
  obtain ⟨s₂, r', last, around', done', hr', he', hc', hts⟩ :=
    hts _ _ callee (t :: done) frames (.expr rfl) (by simp)
  refine ⟨s₂, r', last, around', done', hr.trans (.step (he.feed_comma hc hlx) hr'), he', hc', ?_⟩
  rw [hts]
  simp

/-- An atom of one token. -/
theorem token (ha : atom? source lx = some ⟨t, lx.start, lx.stop⟩) :
    Reads source [lx] lx.start lx.stop (.atom t) := by
  intro level s frames hs
  obtain ⟨s', hf, he⟩ := feed_atom hs ha
  exact ⟨s', .single hf, he⟩

theorem group (h₁ : lx.token = .symbol .openParen) (ht : Reads source l p q (.program t))
    (h₂ : lx'.token = .symbol .closeParen) :
    Reads source (lx :: (l ++ [lx'])) lx.start lx'.stop (.atom t) := by
  intro level s frames hs
  obtain ⟨s₁, hf, hs₁⟩ : ∃ s₁, feed source s lx = some s₁ ∧
      Ready .program s₁ (.group lx.start :: frames) := feed_openParen hs h₁
  obtain ⟨s₂, r, around, hr, he, hc⟩ := ht s₁ _ hs₁
  exact ⟨_, .step hf (hr.trans (.single (he.feed_close hc h₂))), .operand⟩

theorem param {name : String} {τ : Ty} (h₁ : lx.token = .name name)
    (h₂ : lx'.token = .symbol .colon) (hτ : Reads source l p q (.type τ)) :
    Reads source (lx :: lx' :: l) lx.start q (.params [⟨name, τ⟩]) := by
  intro owner done s frames hs
  obtain ⟨υ, around, hr, hc⟩ := hτ _ (.paramType owner done name :: frames) .type
  exact ⟨υ, τ, around, done, name, (hs.feed_name h₁ h₂).trans hr, hc, List.reverse_cons⟩

theorem params {name : String} {τ : Ty} {ps : List (Param Ty)} (h₁ : lx.token = .name name)
    (h₂ : lx'.token = .symbol .colon) (hτ : Reads source l₁ p₁ q₁ (.type τ))
    (h₃ : lx''.token = .symbol .comma) (hps : Reads source l₂ p₂ q₂ (.params ps)) :
    Reads source (lx :: lx' :: (l₁ ++ lx'' :: l₂)) lx.start q₂ (.params (⟨name, τ⟩ :: ps)) := by
  intro owner done s frames hs
  obtain ⟨υ, around, hr, hc⟩ := hτ _ (.paramType owner done name :: frames) .type
  have hcomma : feed source ⟨.typeEnd υ, around⟩ lx'' =
      some ⟨.paramOpen owner (⟨name, τ⟩ :: done), frames⟩ := by
    simp only [feed, feedTypeEnd, h₃, hc, closeType]
  obtain ⟨υ', τ', around', done', name', hr', hc', hps⟩ :=
    hps owner (⟨name, τ⟩ :: done) _ frames .paramOpen
  refine ⟨υ', τ', around', done', name',
    (hs.feed_name h₁ h₂).trans (hr.trans (.step hcomma hr')), hc', ?_⟩
  rw [hps]
  simp

theorem typeToken {τ : Ty} (hlx : feedType [] lx = some ⟨.typeEnd τ, []⟩) :
    Reads source [lx] lx.start lx.stop (.type τ) := by
  intro s frames hs
  refine ⟨τ, frames, .single ?_, rfl⟩
  unfold feedType at hlx
  split at hlx <;> cases hlx <;> cases hs <;> simp [feed, feedType, *]

/-- A function type, from the `=>` on. -/
theorem result {τ : Ty} (hlx : lx.token = .symbol .arrow) (hτ : Reads source l p q (.type τ))
    (ps : List (Param Ty)) (frames : List Frame) :
    ∃ (υ : Ty) (around : List Frame),
      Reaches source ⟨.arrow .type ps, frames⟩ (lx :: l) ⟨.typeEnd υ, around⟩ ∧
      closeType υ around = closeType (.func ps τ) frames := by
  obtain ⟨υ, around, hr, hc⟩ := hτ _ (.result ps :: frames) .type
  exact ⟨υ, around, .step (by simp only [feed, hlx]) hr, hc⟩

theorem thunkType {τ : Ty} (h₁ : lx.token = .symbol .openParen)
    (h₂ : lx'.token = .symbol .closeParen) (h₃ : lx''.token = .symbol .arrow)
    (hτ : Reads source l p q (.type τ)) :
    Reads source (lx :: lx' :: lx'' :: l) lx.start q (.type (.func [] τ)) := by
  intro s frames hs
  obtain ⟨υ, around, hr, hc⟩ := result h₃ hτ [] frames
  exact ⟨υ, around, .step (hs.feed_openParen h₁) (.step (by simp only [feed, h₂]) hr), hc⟩

theorem funcType {ps : List (Param Ty)} {τ : Ty} (h₁ : lx.token = .symbol .openParen)
    (hps : Reads source l₁ p₁ q₁ (.params ps)) (h₂ : lx'.token = .symbol .closeParen)
    (h₃ : lx''.token = .symbol .arrow) (hτ : Reads source l₂ p₂ q₂ (.type τ)) :
    Reads source (lx :: (l₁ ++ lx' :: lx'' :: l₂)) lx.start q₂ (.type (.func ps τ)) := by
  intro s frames hs
  obtain ⟨υ, τ', around, done, name, hr, hc, hps⟩ := hps .type [] _ frames .typeOpen
  obtain ⟨υ', around', hr', hc'⟩ := result h₃ hτ ps frames
  refine ⟨υ', around', .step (hs.feed_openParen h₁) (hr.trans (.step ?_ hr')), hc'⟩
  simp only [feed, feedTypeEnd, h₂, hc, hps, List.reverse_nil, List.nil_append]

theorem typeGroup {τ : Ty} (h₁ : lx.token = .symbol .openParen)
    (hτ : Reads source l p q (.type τ)) (h₂ : lx'.token = .symbol .closeParen) :
    Reads source (lx :: (l ++ [lx'])) lx.start lx'.stop (.type τ) := by
  intro s frames hs
  obtain ⟨υ, around, hr, hc⟩ := hτ _ (.typeGroup :: frames) .typeOpen
  refine ⟨τ, frames, .step (hs.feed_openParen h₁) (hr.trans (.single ?_)), rfl⟩
  simp only [feed, feedTypeEnd, h₂, hc, closeType]

end Reads

/-! ## Every phrase -/

/-- Lexemes that are a phrase of the grammar are read as that phrase. -/
theorem reads_of_placed {source : String} {lxs : List Lexeme} {p q : Position}
    {x : Phrase ParseTree} (h : Placed source lxs p q x) : Reads source lxs p q x := by
  induction h with
  | expr _ ih => exact ih.program_of_expr
  | statement _ hsemi ih => exact ih.statement hsemi
  | seq _ hsemi _ iht ihu => exact iht.seq hsemi ihu
  | const h₁ h₂ h₃ _ hsemi _ iht ihu => exact .const h₁ h₂ h₃ iht hsemi ihu
  | sum _ ih => exact ih.expr_of_sum
  | ite _ h₁ _ h₂ _ ihc iha ihb => exact ihc.ite h₁ iha h₂ ihb
  | thunk h₁ h₂ h₃ _ ih => exact .thunk h₁ h₂ h₃ ih
  | func h₁ _ h₂ h₃ _ ihps iht => exact .func h₁ ihps h₂ h₃ iht
  | operand _ ih => exact ih.sum_of_operand
  | add _ hplus _ iha ihb => exact iha.add hplus ihb
  | atom _ ih => exact ih
  | run _ h₁ h₂ ih => exact ih.run h₁ h₂
  | call _ h₁ _ h₂ ihf ihts => exact ihf.call h₁ ihts h₂
  | arg _ ih => exact ih.arg
  | args _ hcomma _ iht ihts => exact iht.args hcomma ihts
  | trueLit h | falseLit h | name h => exact .token (by simp only [atom?, h, Piece.ofLayer])
  | int h => exact .token (by simp only [atom?, h, Piece.ofDigits])
  | group h₁ _ h₂ ih => exact .group h₁ ih h₂
  | param h₁ h₂ _ ih => exact .param h₁ h₂ ih
  | params h₁ h₂ _ hcomma _ ihτ ihps => exact .params h₁ h₂ ihτ hcomma ihps
  | boolean h | number h => exact .typeToken (by simp only [feedType, h])
  | thunkType h₁ h₂ h₃ _ ih => exact .thunkType h₁ h₂ h₃ ih
  | funcType h₁ _ h₂ h₃ _ ihps ihτ => exact .funcType h₁ ihps h₂ h₃ ihτ
  | typeGroup h₁ _ h₂ ih => exact .typeGroup h₁ ih h₂

/-- The parser accepts every program of the grammar, as the tree the program stands for, with every
span in its place. -/
theorem accepts_of_placed {source : String} {lxs : List Lexeme} {p q : Position} {t : ParseTree}
    (h : Placed source lxs p q (.program t)) :
    ∃ s : State, feedAll source .initial lxs = .ok s ∧ finish source s = some t := by
  obtain ⟨s, r, around, hr, he, hc⟩ := reads_of_placed h .initial [] (.program rfl)
  exact ⟨s, hr, he.finish hc⟩

theorem accepts_of_derives {t : Term} {lxs : List Lexeme} (source : String)
    (h : Derives (lxs.map Lexeme.token) (.program t)) :
    ∃ (s : State) (t' : ParseTree), feedAll source .initial lxs = .ok s ∧
      finish source s = some t' ∧ t'.bare = t := by
  obtain ⟨p, q, t', ht, hp⟩ := h.placeable source lxs rfl
  obtain ⟨s, hs, hf⟩ := accepts_of_placed hp
  exact ⟨s, t', hs, hf, ht⟩

theorem readTree_of_placed {text source : String} {lxs : List Lexeme} {p q stop : Position}
    {t : ParseTree} (hscan : Scan.ofText text = ⟨lxs, .textEnd stop⟩)
    (h : Placed source lxs p q (.program t)) : readTree text source = .ok t := by
  obtain ⟨s, hs, hf⟩ := accepts_of_placed h
  simp only [readTree, hscan, hs, hf]

end Parser

/-- A program is parsed, unless one of its literals has too many digits. The first such literal in
the text is what is complained about. -/
theorem parse_of_placed {text : String} {source : Option String} {lxs : List Lexeme}
    {p q stop : Position} {t : ParseTree} (hscan : Scan.ofText text = ⟨lxs, .textEnd stop⟩)
    (h : Placed (sourceName source) lxs p q (.program t)) :
    parse text source = ((lxs.map Lexeme.token).findSome? Token.excessDigits?).elim (.ok t.term)
      fun digits => .error (.literalTooLong digits) := by
  simp only [parse, Parser.readTree_of_placed hscan h, ParseTree.build_eq, h.firstExcess?]
  cases (lxs.map Lexeme.token).findSome? Token.excessDigits? <;> rfl

end ArrowLang
