import ArrowLang.Proofs.Slices

/-!
# ArrowLang.Proofs.SpanOrder

How the spans of a parsed term lie in the text.

* `Ascends source a l b`: the lexemes lie one after the other between the locations `a` and `b`.
* `Laid.bounds`, `Laid.ordered`: what that means for terms that are laid out over such lexemes.
* `preorder_sorted`: if at every node the children lie in order within the node, the nodes of the
  whole term start in the order in which they are evaluated.
* `spans_nested_and_ordered`: the spans of a parsed term are like that.
-/

namespace ArrowLang

instance : Trans (α := Location) (· < ·) (· ≤ ·) (· < ·) := ⟨Location.lt_of_lt_of_le⟩

instance : Trans (α := Location) (· < ·) (· < ·) (· < ·) :=
  ⟨fun hab hbc => Location.lt_of_lt_of_le hab (Location.le_of_lt hbc)⟩

/-! ## Lexemes in order -/

inductive Ascends (source : String) : Location → List Lexeme → Location → Prop where
  | nil {a b : Location} : a ≤ b → Ascends source a [] b
  | cons {a b : Location} {lx : Lexeme} {l : List Lexeme} :
      a ≤ lx.start.locate source → lx.start.locate source < lx.stop.locate source →
      Ascends source (lx.stop.locate source) l b → Ascends source a (lx :: l) b

namespace Ascends

variable {source : String} {a b c : Location} {l l₁ l₂ : List Lexeme}

theorem le (h : Ascends source a l b) : a ≤ b := by
  induction h with
  | nil h => exact h
  | cons hstart hlt _ ih =>
    exact Location.le_trans hstart (Location.le_trans (Location.le_of_lt hlt) ih)

theorem lt (h : Ascends source a l b) (hne : l ≠ []) : a < b := by
  cases h with
  | nil => exact absurd rfl hne
  | cons hstart hlt h =>
    exact Location.lt_of_le_of_lt hstart (Location.lt_of_lt_of_le hlt h.le)

theorem of_le (hab : a ≤ b) (h : Ascends source b l c) : Ascends source a l c := by
  cases h with
  | nil h => exact .nil (Location.le_trans hab h)
  | cons hstart hlt h => exact .cons (Location.le_trans hab hstart) hlt h

theorem append_iff : Ascends source a (l₁ ++ l₂) c ↔
    ∃ b, Ascends source a l₁ b ∧ Ascends source b l₂ c := by
  induction l₁ generalizing a with
  | nil =>
    constructor
    · exact fun h => ⟨a, .nil (Location.le_refl a), h⟩
    · rintro ⟨b, ⟨hab⟩, h⟩
      exact h.of_le hab
  | cons lx l₁ ih =>
    constructor
    · rintro (_ | ⟨hstart, hlt, h⟩)
      obtain ⟨b, h₁, h₂⟩ := ih.mp h
      exact ⟨b, .cons hstart hlt h₁, h₂⟩
    · rintro ⟨b, _ | ⟨hstart, hlt, h₁⟩, h₂⟩
      exact .cons hstart hlt (ih.mpr ⟨b, h₁, h₂⟩)

/-- The lexemes lie between where the first starts and where the last stops. -/
theorem narrow {p q : Position} (h : Ascends source a l b) (hl : Spread l p q) :
    a ≤ p.locate source ∧ Ascends source (p.locate source) l (q.locate source) ∧
      q.locate source ≤ b := by
  obtain ⟨lx, rest, hstart, rfl⟩ := hl.start
  obtain ⟨front, last, hstop, rfl⟩ := hl.stop
  obtain ⟨ha, h'⟩ : a ≤ lx.start.locate source ∧ Ascends source (lx.start.locate source) l b := by
    subst hstart
    cases h with
    | cons hle hlt h => exact ⟨hle, .cons (Location.le_refl _) hlt h⟩
  obtain ⟨c, hfront, hlast⟩ := append_iff.mp (hstop ▸ h')
  cases hlast with
  | cons hle hlt hb =>
    refine ⟨ha, ?_, hb.le⟩
    rw [hstop]
    exact append_iff.mpr ⟨c, hfront, .cons hle hlt (.nil (Location.le_refl _))⟩

end Ascends

/-- The lexemes of a text lie one after the other. -/
theorem Lexes.ascends {p q : Position} {cs rest : List Char} {lxs : List Lexeme}
    (h : Lexes p cs lxs q rest) (source : String) :
    Ascends source (p.locate source) lxs (q.locate source) := by
  induction h with
  | done => exact .nil (Location.le_refl _)
  | @blank p q c cs rest lxs _ _ ih =>
    exact ih.of_le (Location.le_of_lt (Position.locate_lt_advance source p c))
  | @comment p q cs rest lxs _ ih => exact ih.of_le (Position.locate_le_advanceAll source p _)
  | @token p q cs cs' rest tok lxs hr _ ih =>
    exact .cons (Location.le_refl _)
      (Position.locate_lt_advanceAll source p (Token.text_ne_nil_of_read? hr)) ih

/-! ## Terms in order -/

namespace Laid

variable {source : String} {l : List Lexeme} {ts : List Term} {a b : Location}

theorem bounds (h : Laid source l ts) (ha : Ascends source a l b) :
    ∀ t ∈ ts, a ≤ t.span.start ∧ t.span.stop ≤ b := by
  induction h generalizing a with
  | nil => simp
  | @cons gap l between rest p q tree layer ts hp _ _ _ _ _ ih =>
    obtain ⟨a₁, hgap, ha⟩ := Ascends.append_iff.mp ha
    obtain ⟨a₂, hl, ha⟩ := Ascends.append_iff.mp ha
    obtain ⟨a₃, hbetween, hrest⟩ := Ascends.append_iff.mp ha
    obtain ⟨hstart, _, hstop⟩ := hl.narrow hp.spread
    have hstop' : a₂ ≤ a₃ := hbetween.le
    refine List.forall_mem_cons.mpr ⟨⟨?_, ?_⟩, fun t ht => ⟨?_, (ih hrest t ht).2⟩⟩
    · exact Location.le_trans hgap.le hstart
    · exact Location.le_trans hstop (Location.le_trans hstop' hrest.le)
    · exact Location.le_trans (Location.le_trans hgap.le hl.le)
        (Location.le_trans hstop' (ih hrest t ht).1)

theorem ordered (h : Laid source l ts) (ha : Ascends source a l b) :
    ts.Pairwise fun t u => t.span.stop < u.span.start := by
  induction h generalizing a with
  | nil => exact .nil
  | @cons gap l between rest p q tree layer ts hp _ _ hts hb _ ih =>
    obtain ⟨a₁, _, ha⟩ := Ascends.append_iff.mp ha
    obtain ⟨a₂, hl, ha⟩ := Ascends.append_iff.mp ha
    obtain ⟨a₃, hbetween, hrest⟩ := Ascends.append_iff.mp ha
    refine .cons (fun t ht => ?_) (ih hrest)
    -- there is a lexeme between the two
    have hlt : a₂ < a₃ := hbetween.lt (hb (List.ne_nil_of_mem ht))
    exact Location.lt_of_lt_of_le (Location.lt_of_le_of_lt (hl.narrow hp.spread).2.2 hlt)
      (hts.bounds hrest t ht).1

end Laid

/-! ## Nodes in order -/

/-- The node starts before it stops, and its children lie within it, one after the other. -/
structure Term.Ordered (u : Term) : Prop where
  forward : u.span.start < u.span.stop
  encloses : ∀ layer span, u = .node layer span → ∀ c ∈ layer.children,
    span.encloses c.span = true
  apart : ∀ layer span, u = .node layer span →
    layer.children.Pairwise fun a b => a.span.stop < b.span.start

theorem Span.encloses_iff {s t : Span} :
    s.encloses t = true ↔ s.start ≤ t.start ∧ t.stop ≤ s.stop := by
  simp [encloses]

namespace Term

/-- All nodes lie within the root. -/
theorem bounds_of_ordered {t : Term} (h : ∀ u ∈ t.preorder, u.Ordered) :
    ∀ u ∈ t.preorder, t.span.start ≤ u.span.start ∧ u.span.stop ≤ t.span.stop := by
  induction t using byChildren with
  | unknown variant span =>
    intro u hu
    rw [preorder_unknown, List.mem_singleton] at hu
    rw [hu]
    exact ⟨Location.le_refl _, Location.le_refl _⟩
  | node layer span ih =>
    rw [preorder_node, List.forall_mem_cons] at h
    rw [preorder_node, List.forall_mem_cons]
    refine ⟨⟨Location.le_refl _, Location.le_refl _⟩, fun u hu => ?_⟩
    obtain ⟨c, hc, huc⟩ := List.mem_flatMap.mp hu
    have hchild := ih c hc (fun v hv => h.2 v (List.mem_flatMap.mpr ⟨c, hc, hv⟩)) u huc
    have hnode := Span.encloses_iff.mp (h.1.encloses layer span rfl c hc)
    exact ⟨Location.le_trans hnode.1 hchild.1, Location.le_trans hchild.2 hnode.2⟩

/-- The nodes start in the order in which they are evaluated. -/
theorem preorder_sorted {t : Term} (h : ∀ u ∈ t.preorder, u.Ordered) :
    t.preorder.Pairwise fun a b => a.span.start ≤ b.span.start := by
  induction t using byChildren with
  | unknown variant span =>
    rw [preorder_unknown]
    exact List.pairwise_singleton _ _
  | node layer span ih =>
    have hroot := bounds_of_ordered h
    rw [preorder_node, List.forall_mem_cons] at h hroot
    have hchild : ∀ c ∈ layer.children, ∀ u ∈ c.preorder, u.Ordered :=
      fun c hc u hu => h.2 u (List.mem_flatMap.mpr ⟨c, hc, hu⟩)
    rw [preorder_node]
    refine .cons (fun u hu => (hroot.2 u hu).1) (List.pairwise_flatMap.mpr ⟨?_, ?_⟩)
    · exact fun c hc => ih c hc (hchild c hc)
    · refine (h.1.apart layer span rfl).imp_of_mem fun {a b} ha hb hab u hu v hv => ?_
      have hu' := bounds_of_ordered (hchild a ha) u hu
      have hv' := bounds_of_ordered (hchild b hb) v hv
      have hforward := (hchild a ha u hu).forward
      refine Location.le_of_lt ?_
      calc u.span.start < u.span.stop := hforward
        _ ≤ a.span.stop := hu'.2
        _ < b.span.start := hab
        _ ≤ v.span.start := hv'.1

end Term

/-! ## Parsed terms -/

theorem ordered_of_parse {text : String} {source : Option String} {t u : Term}
    (h : parse text source = .ok t) (hu : u ∈ t.preorder) : u.Ordered := by
  obtain ⟨before, mid, after, stop, p, q, tree, layer, hlex, rfl, _, hp, hlaid, _⟩ :=
    node_of_parse h hu
  obtain ⟨a, _, ha⟩ := Ascends.append_iff.mp (hlex.ascends (sourceName source))
  obtain ⟨b, hmid, _⟩ := Ascends.append_iff.mp ha
  obtain ⟨_, hspan, _⟩ := hmid.narrow hp.spread
  refine ⟨?_, ?_, ?_⟩
  · obtain ⟨lx, rest, hne, _⟩ := hp.spread.start
    exact hspan.lt (by simp [hne])
  · rintro _ _ ⟨⟩ c hc
    exact Span.encloses_iff.mpr (hlaid.bounds hspan c hc)
  · rintro _ _ ⟨⟩
    exact hlaid.ordered hspan

/-- For every parsed text and every node of the term: the span of the node is that of a part of the
text, in the file that was named or in `<stdin>`; it starts before it ends, so it can be built, and
it is not the unknown span; it encloses the spans of the children, and these lie one after the
other. So the nodes start in the text in the order in which they are evaluated. -/
theorem spans_nested_and_ordered {text : String} {source : Option String} {t : Term}
    (h : parse text source = .ok t) :
    (∀ u ∈ t.preorder, u.Ordered ∧
      (∃ before slice, u.span.Denotes (sourceName source) text.toList before slice) ∧
      u.span.start.file = some (sourceName source) ∧ u.span.stop.file = some (sourceName source) ∧
      u.span ≠ .unknown ∧ Span.between u.span.start u.span.stop = .ok u.span) ∧
    t.preorder.Pairwise fun a b => a.span.start ≤ b.span.start := by
  refine ⟨fun u hu => ?_, Term.preorder_sorted fun u => ordered_of_parse h⟩
  have hordered := ordered_of_parse h hu
  obtain ⟨_, before, slice, _, _, hdenotes, _⟩ := slice_of_parse h hu
  refine ⟨hordered, ⟨before, slice, hdenotes⟩, ?_, ?_, ?_,
    Span.between_of_le (Location.le_of_lt hordered.forward)⟩
  · rw [hdenotes.2]; rfl
  · rw [hdenotes.2]; rfl
  · -- lines count from one
    rw [hdenotes.2]
    intro hunknown
    have hline : ((1 + before.count '\n' : Nat) : Int) = 0 :=
      congrArg (fun s : Span => s.start.line) hunknown
    omega

theorem spans_nested_in_call :
    let t : Term := .node (.call (.node (.var "f") (Position.spanTo "m" ⟨1, 0⟩ ⟨1, 1⟩))
      [.node (.var "a") (Position.spanTo "m" ⟨1, 2⟩ ⟨1, 3⟩),
        .node (.var "b") (Position.spanTo "m" ⟨2, 2⟩ ⟨2, 3⟩)]) (Position.spanTo "m" ⟨1, 0⟩ ⟨2, 5⟩)
    parse "f(a,\n (b))" (some "m") = .ok t ∧ (∀ u ∈ t.preorder, u.Ordered) ∧
      t.preorder.Pairwise fun a b => a.span.start ≤ b.span.start := by
  intro t
  have hlex : Lexes .origin "f(a,\n (b))".toList
      [⟨.name "f", ⟨1, 0⟩, ⟨1, 1⟩⟩, ⟨.symbol .openParen, ⟨1, 1⟩, ⟨1, 2⟩⟩,
        ⟨.name "a", ⟨1, 2⟩, ⟨1, 3⟩⟩, ⟨.symbol .comma, ⟨1, 3⟩, ⟨1, 4⟩⟩,
        ⟨.symbol .openParen, ⟨2, 1⟩, ⟨2, 2⟩⟩, ⟨.name "b", ⟨2, 2⟩, ⟨2, 3⟩⟩,
        ⟨.symbol .closeParen, ⟨2, 3⟩, ⟨2, 4⟩⟩, ⟨.symbol .closeParen, ⟨2, 4⟩, ⟨2, 5⟩⟩] ⟨2, 5⟩ [] :=
    .token rfl (.token rfl (.token rfl (.token rfl (.blank rfl (.blank rfl (.token rfl (.token rfl
      (.token rfl (.token rfl .done)))))))))
  have hparse : parse "f(a,\n (b))" (some "m") = .ok t :=
    (parse_ok_iff hlex.ofText_eq).mpr ⟨⟨_, _, rfl, rfl, rfl⟩, by decide⟩
  obtain ⟨hnodes, hsorted⟩ := spans_nested_and_ordered hparse
  exact ⟨hparse, fun u hu => (hnodes u hu).1, hsorted⟩

end ArrowLang
