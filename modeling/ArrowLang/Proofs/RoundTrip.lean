import ArrowLang.Proofs.Lexing
import ArrowLang.Proofs.ParserAccepts
import ArrowLang.Proofs.Printing

/-!
# ArrowLang.Proofs.RoundTrip

Printed terms are read back as they were.

* `Written cs x`: the text `cs` writes the tokens of a phrase that stands for `x`.
* `Ty.Legal`, `Layer.Legal`, `Term.Printable`: all names can be read, and all literals are in range.

The printed form of a legal type is a written type, and that of a printable term a written program,
which is even an operand unless it is a sequence. The parser accepts what is written.
-/

namespace ArrowLang

def Written (cs : List Char) (x : Phrase Term) : Prop :=
  ∃ w, Writes cs w ∧ Derives w x

/-! ## Types -/

namespace Ty

theorem renderOnto_append (w u : String) (pending : List (Ty × String)) :
    renderOnto (w ++ u) pending = w ++ renderOnto u pending := by
  fun_induction renderOnto u pending with
  | case1 u => rw [renderOnto]
  | case2 u follow rest ih => rw [renderOnto, ← ih]; simp only [String.append_assoc]
  | case3 u follow rest ih => rw [renderOnto, ← ih]; simp only [String.append_assoc]
  | case4 u params ret follow rest ih => rw [renderOnto, ← ih]; simp only [String.append_assoc]

theorem renderOnto_pending (w : String) (xs ys : List (Ty × String)) :
    renderOnto w (xs ++ ys) = renderOnto (renderOnto w xs) ys := by
  fun_induction renderOnto w xs with
  | case1 w => rfl
  | case2 w follow rest ih => rw [List.cons_append, renderOnto, ih]
  | case3 w follow rest ih => rw [List.cons_append, renderOnto, ih]
  | case4 w params ret follow rest ih =>
    rw [List.cons_append, renderOnto, ← ih, List.append_assoc, List.cons_append]

theorem renderOnto_single (w : String) :
    (τ : Ty) → (follow : String) → renderOnto w [(τ, follow)] = w ++ τ.render ++ follow
  | .boolean, follow => by simp [render, renderOnto]
  | .number, follow => by simp [render, renderOnto]
  | .func params ret, follow => by
    -- only the last of the pending types is followed by `follow`
    have h (f : String) : renderOnto w [(.func params ret, f)] =
        renderOnto (w ++ "(" ++ lead params) (slots params) ++ ret.render ++ f := by
      rw [renderOnto, renderOnto_pending, renderOnto_single _ ret]
    have h₀ : w ++ (func params ret).render = renderOnto w [(.func params ret, "")] := by
      rw [render, ← renderOnto_append, String.append_empty]
    rw [h₀, h, h, String.append_empty]

theorem renderOnto_cons (w : String) (τ : Ty) (follow : String) (rest : List (Ty × String)) :
    renderOnto w ((τ, follow) :: rest) = renderOnto (w ++ τ.render ++ follow) rest := by
  rw [← List.singleton_append, renderOnto_pending, renderOnto_single]

theorem renderOnto_slots (params : List (Param Ty)) (w : String) :
    renderOnto (w ++ lead params) (slots params) =
      w ++ ", ".intercalate (params.map Param.render) ++ ") => " := by
  induction params generalizing w with
  | nil => simp [lead, slots, renderOnto]
  | cons p params ih =>
    cases params with
    | nil => simp [lead, slots, renderOnto_single, Param.render, String.append_assoc]
    | cons q params =>
      have hslots : slots (p :: q :: params) =
          (p.type, ", " ++ lead (q :: params)) :: slots (q :: params) := by
        simp [slots, lead, String.append_assoc]
      have hlead : w ++ lead (p :: q :: params) ++ p.type.render ++ (", " ++ lead (q :: params)) =
          w ++ p.render ++ ", " ++ lead (q :: params) := by
        simp only [lead, Param.render, String.append_assoc]
      rw [hslots, renderOnto_cons, hlead, ih]
      simp only [List.map_cons, String.intercalate_cons_cons, String.append_assoc]

theorem render_boolean : boolean.render = "boolean" := by
  simp [render, renderOnto]

theorem render_number : number.render = "number" := by
  simp [render, renderOnto]

theorem render_func (params : List (Param Ty)) (ret : Ty) :
    (func params ret).render =
      "(" ++ ", ".intercalate (params.map Param.render) ++ ") => " ++ ret.render := by
  rw [render, renderOnto, renderOnto_pending, renderOnto_slots, renderOnto_single]
  simp [String.append_assoc]

/-- All parameter names in the type can be read. -/
inductive Legal : Ty → Prop where
  | boolean : Legal .boolean
  | number : Legal .number
  | func {params : List (Param Ty)} {ret : Ty} : (∀ p ∈ params, isLegalName p.name = true) →
      (∀ p ∈ params, Legal p.type) → Legal ret → Legal (.func params ret)

end Ty

namespace Written

/-- The parameters of a function or of a function type. -/
theorem params {ps : List (Param Ty)} (hne : ps ≠ []) (hname : ∀ p ∈ ps, isLegalName p.name = true)
    (htype : ∀ p ∈ ps, Written p.type.render.toList (.type p.type)) :
    Written (", ".intercalate (ps.map Param.render)).toList (.params ps) := by
  induction ps with
  | nil => exact absurd rfl hne
  | cons p ps ih =>
    obtain ⟨w, hw, hd⟩ := htype p List.mem_cons_self
    have hp : Writes p.name.toList [.name p.name] := .name (hname p List.mem_cons_self)
    cases ps with
    | nil =>
      have htext : (", ".intercalate ([p].map Param.render)).toList =
          p.name.toList ++ ':' :: ' ' :: p.type.render.toList := by
        simp [Param.render]
      refine ⟨_, ?_, .param hd⟩
      rw [htext]
      exact hp.append (.symbol rfl (by decide) (.blank hw)) (by decide)
    | cons q ps =>
      obtain ⟨v, hv, hd'⟩ := ih (by simp) (fun r hr => hname r (List.mem_cons_of_mem p hr))
        fun r hr => htype r (List.mem_cons_of_mem p hr)
      have htext : (", ".intercalate ((p :: q :: ps).map Param.render)).toList =
          p.name.toList ++ ':' :: ' ' :: (p.type.render.toList ++ ',' :: ' ' ::
            (", ".intercalate ((q :: ps).map Param.render)).toList) := by
        simp [Param.render, String.intercalate_cons_cons]
      refine ⟨_, ?_, .params hd hd'⟩
      rw [htext]
      exact hp.append (.symbol rfl (by decide) (.blank
        (hw.append (.symbol rfl (by decide) (.blank hv)) (by decide)))) (by decide)

/-- The parameter list and the arrow in front of what `cs` writes. -/
theorem header {ps : List (Param Ty)} {cs : List Char} {w : List Token}
    (hname : ∀ p ∈ ps, isLegalName p.name = true)
    (htype : ∀ p ∈ ps, Written p.type.render.toList (.type p.type)) (hw : Writes cs w) :
    ∃ v, Writes ('(' :: ((", ".intercalate (ps.map Param.render)).toList ++
        ')' :: ' ' :: '=' :: '>' :: ' ' :: cs))
        (.symbol .openParen :: (v ++ .symbol .closeParen :: .symbol .arrow :: w)) ∧
      (ps = [] ∧ v = [] ∨ Derives v (.params ps)) := by
  have harrow : Writes (')' :: ' ' :: '=' :: '>' :: ' ' :: cs)
      (.symbol .closeParen :: .symbol .arrow :: w) :=
    .symbol rfl (by decide) (.blank (.arrow (.blank hw)))
  cases ps with
  | nil => exact ⟨[], .symbol rfl (by decide) harrow, .inl ⟨rfl, rfl⟩⟩
  | cons p ps =>
    obtain ⟨v, hv, hd⟩ := params (by simp) hname htype
    exact ⟨v, .symbol rfl (by decide) (hv.append harrow (by decide)), .inr hd⟩

theorem type {τ : Ty} (h : τ.Legal) : Written τ.render.toList (.type τ) := by
  induction h with
  | boolean =>
    rw [Ty.render_boolean]
    exact ⟨_, .keyword .boolean, .boolean⟩
  | number =>
    rw [Ty.render_number]
    exact ⟨_, .keyword .number, .number⟩
  | @func ps ret hname _ _ ihps ihret =>
    obtain ⟨w, hw, hd⟩ := ihret
    obtain ⟨v, hv, hps⟩ := header hname ihps hw
    have htext : (Ty.func ps ret).render.toList =
        '(' :: ((", ".intercalate (ps.map Param.render)).toList ++
          ')' :: ' ' :: '=' :: '>' :: ' ' :: ret.render.toList) := by
      simp [Ty.render_func]
    rw [htext]
    rcases hps with ⟨rfl, rfl⟩ | hps
    · exact ⟨_, hv, .thunkType hd⟩
    · exact ⟨_, hv, .funcType hps hd⟩

end Written

/-! ## Literals -/

theorem decimalValue_toDigits (n : Nat) : decimalValue (Nat.toDigits 10 n) = n :=
  Nat.ofDigitChars_ten_toDigits

theorem Written.number {n : Int} (h₀ : 0 ≤ n) (h : n < Nat.pow 10 maxDigits) :
    Written (toString n).toList (.atom (.bare (.number n))) := by
  obtain ⟨m, rfl⟩ := Int.eq_ofNat_of_zero_le h₀
  have hm : m.repr.length ≤ maxDigits := (length_repr_le_iff (by decide)).mpr (Int.ofNat_lt.mp h)
  have hvalue : Parser.literalValue m.repr = m := by
    rw [Parser.literalValue, Nat.toList_repr, decimalValue_toDigits]
  have hword : Writes m.repr.toList [.int m.repr] := by
    refine .word (fun rest hr => Token.read?_int ?_ ?_ (hr.head_not (by decide)))
      (if_pos hm)
    · rw [Nat.toList_repr]
      exact Nat.toDigits_ne_nil
    · intro c hc
      rw [Nat.toList_repr] at hc
      exact Nat.isDigit_of_mem_toDigits (by decide) (by decide) hc
  refine ⟨[.int m.repr], hword, ?_⟩
  rw [← hvalue]
  exact .int

/-! ## Terms -/

/-- The names at the node can be read, and its literal is in range. -/
def Layer.Legal {R : Type} : Layer R → Prop
  | .number value => 0 ≤ value ∧ value < Nat.pow 10 maxDigits
  | .var name => isLegalName name = true
  | .func params _ => (∀ p ∈ params, isLegalName p.name = true) ∧ ∀ p ∈ params, p.type.Legal
  | .const name _ _ => isLegalName name = true
  | _ => True

theorem writable_of_legal {n : Int} (h : 0 ≤ n ∧ n < Nat.pow 10 maxDigits) : Writable n := by
  rw [Writable]
  omega

namespace Term

/-- Every node of the term is of a variant of the language, with legal names and literals. -/
inductive Printable : Term → Prop where
  | node {layer : Layer Term} {span : Span} :
      layer.Legal → (∀ t ∈ layer.children, Printable t) → Printable (.node layer span)

theorem Printable.known {t : Term} (h : t.Printable) : t.Known := by
  induction h with
  | node _ _ ih => exact .node ih

theorem Printable.hurdles {t : Term} (h : t.Printable) : t.hurdles = [] := by
  induction h with
  | @node layer span hlegal _ ih =>
    rw [hurdles_node, List.append_eq_nil_iff, List.flatMap_eq_nil_iff]
    refine ⟨?_, ih⟩
    cases layer with
    | number n => rw [hurdle?, if_pos (writable_of_legal hlegal)]; rfl
    | bool | add | ite | var | func | call | seq | const => rfl

theorem Printable.render {t : Term} (h : t.Printable) : t.render = .ok t.doc.text := by
  rw [render_eq, h.hurdles]
  rfl

end Term

theorem Derives.expr_of_operand {w : List Token} {t : Term} (h : Derives w (.operand t)) :
    Derives w (.expr t) := .sum (.operand h)

namespace Written

theorem program {cs : List Char} {t : Term} (h : Written cs (.expr t)) :
    Written cs (.program t) := by
  obtain ⟨w, hw, hd⟩ := h
  exact ⟨w, hw, .expr hd⟩

/-- A program in parentheses. -/
theorem grouped {cs : List Char} {t : Term} (h : Written cs (.program t)) :
    Written ('(' :: (cs ++ [')'])) (.operand t) := by
  obtain ⟨w, hw, hd⟩ := h
  exact ⟨_, .symbol rfl (by decide) (hw.append (.symbol rfl (by decide) .nil) (by decide)),
    .atom (.group hd)⟩

end Written

/-- The text of `d` is a program that stands for `t`, and an operand unless `d` is a sequence. -/
def Doc.Stands (d : Doc) (t : Term) : Prop :=
  ∃ w, Writes d.text.toList w ∧ Derives w (.program t) ∧
    (d.sequence = false → Derives w (.operand t))

namespace Doc

theorem Stands.of_operand {text : String} {t : Term} (h : Written text.toList (.operand t)) :
    Stands ⟨text, false⟩ t := by
  obtain ⟨w, hw, hd⟩ := h
  exact ⟨w, hw, .expr hd.expr_of_operand, fun _ => hd⟩

theorem Stands.of_program {text : String} {t : Term} (h : Written text.toList (.program t)) :
    Stands ⟨text, true⟩ t := by
  obtain ⟨w, hw, hd⟩ := h
  exact ⟨w, hw, hd, fun hs => by cases hs⟩

theorem Stands.program {d : Doc} {t : Term} (h : d.Stands t) :
    Written d.text.toList (.program t) := by
  obtain ⟨w, hw, hd, _⟩ := h
  exact ⟨w, hw, hd⟩

theorem Stands.embed {d : Doc} {t : Term} (h : d.Stands t) :
    Written d.embed.toList (.operand t) := by
  unfold Doc.embed
  cases hs : d.sequence with
  | false =>
    obtain ⟨w, hw, _, ho⟩ := h
    exact ⟨w, hw, ho hs⟩
  | true =>
    have htext : ("(" ++ d.text ++ ")").toList = '(' :: (d.text.toList ++ [')']) := by simp
    rw [if_pos rfl, htext]
    exact h.program.grouped

end Doc

namespace Written

theorem args {ts : List Term} (hne : ts ≠ [])
    (h : ∀ t ∈ ts, Written t.doc.embed.toList (.operand t.eraseSpans)) :
    Written (", ".intercalate ((ts.map Term.doc).map Doc.embed)).toList
      (.args (ts.map Term.eraseSpans)) := by
  induction ts with
  | nil => exact absurd rfl hne
  | cons t ts ih =>
    obtain ⟨w, hw, hd⟩ := h t List.mem_cons_self
    cases ts with
    | nil =>
      refine ⟨w, ?_, .arg hd.expr_of_operand⟩
      simpa using hw
    | cons u ts =>
      obtain ⟨v, hv, hd'⟩ := ih (by simp) fun r hr => h r (List.mem_cons_of_mem t hr)
      have htext : (", ".intercalate (((t :: u :: ts).map Term.doc).map Doc.embed)).toList =
          t.doc.embed.toList ++ ',' :: ' ' ::
            (", ".intercalate (((u :: ts).map Term.doc).map Doc.embed)).toList := by
        simp [String.intercalate_cons_cons]
      refine ⟨_, ?_, .args hd.expr_of_operand hd'⟩
      rw [htext]
      exact hw.append (.symbol rfl (by decide) (.blank hv)) (by decide)

theorem add {cs ds : List Char} {a b : Term} (ha : Written cs (.operand a))
    (hb : Written ds (.operand b)) :
    Written (cs ++ ' ' :: '+' :: ' ' :: ds) (.expr (.bare (.add a b))) := by
  obtain ⟨w, hw, hda⟩ := ha
  obtain ⟨v, hv, hdb⟩ := hb
  exact ⟨_, hw.append (.blank (.symbol rfl (by decide) (.blank hv))) (by decide),
    .sum (.add (.operand hda) hdb)⟩

theorem ite {cs ds es : List Char} {c a b : Term} (hc : Written cs (.operand c))
    (ha : Written ds (.operand a)) (hb : Written es (.operand b)) :
    Written (cs ++ ' ' :: '?' :: ' ' :: (ds ++ ' ' :: ':' :: ' ' :: es))
      (.expr (.bare (.ite c a b))) := by
  obtain ⟨w, hw, hdc⟩ := hc
  obtain ⟨v, hv, hda⟩ := ha
  obtain ⟨u, hu, hdb⟩ := hb
  have htokens : Derives (w ++ .symbol .question :: (v ++ .symbol .colon :: u))
      (.expr (.bare (.ite c a b))) := by
    simpa using Derives.ite (.operand hdc) hda.expr_of_operand hdb.expr_of_operand
  have helse : Writes (ds ++ ' ' :: ':' :: ' ' :: es) (v ++ .symbol .colon :: u) :=
    hv.append (.blank (.symbol rfl (by decide) (.blank hu))) (by decide)
  exact ⟨_, hw.append (.blank (.symbol rfl (by decide) (.blank helse))) (by decide), htokens⟩

theorem func {ps : List (Param Ty)} {cs : List Char} {t : Term}
    (hname : ∀ p ∈ ps, isLegalName p.name = true) (htype : ∀ p ∈ ps, p.type.Legal)
    (ht : Written cs (.operand t)) :
    Written ('(' :: ((", ".intercalate (ps.map Param.render)).toList ++
      ')' :: ' ' :: '=' :: '>' :: ' ' :: cs)) (.expr (.bare (.func ps t))) := by
  obtain ⟨w, hw, hd⟩ := ht
  obtain ⟨v, hv, hps⟩ := header hname (fun p hp => .type (htype p hp)) hw
  rcases hps with ⟨rfl, rfl⟩ | hps
  · exact ⟨_, hv, .thunk hd.expr_of_operand⟩
  · exact ⟨_, hv, .func hps hd.expr_of_operand⟩

theorem call {cs : List Char} {f : Term} {ts : List Term} (hf : Written cs (.operand f))
    (h : ∀ t ∈ ts, Written t.doc.embed.toList (.operand t.eraseSpans)) :
    Written (cs ++ '(' :: ((", ".intercalate ((ts.map Term.doc).map Doc.embed)).toList ++ [')']))
      (.operand (.bare (.call f (ts.map Term.eraseSpans)))) := by
  obtain ⟨w, hw, hdf⟩ := hf
  have hclose : Writes [')'] [.symbol .closeParen] := .symbol rfl (by decide) .nil
  cases ts with
  | nil => exact ⟨_, hw.append (.symbol rfl (by decide) hclose) (by decide), .run hdf⟩
  | cons t ts =>
    obtain ⟨v, hv, hds⟩ := args (by simp) h
    have htokens : Derives (w ++ .symbol .openParen :: (v ++ [.symbol .closeParen]))
        (.operand (.bare (.call f ((t :: ts).map Term.eraseSpans)))) := by
      simpa using Derives.call hdf hds
    exact ⟨_, hw.append (.symbol rfl (by decide) (hv.append hclose (by decide))) (by decide),
      htokens⟩

theorem seq {cs ds : List Char} {t u : Term} (ht : Written cs (.operand t))
    (hu : Written ds (.program u)) :
    Written (cs ++ ';' :: ' ' :: ds) (.program (.bare (.seq t u))) := by
  obtain ⟨w, hw, hdt⟩ := ht
  obtain ⟨v, hv, hdu⟩ := hu
  exact ⟨_, hw.append (.symbol rfl (by decide) (.blank hv)) (by decide),
    .seq hdt.expr_of_operand hdu⟩

theorem const {name : String} {cs ds : List Char} {t u : Term} (hname : isLegalName name = true)
    (ht : Written cs (.operand t)) (hu : Written ds (.program u)) :
    Written ("const".toList ++ ' ' ::
        (name.toList ++ ' ' :: '=' :: ' ' :: (cs ++ ';' :: ' ' :: ds)))
      (.program (.bare (.const name t u))) := by
  obtain ⟨w, hw, hdt⟩ := ht
  obtain ⟨v, hv, hdu⟩ := hu
  have hinit : Writes (cs ++ ';' :: ' ' :: ds) (w ++ .symbol .semicolon :: v) :=
    hw.append (.symbol rfl (by decide) (.blank hv)) (by decide)
  have hbind : Writes (name.toList ++ ' ' :: '=' :: ' ' :: (cs ++ ';' :: ' ' :: ds))
      (.name name :: .symbol .equals :: (w ++ .symbol .semicolon :: v)) :=
    (Writes.name hname).append (.blank (.equals (.blank hinit))) (by decide)
  exact ⟨_, (Writes.keyword .const).append (.blank hbind) (by decide),
    .const hdt.expr_of_operand hdu⟩

end Written

/-! ## Reading back -/

/-- The printed form of a printable term stands for the term. -/
theorem Term.Printable.stands {t : Term} (h : t.Printable) : t.doc.Stands t.eraseSpans := by
  induction h with
  | @node layer span hlegal _ ih =>
    rw [Term.doc_node, Term.eraseSpans_node]
    have hembed : ∀ t ∈ layer.children, Written t.doc.embed.toList (.operand t.eraseSpans) :=
      fun t ht => (ih t ht).embed
    have hprogram : ∀ t ∈ layer.children, Written t.doc.text.toList (.program t.eraseSpans) :=
      fun t ht => (ih t ht).program
    cases layer with
    | bool value =>
      cases value with
      | false => exact .of_operand ⟨_, .keyword .falseLit, .atom .falseLit⟩
      | true => exact .of_operand ⟨_, .keyword .trueLit, .atom .trueLit⟩
    | number value =>
      obtain ⟨w, hw, hd⟩ := Written.number hlegal.1 hlegal.2
      rw [Layer.map, Doc.ofDocs_number (writable_of_legal hlegal)]
      exact .of_operand ⟨w, hw, .atom hd⟩
    | add a b =>
      simp only [Layer.children, List.forall_mem_cons] at hembed
      obtain ⟨ha, hb, _⟩ := hembed
      refine .of_operand ?_
      simpa [Layer.map, Term.bare] using (Written.add ha hb).program.grouped
    | ite c a b =>
      simp only [Layer.children, List.forall_mem_cons] at hembed
      obtain ⟨hc, ha, hb, _⟩ := hembed
      refine .of_operand ?_
      simpa [Layer.map, Term.bare] using (Written.ite hc ha hb).program.grouped
    | var name => exact .of_operand ⟨_, .name hlegal, .atom .name⟩
    | func ps body =>
      simp only [Layer.children, List.forall_mem_cons] at hembed
      obtain ⟨hbody, _⟩ := hembed
      refine .of_operand ?_
      simpa [Layer.map, Term.bare] using (Written.func hlegal.1 hlegal.2 hbody).program.grouped
    | call f ts =>
      simp only [Layer.children, List.forall_mem_cons] at hembed
      obtain ⟨hf, hts⟩ := hembed
      refine .of_operand ?_
      simpa [Layer.map, Term.bare] using Written.call hf hts
    | seq t u =>
      simp only [Layer.children, List.forall_mem_cons] at hembed hprogram
      obtain ⟨ht, _⟩ := hembed
      obtain ⟨_, hu, _⟩ := hprogram
      refine .of_program ?_
      simpa [Layer.map, Term.bare] using Written.seq ht hu
    | const name t u =>
      simp only [Layer.children, List.forall_mem_cons] at hembed hprogram
      obtain ⟨ht, _⟩ := hembed
      obtain ⟨_, hu, _⟩ := hprogram
      refine .of_program ?_
      simpa [Layer.map, Term.bare] using Written.const hlegal ht hu

/-- A text of the tokens of a program is parsed, as the term that the program stands for. -/
theorem parse_of_spells {text : String} {w : List Token} {t : Term} (source : Option String)
    (hs : Spells text.toList w) (hd : Derives w (.program t))
    (hfits : ∀ tok ∈ w, tok.excessDigits? = none) :
    ∃ t', parse text source = .ok t' ∧ t'.eraseSpans = t := by
  obtain ⟨lxs, p, hscan, rfl⟩ := Scan.ofText_of_spells hs
  obtain ⟨_, _, t', ht, hplaced⟩ := hd.placeable (sourceName source) lxs rfl
  refine ⟨t'.term, ?_, ht⟩
  rw [parse_of_placed hscan hplaced, List.findSome?_eq_none_iff.mpr hfits]
  rfl

theorem parse_of_written {text : String} {t : Term} (source : Option String)
    (h : Written text.toList (.program t)) :
    ∃ t', parse text source = .ok t' ∧ t'.eraseSpans = t := by
  obtain ⟨w, hw, hd⟩ := h
  exact parse_of_spells source hw.spells_self hd hw.fits

/-- A printable term has a printed form, and reading that form gives the term back with all its
names, up to spans. -/
theorem parse_render {t : Term} (ht : t.Printable) (source : Option String) :
    ∃ text t', t.render = .ok text ∧ parse text source = .ok t' ∧
      t'.eraseSpans = t.eraseSpans := by
  obtain ⟨t', hparse, herase⟩ := parse_of_written source ht.stands.program
  exact ⟨t.doc.text, t', ht.render, hparse, herase⟩

/-- `((f: (x: number) => boolean) => (const true_ = 4300; f((true_ + $))))` -/
def Term.callback : Term :=
  bare (.func [⟨"f", .func [⟨"x", .number⟩] .boolean⟩]
    (bare (.const "true_" (bare (.number 4300))
      (bare (.call (bare (.var "f")) [bare (.add (bare (.var "true_")) (bare (.var "$")))])))))

theorem parse_render_callback :
    Term.callback.Printable ∧ ∃ text t', Term.callback.render = .ok text ∧
      parse text none = .ok t' ∧ t'.eraseSpans = Term.callback.eraseSpans := by
  have hvar (name : String) (h : isLegalName name = true) : (Term.bare (.var name)).Printable :=
    .node h (by simp [Layer.children])
  have hsum : (Term.bare (.add (.bare (.var "true_")) (.bare (.var "$")))).Printable :=
    .node trivial (by simpa [Layer.children] using ⟨hvar _ (by decide), hvar _ (by decide)⟩)
  have hcall : (Term.bare (.call (.bare (.var "f"))
      [.bare (.add (.bare (.var "true_")) (.bare (.var "$")))])).Printable :=
    .node trivial (by simpa [Layer.children] using ⟨hvar _ (by decide), hsum⟩)
  have hnumber : (Term.bare (.number 4300)).Printable := by
    have hlt : maxDigits < Nat.pow 10 maxDigits := by
      rw [Nat.pow_eq]
      exact Nat.lt_pow_self (by decide)
    exact .node ⟨by decide, Int.ofNat_lt.mpr hlt⟩ (by simp [Layer.children])
  have hbody : (Term.bare (.const "true_" (.bare (.number 4300)) (.bare (.call (.bare (.var "f"))
      [.bare (.add (.bare (.var "true_")) (.bare (.var "$")))])))).Printable :=
    .node (show isLegalName "true_" = true by decide)
      (by simpa [Layer.children] using ⟨hnumber, hcall⟩)
  have htype : (Ty.func [⟨"x", .number⟩] .boolean).Legal :=
    .func (by simpa using by decide) (by simpa using .number) .boolean
  have h : Term.callback.Printable :=
    .node ⟨by simpa using by decide, by simpa using htype⟩ (by simpa [Layer.children] using hbody)
  exact ⟨h, parse_render h none⟩

end ArrowLang
