import ArrowLang.Proofs.Acceptance
import ArrowLang.Proofs.Relabelling
import ArrowLang.Proofs.RoundTrip
import ArrowLang.Proofs.Scanning

/-!
# ArrowLang.Proofs.Formatting

Formatting a program: reading it and printing what was read.

* `Phrase.Printable`: what stands for the phrase can be printed. `Derives.printable` says so of all
  phrases of legal tokens whose literals are not too long, and `parse_printable` of all that is
  parsed.
* `Term.doc_mapSpans`: the printed form has nothing to do with spans.

So formatting goes through, formatting once more changes nothing, and a checker says the same of
the program before and after.
-/

namespace ArrowLang

/-! ## What is read can be printed -/

/-- Digits that are read on from the value `n` do not reach that of `n + 1` and as many zeros. -/
theorem foldl_digits_lt {digits : List Char} (h : ∀ c ∈ digits, c.isDigit = true) (n : Nat) :
    digits.foldl (fun n d => 10 * n + (d.toNat - '0'.toNat)) n <
      (n + 1) * Nat.pow 10 digits.length := by
  induction digits generalizing n with
  | nil => exact Nat.lt_of_lt_of_eq (Nat.lt_succ_self n) (Nat.mul_one _).symm
  | cons c digits ih =>
    obtain ⟨hc, hdigits⟩ := List.forall_mem_cons.mp h
    have hdigit : c.toNat - '0'.toNat ≤ 9 := by
      have h9 : '9'.toNat = '0'.toNat + 9 := rfl
      have := Char.isDigit_iff_toNat.mp hc
      omega
    calc digits.foldl (fun n d => 10 * n + (d.toNat - '0'.toNat)) (10 * n + (c.toNat - '0'.toNat))
        < (10 * n + (c.toNat - '0'.toNat) + 1) * Nat.pow 10 digits.length := ih hdigits _
      _ ≤ ((n + 1) * 10) * Nat.pow 10 digits.length := Nat.mul_le_mul_right _ (by omega)
      _ = (n + 1) * Nat.pow 10 (digits.length + 1) := by
        rw [Nat.mul_assoc, Nat.mul_comm 10]
        rfl

theorem literalValue_legal {digits : String} (h : ∀ c ∈ digits.toList, c.isDigit = true)
    (hfits : Parser.excessDigits? digits = none) :
    0 ≤ Parser.literalValue digits ∧ Parser.literalValue digits < Nat.pow 10 maxDigits := by
  have hlength : digits.length ≤ maxDigits := by simpa [Parser.excessDigits?] using hfits
  generalize maxDigits = k at hlength
  have hlt : decimalValue digits.toList < Nat.pow 10 digits.length := by
    have hvalue := foldl_digits_lt h 0
    rw [Nat.zero_add, Nat.one_mul, String.length_toList] at hvalue
    exact hvalue
  have hle : Nat.pow 10 digits.length ≤ Nat.pow 10 k := Nat.pow_le_pow_right (by decide) hlength
  exact ⟨Int.natCast_nonneg _, Int.ofNat_lt.mpr (Nat.lt_of_lt_of_le hlt hle)⟩

namespace Term

theorem printable_node {layer : Layer Term} {span : Span} :
    (node layer span).Printable ↔ layer.Legal ∧ ∀ t ∈ layer.children, t.Printable := by
  constructor
  · intro h
    cases h with
    | node hlegal hchildren => exact ⟨hlegal, hchildren⟩
  · rintro ⟨hlegal, hchildren⟩
    exact .node hlegal hchildren

theorem not_printable_unknown {variant : String} {span : Span} :
    ¬ (unknown variant span).Printable := by
  intro h
  cases h

theorem printable_mapSpans (f : Span → Span) (t : Term) :
    (t.mapSpans f).Printable ↔ t.Printable := by
  induction t using byChildren with
  | unknown variant span => exact iff_of_false not_printable_unknown not_printable_unknown
  | node layer span ih =>
    have hlegal : (layer.map (mapSpans f)).Legal ↔ layer.Legal := by cases layer <;> exact Iff.rfl
    simp only [mapSpans_node, printable_node, Layer.children_map, List.forall_mem_map, hlegal]
    exact and_congr_right fun _ => forall_congr' fun t => forall_congr' fun ht => ih t ht

theorem doc_mapSpans (f : Span → Span) (t : Term) : (t.mapSpans f).doc = t.doc := by
  induction t using byChildren with
  | unknown variant span => rfl
  | node layer span ih => rw [mapSpans_node, doc_node, doc_node, Layer.map_map, Layer.map_congr ih]

end Term

/-- All terms that the phrase stands for can be printed, and so can its types and parameters. -/
def Phrase.Printable : Phrase Term → Prop
  | .program t | .expr t | .sum t | .operand t | .atom t => t.Printable
  | .args ts => ∀ t ∈ ts, t.Printable
  | .params ps => ∀ p ∈ ps, isLegalName p.name = true ∧ p.type.Legal
  | .type τ => τ.Legal

theorem Derives.printable {w : List Token} {x : Phrase Term} (h : Derives w x)
    (hw : ∀ tok ∈ w, tok.Legal ∧ tok.excessDigits? = none) : x.Printable := by
  induction h with
  | expr _ ih => exact ih hw
  | statement _ ih => exact ih fun tok h => hw tok (by simp [h])
  | seq _ _ iht ihu =>
    have ht := iht fun tok h => hw tok (by simp [h])
    have hu := ihu fun tok h => hw tok (by simp [h])
    exact Term.Printable.node trivial (by simpa [Layer.children] using ⟨ht, hu⟩)
  | @const name _ _ _ _ _ _ iht ihu =>
    have hname : isLegalName name = true := (hw (.name name) (by simp)).1
    have ht := iht fun tok h => hw tok (by simp [h])
    have hu := ihu fun tok h => hw tok (by simp [h])
    exact Term.Printable.node hname (by simpa [Layer.children] using ⟨ht, hu⟩)
  | sum _ ih => exact ih hw
  | ite _ _ _ ihc iha ihb =>
    have hc := ihc fun tok h => hw tok (by simp [h])
    have ha := iha fun tok h => hw tok (by simp [h])
    have hb := ihb fun tok h => hw tok (by simp [h])
    exact Term.Printable.node trivial (by simpa [Layer.children] using ⟨hc, ha, hb⟩)
  | thunk _ ih =>
    have ht := ih fun tok h => hw tok (by simp [h])
    exact Term.Printable.node ⟨by simp, by simp⟩ (List.forall_mem_cons.mpr ⟨ht, by simp⟩)
  | func _ _ ihps iht =>
    have hps := ihps fun tok h => hw tok (by simp [h])
    have ht := iht fun tok h => hw tok (by simp [h])
    exact Term.Printable.node ⟨fun p hp => (hps p hp).1, fun p hp => (hps p hp).2⟩
      (List.forall_mem_cons.mpr ⟨ht, by simp⟩)
  | operand _ ih => exact ih hw
  | add _ _ iha ihb =>
    have ha := iha fun tok h => hw tok (by simp [h])
    have hb := ihb fun tok h => hw tok (by simp [h])
    exact Term.Printable.node trivial (by simpa [Layer.children] using ⟨ha, hb⟩)
  | atom _ ih => exact ih hw
  | run _ ih =>
    have hf := ih fun tok h => hw tok (by simp [h])
    exact Term.Printable.node trivial (List.forall_mem_cons.mpr ⟨hf, by simp⟩)
  | call _ _ ihf ihts =>
    have hf := ihf fun tok h => hw tok (by simp [h])
    have hts := ihts fun tok h => hw tok (by simp [h])
    exact Term.Printable.node trivial (List.forall_mem_cons.mpr ⟨hf, hts⟩)
  | arg _ ih => exact List.forall_mem_cons.mpr ⟨ih hw, by simp⟩
  | args _ _ iht ihts =>
    have ht := iht fun tok h => hw tok (by simp [h])
    have hts := ihts fun tok h => hw tok (by simp [h])
    exact List.forall_mem_cons.mpr ⟨ht, hts⟩
  | trueLit => exact Term.Printable.node trivial (by simp [Layer.children])
  | falseLit => exact Term.Printable.node trivial (by simp [Layer.children])
  | @int digits =>
    obtain ⟨hdigits, hfits⟩ := hw (.int digits) (by simp)
    exact Term.Printable.node (literalValue_legal hdigits hfits) (by simp [Layer.children])
  | @name name =>
    have hname : isLegalName name = true := (hw (.name name) (by simp)).1
    exact Term.Printable.node hname (by simp [Layer.children])
  | group _ ih => exact ih fun tok h => hw tok (by simp [h])
  | @param name _ _ _ ih =>
    have hname : isLegalName name = true := (hw (.name name) (by simp)).1
    have hτ := ih fun tok h => hw tok (by simp [h])
    exact List.forall_mem_cons.mpr ⟨⟨hname, hτ⟩, by simp⟩
  | @params name _ _ _ _ _ _ ihτ ihps =>
    have hname : isLegalName name = true := (hw (.name name) (by simp)).1
    have hτ := ihτ fun tok h => hw tok (by simp [h])
    have hps := ihps fun tok h => hw tok (by simp [h])
    exact List.forall_mem_cons.mpr ⟨⟨hname, hτ⟩, hps⟩
  | boolean => exact Ty.Legal.boolean
  | number => exact Ty.Legal.number
  | thunkType _ ih =>
    have hτ := ih fun tok h => hw tok (by simp [h])
    exact Ty.Legal.func (by simp) (by simp) hτ
  | funcType _ _ ihps ihτ =>
    have hps := ihps fun tok h => hw tok (by simp [h])
    have hτ := ihτ fun tok h => hw tok (by simp [h])
    exact Ty.Legal.func (fun p hp => (hps p hp).1) (fun p hp => (hps p hp).2) hτ
  | typeGroup _ ih => exact ih fun tok h => hw tok (by simp [h])

/-- A text that is parsed is scanned to its end, and its tokens are a program with literals that are
not too long. -/
theorem lexes_of_parse {text : String} {source : Option String} {t : Term}
    (h : parse text source = .ok t) :
    ∃ lxs q, Lexes .origin text.toList lxs q [] ∧
      Derives (lxs.map Lexeme.token) (.program t.eraseSpans) ∧
      ∀ lx ∈ lxs, lx.token.excessDigits? = none := by
  obtain ⟨q, rest, hlex, hend⟩ := Scan.ofText_lexes text
  cases hending : (Scan.ofText text).ending with
  | stuck c p =>
    simp only [parse, Parser.readTree, hending] at h
    cases hs : Parser.feedAll (sourceName source) .initial (Scan.ofText text).lexemes <;>
      simp [hs] at h
  | textEnd p =>
    rw [hending] at hend
    obtain ⟨rfl, rfl⟩ := hend
    obtain ⟨haccepts, hfits⟩ := (parse_ok_iff hlex.ofText_eq).mp h
    exact ⟨_, p, hlex, Parser.accepts_iff.mp ⟨t, haccepts, rfl⟩, hfits⟩

theorem parse_printable {text : String} {source : Option String} {t : Term}
    (h : parse text source = .ok t) : t.Printable := by
  obtain ⟨lxs, q, hlex, hd, hfits⟩ := lexes_of_parse h
  have hprintable : t.eraseSpans.Printable := by
    refine hd.printable fun tok htok => ?_
    obtain ⟨lx, hlx, rfl⟩ := List.mem_map.mp htok
    exact ⟨hlex.legal lx hlx, hfits lx hlx⟩
  exact (Term.printable_mapSpans _ t).mp hprintable

/-! ## Terms that differ in spans only -/

/-- Terms with the same nodes have the same printed form. -/
theorem Term.doc_of_eraseSpans {t u : Term} (h : t.eraseSpans = u.eraseSpans) : t.doc = u.doc := by
  rw [← doc_mapSpans (fun _ => .unknown) t, ← doc_mapSpans (fun _ => .unknown) u]
  exact congrArg doc h

/-! ## Formatting -/

/-- Formatting is stable and does not change what a checker says. Of every text that is parsed, the
term can be printed. Its printed form is parsed as the same term up to spans, and printed as it was.
Under every policy and host, and in every environment, the checks of the term before and after come
to a verdict, and both verdicts give the same type, or the same codes and messages one by one. -/
theorem parse_render_parse {text : String} {source : Option String} {t : Term}
    (h : parse text source = .ok t) (source' : Option String) :
    t.Printable ∧ ∃ text' t', t.render = .ok text' ∧ parse text' source' = .ok t' ∧
      t'.eraseSpans = t.eraseSpans ∧ t'.render = .ok text' ∧
      ∀ (c : Checker) (host : Host) (given : Given) (env : Env), c.env given = .ok env →
        ∃ v v', (c.check host t given).outcome = .ok v ∧
          (c.check host t' given).outcome = .ok v' ∧ v.gist = v'.gist := by
  have hprintable := parse_printable h
  obtain ⟨t', hparse, herase⟩ := parse_of_written source' hprintable.stands.program
  have hprintable' := parse_printable hparse
  have hrender' : t'.render = .ok t.doc.text := by
    rw [hprintable'.render, Term.doc_of_eraseSpans herase]
  exact ⟨hprintable, t.doc.text, t', hprintable.render, hparse, herase, hrender',
    fun c host given env he =>
      Checker.gist_of_eraseSpans hprintable.known hprintable'.known he (by rw [herase])⟩

/-- Parentheses, zeros and a comment that are not printed, and a name that starts like a keyword. -/
theorem parse_render_parse_redundant :
    let place (i j : Nat) : Span := Position.spanTo "<stdin>" ⟨1, i⟩ ⟨1, j⟩
    let t : Term := .node (.call (.node (.var "truer") (place 1 6))
      [.node (.number 7) (place 8 11), .node (.var "x") (place 12 13)]) (place 0 14)
    parse "(truer)(007,x);// y\n" none = .ok t ∧
      t.Printable ∧ ∃ text' t', t.render = .ok text' ∧ parse text' none = .ok t' ∧
        t'.eraseSpans = t.eraseSpans ∧ t'.render = .ok text' ∧
        ∀ (c : Checker) (host : Host) (given : Given) (env : Env), c.env given = .ok env →
          ∃ v v', (c.check host t given).outcome = .ok v ∧
            (c.check host t' given).outcome = .ok v' ∧ v.gist = v'.gist := by
  intro place t
  have hlex : Lexes .origin "(truer)(007,x);// y\n".toList
      [⟨.symbol .openParen, ⟨1, 0⟩, ⟨1, 1⟩⟩, ⟨.name "truer", ⟨1, 1⟩, ⟨1, 6⟩⟩,
        ⟨.symbol .closeParen, ⟨1, 6⟩, ⟨1, 7⟩⟩, ⟨.symbol .openParen, ⟨1, 7⟩, ⟨1, 8⟩⟩,
        ⟨.int "007", ⟨1, 8⟩, ⟨1, 11⟩⟩, ⟨.symbol .comma, ⟨1, 11⟩, ⟨1, 12⟩⟩,
        ⟨.name "x", ⟨1, 12⟩, ⟨1, 13⟩⟩, ⟨.symbol .closeParen, ⟨1, 13⟩, ⟨1, 14⟩⟩,
        ⟨.symbol .semicolon, ⟨1, 14⟩, ⟨1, 15⟩⟩] ⟨2, 0⟩ [] :=
    .token rfl (.token rfl (.token rfl (.token rfl (.token rfl (.token rfl (.token rfl (.token rfl
      (.token rfl (.comment (.blank rfl .done))))))))))
  have hparse : parse "(truer)(007,x);// y\n" none = .ok t :=
    (parse_ok_iff hlex.ofText_eq).mpr ⟨⟨_, _, rfl, rfl, rfl⟩, by decide⟩
  exact ⟨hparse, parse_render_parse hparse none⟩

end ArrowLang
