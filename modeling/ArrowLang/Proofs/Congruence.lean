import ArrowLang.Proofs.Lockstep
import ArrowLang.Proofs.Typing
import ArrowLang.Proofs.TypeEquality

/-!
# ArrowLang.Proofs.Congruence

The checks of two nodes do the same things if those of their children do.

* `Ty.View`: how closely types are looked at, and `Ty.View.Same`: types that look the same. There is
  the exact view, and the view up to names.
* `Layer.Resembles`: nodes of one variant, whatever their children and the names they bind.
* `Layer.binds`: the names that a node makes visible in a child. A function binds its parameters in
  its body, and a constant is bound in what follows it and not in what it is bound to.
* `FailFast.ChildrenAlike`: children in the same place have alike checks, in all environments that
  two nodes can check them in.
* `FailFast.eval_check_mapIdx`: checks of nodes end alike if those of their children do, on whatever
  ways.

No rule looks at names inside of types, so types that look the same in some view lead to results
that look the same in this view, and to the same complaints.
-/

namespace ArrowLang

/-! ## Views of types -/

/-- A view of types and parameters. It may hide names, and nothing but names. -/
structure Ty.View where
  type : Ty → Ty
  param : Param Ty → Param Ty
  type_func : ∀ params ret, type (.func params ret) = .func (params.map param) (type ret)
  type_param : ∀ p, (param p).type = type p.type
  erased : ∀ τ, (type τ).eraseNames = τ.eraseNames

namespace Ty.View

def exact : View where
  type τ := τ
  param p := p
  type_func params ret := by rw [List.map_id']
  type_param _ := rfl
  erased _ := rfl

def upToNames : View where
  type := eraseNames
  param := Param.eraseNames
  type_func := eraseNames_func
  type_param _ := rfl
  erased := eraseNames_eraseNames

variable (v : View)

def Same (σ τ : Ty) : Prop := v.type σ = v.type τ

variable {v} {params params' : List (Param Ty)} {σ τ ret ret' : Ty}

theorem Same.eraseNames (h : v.Same σ τ) : σ.eraseNames = τ.eraseNames := by
  rw [← v.erased σ, h, v.erased]

theorem same_func : v.Same (.func params ret) (.func params' ret') ↔
    params.map v.param = params'.map v.param ∧ v.Same ret ret' := by
  rw [Same, v.type_func, v.type_func, func.injEq]
  rfl

theorem map_type_of_map_param (h : params.map v.param = params'.map v.param) :
    params.map (fun p => v.type p.type) = params'.map fun p => v.type p.type := by
  have htypes := congrArg (List.map Param.type) h
  simpa only [List.map_map, Function.comp_def, v.type_param] using htypes

end Ty.View

/-! ## The rules -/

namespace FailFast

variable {f : Span → Span} {A : Env → Env → Prop} {v : Ty.View}

theorem reject_alike {R : Ty → Ty → Prop} (code : Code) (span : Span) (detail : Option String) :
    Comp.Alike f A R (reject code span detail) (reject code (f span) detail) := by
  unfold reject
  rw [← Diagnostic.mapSpan_ofCode]
  exact .fail

theorem sumRule_same (left right : Span) {σ σ' τ τ' : Ty} (hσ : v.Same σ σ') (hτ : v.Same τ τ') :
    Comp.Alike f A v.Same (sumRule left right σ τ) (sumRule (f left) (f right) σ' τ') := by
  rcases Ty.kinds_of_eraseNames hσ.eraseNames with
    ⟨rfl, rfl⟩ | ⟨rfl, rfl⟩ | ⟨_, _, _, _, rfl, rfl, _⟩
  · exact reject_alike _ _ _
  · rcases Ty.kinds_of_eraseNames hτ.eraseNames with
      ⟨rfl, rfl⟩ | ⟨rfl, rfl⟩ | ⟨_, _, _, _, rfl, rfl, _⟩
    · exact reject_alike _ _ _
    · exact .pure rfl
    · exact reject_alike _ _ _
  · exact reject_alike _ _ _

theorem iteRule_same (cond whole : Span) {γ γ' σ σ' τ τ' : Ty} (hγ : v.Same γ γ')
    (hσ : v.Same σ σ') (hτ : v.Same τ τ') :
    Comp.Alike f A v.Same (iteRule cond whole γ σ τ) (iteRule (f cond) (f whole) γ' σ' τ') := by
  rcases Ty.kinds_of_eraseNames hγ.eraseNames with
    ⟨rfl, rfl⟩ | ⟨rfl, rfl⟩ | ⟨_, _, _, _, rfl, rfl, _⟩
  · simp only [iteRule, Ty.equal_congr hσ.eraseNames hτ.eraseNames]
    split
    · exact .pure hσ
    · exact reject_alike _ _ _
  · exact reject_alike _ _ _
  · exact reject_alike _ _ _

/-- A variable that is not found is named in the complaint. -/
theorem varRule_same {name name' : String} (span : Span) {found found' : Option Ty}
    (h : found.map v.type = found'.map v.type) (hname : found = none → name = name') :
    Comp.Alike f A v.Same (varRule name span found) (varRule name' (f span) found') := by
  cases found with
  | none =>
    cases found' with
    | none =>
      cases hname rfl
      exact reject_alike _ _ _
    | some τ => cases h
  | some σ =>
    cases found' with
    | none => cases h
    | some τ => exact .pure (Option.some.inj h)

theorem mismatch?_map (params : List (Param Ty)) (args : List Span) (τs : List Ty) :
    mismatch? params (args.map f) τs = (mismatch? params args τs).map f := by
  unfold mismatch?
  rw [List.zip_map_left, List.zip_map_right, List.find?_map, Option.map_map, Option.map_map]
  rfl

/-- Arguments are compared with parameters without names. -/
theorem mismatch?_eraseNames (params : List (Param Ty)) (args : List Span) (τs : List Ty) :
    mismatch? (params.map Param.eraseNames) args (τs.map Ty.eraseNames) =
      mismatch? params args τs := by
  unfold mismatch?
  rw [List.zip_map_right, List.zip_map, List.find?_map, Option.map_map]
  simp only [Function.comp_def, Prod.map, Param.eraseNames, Ty.equal_eraseNames, id]

theorem callRule_same (callee whole : Span) (args : List Span) {φ φ' : Ty} {τs τs' : List Ty}
    (hφ : v.Same φ φ') (hτs : τs.map v.type = τs'.map v.type) :
    Comp.Alike f A v.Same (callRule callee whole args φ τs)
      (callRule (f callee) (f whole) (args.map f) φ' τs') := by
  rcases Ty.kinds_of_eraseNames hφ.eraseNames with
    ⟨rfl, rfl⟩ | ⟨rfl, rfl⟩ | ⟨params, ret, params', ret', rfl, rfl, hparams, _⟩
  · exact reject_alike _ _ _
  · exact reject_alike _ _ _
  · have hcount : params.length = params'.length := by
      simpa using congrArg List.length hparams
    have hcount' : τs.length = τs'.length := by simpa using congrArg List.length hτs
    have herased : τs.map Ty.eraseNames = τs'.map Ty.eraseNames := by
      have herased := congrArg (List.map Ty.eraseNames) hτs
      simpa only [List.map_map, Function.comp_def, v.erased] using herased
    have hmismatch : mismatch? params args τs = mismatch? params' args τs' := by
      rw [← mismatch?_eraseNames, hparams, herased, mismatch?_eraseNames]
    simp only [callRule, mismatch?_map, hcount, hcount', hmismatch]
    split
    · cases mismatch? params' args τs' with
      | none => exact .pure (Ty.View.same_func.mp hφ).2
      | some span => exact reject_alike _ _ _
    · exact reject_alike _ _ _

end FailFast

/-! ## Nodes -/

namespace Layer

universe u v w

variable {R : Type u} {S : Type w}

/-- The names bound by a node in the child with number `i`. -/
def binds : Layer R → Nat → List String
  | .func params _, _ => params.map Param.name
  | .const name _ _, 1 => [name]
  | _, _ => []

/-- Variables have names that are related by `N`, and functions have parameters whose types look the
same. -/
inductive Resembles (v : Ty.View) (N : String → String → Prop) :
    Layer R → Layer R → Prop where
  | bool {value : Bool} : Resembles v N (.bool value) (.bool value)
  | number {value : Int} : Resembles v N (.number value) (.number value)
  | add {left right left' right' : R} : Resembles v N (.add left right) (.add left' right')
  | ite {cond onTrue onFalse cond' onTrue' onFalse' : R} :
      Resembles v N (.ite cond onTrue onFalse) (.ite cond' onTrue' onFalse')
  | var {name name' : String} : N name name' → Resembles v N (.var name) (.var name')
  | func {params params' : List (Param Ty)} {body body' : R} :
      params.map v.param = params'.map v.param →
      Resembles v N (.func params body) (.func params' body')
  | call {callee callee' : R} {args args' : List R} : args.length = args'.length →
      Resembles v N (.call callee args) (.call callee' args')
  | seq {first rest first' rest' : R} : Resembles v N (.seq first rest) (.seq first' rest')
  | const {name name' : String} {init rest init' rest' : R} :
      Resembles v N (.const name init rest) (.const name' init' rest')

/-- The node with `f` applied to each child and its number. -/
def mapIdx (f : Nat → R → S) : Layer R → Layer S
  | .bool value => .bool value
  | .number value => .number value
  | .add left right => .add (f 0 left) (f 1 right)
  | .ite cond onTrue onFalse => .ite (f 0 cond) (f 1 onTrue) (f 2 onFalse)
  | .var name => .var name
  | .func params body => .func params (f 0 body)
  | .call callee args => .call (f 0 callee) (args.mapIdx fun i arg => f (i + 1) arg)
  | .seq first rest => .seq (f 0 first) (f 1 rest)
  | .const name init rest => .const name (f 0 init) (f 1 rest)

theorem children_mapIdx (f : Nat → R → S) (layer : Layer R) :
    (layer.mapIdx f).children = layer.children.mapIdx f := by
  cases layer <;> simp [mapIdx, children]

theorem map_eq_mapIdx (g : R → S) (layer : Layer R) :
    layer.map g = layer.mapIdx fun _ r => g r := by
  cases layer with
  | call callee args =>
    have hargs : args.map g = args.mapIdx fun _ arg => g arg := List.ext_getElem? fun i => by simp
    rw [map, mapIdx, hargs]
  | _ => rfl

theorem map_mapIdx {T : Type v} (f : Nat → R → S) (g : S → T) (layer : Layer R) :
    (layer.mapIdx f).map g = layer.mapIdx fun i r => g (f i r) := by
  cases layer with
  | call callee args =>
    have hargs : (args.mapIdx fun i arg => f (i + 1) arg).map g =
        args.mapIdx fun i arg => g (f (i + 1) arg) :=
      List.ext_getElem? fun i => by simp [Function.comp_def]
    simp only [map, mapIdx, hargs]
  | _ => rfl

theorem binds_mapIdx (f : Nat → R → S) (layer : Layer R) (i : Nat) :
    (layer.mapIdx f).binds i = layer.binds i := by
  cases layer with
  | const name init rest => rcases i with _ | _ | i <;> rfl
  | _ => rfl

theorem resembles_mapIdx {v : Ty.View} {N : String → String → Prop} {f : Nat → R → R}
    {layer : Layer R} (h : ∀ x, layer = .var x → N x x) : layer.Resembles v N (layer.mapIdx f) := by
  cases layer with
  | var name => exact .var (h name rfl)
  | func params body => exact .func rfl
  | call callee args => exact .call (by simp)
  | _ => constructor

theorem binds_map (g : R → S) (layer : Layer R) (i : Nat) :
    (layer.map g).binds i = layer.binds i := by
  rw [map_eq_mapIdx, binds_mapIdx]

theorem resembles_map {v : Ty.View} {N : String → String → Prop} {g : R → R} {layer : Layer R}
    (h : ∀ x, layer = .var x → N x x) : layer.Resembles v N (layer.map g) := by
  rw [map_eq_mapIdx]
  exact resembles_mapIdx h

theorem resembles_self {v : Ty.View} {N : String → String → Prop} {layer : Layer R}
    (h : ∀ x, layer = .var x → N x x) : layer.Resembles v N layer := by
  have hself := resembles_map (g := fun r => r) (v := v) h
  rwa [map_id] at hself

theorem Resembles.child {v : Ty.View} {N : String → String → Prop} {layer layer' : Layer R}
    (h : layer.Resembles v N layer') {i : Nat} {r' : R} (hr' : layer'.children[i]? = some r') :
    ∃ r, layer.children[i]? = some r := by
  have hlength : layer.children.length = layer'.children.length := by
    cases h with
    | call hl => simp [children, hl]
    | _ => rfl
  obtain ⟨hi, _⟩ := List.getElem?_eq_some_iff.mp hr'
  exact ⟨_, List.getElem?_eq_getElem (by omega)⟩

end Layer

/-- Bindings are their names and their types. -/
theorem Bindings.ext {bs bs' : Bindings} (hnames : bs.map Prod.fst = bs'.map Prod.fst)
    (htypes : bs.map Prod.snd = bs'.map Prod.snd) : bs = bs' := by
  rw [← List.zip_unzip bs, ← List.zip_unzip bs', List.unzip_fst, List.unzip_snd, List.unzip_fst,
    List.unzip_snd, hnames, htypes]

theorem Env.extend_nil (e : Env) : e.extend [] = e := by
  cases e <;> rfl

namespace FailFast

variable {f : Span → Span} {A : Env → Env → Prop} {v : Ty.View}

def ChildrenAlike (f : Span → Span) (v : Ty.View) (A : Env → Env → Prop)
    (layer layer' : Layer Term) : Prop :=
  ∀ (i : Nat) (u u' : Term), layer.children[i]? = some u → layer'.children[i]? = some u' →
    u'.span = f u.span ∧ ∃ B, Comp.Alike f B v.Same (check u) (check u') ∧
      ∀ (e e' : Env) (bs bs' : Bindings), A e e' → bs.map Prod.fst = layer.binds i →
        bs'.map Prod.fst = layer'.binds i →
        bs.map (fun b => v.type b.2) = bs'.map (fun b => v.type b.2) →
        B (e.extend bs) (e'.extend bs')

namespace ChildrenAlike

variable {layer layer' : Layer Term} {i : Nat} {u u' : Term}

theorem span_eq (h : ChildrenAlike f v A layer layer') (hu : layer.children[i]? = some u)
    (hu' : layer'.children[i]? = some u') : u'.span = f u.span :=
  (h i u u' hu hu').1

/-- A child in which no names are bound is checked in the environment of the node. -/
theorem enter (h : ChildrenAlike f v A layer layer') (hu : layer.children[i]? = some u)
    (hu' : layer'.children[i]? = some u') (hb : layer.binds i = []) (hb' : layer'.binds i = []) :
    Comp.Alike f A v.Same (.suspend (check u)) (.suspend (check u')) := by
  obtain ⟨_, B, hcheck, hextend⟩ := h i u u' hu hu'
  refine .suspend (hcheck.mono fun e e' he => ?_)
  have hsame := hextend e e' [] [] he hb.symm hb'.symm rfl
  rwa [Env.extend_nil, Env.extend_nil] at hsame

theorem enterBinding (h : ChildrenAlike f v A layer layer') (hu : layer.children[i]? = some u)
    (hu' : layer'.children[i]? = some u') {bs bs' : Bindings} (hb : bs.map Prod.fst = layer.binds i)
    (hb' : bs'.map Prod.fst = layer'.binds i)
    (hτ : bs.map (fun b => v.type b.2) = bs'.map (fun b => v.type b.2)) :
    Comp.Alike f A v.Same (.within (fun e => e.extend bs) (.suspend (check u)))
      (.within (fun e => e.extend bs') (.suspend (check u'))) := by
  obtain ⟨_, B, hcheck, hextend⟩ := h i u u' hu hu'
  exact .within (fun e e' he => hextend e e' bs bs' he hb hb' hτ) (.suspend hcheck)

end ChildrenAlike

theorem names_paramBindings (params : List (Param Ty)) :
    (paramBindings params).map Prod.fst = params.map Param.name := by
  rw [paramBindings, List.map_map]
  rfl

/-- The names of two variables have to mean the same, and a variable without a meaning has to keep
its name. -/
theorem check_node_alike {N : String → String → Prop} {layer layer' : Layer Term}
    (hlayers : layer.Resembles v N layer')
    (hnames : ∀ x y e e', N x y → A e e' →
      (e.lookup x).map v.type = (e'.lookup y).map v.type ∧ (e.lookup x = none → x = y))
    (h : ChildrenAlike f v A layer layer') (span : Span) :
    Comp.Alike f A v.Same (check (.node layer span)) (check (.node layer' (f span))) := by
  rw [check_node, check_node]
  cases hlayers with
  | bool => exact .pure rfl
  | number => exact .pure rfl
  | @add left right left' right' =>
    have hl := h.span_eq (i := 0) rfl rfl
    have hr := h.span_eq (i := 1) rfl rfl
    simp only [Layer.map, rule, Child.span, hl, hr]
    refine .bind (h.enter (i := 0) rfl rfl rfl rfl) fun σ σ' hσ => ?_
    refine .bind (h.enter (i := 1) rfl rfl rfl rfl) fun τ τ' hτ => ?_
    exact sumRule_same _ _ hσ hτ
  | ite =>
    have hc := h.span_eq (i := 0) rfl rfl
    simp only [Layer.map, rule, Child.span, hc]
    refine .bind (h.enter (i := 0) rfl rfl rfl rfl) fun γ γ' hγ => ?_
    refine .bind (h.enter (i := 1) rfl rfl rfl rfl) fun σ σ' hσ => ?_
    refine .bind (h.enter (i := 2) rfl rfl rfl rfl) fun τ τ' hτ => ?_
    exact iteRule_same _ _ hγ hσ hτ
  | @var x y hxy =>
    have hfound : Comp.Alike f A
        (fun found found' => found.map v.type = found'.map v.type ∧ (found = none → x = y))
        (.asks fun e => e.lookup x) (.asks fun e => e.lookup y) :=
      .asks fun e e' he => hnames x y e e' hxy he
    exact .bind hfound fun found found' h => varRule_same span h.1 h.2
  | @func params params' body body' hparams =>
    have htypes : (paramBindings params).map (fun b => v.type b.2) =
        (paramBindings params').map fun b => v.type b.2 := by
      rw [paramBindings, paramBindings, List.map_map, List.map_map]
      exact Ty.View.map_type_of_map_param hparams
    have hbody := h.enterBinding (i := 0) rfl rfl (names_paramBindings params)
      (names_paramBindings params') htypes
    exact .map hbody fun ret ret' hret => Ty.View.same_func.mpr ⟨hparams, hret⟩
  | @call callee callee' args args' hl =>
    have hc := h.span_eq (i := 0) rfl rfl
    have hspans : args'.map Term.span = (args.map Term.span).map f := by
      refine List.ext_getElem (by simp [hl]) fun i hi hi' => ?_
      simp only [List.length_map] at hi hi'
      simp only [List.getElem_map]
      exact h.span_eq (i := i + 1) (List.getElem?_eq_getElem hi') (List.getElem?_eq_getElem hi)
    have hargs : Comp.Alike f A (fun τs τs' => τs.map v.type = τs'.map v.type)
        (.sequence (args.map fun arg => .suspend (check arg)))
        (.sequence (args'.map fun arg => .suspend (check arg))) := by
      refine .sequence_zip (by simpa using hl) ?_
      rw [List.zip_map, List.forall_mem_map]
      intro x hx
      obtain ⟨i, hi⟩ := List.mem_iff_getElem?.mp hx
      obtain ⟨hu, hu'⟩ := List.getElem?_zip_eq_some.mp hi
      exact h.enter (i := i + 1) hu hu' rfl rfl
    simp only [Layer.map, rule, Child.span, List.map_map, Function.comp_def, hc]
    rw [hspans]
    refine .bind (h.enter (i := 0) rfl rfl rfl rfl) fun φ φ' hφ => ?_
    refine .bind hargs fun τs τs' hτs => ?_
    exact callRule_same _ _ _ hφ hτs
  | seq => exact .andThen (h.enter (i := 0) rfl rfl rfl rfl) (h.enter (i := 1) rfl rfl rfl rfl)
  | const =>
    refine .bind (h.enter (i := 0) rfl rfl rfl rfl) fun σ σ' hσ => ?_
    exact h.enterBinding (i := 1) rfl rfl rfl rfl (congrArg (fun τ => [τ]) hσ)

/-! ## Nodes whose children end alike -/

open ArrowLang.Comp in
/-- Two ways to fill a node lead to the same end, if children in one place have one span and their
checks end alike. -/
theorem eval_check_mapIdx {layer : Layer Term} {f g : Nat → Term → Term} {e e' : Env}
    (hvar : ∀ z, layer = .var z → e.lookup z = e'.lookup z)
    (hspan : ∀ i t, (f i t).span = (g i t).span)
    (heval : ∀ (i : Nat) (t : Term) (bs : Bindings), layer.children[i]? = some t →
      bs.map Prod.fst = layer.binds i →
      (check (f i t)).eval (e.extend bs) = (check (g i t)).eval (e'.extend bs)) (span : Span) :
    (check (.node (layer.mapIdx f) span)).eval e =
      (check (.node (layer.mapIdx g) span)).eval e' := by
  have henter (i : Nat) (t : Term) (ht : layer.children[i]? = some t) (hb : layer.binds i = []) :
      (suspend (check (f i t))).eval e = (suspend (check (g i t))).eval e' := by
    have h := heval i t [] ht hb.symm
    rwa [Env.extend_nil, Env.extend_nil] at h
  rw [check_node, check_node]
  cases layer with
  | bool value => rfl
  | number value => rfl
  | add left right =>
    simp only [Layer.mapIdx, Layer.map, rule, Child.span, hspan]
    refine eval_bind_congr (henter 0 left rfl rfl) fun σ => ?_
    refine eval_bind_congr (henter 1 right rfl rfl) fun τ => ?_
    exact (sumRule_settled _ _ σ τ).eval_eq e e'
  | ite cond onTrue onFalse =>
    simp only [Layer.mapIdx, Layer.map, rule, Child.span, hspan]
    refine eval_bind_congr (henter 0 cond rfl rfl) fun γ => ?_
    refine eval_bind_congr (henter 1 onTrue rfl rfl) fun σ => ?_
    refine eval_bind_congr (henter 2 onFalse rfl rfl) fun τ => ?_
    exact (iteRule_settled _ _ γ σ τ).eval_eq e e'
  | var z =>
    have hlookup : (Comp.asks fun env => env.lookup z).eval e =
        (Comp.asks fun env => env.lookup z).eval e' := congrArg Except.ok (hvar z rfl)
    exact eval_bind_congr hlookup fun found => (varRule_settled _ _ found).eval_eq e e'
  | func params body =>
    have hbody := heval 0 body (paramBindings params) rfl (names_paramBindings params)
    exact eval_bind_congr hbody fun ret => rfl
  | call callee args =>
    have hspans : (args.mapIdx fun i arg => f (i + 1) arg).map Term.span =
        (args.mapIdx fun i arg => g (i + 1) arg).map Term.span :=
      List.ext_getElem? fun i => by simp [hspan, Function.comp_def]
    have hargs : (args.mapIdx fun i arg => f (i + 1) arg).map (fun arg => (check arg).eval e) =
        (args.mapIdx fun i arg => g (i + 1) arg).map fun arg => (check arg).eval e' := by
      refine List.ext_getElem? fun i => ?_
      simp only [List.getElem?_map, List.getElem?_mapIdx]
      cases harg : args[i]? with
      | none => rfl
      | some arg => exact congrArg some (henter (i + 1) arg harg rfl)
    simp only [Layer.mapIdx, Layer.map, rule, Child.span, List.map_map, Function.comp_def, hspan]
    rw [hspans]
    refine eval_bind_congr (henter 0 callee rfl rfl) fun φ => ?_
    refine eval_bind_congr (eval_sequence_congr ?_) fun τs => ?_
    · rw [List.map_map, List.map_map]
      exact hargs
    · exact (callRule_settled _ _ _ φ τs).eval_eq e e'
  | seq first rest =>
    exact eval_bind_congr (henter 0 first rfl rfl) fun _ => henter 1 rest rfl rfl
  | const name init rest =>
    exact eval_bind_congr (henter 0 init rfl rfl) fun τ => heval 1 rest [(name, τ)] rfl rfl

end FailFast

end ArrowLang
