import ArrowLang.Proofs.Context
import Mathlib.Data.List.Basic
import Mathlib.Data.List.Induction

/-!
# ArrowLang.Proofs.Strategies

The two strategies for environments cannot be told apart.

* `Bindings.summary`: what is left of bindings that are made in turn, each name at the place of its
  first binding and with its last type.
* `Env.Built e all`: the environment `e` was built up from nothing, and `all` are the bindings made
  on the way, in order.
* `Env.Shows e all`: all that can be seen of `e` follows from `all`.

An environment that was built up holds lists of bindings: a chain the summary of each in a scope of
its own, a copy the summary of all of them. `Env.Holds` says so, and `Env.Built.shows` follows from
it for both.
-/

namespace ArrowLang

/-! ## Summaries -/

theorem eraseDups_concat {α : Type} [BEq α] [LawfulBEq α] (l : List α) (a : α) :
    (l ++ [a]).eraseDups = if a ∈ l then l.eraseDups else l.eraseDups ++ [a] := by
  rw [List.eraseDups_append, List.cons_removeAll]
  by_cases h : a ∈ l <;> simp [h, List.eraseDups_cons]

/-- Repetitions can be left out of a part of a list first. -/
theorem eraseDups_append_eraseDups {α : Type} [BEq α] [LawfulBEq α] (l m : List α) :
    (l ++ m.eraseDups).eraseDups = (l ++ m).eraseDups := by
  induction m using List.reverseRecOn with
  | nil => simp
  | append_singleton m a ih =>
    rw [eraseDups_concat]
    by_cases h : a ∈ m
    · rw [if_pos h, ih, ← List.append_assoc, eraseDups_concat, if_pos (by simp [h])]
    · rw [if_neg h, ← List.append_assoc, ← List.append_assoc, eraseDups_concat, eraseDups_concat,
        ih]
      simp only [List.mem_append, List.mem_eraseDups]

namespace Bindings

/-- The type that `x` is bound to last. -/
def last? (bindings : Bindings) (x : String) : Option Ty := bindings.reverse.lookup x

def summary (bindings : Bindings) : Bindings :=
  (bindings.map Prod.fst).eraseDups.filterMap fun x => (last? bindings x).map fun τ => (x, τ)

theorem last?_append (as bs : Bindings) (x : String) :
    last? (as ++ bs) x = (last? bs x).or (last? as x) := by
  rw [last?, List.reverse_append, List.lookup_append]
  rfl

theorem last?_concat (bs : Bindings) (x : String) (τ : Ty) (y : String) :
    last? (bs ++ [(x, τ)]) y = if y = x then some τ else last? bs y := by
  rw [last?_append]
  by_cases h : y = x
  · simp [last?, h]
  · simp [last?, h, List.lookup_cons, beq_eq_false_iff_ne.mpr h]

theorem last?_isSome {bs : Bindings} {x : String} :
    (last? bs x).isSome = true ↔ x ∈ bs.map Prod.fst := by
  rw [last?, List.lookup_isSome_iff, List.mem_map]
  refine exists_congr fun b => and_congr List.mem_reverse ?_
  rw [beq_iff_eq, eq_comm]

theorem summary_congr {as bs : Bindings}
    (hnames : (as.map Prod.fst).eraseDups = (bs.map Prod.fst).eraseDups)
    (hlast : ∀ x, last? as x = last? bs x) : summary as = summary bs := by
  rw [summary, summary, hnames, funext hlast]

theorem map_fst_summary (bs : Bindings) :
    (summary bs).map Prod.fst = (bs.map Prod.fst).eraseDups := by
  rw [summary, List.map_filterMap]
  refine Eq.trans (List.filterMap_congr fun x hx => ?_) List.filterMap_some
  rw [List.mem_eraseDups, ← last?_isSome] at hx
  obtain ⟨τ, hτ⟩ := Option.isSome_iff_exists.mp hx
  rw [hτ]
  rfl

theorem mem_summary {bs : Bindings} {x : String} {τ : Ty} :
    (x, τ) ∈ summary bs ↔ last? bs x = some τ := by
  rw [summary, List.mem_filterMap]
  constructor
  · rintro ⟨y, _, hy⟩
    obtain ⟨υ, hυ, heq⟩ := Option.map_eq_some_iff.mp hy
    cases heq
    exact hυ
  · intro h
    refine ⟨x, ?_, by rw [h]; rfl⟩
    rw [List.mem_eraseDups, ← last?_isSome, h]
    rfl

/-- One type is left for each name, so it does not matter from which end one looks. -/
theorem lookup_of_mem_iff {l bs : Bindings} (h : ∀ x τ, (x, τ) ∈ l ↔ (x, τ) ∈ summary bs)
    (x : String) : l.lookup x = last? bs x := by
  cases hl : l.lookup x with
  | some τ =>
    obtain ⟨l₁, l₂, rfl, _⟩ := List.lookup_eq_some_iff.mp hl
    exact (mem_summary.mp ((h x τ).mp (by simp))).symm
  | none =>
    cases hb : last? bs x with
    | none => rfl
    | some τ =>
      have hmem := (h x τ).mpr (mem_summary.mpr hb)
      simpa using List.lookup_eq_none_iff.mp hl _ hmem

theorem lookup_summary (bs : Bindings) (x : String) : (summary bs).lookup x = last? bs x :=
  lookup_of_mem_iff (fun _ _ => Iff.rfl) x

theorem last?_summary (bs : Bindings) (x : String) : last? (summary bs) x = last? bs x :=
  lookup_of_mem_iff (fun _ _ => List.mem_reverse) x

/-- One more binding is entered at the end, or in the place that its name has. -/
theorem putEntry_summary (bs : Bindings) (x : String) (τ : Ty) :
    putEntry (summary bs) x τ = summary (bs ++ [(x, τ)]) := by
  have hany : ((summary bs).any fun e => e.1 == x) = true ↔ x ∈ bs.map Prod.fst := by
    rw [← List.mem_eraseDups, ← map_fst_summary, List.any_eq_true, List.mem_map]
    simp only [beq_iff_eq]
  have hnames : ((bs ++ [(x, τ)]).map Prod.fst).eraseDups =
      if x ∈ bs.map Prod.fst then (bs.map Prod.fst).eraseDups
      else (bs.map Prod.fst).eraseDups ++ [x] := by
    rw [List.map_append, List.map_singleton, eraseDups_concat]
  rw [putEntry]
  by_cases hx : x ∈ bs.map Prod.fst
  · rw [if_pos (hany.mpr hx), summary, summary, hnames, if_pos hx, List.map_filterMap]
    refine List.filterMap_congr fun y _ => ?_
    rw [last?_concat, Option.map_map]
    by_cases hy : y = x
    · subst hy
      obtain ⟨σ, hσ⟩ := Option.isSome_iff_exists.mp (last?_isSome.mpr hx)
      simp [hσ]
    · simp [hy, Function.comp_def]
  · rw [if_neg (mt hany.mp hx), summary, summary, hnames, if_neg hx, List.filterMap_append]
    congr 1
    · refine List.filterMap_congr fun y hy => ?_
      have hyx : y ≠ x := by
        rintro rfl
        exact hx (List.mem_eraseDups.mp hy)
      rw [last?_concat, if_neg hyx]
    · simp [last?_concat]

/-- Repeated bindings can be left out of a part first. -/
theorem summary_append_summary (as bs : Bindings) :
    summary (as ++ summary bs) = summary (as ++ bs) := by
  refine summary_congr ?_ fun x => ?_
  · rw [List.map_append, List.map_append, map_fst_summary, eraseDups_append_eraseDups]
  · rw [last?_append, last?_append, last?_summary]

end Bindings

/-! ## Scopes -/

namespace Scope

open Bindings

theorem bindAll_summary (as bs : Bindings) :
    (Scope.mk (summary as)).bindAll bs = ⟨summary (as ++ bs)⟩ := by
  induction bs generalizing as with
  | nil => rw [List.append_nil]; rfl
  | cons b bs ih =>
    have hbind : (Scope.mk (summary as)).bind b.1 b.2 = ⟨summary (as ++ [b])⟩ := by
      rw [bind, putEntry_summary]
    have hall := ih (as ++ [b])
    rw [← hbind, List.append_assoc] at hall
    exact hall

theorem ofBindings_eq (bs : Bindings) : ofBindings bs = ⟨summary bs⟩ := bindAll_summary [] bs

theorem binds_eq (s : Scope) (x : String) : s.binds x = (s.get? x).isSome := by
  rw [Bool.eq_iff_iff, binds, get?, List.any_eq_true, List.lookup_isSome_iff]
  simp only [BEq.comm]

theorem get?_ofBindings (bs : Bindings) (x : String) : (ofBindings bs).get? x = last? bs x := by
  rw [ofBindings_eq, get?, lookup_summary]

/-- Scopes that are laid one over the other, from the outermost inwards, come to one scope with all
their bindings. -/
theorem foldl_ofBindings (lists : List Bindings) (as : Bindings) :
    (lists.map ofBindings).foldl (fun (s t : Scope) => s.bindAll t.entries) ⟨summary as⟩ =
      (⟨summary (as ++ lists.flatten)⟩ : Scope) := by
  induction lists generalizing as with
  | nil => simp
  | cons bs lists ih =>
    rw [List.map_cons, List.foldl_cons, ofBindings_eq, bindAll_summary, summary_append_summary, ih,
      List.flatten_cons, List.append_assoc]

end Scope

/-! ## Environments -/

namespace Env

open Bindings

inductive Built : Env → Bindings → Prop where
  | empty (strategy : Strategy) : Built (.empty strategy) []
  /-- a chain may have bindings in its outermost scope -/
  | root (bindings : Bindings) : Built (.chain (.ofBindings bindings) []) bindings
  | extend {e : Env} {all : Bindings} (bindings : Bindings) :
      Built e all → Built (e.extend bindings) (all ++ bindings)
  | addScope {e : Env} {all : Bindings} (bindings : Bindings) :
      Built e all → Built (e.addScope bindings) (all ++ bindings)

structure Shows (e : Env) (all : Bindings) : Prop where
  entries : e.flatten.entries = summary all
  names : e.names = (all.map Prod.fst).eraseDups
  lookup : ∀ x, e.lookup x = last? all x
  get : ∀ x, e.flatten.get? x = e.lookup x
  contains : ∀ x, e.contains? (.name x) = some true ↔ x ∈ e.names
  found : ∀ x, e.contains? (.name x) = some true ↔ ∃ τ, e.lookup x = some τ

/-- The scopes of a chain, the innermost first, hold the bindings of `lists`; the one scope of a
copy holds them all. -/
def Holds : Env → List Bindings → Prop
  | .chain innermost outer, lists => innermost :: outer = lists.map Scope.ofBindings
  | .copy scope, lists => scope = .ofBindings lists.reverse.flatten

theorem Holds.addScope {e : Env} {lists : List Bindings} (h : e.Holds lists)
    (bindings : Bindings) : (e.addScope bindings).Holds (bindings :: lists) := by
  cases e with
  | chain innermost outer =>
    change Scope.ofBindings bindings :: innermost :: outer = _
    rw [h, List.map_cons]
  | copy scope =>
    change scope.bindAll bindings = .ofBindings (bindings :: lists).reverse.flatten
    rw [h, Scope.ofBindings_eq, Scope.bindAll_summary, Scope.ofBindings_eq, List.reverse_cons,
      List.flatten_append, List.flatten_singleton]

theorem extend_eq_addScope (e : Env) (bindings : Bindings) :
    e.extend bindings = e ∧ bindings = [] ∨ e.extend bindings = e.addScope bindings := by
  cases e with
  | copy scope => exact .inr rfl
  | chain innermost outer =>
    cases bindings with
    | nil => exact .inl ⟨rfl, rfl⟩
    | cons b bindings => exact .inr rfl

theorem Built.holds {e : Env} {all : Bindings} (h : e.Built all) :
    ∃ lists, e.Holds lists ∧ lists.reverse.flatten = all := by
  induction h with
  | empty strategy => exact ⟨[[]], by cases strategy <;> rfl, rfl⟩
  | root bindings => exact ⟨[bindings], rfl, by simp⟩
  | @extend e _ bindings _ ih =>
    obtain ⟨lists, hlists, rfl⟩ := ih
    rcases e.extend_eq_addScope bindings with ⟨he, rfl⟩ | he
    · exact ⟨lists, by rw [he]; exact hlists, by simp⟩
    · rw [he]
      exact ⟨bindings :: lists, hlists.addScope bindings, by simp⟩
  | addScope bindings _ ih =>
    obtain ⟨lists, hlists, rfl⟩ := ih
    exact ⟨bindings :: lists, hlists.addScope bindings, by simp⟩

theorem Holds.flatten {e : Env} {lists : List Bindings} (h : e.Holds lists) :
    e.flatten = ⟨summary lists.reverse.flatten⟩ := by
  cases e with
  | copy scope => exact h.trans (Scope.ofBindings_eq _)
  | chain innermost outer =>
    have hempty : Scope.empty = ⟨summary []⟩ := rfl
    rw [Env.flatten, h, ← List.map_reverse, hempty, Scope.foldl_ofBindings, List.nil_append]

/-- The innermost scope that binds `x` has its last binding. -/
theorem findSome?_ofBindings (lists : List Bindings) (x : String) :
    (lists.map Scope.ofBindings).findSome? (·.get? x) = last? lists.reverse.flatten x := by
  rw [List.findSome?_map]
  induction lists with
  | nil => rfl
  | cons bs lists ih =>
    rw [List.findSome?_cons, List.reverse_cons, List.flatten_append, List.flatten_singleton,
      last?_append, ← ih, Function.comp_apply, Scope.get?_ofBindings]
    cases last? bs x <;> rfl

theorem Holds.lookup {e : Env} {lists : List Bindings} (h : e.Holds lists) (x : String) :
    e.lookup x = last? lists.reverse.flatten x := by
  cases e with
  | copy scope => rw [lookup_copy, h, Scope.get?_ofBindings]
  | chain innermost outer => rw [Env.lookup, h, findSome?_ofBindings]

/-- To ask for a name as a key and to look it up come to the same. -/
theorem contains?_name (e : Env) (x : String) :
    e.contains? (.name x) = some (e.lookup x).isSome := by
  cases e with
  | chain innermost outer => rfl
  | copy scope => rw [contains?, Scope.binds_eq, lookup_copy]

theorem Built.shows {e : Env} {all : Bindings} (h : e.Built all) : e.Shows all := by
  obtain ⟨lists, hlists, rfl⟩ := h.holds
  have hnames : e.names = (lists.reverse.flatten.map Prod.fst).eraseDups := by
    rw [names, hlists.flatten, map_fst_summary]
  constructor
  · rw [hlists.flatten]
  · exact hnames
  · exact hlists.lookup
  · intro x
    rw [hlists.flatten, hlists.lookup, Scope.get?, lookup_summary]
  · intro x
    rw [contains?_name, hlists.lookup, hnames, List.mem_eraseDups, ← last?_isSome,
      Option.some.injEq]
  · intro x
    rw [contains?_name, Option.some.injEq, Option.isSome_iff_exists]

theorem depth?_foldl_extend (lists : List Bindings) (innermost : Scope) (outer : List Scope) :
    (lists.foldl extend (chain innermost outer)).depth? =
      some (outer.length + lists.countP fun b => !b.isEmpty) := by
  induction lists generalizing innermost outer with
  | nil => rfl
  | cons bs lists ih =>
    rw [List.foldl_cons, List.countP_cons]
    cases bs with
    | nil => exact ih innermost outer
    | cons b bs =>
      have hstep : (chain innermost outer).extend (b :: bs) =
          chain (.ofBindings (b :: bs)) (innermost :: outer) := rfl
      rw [hstep, ih, List.length_cons]
      simp only [List.isEmpty_cons, Bool.not_false, if_true, Option.some.injEq]
      omega

theorem Built.foldl_extend {e : Env} {all : Bindings} (h : e.Built all) (lists : List Bindings) :
    (lists.foldl Env.extend e).Built (all ++ lists.flatten) := by
  induction lists generalizing e all with
  | nil => rw [List.flatten_nil, List.append_nil]; exact h
  | cons bs lists ih =>
    rw [List.foldl_cons, List.flatten_cons, ← List.append_assoc]
    exact ih (h.extend bs)

end Env

/-- The two strategies are observationally equal. Extend the empty environment of either by the same
lists of bindings in turn, with names repeated as may be. All that can be seen of the two results is
the same and follows from the bindings put together: each name is listed at the place of its first
binding and with its last type, looking a name up finds that type, and a name is a member if and
only if it is found. The depth of the chain is the number of lists that are not empty. Whatever
shows in these environments shows in all that are built up, by whole scopes or by empty ones too. -/
theorem strategies_agree (lists : List Bindings) :
    let chained := lists.foldl Env.extend (.empty .chain)
    let copied := lists.foldl Env.extend (.empty .copy)
    chained.Shows lists.flatten ∧ copied.Shows lists.flatten ∧
      chained.flatten = copied.flatten ∧ chained.names = copied.names ∧
      chained.sortedNames = copied.sortedNames ∧
      (∀ x, chained.lookup x = copied.lookup x ∧
        chained.contains? (.name x) = copied.contains? (.name x)) ∧
      chained.depth? = some (lists.countP fun b => !b.isEmpty) ∧
      ∀ (e : Env) (all : Bindings), e.Built all → e.Shows all := by
  intro chained copied
  have hbuilt (strategy : Strategy) :
      (lists.foldl Env.extend (.empty strategy)).Built lists.flatten :=
    (Env.Built.empty strategy).foldl_extend lists
  have hchained : chained.Shows lists.flatten := (hbuilt .chain).shows
  have hcopied : copied.Shows lists.flatten := (hbuilt .copy).shows
  have hnames : chained.names = copied.names := by rw [hchained.names, hcopied.names]
  have hlookup (x : String) : chained.lookup x = copied.lookup x := by
    rw [hchained.lookup, hcopied.lookup]
  refine ⟨hchained, hcopied, ?_, hnames, ?_, ?_, ?_, fun e all => Env.Built.shows⟩
  · have hentries : chained.flatten.entries = copied.flatten.entries := by
      rw [hchained.entries, hcopied.entries]
    exact congrArg Scope.mk hentries
  · rw [Env.sortedNames, Env.sortedNames, hnames]
  · intro x
    refine ⟨hlookup x, ?_⟩
    rw [Env.contains?_name, Env.contains?_name, hlookup]
  · have hdepth := Env.depth?_foldl_extend lists .empty []
    rwa [List.length_nil, Nat.zero_add] at hdepth

/-- `y` is bound again in another list and `z` within one list; an empty list and an empty scope
stand between bindings of one name. -/
theorem strategies_agree_on_shadowing :
    let lists : List Bindings := [[("x", .number), ("y", .boolean)], [],
      [("y", .number), ("z", .boolean), ("z", .number)]]
    let e : Env := ((Env.chain (.ofBindings [("x", .boolean)]) []).addScope []).addScope
      [("y", .number), ("x", .number)]
    (lists.foldl Env.extend (.empty .chain)).flatten.entries =
        [("x", .number), ("y", .number), ("z", .number)] ∧
      (lists.foldl Env.extend (.empty .copy)).flatten.entries =
        [("x", .number), ("y", .number), ("z", .number)] ∧
      (lists.foldl Env.extend (.empty .chain)).depth? = some 2 ∧
      e.Built [("x", .boolean), ("y", .number), ("x", .number)] ∧
      e.flatten.entries = [("x", .number), ("y", .number)] := by
  intro lists e
  obtain ⟨hchained, hcopied, _, _, _, _, hdepth, hbuilt⟩ := strategies_agree lists
  have he : e.Built [("x", .boolean), ("y", .number), ("x", .number)] :=
    .addScope _ (.addScope [] (.root _))
  exact ⟨hchained.entries, hcopied.entries, hdepth, he, (hbuilt e _ he).entries⟩

end ArrowLang
