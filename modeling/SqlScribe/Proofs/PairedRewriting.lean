import SqlScribe.Proofs.PairedWalk
import SqlScribe.Proofs.Rewriting

/-!
# Rewritten twins

Before an upsert is written, references in its expressions are replaced, and each dialect has other
things to put in their places. Rebuilding an expression for two dialects gives twins, if what takes
the place of a reference are twins. Since rebuilding checks the lists of rows again, the walk has to
know that it changes no width; and since a window has to stay one, that too.

Names and switches are rebuilt as well. Where types are known they are data and stay as they are;
where they are not, both runs rebuild them in the same way.
-/

namespace SqlScribe

namespace Pairing

open List (Forall₂)

variable {c : Pairing} {f f' : Expr → Build Expr} {e e' a b : Expr}

/-- Whether a fault of building may come up. -/
def Faults (c : Pairing) (e : BuildError) : Prop := c.Allows (.building e)

theorem faults_of_not_typed (h : ¬c.Typed) (e : BuildError) : c.Faults e := allows_of_not_typed h _

theorem faults_of_not_isAlone (h : ¬c.IsAlone) (e : BuildError) : c.Faults e := by
  cases c with
  | alone d => exact absurd ⟨d, rfl⟩ h
  | shared | portable d => trivial

theorem paired_built {α β : Type} {R : α → β → Prop} {E : BuildError → Prop} {x : Build α}
    {y : Build β} (h : Paired R E x y) :
    Paired R E (Expr.built x : Build α) (Expr.built y : Build β) := by
  rcases h.cases with ⟨a, b, rfl, rfl, hab⟩ | ⟨e, e', rfl, rfl, he, he'⟩
  · exact hab
  · exact ⟨he, he'⟩

/-- What an expression becomes in the two runs. -/
structure Rewritten (c : Pairing) (e a b : Expr) : Prop where
  twin : c.Twin a b
  width : a.width? = e.width?
  frame : e.isFrame = true → a.isFrame = true

/-- Two ways of replacing references, and nothing else, by twins. -/
structure Rewrites (c : Pairing) (f f' : Expr → Build Expr) : Prop where
  names : c.Typed ∨ f = f'
  keeps : ∀ e, e.isReference = false → f e = .ok e ∧ f' e = .ok e
  column : ∀ table name, c.Asks (.expr (.column table name)) →
    Paired (c.Rewritten (.column table name)) c.Faults (f (.column table name))
      (f' (.column table name))
  star : ∀ table, c.Asks (.expr (.star table)) →
    Paired (c.Rewritten (.star table)) c.Faults (f (.star table)) (f' (.star table))
  excluded : ∀ column, c.Asks (.expr (.excluded column)) →
    Paired (c.Rewritten (.excluded column)) c.Faults (f (.excluded column)) (f' (.excluded column))

theorem Rewrites.handed (hr : c.Rewrites f f') (h : c.Rewritten e a b)
    (ha : a.isReference = false := by rfl) (hb : b.isReference = false := by rfl) :
    Paired (c.Rewritten e) c.Faults (f a) (f' b) := by
  rw [(hr.keeps a ha).1, (hr.keeps b hb).2]
  exact paired_ok h

/-- Twins that are no rows and no windows take the place of what is none either. -/
theorem Twin.rewritten (h : c.Twin a b) (hw : a.width? = e.width? := by rfl)
    (hf : e.isFrame = false := by rfl) : c.Rewritten e a b :=
  ⟨h, hw, fun ht => absurd (hf.symm.trans ht) Bool.false_ne_true⟩

theorem Twin.width (h : c.Twin e e') : e'.width? = e.width? := by
  by_cases hr : e.isRow = true
  · rw [length_parts_of_isRow hr, length_parts_of_isRow (h.row.trans hr), h.parts.length_eq]
  · have none : ∀ {e : Expr}, ¬e.isRow = true → e.width? = none := fun hn => by
      rw [isRow_eq, Bool.not_eq_true, Option.isSome_eq_false_iff, Option.isNone_iff_eq_none] at hn
      exact hn
    rw [none hr, none (by rwa [h.row])]

/-! ## Names -/

/-- A name or a switch is the same in both runs, and stays what it is where types are known. -/
theorem Rewrites.name {α β : Type} {S : α → β → Prop} {g : Name → Build α} {g' : Name → Build β}
    (hr : c.Rewrites f f') {n : Name} (h : c.Typed → ∃ object, n = .foreign object)
    (hg : ∀ a, (c.Typed → a = n) → Paired S c.Faults (g a) (g' a)) :
    Paired S c.Faults (Expr.rebuild f n >>= g) (Expr.rebuild f' n >>= g') := by
  by_cases ht : c.Typed
  · obtain ⟨object, rfl⟩ := h ht
    exact hg _ fun _ => rfl
  · obtain rfl := hr.names.resolve_left ht
    exact (paired_self (fun _ => rfl) fun e _ => faults_of_not_typed ht e).bind
      (R := Eq) fun a _ hab => hab ▸ hg a fun hc => absurd hc ht

theorem Rewrites.text {α β : Type} {S : α → β → Prop} {g : Name → Build α} {g' : Name → Build β}
    (hr : c.Rewrites f f') {n : Name} (h : c.Typed → n.isText = true)
    (hg : ∀ a, (c.Typed → a = n) → Paired S c.Faults (g a) (g' a)) :
    Paired S c.Faults (Expr.rebuild f n >>= g) (Expr.rebuild f' n >>= g') :=
  hr.name (fun ht => by
    obtain ⟨object, _, hn, -⟩ := Expr.foreign_of_isText (h ht)
    exact ⟨object, hn⟩) hg

theorem Rewrites.switch {α β : Type} {S : α → β → Prop} {g : Flag → Build α} {g' : Flag → Build β}
    (hr : c.Rewrites f f') {flag : Flag} (h : c.Typed → flag.isSwitch = true)
    (hg : ∀ a, Paired S c.Faults (g a) (g' a)) :
    Paired S c.Faults (Expr.rebuild f flag >>= g) (Expr.rebuild f' flag >>= g') :=
  hr.name (fun ht => Expr.foreign_of_isSwitch (h ht)) fun a _ => hg a

/-- A node with the same names is asked for as before. -/
theorem Asks.renamed {t t' : Tree} (h : c.Asks t) (ht : c.Typed → t' = t) (hs : t'.IsShared) :
    c.Asks t' := by
  cases c with
  | shared => exact hs
  | alone d | portable d => exact ht trivial ▸ h

/-! ## Lists of rows -/

/-- A list of rows is checked again with the same outcome, and passes if it has passed before. -/
theorem paired_makeInList {operand operand' : Expr} {items items' : List Expr} (negated : Flag)
    (h : c.Twin operand operand') (hs : Forall₂ c.Twin items items')
    (hw : c.Typed → ∀ i ∈ items, i.width? = operand.width?) :
    Paired (fun a b => a = .inList operand items negated ∧ b = .inList operand' items' negated ∧
        ∀ i ∈ items, i.width? = operand.width?) c.Faults
      (Expr.makeInList operand items negated) (Expr.makeInList operand' items' negated) := by
  -- the widths are those of the first list, since twins are equally wide
  have widths : (∀ i ∈ items', i.width? = operand'.width?) ↔
      ∀ i ∈ items, i.width? = operand.width? := by
    rw [h.width]
    clear hw
    induction hs with
    | nil => exact iff_of_true (fun _ hi => nomatch hi) fun _ hi => nomatch hi
    | cons hi _ ih => rw [List.forall_mem_cons, List.forall_mem_cons, hi.width, ih]
  by_cases hall : ∀ i ∈ items, i.width? = operand.width?
  · rw [Expr.makeInList_eq_ok_iff.mpr hall, Expr.makeInList_eq_ok_iff.mpr (widths.mpr hall)]
    exact paired_ok ⟨rfl, rfl, hall⟩
  · have ht : ¬c.Typed := fun ht => hall (hw ht)
    -- both lists are refused, which cannot be if they are typed
    have refused : ∀ {operand : Expr} {items : List Expr},
        (¬∀ i ∈ items, i.width? = operand.width?) →
        ∃ err, Expr.makeInList operand items negated = .error err := by
      intro operand items hn
      cases hm : Expr.makeInList operand items negated with
      | error err => exact ⟨err, rfl⟩
      | ok r =>
        obtain rfl := yields_makeInList operand items negated r hm
        exact absurd (Expr.makeInList_eq_ok_iff.mp hm) hn
    obtain ⟨err, herr⟩ := refused hall
    obtain ⟨err', herr'⟩ := refused fun h => hall (widths.mp h)
    rw [herr, herr']
    exact paired_error (faults_of_not_typed ht _) (faults_of_not_typed ht _)

/-! ## Rebuilding -/

/-- What a list of expressions becomes in the two runs. -/
structure RewrittenAll (c : Pairing) (es as bs : List Expr) : Prop where
  twins : Forall₂ c.Twin as bs
  widths : as.map Expr.width? = es.map Expr.width?

theorem RewrittenAll.length_eq {es as bs : List Expr} (h : c.RewrittenAll es as bs) :
    as.length = es.length := by
  simpa only [List.length_map] using congrArg List.length h.widths

theorem RewrittenAll.forall_width {es as bs : List Expr} (h : c.RewrittenAll es as bs)
    {w : Option Nat} (hw : ∀ e ∈ es, e.width? = w) : ∀ a ∈ as, a.width? = w := by
  have hall : ∀ v ∈ as.map Expr.width?, v = w := by
    rw [h.widths]
    exact List.forall_mem_map.mpr hw
  exact List.forall_mem_map.mp hall

theorem RewrittenAll.tuple {es as bs : List Expr} (h : c.RewrittenAll es as bs) :
    c.Rewritten (.tuple es) (.tuple as) (.tuple bs) where
  twin := by
    refine twin_tuple ?_
    have hlen := h.twins.length_eq
    cases as <;> cases bs <;> first | rfl | cases hlen
  width := rfl
  frame hframe := by
    have hlen := h.length_eq
    cases es with
    | nil => rw [List.length_eq_zero_iff.mp hlen]; rfl
    | cons _ _ => cases hframe

open SqlScribe.Expr in
mutual

/-- Rebuilding an expression for two dialects gives twins. -/
theorem paired_rebuild (hr : c.Rewrites f f') : ∀ e : Expr, e.All c.Asks →
    Paired (c.Rewritten e) c.Faults (rebuild f e) (rebuild f' e)
  | .column table name, h => hr.name (fun ht => foreign_of_isName (Asks.typed h ht).1) fun t ht =>
    hr.text (fun ht => (Asks.typed h ht).2) fun n hn =>
    (hr.column t n (Asks.renamed h (fun hc => by rw [ht hc, hn hc]) rfl)).mono
      fun _ _ hab => ⟨hab.twin, hab.width, nofun⟩
  | .star table, h => hr.name (fun ht => foreign_of_isName (Asks.typed h ht)) fun t ht =>
    (hr.star t (Asks.renamed h (fun hc => by rw [ht hc]) rfl)).mono
      fun _ _ hab => ⟨hab.twin, hab.width, nofun⟩
  -- what holds no reference is handed on as it is
  | .literal v, _ => hr.handed (twin_literal v).rewritten
  | .truth value, h => hr.switch (fun ht => Asks.typed h ht) fun v =>
    hr.handed (twin_truth v).rewritten
  | .not operand, h => (paired_rebuild hr operand h.2).bind fun _ _ ho =>
    hr.handed ho.twin.not.rewritten
  | .isNull operand negated, h => (paired_rebuild hr operand h.2).bind fun _ _ ho =>
    hr.switch (fun ht => Asks.typed h.1 ht) fun n => hr.handed (ho.twin.isNull n).rewritten
  | .binary op left right, h => (paired_rebuild hr left h.2.1).bind fun _ _ hleft =>
    (paired_rebuild hr right h.2.2).bind fun _ _ hright =>
    hr.handed (hleft.twin.binary op hright.twin).rewritten
  | .logical op first rest, h => (paired_rebuild hr first h.2.1).bind fun _ _ hf =>
    (paired_rebuildAll hr rest h.2.2).bind fun _ _ hs =>
    hr.handed (twin_logical op hf.twin hs.twins).rewritten
  | .inList operand items negated, h => (paired_rebuild hr operand h.2.1).bind fun o o' ho =>
    (paired_rebuildAll hr items h.2.2).bind fun is is' hs =>
    hr.switch (fun ht => (Asks.typed h.1 ht).2) fun n => by
    -- the new list is checked once more, and its rows are as wide as before
    refine Paired.bind (paired_built (paired_makeInList n ho.twin hs.twins fun ht => ?_))
      fun a b hab => ?_
    · rw [ho.width]
      exact hs.forall_width (makeInList_eq_ok_iff.mp (Asks.typed h.1 ht).1)
    obtain ⟨rfl, rfl, hw⟩ := hab
    refine hr.handed (twin_inList ho.twin hs.twins n (fun hx => ?_) fun _ => hw).rewritten
    rw [isRow_eq, ho.width, ← isRow_eq]
    exact Asks.shared h.1 hx
  | .inQuery operand query negated, h => (paired_rebuild hr operand h.2.1).bind fun _ _ ho =>
    (paired_rebuildQuery hr query h.2.2 fun ht => (Asks.typed h.1 ht).1).bind
      fun | _, _, ⟨rfl, hq⟩ => hr.switch (fun ht => (Asks.typed h.1 ht).2) fun n =>
        hr.handed (ho.twin.inQuery hq n).rewritten
  | .between operand low high negated, h => (paired_rebuild hr operand h.2.1).bind fun _ _ ho =>
    (paired_rebuild hr low h.2.2.1).bind fun _ _ hl =>
    (paired_rebuild hr high h.2.2.2).bind fun _ _ hh =>
    hr.switch (fun ht => Asks.typed h.1 ht) fun n =>
    hr.handed (ho.twin.between hl.twin hh.twin n).rewritten
  | .exists query negated, h =>
    (paired_rebuildQuery hr query h.2 fun ht => (Asks.typed h.1 ht).1).bind
      fun | _, _, ⟨rfl, hq⟩ => hr.switch (fun ht => (Asks.typed h.1 ht).2) fun n =>
        hr.handed (twin_exists hq n).rewritten
  | .scalar query, h => (paired_rebuildQuery hr query h.2 fun ht => Asks.typed h.1 ht).bind
      fun | _, _, ⟨rfl, hq⟩ => hr.handed (twin_scalar hq).rewritten
  | .row first rest, h => (paired_rebuild hr first h.2.1).bind fun _ _ hf =>
    (paired_rebuildAll hr rest h.2.2).bind fun as _ hs =>
    hr.handed ((twin_row hf.twin hs.twins).rewritten (by simp [width?, rowItems?, hs.length_eq]))
  | .call name args distinct, h => (paired_rebuildAll hr args h.2).bind fun _ _ hs =>
    hr.switch (fun ht => Asks.typed h.1 ht) fun n =>
    hr.handed (twin_call name hs.twins n).rewritten
  | .cast operand target, h => (paired_rebuild hr operand h.2).bind fun _ _ ho =>
    hr.handed (ho.twin.cast target (Asks.cast h.1)).rewritten
  | .coalesce parts, h => (paired_rebuildAll hr parts h.2).bind fun _ _ hs =>
    hr.handed (twin_coalesce hs.twins).rewritten
  | .concat parts, h => (paired_rebuildAll hr parts h.2).bind fun _ _ hs =>
    hr.handed (twin_concat hs.twins).rewritten
  | .aggregateText operand, h => (paired_rebuild hr operand h.2).bind fun _ _ ho =>
    hr.handed (ho.twin.aggregateText (Asks.aggregateText h.1)).rewritten
  | .sorted operand direction, h => (paired_rebuild hr operand h.2).bind fun _ _ ho =>
    hr.handed (ho.twin.sorted direction).rewritten
  -- a window is the frame of a call, so what is rebuilt must be one again
  | .window partition order, h => (paired_rebuildAll hr partition h.2.1).bind fun _ _ hp =>
    (paired_rebuildAll hr order h.2.2).bind fun _ _ ho =>
    hr.handed ⟨twin_window hp.twins ho.twins, rfl, fun _ => rfl⟩
  | .over name args spec, h => (paired_rebuildAll hr args h.2.1).bind fun _ _ hs =>
    (paired_rebuild hr spec h.2.2).bind fun _ _ hw =>
    hr.handed (twin_over name hs.twins hw.twin fun ha => hw.frame (Asks.framed h.1 ha)).rewritten
  | .jsonExtract document path asText, h => (paired_rebuild hr document h.2).bind fun _ _ hd =>
    hr.switch (fun ht => Asks.typed h.1 ht) fun n =>
    hr.handed (hd.twin.jsonExtract (Asks.isAlone h.1 rfl) path n).rewritten
  | .jsonContains document value negated, h => (paired_rebuild hr document h.2.1).bind
    fun _ _ hd => (paired_rebuild hr value h.2.2).bind fun _ _ hv =>
    hr.switch (fun ht => Asks.typed h.1 ht) fun n =>
    hr.handed (hd.twin.jsonContains (Asks.isAlone h.1 rfl) hv.twin n).rewritten
  | .jsonEdge document value edge negated, h => (paired_rebuild hr document h.2.1).bind
    fun _ _ hd => (paired_rebuild hr value h.2.2).bind fun _ _ hv =>
    hr.switch (fun ht => Asks.typed h.1 ht) fun n =>
    hr.handed (hd.twin.jsonEdge (Asks.isAlone h.1 rfl) hv.twin edge n).rewritten
  | .jsonType document type, h => (paired_rebuild hr document h.2).bind fun _ _ hd =>
    hr.handed (hd.twin.jsonType (Asks.isAlone h.1 rfl) type).rewritten
  | .textSearch first rest, h => (paired_rebuild hr first h.2.1).bind fun _ _ hf =>
    (paired_rebuildAll hr rest h.2.2).bind fun _ _ hs =>
    hr.handed (twin_textSearch (Asks.isAlone h.1 rfl) hf.twin hs.twins).rewritten
  | .matches search query negated, h => (paired_rebuild hr search h.2.1).bind fun _ _ hs =>
    (paired_rebuild hr query h.2.2).bind fun _ _ hq =>
    hr.switch (fun ht => Asks.typed h.1 ht) fun n =>
    hr.handed (hs.twin.matches (Asks.isAlone h.1 rfl) hq.twin n).rewritten
  | .rowToJson table pretty, h => hr.text (fun ht => (Asks.typed h ht).1) fun t ht =>
    hr.name (fun ht => foreign_of_isSwitch (Asks.typed h ht).2) fun n hn => by
    have hc : c.Typed := typed_of_isAlone (Asks.isAlone h rfl)
    rw [ht hc, hn hc]
    exact hr.handed (Asks.rowToJson h).rewritten
  | .excluded name, h => hr.text (fun ht => Asks.typed h ht) fun n hn =>
    (hr.excluded n (Asks.renamed h (fun hc => by rw [hn hc]) rfl)).mono
      fun _ _ hab => ⟨hab.twin, hab.width, nofun⟩
  | .raw sql aliasName template bindings, h =>
    hr.text (fun ht => (Asks.typed h.1 ht).1) fun s hs =>
    hr.name (fun ht => foreign_of_isName (Asks.typed h.1 ht).2.1) fun a ha =>
    hr.switch (fun ht => (Asks.typed h.1 ht).2.2.1) fun t =>
    (paired_rebuildBindings hr bindings h.2 fun ht => (Asks.typed h.1 ht).2.2.2).bind
      fun bs bs' hbs => by
    -- the texts of a raw fragment are kept, as they are no references
    have hc : c.Typed := typed_of_raw h.1
    rw [hs hc, ha hc]
    exact hr.handed (twin_raw (Asks.raw h.1).1 (Asks.raw h.1).2 hbs).rewritten
  | .image side part, _ => hr.handed (twin_image side part).rewritten
  | .tuple items, h => (paired_rebuildAll hr items h.2).bind fun _ _ hs => paired_ok hs.tuple
  | .foreign object, _ => paired_ok ⟨twin_foreign object, rfl, id⟩

/-- A query is the same in both runs. -/
theorem paired_rebuildQuery (hr : c.Rewrites f f') : ∀ q : Query, q.All c.Asks →
    (c.Typed → q.isQuery = true) →
    Paired (fun a b => a = b ∧ c.Meets (a.render c.left) (a.render c.right)) c.Faults
      (rebuildQuery f q) (rebuildQuery f' q)
  | .select s, h, _ => paired_ok ⟨rfl, meets_query (.select s) h⟩
  | .union u, h, _ => paired_ok ⟨rfl, meets_query (.union u) h⟩
  | .draft s, h, _ => paired_ok ⟨rfl, meets_query (.draft s) h⟩
  | .other _, _, ht => hr.name (fun hc => absurd (ht hc) Bool.false_ne_true) fun a _ =>
    paired_ok ⟨rfl, meets_query (.other a) trivial⟩

theorem paired_rebuildAll (hr : c.Rewrites f f') : ∀ es : List Expr, allExprs c.Asks es →
    Paired (c.RewrittenAll es) c.Faults (rebuildAll f es) (rebuildAll f' es)
  | [], _ => paired_ok ⟨.nil, rfl⟩
  | e :: rest, h => (paired_rebuild hr e h.1).bind fun _ _ he =>
    (paired_rebuildAll hr rest h.2).bind fun _ _ hs =>
    paired_ok ⟨.cons he.twin hs.twins, by rw [List.map_cons, he.width, hs.widths, List.map_cons]⟩

theorem paired_rebuildBindings (hr : c.Rewrites f f') : ∀ bs : List (Name × Expr),
    allBindings c.Asks bs → (c.Typed → ∀ b ∈ bs, b.1.isText = true) →
    Paired (Forall₂ c.NamedTwin) c.Faults (rebuildBindings f bs) (rebuildBindings f' bs)
  | [], _, _ => paired_ok .nil
  | b :: rest, h, ht =>
    (paired_rebuildBinding hr b h.1 fun hc => ht hc b List.mem_cons_self).bind fun _ _ hb =>
    (paired_rebuildBindings hr rest h.2 fun hc b' hb' => ht hc b' (List.mem_cons_of_mem _ hb')).bind
      fun _ _ hs => paired_ok (.cons hb hs)

theorem paired_rebuildBinding (hr : c.Rewrites f f') : ∀ b : Name × Expr,
    allBinding c.Asks b → (c.Typed → b.1.isText = true) →
    Paired c.NamedTwin c.Faults (rebuildBinding f b) (rebuildBinding f' b)
  | (_, e), h, ht => hr.text ht fun _ _ =>
    (paired_rebuild hr e h).bind fun _ _ he => paired_ok ⟨rfl, he.twin⟩

end

/-- What ought to be an expression, rebuilt for two dialects. A dialect by itself has to be given an
expression, or a record at least. -/
theorem paired_mapNodesM (hr : c.Rewrites f f') (h : e.All c.Asks)
    (hroot : c.IsAlone → e.isExpr = true ∨ e.isRecord = true) :
    Paired (c.Rewritten e) c.Faults (Expr.mapNodesM f e) (Expr.mapNodesM f' e) := by
  unfold Expr.mapNodesM
  split
  · exact paired_rebuild hr e h
  next hexpr =>
  split
  next hrecord =>
    cases e with
    | foreign object => exact hr.handed ⟨twin_foreign object, rfl, id⟩
    | tuple items => cases hrecord
    | _ => exact absurd rfl hexpr
  next hrecord =>
    have ha : ¬c.IsAlone := fun ha => (hroot ha).elim hexpr hrecord
    exact paired_error (faults_of_not_isAlone ha _) (faults_of_not_isAlone ha _)

end Pairing

end SqlScribe
