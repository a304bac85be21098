import Mathlib.Data.List.Perm.Basic
import SqlScribe.Proofs.Rebuilding
import SqlScribe.Proofs.Remaking

/-!
# The calls of a traversal

What a function sees when an expression is rebuilt with it. A function may remember what it was
given, so it is modelled with the list of the calls before as an argument, the latest first.

`Visits` says what a traversal does that comes to an end: the fields of a node are visited from the
first to the last, then the function is called once, with the node that has the results in the
places of its fields. `Stops` says how a traversal fails: the constructor of a node refuses the
results of its fields, and nothing is called after that. Every traversal does one or the other
(`visitsOrStops`), so it comes to an end if no constructor refuses.

The nodes in the order of their calls are `Expr.postorder`. They are the expressions of the scope
(`Expr.postorder_perm`), and `Visits.calls` matches the calls with them one by one.
-/

namespace SqlScribe.Expr

/-! ## Calls -/

/-- A call of the function of a traversal: the node that it was given, and what it gave. -/
structure Call where
  node : Expr
  result : Expr

/-- A function on nodes that keeps the record of its calls, and may look at it. -/
def recording (f : List Call → Expr → Expr) (node : Expr) : StateT (List Call) Build Expr :=
  fun log => .ok (f log node, ⟨node, f log node⟩ :: log)

section

variable (f : List Call → Expr → Expr)

mutual

/-- What a traversal does that comes to an end: from the calls `log` it takes an expression to its
result, and then the calls are longer. -/
inductive Visits : List Call → Expr → Expr → List Call → Prop where
  /-- A node is handed on once, after its fields, with their results in their places. -/
  | node {log log' : List Call} {e node : Expr} : e.isExpr = true →
      VisitsEach log e.fields node.fields log' → node.SameForm e → node.remade = .ok node →
      Visits log e (f log' node) (⟨node, f log' node⟩ :: log')
  /-- What is no expression is not handed on, but its members are. -/
  | other {log log' : List Call} {e result : Expr} : e.isExpr = false →
      VisitsEach log e.fields result.fields log' → result.SameForm e → Visits log e result log'

/-- The members of a list are visited from the first to the last. -/
inductive VisitsEach : List Call → List Expr → List Expr → List Call → Prop where
  | nil {log : List Call} : VisitsEach log [] [] log
  | cons {log log' log'' : List Call} {e result : Expr} {es results : List Expr} :
      Visits log e result log' → VisitsEach log' es results log'' →
      VisitsEach log (e :: es) (result :: results) log''

end

/-- How a traversal fails. -/
inductive Stops : List Call → Expr → BuildError → Prop where
  /-- The constructor of the node refuses the results of its fields. -/
  | refused {log log' : List Call} {e node : Expr} {err : BuildError} : e.isExpr = true →
      VisitsEach f log e.fields node.fields log' → node.SameForm e → node.remade = .error err →
      Stops log e err
  /-- A field stops, and those behind it are not visited. -/
  | inside {log log' : List Call} {e c : Expr} {before after results : List Expr}
      {err : BuildError} : e.fields = before ++ c :: after → VisitsEach f log before results log' →
      Stops log' c err → Stops log e err

/-- A traversal either comes to an end or stops at a constructor. -/
def VisitsOrStops (log : List Call) (e : Expr) : Build (Expr × List Call) → Prop
  | .ok (result, log') => Visits f log e result log'
  | .error err => Stops f log e err

end

/-! ## What is visited -/

/-- The expressions of a scope, each behind those of its fields. -/
def postorder (e : Expr) : List Expr :=
  (e.fields.attach.flatMap fun c => c.1.postorder) ++ if e.isExpr then [e] else []
termination_by sizeOf e
decreasing_by exact sizeOf_lt_of_mem_fields c.2

theorem postorder_eq (e : Expr) :
    e.postorder = e.fields.flatMap postorder ++ if e.isExpr then [e] else [] := by
  rw [postorder, List.flatMap_def, List.attach_map_val (f := postorder), ← List.flatMap_def]

/-- The expressions of a scope are listed once each. -/
theorem postorder_perm (e : Expr) : e.postorder.Perm (e.scope.filter isExpr) := by
  induction e using scope_induction with
  | step e ih =>
    have fields : (e.fields.flatMap postorder).Perm
        ((e.fields.flatMap scope).filter isExpr) := by
      rw [List.filter_flatMap]
      exact List.Perm.flatMap_left _ ih
    rw [postorder_eq, scope_eq, List.filter_cons]
    split
    · exact (List.perm_append_singleton e _).trans (fields.cons e)
    · rwa [List.append_nil]

theorem SameForm.isExpr {a b : Expr} (h : a.SameForm b) : a.isExpr = b.isExpr := by
  rw [← isExpr_mapFields (fun _ => absent) a, h, isExpr_mapFields]

section

variable {f : List Call → Expr → Expr}

/-- As many members are given back. -/
theorem VisitsEach.length {log log' : List Call} {es results : List Expr}
    (h : VisitsEach f log es results log') : results.length = es.length := by
  induction es generalizing log results with
  | nil =>
    cases h
    rfl
  | cons e rest ih =>
    cases h with
    | cons _ hrest => exact congrArg Nat.succ (ih hrest)

theorem Visits.isExpr (hf : ∀ log n, n.isExpr = true → (f log n).isExpr = true)
    {log log' : List Call} {e result : Expr} (h : Visits f log e result log')
    (he : e.isExpr = true) : result.isExpr = true := by
  cases h with
  | node _ _ hform _ => exact hf _ _ (hform.isExpr.trans he)
  | other hother => exact absurd (he.symm.trans hother) nofun

/-- An expression is given back for every expression. -/
theorem VisitsEach.isExpr (hf : ∀ log n, n.isExpr = true → (f log n).isExpr = true)
    {log log' : List Call} {es results : List Expr} (h : VisitsEach f log es results log') :
    List.Forall₂ (fun e result => e.isExpr = true → result.isExpr = true) es results := by
  induction es generalizing log results with
  | nil =>
    cases h
    exact .nil
  | cons e rest ih =>
    cases h with
    | cons he hrest => exact .cons (he.isExpr hf) (ih hrest)

/-- **One call for every expression.** A traversal calls its function on the expressions of the
scope, each behind those of its fields, and on a node of the form of that expression. -/
theorem Visits.calls {e : Expr} {log log' : List Call} {result : Expr}
    (h : Visits f log e result log') : ∃ calls, log' = calls ++ log ∧
      List.Forall₂ (fun n call => call.node.SameForm n) e.postorder calls.reverse := by
  -- on the expression, with what was recorded before it
  induction e using scope_induction generalizing log log' result with
  | step e ih =>
    -- the fields one after the other, each of which records behind those before it
    have each : ∀ {es results : List Expr} {log log' : List Call}, (∀ c ∈ es, c ∈ e.fields) →
        VisitsEach f log es results log' → ∃ calls, log' = calls ++ log ∧
          List.Forall₂ (fun n call => call.node.SameForm n) (es.flatMap postorder)
            calls.reverse := by
      intro es
      induction es with
      | nil =>
        intro results log log' _ h
        cases h
        exact ⟨[], rfl, .nil⟩
      | cons c rest ihrest =>
        intro results log log' hmem h
        cases h with
        | cons hc hrest =>
          obtain ⟨first, rfl, hfirst⟩ := ih c (hmem c List.mem_cons_self) hc
          obtain ⟨others, rfl, hothers⟩ :=
            ihrest (fun d hd => hmem d (List.mem_cons_of_mem c hd)) hrest
          refine ⟨others ++ first, (List.append_assoc ..).symm, ?_⟩
          rw [List.flatMap_cons, List.reverse_append]
          exact List.rel_append hfirst hothers
    rw [postorder_eq]
    cases h with
    | node he hfields hform hmade =>
      obtain ⟨calls, rfl, hcalls⟩ := each (fun _ h => h) hfields
      refine ⟨⟨_, _⟩ :: calls, rfl, ?_⟩
      rw [if_pos he, List.reverse_cons]
      exact List.rel_append hcalls (.cons hform .nil)
    | other he hfields hform =>
      obtain ⟨calls, rfl, hcalls⟩ := each (fun _ h => h) hfields
      refine ⟨calls, rfl, ?_⟩
      rw [if_neg (Bool.eq_false_iff.mp he), List.append_nil]
      exact hcalls

/-! ## What a traversal does -/

/-- Expressions that take the places of bound expressions are bound. -/
theorem isExpr_bindings {bs bs' : List (Name × Expr)}
    (h : List.Forall₂ (fun c d : Expr => c.isExpr = true → d.isExpr = true) (bindingFields bs)
      (bindingFields bs')) (hbs : ∀ b ∈ bs, b.2.isExpr = true) : ∀ b ∈ bs', b.2.isExpr = true := by
  induction bs generalizing bs' with
  | nil =>
    cases bs' with
    | nil => exact nofun
    | cons _ _ => cases h
  | cons b rest ih =>
    obtain ⟨hb, hrest⟩ := List.forall_mem_cons.mp hbs
    cases bs' with
    | nil => cases h
    | cons b' rest' =>
      cases h with
      | cons _ h =>
        cases h with
        | cons he h => exact List.forall_mem_cons.mpr ⟨he hb, ih h hrest⟩

/-- A node with the form of one that was built is checked again as its constructor checks it, if
expressions stand where expressions stood. -/
theorem rechecked_eq_remade {e node : Expr} (hbuilt : e.IsBuilt) (hform : node.SameForm e)
    (hfields : List.Forall₂ (fun c d => c.isExpr = true → d.isExpr = true) e.fields node.fields) :
    node.rechecked = node.remade := by
  have checks := hbuilt.passesChecks
  cases node with
  | inList operand items negated => rfl
  | jsonExtract document path asText =>
    -- the path is no field, so it is the one that was checked
    cases e with
    | jsonExtract document' path' asText' =>
      obtain rfl : path = path' := by
        injection hform
      exact (remade_of_passesChecks (e := jsonExtract document path asText) checks).symm
    | _ => cases hform
  | raw sql aliasName template bindings =>
    cases e with
    | raw sql' aliasName' template' bindings' =>
      obtain ⟨-, -, -, hbindings⟩ : _ ∧ _ ∧ _ ∧ _ := by simpa [fields] using hfields
      have bound := isExpr_bindings hbindings checks
      exact (remade_of_passesChecks (e := raw sql aliasName template bindings) bound).symm
    | _ => cases hform
  | _ => exact (remade_of_passesChecks (by trivial)).symm

/-- Members that are visited one by one, or the first of them that stops. -/
theorem visitsEach_or_stops {es : List Expr}
    (ih : ∀ c ∈ es, ∀ log, VisitsOrStops f log c ((rebuild (recording f) c).run log))
    (log : List Call) :
    (∃ results log', (es.mapM (rebuild (recording f))).run log = .ok (results, log') ∧
      VisitsEach f log es results log') ∨
    ∃ before c after results log' err, (es.mapM (rebuild (recording f))).run log = .error err ∧
      es = before ++ c :: after ∧ VisitsEach f log before results log' ∧ Stops f log' c err := by
  -- on the fields, for every record they may begin with
  induction es generalizing log with
  | nil => exact .inl ⟨[], log, rfl, .nil⟩
  | cons c rest ihrest =>
    obtain ⟨hc, hrest⟩ := List.forall_mem_cons.mp ih
    have first := hc log
    rcases hrun : (rebuild (recording f) c).run log with err | ⟨result, log'⟩
    · rw [hrun] at first
      have run : ((c :: rest).mapM (rebuild (recording f))).run log = .error err := by
        rw [List.mapM_cons, StateT.run_bind, hrun]
        rfl
      exact .inr ⟨[], c, rest, [], log, err, run, rfl, .nil, first⟩
    · rw [hrun] at first
      have run : ((c :: rest).mapM (rebuild (recording f))).run log =
          (rest.mapM (rebuild (recording f))).run log' >>= fun p => .ok (result :: p.1, p.2) := by
        rw [List.mapM_cons, StateT.run_bind, hrun]
        rfl
      rcases ihrest hrest log' with ⟨results, log'', hrun', hvisits⟩ |
        ⟨before, d, after, results, log'', err, hrun', rfl, hvisits, hstops⟩
      · exact .inl ⟨result :: results, log'', by rw [run, hrun']; rfl, .cons first hvisits⟩
      · exact .inr ⟨c :: before, d, after, result :: results, log'', err, by rw [run, hrun']; rfl,
          rfl, .cons first hvisits, hstops⟩

/-- A node is as it was if its constructor takes it. -/
theorem eq_of_rechecked {e node : Expr} (h : e.rechecked = .ok node) : node = e := by
  cases e with
  | inList operand items negated => exact yields_makeInList operand items negated node h
  | _ =>
    cases h
    rfl

/-- **A traversal visits, or it stops.** -/
theorem visitsOrStops (hf : ∀ log n, n.isExpr = true → (f log n).isExpr = true) {e : Expr}
    (hbuilt : ∀ n ∈ e.scope, n.IsBuilt) (log : List Call) :
    VisitsOrStops f log e ((rebuild (recording f) e).run log) := by
  induction e using scope_induction generalizing log with
  | step e ih =>
    obtain ⟨hroot, hbelow⟩ := forall_scope.mp hbuilt
    -- the fields are visited first, or one of them stops the traversal
    have each := visitsEach_or_stops (fun c hc log => ih c hc (hbelow c hc) log) log
    cases he : e.isExpr with
    | true =>
      rw [rebuild_eq _ he, StateT.run_bind]
      rcases each with ⟨results, log', hrun, hvisits⟩ |
        ⟨before, c, after, results, log', err, hrun, hfields, hvisits, hstops⟩
      · rw [hrun]
        obtain ⟨hplaced, hform, -⟩ := withFields_spec hvisits.length
        -- with other fields in place only the checks on these fields can fail
        have made := rechecked_eq_remade hroot hform (hplaced.symm ▸ hvisits.isExpr hf)
        show VisitsOrStops f log e
          ((built (e.withFields results).rechecked >>= recording f).run log')
        cases hchecked : (e.withFields results).rechecked with
        | ok node =>
          obtain rfl := eq_of_rechecked hchecked
          exact .node he (hplaced.symm ▸ hvisits) hform (made ▸ hchecked)
        | error err => exact .refused he (hplaced.symm ▸ hvisits) hform (made ▸ hchecked)
      · rw [hrun]
        exact .inside hfields hvisits hstops
    | false =>
      rw [rebuild_eq_of_not_isExpr _ he, StateT.run_bind]
      rcases each with ⟨results, log', hrun, hvisits⟩ |
        ⟨before, c, after, results, log', err, hrun, hfields, hvisits, hstops⟩
      · rw [hrun]
        obtain ⟨hplaced, hform, -⟩ := withFields_spec hvisits.length
        exact .other he (hplaced.symm ▸ hvisits) hform
      · rw [hrun]
        exact .inside hfields hvisits hstops

end

/-! ## Functions without a memory -/

/-- Whether a traversal that keeps a record has the outcome of one that keeps none. -/
def Forgets {α : Type} (x : StateT (List Call) Build α) (y : Build α) : Prop :=
  ∀ log, (x.run log).map Prod.fst = y

theorem Forgets.bind {α β : Type} {x : StateT (List Call) Build α} {y : Build α}
    {k : α → StateT (List Call) Build β} {k' : α → Build β} (hx : Forgets x y)
    (hk : ∀ a, Forgets (k a) (k' a)) : Forgets (x >>= k) (y >>= k') := by
  intro log
  rw [StateT.run_bind, ← hx log]
  rcases x.run log with err | ⟨a, log'⟩
  · rfl
  · exact hk a log'

theorem forgets_mapM {step : Expr → StateT (List Call) Build Expr} {step' : Expr → Build Expr}
    {es : List Expr} (h : ∀ c ∈ es, Forgets (step c) (step' c)) :
    Forgets (es.mapM step) (es.mapM step') := by
  induction es with
  | nil => exact fun _ => rfl
  | cons c rest ih =>
    obtain ⟨hc, hrest⟩ := List.forall_mem_cons.mp h
    rw [List.mapM_cons, List.mapM_cons]
    exact hc.bind fun a => (ih hrest).bind fun as => fun _ => rfl

/-- A function that does not look at the record gives what it gives without one. -/
theorem forgets_rebuild (f : Expr → Expr) (e : Expr) :
    Forgets (rebuild (recording fun _ => f) e) (rebuild (fun n => .ok (f n)) e) := by
  induction e using scope_induction with
  | step e ih =>
    have each := forgets_mapM ih
    cases he : e.isExpr with
    | true =>
      rw [rebuild_eq _ he, rebuild_eq _ he]
      refine each.bind fun fs => Forgets.bind (fun log => ?_) fun n => fun _ => rfl
      cases (e.withFields fs).rechecked <;> rfl
    | false =>
      rw [rebuild_eq_of_not_isExpr _ he, rebuild_eq_of_not_isExpr _ he]
      exact each.bind fun fs => fun _ => rfl

/-- Nothing changes an expression that was built if every node is given back as it is. -/
theorem rebuild_id {e : Expr} (hbuilt : ∀ n ∈ e.scope, n.IsBuilt) :
    rebuild (fun n => (.ok n : Build Expr)) e = .ok e := by
  induction e using scope_induction with
  | step e ih =>
    obtain ⟨hroot, hbelow⟩ := forall_scope.mp hbuilt
    have each : e.fields.mapM (rebuild fun n => (.ok n : Build Expr)) = .ok e.fields := by
      rw [mapM_eq_map (g := fun c => c) fun c hc => ih c hc (hbelow c hc), List.map_id']
    -- the checks passed when the expression was built
    have checked : e.rechecked = .ok e := by
      cases e with
      | inList operand items negated => exact hroot
      | _ => rfl
    cases he : e.isExpr with
    | true =>
      rw [rebuild_eq _ he, each, ok_bind, withFields_fields, checked]
      rfl
    | false =>
      rw [rebuild_eq_of_not_isExpr _ he, each, ok_bind, withFields_fields]
      rfl

/-! ## The traversal as a whole -/

/-- **A traversal is complete.** Of an expression whose nodes were all built by their constructors:

* handed to the identity it is given back as it is;
* every function is called on its expressions once each, in postorder, with the node that has the
  results in the places of its fields, unless a constructor refuses such a node;
* a function without a memory is called in the same way when no record is kept.

The postorder lists the expressions of the scope, so what is inside a nested select is not among
them. -/
theorem mapNodes_visits {e : Expr} (he : e.isExpr = true) (hbuilt : ∀ n ∈ e.scope, n.IsBuilt) :
    mapNodes (fun n => n) e = .ok e ∧
    (∀ f : List Call → Expr → Expr, (∀ log n, n.isExpr = true → (f log n).isExpr = true) →
      match (mapNodesM (recording f) e).run [] with
      | .ok (result, log) => Visits f [] e result log ∧
          List.Forall₂ (fun n call => call.node.SameForm n) e.postorder log.reverse
      | .error err => Stops f [] e err) ∧
    (∀ f : Expr → Expr,
      mapNodes f e = ((mapNodesM (recording fun _ => f) e).run []).map Prod.fst) ∧
    e.postorder.Perm (e.scope.filter isExpr) := by
  -- the identity, functions with a memory, and functions without one
  refine ⟨?_, fun f hf => ?_, fun f => ?_, postorder_perm e⟩
  · rw [mapNodes, mapNodesM, if_pos he]
    exact rebuild_id hbuilt
  · rw [mapNodesM, if_pos he]
    have outcome := visitsOrStops hf hbuilt []
    rcases hrun : (rebuild (recording f) e).run [] with err | ⟨result, log⟩
    · rw [hrun] at outcome
      exact outcome
    · rw [hrun] at outcome
      obtain ⟨calls, hlog, hcalls⟩ := Visits.calls outcome
      rw [List.append_nil] at hlog
      exact ⟨outcome, hlog ▸ hcalls⟩
  · rw [mapNodes, mapNodesM, mapNodesM, if_pos he, if_pos he]
    exact (forgets_rebuild f e []).symm

/-- A function that names every column by the number of calls before. -/
def numbered (log : List Call) : Expr → Expr
  | .column table _ => .column table (.word (toString log.length))
  | n => n

/-- A membership of rows. In the second row stand a bound expression and a nested select, which is
not entered. -/
def nestedMembership : Expr :=
  .inList (.row (.column .absent (.word "a")) [.column .absent (.word "b")])
    [.row (.literal (.int64 1)) [.sorted (.column .absent (.word "c")) .desc],
      .row (.raw (.word "f(\x7bexpr:x\x7d)") .absent (.switch true)
          [(.word "x", .column .absent (.word "d"))])
        [.scalar (.select ⟨[⟨.column .absent (.word "e"), .absent⟩], none, [], none, [], none, [],
          none, none, .switch false⟩)]]
    (.switch false)

theorem nestedMembership_visits :
    nestedMembership.isExpr = true ∧ (∀ n ∈ nestedMembership.scope, n.IsBuilt) ∧
      (∀ log n, n.isExpr = true → (numbered log n).isExpr = true) ∧
      mapNodes (fun n => n) nestedMembership = .ok nestedMembership ∧
      ∃ result log, (mapNodesM (recording numbered) nestedMembership).run [] = .ok (result, log) ∧
        Visits numbered [] nestedMembership result log ∧
        log.reverse.map (fun call => call.node.typeName) =
          ["ColumnRef", "ColumnRef", "Row", "Literal", "ColumnRef", "OrderByExpr", "Row",
            "ColumnRef", "RawSql", "Subquery", "Row", "InList"] := by
  have built : ∀ n ∈ nestedMembership.scope, n.IsBuilt := by
    simp only [isBuilt_iff, nestedMembership, scope_eq, fields, bindingFields, Query.strangers,
      List.flatMap_cons, List.flatMap_nil, List.append_nil, List.cons_append, List.nil_append]
    simp [PassesChecks, makeInList, rowItems?, isExpr]
  have gives : ∀ log n, n.isExpr = true → (numbered log n).isExpr = true := by
    intro log n hn
    unfold numbered
    split
    · rfl
    · exact hn
  obtain ⟨same, visits, -⟩ := mapNodes_visits (e := nestedMembership) rfl built
  refine ⟨rfl, built, gives, same, ?_⟩
  have outcome := visits numbered gives
  rcases hrun : (mapNodesM (recording numbered) nestedMembership).run [] with err | ⟨result, log⟩
  · cases hrun
  · rw [hrun] at outcome
    refine ⟨result, log, rfl, outcome.1, ?_⟩
    cases hrun
    rfl

end SqlScribe.Expr
