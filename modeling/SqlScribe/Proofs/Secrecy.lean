import SqlScribe.Proofs.Erasure
import SqlScribe.Proofs.Substitution

/-!
# Values stay out of the text

Statements that are the same but for what they bind have the same text and the same number of
values, or cannot be written for the same reason. What is told about them is the same too. So
nothing that is bound can be read off the text of a query, an error or the log, and nothing that is
bound can change what a query does.

`Statement.erase` says what is forgotten before statements are compared: values of literals, texts
of paths, and keys of paths.
-/

namespace SqlScribe

/-! ## Remarks -/

theorem word_erase (s : Statement) : s.erase.word = s.word := by
  cases s <;> rfl

/-- What is told on the way depends on whether the rows can be written, and not on their values. -/
theorem Insert.remarks_erasing (d : Dialect) (i : Insert) :
    (i.pass erasing).remarks d = i.remarks d := by
  have rows := same_rowSource (writes_erasing d) i
  have head := head_pass (P := erasing) i
  obtain ⟨target, columns, source, conflict, returning⟩ := i
  cases d with
  | mysql =>
    cases target with
    | table t =>
      cases conflict with
      | none => rfl
      | some clause =>
        cases clause with
        | other object => rfl
        | conflict c =>
          obtain ⟨names, action⟩ := c
          cases action with
          | update assignments filter => rfl
          | nothing =>
            -- the record is made where all parts can be written, whatever is written for them
            unfold Insert.remarks
            rw [head]
            rcases rows.cases with ⟨e, he, he'⟩ | ⟨f, g, he, he', -⟩
            · rw [he, he']
              rfl
            · rw [he, he']
              dsimp only [Insert.pass, Source.pass, Option.map, ConflictClause.pass,
                Conflict.pass, ConflictAction.pass]
              cases Insert.head _ with
              | error e => rfl
              | ok h => cases nameOf _ <;> rfl
    | derived query aliasName | other object => rfl
  | sqlite | postgres | mssql => rfl

theorem remarks_erase (d : Dialect) (s : Statement) : s.erase.remarks d = s.remarks d := by
  cases s with
  | insert i => exact i.remarks_erasing d
  | select s | union u | update u | delete x => rfl

/-! ## The guarantee -/

/-- A text and the number of values that are bound in it. -/
def shapeOf (written : String × List Value) : String × Nat := (written.1, written.2.length)

/-- The record about a finished query tells its shape. -/
theorem PreparedQuery.remark_eq {word : String} {q r : PreparedQuery} (hd : q.dialect = r.dialect)
    (h : shapeOf (q.sql, q.bindings) = shapeOf (r.sql, r.bindings)) :
    q.remark word = r.remark word := by
  obtain ⟨hsql, hlength⟩ : q.sql = r.sql ∧ q.bindings.length = r.bindings.length :=
    Prod.mk.inj h
  unfold PreparedQuery.remark
  rw [hd, hsql, hlength]

theorem Statement.agree_toText (style : Style) {s t : Statement} (h : s.erase = t.erase) :
    Agree shapeOf (s.toText style) (t.toText style) := by
  have rendered : SameUpTo blank (s.render style.dialect) (t.render style.dialect) :=
    (s.same_erased style.dialect).symm.trans (h ▸ t.same_erased style.dialect)
  unfold Statement.toText spelledIn
  rcases rendered.cases with ⟨e, hs, ht⟩ | ⟨f, g, hs, ht, hfg⟩
  · rw [hs, ht]
    exact .refl _
  · have hspell : f.spell style = g.spell style := by
      rw [← Fragment.spell_mapValues (g := blank), hfg, Fragment.spell_mapValues]
    have hsize : f.values.length = g.values.length := by
      rw [← Fragment.size_eq_length, ← Fragment.size_mapValues (g := blank), hfg,
        Fragment.size_mapValues, Fragment.size_eq_length]
    rw [hs, ht]
    exact agree_ok (congrArg₂ Prod.mk hspell hsize)

/-- **Values stay out of the text.** Two statements that are the same but for what they bind have in
every style the same text and the same number of values, or the same error. If both can be finished,
the same is told about them. -/
theorem Statement.toText_eq_of_erase_eq (style : Style) (s t : Statement)
    (h : s.erase = t.erase) :
    (s.toText style).map shapeOf = (t.toText style).map shapeOf ∧
      ∀ q r, s.toQuery style = .ok q → t.toQuery style = .ok r →
        (s.toQueryLogged style).records = (t.toQueryLogged style).records := by
  have texts := Statement.agree_toText style h
  refine ⟨texts, fun q r hq hr => ?_⟩
  obtain ⟨hqd, hqt⟩ := Statement.toQuery_eq_ok hq
  obtain ⟨hrd, hrt⟩ := Statement.toQuery_eq_ok hr
  rw [hqt, hrt] at texts
  -- the record tells the length of the text and the number of values, which are the same
  have remark : q.remark s.word = r.remark t.word := by
    rw [← word_erase s, h, word_erase t]
    exact PreparedQuery.remark_eq (hqd.trans hrd.symm) (Except.ok.inj texts)
  have remarks : s.remarks style.dialect = t.remarks style.dialect := by
    rw [← remarks_erase, h, remarks_erase]
  unfold Statement.toQueryLogged
  rw [hq, hr]
  dsimp only
  rw [remark, remarks]

/-- A part of the documents of all orders that were paid with a certain value. -/
def partOfOrders (key : String) (paid : Value) : Statement :=
  .select ⟨[⟨.jsonExtract (.column .absent (.word "doc")) (.keys key []) (.switch true), .absent⟩],
    some (.table ⟨.word "orders", .absent, .absent, []⟩), [],
    some (.binary .eq (.column .absent (.word "paid")) (.literal paid)), [], none, [], none, none,
    .switch false⟩

theorem partOfOrders_toText : (partOfOrders "a" .null).toText (.plain .postgres) =
    .ok ("SELECT (doc#>>ARRAY[$1]::text[]) FROM orders WHERE paid = $2", [.text "a", .null]) :=
  eq_ok_of_toOption (by decide +kernel) rfl

/-- The text of one statement shows that of the other, though its key and its value are others. -/
theorem toText_partOfOrders :
    ((partOfOrders "'; --" (.text "card")).toText (.plain .postgres)).map shapeOf =
      .ok ("SELECT (doc#>>ARRAY[$1]::text[]) FROM orders WHERE paid = $2", 2) := by
  have h := (Statement.toText_eq_of_erase_eq (.plain .postgres)
    (partOfOrders "'; --" (.text "card")) (partOfOrders "a" .null) rfl).1
  rw [h, partOfOrders_toText]
  rfl

end SqlScribe
