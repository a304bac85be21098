import SqlScribe.Proofs.PairedStatement
import SqlScribe.Proofs.Substitution

/-!
# PostgreSQL and SQLite write the same text

PostgreSQL numbers the places for values, and SQLite does not. For a statement without raw fragments
that has only nodes which the two lay out alike, that is the whole difference, if all names are
quoted: both write it or both refuse it, they bind the same values, and the text of PostgreSQL is
the text of SQLite with each place numbered.
-/

namespace SqlScribe

open Fragment (Fits)

namespace Fragment

/-- What is written depends on the style by its names, and on the places of the values alone. -/
theorem write_congr {style style' : Style} {place place' : Nat → Value → String} {n : Nat}
    {f : Fragment} (hname : ∀ a, style.identifier a = style'.identifier a)
    (hplace : ∀ i, n ≤ i → i < n + f.size → ∀ v, place i v = place' i v) :
    f.write style place n = f.write style' place' n := by
  induction f generalizing n with
  | empty => rfl
  | text s rest ih => rw [write, write, ih hplace]
  | name a rest ih => rw [write, write, hname, ih hplace]
  | slot v rest ih =>
    simp only [size] at hplace
    rw [write, write, hplace n (by omega) (by omega),
      ih fun i hi hlt => hplace i (by omega) (by omega)]
  | crossed a b rest iha ihb ih =>
    simp only [size] at hplace
    rw [write, write, iha fun i hi hlt => hplace i (by omega) (by omega),
      ihb fun i hi hlt => hplace i hi (by omega),
      ih fun i hi hlt => hplace i (by omega) (by omega)]

/-- The tokens of a fragment, filled in with given texts, are the fragment with these texts in the
places of its values. -/
theorem fill_tokens_eq_write (style : Style) (shown : List String) (n : Nat) (f : Fragment) :
    fill shown (f.tokens style n) = f.write style (fun i _ => shown.getD i "") n := by
  induction f generalizing n with
  | empty => rfl
  | text s rest ih | name a rest ih =>
    rw [tokens, fill_append, fill_chars, write, String.ofList_toList, ih]
  | slot v rest ih => rw [tokens, fill, write, ih]
  | crossed a b rest iha ihb ih => rw [tokens, fill_append, fill_append, write, iha, ihb, ih]

end Fragment

/-- The two dialects quote a name alike. -/
theorem identifier_quoted (a : String) :
    (Style.mk .postgres true).identifier a = (Style.mk .sqlite true).identifier a := by
  simp only [Style.identifier, Style.quotes, Bool.true_or, if_true]
  rfl

/-- The numbered places of a dialect, from the first on. -/
def places (d : Dialect) (count : Nat) : List String :=
  (List.range count).map fun (i : Nat) => d.placeholder (i + 1)

theorem getD_places {d : Dialect} {count i : Nat} (h : i < count) :
    (places d count).getD i "" = d.placeholder (i + 1) := by
  simp [places, List.getD_eq_getElem?_getD, h]

/-- **The text of PostgreSQL is that of SQLite with its places numbered.** For a statement whose
nodes both lay out alike, with all names quoted, both dialects write it or both refuse it. Where
they write it they bind the same values, the text of SQLite has one place for each, and numbering
the places gives the text of PostgreSQL. -/
theorem Statement.toText_postgres_eq (s : Statement) (hnodes : s.All Tree.IsShared)
    (hwrapped : s.isWrapped = false) :
    ((s.toText ⟨.postgres, true⟩).isOk = (s.toText ⟨.sqlite, true⟩).isOk) ∧
      ∀ sql values, s.toText ⟨.sqlite, true⟩ = .ok (sql, values) →
        (placeNumbers .sqlite sql).length = values.length ∧
          s.toText ⟨.postgres, true⟩ =
            .ok (substitute .sqlite (places .postgres values.length) sql, values) := by
  have meets : Pairing.shared.Meets (s.render .postgres) (s.render .sqlite) :=
    Pairing.meets_statement
      { nodes := hnodes
        typed := fun h => h.elim
        portable := fun ⟨_, h⟩ => nomatch h
        reworked := fun ⟨_, h⟩ => nomatch h
        unwrapped := fun _ => hwrapped }
  have hraw : s.Every fun t => t.isRaw = false := fun t ht n hn => by
    have shared : n.IsShared := Tree.every_of_all (hnodes t ht) n hn
    show n.isRaw = false
    unfold Tree.isRaw
    split
    · exact shared.elim
    · rfl
  constructor
  · rcases meets.cases with ⟨f, g, hf, hg, -⟩ | ⟨e, e', he, he', -⟩
    · rw [toText, toText, hf, hg]
      rfl
    · rw [toText, toText, he, he']
      rfl
  intro sql values h
  obtain ⟨f, hf, rfl, rfl⟩ := Statement.toText_eq_ok h
  have hpostgres : s.render .postgres = .ok f := by
    rcases meets.cases with ⟨f', g, hf', hg, hfg⟩ | ⟨e, e', -, he', -⟩
    · obtain rfl := Except.ok.inj (hg.symm.trans hf)
      rw [hf', hfg trivial]
    · cases he'.symm.trans hf
  have tokens := tokensOf_spell (Statement.fits_of_render hraw hf)
  have numbered : substitute .sqlite (places .postgres f.values.length) (f.spell ⟨.sqlite, true⟩) =
      f.spell ⟨.postgres, true⟩ := by
    rw [substitute, tokens, Fragment.fill_tokens_eq_write]
    refine Fragment.write_congr (fun a => (identifier_quoted a).symm) fun i _ hi v => ?_
    rw [Nat.zero_add, Fragment.size_eq_length] at hi
    exact getD_places hi
  constructor
  · rw [placeNumbers, tokens, Fragment.filterMap_tokens, Fragment.length_numbers,
      Fragment.size_eq_length]
  · rw [numbered, toText, spelledIn, hpostgres]
    rfl

/-- A delete whose names hold the mark of a place. -/
def markedDelete : Statement :=
  .delete ⟨.table ⟨.word "t?", .absent, .absent, []⟩,
    some (.logical .or (.binary .eq (plainColumn "a?") (.literal (.text "v")))
      [.isNull (.literal .null) (.switch false)]), []⟩

theorem markedDelete_toText : markedDelete.toText ⟨.sqlite, true⟩ =
    .ok ("DELETE FROM \"t?\" WHERE \"a?\" = ? OR ? IS NULL", [.text "v", .null]) :=
  eq_ok_of_toOption (by decide +kernel) rfl

/-- The marks in the names stay, and the places get their numbers. -/
theorem toText_markedDelete : markedDelete.toText ⟨.postgres, true⟩ =
    .ok ("DELETE FROM \"t?\" WHERE \"a?\" = $1 OR $2 IS NULL", [.text "v", .null]) := by
  have nodes : markedDelete.All Tree.IsShared :=
    List.forall_mem_singleton.mpr ⟨rfl, ⟨rfl, rfl, rfl⟩, ⟨rfl, rfl⟩, trivial⟩
  have numbered : substitute .sqlite (places .postgres 2)
      "DELETE FROM \"t?\" WHERE \"a?\" = ? OR ? IS NULL" =
        "DELETE FROM \"t?\" WHERE \"a?\" = $1 OR $2 IS NULL" := by
    decide +kernel
  have written := (Statement.toText_postgres_eq markedDelete nodes rfl).2 _ _ markedDelete_toText
  exact written.2.trans (congrArg (fun sql => Except.ok (sql, _)) numbered)

end SqlScribe
