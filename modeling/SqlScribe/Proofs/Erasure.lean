import SqlScribe.Proofs.PassStatement

/-!
# Erased statements

To erase a statement is to forget what it binds: the values of its literals, the texts of its paths
into JSON documents, and the keys of such paths but for their number (`eraseRoot`). What is left is
the shape of the statement. It is forgotten everywhere (`erasing`), also where an expression stands
in the place of a query or a source and is refused by its type.

Names and switches are kept, since they are no place for a literal: a word or a truth value stands
there, and anything else is refused by its looks.

A fragment without its values does not tell what was forgotten. So a statement and the erased
statement are written alike but for values, and go wrong alike (`Statement.same_erased`).
-/

namespace SqlScribe

open Fragment (mapValues)

/-- A path without its text or its keys. The number of keys is left. -/
def JsonPath.erase : JsonPath → JsonPath
  | .text _ => .text ""
  | .keys _ rest => .keys "" (rest.map fun _ => "")

/-- An expression without what its root binds. -/
def eraseRoot : Expr → Expr
  | .literal _ => .literal .null
  | .jsonExtract document path asText => .jsonExtract document path.erase asText
  | e => e

/-- The pass that forgets what is bound. -/
def erasing : Pass where
  root _ := eraseRoot
  select s := s
  stranger := some .value
  member := some .value

/-- A statement without what it binds. -/
def Statement.erase (s : Statement) : Statement := s.pass erasing

instance : erasing.KeepsLooks where
  root _ e := by
    cases e with
    | literal _ | jsonExtract _ _ _ => exact {}
    | _ => exact .refl _

/-! ## Rebuilding -/

/-- Erasing values leaves the form of every node. -/
theorem tops_erasing : erasing.Tops fun _ => True where
  role _ _ _ := rfl
  fields e _ := by cases e <;> rfl
  mapFields g e _ := by cases e <;> rfl
  rechecked _ e := by
    cases e with
    | inList operand items negated => exact makeInList_of_eq (k := eraseRoot) rfl
    | _ => rfl
  form _ _ := Iff.rfl
  inner _ _ := trivial

theorem leavesReferences_erasing : erasing.LeavesReferences where
  column _ _ _ := rfl
  star _ _ := rfl
  excluded _ _ := rfl
  image _ _ _ := rfl
  call _ _ _ _ := rfl
  other _ e h := by
    cases e <;> first | rfl | cases h

/-! ## Values -/

/-- The values of a fragment are forgotten. -/
abbrev blank : Value → Value := fun _ => .null

@[simp] theorem blank_boundText (s : String) :
    (boundText s).mapValues blank = Fragment.bound .null := rfl

/-- Of the keys of a path only their number is left. -/
theorem blank_keyArray {keys keys' : List String} (h : keys.length = keys'.length) :
    (keyArray keys).mapValues blank = (keyArray keys').mapValues blank := by
  have slots (ks : List String) : (ks.map boundText).map (mapValues blank) =
      List.replicate ks.length (Fragment.bound .null) := by
    rw [List.map_map]
    show ks.map (fun _ => Fragment.bound .null) = _
    exact List.map_const'
  simp only [keyArray, Fragment.mapValues_append, Fragment.mapValues_join, slots, h]

/-- A part of a document is written alike for a path of as many keys. -/
theorem agree_erasedPath {d : Dialect} (document : Expr) (path : JsonPath) (asText : Bool) :
    SameUpTo blank (jsonPartOf d document (document.render d) path.erase asText)
      (jsonPartOf d document (document.render d) path asText) := by
  unfold jsonPartOf
  cases d with
  | sqlite | mssql => exact agree_after fun f => agree_ok (by simp)
  | mysql => exact agree_after fun f => agree_ok (by cases asText <;> simp)
  | postgres =>
    -- PostgreSQL refuses a path in one text, and of keys only the number is left
    cases path with
    | text s => exact .refl _
    | keys first rest =>
      have hkeys : (keyArray ("" :: rest.map fun _ => "")).mapValues blank =
          (keyArray (first :: rest)).mapValues blank := blank_keyArray (by simp)
      exact agree_after fun f => agree_ok (by
        simp only [Fragment.mapValues_parens, Fragment.mapValues_cross, Fragment.mapValues_append,
          hkeys])

/-- A node without its values is written like one with them. -/
theorem agree_eraseRoot (d : Dialect) (e : Expr) :
    SameUpTo blank ((eraseRoot e).render d) (e.render d) := by
  cases e with
  | literal _ => exact agree_ok rfl
  | jsonExtract document path asText => exact agree_erasedPath document path asText.isTrue
  | _ => exact .refl _

/-- What is erased is written alike up to values. -/
theorem writes_erasing (d : Dialect) : erasing.Writes blank d where
  value := agree_eraseRoot d
  condition e := by
    have value := agree_eraseRoot d e
    -- SQL Server asks whether a condition is a constant, which erasing keeps
    cases d with
    | mssql =>
      cases e with
      | truth given => exact .refl _
      | _ => exact value
    | sqlite | postgres | mysql => exact value
  window e := by cases e <;> rfl
  select _ := .refl _
  typeName _ _ e := by cases e <;> rfl

/-- **An erased statement is written as the statement**, but for values. -/
theorem Statement.same_erased (d : Dialect) (s : Statement) :
    SameUpTo blank (s.erase.render d) (s.render d) :=
  same_render (tops_erasing.rewrites leavesReferences_erasing) (writes_erasing d) s

end SqlScribe
