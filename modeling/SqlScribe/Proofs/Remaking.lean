import SqlScribe.Proofs.Accepted
import SqlScribe.Proofs.Mapped

/-!
# Nodes made again

A constructor puts what it is given into a normal form: the spelling of an operator becomes the
operator, the spelling of a type its canonical name, a sequence of keys a path, plain data a bound
value. A node holds the normal forms, so when it is made again from its own parts the constructor
reads what it wrote itself.

`Expr.IsBuilt` says that a node is what its constructor made of some arguments, and `Expr.remade` is
the constructor run on the parts of a node. Every reader gives back the word that it is given
(`chooseFromSet_text`, `functionName_text`, `makePath_view`), so **a node that passes the checks is
made again as it is** (`Expr.remade_of_passesChecks`), and the nodes that pass them are those that
were built (`Expr.isBuilt_iff`).
-/

namespace SqlScribe

/-! ## Words that are read back -/

section

variable {α : Type} {read : String → Option α} {cause : Data → Malformed} {s : String} {a : α}

/-- A choice out of a set is made by its name. -/
theorem chooseFromSet_text (hread : read s = some a) :
    chooseFromSet read cause (.text s) = .ok a := by
  show readLetters read cause (.text s) (some s) = .ok a
  rw [readLetters, Option.bind_some, hread]

end

theorem Operator.ofText?_text (op : Operator) : ofText? op.text = some op := by
  cases op <;> rfl

theorem Connective.ofText?_text (op : Connective) : ofText? op.text = some op := by
  cases op <;> rfl

theorem Direction.ofText?_text (direction : Direction) :
    ofText? direction.text = some direction := by
  cases direction <;> rfl

theorem LogicalType.ofText?_name (type : LogicalType) : ofText? type.name = some type := by
  cases type <;> rfl

/-- Steps that all come to a result. -/
theorem mapM_eq_map {α β : Type} {step : α → Build β} {g : α → β} {as : List α}
    (h : ∀ a ∈ as, step a = .ok (g a)) : as.mapM step = .ok (as.map g) := by
  induction as with
  | nil => rfl
  | cons a rest ih =>
    obtain ⟨ha, hrest⟩ := List.forall_mem_cons.mp h
    rw [List.mapM_cons, ha, ok_bind, ih hrest]
    rfl

namespace Expr

/-- A name of a function is read as itself, and none is empty. -/
theorem functionName_text (f : FunctionName) (cause : Data → Malformed) :
    functionName (.text f.text) cause = .ok f := by
  have given : (Data.text f.text).orElse (.text "") = .text f.text := by
    unfold Data.orElse
    split
    · rfl
    next hempty =>
      -- a text that counts as false is the empty one, which stands in its own place
      rw [Data.isTrue, Bool.not_eq_true, Bool.not_eq_false', String.isEmpty_iff] at hempty
      rw [hempty]
  unfold functionName
  rw [given]
  simp only [Data.asText?, FunctionName.ofText?_eq_some_iff.mpr rfl]

/-- A path that was made is made again from its view. -/
theorem makePath_view {path : JsonPath} (h : ∃ given, makePath given = .ok path) :
    makePath path.view = .ok path := by
  cases path with
  | text s =>
    obtain ⟨given, h⟩ := h
    -- only a text gives a path text, and it was checked for its root
    have root : s.toList.head? = some '$' := by
      unfold makePath at h
      split at h
      next s' _ =>
        split at h
        next hroot =>
          cases h
          exact hroot
        · exact absurd h refuse_ne_ok
      · split at h
        · cases h
        · split at h
          · cases h
          · exact absurd h refuse_ne_ok
    exact if_pos root
  | keys first rest =>
    have letters (keys : List String) : (keys.map Data.text).mapM Data.asText? = some keys := by
      induction keys with
      | nil => rfl
      | cons key rest ih =>
        rw [List.map_cons, List.mapM_cons, ih]
        rfl
    have named : (JsonPath.keys first rest).view.asText? = none := rfl
    have members : (JsonPath.keys first rest).view.members? =
      some ((first :: rest).map Data.text) := rfl
    simp only [makePath, named, members, letters]

end Expr

/-! ## Nodes that were built -/

namespace Expr

/-- Whether a node is what its constructor makes of some arguments. A constructor without checks
makes every node of its form. -/
def IsBuilt : Expr → Prop
  | .literal value => ∃ object, (foreign object).operand = .ok (.literal value)
  | .binary op left right => ∃ given, makeBinary given left right = .ok (.binary op left right)
  | .logical op first rest =>
    ∃ given conditions, makeLogical given conditions = .ok (.logical op first rest)
  | .inList operand items negated =>
    makeInList operand items negated = .ok (.inList operand items negated)
  | .row first rest => ∃ items, makeRow items = .ok (.row first rest)
  | .call name args distinct =>
    ∃ given parts, makeCall given parts distinct = .ok (.call name args distinct)
  | .cast operand target => ∃ given, makeCast operand given = .ok (.cast operand target)
  | .sorted operand direction =>
    ∃ given, makeSorted operand given = .ok (.sorted operand direction)
  | .over name args spec =>
    ∃ given parts, makeOver given parts spec = .ok (.over name args spec)
  | .jsonExtract document path asText =>
    ∃ given, makeJsonExtract document given asText = .ok (.jsonExtract document path asText)
  | .jsonEdge document value edge negated =>
    ∃ given, makeJsonEdge document value given negated = .ok (.jsonEdge document value edge negated)
  | .jsonType document type => ∃ given, makeJsonType document given = .ok (.jsonType document type)
  | .textSearch first rest => ∃ columns, makeTextSearch columns = .ok (.textSearch first rest)
  | .raw sql aliasName template bindings =>
    ∃ given, makeRaw sql aliasName template given = .ok (.raw sql aliasName template bindings)
  | _ => True

/-- A node made again by its constructor, from the parts that it has. -/
def remade : Expr → Build Expr
  | .literal value => (foreign (.value value)).operand
  | .binary op left right => makeBinary (.text op.text) left right
  | .logical op first rest => makeLogical (.text op.text) (.ok (first :: rest))
  | .inList operand items negated => makeInList operand items negated
  | .row first rest => makeRow (first :: rest)
  | .call name args distinct => makeCall (.text name.text) (.ok args) distinct
  | .cast operand target => makeCast operand (.text target.name)
  | .sorted operand direction => makeSorted operand (.text direction.text)
  | .over name args spec => makeOver (.text name.text) (.ok args) spec
  | .jsonExtract document path asText => makeJsonExtract document path.view asText
  | .jsonEdge document value edge negated =>
    makeJsonEdge document value (.text edge.text) negated
  | .jsonType document type => makeJsonType document (.text type.text)
  | .textSearch first rest => makeTextSearch (first :: rest)
  | .raw sql aliasName template bindings =>
    makeRaw sql aliasName template (.ok (bindings.map .ok))
  | e => .ok e

/-- Named operands are expressions. -/
theorem isExpr_of_namedOperands {given : List (Build (Name × Expr))} {bs : List (Name × Expr)}
    (h : namedOperands given = .ok bs) : ∀ b ∈ bs, b.2.isExpr = true := by
  induction given generalizing bs with
  | nil =>
    cases h
    exact nofun
  | cons b rest ih =>
    obtain ⟨⟨name, e⟩, -, h⟩ := bind_eq_ok.mp h
    obtain ⟨operand, he, h⟩ := bind_eq_ok.mp h
    obtain ⟨others, hrest, ⟨⟩⟩ := bind_eq_ok.mp h
    exact List.forall_mem_cons.mpr ⟨isExpr_of_operand he, ih hrest⟩

/-- What the constructor of a node checks beyond what the types say: the widths of rows, the root
of a path, and that a raw fragment binds expressions. -/
def PassesChecks : Expr → Prop
  | .inList operand items negated =>
    makeInList operand items negated = .ok (.inList operand items negated)
  | .jsonExtract _ path _ => ∃ given, makePath given = .ok path
  | .raw _ _ _ bindings => ∀ b ∈ bindings, b.2.isExpr = true
  | _ => True

theorem IsBuilt.passesChecks {e : Expr} (h : e.IsBuilt) : e.PassesChecks := by
  cases e with
  | inList operand items negated => exact h
  | jsonExtract document path asText =>
    obtain ⟨given, h⟩ := h
    refine ⟨given, ?_⟩
    unfold makeJsonExtract at h
    cases hpath : makePath given with
    | ok p =>
      rw [hpath] at h
      cases h
      rfl
    | error _ =>
      rw [hpath] at h
      cases h
  | raw sql aliasName template bindings =>
    obtain ⟨given, h⟩ := h
    obtain ⟨given, -, h⟩ := bind_eq_ok.mp h
    obtain ⟨bound, hbound, ⟨⟩⟩ := bind_eq_ok.mp h
    exact isExpr_of_namedOperands hbound
  | _ => trivial

/-- A node that passes the checks is made again as it is: what its constructor wrote into it, the
constructor reads back. -/
theorem remade_of_passesChecks {e : Expr} (h : e.PassesChecks) : e.remade = .ok e := by
  cases e with
  | literal value => rfl
  | binary op left right =>
    rw [remade, makeBinary, chooseFromSet_text op.ofText?_text, ok_bind]
    rfl
  | logical op first rest =>
    rw [remade, makeLogical, chooseFromSet_text op.ofText?_text, ok_bind]
    rfl
  | inList operand items negated => exact h
  | row first rest | textSearch first rest => rfl
  | call name args distinct =>
    rw [remade, makeCall, functionName_text, ok_bind]
    rfl
  | cast operand target =>
    rw [remade, makeCast, LogicalType.ofData?, target.ofText?_name]
  | sorted operand direction =>
    have spelt : choose Direction.ofText? .unknownDirection "ASC" (.text direction.text) =
        .ok direction := choose_text (by cases direction <;> decide) direction.ofText?_text
    rw [remade, makeSorted, spelt]
    rfl
  | «over» name args spec =>
    rw [remade, makeOver, functionName_text, ok_bind]
    rfl
  | jsonExtract document path asText =>
    rw [remade, makeJsonExtract, makePath_view h]
    rfl
  | jsonEdge document value edge negated =>
    -- these two lists are short, and the readers run
    cases edge <;> rfl
  | jsonType document type => cases type <;> rfl
  | raw sql aliasName template bindings => exact makeRaw_eq_self_iff.mpr h
  | _ => rfl

/-- A node was built if and only if it passes the checks. -/
theorem isBuilt_iff {e : Expr} : e.IsBuilt ↔ e.PassesChecks := by
  refine ⟨IsBuilt.passesChecks, fun h => ?_⟩
  have made := remade_of_passesChecks h
  cases e with
  | literal _ | binary _ _ _ | row _ _ | cast _ _ | sorted _ _ | jsonExtract _ _ _
  | jsonEdge _ _ _ _ | jsonType _ _ | textSearch _ _ | raw _ _ _ _ =>
    rw [remade] at made
    exact ⟨_, made⟩
  | logical _ _ _ | call _ _ _ | «over» _ _ _ =>
    rw [remade] at made
    exact ⟨_, _, made⟩
  | inList _ _ _ => exact h
  | _ => trivial

end Expr

end SqlScribe
