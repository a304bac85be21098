import SqlScribe.Proofs.Substitution

/-!
# The order of numbered places

Where places have numbers, the values are numbered in the order in which they are bound. The places
stand in this order in the text if and only if no crossed pair binds values on both sides. Only
PostgreSQL crosses a pair: it binds the keys of a path before the document that they are taken
from. So its places are in order if and only if no such document binds a value, and those of SQL
Server always are.
-/

namespace SqlScribe

open Fragment (Fits)

/-! ## Fragments -/

namespace Fragment

/-- Whether no crossed pair of a fragment binds values on both sides. -/
def InOrder : Fragment → Prop
  | empty => True
  | text _ rest | name _ rest | slot _ rest => rest.InOrder
  | crossed first second rest =>
    (first.size = 0 ∨ second.size = 0) ∧ first.InOrder ∧ second.InOrder ∧ rest.InOrder

theorem inOrder_append (f g : Fragment) : (f ++ g).InOrder ↔ f.InOrder ∧ g.InOrder := by
  induction f with
  | empty => simp [InOrder]
  | text s rest ih | name a rest ih | slot v rest ih => exact ih
  | crossed a b rest _ _ ih => simp [InOrder, ih, and_assoc]

theorem inOrder_concat (fs : List Fragment) : (concat fs).InOrder ↔ ∀ f ∈ fs, f.InOrder := by
  induction fs with
  | nil => simp [InOrder]
  | cons f fs ih => rw [concat_cons, inOrder_append, ih, List.forall_mem_cons]

theorem inOrder_skeleton (f : Fragment) : f.skeleton.InOrder ↔ f.InOrder := by
  induction f with
  | empty => rfl
  | text s rest ih | name a rest ih | slot v rest ih => exact ih
  | crossed a b rest iha ihb ih => simp [skeleton, InOrder, iha, ihb, ih]

/-- The numbers of the places of a fragment are those of its values. -/
theorem bounds_of_mem_numbers {f : Fragment} {n k : Nat} (h : k ∈ f.numbers n) :
    n < k ∧ k ≤ n + f.size := by
  induction f generalizing n with
  | empty => cases h
  | text s rest ih | name a rest ih => exact ih h
  | slot v rest ih =>
    rw [numbers, List.mem_cons] at h
    rw [size]
    rcases h with rfl | h
    · omega
    · have := ih h
      omega
  | crossed a b rest iha ihb ih =>
    rw [numbers, List.mem_append, List.mem_append] at h
    rw [size]
    rcases h with (h | h) | h
    · have := iha h
      omega
    · have := ihb h
      omega
    · have := ih h
      omega

/-- The numbers of the places are one after the other if and only if every crossed pair is in
order: the number of a place in the first part exceeds all those of the second. -/
theorem numbers_eq_range_iff (f : Fragment) (n : Nat) :
    f.numbers n = List.range' (n + 1) f.size ↔ f.InOrder := by
  -- on the fragment, with the number of values before it
  induction f generalizing n with
  | empty => simp [numbers, size, InOrder]
  | text s rest ih | name a rest ih => exact ih n
  | slot v rest ih =>
    rw [numbers, size, Nat.add_comm 1, List.range'_succ, List.cons_eq_cons, ih]
    exact and_iff_right rfl
  | crossed a b rest iha ihb ih =>
    have hsplit : List.range' (n + 1) (b.size + a.size + rest.size) =
        List.range' (n + 1) a.size ++ List.range' (n + 1 + a.size) b.size ++
          List.range' (n + (b.size + a.size) + 1) rest.size := by
      rw [List.range'_append_1, Nat.add_comm a.size, ← List.range'_append_1]
      congr 2
      omega
    -- each part has the length of its range, so the lists are equal part by part
    have parts : (crossed a b rest).numbers n = List.range' (n + 1) (crossed a b rest).size ↔
        a.numbers (n + b.size) = List.range' (n + 1) a.size ∧
          b.numbers n = List.range' (n + 1 + a.size) b.size ∧ rest.InOrder := by
      rw [numbers, size, hsplit, ← ih]
      constructor
      · intro h
        obtain ⟨h, hrest⟩ := List.append_inj h (by simp [length_numbers])
        obtain ⟨ha, hb⟩ := List.append_inj h (by simp [length_numbers])
        exact ⟨ha, hb, hrest⟩
      · rintro ⟨ha, hb, hrest⟩
        rw [ha, hb, hrest]
    rw [parts, InOrder]
    -- crossed parts keep the order only if one of them binds nothing
    by_cases ha : a.size = 0
    · have hnone : ∀ m, a.numbers m = [] := fun m =>
        List.length_eq_zero_iff.mp ((length_numbers m a).trans ha)
      have hin : a.InOrder := (iha 0).mp (by rw [hnone, ha]; rfl)
      rw [hnone, ha, Nat.add_zero, ihb]
      simp [hin]
    · by_cases hb : b.size = 0
      · have hnone : b.numbers n = [] := List.length_eq_zero_iff.mp ((length_numbers n b).trans hb)
        have hin : b.InOrder := (ihb n).mp (by rw [hnone, hb]; rfl)
        rw [hnone, hb, Nat.add_zero, iha]
        simp [hin]
      · -- the first place has a number behind all those of the second part
        constructor
        · rintro ⟨h, -, -⟩
          have hmem : n + 1 ∈ a.numbers (n + b.size) := by
            rw [h, List.mem_range'_1]
            omega
          have := bounds_of_mem_numbers hmem
          omega
        · rintro ⟨h, -⟩
          omega

end Fragment

/-! ## Trees -/

/-- Whether the root of a tree binds values itself. -/
def Tree.bindsItself : Tree → Bool
  | .expr (.literal _) | .expr (.jsonExtract ..) | .expr (.jsonType ..) => true
  | _ => false

/-- Whether the root of a tree is a part of a JSON document that PostgreSQL takes by keys, and some
node of the document binds a value. -/
def Tree.bindsAcross (d : Dialect) : Tree → Prop
  | .expr (.jsonExtract document (.keys _ _) _) =>
    d = .postgres ∧ ¬(Tree.expr document).Every fun n => n.bindsItself = false
  | _ => False

theorem size_boundTexts (names : List String) : (boundTexts names).size = names.length := by
  induction names with
  | nil => rfl
  | cons name rest ih =>
    rw [boundTexts, List.map_cons, Fragment.concat_cons, Fragment.size_append, ← boundTexts, ih,
      List.length_cons, Nat.add_comm]
    rfl

theorem inOrder_boundTexts (names : List String) : (boundTexts names).InOrder := by
  refine (Fragment.inOrder_concat _).mpr fun f hf => ?_
  obtain ⟨s, _, rfl⟩ := List.mem_map.mp hf
  trivial

theorem size_concat_eq_zero_iff (fs : List Fragment) :
    (Fragment.concat fs).size = 0 ↔ ∀ f ∈ fs, f.size = 0 := by
  induction fs with
  | nil => simp [Fragment.size]
  | cons f fs ih => rw [Fragment.concat_cons, Fragment.size_append, List.forall_mem_cons, ← ih,
      Nat.add_eq_zero_iff]

/-- Only SQL Server writes other trees than the branches. -/
theorem Tree.written_eq_branches {d : Dialect} (hd : d ≠ .mssql) (t : Tree) :
    t.written d = t.branches := by
  unfold Tree.written
  split
  · rw [decide_eq_false hd]
    rfl
  · rfl

/-- What a root adds to the values below it. -/
theorem size_frame_eq_zero_iff (t : Tree) (inner : Fragment) :
    (t.frame .postgres inner).size = 0 ↔ t.bindsItself = false ∧ inner.size = 0 := by
  cases t with
  | select s => simp [Tree.frame, Tree.bindsItself]
  | expr e =>
    cases e with
    | literal value => simp [Tree.frame, Fragment.bound, Fragment.size, Tree.bindsItself]
    | jsonExtract document path asText =>
      cases path with
      | text s =>
        simp [Tree.frame, Tree.pathFrame, boundText, Fragment.bound, Fragment.size,
          Tree.bindsItself]
      | keys first rest =>
        simp [Tree.frame, Tree.pathFrame, Fragment.cross, Fragment.size, size_boundTexts,
          Tree.bindsItself]
    | jsonType document type =>
      simp [Tree.frame, size_boundTexts, Dialect.jsonTypeNames, Tree.bindsItself]
    | _ => simp [Tree.frame, Tree.bindsItself]

/-- A tree binds nothing if and only if none of its nodes does. -/
theorem Tree.size_skeleton_eq_zero_iff (t : Tree) :
    (t.skeleton .postgres).size = 0 ↔ t.Every fun n => n.bindsItself = false := by
  induction t using Tree.induction with
  | step t ih =>
    have below : (Fragment.concat ((t.written .postgres).map (Tree.skeleton .postgres))).size = 0 ↔
        ∀ b ∈ t.branches, b.Every fun n => n.bindsItself = false := by
      rw [size_concat_eq_zero_iff, Tree.written_eq_branches (by decide), List.forall_mem_map]
      exact forall₂_congr ih
    rw [Tree.skeleton_eq, Tree.every_iff, ← below]
    exact size_frame_eq_zero_iff t _

/-- The places of a node are in order if those below it are, and no document of it binds a value
that stands in front of the keys. -/
theorem inOrder_frame_iff (t : Tree) :
    (t.frame .postgres
        (.concat ((t.written .postgres).map (Tree.skeleton .postgres)))).InOrder ↔
      ¬t.bindsAcross .postgres ∧
        (Fragment.concat ((t.written .postgres).map (Tree.skeleton .postgres))).InOrder := by
  cases t with
  | select s => simp [Tree.frame, Tree.bindsAcross]
  | expr e =>
    cases e with
    | literal value =>
      have hin : (Fragment.bound value).InOrder ↔ Fragment.empty.InOrder :=
        iff_of_true trivial trivial
      simpa [Tree.frame, Tree.bindsAcross, Tree.written, Tree.branches, Expr.branches] using hin
    | jsonExtract document path asText =>
      cases path with
      | text s =>
        have hin : (boundText s).InOrder := trivial
        simp [Tree.frame, Tree.pathFrame, Fragment.inOrder_append, Tree.bindsAcross,
          JsonPath.written, hin]
      | keys first rest =>
        have hkeys := inOrder_boundTexts (first :: rest)
        simp [Tree.frame, Tree.pathFrame, Fragment.cross, Fragment.InOrder, size_boundTexts,
          Tree.bindsAcross, Tree.written, Tree.branches, Expr.branches, hkeys,
          Tree.size_skeleton_eq_zero_iff]
    | jsonType document type =>
      simp [Tree.frame, Fragment.inOrder_append, inOrder_boundTexts, Tree.bindsAcross]
    | _ => simp [Tree.frame, Tree.bindsAcross]

/-- Where no pair is crossed, all places are in order. -/
theorem Tree.inOrder_skeleton_of_ne {d : Dialect} (hd : d ≠ .postgres) (t : Tree) :
    (t.skeleton d).InOrder := by
  have below : (Fragment.concat ((t.written d).map (Tree.skeleton d))).InOrder := by
    rw [Fragment.inOrder_concat, List.forall_mem_map]
    intro b hb
    have := Tree.sizeOf_lt_of_mem_written hb
    exact inOrder_skeleton_of_ne hd b
  rw [Tree.skeleton_eq]
  unfold Tree.frame
  split
  · trivial
  · unfold Tree.pathFrame
    split
    · exact absurd rfl hd
    · exact (Fragment.inOrder_append _ _).mpr ⟨below, trivial⟩
  · exact (Fragment.inOrder_append _ _).mpr ⟨below, inOrder_boundTexts _⟩
  · exact below
termination_by sizeOf t

/-- The places of a tree are in order if and only if no node of it binds values across. -/
theorem Tree.inOrder_skeleton_iff (d : Dialect) (t : Tree) :
    (t.skeleton d).InOrder ↔ t.Every fun n => ¬n.bindsAcross d := by
  -- no other dialect crosses a pair
  by_cases hd : d = .postgres
  · subst hd
    induction t using Tree.induction with
    | step t ih =>
      have below : (Fragment.concat ((t.written .postgres).map (Tree.skeleton .postgres))).InOrder ↔
          ∀ b ∈ t.branches, b.Every fun n => ¬n.bindsAcross .postgres := by
        rw [Fragment.inOrder_concat, Tree.written_eq_branches (by decide), List.forall_mem_map]
        exact forall₂_congr ih
      rw [Tree.skeleton_eq, Tree.every_iff, ← below]
      exact inOrder_frame_iff t
  · refine iff_of_true (Tree.inOrder_skeleton_of_ne hd t) fun n _ (h : n.bindsAcross d) => ?_
    unfold Tree.bindsAcross at h
    split at h
    · exact hd h.1
    · exact h

/-! ## The guarantee -/

/-- **When numbered places follow the text.** The places of a statement without raw fragments are
numbered one after the other, up to the number of its values, if and only if no part of a JSON
document is taken by keys in PostgreSQL while a node of the document binds a value. -/
theorem Statement.placeNumbers_eq_range_iff (style : Style) (s : Statement)
    (hraw : s.Every fun t => t.isRaw = false) {sql : String} {values : List Value}
    (h : s.toText style = .ok (sql, values)) :
    placeNumbers style.dialect sql = List.range' 1 values.length ↔
      s.Every fun t => ¬t.bindsAcross style.dialect := by
  obtain ⟨f, hf, rfl, rfl⟩ := Statement.toText_eq_ok h
  have hfits := Statement.fits_of_render hraw hf
  rw [placeNumbers, tokensOf_spell hfits, Fragment.filterMap_tokens, ← Fragment.size_eq_length,
    Fragment.numbers_eq_range_iff f 0, ← Fragment.inOrder_skeleton, hfits.binds, skeletons,
    Fragment.inOrder_concat, List.forall_mem_map]
  have each : (∀ t ∈ s.trees style.dialect, (t.skeleton style.dialect).InOrder) ↔
      ∀ t ∈ s.trees style.dialect, t.Every fun n => ¬n.bindsAcross style.dialect :=
    forall₂_congr fun t _ => Tree.inOrder_skeleton_iff _ t
  rw [each]
  exact forall_congr' fun t => by rw [(s.trees_perm style.dialect).mem_iff]

/-- A part of a JSON document that is bound itself. -/
def partOfBound : Statement :=
  .select ⟨[⟨.jsonExtract (.literal (.text "\x7b\x7d")) (.keys "a" []) (.switch false), .absent⟩],
    none, [], none, [], none, [], none, none, .switch false⟩

theorem partOfBound_toText : partOfBound.toText (.plain .postgres) =
    .ok ("SELECT ($2#>ARRAY[$1]::text[])", [.text "a", .text "\x7b\x7d"]) :=
  eq_ok_of_toOption (by decide +kernel) rfl

theorem partOfBound_notRaw : partOfBound.Every fun t => t.isRaw = false := by
  have literal : (Tree.expr (.literal (.text "\x7b\x7d"))).Every fun t => t.isRaw = false :=
    Tree.every_iff.mpr ⟨rfl, nofun⟩
  have part : (Tree.expr (.jsonExtract (.literal (.text "\x7b\x7d")) (.keys "a" [])
      (.switch false))).Every fun t => t.isRaw = false :=
    Tree.every_iff.mpr ⟨rfl, List.forall_mem_singleton.mpr literal⟩
  exact List.forall_mem_singleton.mpr
    (Tree.every_iff.mpr ⟨rfl, List.forall_mem_singleton.mpr part⟩)

/-- The keys have the first number and stand behind the document. -/
theorem placeNumbers_partOfBound :
    placeNumbers .postgres "SELECT ($2#>ARRAY[$1]::text[])" ≠ List.range' 1 2 ∧
      ¬partOfBound.Every fun t => ¬t.bindsAcross .postgres := by
  have h := Statement.placeNumbers_eq_range_iff (.plain .postgres) partOfBound partOfBound_notRaw
    partOfBound_toText
  have hne : placeNumbers .postgres "SELECT ($2#>ARRAY[$1]::text[])" ≠ List.range' 1 2 := by
    decide +kernel
  exact ⟨hne, fun he => hne (h.mpr he)⟩

end SqlScribe
