import SqlScribe.FunctionName
import SqlScribe.Proofs.Place

/-!
# Reading a fragment back

A written fragment is read as the tokens that it was written from: its texts and its names as
characters, and one place for each value. That holds of fragments behind any others, provided that
the reader is outside of quotes where the fragment begins and that what follows does not continue
its last piece. A digit would continue the number of a place, and a closing quote would reopen a
quoted name, so a fragment that ends in either is closed by the text that follows.

`Fragment.ReadsBefore` is the invariant: it says what is read in front of what, and carries the
number of the values so far. A place without a number is counted by the reader, so there the count
of the reader has to be the count of the values. The lemmas say for each way of putting fragments
together how the invariant of the whole follows from those of the parts.
-/

namespace SqlScribe

/-! ## Texts -/

/-- Whether a character means nothing to the reader of any dialect, outside of quotes. -/
def isPlainChar (c : Char) : Bool :=
  !(['\'', '"', '\x60', '[', '?', '$', '@'].contains c)

/-- Whether a text means nothing to the reader of any dialect. -/
def isPlainText (s : String) : Bool := s.toList.all isPlainChar

/-- Whether a text may follow anything in a dialect: it means nothing to the reader, and it does not
begin with a digit or a closing quote. -/
def Dialect.isLink (d : Dialect) (s : String) : Bool :=
  match s.toList with
  | [] => false
  | c :: cs => !c.isDigit && c ≠ d.closeQuote && (c :: cs).all d.isCalm

/-- Whether a text may follow anything in every dialect. -/
def isLink (s : String) : Bool :=
  match s.toList with
  | [] => false
  | c :: _ => !c.isDigit && c ≠ ']' && isPlainText s

/-- Whether a text does not continue what stands before it. -/
def Dialect.Separates (d : Dialect) (rest : List Char) : Prop :=
  ∀ c, rest.head? = some c → c.isDigit = false ∧ c ≠ d.closeQuote ∧ c ≠ '\''

theorem isCalm_of_isPlainChar (d : Dialect) {c : Char} (h : isPlainChar c = true) :
    d.isCalm c = true := by
  simp only [isPlainChar, List.contains_eq_mem, List.mem_cons, List.not_mem_nil, or_false,
    Bool.not_eq_true', decide_eq_false_iff_not, not_or] at h
  obtain ⟨h₁, h₂, h₃, h₄, h₅, h₆, h₇⟩ := h
  cases d <;> simp [Dialect.isCalm, Dialect.marks, Dialect.openQuote, *]

theorem all_isCalm_of_isPlainText (d : Dialect) {s : String} (h : isPlainText s = true) :
    s.toList.all d.isCalm = true :=
  List.all_eq_true.mpr fun c hc => isCalm_of_isPlainChar d (List.all_eq_true.mp h c hc)

theorem Dialect.isLink_of_isLink (d : Dialect) {s : String} (h : SqlScribe.isLink s = true) :
    d.isLink s = true := by
  unfold SqlScribe.isLink at h
  unfold Dialect.isLink
  cases hs : s.toList with
  | nil => simp [hs] at h
  | cons c cs =>
    simp only [hs, Bool.and_eq_true, Bool.not_eq_true', decide_eq_true_eq] at h ⊢
    obtain ⟨⟨hdigit, hclose⟩, hplain⟩ := h
    have hc : isPlainChar c = true := List.all_eq_true.mp hplain c (by simp [hs])
    refine ⟨⟨hdigit, ?_⟩, hs ▸ all_isCalm_of_isPlainText d hplain⟩
    rintro rfl
    cases d <;> first | exact hclose rfl | exact absurd hc (by decide)

theorem isPlainText_append {s t : String} (hs : isPlainText s = true) (ht : isPlainText t = true) :
    isPlainText (s ++ t) = true := by
  simp only [isPlainText, String.toList_append, List.all_append, Bool.and_eq_true] at *
  exact ⟨hs, ht⟩

theorem Dialect.isCalm_of_isLink {d : Dialect} {s : String} (h : d.isLink s = true) :
    s.toList.all d.isCalm = true := by
  unfold Dialect.isLink at h
  split at h
  · cases h
  next c cs hs => exact hs ▸ (Bool.and_eq_true _ _ ▸ h).2

theorem Dialect.separates_of_isLink {d : Dialect} {s : String} (h : d.isLink s = true)
    (rest : List Char) : d.Separates (s.toList ++ rest) := by
  have hcalm := isCalm_of_isLink h
  unfold Dialect.isLink at h
  split at h
  · cases h
  next c cs hs =>
    simp only [Bool.and_eq_true, Bool.not_eq_true', decide_eq_true_eq] at h
    rintro c' hc'
    obtain rfl : c = c' := by simpa [hs] using hc'
    refine ⟨h.1.1, h.1.2, ?_⟩
    rintro rfl
    simp [hs, isCalm] at hcalm

theorem separates_nil (d : Dialect) : d.Separates [] := by
  rintro c ⟨⟩

/-! ## Names without quotes -/

theorem isPlainChar_of_isWordChar {c : Char} (h : isWordChar c = true) : isPlainChar c = true := by
  refine Classical.not_not.mp fun hn => ?_
  simp only [isPlainChar, List.contains_eq_mem, List.mem_cons, List.not_mem_nil, or_false,
    Bool.not_eq_true', decide_eq_false_iff_not, Classical.not_not] at hn
  rcases hn with rfl | rfl | rfl | rfl | rfl | rfl | rfl <;> exact absurd h (by decide)

theorem isWordChar_of_isWordStart {c : Char} (h : isWordStart c = true) : isWordChar c = true := by
  simp only [isWordStart, isWordChar, Char.isAlphanum, Bool.or_eq_true] at h ⊢
  exact h.imp_left .inl

/-- What is dropped from the end of a text is at most a line break. -/
theorem mem_dropFinalBreak {cs : List Char} {c : Char} (h : c ∈ cs) :
    c ∈ dropFinalBreak cs ∨ c = '\n' := by
  unfold dropFinalBreak
  split
  next hlast =>
    obtain ⟨init, rfl⟩ := List.getLast?_eq_some_iff.mp hlast
    rw [List.dropLast_concat]
    exact (List.mem_append.mp h).imp_right List.mem_singleton.mp
  · exact .inl h

/-- A name that is written without quotes means nothing to the reader. -/
theorem isPlainText_of_isPlainWord {s : String} (h : isPlainWord s.toList = true) :
    isPlainText s = true := by
  refine List.all_eq_true.mpr fun c hc => ?_
  rcases mem_dropFinalBreak hc with hc | rfl
  · unfold isPlainWord at h
    split at h
    · cases h
    next c' rest hcs =>
      rw [Bool.and_eq_true, List.all_eq_true] at h
      rw [hcs, List.mem_cons] at hc
      rcases hc with rfl | hc
      · exact isPlainChar_of_isWordChar (isWordChar_of_isWordStart h.1)
      · exact isPlainChar_of_isWordChar (h.2 c hc)
  · decide

theorem isPlainChar_toUpper {c : Char} (h : isPlainChar c = true) :
    isPlainChar c.toUpper = true := by
  -- a letter becomes a capital, and no capital is among the marks
  have capital : ∀ c : Char, 'A'.val ≤ c.val → c.val ≤ 'Z'.val → isPlainChar c = true := by
    intro c ha hz
    refine Classical.not_not.mp fun hn => ?_
    simp only [isPlainChar, List.contains_eq_mem, List.mem_cons, List.not_mem_nil, or_false,
      Bool.not_eq_true', decide_eq_false_iff_not, Classical.not_not] at hn
    rcases hn with rfl | rfl | rfl | rfl | rfl | rfl | rfl <;> revert ha hz <;> decide
  unfold Char.toUpper
  split
  next hc => exact capital _ (by grind) (by grind)
  · exact h

/-- The characters of a text are those of its parts, and points. -/
theorem mem_splitPoints {cs : List Char} {c : Char} (h : c ∈ cs) :
    (∃ part ∈ splitPoints cs, c ∈ part) ∨ c = '.' := by
  induction cs using splitPoints.induct with
  -- nothing left, a dot, the last part, and a part with others behind it
  | case1 => cases h
  | case2 rest ih =>
    rcases List.mem_cons.mp h with rfl | h
    · exact .inr rfl
    · refine (ih h).imp_left ?_
      rintro ⟨part, hp, hc⟩
      exact ⟨part, by simp [splitPoints, hp], hc⟩
  | case3 c' rest hne hs ih =>
    simp only [splitPoints, hs]
    rw [hs] at ih
    rcases List.mem_cons.mp h with rfl | h
    · exact .inl ⟨_, List.mem_cons_self, List.mem_cons_self⟩
    · rcases ih h with ⟨_, hp, _⟩ | rfl
      · cases hp
      · exact .inr rfl
  | case4 c' rest hne part parts hs ih =>
    simp only [splitPoints, hs]
    rw [hs] at ih
    rcases List.mem_cons.mp h with rfl | h
    · exact .inl ⟨_, List.mem_cons_self, List.mem_cons_self⟩
    · refine (ih h).imp_left ?_
      rintro ⟨p, hp, hc⟩
      rcases List.mem_cons.mp hp with rfl | hp
      · exact ⟨_, List.mem_cons_self, List.mem_cons_of_mem _ hc⟩
      · exact ⟨p, List.mem_cons_of_mem _ hp, hc⟩

/-- A character of the name of a function is in one of its words, or it is a point or the line break
at the end. -/
theorem FunctionName.mem_text {f : FunctionName} {c : Char} (hc : c ∈ f.text.toList) :
    isWordChar c = true ∨ c = '.' ∨ c = '\n' := by
  rcases mem_dropFinalBreak hc with hc | rfl
  · rcases mem_splitPoints hc with ⟨part, hp, hc⟩ | rfl
    · have hw := List.all_eq_true.mp f.valid part hp
      unfold isWord at hw
      split at hw
      · cases hc
      · rw [Bool.and_eq_true, List.all_eq_true] at hw
        rcases List.mem_cons.mp hc with rfl | hc
        · exact .inl (isWordChar_of_isWordStart hw.1)
        · exact .inl (hw.2 c hc)
    · exact .inr (.inl rfl)
  · exact .inr (.inr rfl)

/-- The name of a function means nothing to the reader. -/
theorem isPlainText_capitals (f : FunctionName) : isPlainText f.capitals = true := by
  refine List.all_eq_true.mpr fun c' hc' => ?_
  obtain ⟨c, hc, rfl⟩ : ∃ c ∈ f.text.toList, c.toUpper = c' := by
    simpa [FunctionName.capitals] using hc'
  refine isPlainChar_toUpper ?_
  rcases f.mem_text hc with hword | rfl | rfl
  · exact isPlainChar_of_isWordChar hword
  · decide
  · decide

/-- A number means nothing to the reader. -/
theorem isPlainText_natText (n : Nat) : isPlainText (Text.natText n) = true := by
  refine List.all_eq_true.mpr fun c hc => isPlainChar_of_isWordChar ?_
  have hdigit := Nat.isDigit_of_mem_toDigits (by decide) (by decide)
    (show c ∈ Nat.toDigits 10 n by simpa [Text.natText] using hc)
  simp [isWordChar, Char.isAlphanum, hdigit]

example : isPlainText " @> " = false := by decide
example : isLink " NOT IN " = true := by decide

/-! ## Fragments -/

namespace Fragment

/-- The tokens of a fragment behind `n` other values. -/
def tokens (style : Style) (n : Nat) : Fragment → List Token
  | empty => []
  | text s rest => s.toList.map .char ++ rest.tokens style n
  | name a rest => (style.identifier a).toList.map .char ++ rest.tokens style n
  | slot _ rest => .place (n + 1) :: rest.tokens style (n + 1)
  | crossed first second rest =>
    first.tokens style (n + second.size) ++ second.tokens style n ++
      rest.tokens style (n + (second.size + first.size))

/-- The text of a fragment behind `n` other values, with places for its own. -/
def spellFrom (style : Style) (n : Nat) (f : Fragment) : String :=
  f.write style (fun i _ => style.dialect.placeholder (i + 1)) n

theorem tokens_append (style : Style) (n : Nat) (f g : Fragment) :
    (f ++ g).tokens style n = f.tokens style n ++ g.tokens style (n + f.size) := by
  induction f generalizing n with
  | empty => simp [tokens, size]
  | text s rest ih | name a rest ih => simp [tokens, size, ih]
  | slot v rest ih => simp [tokens, size, ih, Nat.add_assoc]
  | crossed a b rest _ _ ih => simp [tokens, size, ih, Nat.add_assoc]

theorem spellFrom_append (style : Style) (n : Nat) (f g : Fragment) :
    (f ++ g).spellFrom style n = f.spellFrom style n ++ g.spellFrom style (n + f.size) :=
  write_append style _ n f g

/-- Whether a fragment is read back in front of every text that `ahead` allows. Where places have
no numbers, the reader has to have seen as many of them as there are values in front. -/
def ReadsBefore (style : Style) (ahead : List Char → Prop) (f : Fragment) : Prop :=
  ∀ (n seen : Nat) (rest : List Char), style.dialect.hasNumbers = true ∨ seen = n → ahead rest →
    scan style.dialect (.outside 0) seen ((f.spellFrom style n).toList ++ rest) =
      f.tokens style n ++ scan style.dialect (.outside 0) (seen + f.size) rest

/-- No demand on what follows. -/
def anything (_ : List Char) : Prop := True

namespace ReadsBefore

variable {style : Style} {ahead ahead' : List Char → Prop} {f g : Fragment}

/-- Two fragments are read one after the other, if the first may stand in front of the second. -/
theorem chain (hf : f.ReadsBefore style ahead) (hg : g.ReadsBefore style ahead')
    (h : ∀ n rest, ahead' rest → ahead ((g.spellFrom style n).toList ++ rest)) :
    (f ++ g).ReadsBefore style ahead' := by
  intro n seen rest hn hr
  have hn' : style.dialect.hasNumbers = true ∨ seen + f.size = n + f.size :=
    hn.imp_right (congrArg (· + f.size))
  rw [spellFrom_append, String.toList_append, List.append_assoc,
    hf n seen _ hn (h _ _ hr), hg _ _ _ hn' hr, tokens_append, size_append]
  simp [Nat.add_assoc]

theorem append (hf : f.ReadsBefore style anything) (hg : g.ReadsBefore style ahead) :
    (f ++ g).ReadsBefore style ahead :=
  hf.chain hg fun _ _ _ => trivial

theorem empty : Fragment.empty.ReadsBefore style ahead := by
  intro n seen rest _ _
  simp [spellFrom, write, tokens, size]

theorem calmText {s : String} (h : s.toList.all style.dialect.isCalm = true) :
    (ofText s).ReadsBefore style ahead := by
  intro n seen rest _ _
  simp [spellFrom, ofText, write, tokens, size, scan_calm h]

/-- A fragment that ends in a name or in a place is closed by a text that does not continue it. -/
theorem link {s : String} (hf : f.ReadsBefore style style.dialect.Separates)
    (h : style.dialect.isLink s = true) : (f ++ ofText s).ReadsBefore style ahead := by
  refine hf.chain (calmText (Dialect.isCalm_of_isLink h)) ?_
  intro n rest _
  have hs : ((ofText s).spellFrom style n).toList = s.toList := by
    simp [spellFrom, ofText, write]
  rw [hs]
  exact Dialect.separates_of_isLink h rest

/-- A literal between single quotes. -/
theorem literalText {s : String} {body : List Char}
    (hs : s.toList = '\'' :: (body ++ ['\''])) (h : '\'' ∉ body) :
    (ofText s).ReadsBefore style style.dialect.Separates := by
  intro n seen rest _ hr
  -- another quote behind the literal would be read as part of it
  have hrest : rest.head? ≠ some '\'' := fun hc => (hr _ hc).2.2 rfl
  have hq := scan_quoted style.dialect '\'' seen body hrest
  rw [doubled_eq_self h] at hq
  have hp : style.dialect.placeAt (seen + 1) ('\'' :: (body ++ '\'' :: rest)) = none :=
    placeAt_eq_none (by cases style.dialect <;> rfl) _ _
  have hr : style.dialect.readerAfter '\'' = .quoted '\'' := by cases style.dialect <;> rfl
  simp [spellFrom, ofText, write, tokens, size, hs, scan, hp, hr, hq]

theorem name (a : String) : (ofName a).ReadsBefore style style.dialect.Separates := by
  intro n seen rest _ hr
  have hw : ((ofName a).spellFrom style n).toList = (style.identifier a).toList := by
    simp [spellFrom, ofName, write]
  have ht : (ofName a).tokens style n = (style.identifier a).toList.map .char := by
    simp [ofName, tokens]
  rw [hw, ht, show (ofName a).size = 0 from rfl]
  unfold Style.identifier
  split
  · -- between quotes the name is read up to its closing quote, which nothing may follow again
    have hrest : rest.head? ≠ some style.dialect.closeQuote := fun hc => (hr _ hc).2.1 rfl
    have hp : ∀ cs, style.dialect.placeAt (seen + 1) (style.dialect.openQuote :: cs) = none :=
      fun cs => placeAt_eq_none (by cases style.dialect <;> rfl) _ _
    have hq := scan_quoted style.dialect _ seen a.toList hrest
    simp [toList_quote, scan, hp, Dialect.readerAfter, hq]
  next hb =>
    -- a name without quotes is an identifier, which has no marks
    have hbare : isPlainWord a.toList = true := by
      simp only [Style.quotes, Dialect.isBare, Bool.or_eq_true, Bool.not_eq_true', not_or,
        Bool.not_eq_false, Bool.and_eq_true] at hb
      exact hb.2.1.1
    rw [scan_calm (all_isCalm_of_isPlainText _ (isPlainText_of_isPlainWord hbare))]
    rfl

/-- A place is read with the number of its value, unless a digit follows. -/
theorem slot (v : Value) : (bound v).ReadsBefore style style.dialect.Separates := by
  intro n seen rest hn hr
  have hdigit : ∀ c, rest.head? = some c → c.isDigit = false := fun c hc => (hr c hc).1
  have hw : (bound v).spellFrom style n = style.dialect.placeholder (n + 1) := by
    simp [spellFrom, bound, write]
  have ht : (bound v).tokens style n = [.place (n + 1)] := rfl
  have hnum := numberAt_toDigits (n + 1) hdigit
  have hskip := scan_skip style.dialect (seen + 1) (Nat.toDigits 10 (n + 1)) rest
  have hint : Text.intText ((n : Int) + 1) = Text.natText (n + 1) := rfl
  rw [hw, ht, show (bound v).size = 1 from rfl]
  cases hd : style.dialect with
  | sqlite | mysql =>
    -- the place has no number, so the reader must have counted as many places as there are values
    rw [hd] at hn
    obtain rfl : seen = n := hn.resolve_left (by decide)
    simp [Dialect.placeholder, scan, Dialect.placeAt]
  | postgres =>
    rw [hd] at hskip
    simp [Dialect.placeholder, hint, Text.natText, scan, Dialect.placeAt, hnum, hskip]
  | mssql =>
    rw [hd] at hskip
    simp [Dialect.placeholder, hint, Text.natText, scan, Dialect.placeAt, hnum, hskip]

/-- A crossed pair is read where places have numbers, which tell the order of binding. -/
theorem cross (hd : style.dialect.hasNumbers = true) (hf : f.ReadsBefore style anything)
    (hg : g.ReadsBefore style ahead) : (Fragment.cross f g).ReadsBefore style ahead := by
  intro n seen rest _ hr
  have hw : (Fragment.cross f g).spellFrom style n =
      f.spellFrom style (n + g.size) ++ g.spellFrom style n := by
    simp [Fragment.cross, spellFrom, write]
  have hs : (Fragment.cross f g).size = g.size + f.size := by simp [Fragment.cross, size]
  rw [hw, hs, String.toList_append, List.append_assoc, hf _ _ _ (.inl hd) trivial,
    hg _ _ _ (.inl hd) hr]
  simp [Fragment.cross, tokens, Nat.add_comm, Nat.add_assoc]

end ReadsBefore

end Fragment

end SqlScribe
