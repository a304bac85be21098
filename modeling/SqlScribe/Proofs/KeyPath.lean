import SqlScribe.JsonPath
import SqlScribe.Proofs.BareName
import SqlScribe.Proofs.WrittenNumber

/-!
# Key paths that are read back

A written path is a dollar sign with steps behind it. `KeyStep` is the grammar of a step, with the
key that the step stands for: a numeral between brackets, a word behind a point, or a text between
double quotes in which the backslash and the double quote are behind a backslash. Behind a step
nothing stands but the begin of another, which none of them could hold, so a text is a path in one
way at most (`KeyStep.unique`).

The tests for numerals and words let one line break pass at the end of a key (`dropFinalBreak`). A
key that is a numeral or a word but for such a break is written in a form that cannot hold it, and
what is written then is no path at all. All other keys are read back.
-/

namespace SqlScribe

/-! ## The grammar -/

/-- What is written between double quotes, and the text that it stands for. -/
inductive Escaped : (written text : List Char) → Prop
  | nil : Escaped [] []
  | plain {c written text} : c ≠ '\\' → c ≠ '"' → Escaped written text →
      Escaped (c :: written) (c :: text)
  | escape {c written text} : c = '\\' ∨ c = '"' → Escaped written text →
      Escaped ('\\' :: c :: written) (c :: text)

/-- A numeral: digits, and at least one. -/
def IsNumeral (cs : List Char) : Prop := cs ≠ [] ∧ ∀ c ∈ cs, Text.isDigit c = true

/-- A step of a path, and the key that it stands for. -/
inductive KeyStep : List Char → String → Prop
  | index {digits} : IsNumeral digits → KeyStep ('[' :: (digits ++ [']'])) (String.ofList digits)
  | member {word} : IsWord word → KeyStep ('.' :: word) (String.ofList word)
  | quoted {written text} : Escaped written text →
      KeyStep ('.' :: '"' :: (written ++ ['"'])) (String.ofList text)

/-- Steps, and the keys that they stand for. -/
inductive KeySteps : List Char → List String → Prop
  | nil : KeySteps [] []
  | cons {cs rest key keys} : KeyStep cs key → KeySteps rest keys →
      KeySteps (cs ++ rest) (key :: keys)

/-- Whether a text is a path, and stands for keys. -/
def Addresses (path : String) (keys : List String) : Prop :=
  ∃ cs, path.toList = '$' :: cs ∧ KeySteps cs keys

/-! ## One way to read -/

/-- Whether characters are none, or begin like a step. -/
def Opens (cs : List Char) : Prop := ∀ c, cs.head? = some c → c = '.' ∨ c = '['

variable {cs rest rest' : List Char} {key key' : String} {keys : List String}

/-- A quoted text ends at the first quote that is not escaped. -/
theorem Escaped.unique {written written' text text' : List Char} (h : Escaped written text)
    (h' : Escaped written' text') (heq : written ++ '"' :: rest = written' ++ '"' :: rest') :
    written = written' ∧ text = text' ∧ rest = rest' := by
  -- on the first reading: the next character says how the second goes on
  induction h generalizing written' text' with
  | nil =>
    cases h' with
    | nil => exact ⟨rfl, rfl, (List.cons.inj heq).2⟩
    | plain _ hquote _ => exact absurd (List.cons.inj heq).1.symm hquote
    | escape _ _ => exact nomatch (List.cons.inj heq).1
  | plain hback hquote _ ih =>
    cases h' with
    | nil => exact absurd (List.cons.inj heq).1 hquote
    | plain _ _ h' =>
      obtain ⟨rfl, hbehind⟩ := List.cons.inj heq
      obtain ⟨rfl, rfl, rfl⟩ := ih h' hbehind
      exact ⟨rfl, rfl, rfl⟩
    | escape _ _ => exact absurd (List.cons.inj heq).1 hback
  | escape _ _ ih =>
    cases h' with
    | nil => exact nomatch (List.cons.inj heq).1
    | plain hback _ _ => exact absurd (List.cons.inj heq).1.symm hback
    | escape _ h' =>
      obtain ⟨rfl, hbehind⟩ := List.cons.inj (List.cons.inj heq).2
      obtain ⟨rfl, rfl, rfl⟩ := ih h' hbehind
      exact ⟨rfl, rfl, rfl⟩

theorem Opens.stops (h : Opens cs) : Text.Stops isWordChar cs := by
  intro c hc
  rcases h c hc with rfl | rfl <;> decide

/-- A word does not begin with a quote. -/
theorem IsWord.ne_quote {word : List Char} (h : IsWord word) (cs rest : List Char) :
    word ++ rest ≠ '"' :: cs := by
  cases word with
  | nil => cases h
  | cons c word =>
    intro heq
    cases (List.cons.inj heq).1
    exact absurd h.1 (by decide)

theorem KeyStep.opens (h : KeyStep cs key) (rest : List Char) : Opens (cs ++ rest) := by
  rintro c hc
  cases h <;> cases hc <;> simp

theorem KeySteps.opens (h : KeySteps cs keys) : Opens cs := by
  cases h with
  | nil => exact nofun
  | cons hstep _ => exact hstep.opens _

/-- **Nothing that a step could hold stands behind it, so it can be read in one way only.** -/
theorem KeyStep.unique {cs' : List Char} (h : KeyStep cs key) (h' : KeyStep cs' key')
    (hrest : Opens rest) (hrest' : Opens rest') (heq : cs ++ rest = cs' ++ rest') :
    key = key' ∧ rest = rest' := by
  -- a bracket, a letter or a quote after the dot says which form a step has
  cases h with
  | index hdigits =>
    cases h' with
    | index hdigits' =>
      rw [List.cons_append, List.cons_append, List.append_assoc, List.append_assoc] at heq
      obtain ⟨rfl, hbehind⟩ := Text.run_unique hdigits.2 hdigits'.2 (Text.stops_cons (by decide))
        (Text.stops_cons (by decide)) (List.cons.inj heq).2
      exact ⟨rfl, (List.cons.inj hbehind).2⟩
    | member _ | quoted _ => exact nomatch (List.cons.inj heq).1
  | member hword =>
    cases h' with
    | index _ => exact nomatch (List.cons.inj heq).1
    | member hword' =>
      obtain ⟨rfl, rfl⟩ := Text.run_unique (fun _ => hword.isWordChar) (fun _ => hword'.isWordChar)
        hrest.stops hrest'.stops (List.cons.inj heq).2
      exact ⟨rfl, rfl⟩
    | quoted _ => exact absurd (List.cons.inj heq).2 (hword.ne_quote _ _)
  -- a word begins with no quote, so the forms with a dot differ too
  | quoted htext =>
    cases h' with
    | index _ => exact nomatch (List.cons.inj heq).1
    | member hword => exact absurd (List.cons.inj heq).2.symm (hword.ne_quote _ _)
    | quoted htext' =>
      simp only [List.cons_append, List.append_assoc, List.cons.injEq, true_and] at heq
      obtain ⟨-, rfl, rfl⟩ := htext.unique htext' heq
      exact ⟨rfl, rfl⟩

theorem KeyStep.steps_iff (h : KeyStep cs key) (hrest : Opens rest) :
    KeySteps (cs ++ rest) keys ↔ ∃ others, keys = key :: others ∧ KeySteps rest others := by
  constructor
  · intro hsteps
    generalize hall : cs ++ rest = all at hsteps
    cases hsteps with
    | nil => cases h <;> cases hall
    | cons h' hrest' =>
      obtain ⟨rfl, rfl⟩ := h.unique h' hrest hrest'.opens hall
      exact ⟨_, rfl, hrest'⟩
  · rintro ⟨others, rfl, hothers⟩
    exact .cons h hothers

/-! ## The forms of keys -/

/-- Whether a key is a numeral or a word but for a line break at its end. -/
def EndsInBreak (key : String) : Prop :=
  ∃ cs, (IsNumeral cs ∨ IsWord cs) ∧ key.toList = cs ++ ['\n']

/-- The keys that pass as numerals: the numerals, and the numerals with a line break. -/
theorem isIndex_iff_exists :
    isIndex cs = true ↔ ∃ digits, IsNumeral digits ∧ (cs = digits ∨ cs = digits ++ ['\n']) := by
  have passes : isIndex cs = true ↔ IsNumeral (dropFinalBreak cs) := by
    unfold isIndex IsNumeral
    split
    next h => simp [h]
    next h =>
      rw [List.all_eq_true]
      exact (and_iff_right h).symm
  -- a numeral does not end in a break, so there is none to drop
  have noBreak : ∀ {digits : List Char}, IsNumeral digits → digits.getLast? ≠ some '\n' := by
    intro digits h hlast
    exact absurd (h.2 _ (List.mem_of_getLast? hlast)) (by decide)
  rw [passes]
  constructor
  · intro h
    refine ⟨_, h, ?_⟩
    unfold dropFinalBreak
    split
    next hlast =>
      obtain ⟨digits, rfl⟩ := List.getLast?_eq_some_iff.mp hlast
      exact .inr (by rw [List.dropLast_concat])
    next => exact .inl rfl
  · rintro ⟨digits, hdigits, rfl | rfl⟩
    · rwa [dropFinalBreak, if_neg (noBreak hdigits)]
    · rwa [dropFinalBreak, if_pos List.getLast?_concat, List.dropLast_concat]

theorem escaped_escapeChar (cs : List Char) : Escaped (cs.flatMap JsonPath.escapeChar) cs := by
  induction cs with
  | nil => exact .nil
  | cons c rest ih =>
    rw [List.flatMap_cons, JsonPath.escapeChar]
    simp only [Bool.or_eq_true, decide_eq_true_eq]
    split
    next h => exact .escape h ih
    next h => exact .plain (fun hc => h (.inl hc)) (fun hc => h (.inr hc)) ih

/-- **A key is written as a step that stands for it**, unless it is a numeral or a word but for a
line break. -/
theorem keyStep_step (h : ¬EndsInBreak key) : KeyStep (JsonPath.step key) key := by
  have noBreak : ∀ {word : List Char}, IsNumeral word ∨ IsWord word →
      key.toList ≠ word ++ ['\n'] := fun hword hkey => h ⟨_, hword, hkey⟩
  have self : String.ofList key.toList = key := String.ofList_toList
  unfold JsonPath.step
  dsimp only
  -- a key is written as a number, as a word, or in quotes
  split
  next hindex =>
    obtain ⟨digits, hdigits, hkey | hkey⟩ := isIndex_iff_exists.mp hindex
    · have step := KeyStep.index hdigits
      rwa [← hkey, self] at step
    · exact absurd hkey (noBreak (.inl hdigits))
  next =>
    split
    next hplain =>
      obtain ⟨word, hword, hkey | hkey⟩ := isPlainWord_iff_exists.mp hplain
      · have step := KeyStep.member hword
        rwa [← hkey, self] at step
      · exact absurd hkey (noBreak (.inr hword))
    next =>
      have step := KeyStep.quoted (escaped_escapeChar key.toList)
      rwa [self] at step

/-! ### Line breaks -/

theorem not_keySteps_numeral (h : IsNumeral cs) : ¬KeySteps ('[' :: (cs ++ '\n' :: rest)) keys := by
  intro hsteps
  generalize hall : '[' :: (cs ++ '\n' :: rest) = all at hsteps
  cases hsteps with
  | nil => cases hall
  | cons hstep _ =>
    cases hstep with
    | index hdigits =>
      rw [List.cons_append, List.append_assoc] at hall
      obtain ⟨-, hbehind⟩ := Text.run_unique h.2 hdigits.2 (Text.stops_cons (by decide))
        (Text.stops_cons (by decide)) (List.cons.inj hall).2
      exact nomatch (List.cons.inj hbehind).1
    | member _ | quoted _ => exact nomatch (List.cons.inj hall).1

theorem not_keySteps_word (h : IsWord cs) : ¬KeySteps ('.' :: (cs ++ '\n' :: rest)) keys := by
  intro hsteps
  generalize hall : '.' :: (cs ++ '\n' :: rest) = all at hsteps
  cases hsteps with
  | nil => cases hall
  | cons hstep hrest =>
    cases hstep with
    | index _ => exact nomatch (List.cons.inj hall).1
    | member hword =>
      obtain ⟨-, rfl⟩ := Text.run_unique (fun _ => h.isWordChar) (fun _ => hword.isWordChar)
        (Text.stops_cons not_isWordChar_break) hrest.opens.stops (List.cons.inj hall).2
      exact absurd (hrest.opens '\n' rfl) (by decide)
    | quoted _ => exact absurd (List.cons.inj hall).2 (h.ne_quote _ _)

theorem not_isDigit_of_isWordStart {c : Char} (h : isWordStart c = true) :
    Text.isDigit c = false := by
  have letter : (decide (c.val ≥ 'A'.val ∧ c.val ≤ 'Z'.val) ||
      (decide (c.val ≥ 'a'.val) && decide (c.val ≤ 'z'.val)) || decide (c = '_')) = true := h
  simp only [Bool.or_eq_true, Bool.and_eq_true, decide_eq_true_eq, ge_iff_le,
    UInt32.le_iff_toNat_le] at letter
  simp only [Text.isDigit, Bool.and_eq_false_iff, decide_eq_false_iff_not, Char.le_def,
    UInt32.le_iff_toNat_le]
  rcases letter with (capital | small) | rfl
  · exact .inr (by simp at capital ⊢; omega)
  · exact .inr (by simp at small ⊢; omega)
  · decide

/-- A word with a line break behind it does not pass as a numeral. -/
theorem not_isIndex_of_isWord (h : IsWord cs) : isIndex (cs ++ ['\n']) = false := by
  rw [Bool.eq_false_iff, Ne, isIndex_iff_exists]
  rintro ⟨digits, hdigits, hcs⟩
  cases cs with
  | nil => cases h
  | cons c word =>
    have digit : c ∈ digits := by
      rcases hcs with rfl | hcs
      · exact List.mem_cons_self
      · exact List.append_cancel_right hcs ▸ List.mem_cons_self
    exact absurd (hdigits.2 c digit) (by simp [not_isDigit_of_isWordStart h.1])

/-- **What is written for a numeral or a word with a line break begins no path.** -/
theorem not_keySteps_of_endsInBreak (h : EndsInBreak key) :
    ¬KeySteps (JsonPath.step key ++ rest) keys := by
  obtain ⟨cs, hcs, hkey⟩ := h
  unfold JsonPath.step
  rw [hkey]
  rcases hcs with hdigits | hword
  · rw [if_pos (isIndex_iff_exists.mpr ⟨cs, hdigits, .inr rfl⟩)]
    simpa using not_keySteps_numeral hdigits
  · rw [if_neg (by rw [not_isIndex_of_isWord hword]; exact Bool.false_ne_true),
      if_pos (isPlainWord_iff_exists.mpr ⟨cs, hword, .inr rfl⟩)]
    simpa using not_keySteps_word hword

/-! ## Paths -/

theorem opens_step (key : String) (rest : List Char) : Opens (JsonPath.step key ++ rest) := by
  rintro c hc
  unfold JsonPath.step at hc
  dsimp only at hc
  split at hc
  · cases hc
    exact .inr rfl
  · split at hc
    all_goals
      cases hc
      exact .inl rfl

theorem opens_steps (keys : List String) : Opens (keys.flatMap JsonPath.step) := by
  cases keys with
  | nil => exact nofun
  | cons key rest => exact opens_step key _

theorem keySteps_iff {given : List String} :
    KeySteps (given.flatMap JsonPath.step) keys ↔
      keys = given ∧ ∀ key ∈ given, ¬EndsInBreak key := by
  -- on the keys that are written; the first step read is that of the first key
  induction given generalizing keys with
  | nil =>
    constructor
    · intro h
      generalize hall : ([] : List String).flatMap JsonPath.step = all at h
      cases h with
      | nil => exact ⟨rfl, nofun⟩
      | cons hstep _ => cases hstep <;> cases hall
    · rintro ⟨rfl, -⟩
      exact .nil
  | cons key rest ih =>
    rw [List.flatMap_cons, List.forall_mem_cons]
    by_cases h : EndsInBreak key
    · exact iff_of_false (not_keySteps_of_endsInBreak h) fun hall => hall.2.1 h
    · rw [(keyStep_step h).steps_iff (opens_steps rest)]
      constructor
      · rintro ⟨others, rfl, hothers⟩
        obtain ⟨rfl, hrest⟩ := ih.mp hothers
        exact ⟨rfl, h, hrest⟩
      · rintro ⟨rfl, -, hrest⟩
        exact ⟨rest, rfl, ih.mpr ⟨rfl, hrest⟩⟩

/-- **A written key path stands for its keys and for no others, unless one of them is a numeral or a
word but for a line break at its end.** With such a key it is no path. -/
theorem JsonPath.written_addresses_iff (first : String) (rest keys : List String) :
    Addresses (JsonPath.keys first rest).written keys ↔
      keys = first :: rest ∧ ∀ key ∈ first :: rest, ¬EndsInBreak key := by
  rw [← keySteps_iff]
  have path : (JsonPath.keys first rest).written.toList =
      '$' :: (first :: rest).flatMap JsonPath.step := String.toList_ofList
  constructor
  · rintro ⟨cs, hcs, hsteps⟩
    rw [path] at hcs
    cases hcs
    exact hsteps
  · exact fun hsteps => ⟨_, path, hsteps⟩

/-- The break is written behind the point, where no quotes are, while a blank has quotes. -/
example : JsonPath.ofKeys ["a\n", "b "] = "$.a\n.\"b \"" := by decide +kernel

end SqlScribe
