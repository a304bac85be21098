import Mathlib.Data.List.TakeWhile
import SqlScribe.Proofs.ProfileFlaw

/-!
# Whose name for a dialect counts

A dialect may be named at five places: by the caller, by two variables, by the active profile and,
where nobody else has named one, by the library itself. The first place with a name that is not
empty decides (`firstNamed`). The name is looked up without blanks around it and in small letters,
and may be another name of a dialect (`Names`).

The profile has a say on quotes only if it has named the dialect, and the switch of the environment
comes before it. Up to the variables nothing depends on the files of profiles, not even what is
told.

A profile that has been loaded always names a dialect: its name is the text of data that are true,
and such a text is not empty (`Data.plain_ne_empty`).
-/

namespace SqlScribe

/-! ## Empty texts -/

/-- The small form of a letter is at least one letter. -/
theorem Text.lowerChar_ne_nil (c : Char) : lowerChar c ≠ [] := by
  unfold lowerChar
  split
  · nofun
  · split <;> nofun

/-- Small letters are no fewer than the letters that were given. -/
theorem Text.lower_ne_empty {s : String} (h : s ≠ "") : lower s ≠ "" := by
  intro hlower
  have none := toList_lower s
  rw [hlower] at none
  cases hs : s.toList with
  | nil => exact h (String.toList_eq_nil_iff.mp hs)
  | cons c rest =>
    rw [hs, lowerAfter] at none
    have here := (List.append_eq_nil_iff.mp none.symm).1
    split at here
    · split at here <;> cases here
    · exact lowerChar_ne_nil c here

/-- Nothing is left of a text if and only if it is blank all over. -/
theorem Text.strip_eq_empty_iff {s : String} :
    Text.strip s = "" ↔ ∀ c ∈ s.toList, Text.isBlank c = true := by
  rw [← String.toList_eq_nil_iff, Text.strip, String.toList_ofList, Text.stripRight,
    List.reverse_eq_nil_iff, List.dropWhile_eq_nil_iff]
  simp only [List.mem_reverse]
  constructor
  · intro h c hc
    rw [← List.takeWhile_append_dropWhile (p := Text.isBlank) (l := s.toList)] at hc
    rcases List.mem_append.mp hc with hc | hc
    · exact List.mem_takeWhile_imp hc
    · exact h c hc
  · exact fun h c hc => h c ((List.dropWhile_sublist _).subset hc)

theorem Text.intText_ne_empty (n : Int) : intText n ≠ "" := by
  cases n <;> simp [intText, natText, Nat.toDigits_ne_nil]

/-- Every number has a text, and so do the infinities and the NaN. -/
theorem Double.text_ne_empty (x : Double) : x.text ≠ "" := by
  have placed (digits : List Char) (point : Int) : placed digits point ≠ [] := by
    unfold Double.placed
    split_ifs <;> simp
  cases x with
  | nan => decide
  | infinity negative => cases negative <;> decide
  | finite negative rank _ =>
    simp only [text, magnitudeText]
    split_ifs <;> simp [placed]

/-- Every decimal has a digit in its text. -/
theorem Decimal.text_ne_empty (d : Decimal) : d.text ≠ "" := by
  have pointed (n : Nat) (point : Int) : pointed (Nat.toDigits 10 n) point ≠ [] := by
    unfold Decimal.pointed
    split_ifs
    · simp
    · have : point.toNat ≠ 0 := by omega
      simp [Nat.toDigits_ne_nil, this]
  simp only [text, magnitudeText]
  split_ifs <;> simp [pointed]

theorem DecimalWord.text_ne_empty (w : DecimalWord) : w.text ≠ "" := by
  cases w with
  | finite d => exact d.text_ne_empty
  | infinity negative => cases negative <;> decide
  | nan negative signaling payload => cases negative <;> cases signaling <;> simp [text]

namespace Data

/-- Bytes are shown with their quotes, even if there are none. -/
theorem bytesDisplay_ne_empty (form : ByteForm) (octets : List UInt8) :
    bytesDisplay form octets ≠ "" := by
  cases form <;> simp [bytesDisplay, Text.quotedBytes]

/-- Every scalar shows something. -/
theorem scalarDisplay_ne_empty (d : Data) : d.scalarDisplay ≠ "" := by
  unfold scalarDisplay
  split
  case h_2 b => cases b <;> decide
  all_goals
    simp [Text.quoted, Text.intText_ne_empty, Double.text_ne_empty, bytesDisplay_ne_empty]

/-- A value is shown with the name of its kind. -/
theorem valueDisplay_ne_empty (v : Value) : valueDisplay v ≠ "" := by
  cases v <;> simp [valueDisplay, recordText]

/-- Whatever data are, they show something. -/
theorem display_ne_empty (d : Data) : d.display ≠ "" := by
  cases d with
  | label inner => simpa [display] using display_ne_empty inner
  | tuple items =>
    simp only [display]
    unfold tupleText
    split <;> simp
  | set members =>
    simp only [display]
    split <;> simp
  | value v => simpa [display] using valueDisplay_ne_empty v
  | _ => simp [display, recordText, scalarDisplay_ne_empty]

/-- Data that are true are not shown as nothing. -/
theorem plain_ne_empty {d : Data} (h : d.isTrue = true) : d.plain ≠ "" := by
  cases d with
  | text s | textLabel s => simpa [isTrue, plain] using h
  | decimal w => simpa [plain] using w.text_ne_empty
  | uuid u => simp [plain, Uuid.text]
  | date d => simp [plain, Date.text]
  | dateTime t => simp [plain, DateTime.textWith]
  | time t => simp [plain, Time.text, Clock.textAt, Clock.text]
  | _ => exact display_ne_empty _

/-- What takes the place of data that are not true is true if it was chosen so. -/
theorem isTrue_orElse {d other : Data} (h : other.isTrue = true) :
    (d.orElse other).isTrue = true := by
  unfold orElse
  split
  next hd => exact hd
  next => exact h

end Data

/-! ## Where a dialect is named -/

/-- What a caller asks for: nothing, a name, or a dialect itself. -/
inductive Wish where
  | nothing
  | named (name : String)
  | dialect (d : Dialect)

/-- The name that a wish comes to; a dialect goes by its own name. -/
def Wish.name? : Wish → Option String
  | .nothing => none
  | .named name => some name
  | .dialect d => some d.name

/-- The places where a dialect is named. -/
inductive NamePlace where
  | caller
  | longVariable
  | shortVariable
  | profile
  | library

namespace NamePlace

/-- The places, the one that counts most first. -/
def inOrder : List NamePlace := [caller, longVariable, shortVariable, profile, library]

/-- Whether a place counts before the profile. -/
def IsBeforeProfile (place : NamePlace) : Prop :=
  place = caller ∨ place = longVariable ∨ place = shortVariable

/-- What stands at a place, given the profile that has been loaded, if any. -/
def name? (env : Environment) (wish : Wish) (loaded : Option Profile) : NamePlace → Option String
  | caller => wish.name?
  | longVariable => env.entries.lookup "QUERYKIT_SQL_DIALECT"
  | shortVariable => env.entries.lookup "QUERYKIT_DIALECT"
  | profile => loaded.map (·.defaultDialect)
  | library => some "sqlite"

end NamePlace

/-- The first place with a name that is not empty, and the name. -/
def firstNamed (env : Environment) (wish : Wish) (loaded : Option Profile) :
    Option (NamePlace × String) :=
  NamePlace.inOrder.findSome? fun place =>
    ((place.name? env wish loaded).filter (· ≠ "")).map fun name => (place, name)

/-- Whether a name is one of a dialect: without blanks around it and in small letters it is the name
of the dialect or another one that is listed for it. -/
def Names (name : String) (d : Dialect) : Prop :=
  Dialect.normalName name = d.name ∨ (Dialect.normalName name, d) ∈ Dialect.otherNames

/-- The variable that says whether all names are quoted. -/
abbrev quoteVariable : String := "QUERYKIT_QUOTE_ALL_IDENTIFIERS"

/-- Whether the switch for quotes, or else something else, says whether all names are quoted. A text
of blanks leaves the switch as if it were not set. -/
inductive SaysQuotes (env : Environment) (otherwise : Bool) : Bool → Prop
  | unset : env.entries.lookup quoteVariable = none → SaysQuotes env otherwise otherwise
  | blank {text} : env.entries.lookup quoteVariable = some text →
      (∀ c ∈ text.toList, Text.isBlank c = true) → SaysQuotes env otherwise otherwise
  | word {text c} : env.entries.lookup quoteVariable = some text → c ∈ text.toList →
      Text.isBlank c = false →
      SaysQuotes env otherwise (Environment.onWords.contains (Text.lower (Text.strip text)))

/-- Whether all names are quoted where the environment says nothing: a profile has its say if it has
named the dialect. -/
def quotedBy : NamePlace → Option Profile → Bool
  | .profile, some p => p.quoteAll
  | _, _ => false

/-- What becomes of a name: the dialect that it names is active, or there is none. -/
def LeadsTo (env : Environment) (name : String) (otherwise : Bool)
    (result : Except ResolutionError Style) : Prop :=
  (∃ d quoteAll, Names name d ∧ SaysQuotes env otherwise quoteAll ∧ result = .ok ⟨d, quoteAll⟩) ∨
    (∀ d, ¬Names name d) ∧ result = .error (.unknownDialect (Dialect.normalName name))

/-- What the files of profiles come to, if there is no file, a profile has been loaded, or it has a
flaw that is foreseen. -/
inductive ComesTo : Except ProfileError Profile → Option Profile → Prop
  | absent : ComesTo (.error .noFile) none
  | loaded (p : Profile) : ComesTo (.ok p) (some p)
  | flawed {e remark} : e.remark? = some remark → ComesTo (.error e) none

/-! ## What decides -/

section

variable {env : Environment} {files : ProfileFiles} {wish : Wish} {loaded : Option Profile}

/-- A dialect is found under its own name. -/
theorem ofName?_eq_some_iff {name : String} {d : Dialect} :
    Dialect.ofName? name = some d ↔ name = d.name := by
  constructor
  · intro h
    have same := List.find?_some h
    exact (beq_iff_eq.mp same).symm
  · rintro rfl
    exact Dialect.ofName?_name d

/-- A spelling is looked up among the other names first, but no dialect has the name of another. -/
theorem ofSpelling?_eq_some_iff {name : String} {d : Dialect} :
    Dialect.ofSpelling? name = some d ↔ Names name d := by
  unfold Dialect.ofSpelling? Names
  generalize Dialect.normalName name = key
  -- the other names are looked up one by one; what is none of them is left to `ofName?`
  by_cases h : ∃ d', (key, d') ∈ Dialect.otherNames
  · obtain ⟨d', h⟩ := h
    simp only [Dialect.otherNames, List.mem_cons, Prod.mk.injEq, List.not_mem_nil, or_false] at h
    rcases h with ⟨rfl, rfl⟩ | ⟨rfl, rfl⟩ | ⟨rfl, rfl⟩ | ⟨rfl, rfl⟩ | ⟨rfl, rfl⟩ | ⟨rfl, rfl⟩ <;>
      cases d <;> decide
  -- a name that is no other name is found in no pair of the table
  · have other : Dialect.otherNames.lookup key = none := by
      rw [List.lookup_eq_none_iff]
      intro p hp
      refine bne_iff_ne.mpr fun hkey => h ⟨p.2, ?_⟩
      rw [hkey]
      exact hp
    rw [other, Option.none_or, ofName?_eq_some_iff]
    exact (or_iff_left fun hd => h ⟨d, hd⟩).symm

/-- The three ways in which the switch of the environment may stand are the three it is read in. -/
theorem saysQuotes_switch (env : Environment) (otherwise : Bool) :
    SaysQuotes env otherwise ((env.switch? quoteVariable).getD otherwise) := by
  unfold Environment.switch?
  cases hset : env.entries.lookup quoteVariable with
  | none => exact .unset hset
  | some text =>
    dsimp only
    cases hword : (Text.strip text).isEmpty with
    | true =>
      rw [if_pos rfl, Option.getD_none]
      exact .blank hset (Text.strip_eq_empty_iff.mp (String.isEmpty_iff.mp hword))
    | false =>
      rw [if_neg Bool.false_ne_true, Option.getD_some]
      -- the word is the text without its margins, so it shows iff there is something between them
      have unblank : ¬∀ c ∈ text.toList, Text.isBlank c = true := by
        intro hblank
        rw [String.isEmpty_iff.mpr (Text.strip_eq_empty_iff.mpr hblank)] at hword
        cases hword
      push Not at unblank
      obtain ⟨c, hc, hblank⟩ := unblank
      exact .word hset hc (Bool.eq_false_iff.mpr hblank)

/-- A name leads to its dialect, and a name of none to the error that says so. -/
theorem leadsTo_ofSpelling (env : Environment) (name : String) (otherwise : Bool) :
    LeadsTo env name otherwise (Style.ofSpelling name
      ((env.switch? quoteVariable).getD otherwise)) := by
  unfold Style.ofSpelling
  cases h : Dialect.ofSpelling? name with
  | some d => exact .inl ⟨d, _, ofSpelling?_eq_some_iff.mp h, saysQuotes_switch env otherwise, rfl⟩
  | none =>
    refine .inr ⟨fun d hd => ?_, rfl⟩
    rw [ofSpelling?_eq_some_iff.mpr hd] at h
    cases h

/-- The name in a profile that has been made of an entry is not empty. -/
theorem defaultDialect_ne_empty_of_entry {name entry : Data} {p : Profile}
    (h : Profile.ofEntry name entry = .ok p) : p.defaultDialect ≠ "" := by
  unfold Profile.ofEntry at h
  split at h
  next options _ =>
    obtain ⟨quoteAll, -, h⟩ := bind_eq_ok.mp h
    cases h
    exact Text.lower_ne_empty (Data.plain_ne_empty (Data.isTrue_orElse rfl))
  next => cases h

/-- A profile that is loaded names a dialect. -/
theorem defaultDialect_ne_empty {p : Profile} (h : Profile.load env files = .ok p) :
    p.defaultDialect ≠ "" := by
  unfold Profile.load at h
  split at h
  next path content _ =>
    unfold Profile.ofContent at h
    split at h
    next top _ =>
      obtain ⟨entry, -, h⟩ := bind_eq_ok.mp h
      exact defaultDialect_ne_empty_of_entry h
    next => cases h
  all_goals cases h

/-! ### A profile that is loaded -/

/-- The member that stands first is found at once. -/
theorem memberOf_here (key : String) (d : Data) (rest : List (Data × Data)) :
    memberOf key ((.text key, d) :: rest) = d := by
  have found : (Data.text key).same (.text key) = true :=
    (Data.same_texts rfl rfl).trans (beq_self_eq_true key)
  rw [memberOf, List.find?_cons, found]

/-- A member is looked for behind those with other keys. -/
theorem memberOf_behind {key other : String} (h : other ≠ key) (d : Data)
    (rest : List (Data × Data)) :
    memberOf key ((.text other, d) :: rest) = memberOf key rest := by
  have apart : (Data.text other).same (.text key) = false :=
    (Data.same_texts rfl rfl).trans (beq_eq_false_iff_ne.mpr h)
  rw [memberOf, List.find?_cons, apart, memberOf]

/-- The profile of an entry that is found is loaded. -/
theorem load_of_found {path : String} {top entries : List (Data × Data)} {found : Data × Data}
    (hfile : files.first? env = some (path, .content (.dict top)))
    (hprofiles : profilesOf top = .dict entries) (hkey : (activeName env top).isKey = true)
    (hfound : entries.find? (fun e => e.1.same (activeName env top)) = some found) :
    Profile.load env files = Profile.ofEntry (activeName env top) found.2 := by
  -- the active profile is one of the keys, and the entry under it is taken
  have known : lookUp (.dict entries) (activeName env top) = .ok (entries.map (·.1), true) := by
    rw [lookUp, if_pos hkey, ← List.isSome_find?, hfound]
    rfl
  have taken : entryOf (.dict entries) (activeName env top) = .ok found.2 := by
    rw [entryOf, hfound]
    rfl
  have entry : activeEntry path (.dict entries) (activeName env top) = .ok found.2 := by
    rw [activeEntry, known]
    exact taken
  have whole : (Data.dict top).orElse (.dict []) = .dict top := by
    cases top <;> rfl
  rw [Profile.load, hfile]
  show Profile.ofContent env path (.dict top) = _
  unfold Profile.ofContent
  rw [whole]
  show (activeEntry path (profilesOf top) (activeName env top) >>=
    Profile.ofEntry (activeName env top)) = _
  rw [hprofiles, entry]
  rfl

/-! ### The places -/

/-- A name that says something is not passed over. -/
theorem filter_said {s : String} (h : s ≠ "") : (some s).filter (· ≠ "") = some s :=
  Option.filter_some_pos (decide_eq_true h)

/-- A variable that is set to nothing counts as unset. -/
theorem text?_eq_filter (env : Environment) (key : String) :
    env.text? key = (env.entries.lookup key).filter (· ≠ "") := by
  unfold Environment.text?
  cases env.entries.lookup key with
  | none => rfl
  | some s =>
    split
    next h =>
      cases h
      rfl
    next h => exact (filter_said fun hs => h (congrArg some hs)).symm

/-- The caller comes before the variables, and the long variable before the short one. -/
theorem givenSpelling?_eq (env : Environment) (name : Option String) :
    givenSpelling? env name = ((name.filter (· ≠ "")).map fun s => (s, "explicitly")).or
      (((env.text? "QUERYKIT_SQL_DIALECT").or (env.text? "QUERYKIT_DIALECT")).map fun s =>
        (s, "from environment")) := by
  unfold givenSpelling?
  split
  · rfl
  · rfl
  next s hs => rw [filter_said hs, Option.map_some, Option.some_or]

/-- A name that is given before the profile decides, whatever the files are. -/
theorem activeStyle_of_given {name : Option String} {spelling source : String}
    (h : givenSpelling? env name = some (spelling, source)) :
    LeadsTo env spelling false (activeStyle env files name).result ∧
      ∀ files', activeStyle env files' name = activeStyle env files name := by
  have active (files : ProfileFiles) : activeStyle env files name =
      ⟨Style.ofSpelling spelling ((env.switch? quoteVariable).getD false),
        [selected spelling source]⟩ := by
    rw [activeStyle, h]
  refine ⟨?_, fun files' => (active files').trans (active files).symm⟩
  rw [active]
  dsimp only
  exact leadsTo_ofSpelling env spelling false

/-- A profile that is loaded decides, in both of its options. -/
theorem styleOfProfile_of_ok {p : Profile} (h : Profile.load env files = .ok p) :
    LeadsTo env p.defaultDialect p.quoteAll (styleOfProfile env files).result := by
  unfold styleOfProfile
  rw [h]
  dsimp only
  exact leadsTo_ofSpelling env p.defaultDialect p.quoteAll

/-- Without a profile the library decides, whatever has kept it from being loaded. -/
theorem styleOfProfile_of_comesTo_none (h : ComesTo (Profile.load env files) none) :
    LeadsTo env "sqlite" false (styleOfProfile env files).result := by
  have fallback : (styleOfProfile env files).result = Style.ofSpelling "sqlite"
      ((env.switch? quoteVariable).getD false) := by
    generalize hload : Profile.load env files = outcome at h
    -- a missing file is passed over in silence, and a flaw is told; both lead to the same dialect
    cases h with
    | absent =>
      unfold styleOfProfile
      rw [hload]
      rfl
    | @flawed e remark hremark =>
      have hfile : e ≠ .noFile := by
        rintro rfl
        cases hremark
      rw [styleOfProfile_of_error hload hfile, hremark]
      rfl
  rw [fallback]
  exact leadsTo_ofSpelling env "sqlite" false

/-- **The first name that is not empty decides.** The dialect that it names is active, or there is
none; and if it stands before the profile, the files of profiles change nothing. -/
theorem activeStyle_follows_order (h : ComesTo (Profile.load env files) loaded) :
    ∃ place name, firstNamed env wish loaded = some (place, name) ∧
      LeadsTo env name (quotedBy place loaded) (activeStyle env files wish.name?).result ∧
      (place.IsBeforeProfile → ∀ files',
        activeStyle env files' wish.name? = activeStyle env files wish.name?) := by
  have given := givenSpelling?_eq env wish.name?
  rw [text?_eq_filter, text?_eq_filter] at given
  unfold firstNamed NamePlace.inOrder
  simp only [List.findSome?_cons, NamePlace.name?]
  -- the places are asked in their order, each where those before it say nothing
  cases hcaller : wish.name?.filter (· ≠ "") with
  | some name =>
    rw [hcaller] at given
    obtain ⟨result, same⟩ := activeStyle_of_given given
    exact ⟨.caller, name, rfl, result, fun _ => same⟩
  | none =>
    cases hlong : (env.entries.lookup "QUERYKIT_SQL_DIALECT").filter (· ≠ "") with
    | some name =>
      rw [hcaller, hlong] at given
      obtain ⟨result, same⟩ := activeStyle_of_given given
      exact ⟨.longVariable, name, rfl, result, fun _ => same⟩
    | none =>
      cases hshort : (env.entries.lookup "QUERYKIT_DIALECT").filter (· ≠ "") with
      | some name =>
        rw [hcaller, hlong, hshort] at given
        obtain ⟨result, same⟩ := activeStyle_of_given given
        exact ⟨.shortVariable, name, rfl, result, fun _ => same⟩
      | none =>
        rw [hcaller, hlong, hshort] at given
        -- nobody has named a dialect so far, so the profile is looked at
        have active : activeStyle env files wish.name? = styleOfProfile env files := by
          rw [activeStyle, given]
          rfl
        rw [active]
        cases loaded with
        | none =>
          refine ⟨.library, "sqlite", rfl, styleOfProfile_of_comesTo_none h, ?_⟩
          rintro (h | h | h) <;> cases h
        | some p =>
          generalize hload : Profile.load env files = outcome at h
          cases h
          have said : p.defaultDialect ≠ "" := defaultDialect_ne_empty hload
          refine ⟨.profile, p.defaultDialect, ?_, styleOfProfile_of_ok hload, ?_⟩
          · rw [Option.map_some, filter_said said]
            rfl
          · rintro (h | h | h) <;> cases h

end

/-- Two variables that are set, but say nothing. -/
def emptyVariables : Environment :=
  ⟨[("QUERYKIT_SQL_DIALECT", ""), ("QUERYKIT_QUOTE_ALL_IDENTIFIERS", " ")]⟩

/-- A profile that says something on names and quotes. -/
def postgresOptions : Data :=
  .dict [(.text "default_dialect", .text "PG"), (.text "quote_all_identifiers", .bool true)]

/-- A file for the whole system that makes it the active one. -/
def postgresFiles : ProfileFiles where
  explicit := none
  directory := "config"
  state path :=
    if path = "/etc/querykit/querykit_profiles.yaml" then
      .content (.dict [(.text "active_profile", .text "pg"),
        (.text "profiles", .dict [(.text "pg", postgresOptions)])])
    else .missing

theorem first?_postgresFiles :
    postgresFiles.first? emptyVariables = some ("/etc/querykit/querykit_profiles.yaml",
      .content (.dict [(.text "active_profile", .text "pg"),
        (.text "profiles", .dict [(.text "pg", postgresOptions)])])) := by
  have paths : postgresFiles.paths emptyVariables =
      ["config/querykit_profiles.yaml", "/etc/querykit/querykit_profiles.yaml"] := by
    decide +kernel
  rw [ProfileFiles.first?, paths]
  simp [postgresFiles, FileState.isFile]

theorem load_postgresFiles :
    Profile.load emptyVariables postgresFiles = .ok ⟨.text "pg", "pg", true⟩ := by
  have profiles : profilesOf [(.text "active_profile", .text "pg"),
      (.text "profiles", .dict [(.text "pg", postgresOptions)])] =
      .dict [(.text "pg", postgresOptions)] := by
    rw [profilesOf, memberOf_behind (by decide), memberOf_here]
    rfl
  have active : activeName emptyVariables [(.text "active_profile", .text "pg"),
      (.text "profiles", .dict [(.text "pg", postgresOptions)])] = .text "pg" := by
    show (memberOf _ _).orElse _ = _
    rw [memberOf_here]
    rfl
  have found : [(Data.text "pg", postgresOptions)].find? (fun e => e.1.same (.text "pg")) =
      some (.text "pg", postgresOptions) :=
    List.find?_cons_of_pos ((Data.same_texts rfl rfl).trans (beq_self_eq_true "pg"))
  rw [load_of_found first?_postgresFiles profiles (by rw [active]; rfl)
    (by rw [active]; exact found), active]
  show (profileSwitch _ (memberOf _ _) >>= fun quoteAll =>
    Except.ok (⟨.text "pg", Text.lower ((memberOf _ _).orElse _).plain, quoteAll⟩ : Profile)) = _
  rw [memberOf_behind (by decide), memberOf_here, memberOf_here]
  rfl

theorem emptyVariables_leave_to_profile :
    ComesTo (Profile.load emptyVariables postgresFiles) (some ⟨.text "pg", "pg", true⟩) ∧
      ∃ place name, firstNamed emptyVariables (.named "") (some ⟨.text "pg", "pg", true⟩) =
          some (place, name) ∧
        LeadsTo emptyVariables name (quotedBy place (some ⟨.text "pg", "pg", true⟩))
          (activeStyle emptyVariables postgresFiles (some "")).result ∧
        (place.IsBeforeProfile → ∀ files', activeStyle emptyVariables files' (some "") =
          activeStyle emptyVariables postgresFiles (some "")) := by
  have loaded : ComesTo (Profile.load emptyVariables postgresFiles)
      (some ⟨.text "pg", "pg", true⟩) := by
    rw [load_postgresFiles]
    exact .loaded _
  exact ⟨loaded, activeStyle_follows_order loaded⟩

end SqlScribe
