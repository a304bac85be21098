import SqlScribe.Proofs.Sorting
import SqlScribe.Resolution

/-!
# Profiles that cannot be loaded

A profile is loaded from any data at all. Most of what may be wrong with the data is foreseen: the
data are no mapping, the active profile is none of the named ones, a switch is neither on nor off.
Then a warning says what is wrong, and SQLite is active.

`Unforeseen` lists the flaws that nothing was prepared for. They come from what is done with the
profiles before anything is known of their type: the active one is looked up in them, its entry is
asked for options, and all names are sorted and joined for the message that it is unknown. Data with
such a flaw are refused with the error that comes up on the way, and without a word in the records.
-/

namespace SqlScribe

/-! ## What can be wrong -/

/-- The name of the active profile that data give in an environment. -/
def activeName (env : Environment) (top : List (Data × Data)) : Data :=
  match env.text? "QUERYKIT_PROFILE" with
  | some name => .text name
  | none => (memberOf "active_profile" top).orElse (.text "dev")

/-- The profiles that data give. -/
def profilesOf (top : List (Data × Data)) : Data := (memberOf "profiles" top).orElse (.dict [])

/-- Whether an entry has no options to ask for. One that is false counts as empty. -/
def LacksOptions (entry : Data) : Prop := entry.isTrue = true ∧ ∀ options, entry ≠ .dict options

/-- Whether the active profile gives no place in a list at which there is an entry with options. -/
def LacksEntry (items : List Data) (active : Data) : Prop :=
  ∀ place entry, active.asInt? = some place → elementAt? items place = some entry →
    LacksOptions entry

/-- Whether some name is no text. -/
def Unnamed (names : List Data) : Prop := ∃ name ∈ names, name.asText? = none

/-- Whether anything can be looked for in data. -/
def Data.IsSearched : Data → Prop
  | .dict _ | .list _ | .set _ | .text _ | .bytes .fixed _ => True
  | _ => False

/-- The flaws of profiles, given the active one of them, that nothing was prepared for. -/
inductive Unforeseen : (profiles active : Data) → Prop
  | unsearched {profiles active} : ¬profiles.IsSearched → Unforeseen profiles active
  /-- The active profile can be no key of a mapping. -/
  | noKey {entries active} : active.isKey = false → Unforeseen (.dict entries) active
  | noOptions {entries active entry} : active.isKey = true →
      entries.find? (fun e => e.1.same active) = some entry → LacksOptions entry.2 →
      Unforeseen (.dict entries) active
  /-- The names cannot be shown. -/
  | unnamed {entries active} : active.isKey = true →
      entries.find? (fun e => e.1.same active) = none → Unnamed (entries.map (·.1)) →
      Unforeseen (.dict entries) active
  /-- A member of a list is not the place of a mapping in it. -/
  | noPlace {items active} : items.any active.same = true → LacksEntry items active →
      Unforeseen (.list items) active
  | unnamedItem {items active} : items.any active.same = false → Unnamed items →
      Unforeseen (.list items) active
  /-- The active profile can be no member of a set. -/
  | noMember {members active} : active.isSought = false → Unforeseen (.set members) active
  /-- A set has nothing to tell of a member. -/
  | member {members active} : active.isSought = true → members.any active.same = true →
      Unforeseen (.set members) active
  | unnamedMember {members active} : active.isSought = true → members.any active.same = false →
      Unnamed members → Unforeseen (.set members) active
  /-- Only a text can be looked for in a text. -/
  | noText {s active} : (∀ name, active ≠ .text name) → Unforeseen (.text s) active
  /-- A part of a text is no place in it. -/
  | part {s name} : hasPart name.toList s.toList = true → Unforeseen (.text s) (.text name)
  /-- Only a number is a place in bytes. -/
  | noNumber {octets active} : active.asInt? = none → Unforeseen (.bytes .fixed octets) active
  | noByte {octets active n} : active.asInt? = some n → 0 ≤ n → n < 256 →
      (numbersOf octets).any active.same = true → LacksEntry (numbersOf octets) active →
      Unforeseen (.bytes .fixed octets) active
  | unnamedByte {octets active n} : active.asInt? = some n → 0 ≤ n → n < 256 →
      (numbersOf octets).any active.same = false → Unnamed (numbersOf octets) →
      Unforeseen (.bytes .fixed octets) active

/-- Whether data hold profiles with such a flaw. -/
def Unforeseen.In (env : Environment) (content : Data) : Prop :=
  ∃ top, content.orElse (.dict []) = .dict top ∧ Unforeseen (profilesOf top) (activeName env top)

/-! ## Errors that nothing was prepared for -/

/-- An outcome is an error that nothing was prepared for. -/
def Escapes {α : Type} (x : Except ProfileError α) : Prop := ∃ e, x = .error e ∧ e.remark? = none

section

variable {α β : Type}

theorem not_escapes_ok {a : α} : ¬Escapes (.ok a) := by
  rintro ⟨e, he, -⟩
  cases he

theorem escapes_error_iff {e : ProfileError} :
    Escapes (α := α) (.error e) ↔ e.remark? = none := by
  constructor
  · rintro ⟨_, ⟨⟩, h⟩
    exact h
  · exact fun h => ⟨e, rfl, h⟩

/-- The first step escapes, or what is made of its result. -/
theorem escapes_bind_iff {x : Except ProfileError α} {f : α → Except ProfileError β} :
    Escapes (x >>= f) ↔ Escapes x ∨ ∃ a, x = .ok a ∧ Escapes (f a) := by
  cases x with
  | error e =>
    constructor
    · rintro ⟨_, ⟨⟩, h⟩
      exact .inl ⟨e, rfl, h⟩
    · rintro (⟨_, ⟨⟩, h⟩ | ⟨a, ha, -⟩)
      · exact ⟨e, rfl, h⟩
      · cases ha
  | ok a =>
    constructor
    · exact fun h => .inr ⟨a, rfl, h⟩
    · rintro (h | ⟨_, ⟨⟩, h⟩)
      · exact absurd h not_escapes_ok
      · exact h

end

/-! ## Names -/

/-- Two texts can always be compared. -/
theorem Data.exists_compares {c : Comparison} {a b : Data} {x y : String}
    (ha : a.asText? = some x) (hb : b.asText? = some y) : ∃ r, Data.compares c a b = .ok r := by
  have plain : ∀ {d : Data} {s : String}, d.asText? = some s → d = .text s ∨ d = .textLabel s := by
    intro d s h
    cases d <;> simp_all [Data.asText?]
  rcases plain ha with rfl | rfl <;> rcases plain hb with rfl | rfl <;> exact ⟨_, rfl⟩

theorem mapM_asText?_eq_none_iff {names : List Data} :
    names.mapM Data.asText? = none ↔ Unnamed names := by
  unfold Unnamed
  induction names with
  | nil => simp
  | cons name rest ih =>
    rw [List.mapM_cons]
    cases h : name.asText? with
    | none => simp [h]
    | some s =>
      cases h' : rest.mapM Data.asText? with
      | none => simpa [h, h'] using ih
      | some texts => simpa [h, h'] using ih

theorem unnamed_iff_of_perm {names names' : List Data} (h : names'.Perm names) :
    Unnamed names' ↔ Unnamed names := by
  simp only [Unnamed, h.mem_iff]

/-- The names can be shown exactly if all are texts: texts can be sorted, and sorting loses none. -/
theorem escapes_availableNames_iff {names : List Data} :
    Escapes (availableNames names) ↔ Unnamed names := by
  unfold availableNames
  by_cases hempty : names.isEmpty = true
  · rw [if_pos hempty, List.isEmpty_iff.mp hempty]
    exact iff_of_false not_escapes_ok fun ⟨_, h, _⟩ => nomatch h
  · rw [if_neg hempty]
    cases hsorted : sorted (Data.compares .less) names with
    | error e =>
      refine iff_of_true (escapes_error_iff.mpr rfl) ?_
      by_contra htexts
      -- texts are always compared, so sorting can only fail on something else
      have comparable : ∀ a ∈ names, ∀ b ∈ names, ∃ r, Data.compares .less a b = .ok r := by
        intro a ha b hb
        cases hx : a.asText? with
        | none => exact absurd ⟨a, ha, hx⟩ htexts
        | some x =>
          cases hy : b.asText? with
          | none => exact absurd ⟨b, hb, hy⟩ htexts
          | some y => exact Data.exists_compares hx hy
      obtain ⟨ys, hys⟩ := exists_sorted comparable
      rw [hsorted] at hys
      cases hys
    | ok ys =>
      -- sorting keeps the names
      rw [← unnamed_iff_of_perm (sorted_perm hsorted), ← mapM_asText?_eq_none_iff]
      dsimp only
      cases hm : ys.mapM Data.asText? with
      | none => exact iff_of_true (escapes_error_iff.mpr rfl) rfl
      | some texts => exact iff_of_false not_escapes_ok (Option.some_ne_none _)

/-! ## Entries -/

theorem not_escapes_profileSwitch (key : String) (d : Data) : ¬Escapes (profileSwitch key d) := by
  unfold profileSwitch
  split
  · exact not_escapes_ok
  · exact not_escapes_ok
  · exact fun h => nomatch escapes_error_iff.mp h

/-- An entry is of use, or flawed in a way that is foreseen, exactly if it has options. -/
theorem escapes_ofEntry_iff {name entry : Data} :
    Escapes (Profile.ofEntry name entry) ↔ LacksOptions entry := by
  -- options that are a mapping, be they given or the default, are read without a complaint
  have mapping : ∀ options, entry.orElse (.dict []) = .dict options →
      ¬Escapes (Profile.ofEntry name entry) := by
    intro options h hescapes
    unfold Profile.ofEntry at hescapes
    rw [h] at hescapes
    rcases escapes_bind_iff.mp hescapes with hswitch | ⟨b, -, hdone⟩
    · exact not_escapes_profileSwitch _ _ hswitch
    · exact not_escapes_ok hdone
  -- what counts as false is replaced by no options at all
  by_cases htrue : entry.isTrue = true
  · have self : entry.orElse (.dict []) = entry := if_pos htrue
    by_cases hdict : ∃ options, entry = .dict options
    · obtain ⟨options, rfl⟩ := hdict
      exact iff_of_false (mapping options self) fun h => h.2 options rfl
    · have other : ∀ options, entry ≠ .dict options := fun options h => hdict ⟨options, h⟩
      refine iff_of_true ?_ ⟨htrue, other⟩
      unfold Profile.ofEntry
      rw [self]
      split
      next options => exact absurd rfl (other options)
      next => exact escapes_error_iff.mpr rfl
  · have empty : entry.orElse (.dict []) = .dict [] := if_neg htrue
    exact iff_of_false (mapping [] empty) fun h => htrue h.1

theorem escapes_entryAt_iff {items : List Data} {active : Data} {missing : ProfileError}
    (h : missing.remark? = none) :
    Escapes (entryAt items active missing >>= Profile.ofEntry active) ↔
      LacksEntry items active := by
  unfold entryAt LacksEntry
  cases hplace : active.asInt? with
  | none =>
    refine iff_of_true ((escapes_error_iff (e := .unusableNames)).mpr rfl) ?_
    rintro place entry ⟨⟩
  | some place =>
    dsimp only
    cases hentry : elementAt? items place with
    | none =>
      refine iff_of_true (escapes_error_iff.mpr h) ?_
      rintro _ entry ⟨⟩ hentry'
      rw [hentry] at hentry'
      cases hentry'
    | some entry =>
      refine escapes_ofEntry_iff.trans ⟨?_, fun hall => hall place entry rfl hentry⟩
      rintro hlacks _ _ ⟨⟩ hentry'
      rw [hentry] at hentry'
      cases hentry'
      exact hlacks

/-! ## Profiles -/

section

variable {path : String} {profiles active : Data} {names : List Data}

theorem escapes_of_lookUp_error {e : ProfileError} (h : lookUp profiles active = .error e) :
    Escapes (activeEntry path profiles active >>= Profile.ofEntry active) ↔ e.remark? = none := by
  unfold activeEntry
  rw [h]
  exact escapes_error_iff

theorem escapes_of_known (h : lookUp profiles active = .ok (names, true)) :
    Escapes (activeEntry path profiles active >>= Profile.ofEntry active) ↔
      Escapes (entryOf profiles active >>= Profile.ofEntry active) := by
  unfold activeEntry
  rw [h]
  rfl

/-- That the active profile is unknown is foreseen, if the known ones can be shown. -/
theorem escapes_of_unknown (h : lookUp profiles active = .ok (names, false)) :
    Escapes (activeEntry path profiles active >>= Profile.ofEntry active) ↔ Unnamed names := by
  unfold activeEntry
  rw [h, ← escapes_availableNames_iff]
  show Escapes ((availableNames names >>= fun text =>
    .error (.unknownProfile active.plain path text)) >>= Profile.ofEntry active) ↔ _
  rw [escapes_bind_iff, escapes_bind_iff]
  constructor
  · rintro ((h | ⟨text, -, h⟩) | ⟨entry, h, -⟩)
    · exact h
    · exact nomatch escapes_error_iff.mp h
    · obtain ⟨text, -, h⟩ := bind_eq_ok.mp h
      cases h
  · exact fun h => .inl (.inl h)

end

section

variable {path : String} {active : Data}

theorem escapes_dict_iff {entries : List (Data × Data)} :
    Escapes (activeEntry path (.dict entries) active >>= Profile.ofEntry active) ↔
      Unforeseen (.dict entries) active := by
  by_cases hkey : active.isKey = true
  · have found : lookUp (.dict entries) active =
        .ok (entries.map (·.1), entries.any fun e => e.1.same active) := if_pos hkey
    -- the name is known if an entry is found under it
    rw [← List.isSome_find?] at found
    cases hfind : entries.find? fun e => e.1.same active with
    | none =>
      rw [hfind] at found
      rw [escapes_of_unknown found]
      -- an unknown name is answered with the names there are, if these are texts
      refine ⟨fun h => .unnamed hkey hfind h, fun h => ?_⟩
      cases h with
      | unsearched h => exact absurd trivial h
      | noKey h => simp [hkey] at h
      | noOptions _ h _ => simp [hfind] at h
      | unnamed _ _ h => exact h
    | some entry =>
      rw [hfind] at found
      have entered : entryOf (.dict entries) active = .ok entry.2 := by
        show Except.ok ((entries.find? fun e => e.1.same active).elim .null (·.2)) = _
        rw [hfind]
        rfl
      rw [escapes_of_known found, entered]
      refine escapes_ofEntry_iff.trans ⟨fun h => .noOptions hkey hfind h, fun h => ?_⟩
      cases h with
      | unsearched h => exact absurd trivial h
      | noKey h => simp [hkey] at h
      | noOptions _ h hlacks =>
        rw [hfind] at h
        cases h
        exact hlacks
      | unnamed _ h _ => simp [hfind] at h
  -- a list or a mapping is no key, so it cannot be searched for
  · have refused : lookUp (.dict entries) active = .error .unusableNames := if_neg hkey
    rw [escapes_of_lookUp_error refused]
    exact iff_of_true rfl (.noKey (Bool.eq_false_iff.mpr hkey))

theorem escapes_list_iff {items : List Data} :
    Escapes (activeEntry path (.list items) active >>= Profile.ofEntry active) ↔
      Unforeseen (.list items) active := by
  have found : lookUp (.list items) active = .ok (items, items.any active.same) := rfl
  cases hany : items.any active.same with
  | false =>
    rw [hany] at found
    rw [escapes_of_unknown found]
    refine ⟨fun h => .unnamedItem hany h, fun h => ?_⟩
    cases h with
    | unsearched h => exact absurd trivial h
    | noPlace h _ => simp [hany] at h
    | unnamedItem _ h => exact h
  | true =>
    rw [hany] at found
    rw [escapes_of_known found]
    refine (escapes_entryAt_iff rfl).trans ⟨fun h => .noPlace hany h, fun h => ?_⟩
    cases h with
    | unsearched h => exact absurd trivial h
    | noPlace _ h => exact h
    | unnamedItem h _ => simp [hany] at h

theorem escapes_set_iff {members : List Data} :
    Escapes (activeEntry path (.set members) active >>= Profile.ofEntry active) ↔
      Unforeseen (.set members) active := by
  cases hsought : active.isSought with
  | false =>
    have refused : lookUp (.set members) active = .error .unusableNames := by
      simp [lookUp, hsought]
    rw [escapes_of_lookUp_error refused]
    exact iff_of_true rfl (.noMember hsought)
  | true =>
    have found : lookUp (.set members) active = .ok (members, members.any active.same) := by
      simp [lookUp, hsought]
    cases hany : members.any active.same with
    | false =>
      rw [hany] at found
      rw [escapes_of_unknown found]
      refine ⟨fun h => .unnamedMember hsought hany h, fun h => ?_⟩
      cases h with
      | unsearched h => exact absurd trivial h
      | noMember h => simp [hsought] at h
      | member _ h => simp [hany] at h
      | unnamedMember _ _ h => exact h
    | true =>
      rw [hany] at found
      rw [escapes_of_known found]
      -- a set has no entries
      exact iff_of_true ⟨.unusableNames, rfl, rfl⟩ (.member hsought hany)

theorem escapes_text_iff {s : String} :
    Escapes (activeEntry path (.text s) active >>= Profile.ofEntry active) ↔
      Unforeseen (.text s) active := by
  by_cases htext : ∃ name, active = .text name
  · obtain ⟨name, rfl⟩ := htext
    have found : lookUp (.text s) (.text name) = .ok
        (s.toList.map fun c => .text (String.singleton c), hasPart name.toList s.toList) := rfl
    cases hpart : hasPart name.toList s.toList with
    | true =>
      rw [hpart] at found
      rw [escapes_of_known found]
      -- a text has no entries by name
      exact iff_of_true ⟨.unusableNames, rfl, rfl⟩ (.part hpart)
    | false =>
      rw [hpart] at found
      rw [escapes_of_unknown found]
      refine iff_of_false ?_ ?_
      · rintro ⟨d, hd, hnone⟩
        -- the names of a text are its characters, and these are texts
        obtain ⟨c, -, rfl⟩ := List.mem_map.mp hd
        cases hnone
      · intro h
        cases h with
        | unsearched h => exact h trivial
        | noText h => exact h name rfl
        | part h => simp [hpart] at h
  · have other : ∀ name, active ≠ .text name := fun name h => htext ⟨name, h⟩
    have refused : lookUp (.text s) active = .error .unusableNames := by
      unfold lookUp
      dsimp only
      split
      next name => exact absurd rfl (other name)
      next => rfl
    rw [escapes_of_lookUp_error refused]
    exact iff_of_true rfl (.noText other)

theorem escapes_bytes_iff {octets : List UInt8} :
    Escapes (activeEntry path (.bytes .fixed octets) active >>= Profile.ofEntry active) ↔
      Unforeseen (.bytes .fixed octets) active := by
  cases hn : active.asInt? with
  | none =>
    have refused : lookUp (.bytes .fixed octets) active = .error .unusableNames := by
      simp [lookUp, hn]
    rw [escapes_of_lookUp_error refused]
    exact iff_of_true rfl (.noNumber hn)
  | some n =>
    -- a number that is no octet is refused with an error that is foreseen
    by_cases hbyte : 0 ≤ n ∧ n < 256
    · have found : lookUp (.bytes .fixed octets) active =
          .ok (numbersOf octets, (numbersOf octets).any active.same) := by
        simp [lookUp, hn, hbyte]
      cases hany : (numbersOf octets).any active.same with
      | false =>
        rw [hany] at found
        rw [escapes_of_unknown found]
        refine ⟨fun h => .unnamedByte hn hbyte.1 hbyte.2 hany h, fun h => ?_⟩
        cases h with
        | unsearched h => exact absurd trivial h
        | noNumber h => simp [hn] at h
        | noByte _ _ _ h _ => simp [hany] at h
        | unnamedByte _ _ _ _ h => exact h
      | true =>
        rw [hany] at found
        rw [escapes_of_known found]
        refine (escapes_entryAt_iff rfl).trans
          ⟨fun h => .noByte hn hbyte.1 hbyte.2 hany h, fun h => ?_⟩
        cases h with
        | unsearched h => exact absurd trivial h
        | noNumber h => simp [hn] at h
        | noByte _ _ _ _ h => exact h
        | unnamedByte _ _ _ h _ => simp [hany] at h
    · have refused : lookUp (.bytes .fixed octets) active = .error .noByte := by
        simp [lookUp, hn, hbyte]
      rw [escapes_of_lookUp_error refused]
      refine iff_of_false nofun fun h => ?_
      cases h with
      | unsearched h => exact h trivial
      | noNumber h => simp [hn] at h
      | noByte h _ _ _ _ | unnamedByte h _ _ _ _ =>
        rw [hn] at h
        cases h
        exact hbyte ⟨‹_›, ‹_›⟩

/-- **The flaws that nothing was prepared for are those of `Unforeseen`.** -/
theorem escapes_active_iff {profiles : Data} :
    Escapes (activeEntry path profiles active >>= Profile.ofEntry active) ↔
      Unforeseen profiles active := by
  have unsearched : lookUp profiles active = .error .unusableNames → ¬profiles.IsSearched →
      (Escapes (activeEntry path profiles active >>= Profile.ofEntry active) ↔
        Unforeseen profiles active) := fun h hs =>
    (escapes_of_lookUp_error h).trans (iff_of_true rfl (.unsearched hs))
  cases profiles with
  | dict entries => exact escapes_dict_iff
  | list items => exact escapes_list_iff
  | set members => exact escapes_set_iff
  | text s => exact escapes_text_iff
  | bytes form octets =>
    cases form with
    | fixed => exact escapes_bytes_iff
    | _ => exact unsearched rfl id
  | _ => exact unsearched rfl id

end

/-! ## The active style -/

section

variable {env : Environment} {files : ProfileFiles} {path : String} {content : Data}

theorem escapes_load_iff (h : files.first? env = some (path, .content content)) :
    Escapes (Profile.load env files) ↔ Unforeseen.In env content := by
  have loaded : Profile.load env files = Profile.ofContent env path content := by
    rw [Profile.load, h]
  rw [loaded]
  unfold Profile.ofContent Unforeseen.In
  cases htop : content.orElse (.dict []) with
  | dict top =>
    have flawed : Escapes (activeEntry path (profilesOf top) (activeName env top) >>=
        Profile.ofEntry (activeName env top)) ↔ _ := escapes_active_iff
    refine flawed.trans ⟨fun h => ⟨top, rfl, h⟩, ?_⟩
    rintro ⟨_, ⟨⟩, h⟩
    exact h
  | _ => exact iff_of_false (fun h => nomatch escapes_error_iff.mp h) nofun

/-! ### Missing files

Where there is a file, no step says that there is none. -/

theorem bind_ne_error {ε α β : Type} {x : Except ε α} {f : α → Except ε β} {e : ε}
    (hx : x ≠ .error e) (hf : ∀ a, f a ≠ .error e) : x >>= f ≠ .error e := by
  cases x with
  | error e' =>
    rintro ⟨⟩
    exact hx rfl
  | ok a => exact hf a

theorem entryAt_ne_noFile {items : List Data} {active : Data} {missing : ProfileError}
    (h : missing ≠ .noFile) : entryAt items active missing ≠ .error .noFile := by
  unfold entryAt
  split
  · split
    · nofun
    · exact fun he => h (Except.error.inj he)
  · nofun

theorem activeEntry_ne_noFile {profiles active : Data} :
    activeEntry path profiles active ≠ .error .noFile := by
  have search : lookUp profiles active ≠ .error .noFile := by
    unfold lookUp
    repeat' split
    all_goals nofun
  have entry : entryOf profiles active ≠ .error .noFile := by
    unfold entryOf
    split
    · nofun
    · exact entryAt_ne_noFile nofun
    · exact entryAt_ne_noFile nofun
    · nofun
  have names : ∀ names, availableNames names ≠ .error .noFile := by
    intro names
    unfold availableNames
    repeat' split
    all_goals nofun
  refine bind_ne_error search fun r => ?_
  dsimp only
  split
  · exact entry
  · exact bind_ne_error (names _) fun _ => nofun

theorem ofEntry_ne_noFile {name entry : Data} : Profile.ofEntry name entry ≠ .error .noFile := by
  have switch : ∀ key d, profileSwitch key d ≠ .error .noFile := by
    intro key d
    unfold profileSwitch
    split <;> nofun
  unfold Profile.ofEntry
  split
  · exact bind_ne_error (switch _ _) fun _ => nofun
  · nofun

theorem load_ne_noFile (h : files.first? env = some (path, .content content)) :
    Profile.load env files ≠ .error .noFile := by
  rw [Profile.load, h]
  show Profile.ofContent env path content ≠ _
  unfold Profile.ofContent
  split
  · exact bind_ne_error activeEntry_ne_noFile fun _ => ofEntry_ne_noFile
  · nofun

/-! ### Outcomes -/

/-- What becomes of a profile that cannot be loaded. -/
theorem styleOfProfile_of_error {e : ProfileError} (hload : Profile.load env files = .error e)
    (hfile : e ≠ .noFile) :
    styleOfProfile env files = match e.remark? with
      | some remark =>
        ⟨Style.ofSpelling fallbackName
            ((env.switch? "QUERYKIT_QUOTE_ALL_IDENTIFIERS").getD false),
          [⟨.warning, "Could not load querykit profile, using built-in defaults: " ++ remark⟩,
            selected fallbackName "as fallback"]⟩
      | none => ⟨.error (.profile e), []⟩ := by
  unfold styleOfProfile
  rw [hload]
  cases e with
  | noFile => exact absurd rfl hfile
  | _ => rfl

/-- Whether a profile has been loaded and decides: its dialect is active, or is named as unknown. -/
def FollowsProfile (env : Environment) (files : ProfileFiles)
    (outcome : Except ResolutionError Style) : Prop :=
  ∃ p, Profile.load env files = .ok p ∧
    ((∃ d, Dialect.ofSpelling? p.defaultDialect = some d ∧
        outcome = .ok ⟨d, (env.switch? "QUERYKIT_QUOTE_ALL_IDENTIFIERS").getD p.quoteAll⟩) ∨
      Dialect.ofSpelling? p.defaultDialect = none ∧
        outcome = .error (.unknownDialect (Dialect.normalName p.defaultDialect)))

/-- Whether no profile has been loaded, and SQLite is active with a warning that says why. -/
def FallsBack (env : Environment) (files : ProfileFiles)
    (outcome : Logged (Except ResolutionError Style)) : Prop :=
  ∃ e remark, Profile.load env files = .error e ∧ e.remark? = some remark ∧
    outcome = ⟨.ok ⟨.sqlite, (env.switch? "QUERYKIT_QUOTE_ALL_IDENTIFIERS").getD false⟩,
      [⟨.warning, "Could not load querykit profile, using built-in defaults: " ++ remark⟩,
        selected "sqlite" "as fallback"]⟩

/-- **A profile that cannot be loaded is passed over with a warning, unless its flaw is one of
`Unforeseen`.** Where no variable names a dialect, data for profiles decide the style or SQLite is
active; only such a flaw is the outcome itself, and then nothing is told. -/
theorem activeStyle_of_content
    (hunset : env.text? "QUERYKIT_SQL_DIALECT" = none ∧ env.text? "QUERYKIT_DIALECT" = none)
    (hfile : files.first? env = some (path, .content content)) :
    (Unforeseen.In env content → ∃ e, activeStyle env files none = ⟨.error (.profile e), []⟩) ∧
    (¬Unforeseen.In env content →
      FollowsProfile env files (activeStyle env files none).result ∨
        FallsBack env files (activeStyle env files none)) := by
  -- without a spelling in the environment the profile decides
  have ungiven : givenSpelling? env none = none := by
    simp [givenSpelling?, hunset.1, hunset.2]
  have active : activeStyle env files none = styleOfProfile env files := by
    rw [activeStyle, ungiven]
  -- there is a file, so the error is not that there is none
  have present : ∀ e, Profile.load env files = .error e → e ≠ .noFile := by
    rintro _ hload rfl
    exact load_ne_noFile hfile hload
  rw [active, ← escapes_load_iff hfile]
  constructor
  · rintro ⟨e, hload, hremark⟩
    rw [styleOfProfile_of_error hload (present e hload), hremark]
    exact ⟨e, rfl⟩
  · intro hescapes
    cases hload : Profile.load env files with
    | ok p =>
      have style : (styleOfProfile env files).result = Style.ofSpelling p.defaultDialect
          ((env.switch? "QUERYKIT_QUOTE_ALL_IDENTIFIERS").getD p.quoteAll) := by
        unfold styleOfProfile
        rw [hload]
      rw [Style.ofSpelling] at style
      refine .inl ⟨p, hload, ?_⟩
      cases hd : Dialect.ofSpelling? p.defaultDialect with
      | some d =>
        rw [hd] at style
        exact .inl ⟨d, rfl, style⟩
      | none =>
        rw [hd] at style
        exact .inr ⟨rfl, style⟩
    | error e =>
      cases hremark : e.remark? with
      | none => exact absurd ⟨e, hload, hremark⟩ hescapes
      | some remark =>
        -- the name to fall back to is one of the dialects
        have known : Dialect.ofSpelling? fallbackName = some .sqlite := by decide +kernel
        refine .inr ⟨e, remark, hload, hremark, ?_⟩
        rw [styleOfProfile_of_error hload (present e hload), hremark]
        dsimp only
        rw [Style.ofSpelling, known]
        rfl

/-- A profile that is the name of a dialect, wherever a file is looked for. -/
def shortProfile : ProfileFiles where
  explicit := none
  directory := "config"
  state _ := .content (.dict [(.text "profiles", .dict [(.text "dev", .text "sqlite")])])

/-- It has no options to ask for, and that is the outcome. -/
theorem activeStyle_shortProfile :
    ∃ e, activeStyle .empty shortProfile none = ⟨.error (.profile e), []⟩ := by
  have flawed : Unforeseen.In .empty
      (.dict [(.text "profiles", .dict [(.text "dev", .text "sqlite")])]) := by
    have profiles : profilesOf [(.text "profiles", .dict [(.text "dev", .text "sqlite")])] =
        .dict [(.text "dev", .text "sqlite")] := by
      rw [profilesOf, memberOf, List.find?_cons_of_pos (by decide +kernel)]
      rfl
    have active : activeName .empty
        [(.text "profiles", .dict [(.text "dev", .text "sqlite")])] = .text "dev" := by
      show (memberOf _ _).orElse _ = _
      rw [memberOf, List.find?_cons_of_neg (by decide +kernel)]
      rfl
    have found : [(Data.text "dev", Data.text "sqlite")].find? (fun e => e.1.same (.text "dev")) =
        some (.text "dev", .text "sqlite") := List.find?_cons_of_pos (by decide +kernel)
    refine ⟨_, rfl, ?_⟩
    rw [profiles, active]
    exact .noOptions rfl found ⟨rfl, by rintro _ ⟨⟩⟩
  exact (activeStyle_of_content ⟨rfl, rfl⟩ rfl).1 flawed

end

end SqlScribe
