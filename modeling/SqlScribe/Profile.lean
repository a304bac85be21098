import SqlScribe.Data.Display
import SqlScribe.Data.Order
import SqlScribe.Environment
import SqlScribe.Sorting

/-!
# Profiles

A profile names a default dialect and says whether every name is quoted. Profiles stand in a file of
data, under `profiles`; the environment or the file itself tells which one is active. The file is
looked for in several places, and the first place that holds a file counts, readable or not.

The profiles should be a mapping. A list of them is taken as well, and then the active one has to be
a member of the list and the place of a profile in it at once; and so are bytes, as a list of
numbers. A text and a set are searched for the active one, but there is no profile in them.
-/

namespace SqlScribe

/-- Defaults for a way of working. -/
structure Profile where
  name : Data
  defaultDialect : String
  quoteAll : Bool

/-- The view of a profile. -/
def Profile.view (p : Profile) : Data :=
  .record "Profile" [("name", p.name), ("default_dialect", .text p.defaultDialect),
    ("quote_all_identifiers", .bool p.quoteAll)]

/-! ## Files -/

/-- The name of the file. -/
def Profile.fileName : String := "querykit_profiles.yaml"

/-- What is found under a path. -/
inductive FileState where
  | content (d : Data)
  /-- A file that cannot be opened or read as data, with the words of that failure. -/
  | unreadable (reason : String)
  | missing
  | directory

/-- Whether a file is there at all. -/
def FileState.isFile : FileState → Bool
  | .content _ | .unreadable _ => true
  | .missing | .directory => false

/-- The files that profiles may be read from. -/
structure ProfileFiles where
  /-- The path that the caller gives. -/
  explicit : Option String
  /-- The directory for settings in the working directory. -/
  directory : String
  /-- What is found under each path. -/
  state : String → FileState

namespace ProfileFiles

/-- No file anywhere. -/
def none : ProfileFiles := ⟨.none, "config", fun _ => .missing⟩

/-- The paths that are looked at, the first one first: that of the caller, that of the environment,
and the file in the directories for settings. -/
def paths (env : Environment) (files : ProfileFiles) : List String :=
  (files.explicit.filter fun path => !path.isEmpty).toList ++
    (env.text? "QUERYKIT_PROFILES_PATH").toList ++
    [files.directory ++ "/" ++ Profile.fileName, "/etc/querykit/" ++ Profile.fileName]

/-- The path of the first file, and what is found there. -/
def first? (env : Environment) (files : ProfileFiles) : Option (String × FileState) :=
  ((files.paths env).find? fun path => (files.state path).isFile).map fun path =>
    (path, files.state path)

end ProfileFiles

/-! ## Errors -/

/-- Why no profile is loaded. -/
inductive ProfileError where
  | noFile
  | unreadable (reason : String)
  | notMapping (path : String)
  | unknownProfile (name path available : String)
  | notBoolean (key : String) (given : Data)
  /-- The names of the profiles have no order. -/
  | unorderedNames (e : OrderError)
  /-- Data of the wrong type where names of profiles are expected. -/
  | unusableNames
  /-- An active profile that is no mapping. -/
  | unusableEntry
  /-- A list of profiles has no such place. -/
  | noSuchPlace
  /-- Bytes in place of the profiles have no such place. -/
  | noSuchByte
  /-- A number that is no byte is looked for among bytes. -/
  | noByte

namespace ProfileError

/-- The wording of an error, where it has one. -/
def message? : ProfileError → Option String
  | .noFile =>
    some (Profile.fileName ++ " not found in expected locations. " ++
      "Provide an explicit path or configure QUERYKIT_PROFILES_PATH.")
  | .unreadable reason => some reason
  | .notMapping path => some (path ++ " must contain a mapping at the top level.")
  | .unknownProfile name path available =>
    some ("Active profile '" ++ name ++ "' not found in " ++ Profile.fileName ++ " at " ++ path ++
      ". Available profiles: " ++ available ++ ".")
  | .notBoolean key given =>
    some ("Profile option " ++ Text.quoted key ++ " must be a boolean, got " ++ given.display ++
      ".")
  | .unorderedNames e => e.message?
  | .noSuchPlace => some "list index out of range"
  | .noSuchByte => some "index out of range"
  | .noByte => some "byte must be in range(0, 256)"
  | .unusableNames | .unusableEntry => none

/-- How a log record names an error after which the defaults are used; `none` for one that nothing
was prepared for. -/
def remark? (e : ProfileError) : Option String :=
  match e with
  | .unknownProfile .. => e.message?.map Text.quoted
  | .unreadable _ | .notMapping _ | .notBoolean .. | .noByte => e.message?
  | .noFile | .unorderedNames _ | .unusableNames | .unusableEntry | .noSuchPlace | .noSuchByte =>
    none

end ProfileError

/-! ## Loading -/

/-- The member of a mapping under a text. -/
def memberOf (key : String) (entries : List (Data × Data)) : Data :=
  match entries.find? fun e => e.1.same (.text key) with
  | some e => e.2
  | none => .null

/-- The names in ascending order, with commas between them. -/
def availableNames (names : List Data) : Except ProfileError String :=
  if names.isEmpty then .ok "(none)"
  else
    match sorted (Data.compares .less) names with
    | .error e => .error (.unorderedNames e)
    | .ok names =>
      match names.mapM Data.asText? with
      | some texts => .ok (", ".intercalate texts)
      | none => .error .unusableNames

/-- Whether a text has a part. -/
def hasPart (part : List Char) : List Char → Bool
  | [] => part.isEmpty
  | c :: rest => part.isPrefixOf (c :: rest) || hasPart part rest

/-- The element of a list at a place, which counts from the end if it is negative. -/
def elementAt? (items : List Data) (place : Int) : Option Data :=
  let place := if place < 0 then place + items.length else place
  if place < 0 then none else items[place.toNat]?

/-- Bytes as a list of numbers. -/
def numbersOf (octets : List UInt8) : List Data := octets.map fun b => .int b.toNat

/-- The entry of a list at the place that the active profile gives. -/
def entryAt (items : List Data) (active : Data) (missing : ProfileError) :
    Except ProfileError Data :=
  match active.asInt? with
  | some place =>
    match elementAt? items place with
    | some entry => .ok entry
    | none => .error missing
  | none => .error .unusableNames

/-- The data of the active profile, which is known to be among the profiles. -/
def entryOf (profiles active : Data) : Except ProfileError Data :=
  match profiles with
  | .dict entries => .ok ((entries.find? fun e => e.1.same active).elim .null (·.2))
  | .list items => entryAt items active .noSuchPlace
  | .bytes .fixed octets => entryAt (numbersOf octets) active .noSuchByte
  | _ => .error .unusableNames

/-- Whether data can be looked for in a set: what can be a key can, and so can a set. -/
def Data.isSought : Data → Bool
  | .set _ => true
  | d => d.isKey

/-- The names among which the active profile has to be, and whether it is. -/
def lookUp (profiles active : Data) : Except ProfileError (List Data × Bool) :=
  match profiles with
  | .dict entries =>
    if active.isKey then .ok (entries.map (·.1), entries.any fun e => e.1.same active)
    else .error .unusableNames
  | .list items => .ok (items, items.any active.same)
  | .set members =>
    if active.isSought then .ok (members, members.any active.same) else .error .unusableNames
  | .text s =>
    match active with
    | .text name =>
      .ok (s.toList.map fun c => .text (String.singleton c), hasPart name.toList s.toList)
    | _ => .error .unusableNames
  | .bytes .fixed octets =>
    match active.asInt? with
    | some n =>
      if 0 ≤ n ∧ n < 256 then .ok (numbersOf octets, (numbersOf octets).any active.same)
      else .error .noByte
    | none => .error .unusableNames
  | _ => .error .unusableNames

/-- The data of the active profile. -/
def activeEntry (path : String) (profiles active : Data) : Except ProfileError Data := do
  let (names, known) ← lookUp profiles active
  if known then entryOf profiles active
  else throw (.unknownProfile active.plain path (← availableNames names))

/-- A switch of a profile; one that is not there is off. -/
def profileSwitch (key : String) : Data → Except ProfileError Bool
  | .bool b => .ok b
  | .null => .ok false
  | d => .error (.notBoolean key d)

/-- The profile that an entry describes. -/
def Profile.ofEntry (name entry : Data) : Except ProfileError Profile := do
  match entry.orElse (.dict []) with
  | .dict options =>
    let dialect := (memberOf "default_dialect" options).orElse (.text "sqlite")
    let quoteAll ← profileSwitch "quote_all_identifiers" (memberOf "quote_all_identifiers" options)
    return ⟨name, Text.lower dialect.plain, quoteAll⟩
  | _ => throw .unusableEntry

/-- The active profile of the data in a file. -/
def Profile.ofContent (env : Environment) (path : String) (content : Data) :
    Except ProfileError Profile := do
  match content.orElse (.dict []) with
  | .dict top =>
    let active :=
      match env.text? "QUERYKIT_PROFILE" with
      | some name => .text name
      | none => (memberOf "active_profile" top).orElse (.text "dev")
    let profiles := (memberOf "profiles" top).orElse (.dict [])
    Profile.ofEntry active (← activeEntry path profiles active)
  | _ => throw (.notMapping path)

/-- The active profile of the first file. -/
def Profile.load (env : Environment) (files : ProfileFiles) : Except ProfileError Profile :=
  match files.first? env with
  | some (path, .content d) => Profile.ofContent env path d
  | some (_, .unreadable reason) => .error (.unreadable reason)
  | _ => .error .noFile

end SqlScribe
