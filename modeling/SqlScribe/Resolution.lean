import SqlScribe.Dialect.Identifier
import SqlScribe.Log
import SqlScribe.Profile

/-!
# Which dialect is active

The dialect is the one that is asked for; else the one that the environment names; else the default
of the active profile; else SQLite. The profile is only looked at where it decides. Whether every
name is quoted is said by the environment, or else by the profile if the profile was looked at.

A profile that cannot be loaded is reported and passed over.
-/

namespace SqlScribe

/-- Why no dialect is active. -/
inductive ResolutionError where
  | unknownDialect (name : String)
  /-- A profile with a flaw that nothing was prepared for. -/
  | profile (e : ProfileError)

namespace ResolutionError

/-- The wording of an error, where it has one. -/
def message? : ResolutionError → Option String
  | .unknownDialect name =>
    some ("Unknown SQL dialect: " ++ Text.quoted name ++ ". Available dialects: " ++
      ", ".intercalate (Dialect.all.map Dialect.name) ++ ".")
  | .profile e => e.message?

end ResolutionError

namespace Dialect

/-- Other names of dialects. -/
def otherNames : List (String × Dialect) :=
  [("sqlite3", .sqlite), ("mariadb", .mysql), ("postgresql", .postgres), ("pg", .postgres),
    ("sqlserver", .mssql), ("tsql", .mssql)]

/-- A name without blanks around it and in lower case. -/
def normalName (s : String) : String := Text.lower (Text.strip s)

/-- The dialect that a spelling names. -/
def ofSpelling? (s : String) : Option Dialect :=
  (otherNames.lookup (normalName s)).or (ofName? (normalName s))

end Dialect

/-- The style that a spelling and a setting give. -/
def Style.ofSpelling (spelling : String) (quoteAll : Bool) : Except ResolutionError Style :=
  match Dialect.ofSpelling? spelling with
  | some d => .ok ⟨d, quoteAll⟩
  | none => .error (.unknownDialect (Dialect.normalName spelling))

/-- The record that tells where a dialect comes from. -/
def selected (spelling source : String) : LogRecord :=
  ⟨.debug, "SQL dialect " ++ Text.quoted spelling ++ " selected " ++ source⟩

/-- The spelling that the caller or the environment gives, and which of them. -/
def givenSpelling? (env : Environment) (name : Option String) : Option (String × String) :=
  match name with
  | none | some "" =>
    ((env.text? "QUERYKIT_SQL_DIALECT").or (env.text? "QUERYKIT_DIALECT")).map fun s =>
      (s, "from environment")
  | some s => some (s, "explicitly")

/-- The name of the dialect that nothing has to be said for. -/
def fallbackName : String := Dialect.sqlite.name

/-- The style that the profile gives, or the fallback. -/
def styleOfProfile (env : Environment) (files : ProfileFiles) :
    Logged (Except ResolutionError Style) :=
  let switch := env.switch? "QUERYKIT_QUOTE_ALL_IDENTIFIERS"
  let fallback := Style.ofSpelling fallbackName (switch.getD false)
  let fallbackRecord := selected fallbackName "as fallback"
  match Profile.load env files with
  | .ok p =>
    ⟨Style.ofSpelling p.defaultDialect (switch.getD p.quoteAll),
      [selected p.defaultDialect ("from profile " ++ p.name.display)]⟩
  | .error .noFile =>
    ⟨fallback,
      [⟨.debug, "No querykit profile file found; using built-in defaults"⟩, fallbackRecord]⟩
  | .error e =>
    match e.remark? with
    | some remark =>
      ⟨fallback,
        [⟨.warning, "Could not load querykit profile, using built-in defaults: " ++ remark⟩,
          fallbackRecord]⟩
    | none => ⟨.error (.profile e), []⟩

/-- The active style. -/
def activeStyle (env : Environment) (files : ProfileFiles) (name : Option String) :
    Logged (Except ResolutionError Style) :=
  match givenSpelling? env name with
  | some (spelling, source) =>
    let switch := env.switch? "QUERYKIT_QUOTE_ALL_IDENTIFIERS"
    ⟨Style.ofSpelling spelling (switch.getD false), [selected spelling source]⟩
  | none => styleOfProfile env files

end SqlScribe
