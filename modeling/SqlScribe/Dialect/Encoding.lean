import SqlScribe.RenderError

/-!
# Values for drivers

What a driver is handed for a bound value. Most values travel as the data that they carry, JSON as
its text. SQLite knows no times, identifiers or decimals and gets them as texts; MySQL and SQL
Server get identifiers as texts and truth values as integers; only PostgreSQL takes arrays.
-/

namespace SqlScribe.Dialect

mutual

/-- The data that a driver is handed for a value. -/
def encode (d : Dialect) : Value → Rendered Data
  | .null => .ok .null
  | .int64 n => .ok (.int n.toInt)
  | .float64 x => .ok (.float x)
  | .text s | .enum s | .xml s | .json s => .ok (.text s)
  | .bytes octets => .ok (.bytes .fixed octets)
  | .bool b =>
    match d with
    | .mysql | .mssql => .ok (.int (if b then 1 else 0))
    | .sqlite | .postgres => .ok (.bool b)
  | .dateTime t => .ok (if d = .sqlite then .text t.text else .dateTime t)
  | .date t => .ok (if d = .sqlite then .text t.text else .date t)
  | .time t => .ok (if d = .sqlite then .text t.text else .time t)
  | .uuid u => .ok (if d = .postgres then .uuid u else .text u.text)
  | .decimal x => .ok (if d = .sqlite then .text x.text else .decimal (.finite x))
  | .array items =>
    if d.hasArrays then do return .list (← encodeAll d items) else lacks d .arrayValue

/-- The data for a list of values. -/
def encodeAll (d : Dialect) : List Value → Rendered (List Data)
  | [] => .ok []
  | v :: rest => do
    let x ← encode d v
    return x :: (← encodeAll d rest)

end

end SqlScribe.Dialect
