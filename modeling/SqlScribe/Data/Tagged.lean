import SqlScribe.Calendar.Reader
import SqlScribe.Data
import SqlScribe.Number.DoubleReader
import SqlScribe.Number.Shortest
import SqlScribe.Text.Digits

/-!
# Tagged scalars

Scalars without a plain notation are written as a text beside a tag that names their type. Bytes are
written as pairs of hexadecimal digits, whatever shape they were handed over in.
-/

namespace SqlScribe.Data

/-- The tag and the text of a scalar. -/
def tagged? : Data → Option (String × String)
  | .float x => some ("float", x.text)
  | .bytes _ octets => some ("bytes", Text.bytesText octets)
  | .decimal w => some ("decimal", w.text)
  | .uuid u => some ("uuid", u.text)
  | .date d => some ("date", d.text)
  | .dateTime t => some ("datetime", t.text)
  | .time t => some ("time", t.text)
  | _ => none

/-- The scalar with a tag and a text, where the text can be read. -/
def ofTagged? (tag text : String) : Option Data :=
  match tag with
  | "float" => (Double.ofText? text).map .float
  | "bytes" => (Text.readBytes? text.toList).map (.bytes .fixed)
  | "bytearray" => (Text.readBytes? text.toList).map (.bytes .growable)
  | "memoryview" => (Text.readBytes? text.toList).map (.bytes .view)
  | "decimal" => (DecimalWord.ofText? text).map .decimal
  | "uuid" => (Uuid.ofText? text).map .uuid
  | "date" => (Date.ofText? text).map .date
  | "datetime" => (DateTime.ofText? text).map .dateTime
  | "time" => (Time.ofText? text).map .time
  | _ => none

end SqlScribe.Data
