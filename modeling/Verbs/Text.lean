import Verbs.Bytes

/-!
The written form of records: `Name { field: value, field: value }`, `Name(value)`, `Some(value)` and
`None`, and byte strings between quotes.
-/

namespace Verbs.Text

def record (name : String) (fields : List (String × String)) : String :=
  let body := fields.map fun (field, value) => field ++ ": " ++ value
  name ++ " \x7b " ++ ", ".intercalate body ++ " \x7d"

def wrapped (name value : String) : String := name ++ "(" ++ value ++ ")"

def optional (value : Option String) : String :=
  match value with
  | none => "None"
  | some v => wrapped "Some" v

def bool (b : Bool) : String := if b then "true" else "false"

/-- A digit of a hexadecimal number, in lower case. -/
def hexDigit (n : Nat) : Char :=
  if n < 10 then Char.ofNat (48 + n) else Char.ofNat (87 + n)

/-- A byte as two hexadecimal digits. -/
def hexByte (b : UInt8) : String :=
  String.ofList [hexDigit (b.toNat / 16), hexDigit (b.toNat % 16)]

/-- How one byte stands in a quoted byte string. -/
def quotedByte (b : UInt8) : String :=
  match b.toNat with
  | 0 => "\\0"
  | 9 => "\\t"
  | 10 => "\\n"
  | 13 => "\\r"
  | 34 => "\\\""
  | 92 => "\\\\"
  | n => if 0x20 ≤ n ∧ n < 0x7f then String.singleton (Char.ofNat n) else "\\x" ++ hexByte b

/-- A byte string between quotes: printable characters stand for themselves. -/
def quoted (bs : Bytes) : String := "b\"" ++ String.join (bs.map quotedByte) ++ "\""

end Verbs.Text
