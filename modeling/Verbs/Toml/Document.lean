import Verbs.Toml.Number
import Verbs.Toml.Scan

/-!
Whole TOML documents: values, lines of keys and values, and headers. The table of the last header is
kept apart until the next header puts it in its place.
-/

namespace Verbs.Toml

abbrev ValueReader := List Char → Option (Node × List Char)

/-- The rest of an array: values between commas, with blanks, comments and ends of lines anywhere.
-/
def arrayItems? (value : ValueReader) : (fuel : Nat) → List Char → Option (List Node × List Char)
  | 0, _ => none
  | fuel + 1, cs =>
    match skipLines cs.length cs with
    | ']' :: r => some ([], r)
    | cs => do
      let (v, r) ← value cs
      match skipLines r.length r with
      | ',' :: r =>
        let (vs, r) ← arrayItems? value fuel r
        return (v :: vs, r)
      | ']' :: r => return ([v], r)
      | _ => none

def inlinePair? (value : ValueReader) (cs : List Char) :
    Option ((List String × String) × Node × List Char) := do
  let (key, r) ← key? cs
  let r ← after? '=' r
  let (v, r) ← value (skipBlanks r)
  return (key, v, skipBlanks r)

/-- The rest of a table between braces, on one line and without a comma at its end. -/
def inlinePairs? (value : ValueReader) : (fuel : Nat) → Entries → List Char →
    Option (Entries × List Char)
  | 0, _, _ => none
  | fuel + 1, es, cs => do
    let ((path, key), v, r) ← inlinePair? value cs
    let es ← es.insertInline path key v
    match r with
    | ',' :: r => inlinePairs? value fuel es r
    | '}' :: r => some (es, r)
    | _ => none

/-- A value, with arrays and braces nested less than `depth` deep. -/
def value? : (depth : Nat) → List Char → Option (Node × List Char)
  | 0, _ => none
  | depth + 1, cs =>
    match cs with
    | '"' :: _ | '\'' :: _ => (string? cs).map fun (s, r) => (.string s, r)
    | '[' :: r =>
      if depth = 0 then none
      else (arrayItems? (value? depth) (r.length + 1) r).map fun (vs, r) => (.array vs, r)
    | '{' :: r =>
      if depth = 0 then none
      else
        match skipBlanks r with
        | '}' :: r => some (.inline .defined [], r)
        | _ =>
          (inlinePairs? (value? depth) (r.length + 1) [] r).map fun (es, r) =>
            (.inline .defined es, r)
    | 't' :: 'r' :: 'u' :: 'e' :: r => some (.boolean true, r)
    | 'f' :: 'a' :: 'l' :: 's' :: 'e' :: r => some (.boolean false, r)
    | _ => number? cs

/-- The nesting of values that is read at most. -/
def maxDepth : Nat := 80

/-- A document in the making: the tables put in place, and the one that lines still add to. -/
structure Draft where
  root : Entries := []
  parents : List String := []
  /-- The last key of the header; none before the first header. -/
  key : Option String := none
  isElement : Bool := false
  current : Entries := []

namespace Draft

def close (d : Draft) : Option Entries :=
  match d.key with
  | none => some d.current
  | some key =>
    d.root.within d.parents fun es =>
      if d.isElement then es.closeElement key d.current else es.closeTable key d.current

def openTable (d : Draft) (parents : List String) (key : String) : Option Draft := do
  let root ← d.close
  -- the parents come into being with the header, even if its table is refused
  let root ← root.within parents some
  match ← root.find? parents key with
  | none => return { root, parents, key := some key }
  | some (.table .implied content) =>
    return { root, parents, key := some key, current := content }
  | some _ => none

/-- Begin one more element of an array of tables. -/
def openElement (d : Draft) (parents : List String) (key : String) : Option Draft := do
  let root ← d.close
  let root ← root.within parents some
  match ← root.find? parents key with
  | none | some (.tables _) => return { root, parents, key := some key, isElement := true }
  | some _ => none

end Draft

/-- Read lines into a draft, `fuel` at most. -/
def lines? : (fuel : Nat) → Draft → List Char → Option Draft
  | 0, _, _ => none
  | fuel + 1, d, cs =>
    match skipBlanks cs with
    | [] => some d
    | '[' :: '[' :: r => do
      let ((parents, key), r) ← key? r
      let r ← (after? ']' r).bind (after? ']')
      let r ← lineEnd? r
      let d ← d.openElement parents key
      lines? fuel d r
    | '[' :: r => do
      let ((parents, key), r) ← key? r
      let r ← after? ']' r
      let r ← lineEnd? r
      let d ← d.openTable parents key
      lines? fuel d r
    | c :: r =>
      if c = '#' ∨ c = '\n' ∨ c = '\r' then do
        let r ← lineEnd? (c :: r)
        lines? fuel d r
      else do
        let ((path, key), r) ← key? (c :: r)
        let r ← after? '=' r
        let (v, r) ← value? maxDepth (skipBlanks r)
        let r ← lineEnd? r
        let current ← d.current.insertDotted path key v
        lines? fuel { d with current } r

def skipMark : List Char → List Char
  | c :: r => if c.toNat = 0xfeff then r else c :: r
  | [] => []

def parse? (text : String) : Option Entries := do
  let cs := skipMark text.toList
  let d ← lines? (cs.length + 1) {} cs
  d.close

end Verbs.Toml
