/-!
TOML documents as trees. A table remembers how it came about, because that decides which later
headers and dotted keys may add to it: `insertDotted`, `openTable` and `openElement` say which.
-/

namespace Verbs.Toml

/-- How a table came about. -/
inductive Origin where
  /-- By a header of its own, or in braces. -/
  | defined
  /-- As a parent in the header of another table. -/
  | implied
  /-- By a dotted key. -/
  | dotted
  deriving DecidableEq, Repr

/-- A value in a document. Floats and dates are read for their form alone. -/
inductive Node where
  | string (text : String)
  | integer (value : Int)
  | float
  | boolean (value : Bool)
  | datetime
  | array (items : List Node)
  | inline (origin : Origin) (entries : List (String × Node))
  | table (origin : Origin) (entries : List (String × Node))
  | tables (elements : List (List (String × Node)))
  deriving Repr

abbrev Entries := List (String × Node)

namespace Entries

def get? (es : Entries) (key : String) : Option Node := es.lookup key

def replace (es : Entries) (key : String) (v : Node) : Entries :=
  es.map fun (k, w) => if k = key then (k, v) else (k, w)

/-- The entries with a new one, whose key must be new. -/
def insertNew (es : Entries) (key : String) (v : Node) : Option Entries :=
  match es.get? key with
  | some _ => none
  | none => some (es ++ [(key, v)])

/-- Insert a value below a path of dotted keys. The tables on the way are made as needed; the last
one must be a dotted one, and none of them one that is defined elsewhere. -/
def insertDotted (es : Entries) (path : List String) (key : String) (v : Node) : Option Entries :=
  match path with
  | [] => es.insertNew key v
  | k :: ks =>
    match es.get? k with
    | none => (insertDotted [] ks key v).map fun sub => es ++ [(k, .table .dotted sub)]
    | some (.table .dotted sub) =>
      (insertDotted sub ks key v).map fun sub => es.replace k (.table .dotted sub)
    | some (.table .implied sub) =>
      if ks = [] then none
      else (insertDotted sub ks key v).map fun sub => es.replace k (.table .implied sub)
    | some (.tables elements) =>
      match elements.getLast?, ks with
      | some last, _ :: _ =>
        (insertDotted last ks key v).map fun last =>
          es.replace k (.tables (elements.dropLast ++ [last]))
      | _, _ => none
    | some _ => none

/-- Insert a value below a path of dotted keys, between braces. -/
def insertInline (es : Entries) (path : List String) (key : String) (v : Node) : Option Entries :=
  match path with
  | [] => es.insertNew key v
  | k :: ks =>
    match es.get? k with
    | none => (insertInline [] ks key v).map fun sub => es ++ [(k, .inline .dotted sub)]
    | some (.inline .dotted sub) =>
      (insertInline sub ks key v).map fun sub => es.replace k (.inline .dotted sub)
    | some _ => none

/-- Change the table that the parents in a header lead to. Parents are made as needed; in an array
of tables the way leads through its last element. -/
def within (es : Entries) (path : List String) (f : Entries → Option Entries) : Option Entries :=
  match path with
  | [] => f es
  | k :: ks =>
    match es.get? k with
    | none => (within [] ks f).map fun sub => es ++ [(k, .table .implied sub)]
    | some (.table origin sub) =>
      (within sub ks f).map fun sub => es.replace k (.table origin sub)
    | some (.tables elements) =>
      match elements.getLast? with
      | some last =>
        (within last ks f).map fun last => es.replace k (.tables (elements.dropLast ++ [last]))
      | none => none
    | some _ => none

/-- Put a table that a header opened under its key. -/
def closeTable (es : Entries) (key : String) (content : Entries) : Option Entries :=
  match es.get? key with
  | none => some (es ++ [(key, .table .defined content)])
  | some (.table .implied _) => some (es.replace key (.table .defined content))
  | some _ => none

/-- Put one more table into an array of tables. -/
def closeElement (es : Entries) (key : String) (content : Entries) : Option Entries :=
  match es.get? key with
  | none => some (es ++ [(key, .tables [content])])
  | some (.tables elements) => some (es.replace key (.tables (elements ++ [content])))
  | some _ => none

def find? (es : Entries) (path : List String) (key : String) : Option (Option Node) :=
  match path with
  | [] => some (es.get? key)
  | k :: ks =>
    match es.get? k with
    | none => some none
    | some (.table _ sub) => find? sub ks key
    | some (.tables elements) =>
      match elements.getLast? with
      | some last => find? last ks key
      | none => none
    | some _ => none

end Entries

end Verbs.Toml
