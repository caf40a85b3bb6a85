/-!
The leaves of TOML text, read from the front of a list of characters: blanks, comments, ends of
lines, and quoted strings. Each reader yields what it read and the rest, or nothing where the text
is not well-formed.
-/

namespace Verbs.Toml

def isBlank (c : Char) : Bool := c = ' ' ∨ c = '\t'

def isNonAscii (c : Char) : Bool := 0x80 ≤ c.toNat

def isCommentChar (c : Char) : Bool := c = '\t' ∨ (0x20 ≤ c.toNat ∧ c.toNat ≤ 0x7e) ∨ isNonAscii c

/-- Characters that stand for themselves between double quotes. -/
def isBasicChar (c : Char) : Bool := isCommentChar c ∧ c ≠ '"' ∧ c ≠ '\\'

/-- Characters that stand for themselves between single quotes. -/
def isLiteralChar (c : Char) : Bool := isCommentChar c ∧ c ≠ '\''

/-- Characters of a bare key. -/
def isBareKeyChar (c : Char) : Bool := c.isAlphanum ∨ c = '-' ∨ c = '_'

def skipBlanks (cs : List Char) : List Char := cs.dropWhile isBlank

def newline? : List Char → Option (List Char)
  | '\n' :: r => some r
  | '\r' :: '\n' :: r => some r
  | _ => none

def skipComment : List Char → List Char
  | '#' :: r => r.dropWhile isCommentChar
  | cs => cs

/-- The text after what may follow on a line: blanks, a comment, and the end of the line or of the
text. -/
def lineEnd? (cs : List Char) : Option (List Char) :=
  match skipComment (skipBlanks cs) with
  | [] => some []
  | rest => newline? rest

def skipLines : (fuel : Nat) → List Char → List Char
  | 0, cs => cs
  | fuel + 1, cs =>
    let rest := skipComment (skipBlanks cs)
    match newline? rest with
    | some rest => skipLines fuel rest
    | none => rest

def hexValue? (c : Char) : Option Nat :=
  if '0' ≤ c ∧ c ≤ '9' then some (c.toNat - 48)
  else if 'a' ≤ c ∧ c ≤ 'f' then some (c.toNat - 87)
  else if 'A' ≤ c ∧ c ≤ 'F' then some (c.toNat - 55)
  else none

/-- The character with a code point in `n` hexadecimal digits; surrogates are none. -/
def codePoint? (n : Nat) (cs : List Char) : Option (Char × List Char) := do
  let digits ← (cs.take n).mapM hexValue?
  let code := digits.foldl (fun v d => 16 * v + d) 0
  if digits.length = n ∧ (code < 0xd800 ∨ (0xdfff < code ∧ code < 0x110000)) then
    some (Char.ofNat code, cs.drop n)
  else none

/-- The character that an escape after a backslash stands for. -/
def escape? : List Char → Option (Char × List Char)
  | 'b' :: r => some (Char.ofNat 8, r)
  | 't' :: r => some ('\t', r)
  | 'n' :: r => some ('\n', r)
  | 'f' :: r => some (Char.ofNat 12, r)
  | 'r' :: r => some ('\r', r)
  | '"' :: r => some ('"', r)
  | '\\' :: r => some ('\\', r)
  | 'u' :: r => codePoint? 4 r
  | 'U' :: r => codePoint? 8 r
  | _ => none

/-- The rest of a string between double quotes on one line. -/
def basicString? : (fuel : Nat) → List Char → Option (List Char × List Char)
  | 0, _ => none
  | _ + 1, [] => none
  | _ + 1, '"' :: r => some ([], r)
  | fuel + 1, '\\' :: r => do
    let (c, r) ← escape? r
    let (s, r) ← basicString? fuel r
    return (c :: s, r)
  | fuel + 1, c :: r =>
    if isBasicChar c then do
      let (s, r) ← basicString? fuel r
      return (c :: s, r)
    else none

def literalString? : List Char → Option (List Char × List Char)
  | [] => none
  | '\'' :: r => some ([], r)
  | c :: r =>
    if isLiteralChar c then do
      let (s, r) ← literalString? r
      return (c :: s, r)
    else none

/-- The text after a backslash at the end of a line, up to `fuel` further lines. -/
def joinLines? (fuel : Nat) (cs : List Char) : Option (List Char) :=
  (newline? (skipBlanks cs)).map fun rest => go fuel rest
where
  /-- Skip blank lines and the blanks of the line that follows them. -/
  go : Nat → List Char → List Char
    | 0, cs => cs
    | fuel + 1, cs =>
      match newline? (skipBlanks cs) with
      | some rest => go fuel rest
      | none => skipBlanks cs

def quoteRun (q : Char) (cs : List Char) : Nat := (cs.takeWhile (· = q)).length

/-- The rest of a string between triple quotes `q`. One or two quotes stand for themselves; three
end the string, and up to two more before them belong to it. -/
def multiLine? (q : Char) : (fuel : Nat) → List Char → Option (List Char × List Char)
  | 0, _ => none
  | _ + 1, [] => none
  | fuel + 1, c :: r =>
    if c = q then
      let run := quoteRun q (c :: r)
      if run < 3 then do
        let (s, r) ← multiLine? q fuel ((c :: r).drop run)
        return (List.replicate run q ++ s, r)
      else
        let n := min run 5
        some (List.replicate (n - 3) q, (c :: r).drop n)
    else if c = '\\' ∧ q = '"' then
      match joinLines? r.length r with
      | some r => multiLine? q fuel r
      | none => do
        let (c, r) ← escape? r
        let (s, r) ← multiLine? q fuel r
        return (c :: s, r)
    else
      match newline? (c :: r) with
      | some r => do
        let (s, r) ← multiLine? q fuel r
        return ('\n' :: s, r)
      | none =>
        if isCommentChar c then do
          let (s, r) ← multiLine? q fuel r
          return (c :: s, r)
        else none

def skipNewline (cs : List Char) : List Char := (newline? cs).getD cs

def string? (cs : List Char) : Option (String × List Char) :=
  let read := match cs with
    | '"' :: '"' :: '"' :: r => multiLine? '"' (r.length + 1) (skipNewline r)
    | '"' :: r => basicString? (r.length + 1) r
    | '\'' :: '\'' :: '\'' :: r => multiLine? '\'' (r.length + 1) (skipNewline r)
    | '\'' :: r => literalString? r
    | _ => none
  read.map fun (s, r) => (String.ofList s, r)

/-- One key: bare, or a quoted string on one line. -/
def simpleKey? (cs : List Char) : Option (String × List Char) :=
  match cs with
  | '"' :: r => (basicString? (r.length + 1) r).map fun (s, r) => (String.ofList s, r)
  | '\'' :: r => (literalString? r).map fun (s, r) => (String.ofList s, r)
  | _ =>
    match cs.takeWhile isBareKeyChar with
    | [] => none
    | key => some (String.ofList key, cs.dropWhile isBareKeyChar)

/-- Keys joined by dots, with blanks around each. -/
def dottedKey? : (fuel : Nat) → List Char → Option (List String × List Char)
  | 0, _ => none
  | fuel + 1, cs => do
    let (key, r) ← simpleKey? (skipBlanks cs)
    match skipBlanks r with
    | '.' :: r =>
      let (keys, r) ← dottedKey? fuel r
      return (key :: keys, r)
    | r => return ([key], r)

/-- The most keys that may be joined by dots. -/
def maxKeys : Nat := 79

/-- A key of a pair or of a header: its parents, and the last key. -/
def key? (cs : List Char) : Option ((List String × String) × List Char) := do
  let (keys, r) ← dottedKey? (cs.length + 1) cs
  let last ← keys.getLast?
  if keys.length ≤ maxKeys then some ((keys.dropLast, last), r) else none

end Verbs.Toml
