import Verbs.Toml.Node

/-!
Numbers and dates of TOML. What begins with a sign or a digit is a date or a time if it begins like
one, else a float if a fraction or an exponent follows its first digits, else an integer.
-/

namespace Verbs.Toml

def isDigit (c : Char) : Bool := '0' ≤ c ∧ c ≤ '9'

def digitValue (c : Char) : Nat :=
  if isDigit c then c.toNat - 48 else if 'a' ≤ c then c.toNat - 87 else c.toNat - 55

def ofDigits (base : Nat) (digits : List Char) : Nat :=
  digits.foldl (fun n c => base * n + digitValue c) 0

def moreDigits? (p : Char → Bool) : List Char → Option (List Char × List Char)
  | [] => some ([], [])
  | '_' :: d :: r =>
    if p d then (moreDigits? p r).map fun (ds, r) => (d :: ds, r) else none
  | c :: r =>
    if c = '_' then none
    else if p c then (moreDigits? p r).map fun (ds, r) => (c :: ds, r)
    else some ([], c :: r)

/-- The digits of a number, one at least. -/
def digits? (p : Char → Bool) : List Char → Option (List Char × List Char)
  | [] => none
  | c :: r =>
    if p c then (moreDigits? p r).map fun (ds, r) => (c :: ds, r) else none

def sign : List Char → Bool × List Char
  | '+' :: r => (false, r)
  | '-' :: r => (true, r)
  | r => (false, r)

/-- The digits of a decimal integer: one zero, or digits that begin with another. -/
def decimalDigits? : List Char → Option (List Char × List Char)
  | '0' :: r => some (['0'], r)
  | cs => digits? isDigit cs

/-- The least number that is rounded to infinity as a float. -/
def floatBound : Nat := Nat.pow 2 1024 - Nat.pow 2 970

/-- Whether `m * 10 ^ e` is too large for a float. -/
def exceedsFloat (m : Nat) (digits : Nat) (e : Int) : Bool :=
  if m = 0 then false
  else if 0 ≤ e then 400 ≤ e ∨ floatBound ≤ m * Nat.pow 10 e.toNat
  else if digits < (-e).toNat then false
  else floatBound * Nat.pow 10 (-e).toNat ≤ m

def exponent? : List Char → Option (Int × List Char)
  | e :: r =>
    if e = 'e' ∨ e = 'E' then do
      let (minus, r) := sign r
      let (ds, r) ← digits? isDigit r
      let n : Int := ofDigits 10 ds
      return (if minus then -n else n, r)
    else none
  | [] => none

/-- A float that is infinite or not a number. -/
def specialFloat? (cs : List Char) : Option (List Char) :=
  match (sign cs).2 with
  | 'i' :: 'n' :: 'f' :: r => some r
  | 'n' :: 'a' :: 'n' :: r => some r
  | _ => none

/-- The float that `whole` begins, with its fraction and exponent; positive floats must be finite.
-/
def float? (minus : Bool) (whole : List Char) (cs : List Char) : Option (Node × List Char) := do
  let (fraction, r) ← match cs with
    | '.' :: r => digits? isDigit r
    | r => some ([], r)
  let (e, r) ← match r with
    | c :: _ => if c = 'e' ∨ c = 'E' then exponent? r else some (0, r)
    | [] => some (0, r)
  let all := whole ++ fraction
  if ¬ minus ∧ exceedsFloat (ofDigits 10 all) all.length (e - fraction.length) then none
  else some (.float, r)

/-- The integer with the given digits, if it fits 64 bits with a sign. -/
def integer? (minus : Bool) (n : Nat) : Option Node :=
  if minus then if n ≤ UInt64.size / 2 then some (.integer (-n)) else none
  else if n < UInt64.size / 2 then some (.integer n) else none

def isHexDigit (c : Char) : Bool := isDigit c ∨ ('a' ≤ c ∧ c ≤ 'f') ∨ ('A' ≤ c ∧ c ≤ 'F')

def based? (base : Nat) (p : Char → Bool) (cs : List Char) : Option (Node × List Char) := do
  let (ds, r) ← digits? p cs
  let n ← integer? false (ofDigits base ds)
  return (n, r)

def fixedDigits? (n : Nat) (cs : List Char) : Option (Nat × List Char) :=
  if n ≤ cs.length ∧ (cs.take n).all isDigit then some (ofDigits 10 (cs.take n), cs.drop n)
  else none

/-- A number of exactly two digits between two bounds. -/
def twoDigits? (low high : Nat) (cs : List Char) : Option (Nat × List Char) := do
  let (n, r) ← fixedDigits? 2 cs
  if low ≤ n ∧ n ≤ high then some (n, r) else none

def daysIn (year month : Nat) : Nat :=
  if month = 2 then if year % 4 = 0 ∧ (year % 100 ≠ 0 ∨ year % 400 = 0) then 29 else 28
  else if month = 4 ∨ month = 6 ∨ month = 9 ∨ month = 11 then 30
  else 31

def after? (c : Char) : List Char → Option (List Char)
  | d :: r => if d = c then some r else none
  | [] => none

/-- The rest of a date after its year and the dash. -/
def monthAndDay? (year : Nat) (cs : List Char) : Option (List Char) := do
  let (month, r) ← twoDigits? 1 12 cs
  let r ← after? '-' r
  let (day, r) ← twoDigits? 1 31 r
  if day ≤ daysIn year month then some r else none

/-- The text after the fraction of a second, if there is one. -/
def skipFraction : List Char → List Char
  | '.' :: d :: r => if isDigit d then r.dropWhile isDigit else '.' :: d :: r
  | cs => cs

/-- The rest of a time after its hour and the colon. -/
def minuteAndSecond? (cs : List Char) : Option (List Char) := do
  let (_, r) ← twoDigits? 0 59 cs
  let r ← after? ':' r
  let (_, r) ← twoDigits? 0 60 r
  return skipFraction r

/-- A time of day: nothing where the text does not begin like one, `some none` where it does but is
wrong. -/
def time? (cs : List Char) : Option (Option (List Char)) := do
  let (_, r) ← twoDigits? 0 23 cs
  let r ← after? ':' r
  return minuteAndSecond? r

/-- The rest of a date and time after the time: an offset, if there is one. -/
def offset? (cs : List Char) : Option (List Char) :=
  match cs with
  | 'Z' :: r | 'z' :: r => some r
  | c :: r =>
    if c = '+' ∨ c = '-' then do
      let (_, r) ← twoDigits? 0 23 r
      let r ← after? ':' r
      let (_, r) ← twoDigits? 0 59 r
      return r
    else some cs
  | [] => some []

/-- A date, a time, or both: nothing where the text does not begin like one, `some none` where it
does but is wrong. -/
def datetime? (cs : List Char) : Option (Option (List Char)) :=
  match (do
    let (year, r) ← fixedDigits? 4 cs
    let r ← after? '-' r
    return (year, r)) with
  | none => time? cs
  | some (year, r) => some do
    let r ← monthAndDay? year r
    match r with
    | c :: rest =>
      if c = 'T' ∨ c = 't' ∨ c = ' ' then
        match time? rest with
        | none => some r
        | some none => none
        | some (some rest) => offset? rest
      else some r
    | [] => some r

def number? (cs : List Char) : Option (Node × List Char) :=
  match datetime? cs with
  | some d => d.map fun r => (.datetime, r)
  | none =>
    match cs with
    | '0' :: 'x' :: r => based? 16 isHexDigit r
    | '0' :: 'o' :: r => based? 8 (fun c => '0' ≤ c ∧ c ≤ '7') r
    | '0' :: 'b' :: r => based? 2 (fun c => c = '0' ∨ c = '1') r
    | _ =>
      match specialFloat? cs with
      | some r => some (.float, r)
      | none => do
        let (minus, r) := sign cs
        let (whole, r) ← decimalDigits? r
        match r with
        | c :: _ =>
          if c = '.' ∨ c = 'e' ∨ c = 'E' then float? minus whole r
          else (integer? minus (ofDigits 10 whole)).map fun n => (n, r)
        | [] => (integer? minus (ofDigits 10 whole)).map fun n => (n, r)

end Verbs.Toml
