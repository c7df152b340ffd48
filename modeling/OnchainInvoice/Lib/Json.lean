import Mathlib.Algebra.Order.Field.Rat
import Mathlib.Tactic.Common

/-!
# JSON texts

Values, the text `JSON.stringify` writes for a value, and the reader `JSON.parse`.  A number is
kept as the literal that is written for it, so that no rounding comes in; an object keeps its
members as they are written, and the last of several members with one name is the one that counts.
-/

namespace Lib.Json

abbrev Text := List Char

/-! ## Values -/

structure Literal where
  negative : Bool
  whole : Nat
  fraction : List (Fin 10)
  exponent : Int
deriving DecidableEq, Repr

def Literal.ofInt (n : Int) : Literal := ⟨decide (n < 0), n.natAbs, [], 0⟩

def Literal.value (l : Literal) : ℚ :=
  let digits := l.fraction.foldl (fun n d => 10 * n + d.val) l.whole
  (if l.negative then -1 else 1) * (digits : ℚ) * 10 ^ (l.exponent - (l.fraction.length : ℤ))

theorem Literal.value_ofInt (n : Int) : (Literal.ofInt n).value = n := by
  simp only [value, ofInt, List.foldl_nil, List.length_nil, decide_eq_true_eq]
  split
  · have habs : n = -(n.natAbs : Int) := by omega
    have hcast : (n : ℚ) = -(n.natAbs : ℚ) := by
      rw [← Int.cast_natCast, ← Int.cast_neg, ← habs]
    rw [hcast]
    generalize (n.natAbs : ℚ) = size
    simp
  · have habs : n = (n.natAbs : Int) := by omega
    have hcast : (n : ℚ) = (n.natAbs : ℚ) := by
      rw [← Int.cast_natCast, ← habs]
    rw [hcast]
    generalize (n.natAbs : ℚ) = size
    simp

inductive Value where
  | null
  | bool (b : Bool)
  | number (literal : Literal)
  | string (chars : Text)
  | array (items : List Value)
  | object (members : List (Text × Value))

/-- What holds of a value once it holds of its parts. -/
theorem Value.induct {P : Value → Prop} (null : P .null) (bool : ∀ b, P (.bool b))
    (number : ∀ literal, P (.number literal)) (string : ∀ chars, P (.string chars))
    (array : ∀ items, (∀ v ∈ items, P v) → P (.array items))
    (object : ∀ members, (∀ m ∈ members, P m.2) → P (.object members)) (v : Value) : P v := by
  apply Value.rec (motive_1 := P) (motive_2 := fun items => ∀ v ∈ items, P v)
    (motive_3 := fun members => ∀ m ∈ members, P m.2) (motive_4 := fun m => P m.2)
  · exact null
  · exact bool
  · exact number
  · exact string
  · exact array
  · exact object
  · simp
  · intro v items hv hitems w hw
    rcases List.mem_cons.mp hw with rfl | hw
    · exact hv
    · exact hitems w hw
  · simp
  · intro m members hm hmembers m' hm'
    rcases List.mem_cons.mp hm' with rfl | hm'
    · exact hm
    · exact hmembers m' hm'
  · intro name v hv
    exact hv

-- `value.name`, which is undefined for what is not an object.
def Value.get? (name : Text) : Value → Option Value
  | .object members => (members.reverse.find? fun m => m.1 = name).map Prod.snd
  | _ => none

/-! ## Writing -/

def hexDigits (n : Nat) : Text :=
  [(n / 4096 % 16).digitChar, (n / 256 % 16).digitChar, (n / 16 % 16).digitChar,
    (n % 16).digitChar]

def escape (c : Char) : Text :=
  if c = '"' then ['\\', '"']
  else if c = '\\' then ['\\', '\\']
  else if c = '\x08' then ['\\', 'b']
  else if c = '\x09' then ['\\', 't']
  else if c = '\x0a' then ['\\', 'n']
  else if c = '\x0c' then ['\\', 'f']
  else if c = '\x0d' then ['\\', 'r']
  else if c.toNat < 0x20 then '\\' :: 'u' :: hexDigits c.toNat
  else [c]

def quote (chars : Text) : Text := '"' :: (chars.flatMap escape ++ ['"'])

def Literal.stringify (l : Literal) : Text :=
  (if l.negative then ['-'] else []) ++ Nat.toDigits 10 l.whole ++
    (if l.fraction = [] then [] else '.' :: l.fraction.map fun d => d.val.digitChar) ++
    (if l.exponent = 0 then []
      else 'e' :: (if l.exponent < 0 then '-' else '+') :: Nat.toDigits 10 l.exponent.natAbs)

-- The items of an array or an object after the opening bracket.
def joined (close : Char) : List Text → Text
  | [] => [close]
  | t :: ts => t ++ (ts.flatMap (',' :: ·) ++ [close])

mutual

def stringify : Value → Text
  | .null => ['n', 'u', 'l', 'l']
  | .bool true => ['t', 'r', 'u', 'e']
  | .bool false => ['f', 'a', 'l', 's', 'e']
  | .number literal => literal.stringify
  | .string chars => quote chars
  | .array items => '[' :: joined ']' (stringifyItems items)
  | .object members => '{' :: joined '}' (stringifyMembers members)

def stringifyItems : List Value → List Text
  | [] => []
  | v :: items => stringify v :: stringifyItems items

def stringifyMembers : List (Text × Value) → List Text
  | [] => []
  | (name, v) :: members => (quote name ++ ':' :: stringify v) :: stringifyMembers members

end

theorem stringifyItems_eq_map (items : List Value) : stringifyItems items = items.map stringify := by
  induction items with
  | nil => rfl
  | cons v items ih => rw [stringifyItems, ih, List.map_cons]

def stringifyMember (m : Text × Value) : Text := quote m.1 ++ ':' :: stringify m.2

theorem stringifyMembers_eq_map (members : List (Text × Value)) :
    stringifyMembers members = members.map stringifyMember := by
  induction members with
  | nil => rfl
  | cons m members ih => rw [stringifyMembers, ih, List.map_cons, stringifyMember]

/-! ## Reading -/

def isSpace (c : Char) : Bool := c = ' ' || c = '\t' || c = '\n' || c = '\r'

def skipSpace (t : Text) : Text := t.dropWhile isSpace

-- A character of a string as it stands, or a UTF-16 unit given by its number.
inductive Piece where
  | char (c : Char)
  | unit (n : Nat)

def unescape (c : Char) : Option Char :=
  if c = '"' ∨ c = '\\' ∨ c = '/' then some c
  else if c = 'b' then some '\x08'
  else if c = 'f' then some '\x0c'
  else if c = 'n' then some '\x0a'
  else if c = 'r' then some '\x0d'
  else if c = 't' then some '\x09'
  else none

def hexValue (c : Char) : Option Nat :=
  if '0' ≤ c ∧ c ≤ '9' then some (c.toNat - 48)
  else if 'a' ≤ c ∧ c ≤ 'f' then some (c.toNat - 87)
  else if 'A' ≤ c ∧ c ≤ 'F' then some (c.toNat - 55)
  else none

inductive Mode where
  | plain
  | escaped
  | hex (left value : Nat)

def emit (p : Piece) (x : Option (List Piece × Text)) : Option (List Piece × Text) :=
  x.map fun y => (p :: y.1, y.2)

-- The pieces of a string up to its closing quote, and the text after it.
def readPieces : Mode → Text → Option (List Piece × Text)
  | _, [] => none
  | .plain, c :: t =>
    if c = '"' then some ([], t)
    else if c = '\\' then readPieces .escaped t
    else if c.toNat < 0x20 then none
    else emit (.char c) (readPieces .plain t)
  | .escaped, c :: t =>
    if c = 'u' then readPieces (.hex 3 0) t
    else (unescape c).bind fun c => emit (.char c) (readPieces .plain t)
  | .hex left value, c :: t =>
    (hexValue c).bind fun d =>
      if left = 0 then emit (.unit (16 * value + d)) (readPieces .plain t)
      else readPieces (.hex (left - 1) (16 * value + d)) t

def isHigh (n : Nat) : Bool := 0xD800 ≤ n && n < 0xDC00
def isLow (n : Nat) : Bool := 0xDC00 ≤ n && n < 0xE000

-- A pair of surrogates is one character; one that stands alone has no character of its own.
def joinPieces : List Piece → Text
  | [] => []
  | .char c :: ps => c :: joinPieces ps
  | .unit n :: .unit m :: ps =>
    if isHigh n ∧ isLow m then
      Char.ofNat (0x10000 + (n - 0xD800) * 0x400 + (m - 0xDC00)) :: joinPieces ps
    else (if isHigh n ∨ isLow n then '\uFFFD' else Char.ofNat n) :: joinPieces (.unit m :: ps)
  | .unit n :: ps => (if isHigh n ∨ isLow n then '\uFFFD' else Char.ofNat n) :: joinPieces ps

def readString (t : Text) : Option (Text × Text) :=
  (readPieces .plain t).map fun x => (joinPieces x.1, x.2)

def isNumberChar (c : Char) : Bool :=
  c.isDigit || c = '-' || c = '+' || c = '.' || c = 'e' || c = 'E'

def readSign : Text → Bool × Text
  | '-' :: t => (true, t)
  | t => (false, t)

-- No digits but those of a number: a leading zero is not read.
def readWhole (t : Text) : Option (Nat × Text) :=
  let n := Nat.ofDigitChars 10 (t.takeWhile Char.isDigit) 0
  if Nat.toDigits 10 n = t.takeWhile Char.isDigit then some (n, t.dropWhile Char.isDigit) else none

def readFraction : Text → Option (List (Fin 10) × Text)
  | '.' :: t =>
    let digits := t.takeWhile Char.isDigit
    if digits = [] then none
    else some (digits.map fun c => Fin.ofNat 10 (c.toNat - 48), t.dropWhile Char.isDigit)
  | t => some ([], t)

def readDigits (t : Text) : Option Nat :=
  if t ≠ [] ∧ t.all Char.isDigit then some (Nat.ofDigitChars 10 t 0) else none

def readExponent : Text → Option Int
  | [] => some 0
  | c :: t =>
    if c = 'e' ∨ c = 'E' then
      match t with
      | '-' :: t => (readDigits t).map fun n => -(n : Int)
      | '+' :: t => (readDigits t).map fun n => (n : Int)
      | t => (readDigits t).map fun n => (n : Int)
    else none

def readLiteral (t : Text) : Option Literal := do
  let (whole, t') ← readWhole (readSign t).2
  let (fraction, t'') ← readFraction t'
  let exponent ← readExponent t''
  some ⟨(readSign t).1, whole, fraction, exponent⟩

def readNumber (t : Text) : Option (Value × Text) :=
  (readLiteral (t.takeWhile isNumberChar)).map fun l => (.number l, t.dropWhile isNumberChar)

def readWord (word : Text) (v : Value) (t : Text) : Option (Value × Text) :=
  if word.isPrefixOf t then some (v, t.drop word.length) else none

abbrev Reader (α : Type) := Text → Option (α × Text)

section Lists

variable {α : Type} (item : Reader α) (close : Char)

-- What follows an item of a list.
def readMore : Nat → Reader (List α)
  | 0, _ => none
  | fuel + 1, t =>
    match skipSpace t with
    | [] => none
    | c :: t =>
      if c = close then some ([], t)
      else if c = ',' then do
        let (x, t) ← item t
        let (xs, t) ← readMore fuel t
        some (x :: xs, t)
      else none

def readList (fuel : Nat) : Reader (List α) := fun t =>
  if (skipSpace t).head? = some close then some ([], (skipSpace t).tail)
  else do
    let (x, t) ← item t
    let (xs, t) ← readMore item close fuel t
    some (x :: xs, t)

end Lists

def readMember (value : Reader Value) : Reader (Text × Value) := fun t =>
  match skipSpace t with
  | '"' :: t => do
    let (name, t) ← readString t
    match skipSpace t with
    | ':' :: t =>
      let (v, t) ← value t
      some ((name, v), t)
    | _ => none
  | _ => none

def readValue : Nat → Reader Value
  | 0, _ => none
  | fuel + 1, t =>
    match skipSpace t with
    | [] => none
    | c :: t =>
      if c = '"' then (readString t).map fun x => (.string x.1, x.2)
      else if c = '[' then
        (readList (readValue fuel) ']' fuel t).map fun x => (.array x.1, x.2)
      else if c = '{' then
        (readList (readMember (readValue fuel)) '}' fuel t).map fun x => (.object x.1, x.2)
      else if c = 't' then readWord ['r', 'u', 'e'] (.bool true) t
      else if c = 'f' then readWord ['a', 'l', 's', 'e'] (.bool false) t
      else if c = 'n' then readWord ['u', 'l', 'l'] .null t
      else readNumber (c :: t)

-- `JSON.parse`
def parse (t : Text) : Option Value :=
  match readValue (t.length + 1) t with
  | some (v, rest) => if skipSpace rest = [] then some v else none
  | none => none

end Lib.Json
