import NsfwDetector.Json.Value
import Mathlib.Data.List.TakeWhile

/-!
# Reading a document

A scanner takes the text that is left and returns what it read, with the text after it. Brackets
nest, so the scanner of documents takes fuel. Text that is longer than the fuel needs none more.
-/

namespace Json

def isBlank (c : Char) : Bool := c = ' ' || c = '\t' || c = '\n' || c = '\r'

def skipBlanks (text : List Char) : List Char := text.dropWhile isBlank

/-! ## Strings -/

def hexValue (c : Char) : Option Nat :=
  if c.isDigit then some (c.toNat - '0'.toNat)
  else if 'a' ≤ c ∧ c ≤ 'f' then some (c.toNat - 'a'.toNat + 10)
  else if 'A' ≤ c ∧ c ≤ 'F' then some (c.toNat - 'A'.toNat + 10)
  else none

def hexUnit (a b c d : Char) : Option Nat := do
  pure ((← hexValue a) * 0x1000 + (← hexValue b) * 0x100 + (← hexValue c) * 0x10 + (← hexValue d))

def unescape (letter : Char) : Option Char := (('/', '/') :: shortEscapes).lookup letter

def followed {α β : Type} (a : α) (scanned : Option (List α × β)) : Option (List α × β) :=
  scanned.map fun (as, rest) => (a :: as, rest)

/-- The code units of a string, up to its closing quote. -/
def scanUnits : List Char → Option (List Nat × List Char)
  | [] => none
  | '"' :: text => some ([], text)
  | '\\' :: 'u' :: a :: b :: c :: d :: text => do
    let unit ← hexUnit a b c d
    followed unit (scanUnits text)
  | '\\' :: letter :: text => do
    let c ← unescape letter
    followed c.toNat (scanUnits text)
  | c :: text => if c.toNat < 0x20 then none else followed c.toNat (scanUnits text)

def isHighSurrogate (unit : Nat) : Bool := 0xd800 ≤ unit && unit ≤ 0xdbff

def isLowSurrogate (unit : Nat) : Bool := 0xdc00 ≤ unit && unit ≤ 0xdfff

/-- A surrogate without its partner is no character, and U+FFFD stands for it. -/
def unitChar (unit : Nat) : Char :=
  if isHighSurrogate unit || isLowSurrogate unit then '\uFFFD' else Char.ofNat unit

def joinSurrogates : List Nat → List Char
  | [] => []
  | [unit] => [unitChar unit]
  | high :: low :: units =>
    if isHighSurrogate high && isLowSurrogate low then
      Char.ofNat (0x10000 + (high - 0xd800) * 0x400 + (low - 0xdc00)) :: joinSurrogates units
    else unitChar high :: joinSurrogates (low :: units)

def scanString (text : List Char) : Option (String × List Char) :=
  (scanUnits text).map fun (units, rest) => (String.ofList (joinSurrogates units), rest)

/-! ## Numbers -/

def scanMinus : List Char → Bool × List Char
  | '-' :: text => (true, text)
  | text => (false, text)

def scanDigits (text : List Char) : List Char × List Char :=
  (text.takeWhile Char.isDigit, text.dropWhile Char.isDigit)

theorem scanDigits_digits (text : List Char) : ∀ c ∈ (scanDigits text).1, c.isDigit = true :=
  fun _ => List.mem_takeWhile_imp

/-- A leading zero stands alone. -/
def scanWhole : List Char → Option (Nat × List Char)
  | '0' :: text => some (0, text)
  | text =>
    let (digits, rest) := scanDigits text
    if digits = [] then none else some (Nat.ofDigitChars 10 digits 0, rest)

def scanFraction : List Char → List Char × List Char
  | '.' :: text => if (scanDigits text).1 = [] then ([], '.' :: text) else scanDigits text
  | text => ([], text)

theorem scanFraction_digits (text : List Char) : ∀ c ∈ (scanFraction text).1, c.isDigit = true := by
  unfold scanFraction
  split
  · split
    · exact fun _ h => absurd h List.not_mem_nil
    · exact scanDigits_digits _
  · exact fun _ h => absurd h List.not_mem_nil

def scanSign : List Char → List Char × List Char
  | '+' :: text => (['+'], text)
  | '-' :: text => (['-'], text)
  | text => ([], text)

theorem scanSign_ok (text : List Char) :
    (scanSign text).1 = [] ∨ (scanSign text).1 = ['+'] ∨ (scanSign text).1 = ['-'] := by
  unfold scanSign
  split <;> simp

def scanExponent : List Char → Option Exponent × List Char
  | [] => (none, [])
  | marker :: text =>
    if h : (marker = 'e' ∨ marker = 'E') ∧ (scanDigits (scanSign text).2).1 ≠ [] then
      (some ⟨marker, (scanSign text).1, (scanDigits (scanSign text).2).1, h.1, scanSign_ok text,
        scanDigits_digits _, h.2⟩, (scanDigits (scanSign text).2).2)
    else (none, marker :: text)

/-- The longest number that the text starts with. -/
def scanNumber (text : List Char) : Option (Value × List Char) := do
  let (negative, text) := scanMinus text
  let (whole, text) ← scanWhole text
  let tail := scanExponent (scanFraction text).2
  if h : (scanFraction text).1 ≠ [] ∨ tail.1 ≠ none then
    pure (.float ⟨negative, whole, (scanFraction text).1, tail.1, scanFraction_digits text, h⟩, tail.2)
  else pure (.int (if negative then -whole else whole), tail.2)

/-! ## Documents -/

def constants : List Constant :=
  [.null, .bool true, .bool false, .nan, .infinity false, .infinity true]

def scanConstant (text : List Char) : Option (Value × List Char) :=
  constants.findSome? fun c =>
    if c.text.isPrefixOf text then some (.constant c, text.drop c.text.length) else none

def scanAtom (text : List Char) : Option (Value × List Char) :=
  (scanConstant text).or (scanNumber text)

section

variable {α : Type} (scanItem : List Char → Option (α × List Char)) (close : Char)

/-- One item or more, separated by commas, and the closing bracket. -/
def scanItems : Nat → List Char → Option (List α × List Char)
  | 0, _ => none
  | fuel + 1, text => do
    let (item, text) ← scanItem text
    match skipBlanks text with
    | [] => none
    | c :: text =>
      if c = close then some ([item], text)
      else if c = ',' then followed item (scanItems fuel (skipBlanks text))
      else none

/-- What stands between two brackets. -/
def scanBlock (fuel : Nat) (text : List Char) : Option (List α × List Char) :=
  if (skipBlanks text).head? = some close then some ([], (skipBlanks text).tail)
  else scanItems scanItem close fuel (skipBlanks text)

end

def scanMember (scanValue : List Char → Option (Value × List Char)) :
    List Char → Option ((String × Value) × List Char)
  | '"' :: text => do
    let (key, text) ← scanString text
    match skipBlanks text with
    | ':' :: text => (scanValue (skipBlanks text)).map fun (value, rest) => ((key, value), rest)
    | _ => none
  | _ => none

/-- `scan_once`. An object is read as its members, and repeated keys stay. -/
def scanOnce : Nat → List Char → Option (Value × List Char)
  | 0, _ => none
  | fuel + 1, text =>
    match text with
    | '"' :: text => (scanString text).map fun (s, rest) => (.str s, rest)
    | '[' :: text =>
      (scanBlock (scanOnce fuel) ']' fuel text).map fun (items, rest) => (.list items, rest)
    | '{' :: text =>
      (scanBlock (scanMember (scanOnce fuel)) '}' fuel text).map fun (members, rest) =>
        (.dict members, rest)
    | text => scanAtom text

/-! ## Dictionaries -/

/-- `d[key] = value`: a key that is there keeps its place. -/
def setItem {α : Type} (key : String) (value : α) : List (String × α) → List (String × α)
  | [] => [(key, value)]
  | (k, v) :: d => if k = key then (key, value) :: d else (k, v) :: setItem key value d

/-- `dict(members)`: of several equal keys the last one counts. -/
def dictOf {α : Type} (members : List (String × α)) : List (String × α) :=
  members.foldl (fun d member => setItem member.1 member.2 d) []

mutual

/-- The objects of a document as dictionaries. -/
def Value.asDicts : Value → Value
  | .list items => .list (itemsAsDicts items)
  | .dict members => .dict (dictOf (membersAsDicts members))
  | v => v

def itemsAsDicts : List Value → List Value
  | [] => []
  | item :: items => item.asDicts :: itemsAsDicts items

def memberAsDicts : String × Value → String × Value
  | (key, value) => (key, value.asDicts)

def membersAsDicts : List (String × Value) → List (String × Value)
  | [] => []
  | member :: members => memberAsDicts member :: membersAsDicts members

end

/-! ## `json.loads` and `raw_decode` -/

/-- The document at the start of the text, as it is written. -/
def scanValue (text : List Char) : Option (Value × List Char) := scanOnce (text.length + 1) text

def scanDocument (text : List Char) : Option (Value × List Char) :=
  (scanValue text).map fun (v, rest) => (v.asDicts, rest)

/-- `JSONDecoder().raw_decode(s, idx)`: the document at `idx` and where it ends. -/
def rawDecode (s : List Char) (idx : Nat) : Option (Value × Nat) :=
  (scanDocument (s.drop idx)).map fun (v, rest) => (v, s.length - rest.length)

def loads (s : List Char) : Option Value :=
  if s.head? = some '\uFEFF' then none
  else
    match scanDocument (skipBlanks s) with
    | some (v, rest) => if skipBlanks rest = [] then some v else none
    | none => none

end Json
