import Mathlib.Data.List.Basic
import Mathlib.Data.List.Nodup

/-!
# JSON documents and their text

The dialect is the one that Python's `json` writes and reads: a number without fraction and exponent
is an integer of any size, and the names `NaN` and `Infinity` stand for numbers too.
-/

namespace Json

/-! ## Documents -/

structure Exponent where
  marker : Char
  sign : List Char
  digits : List Char
  marker_ok : marker = 'e' ∨ marker = 'E'
  sign_ok : sign = [] ∨ sign = ['+'] ∨ sign = ['-']
  digits_ok : ∀ c ∈ digits, c.isDigit = true
  digits_ne : digits ≠ []

/-- A floating-point number, as it is written. It has a fraction or an exponent. -/
structure FloatLiteral where
  negative : Bool
  whole : Nat
  /-- The digits after the point. Without any there is no point. -/
  fraction : List Char
  exponent : Option Exponent
  fraction_ok : ∀ c ∈ fraction, c.isDigit = true
  not_integer : fraction ≠ [] ∨ exponent ≠ none

inductive Constant
  | null
  | bool (b : Bool)
  | nan
  | infinity (negative : Bool)
  deriving DecidableEq

/-- A document. An object is the list of its members, in their order. -/
inductive Value
  | constant (c : Constant)
  | int (n : Int)
  | float (x : FloatLiteral)
  | str (s : String)
  | list (items : List Value)
  | dict (members : List (String × Value))

/-- `isinstance(v, (dict, list))` -/
def Value.isContainer : Value → Bool
  | .list _ | .dict _ => true
  | _ => false

@[elab_as_elim]
theorem Value.induction {P : Value → Prop} (constant : ∀ c, P (.constant c)) (int : ∀ n, P (.int n))
    (float : ∀ x, P (.float x)) (str : ∀ s, P (.str s))
    (list : ∀ items, (∀ item ∈ items, P item) → P (.list items))
    (dict : ∀ members, (∀ member ∈ members, P member.2) → P (.dict members)) (v : Value) : P v :=
  @Value.rec P (fun items => ∀ item ∈ items, P item) (fun members => ∀ member ∈ members, P member.2)
    (fun member => P member.2) constant int float str list dict
    (fun _ h => absurd h List.not_mem_nil)
    (fun _ _ hitem hitems => List.forall_mem_cons.mpr ⟨hitem, hitems⟩)
    (fun _ h => absurd h List.not_mem_nil)
    (fun _ _ hmember hmembers => List.forall_mem_cons.mpr ⟨hmember, hmembers⟩)
    (fun _ _ hvalue => hvalue) v

/-! ## Text -/

def hexDigits (unit : Nat) : List Char :=
  [(unit / 0x1000 % 16).digitChar, (unit / 0x100 % 16).digitChar, (unit / 0x10 % 16).digitChar,
    (unit % 16).digitChar]

def escapeUnit (unit : Nat) : List Char := '\\' :: 'u' :: hexDigits unit

def utf16 (c : Char) : List Nat :=
  if c.toNat < 0x10000 then [c.toNat]
  else [0xd800 + (c.toNat - 0x10000) / 0x400, 0xdc00 + (c.toNat - 0x10000) % 0x400]

/-- The escapes of one letter. -/
def shortEscapes : List (Char × Char) :=
  [('"', '"'), ('\\', '\\'), ('n', '\n'), ('r', '\r'), ('t', '\t'), ('f', '\x0c'), ('b', '\x08')]

/-- What stands for a character between quotes. All of it is ASCII. -/
def escapeChar (c : Char) : List Char :=
  match shortEscapes.find? (·.2 = c) with
  | some (letter, _) => ['\\', letter]
  | none => if ' ' ≤ c ∧ c ≤ '~' then [c] else (utf16 c).flatMap escapeUnit

def quoted (s : String) : List Char := '"' :: (s.toList.flatMap escapeChar ++ ['"'])

def minus (negative : Bool) : List Char := if negative then ['-'] else []

def Exponent.text (e : Exponent) : List Char := e.marker :: (e.sign ++ e.digits)

def fractionText (fraction : List Char) : List Char :=
  if fraction = [] then [] else '.' :: fraction

def exponentText : Option Exponent → List Char
  | none => []
  | some e => e.text

def FloatLiteral.text (x : FloatLiteral) : List Char :=
  minus x.negative ++ Nat.toDigits 10 x.whole ++ fractionText x.fraction ++ exponentText x.exponent

def Constant.text : Constant → List Char
  | null => ['n', 'u', 'l', 'l']
  | bool true => ['t', 'r', 'u', 'e']
  | bool false => ['f', 'a', 'l', 's', 'e']
  | nan => ['N', 'a', 'N']
  | infinity negative => minus negative ++ ['I', 'n', 'f', 'i', 'n', 'i', 't', 'y']

mutual

/-- The text of a document, with the separators `", "` and `": "`. -/
def Value.text : Value → List Char
  | .constant c => c.text
  | .int n => minus (n < 0) ++ Nat.toDigits 10 n.natAbs
  | .float x => x.text
  | .str s => quoted s
  | .list items => '[' :: (itemsText items ++ [']'])
  | .dict members => '{' :: (membersText members ++ ['}'])

def itemsText : List Value → List Char
  | [] => []
  | [item] => item.text
  | item :: items => item.text ++ ',' :: ' ' :: itemsText items

def memberText : String × Value → List Char
  | (key, value) => quoted key ++ ':' :: ' ' :: value.text

def membersText : List (String × Value) → List Char
  | [] => []
  | [member] => memberText member
  | member :: members => memberText member ++ ',' :: ' ' :: membersText members

end

def dumps (v : Value) : String := String.ofList v.text

end Json
