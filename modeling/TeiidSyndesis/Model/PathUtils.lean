/-
# TeiidSyndesis.Model.PathUtils — reading a source path such as `schema=pg/table=t`.

`PathUtils.getOptions` with the two library classes it rests on: `StringTokenizer`, which drops empty
tokens, and `URLDecoder` for UTF-8, which turns a plus sign into a space and runs of percent escapes
into characters.
-/
import TeiidSyndesis.Model.Entities

namespace TeiidSyndesis.Model

/-! ## StringTokenizer -/

def tokensFrom (separator : Char) : List Char → List Char → List (List Char)
  | current, [] => if current = [] then [] else [current.reverse]
  | current, c :: cs =>
      if c = separator then
        if current = [] then tokensFrom separator [] cs
        else current.reverse :: tokensFrom separator [] cs
      else tokensFrom separator (c :: current) cs

/-- The tokens of a text, in order; none is empty. -/
def tokens (separator : Char) (text : List Char) : List (List Char) := tokensFrom separator [] text

/-! ## URLDecoder -/

def hexDigit (c : Char) : Option Nat :=
  if '0' ≤ c ∧ c ≤ '9' then some (c.toNat - '0'.toNat)
  else if 'a' ≤ c ∧ c ≤ 'f' then some (c.toNat - 'a'.toNat + 10)
  else if 'A' ≤ c ∧ c ≤ 'F' then some (c.toNat - 'A'.toNat + 10)
  else none

def isContinuation (byte : Nat) : Bool := decide (0x80 ≤ byte ∧ byte < 0xC0)

/-- What malformed input decodes to. -/
def replacement : Char := Char.ofNat 0xFFFD

/-- A sequence that has begun: its value so far, the continuation bytes it still needs, and the
least value its length is allowed for. -/
structure Utf8Sequence where
  code : Nat := 0
  needs : Nat := 0
  least : Nat := 0

/-- The character a byte makes on its own, or the sequence it begins. -/
def beginUtf8 (byte : Nat) : List Char × Utf8Sequence :=
  if byte < 0x80 then ([Char.ofNat byte], {})
  else if 0xC2 ≤ byte ∧ byte < 0xE0 then ([], ⟨byte - 0xC0, 1, 0x80⟩)
  else if 0xE0 ≤ byte ∧ byte < 0xF0 then ([], ⟨byte - 0xE0, 2, 0x800⟩)
  else if 0xF0 ≤ byte ∧ byte < 0xF5 then ([], ⟨byte - 0xF0, 3, 0x10000⟩)
  else ([replacement], {})

def endUtf8 (code least : Nat) : Char :=
  if least ≤ code ∧ code < 0x110000 ∧ (code < 0xD800 ∨ 0xE000 ≤ code) then Char.ofNat code
  else replacement

def decodeUtf8From (sequence : Utf8Sequence) : List Nat → List Char
  | [] => if sequence.needs = 0 then [] else [replacement]
  | byte :: bytes =>
      if sequence.needs = 0 then
        (beginUtf8 byte).1 ++ decodeUtf8From (beginUtf8 byte).2 bytes
      else if isContinuation byte then
        let code := sequence.code * 64 + (byte - 0x80)
        if sequence.needs = 1 then endUtf8 code sequence.least :: decodeUtf8From {} bytes
        else decodeUtf8From ⟨code, sequence.needs - 1, sequence.least⟩ bytes
      else replacement :: (beginUtf8 byte).1 ++ decodeUtf8From (beginUtf8 byte).2 bytes

/-- UTF-8 decoding; a sequence that is not well formed is replaced. -/
def decodeUtf8 (bytes : List Nat) : List Char := decodeUtf8From {} bytes

/-- Decodes from the bytes of the escapes read last; an escape without two hex digits fails. -/
def decodeFrom : List Nat → List Char → Option (List Char)
  | bytes, [] => some (decodeUtf8 bytes)
  | bytes, '%' :: hi :: lo :: cs =>
      match hexDigit hi, hexDigit lo with
      | some h, some l => decodeFrom (bytes ++ [16 * h + l]) cs
      | _, _ => none
  | _, ['%'] | _, ['%', _] => none
  | bytes, c :: cs =>
      (decodeFrom [] cs).map fun rest =>
        decodeUtf8 bytes ++ (if c = '+' then ' ' else c) :: rest

def decode (text : List Char) : Option String := (decodeFrom [] text).map String.ofList

/-! ## getOptions -/

/-- One option of a path: the first two tokens around the equals signs, decoded. -/
def getOption (token : List Char) : Except Failure (String × String) :=
  match tokens '=' token with
  | key :: value :: _ =>
      match decode key, decode value with
      | some key, some value => .ok (key, value)
      | _, _ => .error (.illegalArgument "URLDecoder: Illegal hex characters in escape (%) pattern")
  | _ => .error .noSuchElement

def getOptions (path : String) : Except Failure (List (String × String)) :=
  (tokens '/' path.toList).mapM getOption

/-- `options.get(index).getSecond()` -/
def optionValue (options : List (String × String)) (index : Nat) : Except Failure String :=
  match options[index]? with
  | some option => .ok option.2
  | none => .error .indexOutOfBounds

example : getOptions "schema=pg+conn/table=t%C3%A9" =
    .ok [("schema", "pg conn"), ("table", "té")] := by decide

end TeiidSyndesis.Model
