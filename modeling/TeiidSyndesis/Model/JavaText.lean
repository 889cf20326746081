/-
# TeiidSyndesis.Model.JavaText — what Java says of the characters of names.

The case of a text is changed character by character, by tables of Unicode that are parameters here;
only a capital sigma at the end of a word depends on what is around it.  The rules for identifiers rest
on two more tables.
-/
import Mathlib.Data.List.Basic

namespace TeiidSyndesis.Model

/-- The tables of `java.lang.Character`. -/
structure JavaText where
  /-- the upper case of a character, which may be several characters -/
  upperCase : Char → List Char
  lowerCase : Char → List Char
  /-- a sigma between these characters (those before it in reverse) ends a word -/
  isFinalSigma : List Char → List Char → Bool
  isJavaIdentifierStart : Char → Bool
  isJavaIdentifierPart : Char → Bool

/-- `name.replace("-", "")` -/
def removeHyphens (name : String) : String := String.ofList (name.toList.filter (· ≠ '-'))

def asciiUpper (c : Char) : Char := if 'a' ≤ c ∧ c ≤ 'z' then Char.ofNat (c.toNat - 32) else c

def asciiLower (c : Char) : Char := if 'A' ≤ c ∧ c ≤ 'Z' then Char.ofNat (c.toNat + 32) else c

namespace JavaText

/-! ## Case -/

def capitalSigma : Char := Char.ofNat 0x3A3

def finalSigma : Char := Char.ofNat 0x3C2

/-- `String.toUpperCase` -/
def toUpperCase (java : JavaText) (text : String) : String :=
  String.ofList (text.toList.flatMap java.upperCase)

/-- The lower case of a character between those before it, in reverse, and those after it. -/
def lowerAt (java : JavaText) (before : List Char) (c : Char) (after : List Char) : List Char :=
  if c = capitalSigma ∧ java.isFinalSigma before after = true then [finalSigma] else java.lowerCase c

def lowerFrom (java : JavaText) : List Char → List Char → List Char
  | _, [] => []
  | before, c :: cs => java.lowerAt before c cs ++ java.lowerFrom (c :: before) cs

/-- `String.toLowerCase` -/
def toLowerCase (java : JavaText) (text : String) : String :=
  String.ofList (java.lowerFrom [] text.toList)

/-! ## Identifiers -/

/-- The words that are no identifiers. -/
def keywords : List String :=
  ["abstract", "assert", "boolean", "break", "byte", "case", "catch", "char", "class", "const",
    "continue", "default", "do", "double", "else", "enum", "extends", "final", "finally", "float", "for",
    "goto", "if", "implements", "import", "instanceof", "int", "interface", "long", "native", "new",
    "package", "private", "protected", "public", "return", "short", "static", "strictfp", "super",
    "switch", "synchronized", "this", "throw", "throws", "transient", "try", "void", "volatile", "while",
    "true", "false", "null", "_"]

/-- The characters may make an identifier. -/
def identifierChars (java : JavaText) : List Char → Bool
  | [] => false
  | c :: cs => java.isJavaIdentifierStart c && cs.all java.isJavaIdentifierPart

def isIdentifier (java : JavaText) (text : String) : Bool :=
  java.identifierChars text.toList && text ∉ keywords

/-- A character that ends or alters the string literal it stands in. -/
def breaksLiteral (c : Char) : Bool := c ∈ ['"', '\\', '\n', '\r']

/-! ## Facts of Unicode -/

def isAsciiLetterOrDigit (c : Char) : Bool :=
  decide ('a' ≤ c ∧ c ≤ 'z' ∨ 'A' ≤ c ∧ c ≤ 'Z' ∨ '0' ≤ c ∧ c ≤ '9')

/-- The upper case of ASCII characters. -/
def UpperAscii (java : JavaText) : Prop := ∀ c : Char, c.toNat < 128 → java.upperCase c = [asciiUpper c]

/-- What the tables say of identifiers and of the lower case of characters. -/
structure Unicode (java : JavaText) : Prop where
  start_part : ∀ c, java.isJavaIdentifierStart c = true → java.isJavaIdentifierPart c = true
  literal : ∀ c, breaksLiteral c = true → java.isJavaIdentifierPart c = false
  sigma : java.isJavaIdentifierStart capitalSigma = true ∧ java.isJavaIdentifierStart finalSigma = true
  underscore : java.isJavaIdentifierStart '_' = true
  letterOrDigit : ∀ c, isAsciiLetterOrDigit c = true → java.isJavaIdentifierPart c = true
  /-- a character and its lower case begin identifiers or not, both -/
  lower_start : ∀ c, ∃ d ds, java.lowerCase c = d :: ds ∧
    java.isJavaIdentifierStart d = java.isJavaIdentifierStart c
  lower_part : ∀ c, (java.lowerCase c).all java.isJavaIdentifierPart = java.isJavaIdentifierPart c
  /-- only capital letters of ASCII have another lower case -/
  lower_ascii : ∀ c : Char, c.toNat < 128 → java.lowerCase c = [asciiLower c]
  lower_hyphen : ∀ c, '-' ∈ java.lowerCase c → c = '-'

/-! ## ASCII -/

/-- Java as it is on ASCII texts and a capital sigma. -/
def ascii : JavaText where
  upperCase c := [asciiUpper c]
  lowerCase c := [asciiLower c]
  isFinalSigma _ _ := false
  isJavaIdentifierStart c :=
    decide ('a' ≤ c ∧ c ≤ 'z' ∨ 'A' ≤ c ∧ c ≤ 'Z' ∨ c ∈ ['_', '$', capitalSigma, finalSigma])
  isJavaIdentifierPart c :=
    isAsciiLetterOrDigit c || decide (c ∈ ['_', '$', capitalSigma, finalSigma])

theorem toUpperCase_append (java : JavaText) (a b : String) :
    java.toUpperCase (a ++ b) = java.toUpperCase a ++ java.toUpperCase b := by
  unfold toUpperCase
  rw [String.toList_append, List.flatMap_append, String.ofList_append]

theorem toUpperCase_of_ascii {java : JavaText} (hjava : java.UpperAscii) {text : String}
    (h : ∀ c ∈ text.toList, c.toNat < 128) :
    java.toUpperCase text = String.ofList (text.toList.map asciiUpper) := by
  unfold toUpperCase
  rw [List.flatMap_congr fun c hc => hjava c (h c hc)]
  exact congrArg String.ofList (List.flatMap_pure_eq_map asciiUpper _)

theorem upperAscii_ascii : UpperAscii ascii := fun _ _ => rfl

/-- A lower case letter stands for a capital one only. -/
theorem asciiLower_cases (c : Char) :
    asciiLower c = c ∨ ('A' ≤ c ∧ c ≤ 'Z') ∧ 'a' ≤ asciiLower c ∧ asciiLower c ≤ 'z' := by
  unfold asciiLower
  split
  · rename_i h
    refine .inr ⟨h, ?_⟩
    have hle : 'A'.toNat ≤ c.toNat ∧ c.toNat ≤ 'Z'.toNat := ⟨h.1, h.2⟩
    have hletters : ∀ n : Fin 26, 'a' ≤ Char.ofNat (n + 97) ∧ Char.ofNat (n + 97) ≤ 'z' := by decide
    have hletter := hletters ⟨c.toNat - 65, by simp only [Char.reduceToNat] at hle; omega⟩
    have hnat : c.toNat - 65 + 97 = c.toNat + 32 := by simp only [Char.reduceToNat] at hle; omega
    simpa only [hnat] using hletter
  · exact .inl rfl

theorem unicode_ascii : Unicode ascii where
  start_part c h := by
    simp only [ascii, isAsciiLetterOrDigit, Bool.or_eq_true, decide_eq_true_eq] at h ⊢
    rcases h with h | h | h
    · exact .inl (.inl h)
    · exact .inl (.inr (.inl h))
    · exact .inr h
  literal c h := by
    have hc : c ∈ ['"', '\\', '\n', '\r'] := by simpa [breaksLiteral] using h
    simp only [List.mem_cons, List.not_mem_nil, or_false] at hc
    rcases hc with rfl | rfl | rfl | rfl <;> decide
  sigma := by decide
  underscore := by decide
  letterOrDigit c h := by simp [ascii, h]
  lower_start c := by
    refine ⟨asciiLower c, [], rfl, ?_⟩
    rcases asciiLower_cases c with h | ⟨hupper, hlower⟩
    · rw [h]
    · simp [ascii, hupper, hlower]
  lower_part c := by
    show [asciiLower c].all ascii.isJavaIdentifierPart = _
    rw [List.all_cons, List.all_nil, Bool.and_true]
    rcases asciiLower_cases c with h | ⟨hupper, hlower⟩
    · rw [h]
    · simp [ascii, isAsciiLetterOrDigit, hupper, hlower]
  lower_ascii _ _ := rfl
  lower_hyphen c h := by
    have hc : asciiLower c = '-' := (List.mem_singleton.mp h).symm
    rcases asciiLower_cases c with h | ⟨-, hlower, -⟩
    · rw [← h, hc]
    · rw [hc] at hlower
      exact absurd hlower (by decide)

end JavaText

end TeiidSyndesis.Model
