/-
# TeiidSyndesis.Model.PercentEncoding — source paths as they are written.

A `FullyQualifiedName` joins key and value of each part with an equals sign and the parts with slashes.
Keys and values are percent-encoded: of the characters that stay as they are none is a separator, a
percent sign or a plus sign, every other one becomes the escapes of its bytes in UTF-8.  What
`getOptions` reads from such a path is what has been written into it.

Main results:
* `decodeUtf8_flatMap` — the characters of a text are read back from their bytes;
* `decodeFrom_escapes`, `decode_encode` — and the bytes from their escapes;
* `tokens_intercalate` — tokens that were joined are parted again;
* `getOptions_joined` — so a path is read as it was written.
-/
import TeiidSyndesis.Model.JavaText
import TeiidSyndesis.Model.PathUtils

namespace TeiidSyndesis.Model

/-! ## FullyQualifiedName -/

/-- The characters a percent-encoding may leave as they are. -/
def isUnreserved (c : Char) : Bool :=
  JavaText.isAsciiLetterOrDigit c || decide (c ∈ ['-', '.', '_', '~'])

/-- The bytes of a character in UTF-8. -/
def utf8Bytes (c : Char) : List Nat := (String.utf8EncodeChar c).map UInt8.toNat

/-- A digit of an escape. -/
def hexChar (n : Nat) : Char := if n < 10 then Char.ofNat (n + 48) else Char.ofNat (n + 55)

def escape (byte : Nat) : List Char := ['%', hexChar (byte / 16), hexChar (byte % 16)]

/-- A character is literal or becomes the escapes of its bytes. -/
def encodeChar (literal : Char → Bool) (c : Char) : List Char :=
  if literal c then [c] else (utf8Bytes c).flatMap escape

/-- A text, with its literal characters as they are and the others escaped. -/
def encode (literal : Char → Bool) (text : String) : List Char :=
  text.toList.flatMap (encodeChar literal)

/-- One part of a path. -/
def encodedSegment (literal : Char → Bool) (option : String × String) : List Char :=
  encode literal option.1 ++ '=' :: encode literal option.2

/-- The path of a `FullyQualifiedName` with these keys and values. -/
def joinedPath (literal : Char → Bool) (options : List (String × String)) : String :=
  String.ofList (List.intercalate ['/'] (options.map (encodedSegment literal)))

/-! ## UTF-8 -/

/-- A byte of six bits continues a character. -/
theorem isContinuation_of_lt {n : Nat} (h : n < 64) : isContinuation (n + 0x80) = true := by
  unfold isContinuation
  rw [decide_eq_true_eq]
  omega

/-- The last byte of a sequence. -/
theorem decodeUtf8From_last {code least low : Nat} (hlow : low < 64) {c : Char}
    (hcode : code * 64 + low = c.toNat) (hleast : least ≤ c.toNat) (bytes : List Nat) :
    decodeUtf8From ⟨code, 1, least⟩ ((low + 0x80) :: bytes) = c :: decodeUtf8From {} bytes := by
  have hvalid : c.toNat < 0xD800 ∨ 0xDFFF < c.toNat ∧ c.toNat < 0x110000 := c.valid
  have hend : endUtf8 c.toNat least = c := by
    unfold endUtf8
    rw [if_pos ⟨hleast, by omega, by omega⟩, Char.ofNat_toNat]
  rw [decodeUtf8From, if_neg Nat.one_ne_zero, if_pos (isContinuation_of_lt hlow)]
  dsimp only
  rw [if_pos rfl, Nat.add_sub_cancel, hcode, hend]

/-- A byte of a sequence that is not the last one. -/
theorem decodeUtf8From_next {code needs least next : Nat} (hnext : next < 64) (bytes : List Nat) :
    decodeUtf8From ⟨code, needs + 2, least⟩ ((next + 0x80) :: bytes) =
      decodeUtf8From ⟨code * 64 + next, needs + 1, least⟩ bytes := by
  rw [decodeUtf8From, if_neg (Nat.succ_ne_zero _), if_pos (isContinuation_of_lt hnext)]
  dsimp only
  rw [if_neg (by omega), Nat.add_sub_cancel]
  rfl

/-- The first byte of a sequence. -/
theorem decodeUtf8From_first {first : Nat} {sequence : Utf8Sequence}
    (h : beginUtf8 first = ([], sequence)) (bytes : List Nat) :
    decodeUtf8From {} (first :: bytes) = decodeUtf8From sequence bytes := by
  rw [decodeUtf8From, if_pos rfl, h]
  rfl

/-- The bytes of a character, by the size of its code. -/
theorem utf8Bytes_cases (c : Char) :
    c.toNat < 0x80 ∧ utf8Bytes c = [c.toNat] ∨
    0x80 ≤ c.toNat ∧ c.toNat < 0x800 ∧
      utf8Bytes c = [c.toNat / 64 + 0xC0, c.toNat % 64 + 0x80] ∨
    0x800 ≤ c.toNat ∧ c.toNat < 0x10000 ∧
      utf8Bytes c = [c.toNat / 4096 + 0xE0, c.toNat / 64 % 64 + 0x80, c.toNat % 64 + 0x80] ∨
    0x10000 ≤ c.toNat ∧ utf8Bytes c =
      [c.toNat / 262144 + 0xF0, c.toNat / 4096 % 64 + 0x80, c.toNat / 64 % 64 + 0x80,
        c.toNat % 64 + 0x80] := by
  have hvalid : c.toNat < 0xD800 ∨ 0xDFFF < c.toNat ∧ c.toNat < 0x110000 := c.valid
  have hval : c.val.toNat = c.toNat := rfl
  unfold utf8Bytes String.utf8EncodeChar
  simp only [hval]
  split
  · refine .inl ⟨by omega, ?_⟩
    simp
    omega
  · split
    · refine .inr (.inl ⟨by omega, by omega, ?_⟩)
      simp
      omega
    · split
      · refine .inr (.inr (.inl ⟨by omega, by omega, ?_⟩))
        simp
        omega
      · refine .inr (.inr (.inr ⟨by omega, ?_⟩))
        simp
        omega

/-- The bytes of a character are read as that character, and the reader is between characters. -/
theorem decodeUtf8From_utf8Bytes (c : Char) (bytes : List Nat) :
    decodeUtf8From {} (utf8Bytes c ++ bytes) = c :: decodeUtf8From {} bytes := by
  have hvalid : c.toNat < 0xD800 ∨ 0xDFFF < c.toNat ∧ c.toNat < 0x110000 := c.valid
  -- by the number of bytes; each one that follows adds six bits
  rcases utf8Bytes_cases c with ⟨hsize, hbytes⟩ | ⟨hleast, hsize, hbytes⟩ | ⟨hleast, hsize, hbytes⟩ |
    ⟨hleast, hbytes⟩
  · have hbegin : beginUtf8 c.toNat = ([c], {}) := by
      rw [beginUtf8, if_pos hsize, Char.ofNat_toNat]
    rw [hbytes, List.singleton_append, decodeUtf8From, if_pos rfl, hbegin]
    rfl
  · have hbegin : beginUtf8 (c.toNat / 64 + 0xC0) = ([], ⟨c.toNat / 64, 1, 0x80⟩) := by
      rw [beginUtf8, if_neg (by omega), if_pos (by omega), Nat.add_sub_cancel]
    rw [hbytes, List.cons_append, decodeUtf8From_first hbegin]
    refine decodeUtf8From_last (by omega) ?_ hleast bytes
    show c.toNat / 64 * 64 + c.toNat % 64 = c.toNat
    omega
  · have hbegin : beginUtf8 (c.toNat / 4096 + 0xE0) = ([], ⟨c.toNat / 4096, 2, 0x800⟩) := by
      rw [beginUtf8, if_neg (by omega), if_neg (by omega), if_pos (by omega), Nat.add_sub_cancel]
    rw [hbytes, List.cons_append, decodeUtf8From_first hbegin, List.cons_append,
      decodeUtf8From_next (by omega)]
    refine decodeUtf8From_last (by omega) ?_ hleast bytes
    show (c.toNat / 4096 * 64 + c.toNat / 64 % 64) * 64 + c.toNat % 64 = c.toNat
    omega
  · have hbegin : beginUtf8 (c.toNat / 262144 + 0xF0) = ([], ⟨c.toNat / 262144, 3, 0x10000⟩) := by
      rw [beginUtf8, if_neg (by omega), if_neg (by omega), if_neg (by omega), if_pos (by omega),
        Nat.add_sub_cancel]
    rw [hbytes, List.cons_append, decodeUtf8From_first hbegin, List.cons_append,
      decodeUtf8From_next (by omega), List.cons_append,
      decodeUtf8From_next (by omega)]
    refine decodeUtf8From_last (by omega) ?_ hleast bytes
    show ((c.toNat / 262144 * 64 + c.toNat / 4096 % 64) * 64 + c.toNat / 64 % 64) * 64 +
      c.toNat % 64 = c.toNat
    omega

/-- Characters that were written one after another are read one after another. -/
theorem decodeUtf8_flatMap (cs : List Char) : decodeUtf8 (cs.flatMap utf8Bytes) = cs := by
  unfold decodeUtf8
  induction cs with
  | nil => rfl
  | cons c cs ih => rw [List.flatMap_cons, decodeUtf8From_utf8Bytes, ih]

/-- What a character is written as are bytes. -/
theorem lt_of_mem_utf8Bytes {c : Char} {byte : Nat} (h : byte ∈ utf8Bytes c) : byte < 256 := by
  obtain ⟨b, -, rfl⟩ := List.mem_map.mp h
  exact UInt8.toNat_lt_size b

/-! ## Escapes -/

/-- A digit is read back. -/
theorem hexDigit_hexChar : ∀ n < 16, hexDigit (hexChar n) = some n := by decide

/-- No digit is a separator. -/
theorem hexChar_not_separator : ∀ n < 16, hexChar n ≠ '/' ∧ hexChar n ≠ '=' := by decide

/-- An escaped byte is collected. -/
theorem decodeFrom_escape {byte : Nat} (h : byte < 256) (bytes : List Nat) (cs : List Char) :
    decodeFrom bytes (escape byte ++ cs) = decodeFrom (bytes ++ [byte]) cs := by
  have hhigh := hexDigit_hexChar (byte / 16) (by omega)
  have hlow := hexDigit_hexChar (byte % 16) (by omega)
  have hbyte : 16 * (byte / 16) + byte % 16 = byte := Nat.div_add_mod byte 16
  show decodeFrom bytes ('%' :: hexChar (byte / 16) :: hexChar (byte % 16) :: cs) = _
  rw [decodeFrom, hhigh, hlow]
  dsimp only
  rw [hbyte]

/-- Escaped bytes are collected, one after another. -/
theorem decodeFrom_escapes {escaped : List Nat} (h : ∀ byte ∈ escaped, byte < 256) (bytes : List Nat)
    (cs : List Char) :
    decodeFrom bytes (escaped.flatMap escape ++ cs) = decodeFrom (bytes ++ escaped) cs := by
  induction escaped generalizing bytes with
  | nil => rw [List.flatMap_nil, List.nil_append, List.append_nil]
  | cons byte escaped ih =>
      rw [List.forall_mem_cons] at h
      rw [List.flatMap_cons, List.append_assoc, decodeFrom_escape h.1, ih h.2, List.append_assoc]
      rfl

/-- A character that is no percent sign ends the run of escapes before it. -/
theorem decodeFrom_literal {c : Char} (hpercent : c ≠ '%') (hplus : c ≠ '+') (bytes : List Nat)
    (cs : List Char) :
    decodeFrom bytes (c :: cs) = (decodeFrom [] cs).map fun rest => decodeUtf8 bytes ++ c :: rest := by
  rw [decodeFrom, if_neg hplus]
  all_goals simp [hpercent]

/-! ## Decoding what is encoded -/

section Decoding

variable {literal : Char → Bool}

/-- An unreserved character has a meaning neither in a path nor in an escape. -/
theorem plain_of_unreserved {c : Char} (h : isUnreserved c = true) :
    c ≠ '%' ∧ c ≠ '+' ∧ c ≠ '/' ∧ c ≠ '=' := by
  refine ⟨?_, ?_, ?_, ?_⟩ <;>
    · rintro rfl
      exact absurd h (by decide)

/-- The run of escapes read last stands for the characters `before`. -/
theorem decodeFrom_encoded (hliteral : ∀ c, literal c = true → isUnreserved c = true)
    (before cs : List Char) :
    decodeFrom (before.flatMap utf8Bytes) (cs.flatMap (encodeChar literal)) = some (before ++ cs) := by
  induction cs generalizing before with
  | nil =>
      show some (decodeUtf8 _) = _
      rw [decodeUtf8_flatMap, List.append_nil]
  | cons c cs ih =>
      rw [List.flatMap_cons, encodeChar]
      split
      · rename_i hc
        obtain ⟨hpercent, hplus, -, -⟩ := plain_of_unreserved (hliteral c hc)
        have hrest := ih []
        rw [List.flatMap_nil, List.nil_append] at hrest
        rw [List.singleton_append, decodeFrom_literal hpercent hplus, hrest, decodeUtf8_flatMap]
        rfl
      · have hrest := ih (before ++ [c])
        rw [List.flatMap_append, List.flatMap_singleton] at hrest
        rw [decodeFrom_escapes fun byte => lt_of_mem_utf8Bytes, hrest, List.append_assoc]
        rfl

/-- What is encoded is decoded to itself. -/
theorem decode_encode (hliteral : ∀ c, literal c = true → isUnreserved c = true) (text : String) :
    decode (encode literal text) = some text := by
  have h := decodeFrom_encoded hliteral [] text.toList
  rw [List.flatMap_nil, List.nil_append] at h
  unfold decode encode
  rw [h]
  exact congrArg some String.ofList_toList

/-- It has no separator of its own. -/
theorem not_separator_of_mem_encode (hliteral : ∀ c, literal c = true → isUnreserved c = true)
    {text : String} {c : Char} (h : c ∈ encode literal text) : c ≠ '/' ∧ c ≠ '=' := by
  obtain ⟨d, -, hc⟩ := List.mem_flatMap.mp h
  rw [encodeChar] at hc
  split at hc
  · rename_i hd
    obtain rfl := List.mem_singleton.mp hc
    exact (plain_of_unreserved (hliteral c hd)).2.2
  · obtain ⟨byte, hbyte, hc⟩ := List.mem_flatMap.mp hc
    have hlt := lt_of_mem_utf8Bytes hbyte
    simp only [escape, List.mem_cons, List.not_mem_nil, or_false] at hc
    rcases hc with rfl | rfl | rfl
    · decide
    · exact hexChar_not_separator _ (by omega)
    · exact hexChar_not_separator _ (by omega)

theorem encode_ne_nil {text : String} (h : text ≠ "") : encode literal text ≠ [] := by
  have hchars : text.toList ≠ [] := fun hnil => h (String.toList_eq_nil_iff.mp hnil)
  obtain ⟨c, cs, hcons⟩ := List.exists_cons_of_ne_nil hchars
  unfold encode
  rw [hcons, List.flatMap_cons]
  intro hnil
  obtain ⟨hnil, -⟩ := List.append_eq_nil_iff.mp hnil
  rw [encodeChar] at hnil
  split at hnil
  · cases hnil
  · rcases utf8Bytes_cases c with ⟨-, hbytes⟩ | ⟨-, -, hbytes⟩ | ⟨-, -, hbytes⟩ | ⟨-, hbytes⟩
    all_goals
      rw [hbytes] at hnil
      cases hnil

end Decoding

/-! ## Tokens -/

theorem tokensFrom_append_separator {separator : Char} {token current rest : List Char}
    (h : separator ∉ token) (hcurrent : current.reverse ++ token ≠ []) :
    tokensFrom separator current (token ++ separator :: rest) =
      (current.reverse ++ token) :: tokensFrom separator [] rest := by
  induction token generalizing current with
  | nil =>
      have hne : current ≠ [] := by simpa using hcurrent
      rw [List.nil_append, tokensFrom, if_pos rfl, if_neg hne, List.append_nil]
  | cons c token ih =>
      rw [List.mem_cons, not_or] at h
      rw [List.cons_append, tokensFrom, if_neg (Ne.symm h.1), ih h.2 (by simp)]
      simp

theorem tokensFrom_last {separator : Char} {token current : List Char} (h : separator ∉ token)
    (hcurrent : current.reverse ++ token ≠ []) :
    tokensFrom separator current token = [current.reverse ++ token] := by
  induction token generalizing current with
  | nil =>
      have hne : current ≠ [] := by simpa using hcurrent
      rw [tokensFrom, if_neg hne, List.append_nil]
  | cons c token ih =>
      rw [List.mem_cons, not_or] at h
      rw [tokensFrom, if_neg (Ne.symm h.1), ih h.2 (by simp)]
      simp

theorem tokens_append_separator {separator : Char} {token : List Char} (h : separator ∉ token)
    (hne : token ≠ []) (rest : List Char) :
    tokens separator (token ++ separator :: rest) = token :: tokens separator rest :=
  tokensFrom_append_separator h hne

theorem tokens_of_not_mem {separator : Char} {token : List Char} (h : separator ∉ token)
    (hne : token ≠ []) : tokens separator token = [token] :=
  tokensFrom_last h hne

/-- Tokens that are not empty and have no separator in them are found again. -/
theorem tokens_intercalate {separator : Char} {parts : List (List Char)}
    (h : ∀ part ∈ parts, part ≠ [] ∧ separator ∉ part) :
    tokens separator (List.intercalate [separator] parts) = parts := by
  induction parts with
  | nil => rfl
  | cons part parts ih =>
      rw [List.forall_mem_cons] at h
      cases parts with
      | nil =>
          rw [List.intercalate_singleton]
          exact tokens_of_not_mem h.1.2 h.1.1
      | cons part' parts =>
          rw [List.intercalate_cons_cons, List.append_assoc, List.singleton_append,
            tokens_append_separator h.1.2 h.1.1, ih h.2]

/-! ## Reading what has been written -/

section RoundTrip

variable {literal : Char → Bool}

/-- Key and value of each option are not empty. -/
def NoneEmpty (options : List (String × String)) : Prop :=
  ∀ option ∈ options, option.1 ≠ "" ∧ option.2 ≠ ""

/-- One part of a path is read back. -/
theorem getOption_segment (hliteral : ∀ c, literal c = true → isUnreserved c = true)
    {option : String × String} (h : option.1 ≠ "" ∧ option.2 ≠ "") :
    getOption (encodedSegment literal option) = .ok option := by
  have hseparator : ∀ text : String, '=' ∉ encode literal text :=
    fun text hmem => (not_separator_of_mem_encode hliteral hmem).2 rfl
  have htokens : tokens '=' (encodedSegment literal option) =
      [encode literal option.1, encode literal option.2] := by
    unfold encodedSegment
    rw [tokens_append_separator (hseparator _) (encode_ne_nil h.1),
      tokens_of_not_mem (hseparator _) (encode_ne_nil h.2)]
  unfold getOption
  rw [htokens]
  dsimp only
  rw [decode_encode hliteral, decode_encode hliteral]

/-- A part is not parted further. -/
theorem slash_not_mem_segment (hliteral : ∀ c, literal c = true → isUnreserved c = true)
    (option : String × String) : '/' ∉ encodedSegment literal option := by
  have hseparator : ∀ text : String, '/' ∉ encode literal text :=
    fun text hmem => (not_separator_of_mem_encode hliteral hmem).1 rfl
  unfold encodedSegment
  rw [List.mem_append, List.mem_cons, not_or, not_or]
  exact ⟨hseparator _, by decide, hseparator _⟩

/-- `getOptions` reads the options a path has been made of, in order. -/
theorem getOptions_joined (hliteral : ∀ c, literal c = true → isUnreserved c = true)
    {options : List (String × String)} (h : NoneEmpty options) :
    getOptions (joinedPath literal options) = .ok options := by
  have hparts : ∀ part ∈ options.map (encodedSegment literal), part ≠ [] ∧ '/' ∉ part := by
    intro part hpart
    obtain ⟨option, hoption, rfl⟩ := List.mem_map.mp hpart
    refine ⟨?_, slash_not_mem_segment hliteral option⟩
    unfold encodedSegment
    simp
  unfold getOptions joinedPath
  rw [String.toList_ofList, tokens_intercalate hparts, List.mapM_map]
  induction options with
  | nil => rfl
  | cons option options ih =>
      rw [NoneEmpty, List.forall_mem_cons] at h
      rw [List.mapM_cons, Function.comp_apply, getOption_segment hliteral h.1,
        ih h.2 fun part hpart => hparts part (List.mem_cons_of_mem _ hpart)]
      rfl

example : getOptions (joinedPath isUnreserved [("schema", "a/b=%+ é"), ("table", "日本 𝄞")]) =
    .ok [("schema", "a/b=%+ é"), ("table", "日本 𝄞")] := by decide

end RoundTrip

end TeiidSyndesis.Model
