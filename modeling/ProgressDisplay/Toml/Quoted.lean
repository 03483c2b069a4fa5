import ProgressDisplay.Toml.Space

/-!
# Quoted text

Basic text stands in double quotes and knows escapes; literal text stands in single quotes and
knows none. Either may be written over several lines between tripled quotes: then a line feed
right behind the opening quotes is left out, and up to two quotes may stand before the closing
ones.
-/

namespace ProgressDisplay.Toml

/-- Characters that may stand in quoted text: all but control characters, tabs excepted. -/
def isQuotable (c : Char) : Bool := isCommentChar c

def hexDigit? (c : Char) : Option Nat :=
  if '0' ≤ c ∧ c ≤ '9' then some (c.toNat - '0'.toNat)
  else if 'a' ≤ c ∧ c ≤ 'f' then some (c.toNat - 'a'.toNat + 10)
  else if 'A' ≤ c ∧ c ≤ 'F' then some (c.toNat - 'A'.toNat + 10)
  else none

/-- The number that hexadecimal digits denote. -/
def hexNumber? (digits : List Char) : Option Nat :=
  digits.foldl (fun n c => n.bind fun n => (hexDigit? c).map fun d => n * 16 + d) (some 0)

/-- The character with a code point. Surrogates and numbers beyond the last plane have none. -/
def character? (code : Nat) : Option Char :=
  if code < 0xD800 ∨ (0xE000 ≤ code ∧ code < 0x110000) then some (Char.ofNat code) else none

/-- The character that a number of hexadecimal digits at the start of the text denotes. -/
def codePoint? (digits : Nat) (text : List Char) : Scanned Char :=
  if text.length < digits then none
  else ((hexNumber? (text.take digits)).bind character?).map fun c => (c, text.drop digits)

/-- The character that the text behind a backslash denotes. -/
def escape? : List Char → Scanned Char
  | 'b' :: rest => some ('\x08', rest)
  | 't' :: rest => some ('\t', rest)
  | 'n' :: rest => some ('\n', rest)
  | 'f' :: rest => some ('\x0c', rest)
  | 'r' :: rest => some ('\r', rest)
  | '"' :: rest => some ('"', rest)
  | '\\' :: rest => some ('\\', rest)
  | 'u' :: rest => codePoint? 4 rest
  | 'U' :: rest => codePoint? 8 rest
  | _ => none

theorem length_of_codePoint? {digits : Nat} {text rest : List Char} {c : Char}
    (h : codePoint? digits text = some (c, rest)) : rest.length ≤ text.length := by
  unfold codePoint? at h
  split at h
  · cases h
  · simp only [Option.map_eq_some_iff, Prod.mk.injEq] at h
    obtain ⟨_, _, _, rfl⟩ := h
    simp

theorem length_of_escape? {text rest : List Char} {c : Char}
    (h : escape? text = some (c, rest)) : rest.length < text.length := by
  unfold escape? at h
  split at h <;>
    first
    | (simp only [Option.some.injEq, Prod.mk.injEq] at h
       obtain ⟨_, rfl⟩ := h
       exact Nat.lt_succ_self _)
    | exact Nat.lt_succ_of_le (length_of_codePoint? h)
    | cases h

/-- Reads on in front of what the rest yields. -/
def prepend (c : Char) (tail : Scanned (List Char)) : Scanned (List Char) :=
  tail.map fun r => (c :: r.1, r.2)

/-- The content of basic text on one line, from behind its opening quote. -/
def basic? (text : List Char) : Scanned (List Char) :=
  match text with
  | [] => none
  | '"' :: rest => some ([], rest)
  | '\\' :: rest =>
    match _h : escape? rest with
    | none => none
    | some (c, after) => prepend c (basic? after)
  | c :: rest => if isQuotable c then prepend c (basic? rest) else none
termination_by text.length
decreasing_by
  · exact Nat.lt_succ_of_lt (length_of_escape? _h)
  · exact Nat.lt_succ_self _

/-- The content of literal text on one line, from behind its opening quote. -/
def literal? : List Char → Scanned (List Char)
  | [] => none
  | '\'' :: rest => some ([], rest)
  | c :: rest => if isQuotable c then prepend c (literal? rest) else none

/-- What stands behind three closing quotes: up to two more of them belong to the content. -/
def closing (quote : Char) : List Char → List Char × List Char
  | c :: d :: rest =>
    if c = quote then
      if d = quote then ([quote, quote], rest) else ([quote], d :: rest)
    else ([], c :: d :: rest)
  | [c] => if c = quote then ([quote], []) else ([], [c])
  | [] => ([], [])

/-- The content of basic text over several lines, from behind its opening quotes. A backslash at
the end of a line joins the line to the next text that is not blank. -/
def basicLines? (text : List Char) : Scanned (List Char) :=
  match text with
  | [] => none
  | '"' :: '"' :: '"' :: rest => some (closing '"' rest)
  | '\\' :: rest =>
    if (lineFeed? (dropSpace rest)).isSome then basicLines? (dropBlank rest)
    else
      match _h : escape? rest with
      | none => none
      | some (c, after) => prepend c (basicLines? after)
  | '\n' :: rest => prepend '\n' (basicLines? rest)
  | '\r' :: '\n' :: rest => prepend '\n' (basicLines? rest)
  | c :: rest => if isQuotable c then prepend c (basicLines? rest) else none
termination_by text.length
decreasing_by
  · exact Nat.lt_succ_of_le (dropBlank_length_le rest)
  · exact Nat.lt_succ_of_lt (length_of_escape? _h)
  · exact Nat.lt_succ_self _
  · exact Nat.lt_succ_of_lt (Nat.lt_succ_self _)
  · exact Nat.lt_succ_self _

/-- The content of literal text over several lines, from behind its opening quotes. -/
def literalLines? : List Char → Scanned (List Char)
  | [] => none
  | '\'' :: '\'' :: '\'' :: rest => some (closing '\'' rest)
  | '\n' :: rest => prepend '\n' (literalLines? rest)
  | '\r' :: '\n' :: rest => prepend '\n' (literalLines? rest)
  | c :: rest => if isQuotable c then prepend c (literalLines? rest) else none

/-- The text without a line feed at its start. -/
def withoutFirstFeed (text : List Char) : List Char := (lineFeed? text).getD text

/-- Content as a string. -/
def asString (r : List Char × List Char) : String × List Char := (String.ofList r.1, r.2)

/-- Quoted text on one line. -/
def quotedOnLine? : List Char → Scanned String
  | '"' :: rest => (basic? rest).map asString
  | '\'' :: rest => (literal? rest).map asString
  | _ => none

/-- Quoted text, on one line or several. -/
def quoted? : List Char → Scanned String
  | '"' :: '"' :: '"' :: rest => (basicLines? (withoutFirstFeed rest)).map asString
  | '\'' :: '\'' :: '\'' :: rest => (literalLines? (withoutFirstFeed rest)).map asString
  | text => quotedOnLine? text

end ProgressDisplay.Toml
