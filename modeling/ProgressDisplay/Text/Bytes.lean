/-!
# Sizes of text in bytes

Positions in a text may be counted in the bytes of its UTF-8 form. A cut inside a character keeps
or drops the whole of it.

* `dropBytes_append`, `takeBytes_append`: a text cut after the bytes of its first part falls into
  that part and the rest.
-/

namespace ProgressDisplay.Text

/-- No text takes more bytes than this. -/
def largest : Nat := 0x7fffffffffffffff

/-- The number of bytes of a text. -/
def bytes (text : List Char) : Nat := text.foldr (fun c count => c.utf8Size + count) 0

/-- The text behind a number of bytes. -/
def dropBytes : Nat → List Char → List Char
  | 0, text => text
  | _, [] => []
  | count, c :: rest => dropBytes (count - c.utf8Size) rest

/-- The text of a number of bytes. -/
def takeBytes : Nat → List Char → List Char
  | 0, _ => []
  | _, [] => []
  | count, c :: rest => c :: takeBytes (count - c.utf8Size) rest

theorem bytes_cons (c : Char) (rest : List Char) : bytes (c :: rest) = c.utf8Size + bytes rest :=
  rfl

theorem dropBytes_zero (text : List Char) : dropBytes 0 text = text := by
  cases text <;> rfl

theorem takeBytes_zero (text : List Char) : takeBytes 0 text = [] := by
  cases text <;> rfl

theorem dropBytes_cons {count : Nat} (h : 0 < count) (c : Char) (rest : List Char) :
    dropBytes count (c :: rest) = dropBytes (count - c.utf8Size) rest := by
  cases count with
  | zero => omega
  | succ count => rfl

theorem takeBytes_cons {count : Nat} (h : 0 < count) (c : Char) (rest : List Char) :
    takeBytes count (c :: rest) = c :: takeBytes (count - c.utf8Size) rest := by
  cases count with
  | zero => omega
  | succ count => rfl

theorem dropBytes_append (before rest : List Char) :
    dropBytes (bytes before) (before ++ rest) = rest := by
  induction before with
  | nil => exact dropBytes_zero rest
  | cons c before ih =>
    have hc := c.utf8Size_pos
    rw [bytes_cons, List.cons_append, dropBytes_cons (by omega), Nat.add_sub_cancel_left, ih]

theorem takeBytes_append (part rest : List Char) :
    takeBytes (bytes part) (part ++ rest) = part := by
  induction part with
  | nil => exact takeBytes_zero rest
  | cons c part ih =>
    have hc := c.utf8Size_pos
    rw [bytes_cons, List.cons_append, takeBytes_cons (by omega), Nat.add_sub_cancel_left, ih]

end ProgressDisplay.Text
