import Mathlib.Data.List.GetD

/-!
# Cells of a terminal

A `Grid` gives the character in each cell of a terminal without borders, by the row counted upward
from the bottom and the column. A cell where nothing stands holds a blank. `Shows` says all of a
row, `Begins` says how it begins.

* `Begins.eraseFrom`: what is left of a row that is erased behind its beginning.
* `Shows.write`: text written at the end of a row.
-/

namespace ProgressDisplay

abbrev Grid := Nat → Nat → Char

namespace Grid

variable {g : Grid} {r row col n : Nat} {text more : List Char}

def blank : Grid := fun _ _ => ' '

def put (g : Grid) (row col : Nat) (c : Char) : Grid :=
  fun r j => if r = row ∧ j = col then c else g r j

/-- Blanks the row from a column on. -/
def eraseFrom (g : Grid) (row col : Nat) : Grid :=
  fun r j => if r = row ∧ col ≤ j then ' ' else g r j

def eraseFromIf (g : Grid) (erase : Bool) (row col : Nat) : Grid :=
  if erase then g.eraseFrom row col else g

/-- Moves everything up. Nothing stands on the rows that come in at the bottom. -/
def scroll (g : Grid) (rows : Nat) : Grid := fun r j => if r < rows then ' ' else g (r - rows) j

/-- Puts text in place, one character a cell. -/
def write (g : Grid) (row col : Nat) : List Char → Grid
  | [] => g
  | c :: rest => write (g.put row col c) row (col + 1) rest

/-- The row holds the text and nothing behind it. -/
def Shows (g : Grid) (row : Nat) (text : List Char) : Prop := ∀ j, g row j = text.getD j ' '

/-- The row begins with the text. -/
def Begins (g : Grid) (row : Nat) (text : List Char) : Prop :=
  ∀ j, j < text.length → g row j = text.getD j ' '

/-! ## Rows that stay as they are -/

theorem eraseFrom_of_ne (h : r ≠ row) : g.eraseFrom row col r = g r := by
  funext j
  simp [eraseFrom, h]

theorem eraseFromIf_of_ne {erase : Bool} (h : r ≠ row) : g.eraseFromIf erase row col r = g r := by
  unfold eraseFromIf
  split
  · exact eraseFrom_of_ne h
  · rfl

theorem put_of_ne (h : r ≠ row) (c : Char) : g.put row col c r = g r := by
  funext j
  simp [put, h]

theorem write_of_ne (h : r ≠ row) : g.write row col text r = g r := by
  induction text generalizing g col with
  | nil => rfl
  | cons c rest ih => rw [write, ih, put_of_ne h]

theorem scroll_of_le {rows : Nat} (h : rows ≤ r) : g.scroll rows r = g (r - rows) := by
  funext j
  simp [scroll, Nat.not_lt.mpr h]

theorem scroll_add_row (rows : Nat) : g.scroll rows (r + rows) = g r := by
  rw [scroll_of_le (Nat.le_add_left rows r), Nat.add_sub_cancel]

theorem scroll_zero : g.scroll 0 = g := by
  funext r j
  simp [scroll]

theorem scroll_scroll (m n : Nat) : (g.scroll m).scroll n = g.scroll (m + n) := by
  funext r j
  unfold scroll
  by_cases hn : r < n
  · simp [hn, Nat.lt_of_lt_of_le hn (Nat.le_add_left n m)]
  · by_cases hm : r - n < m
    · have : r < m + n := by omega
      simp [hn, hm, this]
    · have : ¬r < m + n := by omega
      have hsub : r - n - m = r - (m + n) := by omega
      simp [hn, hm, this, hsub]

/-! ## The row that is changed -/

theorem write_left {j : Nat} (h : j < col) : g.write row col text row j = g row j := by
  induction text generalizing g col with
  | nil => rfl
  | cons c rest ih =>
    rw [write, ih (Nat.lt_succ_of_lt h)]
    simp [put, Nat.ne_of_lt h]

theorem write_right {j : Nat} (h : col + text.length ≤ j) :
    g.write row col text row j = g row j := by
  induction text generalizing g col with
  | nil => rfl
  | cons c rest ih =>
    rw [List.length_cons] at h
    rw [write, ih (by omega)]
    have : j ≠ col := by omega
    simp [put, this]

theorem write_inside {j : Nat} (h : j < text.length) :
    g.write row col text row (col + j) = text.getD j ' ' := by
  induction text generalizing g col j with
  | nil => simp at h
  | cons c rest ih =>
    rw [write]
    cases j with
    | zero =>
      rw [write_left (by omega)]
      simp [put]
    | succ j =>
      rw [List.length_cons] at h
      have hnext : col + (j + 1) = col + 1 + j := by omega
      rw [hnext, ih (by omega)]
      simp

theorem Begins.write (h : g.Begins row text) :
    (g.write row text.length more).Begins row (text ++ more) := by
  intro j hj
  rw [List.length_append] at hj
  by_cases hleft : j < text.length
  · rw [write_left hleft, h j hleft, List.getD_append _ _ _ _ hleft]
  · obtain ⟨i, rfl⟩ := Nat.exists_eq_add_of_le (Nat.le_of_not_lt hleft)
    rw [write_inside (by omega), List.getD_append_right _ _ _ _ (by omega)]
    simp

theorem Begins.eraseFrom (h : g.Begins row text) :
    (g.eraseFrom row text.length).Shows row text := by
  intro j
  by_cases hj : text.length ≤ j
  · simp [Grid.eraseFrom, hj]
  · simp only [Grid.eraseFrom, hj, and_false, if_false]
    exact h j (Nat.lt_of_not_le hj)

theorem Begins.of_eq {g' : Grid} (h : g.Begins row text) {row' : Nat} (he : g' row' = g row) :
    g'.Begins row' text := by
  intro j hj
  rw [he]
  exact h j hj

theorem Begins.scroll (h : g.Begins row text) (rows : Nat) :
    (g.scroll rows).Begins (row + rows) text :=
  h.of_eq (scroll_add_row rows)

theorem begins_nil : g.Begins row [] := by
  intro j hj
  simp at hj

namespace Shows

theorem begins (h : g.Shows row text) : g.Begins row text := fun j _ => h j

theorem write (h : g.Shows row text) :
    (g.write row text.length more).Shows row (text ++ more) := by
  intro j
  by_cases hj : j < (text ++ more).length
  · exact h.begins.write j hj
  · rw [List.length_append] at hj
    rw [write_right (by omega), h j, List.getD_eq_default _ _ (by omega),
      List.getD_eq_default _ _ (by rw [List.length_append]; omega)]

theorem eraseFrom (h : g.Shows row text) : (g.eraseFrom row text.length).Shows row text :=
  h.begins.eraseFrom

/-- The row of another grid that holds the same. -/
theorem of_eq {g' : Grid} (h : g.Shows row text) {row' : Nat} (he : g' row' = g row) :
    g'.Shows row' text := by
  intro j
  rw [he]
  exact h j

theorem scroll (h : g.Shows row text) (rows : Nat) : (g.scroll rows).Shows (row + rows) text :=
  h.of_eq (scroll_add_row rows)

end Shows

theorem Begins.eraseFromIf (h : g.Begins row text) (erase : Bool) :
    (g.eraseFromIf erase row text.length).Begins row text := by
  cases erase with
  | true => exact h.eraseFrom.begins
  | false => exact h

theorem shows_scroll_of_lt {rows : Nat} (h : r < rows) : (g.scroll rows).Shows r [] := by
  intro j
  simp [scroll, h]

/-- Text written over a row and erased behind. -/
theorem shows_replaced : ((g.write row 0 text).eraseFrom row text.length).Shows row text := by
  have hbegins : (g.write row 0 text).Begins row text := begins_nil.write
  exact hbegins.eraseFrom

end Grid

end ProgressDisplay
