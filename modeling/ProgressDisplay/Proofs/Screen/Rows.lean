import ProgressDisplay.Screen.Writer

/-!
# Rows while drawing

Text, erasures and switches of the rendition keep to their row. Only line breaks leave it, and on
the bottom row they scroll the terminal instead. So after a drawing the writer can be asked for the
row without knowing what was drawn.

* `Stays.line`, `Stays.tabbed`: what keeps to its row.
* `breakLines_of_bottom`: line breaks on the bottom row.
-/

namespace ProgressDisplay

namespace Pen

variable {p : Pen} {row : Nat}

/-- The pen is on a row, and the terminal has not scrolled since it was taken up. -/
structure Stays (row : Nat) (p : Pen) : Prop where
  row : p.cursor.row = row
  unscrolled : p.scrolled = 0

theorem stays_penAt (w : Writer) (place : Position) : (w.penAt place).Stays place.row := ⟨rfl, rfl⟩

namespace Stays

theorem emit (h : p.Stays row) (emissions : List Emission) : (p.emit emissions).Stays row :=
  ⟨h.row, h.unscrolled⟩

theorem text (h : p.Stays row) (content : String) : (p.text content).Stays row := by
  unfold Pen.text
  split
  · exact h
  · exact ⟨h.row, h.unscrolled⟩

theorem eraseRest (h : p.Stays row) : p.eraseRest.Stays row := h.emit _

theorem eraseRestIf (h : p.Stays row) (erase : Bool) : (p.eraseRestIf erase).Stays row := by
  cases erase with
  | true => exact h.eraseRest
  | false => exact h

theorem styled {body : Pen → Pen} (style : Style) (h : p.Stays row)
    (hbody : ∀ q : Pen, q.Stays row → (body q).Stays row) : (p.styled style body).Stays row :=
  (hbody _ (h.emit _)).emit _

theorem line (h : p.Stays row) (line : Line) : (p.line line).Stays row := by
  induction line generalizing p with
  | nil => exact h
  | cons s rest ih => exact ih (h.styled s.style fun q hq => hq.text s.text)

theorem tab (h : p.Stays row) : p.tab.Stays row := h.text _

theorem tabbed (h : p.Stays row) (pieces : List (List Char)) : (p.tabbed pieces).Stays row := by
  induction pieces generalizing p with
  | nil => exact h
  | cons piece rest ih =>
    cases rest with
    | nil => exact h.text _
    | cons next others => exact ih (h.text _).tab

end Stays

/-- On the bottom row the cursor stays where it is, and every line break is counted. -/
theorem breakLines_of_bottom (rows : Nat) (h : p.cursor = .bottomLeft) :
    breakLines rows p =
      { p with
        emitted := p.emitted ++ List.replicate rows .lineBreak
        scrolled := p.scrolled + rows } := by
  induction rows generalizing p with
  | zero => simp [breakLines]
  | succ rows ih =>
    have hstep : p.breakLine =
        { p with emitted := p.emitted ++ [.lineBreak], scrolled := p.scrolled + 1 } := by
      simp [breakLine, emit, h, Position.bottomLeft]
    have hbottom : p.breakLine.cursor = .bottomLeft := by
      rw [hstep]
      exact h
    rw [breakLines, ih hbottom, hstep]
    simp only [List.append_assoc, List.singleton_append, List.replicate_succ, Nat.add_assoc,
      Nat.add_comm 1 rows]

end Pen

namespace Writer

variable {w : Writer} {place : Position} {draw : Pen → Pen} {r : Drawn}

/-- A drawing that keeps to its row ends on it, and the writer goes on from where it ended. -/
theorem drawAt_stays (hok : w.drawAt place draw = .ok r)
    (hdraw : ∀ p : Pen, p.Stays place.row → (draw p).Stays place.row) :
    r.stop.row = place.row ∧ r.scrolled = 0 := by
  obtain ⟨device, -, rfl⟩ := commit_eq_ok_iff.mp hok
  have hstays := hdraw _ (Pen.stays_penAt w place)
  exact ⟨hstays.row, hstays.unscrolled⟩

end Writer

end ProgressDisplay
