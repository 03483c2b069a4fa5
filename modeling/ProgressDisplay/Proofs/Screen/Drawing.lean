import ProgressDisplay.Proofs.Screen.Terminal
import ProgressDisplay.Proofs.Screen.Transcript
import ProgressDisplay.Screen.Writer

/-!
# What drawing does to the terminal

A pen draws a screen if a terminal that performs what the pen emitted ends with that screen, and
the pen knows where its cursor is. A writer tracks a screen if the terminal that read all its output
shows that screen, with the cursor where the writer takes it to be.

* `Draws.text`, `Draws.breakLine`, `Draws.line`: one rule for each way to draw.
* `Tracks.drawAt`, `Tracks.moveTo`: a writer that tracked a screen tracks the drawn one.
-/

namespace ProgressDisplay

namespace Emission

/-- Emissions that change nothing on the screen. -/
def Silent (e : Emission) : Prop := e.Quiet ∧ ∀ s : Screen, s.perform e = s

theorem Switches.silent {e : Emission} (h : e.Switches) : e.Silent := by
  cases e with
  | bold | italic | reverse | foreground _ | reset => exact ⟨trivial, fun s => rfl⟩
  | _ => exact h.elim

end Emission

namespace Pen

variable {p q : Pen} {base screen next : Screen} {n : Nat}

/-- From one screen the pen has drawn another, which it scrolled so many times. -/
structure Draws (base : Screen) (p : Pen) (screen : Screen) (scrolled : Nat) : Prop where
  quiet : ∀ e ∈ p.emitted, e.Quiet
  performed : base.performAll p.emitted = screen
  cursor : p.cursor = screen.cursor
  scrolled : p.scrolled = scrolled

theorem Draws.emit {emissions : List Emission} {cursor : Position} {m : Nat}
    (h : p.Draws base screen n) (hquiet : ∀ e ∈ emissions, e.Quiet)
    (hperformed : screen.performAll emissions = next) (hcursor : cursor = next.cursor) :
    Draws base { p.emit emissions with cursor := cursor, scrolled := m } next m where
  quiet := by
    intro e he
    rcases List.mem_append.mp he with he | he
    · exact h.quiet e he
    · exact hquiet e he
  performed := by rw [← hperformed, ← h.performed]; exact base.performAll_append _ _
  cursor := hcursor
  scrolled := rfl

theorem Draws.emit_silent {emissions : List Emission} (h : p.Draws base screen n)
    (hsilent : ∀ e ∈ emissions, e.Silent) : (p.emit emissions).Draws base screen n := by
  have hperformed : screen.performAll emissions = screen := by
    induction emissions with
    | nil => rfl
    | cons e rest ih =>
      rw [Screen.performAll, List.foldl_cons, (hsilent e List.mem_cons_self).2]
      exact ih fun d hd => hsilent d (List.mem_cons_of_mem e hd)
  have hemit := h.emit (fun e he => (hsilent e he).1) hperformed h.cursor (m := n)
  exact ⟨hemit.quiet, hemit.performed, h.cursor, h.scrolled⟩

theorem Draws.styled {body : Pen → Pen} (style : Style) (h : p.Draws base screen n)
    (hbody : ∀ q, q.Draws base screen n → (body q).Draws base next n) :
    (p.styled style body).Draws base next n :=
  (hbody _ (h.emit_silent fun e he => (Rendition.switches_on _ e he).silent)).emit_silent
    fun e he => (Rendition.switches_off _ e he).silent

theorem Draws.text {content : String} (h : p.Draws base screen n)
    (hmeasured : Text.Measured content.toList)
    (hfits : screen.cursor.col + content.toList.length ≤ Position.limit) :
    (p.text content).Draws base (content.toList.foldl Screen.put screen) n := by
  unfold Pen.text
  split
  · rename_i hempty
    subst hempty
    exact h
  · have hquiet : ∀ e ∈ [Emission.text content], e.Quiet := by
      intro e he
      obtain rfl := List.mem_singleton.mp he
      intro c hc
      exact ⟨hmeasured.ne_of_isControl hc rfl, hmeasured.ne_of_isControl hc rfl,
        hmeasured.ne_of_isControl hc rfl⟩
    have hwidth : Text.width content = content.toList.length := by
      have := hmeasured.whole
      rwa [String.ofList_toList] at this
    have hcursor : p.cursor.advance (Text.width content) =
        (content.toList.foldl Screen.put screen).cursor := by
      rw [Screen.foldl_put, h.cursor, hwidth]
      simp only [Position.advance, Position.mk.injEq, true_and]
      omega
    have hscrolled := h.scrolled
    subst hscrolled
    exact h.emit hquiet rfl hcursor

theorem Draws.eraseRest (h : p.Draws base screen n) :
    p.eraseRest.Draws base screen.eraseRest n := by
  have hquiet : ∀ e ∈ [Emission.eraseRest], e.Quiet := by
    intro e he
    obtain rfl := List.mem_singleton.mp he
    trivial
  have hscrolled := h.scrolled
  subst hscrolled
  exact h.emit hquiet rfl h.cursor

theorem Draws.eraseRestIf (h : p.Draws base screen n) (erase : Bool) :
    (p.eraseRestIf erase).Draws base
      { screen with cells := screen.cells.eraseFromIf erase screen.cursor.row screen.cursor.col }
      n := by
  cases erase with
  | true => exact h.eraseRest
  | false => exact h

theorem Draws.breakLine (h : p.Draws base screen n) :
    p.breakLine.Draws base screen.returnCarriage.feedLine
      (n + if screen.cursor.row = 0 then 1 else 0) := by
  have hquiet : ∀ e ∈ [Emission.lineBreak], e.Quiet := by
    intro e he
    obtain rfl := List.mem_singleton.mp he
    trivial
  have hcursor := h.cursor
  have hscrolled := h.scrolled
  unfold Pen.breakLine Screen.feedLine Screen.returnCarriage
  split
  · rename_i hrow
    rw [hcursor] at hrow
    simp only [hrow, if_true, ← hscrolled]
    refine h.emit hquiet ?_ ?_
    · simp [Screen.performAll, Screen.perform, Screen.returnCarriage, Screen.feedLine, hrow]
    · simp [hcursor, hrow]
  · rename_i hrow
    rw [hcursor] at hrow
    simp only [hrow, if_false, Nat.add_zero, ← hscrolled]
    refine h.emit hquiet ?_ ?_
    · simp [Screen.performAll, Screen.perform, Screen.returnCarriage, Screen.feedLine, hrow]
    · simp [hcursor]

/-- Line breaks on the bottom row move everything up. -/
theorem Draws.breakLines (rows : Nat) {cells : Grid}
    (h : p.Draws base { cells := cells, cursor := .bottomLeft } n) :
    (Pen.breakLines rows p).Draws base { cells := cells.scroll rows, cursor := .bottomLeft }
      (n + rows) := by
  induction rows generalizing p cells n with
  | zero =>
    rw [Grid.scroll_zero]
    exact h
  | succ rows ih =>
    have hnext : p.breakLine.Draws base { cells := cells.scroll 1, cursor := .bottomLeft }
        (n + 1) := h.breakLine
    have hrest := ih hnext
    rw [Grid.scroll_scroll, Nat.add_comm 1 rows] at hrest
    have hcount : n + (rows + 1) = n + 1 + rows := by omega
    rw [hcount]
    exact hrest

theorem Draws.line {line : Line} (h : p.Draws base screen n) (hmeasured : line.Measured)
    (hfits : screen.cursor.col + line.characters.length ≤ Position.limit) :
    (p.line line).Draws base (line.characters.foldl Screen.put screen) n := by
  induction line generalizing p screen with
  | nil => exact h
  | cons s rest ih =>
    rw [Line.characters_cons, List.length_append] at hfits
    have hspan : (p.styled s.style fun p => p.text s.text).Draws base
        (s.text.toList.foldl Screen.put screen) n :=
      h.styled s.style fun q hq => hq.text (hmeasured s List.mem_cons_self) (by omega)
    rw [Line.characters_cons, List.foldl_append]
    refine ih hspan (fun d hd => hmeasured d (List.mem_cons_of_mem s hd)) ?_
    rw [Screen.foldl_put]
    show screen.cursor.col + s.text.toList.length + _ ≤ _
    omega

theorem Draws.characters {text : List Char} (h : p.Draws base screen n)
    (hmeasured : Text.Measured text)
    (hfits : screen.cursor.col + text.length ≤ Position.limit) :
    (p.text (String.ofList text)).Draws base (text.foldl Screen.put screen) n := by
  have hlist : (String.ofList text).toList = text := String.toList_ofList
  rw [← hlist] at hmeasured hfits
  have htext := h.text hmeasured hfits
  rwa [hlist] at htext

theorem Draws.tab (h : p.Draws base screen n)
    (hfits : screen.cursor.col + (Transcript.padding screen.cursor.col).length ≤ Position.limit) :
    p.tab.Draws base ((Transcript.padding screen.cursor.col).foldl Screen.put screen) n := by
  have hcolumn : p.tab = p.text (String.ofList (Transcript.padding screen.cursor.col)) := by
    rw [Pen.tab, column, h.cursor]
    rfl
  rw [hcolumn]
  exact h.characters (Transcript.measured_padding _) hfits

/-- Pieces with tabs between them are drawn as the text that they are the pieces of. -/
theorem Draws.tabbed {pieces : List (List Char)} (h : p.Draws base screen n)
    (hmeasured : ∀ piece ∈ pieces, Text.Measured piece)
    (hfits : screen.cursor.col +
      (Transcript.expand screen.cursor.col (['\t'].intercalate pieces)).length ≤ Position.limit) :
    (p.tabbed pieces).Draws base
      ((Transcript.expand screen.cursor.col (['\t'].intercalate pieces)).foldl Screen.put screen)
      n := by
  induction pieces generalizing p screen with
  | nil => exact h
  | cons piece rest ih =>
    have hpiece : Text.Measured piece := hmeasured piece List.mem_cons_self
    cases rest with
    | nil =>
      rw [List.intercalate_singleton, Transcript.expand_of_measured hpiece] at hfits ⊢
      exact h.characters hpiece hfits
    | cons next others =>
      rw [List.intercalate_cons_cons, List.append_assoc, Transcript.expand_append,
        Transcript.expand_of_measured hpiece, List.singleton_append, Transcript.expand_tab]
        at hfits ⊢
      rw [List.length_append, List.length_append] at hfits
      rw [List.foldl_append, List.foldl_append]
      have htext := h.characters hpiece (by omega)
      have hcolumn : (piece.foldl Screen.put screen).cursor.col =
          screen.cursor.col + piece.length := by rw [Screen.foldl_put]
      have htab := htext.tab (by rw [hcolumn]; omega)
      rw [hcolumn] at htab
      have hstop : ((Transcript.padding (screen.cursor.col + piece.length)).foldl Screen.put
          (piece.foldl Screen.put screen)).cursor.col = screen.cursor.col + piece.length +
            (Transcript.padding (screen.cursor.col + piece.length)).length := by
        rw [Screen.foldl_put, hcolumn]
      have hrest := ih htab (fun d hd => hmeasured d (List.mem_cons_of_mem piece hd))
        (by rw [hstop]; omega)
      rw [hstop] at hrest
      exact hrest

end Pen

namespace Writer

variable {w : Writer} {screen next : Screen} {place : Position} {n : Nat}

/-- The terminal that read all output shows the screen, with the cursor where the writer takes it
to be. -/
structure Tracks (w : Writer) (screen : Screen) : Prop where
  replayed : Terminal.replay w.device.output = { screen := screen }
  cursor : w.cursor = screen.cursor

theorem quiet_motions (start target : Position) : ∀ e ∈ start.motions target, e.Quiet := by
  intro e he
  cases e with
  | text content => exact absurd he (Position.text_notMem_motions start target content)
  | _ => trivial

theorem performAll_motions (screen : Screen) (target : Position) :
    screen.performAll (screen.cursor.motions target) = { screen with cursor := target } := by
  obtain ⟨cells, row, col⟩ := screen
  obtain ⟨row', col'⟩ := target
  unfold Position.motions
  by_cases hrow : row = row'
  · subst hrow
    simp only [if_true]
    rcases Nat.lt_trichotomy col col' with hcol | hcol | hcol
    · have hsum : col + max (col' - col) 1 = col' := by omega
      simp [Screen.performAll, Screen.perform, Screen.right, hcol, hsum]
    · simp [Screen.performAll, hcol]
    · have hdiff : col - max (col - col') 1 = col' := by omega
      have hnot : ¬col < col' := by omega
      simp [Screen.performAll, Screen.perform, Screen.left, hcol, hnot, hdiff]
  · simp only [hrow, if_false, Screen.performAll_append]
    have hleft : Screen.performAll { cells := cells, cursor := ⟨row, col⟩ }
        (if 0 < col then [.left col] else []) = { cells := cells, cursor := ⟨row, 0⟩ } := by
      split
      · have hdiff : col - max col 1 = 0 := by omega
        simp [Screen.performAll, Screen.perform, Screen.left, hdiff]
      · have hzero : col = 0 := by omega
        simp [Screen.performAll, hzero]
    have hvertical : Screen.performAll { cells := cells, cursor := ⟨row, 0⟩ }
        (if row < row' then [.up (row' - row)] else [.down (row - row')]) =
          { cells := cells, cursor := ⟨row', 0⟩ } := by
      split
      · have hsum : row + max (row' - row) 1 = row' := by omega
        simp [Screen.performAll, Screen.perform, Screen.up, hsum]
      · have hdiff : row - max (row - row') 1 = row' := by omega
        simp [Screen.performAll, Screen.perform, Screen.down, hdiff]
    rw [hleft, hvertical]
    split
    · have hsum : max col' 1 = col' := by omega
      simp [Screen.performAll, Screen.perform, Screen.right, hsum]
    · have hzero : col' = 0 := by omega
      simp [Screen.performAll, hzero]

namespace Tracks

theorem penAt (h : w.Tracks screen) (place : Position) :
    (w.penAt place).Draws screen { screen with cursor := place } 0 where
  quiet := quiet_motions w.cursor place
  performed := by
    rw [Writer.penAt, h.cursor]
    exact performAll_motions screen place
  cursor := rfl
  scrolled := rfl

/-- What a device took is read from where the terminal was left. -/
theorem deliver {device : Device} {emissions : List Emission} (h : w.Tracks screen)
    (hquiet : ∀ e ∈ emissions, e.Quiet) (hok : w.device.write emissions = .ok device) :
    Terminal.replay device.output = { screen := screen.performAll emissions } := by
  obtain ⟨-, rfl⟩ := Device.write_eq_ok_iff.mp hok
  rw [Terminal.replay_append, h.replayed]
  exact Terminal.readAll_renderAll screen hquiet

theorem drawAt {draw : Pen → Pen} (h : w.Tracks screen)
    (hdraw : ∀ p, p.Draws screen { screen with cursor := place } 0 →
      (draw p).Draws screen next n) {r : Drawn} (hok : w.drawAt place draw = .ok r) :
    r.writer.Tracks next ∧ r.stop = next.cursor ∧ r.scrolled = n := by
  have hdrawn := hdraw _ (h.penAt place)
  obtain ⟨device, hwrite, rfl⟩ := commit_eq_ok_iff.mp hok
  refine ⟨⟨?_, hdrawn.cursor⟩, hdrawn.cursor, hdrawn.scrolled⟩
  rw [h.deliver hdrawn.quiet hwrite, hdrawn.performed]

theorem moveTo (h : w.Tracks screen) {w' : Writer} (hok : w.moveTo place = .ok w') :
    w'.Tracks { screen with cursor := place } := by
  obtain ⟨device, hwrite, rfl⟩ := moveTo_eq_ok_iff.mp hok
  refine ⟨?_, rfl⟩
  show Terminal.replay device.output = _
  rw [h.deliver (quiet_motions _ _) hwrite, h.cursor, performAll_motions]

theorem flush (h : w.Tracks screen) {w' : Writer} (hok : w.flush = .ok w') :
    w'.Tracks screen := by
  unfold Writer.flush Device.flush at hok
  split at hok
  · cases hok
  · obtain rfl := Except.ok.inj hok
    exact ⟨h.replayed, h.cursor⟩

end Tracks

end Writer

end ProgressDisplay
