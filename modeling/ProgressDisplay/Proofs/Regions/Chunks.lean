import ProgressDisplay.Proofs.Regions.Bookkeeping
import ProgressDisplay.Proofs.Regions.Likeness
import ProgressDisplay.Proofs.Screen.Caret
import ProgressDisplay.Proofs.Screen.Resumption

/-!
# Output in chunks

A text may be written by several calls, cut anywhere: in a line, next to a tab, or within a line
end. Each call makes room for itself, but after the first one the line is clear of the block, so
nothing is scrolled or erased again. Only the columns may be counted otherwise, because each call
measures its own text.

* `Page.agree_writeText`, `Page.agree_writeLines`: a line in two parts, and lines in two parts.
* `Page.write_append`: one text written by two calls.
-/

namespace ProgressDisplay

open Attempt

theorem StatusBlock.raise_raise (b : StatusBlock) (m n : Nat) :
    (b.raise m).raise n = b.raise (m + n) := by
  simp only [raise, List.map_map, Position.raise_add, StatusBlock.mk.injEq, and_true]
  refine List.map_congr_left fun l _ => ?_
  simp only [Function.comp, AnchoredLine.raise, Position.raise_add]

namespace Page

variable {s t u : Page}

/-! ## A drawing in two parts -/

/-- The page after its device took what a pen drew where the output goes on. -/
def drew (s : Page) (p : Pen) : Page :=
  { s with writer := s.writer.deliver p, block := s.block.raise p.scrolled, text := p.cursor }

theorem drawText_of_none (h : s.writer.device.writeFault = .none) (draw : Pen → Pen) :
    s.drawText draw = .done (s.drew (draw (s.writer.penAt s.text))) := by
  rw [drawText, Writer.drawAt_of_none h]
  rfl

/-- What a second pen draws behind a first one is drawn by a third one alone. -/
theorem drew_alike {p q r : Pen} (h : s.writer.device.writeFault = .none) {row : Nat}
    (hp : p.Stays row) (hq : q.Stays row) (hr : r.Stays row) (hresumes : q.Resumes p.emitted r) :
    ((s.drew p).drew q).Alike (s.drew r) where
  writer := by
    refine ⟨h, h, ?_, rfl, hresumes.cursor⟩
    show Emission.renderAll (s.writer.device.output ++ p.emitted ++ q.emitted) =
      Emission.renderAll (s.writer.device.output ++ r.emitted)
    rw [List.append_assoc, Emission.renderAll_append, hresumes.emitted, ← Emission.renderAll_append]
  block := by
    show (s.block.raise p.scrolled).raise q.scrolled = s.block.raise r.scrolled
    rw [StatusBlock.raise_raise, hp.unscrolled, hq.unscrolled, hr.unscrolled]
  text := hresumes.cursor
  style := rfl

/-! ## A line in two parts -/

/-- Output is drawn plainly, and the device takes it. -/
structure Writable (s : Page) : Prop where
  low : s.block.height ≤ Position.limit
  plain : s.writer.palette s.style = .plain
  writes : s.writer.device.writeFault = .none

theorem Follows.writable (h : u.Follows s) (hs : s.Writable) : u.Writable where
  low := h.height ▸ hs.low
  plain := by rw [h.writer.palette, h.style, hs.plain]
  writes := h.writer.writeFault.trans hs.writes

theorem Writable.drew (hs : s.Writable) (p : Pen) : (s.drew p).Writable where
  low := Nat.le_trans (Nat.le_of_eq (List.length_map _)) hs.low
  plain := hs.plain
  writes := hs.writes

theorem Writable.exists_vacated (hs : s.Writable) :
    ∃ t, s.vacateLine = .done t ∧ t.Lifted s true := by
  have hok := ((Alike.refl hs.writes).vacateLine).left
  have hcleared := vacateLine_clears hs.low hok
  exact ⟨_, eq_done_of_none hok, hcleared.1⟩

/-- The text of a line up to its first tab. -/
def firstPiece (line : List Char) : List Char := (Text.pieces '\t' line).headD []

/-- The text of a line behind its last tab. -/
def lastPiece (line : List Char) : List Char := (Text.pieces '\t' line).getLastD []

/-- Text that was written leaves the line as clear of the block as it was. -/
theorem overlap_drew {p : Pen} (hp : p.Stays s.text.row) :
    (s.drew p).overlap true = s.overlap true := by
  simp only [Page.overlap, StatusBlock.overlap, StatusBlock.top, StatusBlock.height, drew,
    StatusBlock.raise, List.length_map, hp.row, Bool.or_true]

/-- The pen that a text is written with, after the line was cleared of the block. -/
def textPen (s t : Page) : Pen :=
  (t.writer.penAt t.text).eraseRestIf (s.overlap true != 0)

theorem stays_textPen (s t : Page) : (s.textPen t).Stays t.text.row :=
  (Pen.stays_penAt t.writer t.text).eraseRestIf _

theorem textPen_of_clear (h : s.overlap true = 0) : s.textPen t = t.writer.penAt t.text := by
  rw [textPen, h]
  rfl

theorem writeText_plain {text : List Char} (hne : text ≠ []) (hvacated : s.vacateLine = .done t)
    (ht : t.Writable) (hstyle : t.style = s.style) :
    s.writeText text = .done (t.drew ((s.textPen t).tabbed (Text.pieces '\t' text))) := by
  have hpen : (s.textPen t).palette s.style = .plain := by
    unfold textPen
    rw [← hstyle]
    cases s.overlap true != 0 <;> exact ht.plain
  rw [writeText, if_neg hne, hvacated, done_andThen, drawText_of_none ht.writes]
  exact congrArg (fun p => done (t.drew p)) (Pen.styled_of_plain hpen _)

/-- The second part of a line finds the line clear, so it only goes on behind the first one. -/
theorem agree_writeText {first second : List Char} (hs : s.Writable)
    (hcut : Text.columns (lastPiece first ++ firstPiece second) =
      Text.columns (lastPiece first) + Text.columns (firstPiece second)) :
    Agree Alike ((s.writeText first).andThen fun u => u.writeText second)
      (s.writeText (first ++ second)) := by
  have hsame := Alike.refl hs.writes
  by_cases hfirst : first = []
  · subst hfirst
    exact hsame.writeText second
  by_cases hsecond : second = []
  · subst hsecond
    have hnothing : ((s.writeText first).andThen fun u => u.writeText []) = s.writeText first :=
      andThen_done _
    rw [hnothing, List.append_nil]
    exact hsame.writeText first
  obtain ⟨t, hvacated, hlifted⟩ := hs.exists_vacated
  have ht : t.Writable := hlifted.toFollows.writable hs
  have hpen := stays_textPen s t
  have hstays := hpen.tabbed (Text.pieces '\t' first)
  have hclear : (t.drew ((s.textPen t).tabbed (Text.pieces '\t' first))).overlap true = 0 :=
    (overlap_drew hstays).trans hlifted.clear
  rw [writeText_plain hfirst hvacated ht hlifted.style, done_andThen,
    writeText_plain (List.append_ne_nil_of_left_ne_nil hfirst second) hvacated ht hlifted.style,
    writeText_plain hsecond (vacateLine_of_clear hclear) (ht.drew _) rfl,
    textPen_of_clear hclear]
  refine agree_done (drew_alike ht.writes hstays ?_ (hpen.tabbed _) ?_)
  · rw [← hstays.row]
    exact (Pen.stays_penAt _ _).tabbed _
  · rw [Text.pieces_append]
    exact Pen.resumes_tabbed (Text.pieces_ne_nil _ _) (Text.pieces_ne_nil _ _) rfl
      (Position.motions_self _) hcut

/-! ## Lines in two parts -/

/-- What follows the first of some lines. -/
def writeRest : List (List Char) → Page → Attempt DeviceFailure Page
  | [], s => .done s
  | rest, s => s.endLine.andThen (writeLines rest)

theorem writeLines_cons (line : List Char) (rest : List (List Char)) (s : Page) :
    writeLines (line :: rest) s = (s.writeText (withoutReturn line)).andThen (writeRest rest) := by
  cases rest with
  | nil => exact (andThen_done _).symm
  | cons next others => exact andThen_assoc _ _ _

theorem writeLines_of_ne_nil (line : List Char) {rest : List (List Char)} (h : rest ≠ [])
    (s : Page) :
    writeLines (line :: rest) s =
      ((s.writeText (withoutReturn line)).andThen endLine).andThen (writeLines rest) := by
  cases rest with
  | nil => exact absurd rfl h
  | cons next others => rfl

theorem Alike.writeRest {s s' : Page} (h : s.Alike s') (rest : List (List Char)) :
    Agree Alike (Page.writeRest rest s) (Page.writeRest rest s') := by
  cases rest with
  | nil => exact agree_done h
  | cons next others => exact h.endLine.andThen fun _ _ hu => hu.writeLines _

theorem withoutReturn_append {first second : List Char}
    (h : first.getLast? = some '\r' → second = []) :
    withoutReturn (first ++ second) = withoutReturn first ++ withoutReturn second := by
  by_cases hsecond : second = []
  · subst hsecond
    rw [List.append_nil]
    exact (List.append_nil _).symm
  · have hfirst : ¬first.getLast? = some '\r' := fun hlast => hsecond (h hlast)
    have hlast : (first ++ second).getLast? = second.getLast? := by
      rw [List.getLast?_append, List.getLast?_eq_some_getLast hsecond]
      rfl
    simp only [withoutReturn, hlast, if_neg hfirst]
    split
    · exact List.dropLast_append_of_ne_nil hsecond
    · rfl

/-- The last of the first lines goes on with the first of the others. A carriage return that ends
the one is dropped, so nothing may come behind it. -/
theorem agree_writeLines {first second : List (List Char)} (hs : s.Writable) (hfirst : first ≠ [])
    (hsecond : second ≠ [])
    (hreturn : (first.getLastD []).getLast? = some '\r' → second.headD [] = [])
    (hcut : Text.columns (lastPiece (withoutReturn (first.getLastD [])) ++
        firstPiece (withoutReturn (second.headD []))) =
      Text.columns (lastPiece (withoutReturn (first.getLastD []))) +
        Text.columns (firstPiece (withoutReturn (second.headD [])))) :
    Agree Alike ((writeLines first s).andThen (writeLines second))
      (writeLines (Text.joinEnds first second) s) := by
  induction first generalizing s with
  | nil => exact absurd rfl hfirst
  | cons line rest ih =>
    cases rest with
    | nil =>
      cases second with
      | nil => exact absurd rfl hsecond
      | cons head tail =>
        have hhead : writeLines (head :: tail) = fun u =>
            (u.writeText (withoutReturn head)).andThen (writeRest tail) :=
          funext fun u => writeLines_cons head tail u
        have hjoined : withoutReturn (line ++ head) = withoutReturn line ++ withoutReturn head :=
          withoutReturn_append hreturn
        show Agree Alike ((s.writeText (withoutReturn line)).andThen (writeLines (head :: tail)))
          (writeLines ((line ++ head) :: tail) s)
        rw [hhead, ← andThen_assoc, writeLines_cons, hjoined]
        exact (agree_writeText hs hcut).andThen fun _ _ hu => hu.writeRest tail
    | cons next others =>
      have hne := List.cons_ne_nil next others
      have hended : Agree Alike ((s.writeText (withoutReturn line)).andThen endLine)
          ((s.writeText (withoutReturn line)).andThen endLine) :=
        ((Alike.refl hs.writes).writeText _).andThen fun _ _ hu => hu.endLine
      have hfollows : ((s.writeText (withoutReturn line)).andThen endLine).state.Follows s :=
        (writeText_follows hs.low _).andThen (fun u hu =>
          (endLine_follows (hu.height ▸ hs.low)).mono fun _ hv => hv.trans hu) hended.left
      rw [Text.joinEnds_cons line hne, writeLines_of_ne_nil line hne,
        writeLines_of_ne_nil line (Text.joinEnds_ne_nil hne second), andThen_of_none hended.left,
        andThen_of_none hended.left]
      exact ih (hfollows.writable hs) hne hreturn hcut

/-! ## A text in two parts -/

/-- The stretch that a text begins with, up to its first tab or line end. -/
def firstStretch (text : List Char) : List Char :=
  firstPiece (withoutReturn ((Text.pieces '\n' text).headD []))

/-- The stretch that a text ends with, behind its last tab and line end. -/
def lastStretch (text : List Char) : List Char :=
  lastPiece (withoutReturn ((Text.pieces '\n' text).getLastD []))

theorem headD_pieces_of_break {text : List Char}
    (h : text = [] ∨ text.head? = some '\n') : (Text.pieces '\n' text).headD [] = [] := by
  rcases h with rfl | h
  · rfl
  · obtain ⟨rest, rfl⟩ := List.head?_eq_some_iff.mp h
    rfl

theorem getLast?_of_pieces {sep c : Char} {text : List Char}
    (h : ((Text.pieces sep text).getLastD []).getLast? = some c) : text.getLast? = some c := by
  obtain ⟨before, hbefore⟩ := Text.getLastD_pieces_suffix sep text
  rw [← hbefore, List.getLast?_append, h]
  rfl

/-- Two calls write what one call with the whole text writes, and leave the page alike, if the
stretch of text that was cut is as wide as its two parts. -/
theorem write_append (s : Page) (first second : String)
    (hlow : s.block.height ≤ Position.limit) (hplain : s.writer.palette s.style = .plain)
    (hwrites : s.writer.device.writeFault = .none)
    (hreturn : first.toList.getLast? = some '\r' →
      second.toList = [] ∨ second.toList.head? = some '\n')
    (hcut : Text.columns (lastStretch first.toList ++ firstStretch second.toList) =
      Text.columns (lastStretch first.toList) + Text.columns (firstStretch second.toList)) :
    let apart := (s.write first).andThen fun u => u.write second
    let whole := s.write (first ++ second)
    apart.failure = none ∧ whole.failure = none ∧
      Emission.renderAll apart.state.writer.device.output =
        Emission.renderAll whole.state.writer.device.output ∧
      apart.state.text = whole.state.text ∧
      apart.state.writer.cursor = whole.state.writer.cursor ∧
      apart.state.block = whole.state.block := by
  intro apart whole
  have hagree : Agree Alike apart whole := by
    show Agree Alike ((writeLines _ s).andThen (writeLines _)) (writeLines _ s)
    rw [String.toList_append, Text.pieces_append]
    refine agree_writeLines ⟨hlow, hplain, hwrites⟩ (Text.pieces_ne_nil _ _)
      (Text.pieces_ne_nil _ _) (fun hlast => ?_) hcut
    exact headD_pieces_of_break (hreturn (getLast?_of_pieces hlast))
  have halike := hagree.related
  exact ⟨hagree.left, hagree.right, halike.writer.output, halike.text, halike.writer.cursor,
    halike.block⟩

/-- A text that is cut within a line end, with the block in the way of its first line. -/
theorem write_append_within_lineEnd :
    let s := start {} .blank 1
    let apart := (s.write "a\tb\r").andThen fun u => u.write "\nc"
    let whole := s.write ("a\tb\r" ++ "\nc")
    apart.failure = none ∧ whole.failure = none ∧
      Emission.renderAll apart.state.writer.device.output =
        Emission.renderAll whole.state.writer.device.output ∧
      apart.state.text = whole.state.text ∧
      apart.state.writer.cursor = whole.state.writer.cursor ∧
      apart.state.block = whole.state.block :=
  write_append (start {} .blank 1) "a\tb\r" "\nc" (by decide) rfl rfl (by decide)
    (by decide +kernel)

/-- A line may be as wide as its characters although its two parts are not: here two letters that
count as one make up for an emoji that is wider than its characters. -/
theorem not_write_append_of_columns :
    ¬∀ (s : Page) (first second : String), s.writer.palette s.style = .plain →
      s.writer.device.writeFault = .none → '\r' ∉ (first ++ second).toList →
      (∀ line ∈ Text.pieces '\n' (first ++ second).toList,
        Text.columns line = Caret.columns line) →
      ((s.write first).andThen fun u => u.write second).state.text =
        (s.write (first ++ second)).state.text := by
  intro h
  have hsame := h (start {} .blank 0) "\u0644" "\u06271\ufe0f" rfl rfl (by decide)
    (by decide +kernel)
  revert hsame
  decide +kernel

end Page

end ProgressDisplay
