import ProgressDisplay.Proofs.Screen.Delivery
import ProgressDisplay.Proofs.Screen.Transcript
import ProgressDisplay.Regions.Page

/-!
# What is printed plainly

A `Printout` is what an output holds that knows nothing of a screen: lines with an end after each,
and tabs filled up to the next multiple of eight columns. Text comes in calls, and a call may go on
with the line that another has begun. How many columns such a line takes is a `Measure` of its
parts.

* `Text.measure_append_blank`: what stands before a blank and what stands behind it do not touch.
* `Pen.Types.tabbed`: a pen types what is to be printed, if the parts are measured apart.
-/

namespace ProgressDisplay

namespace Text

/-! ## Blanks -/

theorem before_blank (lead : Lead) : before ' ' lead = (1, {}) := by
  have hblank : hasVariants ' ' = false := by decide +kernel
  unfold before
  split
  · rw [hblank]
    rfl
  · rfl

theorem measure_blank (text : List Char) :
    measure (' ' :: text) = (1 + (measure text).1, {}) := by
  simp [measure, before_blank]

/-- A blank takes a column of its own, and the text before it is measured as if it ended there. -/
theorem measure_append_blank (first second : List Char) :
    measure (first ++ ' ' :: second) =
      ((measure first).1 + (1 + (measure second).1), (measure first).2) := by
  induction first with
  | nil =>
    rw [List.nil_append, measure_blank]
    simp [measure]
  | cons c rest ih =>
    simp only [List.cons_append, measure, ih]
    rw [Int.add_assoc]

/-- The columns of a text given by its characters. -/
def columns (text : List Char) : Nat := width (String.ofList text)

theorem columns_eq_measure (text : List Char) : (columns text : Int) = (measure text).1 := by
  have hwidth := width_eq_measure (String.ofList text)
  rwa [String.toList_ofList] at hwidth

theorem columns_nil : columns [] = 0 := rfl

theorem columns_append_blank (first second : List Char) :
    columns (first ++ ' ' :: second) = columns first + (1 + columns second) := by
  have hwhole := columns_eq_measure (first ++ ' ' :: second)
  have hfirst := columns_eq_measure first
  have hsecond := columns_eq_measure second
  rw [measure_append_blank] at hwhole
  omega

theorem columns_append_blanks (first : List Char) (n : Nat) (second : List Char) :
    columns (first ++ List.replicate (n + 1) ' ' ++ second) =
      columns first + (n + 1) + columns second := by
  induction n generalizing first with
  | zero =>
    rw [List.append_assoc]
    have := columns_append_blank first second
    simp only [List.replicate_succ, List.replicate_zero, List.singleton_append]
    omega
  | succ n ih =>
    have hstep := ih (first ++ [' '])
    have hblank := columns_append_blank first []
    rw [List.replicate_succ, List.append_cons]
    rw [columns_nil] at hblank
    omega

end Text

/-- How many columns a line takes whose text came in parts, one from each call. -/
abbrev Measure := List (List Char) → Nat

namespace Measure

/-- Each part by itself. -/
def apart : Measure
  | [] => 0
  | part :: rest => Text.columns part + apart rest

/-- The line as one text. -/
def whole : Measure := fun parts => Text.columns parts.flatten

theorem apart_concat (parts : List (List Char)) (last : List Char) :
    apart (parts ++ [last]) = apart parts + Text.columns last := by
  induction parts with
  | nil => exact Nat.add_comm _ _
  | cons part rest ih => rw [List.cons_append, apart, apart, ih, Nat.add_assoc]

end Measure

structure Printout where
  /-- the lines that were ended, each as the parts that calls have written -/
  ended : List (List (List Char)) := []
  /-- what earlier calls have written on the current line -/
  earlier : List (List Char) := []
  /-- what the latest call has written on the current line -/
  latest : List Char := []

namespace Printout

/-- The parts of the current line. -/
def parts (t : Printout) : List (List Char) := t.earlier ++ [t.latest]

/-- All that was printed. -/
def characters (t : Printout) : List Char :=
  t.ended.flatMap (fun line => line.flatten ++ ['\r', '\n']) ++ t.parts.flatten

/-- No line is too long for its columns to be counted. -/
def Fits (m : Measure) (t : Printout) : Prop :=
  (∀ line ∈ t.ended, m line < Position.limit) ∧ m t.parts < Position.limit

instance (m : Measure) (t : Printout) : Decidable (t.Fits m) :=
  inferInstanceAs (Decidable (_ ∧ _))

def add (t : Printout) (text : List Char) : Printout := { t with latest := t.latest ++ text }

/-- Ends the current line. -/
def endLine (t : Printout) : Printout := { ended := t.ended ++ [t.parts] }

/-- Another call, which may go on with the current line. -/
def call (t : Printout) : Printout := { t with earlier := t.parts, latest := [] }

variable (m : Measure)

/-- Blanks up to the next tab stop. -/
def tab (t : Printout) : Printout := t.add (Transcript.padding (m t.parts))

def type (t : Printout) (c : Char) : Printout := if c = '\t' then t.tab m else t.add [c]

/-- Text without line ends. -/
def typeLine (t : Printout) (line : List Char) : Printout := line.foldl (type m) t

/-- Lines with an end between each two. -/
def typeLines : List (List Char) → Printout → Printout
  | [], t => t
  | [last], t => t.typeLine m (Page.withoutReturn last)
  | line :: rest, t => typeLines rest (t.typeLine m (Page.withoutReturn line)).endLine

/-- What a call prints. -/
def request (t : Printout) : OutputRequest → Printout
  | .style _ => t
  | .text content => typeLines m (Text.pieces '\n' content.toList) t.call
  | .endLine => t.endLine
  | .line content => (typeLines m (Text.pieces '\n' content.toList) t.call).endLine

/-- What calls print, one after the other. -/
def ofRequests (requests : List OutputRequest) : Printout := requests.foldl (request m) {}

/-! ## Lines that grow -/

variable {m} {t : Printout} {text piece : List Char}

theorem add_nil (t : Printout) : t.add [] = t := by
  rw [add, List.append_nil]

theorem add_add (t : Printout) (first second : List Char) :
    (t.add first).add second = t.add (first ++ second) := by
  rw [add, add, add, List.append_assoc]

theorem characters_add (t : Printout) (text : List Char) :
    (t.add text).characters = t.characters ++ text := by
  simp [characters, parts, add]

theorem characters_endLine (t : Printout) :
    t.endLine.characters = t.characters ++ ['\r', '\n'] := by
  simp [characters, parts, endLine]

theorem characters_call (t : Printout) : t.call.characters = t.characters := by
  simp [characters, parts, call]

theorem typeLine_append (t : Printout) (first second : List Char) :
    t.typeLine m (first ++ second) = (t.typeLine m first).typeLine m second := List.foldl_append

theorem typeLine_of_not_mem (h : '\t' ∉ piece) : t.typeLine m piece = t.add piece := by
  induction piece generalizing t with
  | nil => exact t.add_nil.symm
  | cons c rest ih =>
    have hc : c ≠ '\t' := fun hc => h (hc ▸ List.mem_cons_self)
    have hrest : '\t' ∉ rest := fun hm => h (List.mem_cons_of_mem c hm)
    have hstep : t.typeLine m (c :: rest) = (t.type m c).typeLine m rest := rfl
    rw [hstep, ih hrest, type, if_neg hc, add_add]
    rfl

/-- What is added to the current line is measured by itself. -/
def Separate (t : Printout) : Prop :=
  ∀ text, Text.columns (t.latest ++ text) = Text.columns t.latest + Text.columns text

theorem separate_of_nil (h : t.latest = []) : t.Separate := by
  intro text
  rw [h, List.nil_append, Text.columns_nil, Nat.zero_add]

theorem exists_padding (column : Nat) :
    ∃ n, Transcript.padding column = List.replicate (n + 1) ' ' ∧ n + 1 = 8 - column % 8 :=
  ⟨7 - column % 8, by
    rw [Transcript.padding]
    congr 1
    omega, by omega⟩

theorem separate_tab (t : Printout) : (t.tab m).Separate := by
  intro text
  obtain ⟨n, hpadding, -⟩ := exists_padding (m t.parts)
  have hwith := Text.columns_append_blanks t.latest n text
  have halone := Text.columns_append_blanks t.latest n []
  rw [List.append_nil, Text.columns_nil] at halone
  show Text.columns (t.latest ++ Transcript.padding (m t.parts) ++ text) =
    Text.columns (t.latest ++ Transcript.padding (m t.parts)) + Text.columns text
  rw [hpadding, hwith, halone]
  omega

theorem columns_parts (t : Printout) :
    Measure.apart t.parts = Measure.apart t.earlier + Text.columns t.latest :=
  Measure.apart_concat t.earlier t.latest

theorem columns_add (h : t.Separate) (text : List Char) :
    Measure.apart (t.add text).parts = Measure.apart t.parts + Text.columns text := by
  rw [columns_parts, columns_parts, Nat.add_assoc, ← h text]
  rfl

theorem columns_tab (t : Printout) :
    Measure.apart (t.tab m).parts =
      Measure.apart t.parts + Text.columns (Transcript.padding (m t.parts)) := by
  obtain ⟨n, hpadding, -⟩ := exists_padding (m t.parts)
  have hfilled := Text.columns_append_blanks t.latest n []
  have halone := Text.columns_append_blanks [] n []
  simp only [List.append_nil, List.nil_append, Text.columns_nil, ← hpadding] at hfilled halone
  have hlatest : (t.tab m).latest = t.latest ++ Transcript.padding (m t.parts) := rfl
  have hearlier : (t.tab m).earlier = t.earlier := rfl
  have htab := columns_parts (t.tab m)
  have hparts := columns_parts t
  rw [hlatest, hearlier] at htab
  omega

theorem Fits.of_columns {u : Printout} (h : u.Fits .apart) (hended : u.ended = t.ended)
    (hcolumns : Measure.apart t.parts ≤ Measure.apart u.parts) : t.Fits .apart :=
  ⟨hended ▸ h.1, Nat.lt_of_le_of_lt hcolumns h.2⟩

theorem Fits.of_tab (h : (t.tab m).Fits .apart) : t.Fits .apart :=
  h.of_columns rfl (by rw [columns_tab]; omega)

theorem Fits.of_endLine (h : t.endLine.Fits .apart) : t.Fits .apart :=
  ⟨fun line hline => h.1 line (List.mem_append_left _ hline),
    h.1 t.parts (List.mem_append_right _ List.mem_cons_self)⟩

theorem columns_call (t : Printout) : Measure.apart t.call.parts = Measure.apart t.parts := by
  show Measure.apart (t.parts ++ [[]]) = _
  rw [Measure.apart_concat, Text.columns_nil, Nat.add_zero]

theorem Fits.of_call (h : t.call.Fits .apart) : t.Fits .apart :=
  h.of_columns rfl (Nat.le_of_eq t.columns_call.symm)

/-- A line that is too long. Nothing is said of what an output holds that came to it. -/
def overlong : Printout := { latest := List.replicate Position.limit ' ' }

theorem not_fits_overlong : ¬overlong.Fits .apart := by
  rintro ⟨-, hshort⟩
  have hblanks := Text.columns_append_blanks [] 65534 []
  rw [columns_parts] at hshort
  simp only [List.nil_append, List.append_nil, Text.columns_nil] at hblanks
  have hlimit : Position.limit = 65534 + 1 := rfl
  have hlong : Text.columns overlong.latest = 0 + (65534 + 1) + 0 := hblanks
  omega

end Printout

/-! ## A pen that prints -/

namespace Emission

/-- Text or a line break. -/
def Plain : Emission → Prop
  | text _ | lineBreak => True
  | _ => False

theorem renderAll_append (first second : List Emission) :
    renderAll (first ++ second) = renderAll first ++ renderAll second := by
  rw [renderAll, List.map_append, String.join_append]
  rfl

theorem renderAll_singleton (e : Emission) : renderAll [e] = e.render := by
  simp [renderAll]

end Emission

namespace Pen

variable {t₀ t : Printout} {p : Pen} {piece : List Char}

/-- For a style that is drawn plainly, nothing is switched. -/
theorem styled_of_plain {style : Style} (h : p.palette style = .plain) (body : Pen → Pen) :
    p.styled style body = body p := by
  simp [styled, h, Rendition.on, Rendition.off, Rendition.isPlain, Rendition.plain, emit]

/-- Between two states of a printout the pen has emitted what was printed, and it stands behind it,
unless a line was too long. -/
structure Types (t₀ t : Printout) (p : Pen) : Prop where
  plain : ∀ e ∈ p.emitted, e.Plain
  fits : t.Fits .apart → t₀.Fits .apart
  column : t.Fits .apart → p.cursor.col = Measure.apart t.parts
  emitted : t.Fits .apart → t.characters = t₀.characters ++ (Emission.renderAll p.emitted).toList

theorem renderAll_text (p : Pen) (piece : List Char) :
    (Emission.renderAll (p.text (String.ofList piece)).emitted).toList =
      (Emission.renderAll p.emitted).toList ++ piece := by
  rw [emitted_text, Emission.renderAll_append, String.toList_append]
  split
  · rename_i hempty
    have hnil : piece = [] := String.ofList_eq_empty_iff.mp hempty
    rw [hnil]
    rfl
  · rw [Emission.renderAll_singleton, Emission.render, String.toList_ofList]

theorem col_text (p : Pen) (piece : List Char) (hcol : p.cursor.col ≤ Position.limit) :
    (p.text (String.ofList piece)).cursor.col =
      min (p.cursor.col + Text.columns piece) Position.limit := by
  unfold text
  split
  · rename_i hempty
    have hnone : Text.columns piece = 0 := by
      rw [Text.columns, hempty]
      rfl
    rw [hnone]
    omega
  · rfl

theorem plain_text (h : ∀ e ∈ p.emitted, e.Plain) (content : String) :
    ∀ e ∈ (p.text content).emitted, e.Plain := by
  rw [emitted_text]
  refine List.forall_mem_append.mpr ⟨h, ?_⟩
  split
  · simp
  · exact List.forall_mem_singleton.mpr trivial

namespace Types

theorem add {u : Printout} (h : p.Types t₀ t) (hadd : u = t.add piece)
    (hcolumns : Measure.apart u.parts = Measure.apart t.parts + Text.columns piece) :
    (p.text (String.ofList piece)).Types t₀ u := by
  subst hadd
  have hbefore : (t.add piece).Fits .apart → t.Fits .apart :=
    fun hfits => hfits.of_columns rfl (by omega)
  refine ⟨plain_text h.plain _, fun hfits => h.fits (hbefore hfits), fun hfits => ?_,
    fun hfits => ?_⟩
  · have hcol := h.column (hbefore hfits)
    have hfew := (hbefore hfits).2
    have hmore := hfits.2
    rw [col_text _ _ (by omega), hcol, hcolumns]
    omega
  · rw [Printout.characters_add, renderAll_text, h.emitted (hbefore hfits), List.append_assoc]

theorem text (h : p.Types t₀ t) (hseparate : t.Separate) :
    (p.text (String.ofList piece)).Types t₀ (t.add piece) :=
  h.add rfl (Printout.columns_add hseparate piece)

theorem tab (h : p.Types t₀ t) : p.tab.Types t₀ (t.tab .apart) := by
  have hfits : (t.tab .apart).Fits .apart → t.Fits .apart := fun hfits => hfits.of_tab
  by_cases hcol : p.column = Measure.apart t.parts
  · have htab : p.tab = p.text (String.ofList (Transcript.padding (Measure.apart t.parts))) := by
      rw [Pen.tab, hcol]
      rfl
    rw [htab]
    exact h.add rfl t.columns_tab
  · -- the column is lost, so the line does not fit
    have hnot : ¬(t.tab .apart).Fits .apart := fun h' => hcol (h.column (hfits h'))
    exact ⟨plain_text h.plain _, fun h' => absurd h' hnot, fun h' => absurd h' hnot,
      fun h' => absurd h' hnot⟩

/-- Pieces with tabs between them are printed as the text that they are the pieces of. -/
theorem tabbed {pieces : List (List Char)} (h : p.Types t₀ t) (hseparate : t.Separate)
    (hpieces : ∀ piece ∈ pieces, '\t' ∉ piece) :
    (p.tabbed pieces).Types t₀ (t.typeLine .apart (['\t'].intercalate pieces)) := by
  induction pieces generalizing p t with
  | nil => exact h
  | cons piece rest ih =>
    have hpiece := hpieces piece List.mem_cons_self
    have htext : (p.text (String.ofList piece)).Types t₀ (t.add piece) := h.text hseparate
    cases rest with
    | nil =>
      rw [List.intercalate_singleton, Printout.typeLine_of_not_mem hpiece]
      exact htext
    | cons next others =>
      rw [List.intercalate_cons_cons, List.append_assoc, Printout.typeLine_append,
        Printout.typeLine_of_not_mem hpiece, Printout.typeLine_append]
      exact ih htext.tab (Printout.separate_tab _)
        fun d hd => hpieces d (List.mem_cons_of_mem piece hd)

theorem breakLine (h : p.Types t₀ t) : p.breakLine.Types t₀ t.endLine := by
  have hemitted : p.breakLine.emitted = p.emitted ++ [.lineBreak] := by
    unfold Pen.breakLine
    split <;> rfl
  refine ⟨?_, fun hfits => h.fits hfits.of_endLine, fun _ => ?_, fun hfits => ?_⟩
  · rw [hemitted]
    exact List.forall_mem_append.mpr ⟨h.plain, List.forall_mem_singleton.mpr trivial⟩
  · rw [breakLine_cursor]
    rfl
  · rw [hemitted, Emission.renderAll_append, Emission.renderAll_singleton, String.toList_append,
      Printout.characters_endLine, h.emitted hfits.of_endLine, List.append_assoc]
    rfl

end Types

end Pen

end ProgressDisplay
