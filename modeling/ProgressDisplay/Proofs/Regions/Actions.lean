import ProgressDisplay.Proofs.Regions.Steps

/-!
# Runs of actions on a page

A page is written to, its lines are set, it is shown, hidden, flushed and closed, in any order. Each
action that completes keeps the page `Sound`: accurate, with the output above the block or at the
start of a row of the block.

* `Sound.act`, `Sound.run`: one action, and a whole run.
* `sound_start`: the page on a fresh terminal.
-/

namespace ProgressDisplay

/-- What is done with a page. -/
inductive PageAction where
  | output (request : OutputRequest)
  | setLine (index : Nat) (content : Line)
  | flush
  | close
  | setVisible (visible : Bool)
  deriving DecidableEq

namespace Transcript

def request (t : Transcript) : OutputRequest → Transcript
  | .style _ => t
  | .text content => t.typeAll content.toList
  | .endLine => t.endLine
  | .line content => (t.typeAll content.toList).endLine

def act (t : Transcript) : PageAction → Transcript
  | .output request => t.request request
  | .setLine index content => { t with contents := t.contents.modify index fun _ => content }
  | _ => t

/-- Nothing written, and a block of empty lines. -/
def ofWorkers (workers : Nat) : Transcript where
  contents := List.replicate (StatusBlock.totalHeight (StatusBlock.workerLines workers)) []

/-- What a run of actions is meant to leave on the screen. -/
def ofActions (workers : Nat) (actions : List PageAction) : Transcript :=
  actions.foldl act (ofWorkers workers)

/-- Text measured between its line ends and tabs. -/
def MeasuredText (text : List Char) : Prop :=
  ∀ line ∈ Text.pieces '\n' text, MeasuredLine (Page.withoutReturn line)

instance (text : List Char) : Decidable (MeasuredText text) :=
  inferInstanceAs (Decidable (∀ line ∈ Text.pieces '\n' text,
    MeasuredLine (Page.withoutReturn line)))

theorem Fits.of_endLine {t : Transcript} (h : t.endLine.Fits) : t.Fits :=
  Fits.of_type (c := '\n') h

theorem Fits.of_act {t : Transcript} {a : PageAction} (h : (t.act a).Fits) : t.Fits := by
  cases a with
  | output request =>
    cases request with
    | style style => exact h
    | text content => exact h.of_typeAll
    | endLine => exact h.of_endLine
    | line content => exact h.of_endLine.of_typeAll
  | _ => exact h

theorem Fits.of_foldl_act {t : Transcript} {actions : List PageAction}
    (h : (actions.foldl act t).Fits) : t.Fits := by
  induction actions generalizing t with
  | nil => exact h
  | cons a rest ih => exact (ih h).of_act

theorem typeAll_withoutReturn (t : Transcript) (line : List Char) :
    t.typeAll (Page.withoutReturn line) = t.typeAll line := by
  unfold Page.withoutReturn
  split
  · rename_i hlast
    have hne : line ≠ [] := by
      rintro rfl
      cases hlast
    have hreturn : line.getLast hne = '\r' := by
      rw [List.getLast?_eq_some_getLast hne] at hlast
      exact Option.some.inj hlast
    conv => rhs; rw [← List.dropLast_append_getLast hne, hreturn, typeAll_append]
    rfl
  · rfl

end Transcript

namespace PageAction

/-- Every character that is written takes one column. -/
def SingleWidth : PageAction → Prop
  | .output (.text content) | .output (.line content) =>
    ∀ line ∈ Text.pieces '\n' content.toList,
      ∀ part ∈ Text.pieces '\t' (Page.withoutReturn line), Text.SingleWidth part
  | .setLine _ content =>
    Text.SingleWidth content.characters ∧ content.characters.length < Position.limit
  | _ => True

/-- The text is measured, and the content of a line is short enough. -/
def Measured : PageAction → Prop
  | .output (.text content) | .output (.line content) => Transcript.MeasuredText content.toList
  | .setLine _ content => content.Measured ∧ content.characters.length < Position.limit
  | _ => True

instance : (a : PageAction) → Decidable a.SingleWidth
  | .output (.text content) | .output (.line content) =>
    inferInstanceAs (Decidable (∀ line ∈ Text.pieces '\n' content.toList,
      ∀ part ∈ Text.pieces '\t' (Page.withoutReturn line), Text.SingleWidth part))
  | .setLine _ content =>
    inferInstanceAs (Decidable (Text.SingleWidth content.characters ∧
      content.characters.length < Position.limit))
  | .output (.style _) | .output .endLine | .flush | .close | .setVisible _ =>
    inferInstanceAs (Decidable True)

instance : (a : PageAction) → Decidable a.Measured
  | .output (.text content) | .output (.line content) =>
    inferInstanceAs (Decidable (Transcript.MeasuredText content.toList))
  | .setLine _ content =>
    inferInstanceAs (Decidable (content.Measured ∧ content.characters.length < Position.limit))
  | .output (.style _) | .output .endLine | .flush | .close | .setVisible _ =>
    inferInstanceAs (Decidable True)

end PageAction

namespace Page

def act (s : Page) : PageAction → Attempt DeviceFailure Page
  | .output request => s.output request
  | .setLine index content => .done { s with block := s.block.setLine index content }
  | .flush => s.flush
  | .close => s.close
  | .setVisible visible => .done (s.setVisible visible)

/-- The terminal that read all that the page has written. -/
def terminal (s : Page) : Terminal := Terminal.replay s.writer.device.output

def run (actions : List PageAction) (s : Page) : Attempt DeviceFailure Page :=
  Attempt.each (fun a s => s.act a) actions s

variable {s u : Page} {g : Grid} {t : Transcript} {text : List Char}

/-! ## From single steps to runs -/

theorem run_append (first second : List PageAction) (s : Page) :
    s.run (first ++ second) = (s.run first).andThen (run second) :=
  Attempt.each_append _ first second s

theorem run_singleton (a : PageAction) (s : Page) : s.run [a] = s.act a :=
  Attempt.each_singleton _ a s

theorem run_concat (actions : List PageAction) (last : PageAction) (s : Page) :
    s.run (actions ++ [last]) = (s.run actions).andThen fun u => u.act last :=
  Attempt.each_concat _ actions last s

/-- What every step of the output keeps, with the transcript going along. -/
structure KeptByOutput (I : Page → Transcript → Prop) : Prop where
  style : ∀ s t style, I s t → I { s with style } t
  writeText : ∀ s t text, I s t → Transcript.MeasuredLine text → (t.typeAll text).Fits →
    (s.writeText text).Ensures fun u => I u (t.typeAll text)
  endLine : ∀ s t, I s t → s.endLine.Ensures fun u => I u t.endLine

namespace KeptByOutput

variable {I : Page → Transcript → Prop}

theorem writeLines (hI : KeptByOutput I) {lines : List (List Char)} (h : I s t)
    (hmeasured : ∀ line ∈ lines, Transcript.MeasuredLine (withoutReturn line))
    (hfits : (t.typeAll (['\n'].intercalate lines)).Fits) :
    (Page.writeLines lines s).Ensures fun u => I u (t.typeAll (['\n'].intercalate lines)) := by
  induction lines generalizing s t with
  | nil => exact Attempt.ensures_done h
  | cons line rest ih =>
    have hline := hmeasured line List.mem_cons_self
    cases rest with
    | nil =>
      rw [List.intercalate_singleton, ← t.typeAll_withoutReturn] at hfits ⊢
      exact hI.writeText s t _ h hline hfits
    | cons next others =>
      rw [List.intercalate_cons_cons, List.append_assoc, Transcript.typeAll_append,
        Transcript.typeAll_append] at hfits ⊢
      have hended : ((t.typeAll line).endLine).Fits := hfits.of_typeAll
      have htyped : (t.typeAll (withoutReturn line)).Fits := by
        rw [t.typeAll_withoutReturn]
        exact hended.of_endLine
      have hfirst : ((s.writeText (withoutReturn line)).andThen Page.endLine).Ensures fun u =>
          I u (t.typeAll line).endLine := by
        refine (hI.writeText s t _ h hline htyped).andThen fun u hu => ?_
        rw [t.typeAll_withoutReturn] at hu
        exact hI.endLine u _ hu
      refine hfirst.andThen fun u hu => ?_
      exact ih hu (fun d hd => hmeasured d (List.mem_cons_of_mem line hd)) hfits

theorem write (hI : KeptByOutput I) {text : String} (h : I s t)
    (hmeasured : Transcript.MeasuredText text.toList) (hfits : (t.typeAll text.toList).Fits) :
    (s.write text).Ensures fun u => I u (t.typeAll text.toList) := by
  have hlines := hI.writeLines h hmeasured
  rw [Text.intercalate_pieces] at hlines
  exact hlines hfits

theorem output (hI : KeptByOutput I) {request : OutputRequest} (h : I s t)
    (hmeasured : (PageAction.output request).Measured) (hfits : (t.request request).Fits) :
    (s.output request).Ensures fun u => I u (t.request request) := by
  cases request with
  | style style => exact Attempt.ensures_done (hI.style s t style h)
  | text content => exact hI.write h hmeasured hfits
  | endLine => exact hI.endLine s t h
  | line content =>
    exact (hI.write h hmeasured hfits.of_endLine).andThen fun u hu => hI.endLine u _ hu

end KeptByOutput

/-- What every allowed action keeps holds after a run of allowed actions. -/
theorem run_ensures (I : Page → Transcript → Prop) (Allowed : PageAction → Prop)
    (hact : ∀ s t a, I s t → a.Measured → Allowed a → (t.act a).Fits →
      (s.act a).Ensures fun u => I u (t.act a))
    {actions : List PageAction} (h : I s t) (hmeasured : ∀ a ∈ actions, a.Measured)
    (hallowed : ∀ a ∈ actions, Allowed a) (hfits : (actions.foldl Transcript.act t).Fits) :
    (s.run actions).Ensures fun u => I u (actions.foldl Transcript.act t) := by
  induction actions generalizing s t with
  | nil => exact Attempt.ensures_done h
  | cons a rest ih =>
    have hfirst := hact s t a h (hmeasured a List.mem_cons_self) (hallowed a List.mem_cons_self)
      (Transcript.Fits.of_foldl_act hfits)
    refine hfirst.andThen fun u hu => ?_
    exact ih hu (fun b hb => hmeasured b (List.mem_cons_of_mem a hb))
      (fun b hb => hallowed b (List.mem_cons_of_mem a hb)) hfits

/-! ## Sound pages -/

/-- The page between two actions. -/
structure Sound (s : Page) (g : Grid) (t : Transcript) : Prop extends s.Accurate g t where
  placed : s.text.row ≤ s.block.top ∨ 0 < s.text.col

namespace Sound

theorem writeText (h : s.Sound g t) (hline : Transcript.MeasuredLine text)
    (hfits : (t.typeAll text).Fits) :
    (s.writeText text).Ensures fun u => ∃ g', u.Sound g' (t.typeAll text) := by
  unfold Page.writeText
  split
  · rename_i hempty
    subst hempty
    exact Attempt.ensures_done ⟨g, h⟩
  · rename_i hne
    refine h.vacateLine.andThen fun u ⟨g', hu⟩ => ?_
    refine (drawLine_ensures hu hline hne hfits _ _).mono fun v hv => ?_
    obtain ⟨hacc, htext, -⟩ := hv
    have hlength : 0 < (Transcript.expand u.text.col text).length :=
      List.length_pos_iff.mpr (hline.expand_ne_nil hne)
    refine ⟨_, hacc, Or.inr ?_⟩
    rw [htext]
    exact Nat.add_pos_right _ hlength

theorem endLine (h : s.Sound g t) : s.endLine.Ensures fun u => ∃ g', u.Sound g' t.endLine := by
  refine h.vacateLine.andThen fun u ⟨g', hu⟩ => ?_
  refine (drawBreak_ensures hu _).mono fun v hv => ?_
  obtain ⟨hacc, htext, hblock⟩ := hv
  refine ⟨_, hacc, Or.inl ?_⟩
  have hrow := hu.row
  rw [htext, hblock, StatusBlock.top_raise]
  show u.text.row - 1 ≤ u.block.top
  omega

theorem placed_add_overlap (h : s.Sound g t) :
    s.text.row + s.overlap false ≤ s.block.top ∨ 0 < s.text.col := by
  have hplaced := h.placed
  rw [h.overlap_eq]
  by_cases hcol : 0 < s.text.col
  · exact Or.inr hcol
  · left
    simp only [hcol, decide_false, Bool.or_false, Bool.false_eq_true, if_false]
    split <;> omega

theorem redrawBlock (h : s.Sound g t) :
    s.redrawBlock.Ensures fun u => ∃ g', u.Sound g' t := by
  cases hv : s.block.visible with
  | true =>
    refine (redrawBlock_ensures_of_visible h.toAccurate hv).mono fun u hu => ?_
    obtain ⟨g', hacc, -, htext, htop, -⟩ := hu
    refine ⟨g', hacc, ?_⟩
    rw [htop, htext]
    exact h.placed_add_overlap
  | false =>
    refine (redrawBlock_ensures_of_hidden h.toAccurate hv).mono fun u hu => ?_
    obtain ⟨hacc, htext, hblock⟩ := hu
    refine ⟨_, hacc, ?_⟩
    rw [htext, hblock, StatusBlock.top_redrawn]
    exact h.placed

theorem flushDevice (h : s.Sound g t) : s.flushDevice.Ensures fun u => u.Sound g t := by
  refine (flushDevice_ensures h.toAccurate).mono fun u hu => ?_
  obtain ⟨hacc, htext, hblock, -⟩ := hu
  refine ⟨hacc, ?_⟩
  rw [htext, hblock]
  exact h.placed

theorem flush (h : s.Sound g t) : s.flush.Ensures fun u => ∃ g', u.Sound g' t :=
  h.redrawBlock.andThen fun _ ⟨g', hu⟩ => hu.flushDevice.mono fun _ hv => ⟨g', hv⟩

theorem setVisible (h : s.Sound g t) (visible : Bool) : (s.setVisible visible).Sound g t where
  shows := h.shows
  block := h.block.setVisible visible
  column := h.column
  row := by
    show s.text.row ≤ (s.block.setVisible visible).top + 1
    rw [StatusBlock.top_setVisible]
    exact h.row
  contents := StatusBlock.contents_setVisible.trans h.contents
  placed := by
    show s.text.row ≤ (s.block.setVisible visible).top ∨ _
    rw [StatusBlock.top_setVisible]
    exact h.placed

theorem setLine (h : s.Sound g t) (index : Nat) {content : Line} (hmeasured : content.Measured)
    (hfits : content.characters.length < Position.limit) :
    Sound { s with block := s.block.setLine index content } g
      (t.act (.setLine index content)) where
  shows := h.shows
  block := h.block.setLine hmeasured hfits index
  column := h.column
  row := by
    show s.text.row ≤ (s.block.setLine index content).top + 1
    rw [StatusBlock.top_setLine]
    exact h.row
  contents := by
    rw [StatusBlock.contents_setLine, h.contents]
    rfl
  placed := by
    show s.text.row ≤ (s.block.setLine index content).top ∨ _
    rw [StatusBlock.top_setLine]
    exact h.placed

theorem keptByOutput : KeptByOutput fun s t => ∃ g, s.Sound g t where
  style := fun _ _ _ ⟨g, h⟩ => ⟨g, ⟨h.shows, h.block, h.column, h.row, h.contents⟩, h.placed⟩
  writeText := fun _ _ _ ⟨_, h⟩ hline hfits => h.writeText hline hfits
  endLine := fun _ _ ⟨_, h⟩ => h.endLine

theorem act {a : PageAction} (h : s.Sound g t) (hmeasured : a.Measured) (hfits : (t.act a).Fits) :
    (s.act a).Ensures fun u => ∃ g', u.Sound g' (t.act a) := by
  cases a with
  | output request => exact keptByOutput.output ⟨g, h⟩ hmeasured hfits
  | setLine index content =>
    exact Attempt.ensures_done ⟨g, h.setLine index hmeasured.1 hmeasured.2⟩
  | flush => exact h.flush
  | close => exact (h.setVisible false).flush
  | setVisible visible => exact Attempt.ensures_done ⟨g, h.setVisible visible⟩

theorem run {actions : List PageAction} (h : s.Sound g t)
    (hmeasured : ∀ a ∈ actions, a.Measured) (hfits : (actions.foldl Transcript.act t).Fits) :
    (s.run actions).Ensures fun u => ∃ g', u.Sound g' (actions.foldl Transcript.act t) :=
  run_ensures (fun s t => ∃ g, s.Sound g t) (fun _ => True)
    (fun _ _ _ ⟨_, hs⟩ ha _ hfit => hs.act ha hfit) ⟨g, h⟩ hmeasured
    (fun _ _ => trivial) hfits

end Sound

theorem sound_start {device : Device} (h : device.output = []) (palette : Palette)
    (workers : Nat) : (start device palette workers).Sound .blank (.ofWorkers workers) where
  shows := ⟨by rw [start, h]; rfl, rfl⟩
  block := StatusBlock.accurate_ofWorkers workers
  column := rfl
  row := Nat.zero_le _
  contents := StatusBlock.contents_ofWorkers workers
  placed := Or.inl (Nat.zero_le _)

end Page

end ProgressDisplay
