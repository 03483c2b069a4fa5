import ProgressDisplay.Proofs.Regions.LineBreaks
import ProgressDisplay.Proofs.Screen.Strokes

/-!
# Everything is drawn in its own style

A page draws the contents that its lines were given and writes the text that it is given in the
style that was chosen for it. Redraws come in the middle of a text, and each of these strokes starts
and ends in the default rendition, so that no style leaks into what follows.

* `Page.Plain.act`: the strokes of one action.
* `Page.run_styled`: what a terminal notes of every action of a run.
-/

namespace ProgressDisplay

open Attempt

/-- What was asked for so far: the contents of the lines and the style of the text. -/
structure Brief where
  contents : List Line
  style : Style := {}

namespace Brief

def act (b : Brief) : PageAction → Brief
  | .output (.style style) => { b with style }
  | .setLine index content => { b with contents := b.contents.modify index fun _ => content }
  | _ => b

/-- What a run of actions asks for, starting with a block of empty lines. -/
def ofActions (workers : Nat) (actions : List PageAction) : Brief :=
  actions.foldl act
    { contents := List.replicate (StatusBlock.totalHeight (StatusBlock.workerLines workers)) [] }

end Brief

namespace Stroke

/-- A line is one of those asked for, and text is written in the style asked for. -/
def Obeys (b : Brief) : Stroke → Prop
  | line content => content ∈ b.contents
  | text style _ => style = b.style
  | motion | erasure | lineBreak => True

variable {b : Brief} {k : Stroke}

theorem obeys_replicate (count : Nat) (hk : k.Obeys b) : ∀ l ∈ List.replicate count k, l.Obeys b := by
  intro l hl
  rwa [List.eq_of_mem_replicate hl]

theorem obeys_erasureIf (erase : Bool) : ∀ l ∈ erasureIf erase, l.Obeys b := by
  cases erase <;> simp [erasureIf, Obeys]

end Stroke

/-- The text that an action writes, without its line ends. -/
def PageAction.text : PageAction → List Char
  | .output (.text content) | .output (.line content) =>
    (Text.pieces '\n' content.toList).flatMap Page.withoutReturn
  | _ => []

/-! ## Writers -/

namespace Writer

variable {b : Brief} {first second : List Char} {w w' w'' : Writer}

/-- From one writer to another, strokes were sent that obey a brief and write a text. -/
structure Inks (b : Brief) (written : List Char) (w w' : Writer) : Prop where
  palette : w'.palette = w.palette
  sent : ∃ strokes emissions, w'.device.output = w.device.output ++ emissions ∧
    Paints w.palette strokes emissions ∧ (∀ k ∈ strokes, k.Obeys b) ∧
    strokes.flatMap Stroke.written = written

namespace Inks

theorem of_output (hpalette : w'.palette = w.palette)
    (houtput : w'.device.output = w.device.output) : w.Inks b [] w' :=
  ⟨hpalette, [], [], by rw [houtput, List.append_nil], paints_nil, by simp, rfl⟩

theorem refl (w : Writer) : w.Inks b [] w := of_output rfl rfl

theorem trans (h : w.Inks b first w') (h' : w'.Inks b second w'') :
    w.Inks b (first ++ second) w'' where
  palette := h'.palette.trans h.palette
  sent := by
    obtain ⟨strokes, emissions, houtput, hpaints, hobeys, hwritten⟩ := h.sent
    obtain ⟨more, others, houtput', hpaints', hobeys', hwritten'⟩ := h'.sent
    rw [h.palette] at hpaints'
    refine ⟨strokes ++ more, emissions ++ others, ?_, hpaints.append hpaints',
      List.forall_mem_append.mpr ⟨hobeys, hobeys'⟩, ?_⟩
    · rw [houtput', houtput, List.append_assoc]
    · rw [List.flatMap_append, hwritten, hwritten']

end Inks

/-- What is drawn after the motion to its place. -/
theorem inks_drawAt {place : Position} {draw : Pen → Pen} {r : Drawn} (strokes : List Stroke)
    (hdraw : (draw (w.penAt place)).Made w.palette (w.approach place ++ strokes))
    (hobeys : ∀ k ∈ strokes, k.Obeys b) (hr : w.drawAt place draw = .ok r) :
    w.Inks b (strokes.flatMap Stroke.written) r.writer := by
  obtain ⟨device, hwrite, rfl⟩ := commit_eq_ok_iff.mp hr
  obtain ⟨-, rfl⟩ := Device.write_eq_ok_iff.mp hwrite
  refine ⟨rfl, _, _, rfl, hdraw.emitted,
    List.forall_mem_append.mpr ⟨Stroke.obeys_replicate _ trivial, hobeys⟩, ?_⟩
  rw [List.flatMap_append, approach, Stroke.written_replicate _ rfl, List.nil_append]

theorem inks_moveTo {target : Position} (h : w.moveTo target = .ok w') : w.Inks b [] w' := by
  obtain ⟨device, hwrite, rfl⟩ := moveTo_eq_ok_iff.mp h
  obtain ⟨-, rfl⟩ := Device.write_eq_ok_iff.mp hwrite
  exact ⟨rfl, _, _, rfl, paints_motions w.cursor target, Stroke.obeys_replicate _ trivial,
    Stroke.written_replicate _ rfl⟩

theorem inks_flush (h : w.flush = .ok w') : w.Inks b [] w' := by
  obtain ⟨device, hflush, rfl⟩ := flush_eq_ok_iff.mp h
  obtain rfl := Device.eq_of_flush hflush
  exact .of_output rfl rfl

end Writer

/-! ## Lines -/

namespace AnchoredLine

variable {b : Brief} {l : AnchoredLine} {w : Writer}

theorem inks_redraw (h : l.content ∈ b.contents) :
    (l.redraw w).Ensures fun r => w.Inks b [] r.2 := by
  have hline : (l.draw w).Ensures fun r => w.Inks b [] r.2 := by
    refine ensures_ofExcept fun r hr => ?_
    refine Writer.inks_drawAt [.line l.content, .erasure] ?_ ?_ hr
    · rw [List.append_cons]
      exact ((Pen.made_penAt w _).line l.content).eraseRest
    · simpa [Stroke.Obeys] using h
  have hclear : (l.clear w).Ensures fun r => w.Inks b [] r.2 := by
    refine ensures_ofExcept fun r hr => ?_
    exact Writer.inks_drawAt [.erasure] (Pen.made_penAt w _).eraseRest (by simp [Stroke.Obeys]) hr
  unfold redraw
  split
  · split
    · exact ensures_done (.refl w)
    · exact hline
  · split
    · exact hclear
    · exact ensures_done (.refl w)

theorem inks_redrawAll {lines : List AnchoredLine} (h : ∀ l ∈ lines, l.content ∈ b.contents) :
    (redrawAll lines w).Ensures fun r => w.Inks b [] r.2 := by
  induction lines generalizing w with
  | nil => exact ensures_done (.refl w)
  | cons l rest ih =>
    intro hok
    obtain ⟨hfirst, hrest⟩ := failure_redrawAll_cons.mp hok
    have hl := inks_redraw (h l List.mem_cons_self) hfirst
    rw [state_redrawAll_cons hfirst]
    exact hl.trans (ih (fun d hd => h d (List.mem_cons_of_mem l hd)) hrest)

end AnchoredLine

/-! ## Pages -/

namespace Page

variable {s u v : Page} {first second : List Char}

/-- What was asked of the page so far. -/
def brief (s : Page) : Brief := ⟨s.contents, s.style⟩

/-- From one page to another, nothing else was asked, and what was drawn obeys it and writes a
text. -/
structure Inks (written : List Char) (s u : Page) : Prop where
  brief : u.brief = s.brief
  writer : s.writer.Inks s.brief written u.writer

theorem Inks.refl (s : Page) : s.Inks [] s := ⟨rfl, .refl s.writer⟩

theorem Inks.trans (h : s.Inks first u) (h' : u.Inks second v) : s.Inks (first ++ second) v where
  brief := h'.brief.trans h.brief
  writer := h.writer.trans (h.brief ▸ h'.writer)

/-- Two steps of which the second writes nothing. -/
theorem inks_andThen {a : Attempt DeviceFailure Page} {next : Page → Attempt DeviceFailure Page}
    (ha : a.Ensures (s.Inks first)) (hnext : ∀ u, (next u).Ensures (u.Inks [])) :
    (a.andThen next).Ensures (s.Inks first) := by
  refine ha.andThen fun u hu => (hnext u).mono fun v hv => ?_
  rw [← first.append_nil]
  exact hu.trans hv

theorem brief_raise (s : Page) (writer : Writer) (rows : Nat) (text : Position) :
    brief { s with writer, block := s.block.raise rows, text } = s.brief := by
  simp only [brief, contents, StatusBlock.contents_raise]

theorem inks_clearBlock (s : Page) (pending : Bool) :
    (s.clearBlock pending).Ensures (s.Inks []) := by
  unfold clearBlock
  simp only
  split
  · exact ensures_done (.refl s)
  · refine ensures_ofExcept fun r hr => ⟨s.brief_raise _ _ _, ?_⟩
    have hbreaks : s.writer.Inks s.brief
        ((List.replicate (s.overlap pending) .lineBreak).flatMap Stroke.written) r.writer :=
      Writer.inks_drawAt _ ((Pen.made_penAt s.writer _).breakLines _)
        (Stroke.obeys_replicate _ trivial) hr
    rwa [Stroke.written_replicate _ rfl] at hbreaks

theorem inks_anchorBlock (s : Page) : s.anchorBlock.Ensures (s.Inks []) := by
  unfold anchorBlock
  split
  · exact inks_andThen (inks_clearBlock s false) fun u => ensures_done ⟨rfl, .refl u.writer⟩
  · exact ensures_done (.refl s)

theorem inks_redrawLines (s : Page) : s.redrawLines.Ensures (s.Inks []) := by
  have hcontents : ∀ l ∈ s.block.lines, l.content ∈ s.brief.contents :=
    fun l hl => List.mem_map_of_mem hl
  refine Ensures.map fun hok => ⟨?_, AnchoredLine.inks_redrawAll hcontents hok⟩
  exact congrArg (Brief.mk · s.style) (contents_redrawLines s)

theorem inks_restCursor (s : Page) : s.restCursor.Ensures (s.Inks []) :=
  ensures_ofExcept fun _ hw => ⟨rfl, Writer.inks_moveTo hw⟩

theorem inks_redrawBlock (s : Page) : s.redrawBlock.Ensures (s.Inks []) :=
  inks_andThen (inks_andThen (inks_anchorBlock s) inks_redrawLines) inks_restCursor

theorem inks_flush (s : Page) : s.flush.Ensures (s.Inks []) :=
  inks_andThen (inks_redrawBlock s) fun _ =>
    ensures_ofExcept fun _ hw => ⟨rfl, Writer.inks_flush hw⟩

theorem inks_setVisible (s : Page) (visible : Bool) : s.Inks [] (s.setVisible visible) :=
  ⟨congrArg (Brief.mk · s.style) (contents_setVisible s visible), .refl s.writer⟩

theorem inks_vacateLine (s : Page) : s.vacateLine.Ensures (s.Inks []) := by
  unfold vacateLine
  split
  · exact ensures_done (.refl s)
  · exact inks_andThen (inks_clearBlock s true) inks_redrawBlock

/-! ## Text -/

theorem inks_drawText {draw : Pen → Pen} (strokes : List Stroke)
    (hdraw : (draw (s.writer.penAt s.text)).Made s.writer.palette
      (s.writer.approach s.text ++ strokes))
    (hobeys : ∀ k ∈ strokes, k.Obeys s.brief) :
    (s.drawText draw).Ensures (s.Inks (strokes.flatMap Stroke.written)) :=
  ensures_ofExcept fun _ hr => ⟨s.brief_raise _ _ _, Writer.inks_drawAt strokes hdraw hobeys hr⟩

theorem inks_endLine (s : Page) : s.endLine.Ensures (s.Inks []) := by
  refine inks_andThen (inks_vacateLine s) fun u => ?_
  generalize (s.overlap true != 0 || u.block.overlaps u.text) = erase
  have hbreak : (u.drawText fun p => (p.eraseRestIf erase).breakLine).Ensures
      (u.Inks ((Stroke.erasureIf erase ++ [Stroke.lineBreak]).flatMap Stroke.written)) := by
    refine inks_drawText _ ?_ ?_
    · rw [← List.append_assoc]
      exact ((Pen.made_penAt u.writer u.text).eraseRestIf erase).breakLine
    · exact List.forall_mem_append.mpr ⟨Stroke.obeys_erasureIf erase, by simp [Stroke.Obeys]⟩
  rwa [List.flatMap_append, Stroke.written_erasureIf] at hbreak

/-- From one page to another, nothing else was asked, and what was drawn obeys it and writes a text
with blanks for its tabs. -/
def Writes (text : List Char) (s u : Page) : Prop :=
  ∃ characters, Text.Expands text characters ∧ s.Inks characters u

theorem Inks.writes (h : s.Inks [] u) : s.Writes [] u := ⟨[], .nil, h⟩

theorem Writes.trans (h : s.Writes first u) (h' : u.Writes second v) :
    s.Writes (first ++ second) v := by
  obtain ⟨characters, hexpands, hinks⟩ := h
  obtain ⟨others, hexpands', hinks'⟩ := h'
  exact ⟨characters ++ others, hexpands.append hexpands', hinks.trans hinks'⟩

theorem writes_writeText (text : List Char) (s : Page) :
    (s.writeText text).Ensures (s.Writes text) := by
  unfold writeText
  split
  · rename_i hempty
    rw [hempty]
    exact ensures_done (Inks.refl s).writes
  · refine (inks_vacateLine s).andThen fun u hu => ?_
    have hstyle : s.style = u.brief.style := congrArg Brief.style hu.brief.symm
    generalize (s.overlap true != 0) = erase
    obtain ⟨characters, hexpands, hmade⟩ :=
      ((Pen.made_penAt u.writer u.text).eraseRestIf erase).tabbed s.style text
    rw [List.append_assoc] at hmade
    have hobeys : ∀ k ∈ Stroke.erasureIf erase ++ [.text s.style characters], k.Obeys u.brief :=
      List.forall_mem_append.mpr
        ⟨Stroke.obeys_erasureIf erase, List.forall_mem_singleton.mpr hstyle⟩
    refine (inks_drawText _ hmade hobeys).mono fun v hv => ?_
    rw [List.flatMap_append, Stroke.written_erasureIf, List.flatMap_singleton] at hv
    exact ⟨characters, hexpands, hu.trans hv⟩

theorem writes_endLine (s : Page) : s.endLine.Ensures (s.Writes []) :=
  (inks_endLine s).mono fun _ hu => hu.writes

theorem writes_writeLines (lines : List (List Char)) (s : Page) :
    (writeLines lines s).Ensures (s.Writes (lines.flatMap withoutReturn)) := by
  induction lines generalizing s with
  | nil => exact ensures_done (Inks.refl s).writes
  | cons line rest ih =>
    have hline := writes_writeText (withoutReturn line) s
    cases rest with
    | nil =>
      rw [List.flatMap_singleton]
      exact hline
    | cons next others =>
      have hended : ((s.writeText (withoutReturn line)).andThen endLine).Ensures
          (s.Writes (withoutReturn line)) := by
        refine hline.andThen fun u hu => (writes_endLine u).mono fun v hv => ?_
        rw [← (withoutReturn line).append_nil]
        exact hu.trans hv
      exact hended.andThen fun u hu => (ih u).mono fun v hv => hu.trans hv

/-! ## Actions -/

/-- From one page to another, an action was carried out: what it asks for is asked now, and what was
drawn obeys what was asked before and writes the text of the action. -/
structure Carries (a : PageAction) (s u : Page) : Prop where
  brief : u.brief = s.brief.act a
  drawn : ∃ characters, Text.Expands a.text characters ∧
    s.writer.Inks s.brief characters u.writer

theorem Writes.carries {a : PageAction} (h : s.Writes a.text u)
    (hsame : s.brief.act a = s.brief) : Carries a s u := by
  obtain ⟨characters, hexpands, hinks⟩ := h
  exact ⟨hinks.brief.trans hsame.symm, characters, hexpands, hinks.writer⟩

theorem carries_act (s : Page) (a : PageAction) : (s.act a).Ensures (Carries a s) := by
  cases a with
  | output request =>
    cases request with
    | style style => exact ensures_done ⟨rfl, [], .nil, .refl s.writer⟩
    | text content => exact (writes_writeLines _ s).mono fun _ hu => Writes.carries hu rfl
    | endLine => exact (writes_endLine s).mono fun _ hu => Writes.carries hu rfl
    | line content =>
      refine (writes_writeLines _ s).andThen fun u hu => ?_
      refine (writes_endLine u).mono fun v hv => Writes.carries ?_ rfl
      have hboth := hu.trans hv
      rwa [List.append_nil] at hboth
  | setLine index content =>
    exact ensures_done ⟨congrArg (Brief.mk · s.style) StatusBlock.contents_setLine, [], .nil,
      .refl s.writer⟩
  | flush => exact (inks_flush s).mono fun _ hu => Writes.carries hu.writes rfl
  | close =>
    refine (inks_flush (s.setVisible false)).mono fun u hu => ?_
    exact Writes.carries ((inks_setVisible s false).trans hu).writes rfl
  | setVisible visible =>
    exact ensures_done (Writes.carries (inks_setVisible s visible).writes rfl)

/-! ## Runs of actions -/

/-- The plotter that read all that the page has written. -/
def plotter (s : Page) : Plotter := Plotter.replay s.writer.device.output

/-- A page between two actions: so much was asked of it, and the terminal is left in the default
rendition. -/
structure Plain (b : Brief) (palette : Palette) (s : Page) : Prop where
  brief : s.brief = b
  palette : s.writer.palette = palette
  rendition : (Ink.performAll {} s.writer.device.output).rendition = .plain

variable {b : Brief} {palette : Palette} {actions : List PageAction}

/-- After an action the terminal has noted the strokes of the action and nothing else. -/
theorem Plain.act (h : s.Plain b palette) (a : PageAction) :
    (s.act a).Ensures fun u => u.Plain (b.act a) palette ∧ ∃ strokes : List Stroke,
      (∀ k ∈ strokes, k.Obeys b) ∧ Text.Expands a.text (strokes.flatMap Stroke.written) ∧
      Ink.performAll {} u.writer.device.output =
        ⟨.plain, (Ink.performAll {} s.writer.device.output).marks ++
          strokes.flatMap (Stroke.marks palette)⟩ := by
  refine (carries_act s a).mono fun u hu => ?_
  obtain ⟨characters, hexpands, hinks⟩ := hu.drawn
  obtain ⟨strokes, emissions, houtput, hpaints, hobeys, rfl⟩ := hinks.sent
  have hread : Ink.performAll {} u.writer.device.output =
      ⟨.plain, (Ink.performAll {} s.writer.device.output).marks ++
        strokes.flatMap (Stroke.marks palette)⟩ := by
    have hbefore : Ink.performAll {} s.writer.device.output =
        ⟨.plain, (Ink.performAll {} s.writer.device.output).marks⟩ :=
      congrArg (Ink.mk · _) h.rendition
    rw [houtput, Ink.performAll_append, ← h.palette]
    exact (congrArg (Ink.performAll · emissions) hbefore).trans (hpaints _)
  rw [h.brief] at hobeys
  refine ⟨⟨?_, hinks.palette.trans h.palette, by rw [hread]⟩, strokes, hobeys, hexpands, hread⟩
  rw [hu.brief, h.brief]

theorem Plain.run (h : s.Plain b palette) :
    (s.run actions).Ensures (Plain (actions.foldl Brief.act b) palette) := by
  induction actions generalizing s b with
  | nil => exact ensures_done h
  | cons a rest ih => exact (h.act a).andThen fun u hu => ih hu.1

theorem plain_start {device : Device} (hfresh : device.output = []) (palette : Palette)
    (workers : Nat) : (start device palette workers).Plain (.ofActions workers []) palette where
  brief := congrArg (Brief.mk · {}) (StatusBlock.contents_ofWorkers workers)
  palette := rfl
  rendition := by
    rw [start, hfresh]
    rfl

theorem delivers_run {allowed : Char → Prop} (hblank : allowed ' ') (h : s.Legible allowed)
    (hactions : ∀ a ∈ actions, a.Over allowed) :
    (s.run actions).Delivers (Emission.Over allowed) device s.device := by
  induction actions generalizing s with
  | nil => exact .done (.refl _)
  | cons a rest ih =>
    have ha := hactions a List.mem_cons_self
    exact (delivers_act hblank h ha).andThen
      (ih (legible_act h ha) fun d hd => hactions d (List.mem_cons_of_mem a hd))

/-- Text without control characters is read as it is. -/
theorem plotter_run {device : Device} (hfresh : device.output = []) (palette : Palette)
    (workers : Nat) (hactions : ∀ a ∈ actions, a.Over fun c => Text.isControl c = false) :
    ((start device palette workers).run actions).state.plotter =
      { ink := Ink.performAll {}
          ((start device palette workers).run actions).state.writer.device.output } := by
  have hdelivers : ((start device palette workers).run actions).Delivers
      (Emission.Over fun c => Text.isControl c = false) Page.device
      (start device palette workers).device :=
    delivers_run rfl (legible_start device palette workers) hactions
  refine Plotter.replay_eq fun e he => ?_
  have hover : e.Over fun c => Text.isControl c = false := by
    refine hdelivers.grew.forall_mem (fun d hd => ?_) e he
    have hnone : d ∈ device.output := hd
    rw [hfresh] at hnone
    cases hnone
  cases e with
  | text content =>
    intro c hc
    have hcontrol := hover c hc
    refine ⟨?_, ?_, ?_⟩
    all_goals
      rintro rfl
      cases hcontrol
  | _ => trivial

/-- In every run that completes, over texts and contents that hold no control characters but line
ends and tabs of the text, the terminal is between two sequences and in the default rendition after
each action. What it has noted during the action are strokes that draw lines as they were asked for
and write the text of the action in the style that was asked for: each character in the rendition
of its style, and each erasure, line feed and motion in the default one. -/
theorem run_styled (device : Device) (palette : Palette) (workers : Nat)
    (actions earlier later : List PageAction) (a : PageAction) (hfresh : device.output = [])
    (hactions : ∀ a ∈ actions, a.Over fun c => Text.isControl c = false)
    (hok : ((start device palette workers).run actions).failure = none)
    (hsplit : actions = earlier ++ a :: later) :
    ∃ strokes : List Stroke,
      (∀ k ∈ strokes, k.Obeys (.ofActions workers earlier)) ∧
      Text.Expands a.text (strokes.flatMap Stroke.written) ∧
      ((start device palette workers).run (earlier ++ [a])).state.plotter =
        { scan := .ground
          ink :=
            { rendition := .plain
              marks :=
                ((start device palette workers).run earlier).state.plotter.ink.marks ++
                  strokes.flatMap (Stroke.marks palette) } } := by
  have hwhole : actions = earlier ++ [a] ++ later := by rw [hsplit, List.append_assoc]; rfl
  rw [hwhole] at hactions hok
  obtain ⟨hthis, -⟩ := List.forall_mem_append.mp hactions
  obtain ⟨hbefore, -⟩ := List.forall_mem_append.mp hthis
  rw [run_append, andThen_failure_none_iff] at hok
  have hlast := hok.1
  rw [run_concat, andThen_failure_none_iff] at hlast
  obtain ⟨hearlier, hact⟩ := hlast
  have hplain := (plain_start hfresh palette workers).run hearlier
  obtain ⟨-, strokes, hobeys, hexpands, hread⟩ := hplain.act a hact
  refine ⟨strokes, hobeys, hexpands, ?_⟩
  rw [plotter_run hfresh palette workers hthis, plotter_run hfresh palette workers hbefore,
    run_concat, andThen_of_none hearlier, hread]

/-- A bold headline is redrawn in the middle of a green text of two lines with a tab. -/
theorem run_styled_of_redraw :
    let headline : Line := [⟨.of .header, "BUILD"⟩]
    let earlier : List PageAction :=
      [.setLine 0 headline, .flush, .output (.style (.of .success))]
    ∃ strokes : List Stroke, (∀ k ∈ strokes, k.Obeys ⟨[headline, []], .of .success⟩) ∧
      Text.Expands ['o', 'k', '\t', '1', 'n', 'o'] (strokes.flatMap Stroke.written) ∧
      ((start {} Scheme.default.rendition 0).run
        (earlier ++ [.output (.line "ok\t1\r\nno")])).state.plotter =
        { scan := .ground
          ink :=
            { rendition := .plain
              marks :=
                ((start {} Scheme.default.rendition 0).run earlier).state.plotter.ink.marks ++
                  strokes.flatMap (Stroke.marks Scheme.default.rendition) } } ∧
      (.character 'B', { emphasis := { bold := true } }) ∈
        strokes.flatMap (Stroke.marks Scheme.default.rendition) ∧
      (.character 'n', { foreground := some ⟨0, 180, 0⟩ }) ∈
        strokes.flatMap (Stroke.marks Scheme.default.rendition) := by
  intro headline earlier
  have hheadline : ∀ c ∈ headline.characters, Text.isControl c = false := by
    have hletters : headline.characters = ['B', 'U', 'I', 'L', 'D'] := by decide
    simp [hletters, Text.isControl]
  have htext : OutputRequest.Over (fun c => Text.isControl c = false) (.line "ok\t1\r\nno") := by
    have hlines : Text.pieces '\n' ['o', 'k', '\t', '1', '\r', '\n', 'n', 'o'] =
        [['o', 'k', '\t', '1', '\r'], ['n', 'o']] := by decide
    simp [OutputRequest.Over, hlines, LegibleText, withoutReturn, Text.isControl]
  have hactions : ∀ a ∈ earlier ++ [.output (.line "ok\t1\r\nno")],
      a.Over fun c => Text.isControl c = false := by
    simp only [earlier, List.cons_append, List.nil_append, List.forall_mem_cons]
    exact ⟨hheadline, trivial, trivial, htext, by simp⟩
  have hdelivers : ((start {} Scheme.default.rendition 0).run
      (earlier ++ [.output (.line "ok\t1\r\nno")])).Delivers
      (Emission.Over fun c => Text.isControl c = false) Page.device
      (start {} Scheme.default.rendition 0).device :=
    delivers_run rfl (legible_start {} _ 0) hactions
  have hplainText : PageAction.text (.output (.line "ok\t1\r\nno")) =
      ['o', 'k', '\t', '1', 'n', 'o'] := by decide
  obtain ⟨strokes, hobeys, hexpands, hplotter⟩ := run_styled {} Scheme.default.rendition 0 _ earlier
    [] (.output (.line "ok\t1\r\nno")) rfl hactions (hdelivers.completes ⟨rfl, rfl⟩) rfl
  rw [hplainText] at hexpands
  have hnoted : strokes.flatMap (Stroke.marks Scheme.default.rendition) =
      ((start {} Scheme.default.rendition 0).run
        (earlier ++ [.output (.line "ok\t1\r\nno")])).state.plotter.ink.marks.drop
          ((start {} Scheme.default.rendition 0).run earlier).state.plotter.ink.marks.length := by
    rw [hplotter]
    exact List.drop_left.symm
  refine ⟨strokes, hobeys, hexpands, hplotter, ?_⟩
  rw [hnoted]
  decide +kernel

end Page

end ProgressDisplay
