import ProgressDisplay.Proofs.Regions.Actions
import ProgressDisplay.Proofs.Regions.Delivery

/-!
# Line breaks that reach the terminal

A terminal changes rows at a carriage return or a line feed. The rows are counted right if every one
of them belongs to a line break that a pen has counted. Text is split at its line ends, but a
carriage return inside a line stays in it, and the contents of the status lines are drawn as they
are.

* `Page.accounts_steps`: where neither happens, every break that is sent is a counted one, whatever
  the device refuses.
* `Page.accounted_steps_iff`: the texts and contents for which this is so.
-/

namespace ProgressDisplay

open Attempt

/-- A character at which a terminal changes the row or the column. -/
def Text.IsBreak (c : Char) : Prop := c = '\r' ∨ c = '\n'

instance (c : Char) : Decidable (Text.IsBreak c) := inferInstanceAs (Decidable (_ ∨ _))

open Text (IsBreak)

/-! ## Emissions -/

namespace Emission

/-- If the emission holds a break, then it is one that the pen counts. -/
def Accounted (e : Emission) : Prop := (∃ c ∈ e.render.toList, IsBreak c) → e = .lineBreak

theorem not_isBreak_repr {n : Nat} {c : Char} (hc : c ∈ n.repr.toList) : ¬IsBreak c := by
  rw [Nat.toList_repr] at hc
  have hdigit := Nat.isDigit_of_mem_toDigits (by decide) (by decide) hc
  rintro (rfl | rfl)
  all_goals cases hdigit

/-- No control sequence holds a break. -/
theorem not_isBreak_render {e : Emission} (htext : ∀ content, e ≠ .text content)
    (hbreak : e ≠ .lineBreak) : ∀ c ∈ e.render.toList, ¬IsBreak c := by
  have hintroducer : ∀ c ∈ introducer.toList, ¬IsBreak c := by simp [introducer, IsBreak]
  have hmotion : ∀ (n : Nat) (final : Char), ¬IsBreak final →
      ∀ c ∈ (introducer ++ n.repr ++ String.ofList [final]).toList, ¬IsBreak c := by
    intro n final hfinal c hc
    simp only [String.toList_append, String.toList_ofList, List.mem_append,
      List.mem_singleton] at hc
    rcases hc with (hc | hc) | rfl
    · exact hintroducer c hc
    · exact not_isBreak_repr hc
    · exact hfinal
  cases e with
  | up n => exact hmotion n 'A' (by decide)
  | down n => exact hmotion n 'B' (by decide)
  | right n => exact hmotion n 'C' (by decide)
  | left n => exact hmotion n 'D' (by decide)
  | eraseRest | bold | italic | reverse | reset => simp [render, introducer, IsBreak]
  | foreground color =>
    intro c hc
    have hkind : ∀ c ∈ "38;2;".toList, ¬IsBreak c := by simp [IsBreak]
    have hnext : ∀ c ∈ ";".toList, ¬IsBreak c := by simp [IsBreak]
    have hend : ∀ c ∈ "m".toList, ¬IsBreak c := by simp [IsBreak]
    simp only [render, String.toList_append, List.mem_append] at hc
    rcases hc with ((((((hc | hc) | hc) | hc) | hc) | hc) | hc) | hc
    · exact hintroducer c hc
    · exact hkind c hc
    · exact not_isBreak_repr hc
    · exact hnext c hc
    · exact not_isBreak_repr hc
    · exact hnext c hc
    · exact not_isBreak_repr hc
    · exact hend c hc
  | text content => exact absurd rfl (htext content)
  | lineBreak => exact absurd rfl hbreak

theorem accounted_iff_over {e : Emission} : e.Accounted ↔ e.Over fun c => ¬IsBreak c := by
  constructor
  · intro h
    cases e with
    | text content =>
      intro c hc hbreak
      have hline := h ⟨c, hc, hbreak⟩
      cases hline
    | _ => trivial
  · rintro h ⟨c, hc, hbreak⟩
    by_cases hline : e = .lineBreak
    · exact hline
    · cases e with
      | text content => exact absurd hbreak (h c hc)
      | _ => exact absurd hbreak (not_isBreak_render (by simp) hline c hc)

end Emission

/-! ## Texts and contents without breaks of their own -/

namespace Text

/-- No line of the text holds a carriage return, but for one at its end. -/
def Unbroken (text : String) : Prop :=
  ∀ line ∈ pieces '\n' text.toList, '\r' ∉ Page.withoutReturn line

instance (text : String) : Decidable (Unbroken text) :=
  inferInstanceAs (Decidable (∀ line ∈ pieces '\n' text.toList, '\r' ∉ Page.withoutReturn line))

end Text

theorem Page.withoutReturn_subset (line : List Char) : withoutReturn line ⊆ line := by
  unfold withoutReturn
  split
  · exact List.dropLast_subset line
  · exact List.Subset.refl line

theorem Text.Unbroken.legible {text : String} (h : Text.Unbroken text) :
    ∀ line ∈ Text.pieces '\n' text.toList,
      Page.LegibleText (fun c => ¬IsBreak c) (Page.withoutReturn line) := by
  intro line hline c hc _
  rintro (rfl | rfl)
  · exact h line hline hc
  · exact Text.not_mem_of_mem_pieces hline (Page.withoutReturn_subset line hc)

/-! ## What happens to a page -/

namespace PageAction

/-- All text of the action consists of the characters that are allowed. -/
def Over (allowed : Char → Prop) : PageAction → Prop
  | .output request => request.Over allowed
  | .setLine _ content => content.Over allowed
  | _ => True

/-- The action uses only certain texts and contents. -/
def Uses (texts : String → Prop) (contents : Line → Prop) : PageAction → Prop
  | .output (.text content) | .output (.line content) => texts content
  | .setLine _ content => contents content
  | _ => True

end PageAction

/-- What happens to a page: an action, which may fail half way, or a change in what its device
refuses. -/
inductive PageEvent where
  | action (a : PageAction)
  | fault (write : WriteFault) (flush : Option String)

namespace PageEvent

def Uses (texts : String → Prop) (contents : Line → Prop) : PageEvent → Prop
  | .action a => a.Uses texts contents
  | .fault _ _ => True

end PageEvent

namespace Page

variable {s : Page}

/-- The page on a device that refuses other things. -/
def withFault (s : Page) (write : WriteFault) (flush : Option String) : Page :=
  let device := { s.writer.device with writeFault := write, flushFault := flush }
  { s with writer := { s.writer with device } }

def step (s : Page) : PageEvent → Page
  | .action a => (s.act a).state
  | .fault write flush => s.withFault write flush

/-- The page after events. -/
def steps (events : List PageEvent) (s : Page) : Page := events.foldl step s

variable {allowed : Char → Prop} {a : PageAction}

theorem Legible.setLine (h : s.Legible allowed) (index : Nat) {content : Line}
    (hcontent : content.Over allowed) :
    Legible allowed { s with block := s.block.setLine index content } := by
  intro other hother
  have hmodified : other ∈ s.contents.modify index fun _ => content := by
    rw [contents, ← StatusBlock.contents_setLine]
    exact hother
  obtain ⟨i, hi⟩ := List.mem_iff_getElem?.mp hmodified
  rw [List.getElem?_modify] at hi
  obtain ⟨before, hbefore, rfl⟩ := Option.map_eq_some_iff.mp hi
  split
  · exact hcontent
  · exact h before (List.mem_of_getElem? hbefore)

theorem legible_act (h : s.Legible allowed) (ha : a.Over allowed) :
    (s.act a).state.Legible allowed := by
  cases a with
  | output request => exact h.of_contents (contents_output request s)
  | setLine index content => exact h.setLine index ha
  | flush => exact h.of_contents (contents_flush s)
  | close => exact h.of_contents (contents_close s)
  | setVisible visible => exact h.of_contents (contents_setVisible s visible)

theorem delivers_act (hblank : allowed ' ') (h : s.Legible allowed) (ha : a.Over allowed) :
    (s.act a).Delivers (Emission.Over allowed) device s.device := by
  cases a with
  | output request => exact delivers_output hblank h ha
  | setLine index content => exact .done (.refl _)
  | flush => exact delivers_flush h
  | close => exact delivers_close h
  | setVisible visible => exact .done (.refl _)

theorem legible_start (device : Device) (palette : Palette) (workers : Nat) :
    (start device palette workers).Legible allowed := by
  intro content hcontent
  have hlines :
      (start device palette workers).contents = (StatusBlock.ofWorkers workers).contents := rfl
  rw [hlines, StatusBlock.contents_ofWorkers] at hcontent
  rw [List.eq_of_mem_replicate hcontent]
  exact Line.over_nil allowed

/-! ## No other break is sent -/

/-- The contents hold no break, and every break that was sent is a counted one. -/
structure Accounts (s : Page) : Prop where
  legible : s.Legible fun c => ¬IsBreak c
  sent : ∀ e ∈ s.device.output, e.Accounted

theorem accounts_start {device : Device} (hfresh : device.output = []) (palette : Palette)
    (workers : Nat) : (start device palette workers).Accounts where
  legible := legible_start device palette workers
  sent := by
    intro e he
    have hnone : e ∈ device.output := he
    rw [hfresh] at hnone
    cases hnone

theorem Accounts.act (h : s.Accounts) (ha : a.Over fun c => ¬IsBreak c) :
    (s.act a).state.Accounts where
  legible := legible_act h.legible ha
  sent := by
    have hblank : ¬IsBreak ' ' := by decide
    have hgrew := (delivers_act hblank h.legible ha).grew
    simp only [Emission.accounted_iff_over]
    exact hgrew.forall_mem fun e he => Emission.accounted_iff_over.mp (h.sent e he)

variable {texts : String → Prop} {contents : Line → Prop}

theorem PageAction.Uses.over (ha : a.Uses texts contents)
    (htexts : ∀ text, texts text → Text.Unbroken text)
    (hcontents : ∀ content, contents content → content.Over fun c => ¬IsBreak c) :
    a.Over fun c => ¬IsBreak c := by
  cases a with
  | output request =>
    cases request with
    | style _ | endLine => trivial
    | text content | line content => exact (htexts content ha).legible
  | setLine index content => exact hcontents content ha
  | flush | close | setVisible _ => trivial

/-- Where texts and contents hold no breaks but line ends, every break that is sent is a counted
one, whatever the device refuses. -/
theorem accounts_steps (htexts : ∀ text, texts text → Text.Unbroken text)
    (hcontents : ∀ content, contents content → content.Over fun c => ¬IsBreak c)
    {events : List PageEvent} (h : s.Accounts) (hevents : ∀ e ∈ events, e.Uses texts contents) :
    (s.steps events).Accounts := by
  induction events generalizing s with
  | nil => exact h
  | cons event rest ih =>
    refine ih ?_ fun e he => hevents e (List.mem_cons_of_mem event he)
    have hevent := hevents event List.mem_cons_self
    cases event with
    | action a => exact h.act (PageAction.Uses.over hevent htexts hcontents)
    | fault write flush => exact ⟨h.legible, h.sent⟩

/-! ## Breaks that are sent -/

/-- An attempt that completes leaves an emission in the output. -/
def Sends (e : Emission) (b : Attempt DeviceFailure Page) : Prop :=
  b.Ensures fun u => e ∈ u.device.output

variable {b : Attempt DeviceFailure Page} {e : Emission} {next : Page → Attempt DeviceFailure Page}

theorem Sends.andThen (h : Sends e b)
    (hnext : ∀ u : Page, (next u).Delivers (Emission.Over fun _ => True) device u.device) :
    Sends e (b.andThen next) :=
  Ensures.andThen h fun u hu _ => (hnext u).grew.mem hu

theorem sends_andThen (h : ∀ u, Sends e (next u)) : Sends e (b.andThen next) :=
  Ensures.andThen (P := fun _ => True) (fun _ => trivial) fun u _ => h u

theorem sends_drawText {draw : Pen → Pen}
    (h : e ∈ (draw (s.writer.penAt s.text)).emitted) : Sends e (s.drawText draw) := by
  have hsubset : (s.drawText draw).Ensures fun u =>
      (draw (s.writer.penAt s.text)).emitted ⊆ u.device.output := drawAt_subset fun _ => rfl
  exact hsubset.mono fun u hu => hu h

theorem sends_writeText {text piece : List Char} (hpiece : piece ∈ Text.pieces '\t' text)
    (hne : piece ≠ []) : Sends (.text (String.ofList piece)) (s.writeText text) := by
  unfold writeText
  split
  · rename_i hempty
    rw [hempty] at hpiece
    exact absurd (List.mem_singleton.mp hpiece) hne
  · refine sends_andThen fun t => sends_drawText ?_
    exact List.mem_append_left _ (Pen.piece_mem_emitted _ hpiece hne)

theorem sends_writeLines {lines : List (List Char)} {line piece : List Char} (hline : line ∈ lines)
    (hpiece : piece ∈ Text.pieces '\t' (withoutReturn line)) (hne : piece ≠ []) :
    Sends (.text (String.ofList piece)) (writeLines lines s) := by
  have hany : ∀ line : List Char, LegibleText (fun _ => True) (withoutReturn line) :=
    fun _ _ _ _ => trivial
  induction lines generalizing s with
  | nil => cases hline
  | cons first rest ih =>
    cases rest with
    | nil =>
      obtain rfl := List.mem_singleton.mp hline
      exact sends_writeText hpiece hne
    | cons next others =>
      rcases List.mem_cons.mp hline with rfl | hline
      · have hfirst := (sends_writeText (s := s) hpiece hne).andThen fun u =>
          delivers_endLine u.legible_any
        exact hfirst.andThen fun u => delivers_writeLines trivial u.legible_any fun d _ => hany d
      · exact sends_andThen fun u => ih hline

end Page

namespace AnchoredLine

variable {l : AnchoredLine} {lines : List AnchoredLine} {w : Writer} {s : Span}

/-- The line is shown, but something else was drawn last. -/
def Awaits (content : Line) (l : AnchoredLine) : Prop :=
  l.visible = true ∧ l.content = content ∧ l.drawn ≠ content

variable {content : Line} (hs : s ∈ content) (hne : s.text ≠ "")

include hs hne

theorem sends_redraw (h : l.Awaits content) :
    (l.redraw w).Ensures fun r => .text s.text ∈ (device r).output := by
  obtain ⟨hvisible, rfl, hdrawn⟩ := h
  have hstale : ¬l.upToDate = true := by simp [upToDate, hdrawn]
  have hsubset : (l.draw w).Ensures fun r =>
      ((w.penAt l.atAnchor.position).line l.content).eraseRest.emitted ⊆ (device r).output :=
    drawAt_subset fun _ => rfl
  rw [redraw, if_pos hvisible, if_neg hstale]
  exact hsubset.mono fun r hr => hr (List.mem_append_left _ (Pen.span_mem_emitted _ hs hne))

theorem sends_redrawAll (hl : l ∈ lines) (h : l.Awaits content) :
    (redrawAll lines w).Ensures fun r => .text s.text ∈ (device r).output := by
  induction lines generalizing w with
  | nil => cases hl
  | cons first rest ih =>
    intro hok
    obtain ⟨hfirst, hrest⟩ := failure_redrawAll_cons.mp hok
    rw [state_redrawAll_cons hfirst]
    rcases List.mem_cons.mp hl with rfl | hl
    · have hlegible : ∀ d ∈ rest, d.content.Over fun _ => True := fun _ _ _ _ => trivial
      have hdelivers := delivers_redrawAll (l.redraw w).state.2 hlegible
      exact hdelivers.grew.mem (sends_redraw hs hne h hfirst)
    · exact ih hl hrest

end AnchoredLine

namespace Page

variable {s : Page} {content : Line}

/-- A line of the block is shown, but something else was drawn in it last. -/
def Awaits (content : Line) (s : Page) : Prop := ∃ l ∈ s.block.lines, l.Awaits content

theorem Awaits.clearBlock (h : s.Awaits content) (pending : Bool) :
    (s.clearBlock pending).Ensures fun u => u.Awaits content := by
  unfold Page.clearBlock
  simp only
  split
  · exact ensures_done h
  · refine ensures_ofExcept fun r _ => ?_
    obtain ⟨l, hl, hawaits⟩ := h
    exact ⟨l.raise r.scrolled, List.mem_map_of_mem hl, hawaits⟩

theorem Awaits.anchorBlock (h : s.Awaits content) :
    s.anchorBlock.Ensures fun u => u.Awaits content := by
  unfold Page.anchorBlock
  split
  · exact (h.clearBlock false).andThen fun u hu => ensures_done hu
  · exact ensures_done h

/-- A flush that completes draws what a line awaits. -/
theorem Awaits.flush (h : s.Awaits content) {span : Span} (hspan : span ∈ content)
    (hne : span.text ≠ "") : Sends (.text span.text) s.flush := by
  have hredrawn : Sends (.text span.text) (s.anchorBlock.andThen redrawLines) :=
    h.anchorBlock.andThen fun u ⟨l, hl, hawaits⟩ =>
      (AnchoredLine.sends_redrawAll hspan hne hl hawaits).map
  exact (hredrawn.andThen delivers_restCursor).andThen delivers_flushDevice

/-! ## The texts and contents that keep all breaks accounted for -/

/-- What is sent and holds a break, as text, is not accounted for. -/
theorem not_accounted {c : Char} {text : List Char} (hc : c ∈ text) (hbreak : IsBreak c) :
    ¬(Emission.text (String.ofList text)).Accounted := by
  intro h
  have hline := h ⟨c, by rwa [Emission.render, String.toList_ofList], hbreak⟩
  cases hline

/-- A fresh page on a device that refuses nothing. -/
def fresh : Page := start {} Palette.blank 0

theorem reliable_fresh : fresh.device.Reliable := ⟨rfl, rfl⟩

theorem unbroken_of_accounted {text : String}
    (h : ∀ e ∈ (fresh.act (.output (.text text))).state.device.output, e.Accounted) :
    Text.Unbroken text := by
  intro line hline hreturn
  obtain ⟨piece, hpiece, hmem⟩ := Text.exists_piece_of_mem hreturn (by decide : '\r' ≠ '\t')
  have hany : OutputRequest.Over (fun _ => True) (.text text) := fun _ _ _ _ _ => trivial
  have hdelivers := delivers_output trivial fresh.legible_any hany
  have hsent := sends_writeLines (s := fresh) hline hpiece (List.ne_nil_of_mem hmem)
    (hdelivers.completes reliable_fresh)
  exact not_accounted hmem (.inl rfl) (h _ hsent)

theorem over_of_accounted {content : Line}
    (h : ∀ e ∈ (fresh.steps [.action (.setLine 0 content), .action .flush]).device.output,
      e.Accounted) :
    content.Over fun c => ¬IsBreak c := by
  intro c hc hbreak
  obtain ⟨span, hspan, hmem⟩ := List.mem_flatMap.mp hc
  have hne : content ≠ [] := List.ne_nil_of_mem hspan
  have htext : span.text ≠ "" := by
    intro hempty
    rw [hempty] at hmem
    cases hmem
  have hawaits : (fresh.act (.setLine 0 content)).state.Awaits content :=
    ⟨_, List.mem_cons_self, rfl, rfl, hne.symm⟩
  have hdelivers := delivers_flush (fresh.act (.setLine 0 content)).state.legible_any
  have hsent := hawaits.flush hspan htext (hdelivers.completes reliable_fresh)
  rw [← String.ofList_toList (s := span.text)] at hsent
  exact not_accounted hmem hbreak (h _ hsent)

/-- Over which texts and contents every break that is sent belongs to a line break that the pen
counted, whatever is asked of the page and whatever its device refuses: over just those texts that
hold no carriage return but in front of a line end or at their own end, and those contents that hold
no break at all. -/
theorem accounted_steps_iff (texts : String → Prop) (contents : Line → Prop) :
    (∀ (device : Device) (palette : Palette) (workers : Nat) (events : List PageEvent),
      device.output = [] → (∀ e ∈ events, e.Uses texts contents) →
        ∀ e ∈ ((start device palette workers).steps events).device.output, e.Accounted) ↔
      (∀ text, texts text → Text.Unbroken text) ∧
        ∀ content, contents content → content.Over fun c => ¬IsBreak c := by
  constructor
  · intro h
    constructor
    · intro text htext
      refine unbroken_of_accounted (h {} Palette.blank 0 [.action (.output (.text text))] rfl ?_)
      exact List.forall_mem_singleton.mpr htext
    · intro content hcontent
      refine over_of_accounted
        (h {} Palette.blank 0 [.action (.setLine 0 content), .action .flush] rfl ?_)
      exact List.forall_mem_cons.mpr ⟨hcontent, List.forall_mem_singleton.mpr trivial⟩
  · rintro ⟨htexts, hcontents⟩ device palette workers events hfresh hevents
    exact (accounts_steps htexts hcontents (accounts_start hfresh palette workers) hevents).sent

/-- The content of a line may hold a line feed, which is then sent as it is. -/
theorem not_accounted_steps :
    ¬∀ (device : Device) (palette : Palette) (workers : Nat) (events : List PageEvent),
      device.output = [] →
        ∀ e ∈ ((start device palette workers).steps events).device.output, e.Accounted := by
  intro h
  have hflush := h {} Palette.blank 0 [.action (.setLine 0 [Span.plain "a\nb"]), .action .flush] rfl
  have hunbroken : ¬IsBreak '\n' := over_of_accounted hflush '\n' (by decide)
  exact hunbroken (.inr rfl)

end Page

end ProgressDisplay
