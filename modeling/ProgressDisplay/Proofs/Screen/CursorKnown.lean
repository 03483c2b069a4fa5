import ProgressDisplay.Attempt
import ProgressDisplay.Proofs.Screen.Caret
import ProgressDisplay.Proofs.Screen.Drawing

/-!
# The writer knows where the cursor is

Callers draw through a writer, each from a position of its own and with a listener that is to be
told of every scroll. Some calls fail, because the device refuses what they wrote. Whatever the
calls are, the cursor of the terminal stands where the writer takes it to be, as long as the columns
can be counted.

* `Traces.draw`: a pen knows where the cursor is after what it has emitted.
* `Knows.call`: a call keeps the cursor known, and tells its caller all or nothing.
* `run_knows_cursor`: every run of calls on a fresh writer.
-/

namespace ProgressDisplay

/-- Text without control characters that takes as many columns as its characters one by one. -/
structure Text.Additive (text : List Char) : Prop where
  printable : ∀ c ∈ text, isControl c = false
  whole : width (String.ofList text) = Caret.columns text

instance (text : List Char) : Decidable (Text.Additive text) :=
  decidable_of_iff ((text.all fun c => !Text.isControl c) = true ∧
      Text.width (String.ofList text) = Caret.columns text)
    ⟨fun h => ⟨by simpa using h.1, h.2⟩, fun h => ⟨by simpa using h.1, h.2⟩⟩

/-- What is drawn in one call, which may depend on the column that has been reached. -/
inductive Drawing where
  | nothing
  | text (content : String)
  | eraseRest
  | breakLine
  | styled (style : Style) (body : Drawing)
  | both (first second : Drawing)
  | byColumn (choose : Nat → Drawing)

namespace Drawing

def draw : Drawing → Pen → Pen
  | nothing, p => p
  | text content, p => p.text content
  | eraseRest, p => p.eraseRest
  | breakLine, p => p.breakLine
  | styled style body, p => p.styled style fun q => body.draw q
  | both first second, p => second.draw (first.draw p)
  | byColumn choose, p => (choose p.column).draw p

/-- All text of the drawing can be measured character by character. -/
def Additive : Drawing → Prop
  | text content => Text.Additive content.toList
  | styled _ body => body.Additive
  | both first second => first.Additive ∧ second.Additive
  | byColumn choose => ∀ column, (choose column).Additive
  | _ => True

end Drawing

namespace Pen

variable {p : Pen} {base : Caret} {emissions : List Emission}

/-- From a known cursor on, the pen knows where the cursor is and how often the terminal scrolled,
unless a column was reached that cannot be counted. -/
structure Traces (base : Caret) (p : Pen) : Prop where
  quiet : ∀ e ∈ p.emitted, e.Quiet
  known : (base.performAll p.emitted).furthest < Position.limit →
    (base.performAll p.emitted).cursor = p.cursor ∧
      (base.performAll p.emitted).scrolls = base.scrolls + p.scrolled

theorem Traces.emit {q : Pen} (h : p.Traces base) (hemitted : q.emitted = p.emitted ++ emissions)
    (hquiet : ∀ e ∈ emissions, e.Quiet)
    (hknown : ∀ c : Caret, c.cursor = p.cursor →
      (c.performAll emissions).furthest < Position.limit →
      (c.performAll emissions).cursor = q.cursor ∧
        (c.performAll emissions).scrolls + p.scrolled = c.scrolls + q.scrolled) :
    q.Traces base where
  quiet := by
    intro e he
    rw [hemitted] at he
    rcases List.mem_append.mp he with he | he
    · exact h.quiet e he
    · exact hquiet e he
  known := by
    intro hfits
    rw [hemitted, Caret.performAll_append] at hfits ⊢
    -- Columns that can be counted now could be counted before, so the cursor was known before.
    have hbefore := Nat.lt_of_le_of_lt (Caret.le_furthest_performAll _ emissions) hfits
    obtain ⟨hcursor, hscrolls⟩ := h.known hbefore
    obtain ⟨hcursor', hscrolls'⟩ := hknown _ hcursor hfits
    exact ⟨hcursor', by omega⟩

/-- Emissions that neither move the cursor nor scroll the terminal. -/
theorem Traces.emit_still (h : p.Traces base) (hquiet : ∀ e ∈ emissions, e.Quiet)
    (hstill : ∀ e ∈ emissions, ∀ c : Caret, c.perform e = c) : (p.emit emissions).Traces base := by
  have hall (c : Caret) : c.performAll emissions = c := by
    clear hquiet
    induction emissions with
    | nil => rfl
    | cons e rest ih =>
      rw [Caret.performAll, List.foldl_cons, hstill e List.mem_cons_self]
      exact ih fun d hd => hstill d (List.mem_cons_of_mem e hd)
  refine h.emit rfl hquiet fun c hcursor _ => ?_
  rw [hall]
  exact ⟨hcursor, rfl⟩

/-- A switch of the rendition does not move the cursor. -/
theorem Traces.emit_switches (h : p.Traces base) (hswitches : ∀ e ∈ emissions, e.Switches) :
    (p.emit emissions).Traces base := by
  refine h.emit_still (fun e he => (hswitches e he).silent.1) fun e he c => ?_
  have hswitch := hswitches e he
  cases e with
  | bold | italic | reverse | foreground _ | reset => rfl
  | _ => exact hswitch.elim

namespace Traces

theorem text {content : String} (h : p.Traces base) (hcontent : Text.Additive content.toList) :
    (p.text content).Traces base := by
  unfold Pen.text
  split
  · exact h
  · have hquiet : ∀ e ∈ [Emission.text content], e.Quiet := by
      intro e he
      obtain rfl := List.mem_singleton.mp he
      intro c hc
      have hplain := hcontent.printable c hc
      refine ⟨?_, ?_, ?_⟩ <;>
      · rintro rfl
        cases hplain
    refine h.emit rfl hquiet fun c hcursor hfits => ?_
    -- The pen advances by the width of the whole text, the terminal character by character.
    obtain ⟨hput, hscrolls⟩ := c.foldl_put content.toList
    have hwidth : Text.width content = Caret.columns content.toList := by
      have hwhole := hcontent.whole
      rwa [String.ofList_toList] at hwhole
    have hreached := (content.toList.foldl Caret.put c).within
    have hlimit : c.cursor.col + Caret.columns content.toList < Position.limit := by
      rw [hput] at hreached
      exact Nat.lt_of_le_of_lt hreached hfits
    refine ⟨?_, by rw [← hscrolls]; rfl⟩
    show (content.toList.foldl Caret.put c).cursor = p.cursor.advance (Text.width content)
    rw [hput, hcursor, hwidth, Position.advance, Nat.min_eq_left]
    rw [← hcursor]
    exact Nat.le_of_lt hlimit

theorem eraseRest (h : p.Traces base) : p.eraseRest.Traces base :=
  h.emit_still (by simp [Emission.Quiet]) (by simp [Caret.perform])

theorem breakLine (h : p.Traces base) : p.breakLine.Traces base := by
  have hemitted : p.breakLine.emitted = p.emitted ++ [.lineBreak] := by
    unfold Pen.breakLine
    split <;> rfl
  refine h.emit hemitted (by simp [Emission.Quiet]) fun c hcursor _ => ?_
  rw [breakLine_cursor, breakLine_scrolled, ← hcursor]
  refine ⟨c.cursor_lineBreak, ?_⟩
  show (c.perform .lineBreak).scrolls + _ = _
  rw [c.scrolls_lineBreak]
  omega

theorem styled (style : Style) {body : Pen → Pen} (h : p.Traces base)
    (hbody : ∀ q : Pen, q.Traces base → (body q).Traces base) :
    (p.styled style body).Traces base := by
  have hbegun := h.emit_switches (Rendition.switches_on (p.palette style))
  exact (hbody _ hbegun).emit_switches (Rendition.switches_off (p.palette style))

/-- A drawing is traced part by part. -/
theorem draw {d : Drawing} (h : p.Traces base) (hd : d.Additive) : (d.draw p).Traces base := by
  induction d generalizing p with
  | nothing => exact h
  | text content => exact h.text hd
  | eraseRest => exact h.eraseRest
  | breakLine => exact h.breakLine
  | styled style body ih => exact h.styled style fun q hq => ih hq hd
  | both first second ihFirst ihSecond => exact ihSecond (ihFirst h hd.1) hd.2
  | byColumn choose ih => exact ih p.column h (hd p.column)

end Traces

end Pen

/-- Who draws: where, and how often its listener was told of a scroll. -/
structure Caller where
  position : Position
  notified : Nat := 0

inductive WriterAction where
  | draw (drawing : Drawing)
  | move

def WriterAction.Additive : WriterAction → Prop
  | draw drawing => drawing.Additive
  | move => True

/-- One call of a writer, with the writes that the device refuses in the meantime. -/
structure WriterCall where
  fault : WriteFault
  caller : Caller
  action : WriterAction

namespace Writer

/-- Carries out what a caller asks for. -/
def serve (w : Writer) (caller : Caller) : WriterAction → Attempt DeviceFailure (Writer × Caller)
  | .draw drawing =>
    .ofExcept (w, caller) (w.drawAt caller.position drawing.draw) fun r =>
      (r.writer, { position := r.stop, notified := caller.notified + r.scrolled })
  | .move =>
    .ofExcept (w, caller) (w.moveTo caller.position) fun w => (w, caller)

/-- The writer whose device refuses these writes from now on. -/
def withFault (w : Writer) (fault : WriteFault) : Writer :=
  { w with device := { w.device with writeFault := fault } }

def call (w : Writer) (c : WriterCall) : Attempt DeviceFailure (Writer × Caller) :=
  (w.withFault c.fault).serve c.caller c.action

/-- The writer after calls of which some may have failed. -/
def callAll (calls : List WriterCall) (w : Writer) : Writer :=
  calls.foldl (fun w c => (w.call c).state.1) w

/-- The terminal that read all that the device was given. -/
def reader (w : Writer) : CaretReader := CaretReader.replay w.device.output

/-- The terminal is between two control sequences, and its cursor is where the writer takes it to
be, unless a column was reached that cannot be counted. -/
structure Knows (w : Writer) : Prop where
  ground : w.reader = { caret := w.reader.caret }
  cursor : w.reader.caret.furthest < Position.limit → w.reader.caret.cursor = w.cursor

namespace Knows

variable {w w' : Writer} {place : Position} {caller : Caller} {action : WriterAction}

theorem penAt (h : w.Knows) (place : Position) : (w.penAt place).Traces w.reader.caret where
  quiet := quiet_motions w.cursor place
  known := by
    intro hfits
    have hbefore := Nat.lt_of_le_of_lt (Caret.le_furthest_performAll _ _) hfits
    have hgoes := Caret.goes_motions (c := w.reader.caret) place
    rw [h.cursor hbefore] at hgoes
    exact ⟨hgoes.cursor, hgoes.scrolls⟩

/-- What a device took is read from where the terminal was left. -/
theorem deliver {device : Device} {emissions : List Emission} (h : w.Knows)
    (hquiet : ∀ e ∈ emissions, e.Quiet) (hok : w.device.write emissions = .ok device) :
    CaretReader.replay device.output = { caret := w.reader.caret.performAll emissions } := by
  obtain ⟨-, rfl⟩ := Device.write_eq_ok_iff.mp hok
  rw [CaretReader.replay_append]
  show w.reader.readAll _ = _
  rw [h.ground]
  exact CaretReader.readAll_renderAll _ hquiet

theorem withFault (h : w.Knows) (fault : WriteFault) : (w.withFault fault).Knows :=
  ⟨h.ground, h.cursor⟩

end Knows

/-- A call that succeeds tells its caller where the cursor is, and of every scroll once. A call that
fails delivers nothing and leaves the cursor and the caller as they were. -/
structure Answers (w : Writer) (caller : Caller) (a : Attempt DeviceFailure (Writer × Caller)) :
    Prop where
  told : a.failure = none → a.state.2.position = a.state.1.cursor ∧
    a.state.2.notified + w.reader.caret.scrolls =
      caller.notified + a.state.1.reader.caret.scrolls
  kept : a.failure ≠ none → a.state.1.cursor = w.cursor ∧
    a.state.1.device.output = w.device.output ∧ a.state.2 = caller

/-- A caller gets its answer, and the cursor stays known. -/
structure Serves (w : Writer) (caller : Caller) (a : Attempt DeviceFailure (Writer × Caller)) :
    Prop where
  knows : a.state.1.Knows
  reached : w.reader.caret.furthest ≤ a.state.1.reader.caret.furthest
  answers : a.state.1.reader.caret.furthest < Position.limit → w.Answers caller a

variable {w w' : Writer} {caller : Caller} {action : WriterAction} {c : WriterCall}

theorem serves_of_failure (h : w.Knows) (failure : DeviceFailure) :
    w.Serves caller { state := (w, caller), failure := some failure } := by
  refine ⟨h, Nat.le_refl _, fun _ => ⟨fun hok => ?_, fun _ => ⟨rfl, rfl, rfl⟩⟩⟩
  cases hok

theorem serves_of_commit {p : Pen} {r : Drawn} (h : w.Knows) (hp : p.Traces w.reader.caret)
    (hok : w.commit p = .ok r) :
    w.Serves caller
      { state :=
          (r.writer, { position := r.stop, notified := caller.notified + r.scrolled }) } := by
  obtain ⟨device, hwrite, rfl⟩ := commit_eq_ok_iff.mp hok
  have hreader : reader { w with device, cursor := p.cursor } =
      { caret := w.reader.caret.performAll p.emitted } := h.deliver hp.quiet hwrite
  have hcaret := congrArg CaretReader.caret hreader
  refine ⟨⟨?_, fun hfits => ?_⟩, ?_, fun hfits => ⟨fun _ => ⟨rfl, ?_⟩, fun hfailed => ?_⟩⟩
  · rw [hreader]
  · rw [hcaret] at hfits ⊢
    exact (hp.known hfits).1
  · rw [hcaret]
    exact Caret.le_furthest_performAll _ _
  · rw [hcaret] at hfits ⊢
    rw [(hp.known hfits).2]
    show caller.notified + p.scrolled + _ = _
    omega
  · exact absurd rfl hfailed

/-- A motion is a drawing of nothing. -/
theorem commit_of_moveTo {target : Position} (hok : w.moveTo target = .ok w') :
    w.commit (w.penAt target) = .ok { writer := w', stop := target, scrolled := 0 } := by
  obtain ⟨device, hwrite, rfl⟩ := moveTo_eq_ok_iff.mp hok
  exact commit_eq_ok_iff.mpr ⟨device, hwrite, rfl⟩

theorem Knows.serve (h : w.Knows) (haction : action.Additive) :
    w.Serves caller (w.serve caller action) := by
  cases action with
  | draw drawing =>
    have hpen := (h.penAt caller.position).draw haction
    rw [Writer.serve]
    cases hdraw : w.drawAt caller.position drawing.draw with
    | error failure => exact serves_of_failure h failure
    | ok r => exact serves_of_commit h hpen hdraw
  | move =>
    rw [Writer.serve]
    cases hmove : w.moveTo caller.position with
    | error failure => exact serves_of_failure h failure
    | ok w' => exact serves_of_commit h (h.penAt caller.position) (commit_of_moveTo hmove)

theorem Knows.call (h : w.Knows) (hc : c.action.Additive) : w.Serves c.caller (w.call c) := by
  have hserved : (w.withFault c.fault).Serves c.caller (w.call c) := (h.withFault c.fault).serve hc
  refine ⟨hserved.knows, hserved.reached, fun hfits => ?_⟩
  obtain ⟨htold, hkept⟩ := hserved.answers hfits
  exact ⟨htold, hkept⟩

theorem callAll_append (first second : List WriterCall) (w : Writer) :
    callAll (first ++ second) w = callAll second (callAll first w) := List.foldl_append

theorem Knows.callAll {calls : List WriterCall} (h : w.Knows)
    (hcalls : ∀ c ∈ calls, c.action.Additive) :
    (callAll calls w).Knows ∧
      w.reader.caret.furthest ≤ (callAll calls w).reader.caret.furthest := by
  induction calls generalizing w with
  | nil => exact ⟨h, Nat.le_refl _⟩
  | cons c rest ih =>
    have hserved := h.call (hcalls c List.mem_cons_self)
    obtain ⟨hend, hlast⟩ := ih hserved.knows fun d hd => hcalls d (List.mem_cons_of_mem c hd)
    exact ⟨hend, Nat.le_trans hserved.reached hlast⟩

theorem knows_fresh {device : Device} (h : device.output = []) (palette : Palette) :
    Knows { device, palette } := by
  have hreader : reader { device, palette } = {} := by
    rw [reader, h]
    rfl
  exact ⟨by rw [hreader], fun _ => by rw [hreader]⟩

/-- On a fresh writer, whatever is drawn and wherever the cursor is moved, and whichever writes are
refused, a terminal that reads all that the device was given ends where the writer takes its cursor
to be. Every call on the way tells its caller what it did. -/
theorem run_knows_cursor {device : Device} (hfresh : device.output = []) (palette : Palette)
    (calls : List WriterCall) (hcalls : ∀ c ∈ calls, c.action.Additive)
    (hcounted : (callAll calls { device, palette }).reader.caret.furthest < Position.limit) :
    (callAll calls { device, palette }).reader.reading = .ground ∧
    (callAll calls { device, palette }).reader.caret.cursor =
      (callAll calls { device, palette }).cursor ∧
    ∀ earlier c later, calls = earlier ++ c :: later →
      Answers (callAll earlier { device, palette }) c.caller
        ((callAll earlier { device, palette }).call c) := by
  have hstart := knows_fresh hfresh palette
  obtain ⟨hend, -⟩ := hstart.callAll hcalls
  refine ⟨by rw [hend.ground], hend.cursor hcounted, ?_⟩
  rintro earlier c later rfl
  obtain ⟨hknows, -⟩ := hstart.callAll fun d hd => hcalls d (List.mem_append_left _ hd)
  have hserved := hknows.call (hcalls c (List.mem_append_right _ List.mem_cons_self))
  obtain ⟨-, hlast⟩ := hserved.knows.callAll fun d hd =>
    hcalls d (List.mem_append_right _ (List.mem_cons_of_mem c hd))
  rw [callAll_append] at hcounted
  exact hserved.answers (Nat.lt_of_le_of_lt hlast hcounted)

/-- A line break that scrolls, a refused one, a wide character drawn higher up, and a motion. -/
theorem run_knows_cursor_of_refusal :
    (callAll
      [⟨.none, { position := {} }, .draw (.both (.text "ab") .breakLine)⟩,
        ⟨.always "closed", { position := ⟨3, 5⟩, notified := 2 }, .draw .breakLine⟩,
        ⟨.none, { position := ⟨2, 4⟩ }, .draw (.styled {} (.both (.text "日") .eraseRest))⟩,
        ⟨.none, { position := ⟨1, 0⟩ }, .move⟩] { palette := .blank }).reader.caret.cursor =
      ⟨1, 0⟩ ∧
    Answers (callAll [⟨.none, { position := {} }, .draw (.both (.text "ab") .breakLine)⟩]
        { palette := .blank }) { position := ⟨3, 5⟩, notified := 2 }
      ((callAll [⟨.none, { position := {} }, .draw (.both (.text "ab") .breakLine)⟩]
        { palette := .blank }).call
          ⟨.always "closed", { position := ⟨3, 5⟩, notified := 2 }, .draw .breakLine⟩) := by
  obtain ⟨-, hcursor, hanswers⟩ := @run_knows_cursor {} rfl .blank
    [⟨.none, { position := {} }, .draw (.both (.text "ab") .breakLine)⟩,
      ⟨.always "closed", { position := ⟨3, 5⟩, notified := 2 }, .draw .breakLine⟩,
      ⟨.none, { position := ⟨2, 4⟩ }, .draw (.styled {} (.both (.text "日") .eraseRest))⟩,
      ⟨.none, { position := ⟨1, 0⟩ }, .move⟩] (by
        simp only [List.forall_mem_cons, WriterAction.Additive,
          Drawing.Additive, and_true, List.not_mem_nil, false_implies, implies_true]
        decide +kernel) (by decide +kernel)
  refine ⟨hcursor.trans ?_, hanswers [_] _ [_, _] rfl⟩
  decide +kernel

end Writer

end ProgressDisplay
