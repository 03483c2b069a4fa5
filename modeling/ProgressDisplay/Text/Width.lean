import ProgressDisplay.Text.Emoji

/-!
# Display width of text

A character alone has the width that the tables give it (`charWidth`). In a string some characters
are drawn together with those behind them: letters of a sign, parts of an emoji, and what stands
before a variation selector. A string is therefore measured from its end, and `Lead` is what the
measured part means for the character before it.

* `measure_cons`: the width of a text is the width of its tail plus what its first character adds
  in front of that tail.
* `measure_of_plain`: printable ASCII counts one column a character.
* `measure_nonneg`: no text takes less than no column, although a character may add less.
-/

namespace ProgressDisplay.Text

/-- Whether a character is a control character, which has no width of its own. -/
def isControl (c : Char) : Bool :=
  c.toNat < 0x20 || (0x7F ≤ c.toNat && c.toNat < 0xA0)

/-- The width of a character alone. A control character counts nothing. -/
def charWidth (c : Char) : Nat :=
  if isControl c then 0
  else if c.toNat < 0xA0 then 1
  else if c.toNat = 0x17D8 then 3
  else if inRanges zeroWidth c.toNat then 0
  else if inRanges doubleWidth c.toNat then 2
  else 1

/-- What measured text begins with, as far as it matters to the character before it. -/
inductive Opening where
  /-- nothing that matters -/
  | other
  /-- a line feed, which swallows a carriage return -/
  | lineFeed
  /-- a part of a sign of several letters -/
  | ligature (l : Ligature)
  /-- a part of an emoji of several characters -/
  | emoji (e : EmojiTail)
  deriving DecidableEq, Repr

/-- What measured text means for the character before it: how it begins, and which variation
selectors stand in front of that. -/
structure Lead where
  opening : Opening := .other
  /-- A selector of the text form. -/
  textForm : Bool := false
  /-- A selector of the emoji form. -/
  emojiForm : Bool := false
  deriving DecidableEq, Repr

namespace Lead

/-- Behind a selector of the emoji form the letters of a sign still count, and so does a joiner in
front of an emoji. -/
def selectEmoji (lead : Lead) : Lead :=
  match lead.opening with
  | .ligature _ => { lead with emojiForm := true }
  | .emoji .joined => { lead with emojiForm := true }
  | .emoji .joinedKeycap => { lead with emojiForm := true }
  | _ => { emojiForm := true }

/-- Behind a selector of the text form only the letters of a sign still count. -/
def selectText (lead : Lead) : Lead :=
  match lead.opening with
  | .ligature _ => { lead with textForm := true }
  | _ => { textForm := true }

/-- The lead that is left when a selector of the emoji form finds no character to select for. -/
def withoutEmojiForm (lead : Lead) : Lead :=
  match lead.opening with
  | .ligature _ => { lead with emojiForm := false }
  | _ => {}

/-- Whether an emoji in front of the lead belongs to the emoji that the lead begins with. -/
def bindsEmoji (lead : Lead) : Bool :=
  lead.opening == .emoji .joined || lead.opening == .emoji .joinedKeycap

end Lead

def hasVariants (c : Char) : Bool := inRanges emojiVariants c.toNat

/-- Characters that lose a column in their text form: wide by default, and no squared ideograph,
which stays wide in either form. -/
def narrowsAsText (c : Char) : Bool :=
  hasVariants c && inRanges emojiByDefault c.toNat && !(0x1F200 ≤ c.toNat && c.toNat ≤ 0x1F2FF)

/-- How text begins with a character that nothing behind it changes. -/
def Opening.ofChar (c : Char) : Opening :=
  match Ligature.ofLetter? c with
  | some l => .ligature l
  | none =>
    match EmojiTail.ofChar? c with
    | some e => .emoji e
    | none => .other

/-- A character past the Latin and control ranges in front of text that starts with no selector. -/
def beforeOpening (c : Char) (opening : Opening) : Int × Opening :=
  let alone : Int × Opening := (charWidth c, Opening.ofChar c)
  match opening with
  | .ligature l =>
    match l.before? c with
    | some (change, some next) => (change, .ligature next)
    | some (change, none) => (change, .other)
    | none => alone
  | .emoji e =>
    match e.before? c with
    | some (change, next) => (change, .emoji next)
    | none => alone
  | _ => alone

/-- A character in front of text that starts with no selector of the emoji form. -/
def beforePlain (c : Char) (lead : Lead) : Int × Lead :=
  if c = '\n' then (0, { opening := .lineFeed })
  else if c = '\r' ∧ lead.opening = .lineFeed then (0, {})
  else if c.toNat ≤ 0xA0 then (1, {})
  else if c = '\uFE0F' then (0, lead.selectEmoji)
  else if c = '\uFE0E' then (0, lead.selectText)
  else if lead.textForm ∧ narrowsAsText c then (1, {})
  else
    let added := beforeOpening c lead.opening
    (added.1, { opening := added.2 })

/-- The columns that a character adds in front of measured text, and the lead of the whole. -/
def before (c : Char) (lead : Lead) : Int × Lead :=
  if lead.emojiForm then
    if hasVariants c then (if lead.bindsEmoji then 0 else 2, { opening := .emoji .complete })
    else beforePlain c lead.withoutEmojiForm
  else beforePlain c lead

/-- The width of a text and its lead. -/
def measure : List Char → Int × Lead
  | [] => (0, {})
  | c :: rest =>
    let tail := measure rest
    let head := before c tail.2
    (head.1 + tail.1, head.2)

/-- The columns that a text takes on the terminal. -/
def width (text : String) : Nat := (measure text.toList).1.toNat

/-! ## First facts -/

theorem width_empty : width "" = 0 := rfl

theorem measure_cons (c : Char) (rest : List Char) :
    (measure (c :: rest)).1 = (before c (measure rest).2).1 + (measure rest).1 := rfl

/-- A character of printable ASCII. -/
def isPlain (c : Char) : Bool := 0x20 ≤ c.toNat && c.toNat < 0x7F

theorem charWidth_of_plain {c : Char} (h : isPlain c = true) : charWidth c = 1 := by
  simp only [isPlain, Bool.and_eq_true, decide_eq_true_eq] at h
  have h1 : isControl c = false := by
    simp only [isControl, Bool.or_eq_false_iff, Bool.and_eq_false_iff, decide_eq_false_iff_not]
    omega
  have h2 : c.toNat < 0xA0 := by omega
  simp [charWidth, h1, h2]

theorem beforePlain_of_plain {c : Char} (h : isPlain c = true) (lead : Lead) :
    beforePlain c lead = (1, {}) := by
  simp only [isPlain, Bool.and_eq_true, decide_eq_true_eq] at h
  have hn : c ≠ '\n' := by rintro rfl; revert h; decide
  have hr : c ≠ '\r' := by rintro rfl; revert h; decide
  have hle : c.toNat ≤ 0xA0 := by omega
  simp [beforePlain, hn, hr, hle]

theorem measure_of_plain {text : List Char} (h : ∀ c ∈ text, isPlain c = true) :
    measure text = ((text.length : Int), {}) := by
  induction text with
  | nil => rfl
  | cons c rest ih =>
    have hrest := ih fun d hd => h d (List.mem_cons_of_mem c hd)
    have hc := beforePlain_of_plain (h c List.mem_cons_self) {}
    simp [measure, hrest, before, hc, Int.add_comm]

/-! ## No text takes less than no column -/

/-- The columns counted so far that the text will not take if it goes on as it may. -/
def Opening.owed : Opening → Nat
  | .ligature l => l.owed
  | .emoji e => e.owed
  | _ => 0

theorem inRanges_eq_false_of_apart {first second : List (Nat × Nat)} {code : Nat}
    (apart : ∀ r ∈ first, ∀ s ∈ second, r.2 < s.1 ∨ s.2 < r.1)
    (h : inRanges first code = true) : inRanges second code = false := by
  simp only [inRanges, List.any_eq_true, Bool.and_eq_true, decide_eq_true_eq] at h
  obtain ⟨r, hr, hlow, hhigh⟩ := h
  simp only [inRanges, List.any_eq_false, Bool.and_eq_true, decide_eq_true_eq]
  intro s hs
  have := apart r hr s hs
  omega

theorem isControl_eq_inRanges (c : Char) :
    isControl c = inRanges [(0, 0x1F), (0x7F, 0x9F)] c.toNat := by
  simp only [isControl, inRanges, List.any_cons, List.any_nil, Bool.or_false, Nat.zero_le,
    decide_true, Bool.true_and]
  congr 1
  · exact decide_eq_decide.mpr (by omega)
  · congr 1
    exact decide_eq_decide.mpr (by omega)

theorem charWidth_pos {c : Char} (hcontrol : isControl c = false)
    (hzero : inRanges zeroWidth c.toNat = false) : 0 < charWidth c := by
  simp only [charWidth, hcontrol, hzero]
  repeat' split
  all_goals simp_all

/-- Where a table of characters names no control character and none without width, all that it
names take a column. -/
theorem charWidth_pos_of_inRanges {ranges : List (Nat × Nat)} {c : Char}
    (hcontrol : ∀ r ∈ ranges, ∀ s ∈ [(0, 0x1F), (0x7F, 0x9F)], r.2 < s.1 ∨ s.2 < r.1)
    (hzero : ∀ r ∈ ranges, ∀ s ∈ zeroWidth, r.2 < s.1 ∨ s.2 < r.1)
    (h : inRanges ranges c.toNat = true) : 0 < charWidth c := by
  have hc : isControl c = false := by
    rw [isControl_eq_inRanges]
    exact inRanges_eq_false_of_apart hcontrol h
  exact charWidth_pos hc (inRanges_eq_false_of_apart hzero h)

theorem charWidth_pos_of_khmerLetter {c : Char} (h : inRanges khmerLetters c.toNat = true) :
    0 < charWidth c :=
  charWidth_pos_of_inRanges (by decide +kernel) (by decide +kernel) h

theorem owed_ofChar (c : Char) : (Opening.ofChar c).owed ≤ charWidth c := by
  unfold Opening.ofChar
  split
  · rename_i l hl
    rcases Ligature.owed_of_ofLetter? hl with h | ⟨h, hk⟩
    · simp [Opening.owed, h]
    · have := charWidth_pos_of_khmerLetter hk
      simp only [Opening.owed, h]
      omega
  · split
    · rename_i e he
      simp [Opening.owed, EmojiTail.owed_of_ofChar? he]
    · simp [Opening.owed]

theorem beforeOpening_owed (c : Char) (opening : Opening) :
    ((beforeOpening c opening).2.owed : Int) ≤ (beforeOpening c opening).1 + opening.owed := by
  have alone (n : Nat) : ((Opening.ofChar c).owed : Int) ≤ charWidth c + n := by
    have := owed_ofChar c
    omega
  unfold beforeOpening
  split
  · rename_i l
    split
    · rename_i change next h
      exact Ligature.before?_owed h
    · rename_i change h
      exact Ligature.before?_owed h
    · exact alone _
  · rename_i e
    split
    · rename_i change next h
      exact EmojiTail.before?_owed h
    · exact alone _
  · exact alone _

theorem owed_selectEmoji (lead : Lead) : lead.selectEmoji.opening.owed ≤ lead.opening.owed := by
  unfold Lead.selectEmoji
  split <;> simp [Opening.owed]

theorem owed_selectText (lead : Lead) : lead.selectText.opening.owed ≤ lead.opening.owed := by
  unfold Lead.selectText
  split <;> simp [Opening.owed]

theorem owed_withoutEmojiForm (lead : Lead) :
    lead.withoutEmojiForm.opening.owed ≤ lead.opening.owed := by
  unfold Lead.withoutEmojiForm
  split <;> simp [Opening.owed]

theorem beforePlain_owed (c : Char) (lead : Lead) :
    ((beforePlain c lead).2.opening.owed : Int) ≤ (beforePlain c lead).1 + lead.opening.owed := by
  have hother : Opening.other.owed = 0 := rfl
  have hfeed : Opening.lineFeed.owed = 0 := rfl
  have hemoji := owed_selectEmoji lead
  have htext := owed_selectText lead
  have hopening := beforeOpening_owed c lead.opening
  unfold beforePlain
  repeat' split
  all_goals simp only [hother, hfeed]
  all_goals omega

theorem before_owed (c : Char) (lead : Lead) :
    ((before c lead).2.opening.owed : Int) ≤ (before c lead).1 + lead.opening.owed := by
  have hcomplete : (Opening.emoji .complete).owed = 0 := rfl
  have hleft := owed_withoutEmojiForm lead
  unfold before
  split
  · split
    · simp only [hcomplete]
      split <;> omega
    · have := beforePlain_owed c lead.withoutEmojiForm
      omega
  · exact beforePlain_owed c lead

/-- What a text owes has been counted in its width. -/
theorem owed_le_measure (text : List Char) :
    ((measure text).2.opening.owed : Int) ≤ (measure text).1 := by
  induction text with
  | nil => exact Int.le_refl 0
  | cons c rest ih =>
    have := before_owed c (measure rest).2
    simp only [measure]
    omega

theorem measure_nonneg (text : List Char) : 0 ≤ (measure text).1 := by
  have := owed_le_measure text
  omega

theorem width_eq_measure (text : String) : (width text : Int) = (measure text.toList).1 :=
  Int.toNat_of_nonneg (measure_nonneg text.toList)

end ProgressDisplay.Text
